/-
**Reads return the records of the list: an open heap file refines a list of records for lookups.**

A client of `HeapFile` sees the file as the list of its records, each with its identifier, read
along data pages (`Chain`). `Reading w hf first pages records` says that the open object `hf` can
read such a list: every page of it holds its bytes for its readers (`Cell.Holds`) and numbers
its records by itself, and the cursor page, while `curPage` is set, is pinned in its frame.
`getRecord(rid)` reads the page `rid` names, which is why any list of the file will do, and the
header plays no part.

* `HeapPage.getRecord_of_mem` — a page answers a record of its list from the slot the record's
  identifier names, on the page the page numbers itself.
* `Chain.lookup` — a record of a list sits on the page its identifier names, a page of the list.
* `HeapFile.getRecord_reads` — **a `getRecord` that returns `OK` returns the record the list
  holds under the identifier read, and leaves the object reading the list**, on the cursor page
  and through another page alike.
* `readSession_reads` — **a `HeapFile` session whose reads all return `OK` returns, for each
  identifier of a record of the file, that record.**
-/

import Minirel.Heap.Append
import Minirel.Heap.MarkReset

namespace Minirel

open World BufMgr

/-! ### Where a record sits -/

/-- A page answers a record of its list from the slot the record's identifier names, on the page
the page numbers itself. -/
theorem HeapPage.getRecord_of_mem {page : HeapPage} {rid : RID} {rec : Record}
    (mem : (rid, rec) ∈ page.liveRecords) :
    rid.pageNo = page.curPage ∧ page.getRecord rid = .ok rec := by
  obtain ⟨⟨slot, entry⟩, listed, named⟩ := List.mem_filterMap.mp
    (show (rid, rec) ∈ page.slots.enum.filterMap (HeapPage.entryRecord page.curPage) from mem)
  obtain ⟨r, rfl, same⟩ := Option.map_eq_some'.mp named
  cases same
  have stored := List.mem_enum_iff_getElem?.mp listed
  exact ⟨rfl, by simp [HeapPage.getRecord, HeapPage.slot, stored, Int.ofNat_nonneg]⟩

/-- A page refuses a record only with `INVALIDSLOTNO`. -/
theorem HeapPage.getRecord_error {page : HeapPage} {rid : RID} {status : Status}
    (refused : page.getRecord rid = .error status) : status = .invalidSlotNo := by
  unfold HeapPage.getRecord at refused
  split at refused <;> cases refused
  rfl

/-- A record of a list sits on the page its identifier names, a page of the list whose pages
number their records by themselves; that page answers the record. -/
theorem Chain.lookup {w : World HeapPage} {file : Option FileId} {first : Int} {pages : List Int}
    {records : List (RID × Record)} (chain : Chain w file first pages records)
    (numbered : ∀ p ∈ pages, ∀ page, (cellOf w (file, p)).content = some page → page.curPage = p)
    {rid : RID} {rec : Record} (mem : (rid, rec) ∈ records) :
    rid.pageNo ∈ pages ∧ ∃ page, (cellOf w (file, rid.pageNo)).content = some page ∧
      page.getRecord rid = .ok rec := by
  induction chain with
  | last => cases mem
  | @link pageNo page pages records _ read _ ih =>
    rcases List.mem_append.mp mem with here | later
    · obtain ⟨named, got⟩ := HeapPage.getRecord_of_mem here
      rw [numbered pageNo (List.mem_cons_self _ _) page read] at named
      exact ⟨named ▸ List.mem_cons_self _ _, page, named ▸ read, got⟩
    · obtain ⟨listed, found⟩ := ih (fun p mem' => numbered p (List.mem_cons_of_mem _ mem')) later
      exact ⟨List.mem_cons_of_mem _ listed, found⟩

/-! ### An object that reads a list -/

/-- The open heap file `hf` reads the list from `first`, with `pages` and `records`: every page of
the list holds its bytes for its readers, an eviction losing none, and numbers its records by
itself; the
cursor page, while `curPage` is set, is pinned in its frame. -/
structure Reading (w : World HeapPage) (hf : HeapFile) (first : Int) (pages : List Int)
    (records : List (RID × Record)) : Prop where
  agree : Agree w
  chain : Chain w hf.filePtr first pages records
  held : ∀ p ∈ pages, ∃ bytes, Cell.Holds bytes (cellOf w (hf.filePtr, p))
  numbered : ∀ p ∈ pages, ∀ page, (cellOf w (hf.filePtr, p)).content = some page → page.curPage = p
  cursor : ∀ frame, hf.curPage = some frame → PinnedAt w (hf.filePtr, hf.curPageNo) frame

/-- A list whose pages hold their bytes for their readers is read the same from every world
that keeps what they hold. -/
theorem Reading.of_keeps {w w' : World HeapPage} {file : Option FileId} {first : Int}
    {pages : List Int} {records : List (RID × Record)} (chain : Chain w file first pages records)
    (held : ∀ p ∈ pages, ∃ bytes, Cell.Holds bytes (cellOf w (file, p)))
    (numbered : ∀ p ∈ pages, ∀ page, (cellOf w (file, p)).content = some page → page.curPage = p)
    (keeps : Keeps w w') (agree : Agree w') {hf : HeapFile} (named : hf.filePtr = file)
    (cursor : ∀ frame, hf.curPage = some frame → PinnedAt w' (hf.filePtr, hf.curPageNo) frame) :
    Reading w' hf first pages records := by
  have same (p : Int) (mem : p ∈ pages) : (cellOf w' (file, p)).content = (cellOf w (file, p)).content := by
    obtain ⟨bytes, holds⟩ := held p mem
    rw [(keeps _ _ holds).content, holds.content]
  subst named
  exact ⟨agree, chain.of_keeps held keeps,
    fun p mem => (held p mem).imp fun bytes holds => keeps _ _ holds,
    fun p mem page read => numbered p mem page (by rw [← same p mem, read]), cursor⟩

namespace HeapFile

variable {w w' : World HeapPage} {hf hf' : HeapFile} {first : Int} {pages : List Int}
  {records : List (RID × Record)}

/-- The `else` branch of `getRecord`: a read that returns `OK` returns the record the list holds
under the identifier read, and leaves the object reading the list, its cursor on the record's
page. -/
theorem readRecord_reads (reading : Reading w hf first pages records) (rid : RID)
    {status : Status} {result : Option Record}
    (got : hf.readRecord rid w = (status, result, hf', w')) (ok : status = .ok) :
    Reading w' hf' first pages records ∧ ∀ rec, (rid, rec) ∈ records → result = some rec := by
  have outcome := readRecord_cases rid hf w
  rw [got] at outcome
  cases outcome with
  | unreleased _ failed => exact absurd ok failed
  | @unread w₁ w₂ status page released loaded unfound =>
    subst ok
    have agree₁ : Agree w₁ := (released ▸ reading.agree.unPinPage _ _ _ :)
    obtain ⟨frame, handed⟩ := readPage_ok_frame agree₁ (by rw [loaded])
    rw [loaded] at handed
    exact (unfound frame (by rw [← handed])).elim
  | @read w₁ w₂ frame released loaded =>
    have agree₁ : Agree w₁ := (released ▸ reading.agree.unPinPage _ _ _ :)
    have keeps₁ : Keeps w w₁ := fun key bytes holds => by
      have kept := unPinPage_holds reading.agree hf.filePtr hf.curPageNo hf.curDirtyFlag holds
      rwa [released] at kept
    obtain ⟨bytes, keeps₂⟩ := readPage_ok_holds agree₁ loaded
    refine ⟨Reading.of_keeps reading.chain reading.held reading.numbered (keeps₁.trans keeps₂)
      (loaded ▸ agree₁.readPage _ _ _ :) rfl fun _ cursor => ?_, fun rec mem => ?_⟩
    · cases cursor
      exact readPage_ok_pinnedAt agree₁ loaded
    · obtain ⟨listed, page, read, answer⟩ := reading.chain.lookup reading.numbered mem
      obtain ⟨_, holds⟩ := reading.held _ listed
      have page₁ : (cellOf w₁ (hf.filePtr, rid.pageNo)).content = some page := by
        rw [(keeps₁ _ _ holds).content, ← holds.content, read]
      rw [page₁] at bytes
      rw [Option.some.inj bytes, answer]
      rfl

/-- **A `getRecord` that returns `OK` returns the record the list holds under the identifier
read, and leaves the object reading the list**: off the cursor page when it holds the record's
page, else through a release of the cursor page and a read of the record's page. -/
theorem getRecord_reads (reading : Reading w hf first pages records) (rid : RID)
    {status : Status} {result : Option Record}
    (got : hf.getRecord rid w = (status, result, hf', w')) (ok : status = .ok) :
    Reading w' hf' first pages records ∧ ∀ rec, (rid, rec) ∈ records → result = some rec := by
  cases cursor : hf.curPage with
  | none => exact readRecord_reads reading rid (getRecord_of_none cursor rid ▸ got) ok
  | some frame =>
    by_cases here : hf.curPageNo = rid.pageNo
    · simp only [getRecord, cursor, if_pos here] at got
      split at got <;> cases got
      · rename_i found
        refine ⟨⟨reading.agree, reading.chain, reading.held, reading.numbered, fun _ same => ?_⟩,
          fun rec mem => ?_⟩
        · cases same
          exact reading.cursor frame cursor
        obtain ⟨-, page, read, answer⟩ := reading.chain.lookup reading.numbered mem
        rw [← here, (reading.cursor frame cursor).content] at read
        rw [Option.some.inj read, answer] at found
        cases found
        rfl
      · cases ok
        cases HeapPage.getRecord_error ‹_›
    · exact readRecord_reads reading rid (getRecord_of_moved cursor here ▸ got) ok

/-- The object a constructor makes is on the file the catalog opens, whatever it returns. -/
theorem construct_filePtr {db : Db} {fileName : String} {file : Option FileId}
    (opened : db.openFile fileName = .ok file) (w : World HeapPage) :
    (construct db fileName w).2.1.filePtr = file := by
  unfold construct
  simp only [opened]
  repeat' (first | dsimp only | split)

/-- A constructor that returns `OK` leaves the object reading every list of its file whose pages
hold their bytes for their readers: it only reads pages, and pins the cursor page. -/
theorem construct_reading (agree : Agree w) {db : Db} {fileName : String}
    (opened : construct db fileName w = (.ok, hf, w')) (chain : Chain w hf.filePtr first pages records)
    (held : ∀ p ∈ pages, ∃ bytes, Cell.Holds bytes (cellOf w (hf.filePtr, p)))
    (numbered : ∀ p ∈ pages, ∀ page, (cellOf w (hf.filePtr, p)).content = some page →
      page.curPage = p) :
    Reading w' hf first pages records := by
  obtain ⟨w₁, headerRead, -, -, cur, cursor, firstRead⟩ := HeapFileScan.construct_ok agree opened
  have agree₁ : Agree w₁ := (headerRead ▸ agree.readPage _ _ _ :)
  refine Reading.of_keeps chain held numbered
    (Keeps.trans (readPage_ok_holds agree headerRead).2 (readPage_ok_holds agree₁ firstRead).2)
    (firstRead ▸ agree₁.readPage _ _ _ :) rfl fun _ same => ?_
  rw [cursor] at same
  cases same
  exact readPage_ok_pinnedAt agree₁ firstRead

end HeapFile

/-! ### A session of reads -/

/-- **Reads that all return `OK` return the records the list holds under the identifiers read**,
from an object reading the list. -/
theorem getAll_reads {first : Int} {pages : List Int} {records : List (RID × Record)}
    (rids : List RID) : ∀ {hf : HeapFile} {w : World HeapPage}, Reading w hf first pages records →
      (∀ read ∈ (getAll rids hf w).1, read.1 = .ok) →
      List.Forall₂ (fun rid read => ∀ rec, (rid, rec) ∈ records → read.2 = some rec) rids
        (getAll rids hf w).1 := by
  induction rids with
  | nil => exact fun _ _ => .nil
  | cons rid rids ih =>
    intro hf w reading read
    simp only [getAll, List.mem_cons, forall_eq_or_imp] at read ⊢
    generalize got : hf.getRecord rid w = result at read ⊢
    obtain ⟨status, record, hf₁, w₁⟩ := result
    dsimp only at read ⊢
    obtain ⟨reading₁, found⟩ := HeapFile.getRecord_reads reading rid got read.1
    exact .cons found (ih reading₁ read.2)

/-- **A `HeapFile` session whose constructor and reads all return `OK` returns, for each
identifier of a record of the file, that record**: any list of the file's pages will do whose
pages hold their bytes for their readers and number their records by themselves. -/
theorem readSession_reads {w : World HeapPage} (agree : Agree w) {db : Db} {fileName : String}
    {file : Option FileId} (opened : db.openFile fileName = .ok file) {first : Int}
    {pages : List Int} {records : List (RID × Record)} (chain : Chain w file first pages records)
    (held : ∀ p ∈ pages, ∃ bytes, Cell.Holds bytes (cellOf w (file, p)))
    (numbered : ∀ p ∈ pages, ∀ page, (cellOf w (file, p)).content = some page → page.curPage = p)
    (rids : List RID) (started : (readSession db fileName rids w).1 = .ok)
    (read : ∀ read ∈ (readSession db fileName rids w).2.1, read.1 = .ok) :
    List.Forall₂ (fun rid read => ∀ rec, (rid, rec) ∈ records → read.2 = some rec) rids
      (readSession db fileName rids w).2.1 := by
  unfold readSession at started read ⊢
  have named := HeapFile.construct_filePtr opened w
  generalize constructed : HeapFile.construct db fileName w = result at started read named ⊢
  obtain ⟨status, hf, w₁⟩ := result
  dsimp only at started read named ⊢
  subst started named
  exact getAll_reads rids (HeapFile.construct_reading agree constructed chain held numbered) read

/-- The two records of the file of `storedWorld 4 2`, read back in one session, the second first. -/
theorem storedFile_readSession :
    List.Forall₂
      (fun (rid : RID) (read : Status × Option Record) =>
        ∀ rec, (rid, rec) ∈ [(⟨1, 0⟩, record4 1), (⟨2, 0⟩, record4 2)] → read.2 = some rec)
      [⟨2, 0⟩, ⟨1, 0⟩] (readSession storedCatalog "heap" [⟨2, 0⟩, ⟨1, 0⟩] (storedWorld 4 2)).2.1 :=
  have chain := chainFrom_sound (show chainFrom (storedWorld 4 2) (some 0) 3 1 = _ from rfl)
  readSession_reads (Agree.init _ _ _ _) (show storedCatalog.openFile "heap" = .ok (some 0) from rfl)
    chain chain.held_init
    (fun p mem page read => by
      rcases List.mem_cons.mp mem with rfl | mem
      · cases read
        rfl
      · rcases List.mem_singleton.mp mem with rfl
        cases read
        rfl)
    [⟨2, 0⟩, ⟨1, 0⟩] (by rfl) (by decide)

end Minirel
