/-
**The order in which a scan returns records.**

`scanNext` walks the list of data pages from the header's first page, record after record, and
returns the next record that `matchRec` accepts. Which records those are is stated through what the
pages hold (`Chain`, `Cell.Holds`), whichever frames cache them.

* `HeapPage.recordsFrom` — the records of a page from a slot on; `nextRecord` and `firstRecord`
  read its head (`HeapPage.nextRecord_ok`, `HeapPage.firstRecord_ok`).
* `Keeps` — the calls of a scan keep what every page holds (`readPage_ok_holds`,
  `unPinPage_holds`).
* `OnPage`, `HeapFileScan.Placed` — where a scan stands: on a pinned page of the list, with the
  records after its current record and the pages after its page still ahead.
* `HeapFileScan.scanLoop_answers` — **the loop of `scanNext` returns the first record ahead that
  the predicate accepts, or `FILEEOF` when there is none**, within one turn per record and page
  ahead (`HeapFileScan.Answer`).
* `HeapFileScan.scanNexts_follows`, `HeapFileScan.scan_enumerates` — **a scan opened with `OK`
  returns, call after call, the records of its file's list that the predicate accepts, in the
  list's order, each once, then `FILEEOF`**, up to a call that fails; none fails when the store
  fails no call and the pool has a free frame for the header and each page of the list
  (`HeapFileScan.scan_returnsAll`).
* `restartedScan_misses` — **without a cursor page, as after `endScan()`, `scanNext` never
  returns the first record of the list**, and fails on an empty first page.
-/

import Minirel.Heap.ScanLedger
import Minirel.Buffer.Stable

set_option linter.unusedSectionVars false

namespace Minirel

open World BufMgr

namespace HeapPage

/-- The record of a slot entry, with the identifier of its slot on the page `curPage`. -/
def entryRecord (curPage : Int) (entry : Nat × Option Record) : Option (RID × Record) :=
  entry.2.map fun rec => (⟨curPage, entry.1⟩, rec)

/-- The records of a data page from slot `start` on, each with its identifier. -/
def recordsFrom (page : HeapPage) (start : Nat) : List (RID × Record) :=
  (page.slots.enum.drop start).filterMap (entryRecord page.curPage)

theorem recordsFrom_zero (page : HeapPage) : page.recordsFrom 0 = page.liveRecords := rfl

theorem enumFrom_drop {α : Type} (k : Nat) :
    ∀ (n : Nat) (l : List α), (l.enumFrom n).drop k = (l.drop k).enumFrom (n + k) := by
  induction k with
  | zero => intro n l; rfl
  | succ k ih =>
    intro n l
    cases l with
    | nil => rfl
    | cons x l =>
      rw [List.enumFrom_cons, List.drop_succ_cons, List.drop_succ_cons, ih]
      congr 1
      omega

section Slots

variable (curPage : Int)

theorem filterMap_of_find_none (l : List (Option Record)) :
    ∀ n, (l.enumFrom n).find? (fun e => e.2.isSome) = none →
      (l.enumFrom n).filterMap (entryRecord curPage) = [] := by
  induction l with
  | nil => intro _ _; rfl
  | cons x l ih =>
    intro n none'
    cases x with
    | none =>
      rw [List.enumFrom_cons, List.find?_cons] at none'
      rw [List.enumFrom_cons, List.filterMap_cons]
      exact ih (n + 1) none'
    | some rec =>
      rw [List.enumFrom_cons, List.find?_cons] at none'
      cases none'

theorem filterMap_of_find_some (l : List (Option Record)) :
    ∀ n slot entry, (l.enumFrom n).find? (fun e => e.2.isSome) = some (slot, entry) →
      n ≤ slot ∧ ∃ rec, entry = some rec ∧
        (l.enumFrom n).filterMap (entryRecord curPage) =
          (⟨curPage, slot⟩, rec) :: ((l.drop (slot + 1 - n)).enumFrom (slot + 1)).filterMap
            (entryRecord curPage) := by
  induction l with
  | nil => intro _ _ _ found; cases found
  | cons x l ih =>
    intro n slot entry found
    cases x with
    | none =>
      rw [List.enumFrom_cons, List.find?_cons] at found
      obtain ⟨later, rec, rfl, rest⟩ := ih (n + 1) slot entry found
      refine ⟨by omega, rec, rfl, ?_⟩
      rw [List.enumFrom_cons, List.filterMap_cons, rest,
        show slot + 1 - n = slot + 1 - (n + 1) + 1 by omega, List.drop_succ_cons]
      rfl
    | some rec =>
      rw [List.enumFrom_cons, List.find?_cons] at found
      cases found
      refine ⟨le_refl _, rec, rfl, ?_⟩
      rw [List.enumFrom_cons, List.filterMap_cons, Nat.add_sub_cancel_left]
      rfl

end Slots

theorem recordsFrom_of_liveFrom_none {page : HeapPage} {start : Nat}
    (none' : liveFrom page.slots start = none) : page.recordsFrom start = [] := by
  unfold liveFrom at none'
  unfold recordsFrom
  rw [List.enum, enumFrom_drop] at none' ⊢
  exact filterMap_of_find_none _ _ _ (Option.map_eq_none'.mp none')

theorem recordsFrom_of_liveFrom_some {page : HeapPage} {start slot : Nat}
    (found : liveFrom page.slots start = some slot) :
    ∃ rec, page.slot slot = some rec ∧
      page.recordsFrom start = (⟨page.curPage, slot⟩, rec) :: page.recordsFrom (slot + 1) := by
  unfold liveFrom at found
  obtain ⟨⟨slot, entry⟩, hit, rfl⟩ := Option.map_eq_some'.mp found
  dsimp only
  have mem := List.mem_of_mem_drop (List.mem_of_find?_eq_some hit)
  rw [List.enum, enumFrom_drop, Nat.zero_add] at hit
  obtain ⟨later, rec, rfl, rest⟩ := filterMap_of_find_some page.curPage _ _ _ _ hit
  refine ⟨rec, ?_, ?_⟩
  · have stored := List.mem_enum_iff_getElem?.mp mem
    have nonneg : (0 : Int) ≤ slot := by omega
    simp [HeapPage.slot, stored, nonneg]
  · unfold recordsFrom
    rw [List.enum, enumFrom_drop, enumFrom_drop, Nat.zero_add, Nat.zero_add, rest, List.drop_drop,
      show start + (slot + 1 - start) = slot + 1 by omega]

/-- The next live slot after `cur` is the first record after `cur`. -/
theorem nextRecord_ok {page : HeapPage} {cur next : RID} (found : page.nextRecord cur = .ok next) :
    ∃ rec, page.getRecord next = .ok rec ∧
      page.recordsFrom (cur.slotNo + 1).toNat = (next, rec) :: page.recordsFrom (next.slotNo + 1).toNat := by
  unfold nextRecord at found
  split at found
  · rename_i slot live
    cases found
    obtain ⟨rec, stored, rest⟩ := recordsFrom_of_liveFrom_some live
    refine ⟨rec, by simp [getRecord, stored], ?_⟩
    rw [rest, show ((slot : Int) + 1).toNat = slot + 1 by omega]
  · cases found

/-- No live slot after `cur`: no record after it. -/
theorem nextRecord_error {page : HeapPage} {cur : RID} {status : Status}
    (ended : page.nextRecord cur = .error status) : page.recordsFrom (cur.slotNo + 1).toNat = [] := by
  unfold nextRecord at ended
  split at ended
  · cases ended
  · exact recordsFrom_of_liveFrom_none ‹_›

/-- The first live slot is the first record of the page. -/
theorem firstRecord_ok {page : HeapPage} {rid : RID} (found : page.firstRecord = .ok rid) :
    ∃ rec, page.getRecord rid = .ok rec ∧
      page.liveRecords = (rid, rec) :: page.recordsFrom (rid.slotNo + 1).toNat := by
  unfold firstRecord at found
  split at found
  · rename_i slot live
    cases found
    obtain ⟨rec, stored, rest⟩ := recordsFrom_of_liveFrom_some live
    refine ⟨rec, by simp [getRecord, stored], ?_⟩
    rw [← recordsFrom_zero, rest, show ((slot : Int) + 1).toNat = slot + 1 by omega]
  · cases found

/-- A page without a first record has no record at all, and `firstRecord` says `NORECORDS`. -/
theorem firstRecord_error {page : HeapPage} {status : Status}
    (empty : page.firstRecord = .error status) :
    status = .noRecords ∧ ∀ start, page.recordsFrom start = [] := by
  unfold firstRecord at empty
  split at empty
  · cases empty
  · rename_i none'
    cases empty
    refine ⟨rfl, fun start => recordsFrom_of_liveFrom_none ?_⟩
    unfold liveFrom at none' ⊢
    rw [Option.map_eq_none', List.find?_eq_none] at none' ⊢
    exact fun entry mem => none' entry (List.mem_of_mem_drop mem)

end HeapPage

/-! ### Where a scan stands -/

namespace Chain

variable {w w' : World HeapPage} {file : Option FileId}

/-- The list from a page reads nothing but what readers get of its pages. -/
theorem of_contents {pageNo : Int} {pages : List Int} {records : List (RID × Record)}
    (chain : Chain w file pageNo pages records)
    (same : ∀ p ∈ pages, (cellOf w' (file, p)).content = (cellOf w (file, p)).content) :
    Chain w' file pageNo pages records := by
  induction chain with
  | last => exact .last
  | link more read _ ih =>
    exact .link more ((same _ (List.mem_cons_self _ _)).trans read)
      (ih fun p mem => same p (List.mem_cons_of_mem _ mem))

theorem eq_nil_of_end {pages : List Int} {records : List (RID × Record)}
    (chain : Chain w file (-1) pages records) : pages = [] ∧ records = [] := by
  cases chain with
  | last => exact ⟨rfl, rfl⟩
  | link more => exact absurd rfl more

theorem cons_of_ne {pageNo : Int} {pages : List Int} {records : List (RID × Record)}
    (chain : Chain w file pageNo pages records) (more : pageNo ≠ -1) :
    ∃ page pages' records', (cellOf w (file, pageNo)).content = some page ∧
      Chain w file page.nextPage pages' records' ∧ pages = pageNo :: pages' ∧
      records = page.liveRecords ++ records' := by
  cases chain with
  | last => exact absurd rfl more
  | link _ read rest => exact ⟨_, _, _, read, rest, rfl, rfl⟩

end Chain

/-- Every page keeps what it holds from `w` to `w'`. -/
def Keeps (w w' : World HeapPage) : Prop :=
  ∀ key bytes, Cell.Holds bytes (cellOf w key) → Cell.Holds bytes (cellOf w' key)

theorem Keeps.refl (w : World HeapPage) : Keeps w w := fun _ _ holds => holds

theorem Keeps.trans {w₁ w₂ w₃ : World HeapPage} (first : Keeps w₁ w₂) (second : Keeps w₂ w₃) :
    Keeps w₁ w₃ := fun key bytes holds => second key bytes (first key bytes holds)

/-- The page `pageNo` of `file`, pinned in `frame`, as a scan stands on it: the index gives
`frame` for the page, and the page holds the frame's bytes for its readers (`Cell.Holds`); the
pages after it, `pages`, lead to `-1` with the records `records`, and each of them too holds its
bytes for its readers. -/
structure OnPage (w : World HeapPage) (file : Option FileId) (pageNo : Int) (frame : Nat)
    (pages : List Int) (records : List (RID × Record)) : Prop where
  agree : Agree w
  indexed : w.hashTable.frameOf (file, pageNo) = some frame
  current : Cell.Holds (w.bufPool frame) (cellOf w (file, pageNo))
  ahead : ∀ p ∈ pages, ∃ bytes, Cell.Holds bytes (cellOf w (file, p))
  chain : Chain w file (w.bufPool frame).nextPage pages records

/-- Pages that hold their bytes for their readers read the same in a world that keeps what they
hold: the list through those pages is the same there. -/
theorem Chain.of_keeps {w w' : World HeapPage} {file : Option FileId} {pageNo : Int}
    {pages : List Int} {records : List (RID × Record)} (chain : Chain w file pageNo pages records)
    (held : ∀ p ∈ pages, ∃ bytes, Cell.Holds bytes (cellOf w (file, p))) (keeps : Keeps w w') :
    Chain w' file pageNo pages records :=
  chain.of_contents fun p mem => by
    obtain ⟨bytes, holds⟩ := held p mem
    rw [(keeps _ _ holds).content, holds.content]

/-- **Reading the first page of a list with `OK` stands on it**, and keeps what every page holds. -/
theorem OnPage.enter {w w' : World HeapPage} {file : Option FileId} {pageNo : Int}
    {pages : List Int} {records : List (RID × Record)} (agree : Agree w)
    (chain : Chain w file pageNo pages records) (more : pageNo ≠ -1)
    (held : ∀ p ∈ pages, ∃ bytes, Cell.Holds bytes (cellOf w (file, p))) {page : Option Nat}
    {frame : Nat} (read : readPage file pageNo page w = (.ok, some frame, w')) :
    ∃ pages' records', pages = pageNo :: pages' ∧ records = (w'.bufPool frame).liveRecords ++ records' ∧
      OnPage w' file pageNo frame pages' records' ∧ Keeps w w' ∧
      (cellOf w (file, pageNo)).content = some (w'.bufPool frame) := by
  obtain ⟨page', pages', records', content, rest, rfl, rfl⟩ := chain.cons_of_ne more
  obtain ⟨loaded, keeps⟩ := readPage_ok_holds agree read
  obtain ⟨bytes, holds⟩ := held _ (List.mem_cons_self _ _)
  cases Option.some.inj (holds.content.symm.trans content)
  have same : w'.bufPool frame = page' := Option.some.inj (loaded.trans holds.content)
  have ahead : ∀ p ∈ pages', ∃ bytes, Cell.Holds bytes (cellOf w (file, p)) :=
    fun p mem => held p (List.mem_cons_of_mem _ mem)
  have agree' := agree.readPage file pageNo page
  rw [read] at agree'
  refine ⟨pages', records', rfl, by rw [same], ⟨agree', readPage_ok_indexed agree read, same ▸ keeps _ _ holds,
    fun p mem => (ahead p mem).imp fun _ => keeps _ _, same ▸ rest.of_keeps ahead keeps⟩, keeps,
    by rw [same, content]⟩

/-- **Releasing the page and reading the next one with `OK` moves onto the next page of the list**,
and keeps what every page holds. -/
theorem OnPage.moved {w w₁ w₂ : World HeapPage} {file : Option FileId} {pageNo pageNo' : Int}
    {frame frame' : Nat} {pages : List Int} {records : List (RID × Record)}
    (standing : OnPage w file pageNo frame pages records) (more : (w.bufPool frame).nextPage ≠ -1)
    {dirty : Bool} (released : unPinPage file pageNo' dirty w = (.ok, w₁)) {page : Option Nat}
    (read : readPage file (w.bufPool frame).nextPage page w₁ = (.ok, some frame', w₂)) :
    ∃ pages' records', pages = (w.bufPool frame).nextPage :: pages' ∧
      records = (w₂.bufPool frame').liveRecords ++ records' ∧
      OnPage w₂ file (w.bufPool frame).nextPage frame' pages' records' ∧ Keeps w w₂ := by
  have unpinned : (unPinPage file pageNo' dirty w).2 = w₁ := congrArg Prod.snd released
  have agree₁ : Agree w₁ := unpinned ▸ standing.agree.unPinPage file pageNo' dirty
  have keep₁ : Keeps w w₁ := fun key bytes holds =>
    unpinned ▸ unPinPage_holds standing.agree file pageNo' dirty holds
  obtain ⟨pages', records', rfl, rfl, standing', keep₂, -⟩ :=
    OnPage.enter agree₁ (standing.chain.of_keeps standing.ahead keep₁) more
      (fun p mem => (standing.ahead p mem).imp fun _ => keep₁ _ _) read
  exact ⟨pages', records', rfl, rfl, standing', keep₁.trans keep₂⟩

namespace HeapFileScan

/-- `scan'` is `scan` with another cursor (`curPage`, `curPageNo`, `curDirtyFlag`, `curRec`): the
same file, header, predicate and mark. -/
def CursorOnly (scan scan' : HeapFileScan) : Prop :=
  { scan' with curPage := scan.curPage, curPageNo := scan.curPageNo,
               curDirtyFlag := scan.curDirtyFlag, curRec := scan.curRec } = scan

theorem CursorOnly.refl (scan : HeapFileScan) : CursorOnly scan scan := rfl

theorem CursorOnly.trans {scan₁ scan₂ scan₃ : HeapFileScan} (first : CursorOnly scan₁ scan₂)
    (second : CursorOnly scan₂ scan₃) : CursorOnly scan₁ scan₃ := by
  rw [← first, ← second]
  rfl

theorem CursorOnly.matchRec {scan scan' : HeapFileScan} (cursor : CursorOnly scan scan') :
    scan'.matchRec = scan.matchRec := by
  rw [← cursor]
  rfl

/-- A scan with another cursor has the same file, header and mark. -/
theorem CursorOnly.fixed {scan scan' : HeapFileScan} (cursor : CursorOnly scan scan') :
    scan'.filePtr = scan.filePtr ∧ scan'.headerPageNo = scan.headerPageNo ∧
      scan'.markedPageNo = scan.markedPageNo ∧ scan'.markedRec = scan.markedRec := by
  rw [← cursor]
  exact ⟨rfl, rfl, rfl, rfl⟩

/-- The identifiers of the records of `rest` that `accept` takes, in order. -/
def accepted (accept : Record → Bool) (rest : List (RID × Record)) : List RID :=
  (rest.filter fun entry => accept entry.2).map Prod.fst

@[simp] theorem accepted_nil (accept : Record → Bool) : accepted accept [] = [] := rfl

@[simp] theorem accepted_cons (accept : Record → Bool) (rid : RID) (rec : Record)
    (rest : List (RID × Record)) :
    accepted accept ((rid, rec) :: rest) =
      if accept rec then rid :: accepted accept rest else accepted accept rest := by
  unfold accepted
  rw [List.filter_cons]
  split <;> rfl

@[simp] theorem accepted_append (accept : Record → Bool) (rest rest' : List (RID × Record)) :
    accepted accept (rest ++ rest') = accepted accept rest ++ accepted accept rest' := by
  simp [accepted]

/-- Where a scan stands: on its cursor page, pinned in `frame`, with `rest` still ahead — the
records after `curRec` on that page, then those of the pages after it, `pages`. -/
def Placed (w : World HeapPage) (scan : HeapFileScan) (frame : Nat) (pages : List Int)
    (rest : List (RID × Record)) : Prop :=
  scan.curPage = some frame ∧ ∃ records, OnPage w scan.filePtr scan.curPageNo frame pages records ∧
    rest = (w.bufPool frame).recordsFrom (scan.curRec.slotNo + 1).toNat ++ records

/-- What a call of `scanNext` from where `scan` stands in `w`, with `rest` ahead, may return: the
first record ahead that the predicate accepts, the scan then standing after it; `FILEEOF` when
the predicate accepts no record ahead, the scan at the end of the list; or another error.
Returning `OK` or `FILEEOF`, it keeps what every page holds. `size` bounds what is left ahead
after a record is returned. -/
inductive Answer (w : World HeapPage) (scan : HeapFileScan) (rest : List (RID × Record))
    (size : Nat) : Status × Option RID × HeapFileScan × World HeapPage → Prop
  | found {rid : RID} {scan' : HeapFileScan} {w' : World HeapPage} {frame : Nat} {pages : List Int}
      {rest' : List (RID × Record)} :
      accepted scan.matchRec rest = rid :: accepted scan.matchRec rest' → CursorOnly scan scan' →
      Placed w' scan' frame pages rest' → rest'.length + pages.length < size → Keeps w w' →
      Answer w scan rest size (.ok, some rid, scan', w')
  | eof {scan' : HeapFileScan} {w' : World HeapPage} {frame : Nat} :
      accepted scan.matchRec rest = [] → CursorOnly scan scan' → Placed w' scan' frame [] [] →
      Keeps w w' → Answer w scan rest size (.fileEOF, none, scan', w')
  | failed {status : Status} {rid : Option RID} {scan' : HeapFileScan} {w' : World HeapPage} :
      status ≠ .ok → status ≠ .fileEOF → Answer w scan rest size (status, rid, scan', w')

/-- An answer for a scan a few steps on is an answer from where it stood before them, when those
steps passed over no record the predicate accepts. -/
theorem Answer.widen {w₀ w : World HeapPage} {scan scan₁ : HeapFileScan}
    {rest rest₁ : List (RID × Record)} {size size₁ : Nat}
    {result : Status × Option RID × HeapFileScan × World HeapPage}
    (cursor : CursorOnly scan scan₁) (keeps : Keeps w₀ w)
    (same : accepted scan.matchRec rest = accepted scan.matchRec rest₁) (le : size₁ ≤ size)
    (answer : Answer w scan₁ rest₁ size₁ result) : Answer w₀ scan rest size result := by
  cases answer with
  | found accepts cursor' placed fits keeps' =>
    rw [cursor.matchRec] at accepts
    exact .found (same.trans accepts) (cursor.trans cursor') placed (by omega) (keeps.trans keeps')
  | eof accepts cursor' placed keeps' =>
    rw [cursor.matchRec] at accepts
    exact .eof (same.trans accepts) (cursor.trans cursor') placed (keeps.trans keeps')
  | failed failed unreported => exact .failed failed unreported

/-- The loop run with `fuel` answers from every place with fewer records and pages ahead than
`fuel`. -/
def LoopAnswers (fuel : Nat) : Prop :=
  ∀ {frame : Nat} {scan : HeapFileScan} {w : World HeapPage} {pages : List Int}
    {rest : List (RID × Record)}, Placed w scan frame pages rest → rest.length + pages.length < fuel →
    ∃ result, scanLoop fuel frame scan w = some result ∧
      Answer w scan rest (rest.length + pages.length) result

/-- The end of a turn on a record that is there: return it if the predicate accepts it, else go on
with the loop. -/
theorem Examined.answers {fuel frame : Nat} (ih : LoopAnswers fuel) {scan scan₁ : HeapFileScan}
    {w : World HeapPage} {pages : List Int} {rest : List (RID × Record)} {rec : Record}
    {result : Option (Status × Option RID × HeapFileScan × World HeapPage)}
    (cursor : CursorOnly scan scan₁) (placed : Placed w scan₁ frame pages rest)
    (got : (w.bufPool frame).getRecord scan₁.curRec = .ok rec)
    (fits : rest.length + pages.length < fuel) (examined : Examined fuel frame scan₁ w result) :
    ∃ answer, result = some answer ∧
      Answer w scan ((scan₁.curRec, rec) :: rest) (rest.length + pages.length + 1) answer := by
  cases examined with
  | unreadable unread =>
    rw [got] at unread
    cases unread
  | matched got' accepts =>
    rw [got] at got'
    cases got'
    refine ⟨_, rfl, .found ?_ cursor placed (Nat.lt_succ_self _) (Keeps.refl w)⟩
    rw [accepted_cons, ← cursor.matchRec, if_pos accepts]
  | skipped got' rejects =>
    rw [got] at got'
    cases got'
    obtain ⟨answer, ran, answers⟩ := ih placed fits
    refine ⟨answer, ran, answers.widen cursor (Keeps.refl w) ?_ (Nat.le_succ _)⟩
    rw [accepted_cons, ← cursor.matchRec, if_neg (by simp [rejects])]

/-- **The loop of `scanNext`, from where a scan stands, returns within one turn per record and page
ahead, and what it returns is an `Answer`**: the next record ahead that the predicate accepts,
`FILEEOF` when there is none, or an error. -/
theorem scanLoop_answers (fuel : Nat) : LoopAnswers fuel := by
  induction fuel with
  | zero => exact fun _ fits => absurd fits (Nat.not_lt_zero _)
  | succ fuel ih =>
    intro frame scan w pages rest placed fits
    obtain ⟨cursor, records, standing, rfl⟩ := placed
    have turn := scanLoop_turn fuel frame scan w
    generalize scanLoop (fuel + 1) frame scan w = result at turn ⊢
    cases turn with
    | @onPage next _ found examined =>
      obtain ⟨rec, got, after⟩ := HeapPage.nextRecord_ok found
      rw [after] at fits ⊢
      simp only [List.cons_append, List.length_cons] at fits ⊢
      obtain ⟨answer, ran, answers⟩ := examined.answers ih
        (show CursorOnly scan { scan with curRec := next } from rfl) ⟨cursor, records, standing, rfl⟩
        got (by dsimp only; simp only [List.length_append] at fits ⊢; omega)
      exact ⟨answer, ran, answers.widen (CursorOnly.refl scan) (Keeps.refl w) rfl
        (by dsimp only; simp only [List.length_append]; omega)⟩
    | eof ended last =>
      have chain := standing.chain
      rw [← HeapPage.getNextPage, last] at chain
      obtain ⟨rfl, rfl⟩ := chain.eq_nil_of_end
      have empty := HeapPage.nextRecord_error ended
      rw [empty]
      exact ⟨_, rfl, .eof rfl (CursorOnly.refl scan) ⟨cursor, [], standing, by rw [empty]; rfl⟩
        (Keeps.refl w)⟩
    | unreleased ended more released failed =>
      refine ⟨_, rfl, .failed failed fun eof => ?_⟩
      have listed := unPinPage_status scan.filePtr scan.curPageNo scan.curDirtyFlag w
      rw [released, eof] at listed
      simp at listed
    | unread ended more released read unfound =>
      have agree₁ := standing.agree.unPinPage scan.filePtr scan.curPageNo scan.curDirtyFlag
      rw [released] at agree₁
      have unreported := readPage_unreported agree₁ read unfound
      exact ⟨_, rfl, .failed unreported.1 unreported.2⟩
    | @moved _ frame' w₁ w₂ _ ended more released read entered =>
      obtain ⟨pages', records', rfl, rfl, standing', keeps⟩ := standing.moved more released read
      rw [HeapPage.nextRecord_error ended, List.nil_append] at fits ⊢
      simp only [List.length_append, List.length_cons] at fits ⊢
      cases entered with
      | @first rid _ found examined =>
        obtain ⟨rec, got, live⟩ := HeapPage.firstRecord_ok found
        rw [live] at fits ⊢
        simp only [List.cons_append, List.length_cons] at fits ⊢
        obtain ⟨answer, ran, answers⟩ := examined.answers ih (CursorOnly.refl _)
          ⟨rfl, records', standing', rfl⟩ got
          (by dsimp only; simp only [List.length_append] at fits ⊢; omega)
        exact ⟨answer, ran, answers.widen (by exact rfl) keeps rfl
          (by dsimp only; simp only [List.length_append]; omega)⟩
      | empty noRecords =>
        obtain ⟨-, none'⟩ := HeapPage.firstRecord_error noRecords
        simp only [← HeapPage.recordsFrom_zero, none', List.nil_append, List.length_nil,
          Nat.zero_add] at fits ⊢
        have placed : Placed w₂
            { scan with curPageNo := (w.bufPool frame).getNextPage, curDirtyFlag := false,
                        curPage := some frame' } frame' pages' records' :=
          ⟨rfl, records', standing', by rw [none']; rfl⟩
        obtain ⟨answer, ran, answers⟩ := ih placed (by omega)
        exact ⟨answer, ran, answers.widen (by exact rfl) keeps rfl (by omega)⟩

theorem scanNext_placed {w : World HeapPage} {scan : HeapFileScan} {frame : Nat} {pages : List Int}
    {rest : List (RID × Record)} (placed : Placed w scan frame pages rest) (fuel : Nat) :
    scan.scanNext fuel w = scanLoop fuel frame scan w := by
  rw [scanNext, placed.1]

/-! ### Calls one after another -/

/-- A client's `count` calls of `scanNext(outRid)` one after another, each with `fuel` for its
loop, stopping after one that fails with a status other than `FILEEOF`: what each call returns. -/
def scanNexts (fuel : Nat) : Nat → HeapFileScan → World HeapPage →
    Option (List (Status × Option RID) × HeapFileScan × World HeapPage)
  | 0, scan, w => some ([], scan, w)
  | count + 1, scan, w =>
    match scan.scanNext fuel w with
    | none => none
    | some (status, rid, scan, w) =>
      if status = .ok ∨ status = .fileEOF then
        (scanNexts fuel count scan w).map fun (results, scan, w) => ((status, rid) :: results, scan, w)
      else some ([(status, rid)], scan, w)

/-- What `count` calls return when none fails: each identifier of `ids` with `OK`, then `FILEEOF`. -/
def answers : List RID → Nat → List (Status × Option RID)
  | _, 0 => []
  | [], count + 1 => (.fileEOF, none) :: answers [] count
  | rid :: ids, count + 1 => (.ok, some rid) :: answers ids count

theorem answers_zero (ids : List RID) : answers ids 0 = [] := by
  cases ids <;> rfl

theorem answers_cons (rid : RID) (ids : List RID) (count : Nat) :
    answers (rid :: ids) (count + 1) = (.ok, some rid) :: answers ids count := rfl

theorem answers_nil (count : Nat) : answers [] (count + 1) = (.fileEOF, none) :: answers [] count :=
  rfl

/-- The calls return `expected`, up to one that fails with a status other than `OK` and `FILEEOF`,
after which the client stops. -/
inductive Follows : List (Status × Option RID) → List (Status × Option RID) → Prop
  | nil : Follows [] []
  | cons {result : Status × Option RID} {results expected : List (Status × Option RID)} :
      Follows results expected → Follows (result :: results) (result :: expected)
  | failed {status : Status} {rid : Option RID} {next : Status × Option RID}
      {expected : List (Status × Option RID)} :
      status ≠ .ok → status ≠ .fileEOF → Follows [(status, rid)] (next :: expected)

/-- None of the calls failed. -/
def Succeeded (results : List (Status × Option RID)) : Prop :=
  ∀ result ∈ results, result.1 = .ok ∨ result.1 = .fileEOF

instance (results : List (Status × Option RID)) : Decidable (Succeeded results) :=
  inferInstanceAs (Decidable (∀ result ∈ results, result.1 = .ok ∨ result.1 = .fileEOF))

/-- **Calls of `scanNext` one after another, from where a scan stands, return the records ahead
that the predicate accepts, in order, each once, then `FILEEOF`**, up to a call that fails with
another status; with fuel above the records and pages ahead, each returns. When none fails, the
scan stands somewhere in the list again, with the same file, predicate and mark, every page has
kept what it holds, and the records the predicate accepts ahead of it are those it accepted
before, less the `count` the calls went past. -/
theorem scanNexts_follows (fuel : Nat) (count : Nat) :
    ∀ {frame : Nat} {scan : HeapFileScan} {w : World HeapPage} {pages : List Int}
      {rest : List (RID × Record)}, Placed w scan frame pages rest →
      rest.length + pages.length < fuel →
      ∃ results scan' w', scanNexts fuel count scan w = some (results, scan', w') ∧
        Follows results (answers (accepted scan.matchRec rest) count) ∧
        (Succeeded results → CursorOnly scan scan' ∧ Keeps w w' ∧
          ∃ frame' pages' rest', Placed w' scan' frame' pages' rest' ∧
            rest'.length + pages'.length < fuel ∧
            accepted scan'.matchRec rest' = (accepted scan.matchRec rest).drop count) := by
  induction count with
  | zero =>
    intro frame scan w pages rest placed fits
    exact ⟨[], scan, w, rfl, answers_zero _ ▸ .nil, fun _ => ⟨CursorOnly.refl scan, Keeps.refl w, frame, pages, rest,
      placed, fits, rfl⟩⟩
  | succ count ih =>
    intro frame scan w pages rest placed fits
    obtain ⟨result, ran, answer⟩ := scanLoop_answers fuel placed fits
    rw [← scanNext_placed placed] at ran
    cases answer with
    | @found rid scan' w' _ _ _ accepts cursor placed' fits' keeps =>
      obtain ⟨results, scan'', w'', ran', follows, succeeded⟩ := ih placed' (by omega)
      refine ⟨(.ok, some rid) :: results, scan'', w'', by rw [scanNexts, ran]; simp [ran'], ?_,
        fun all => ?_⟩
      · rw [accepts, answers_cons]
        exact .cons (cursor.matchRec ▸ follows)
      · obtain ⟨cursor', keeps', frame'', pages'', rest'', placed'', fits'', dropped⟩ :=
          succeeded fun result mem => all result (List.mem_cons_of_mem _ mem)
        refine ⟨cursor.trans cursor', keeps.trans keeps', frame'', pages'', rest'', placed'', fits'', ?_⟩
        rw [dropped, cursor.matchRec, accepts]
        rfl
    | @eof scan' w' _ accepts cursor placed' keeps =>
      obtain ⟨results, scan'', w'', ran', follows, succeeded⟩ := ih placed' (by simp; omega)
      refine ⟨(.fileEOF, none) :: results, scan'', w'', by rw [scanNexts, ran]; simp [ran'], ?_,
        fun all => ?_⟩
      · rw [accepts, answers_nil]
        exact .cons (by simpa using follows)
      · obtain ⟨cursor', keeps', frame'', pages'', rest'', placed'', fits'', dropped⟩ :=
          succeeded fun result mem => all result (List.mem_cons_of_mem _ mem)
        refine ⟨cursor.trans cursor', keeps.trans keeps', frame'', pages'', rest'', placed'', fits'', ?_⟩
        rw [dropped, accepts]
        simp
    | @failed status rid scan' w' failed unreported =>
      refine ⟨[(status, rid)], scan', w', by rw [scanNexts, ran]; simp [failed, unreported], ?_,
        fun all => ?_⟩
      · cases accepted scan.matchRec rest <;> exact .failed failed unreported
      · rcases all _ (List.mem_singleton_self _) with ok | eof
        · exact absurd ok failed
        · exact absurd eof unreported

/-! ### A scan opened on a file -/

/-- A scan's constructor is `HeapFile`'s. -/
theorem construct_toHeapFile {db : Db} {fileName : String} {w w' : World HeapPage}
    {status : Status} {scan : HeapFileScan} (opened : construct db fileName w = (status, scan, w')) :
    HeapFile.construct db fileName w = (status, scan.toHeapFile, w') := by
  unfold construct at opened
  generalize HeapFile.construct db fileName w = result at opened ⊢
  obtain ⟨status', hf, w''⟩ := result
  cases opened
  rfl

/-- A constructor that returns `OK` read the header page with `OK`, then with `OK` the page the
header names first, its cursor page, with no current record. -/
theorem construct_ok {db : Db} {fileName : String} {w w' : World HeapPage} {hf : HeapFile}
    (agree : Agree w) (opened : HeapFile.construct db fileName w = (.ok, hf, w')) :
    ∃ w₁, readPage hf.filePtr hf.headerPageNo none w = (.ok, some hf.headerPage, w₁) ∧
      hf.curPageNo = (w₁.bufPool hf.headerPage).firstPage ∧ hf.curRec = NULLRID ∧
      ∃ cur, hf.curPage = some cur ∧
        readPage hf.filePtr hf.curPageNo (some hf.headerPage) w₁ = (.ok, some cur, w') := by
  unfold HeapFile.construct at opened
  split at opened
  · cases HeapFile.Db.openFile_error ‹_›
    cases opened
  rename_i filePtr _
  split at opened
  · cases HeapFile.getFirstPage_error ‹_›
    cases opened
  rename_i pageNo _
  split at opened
  · rename_i frame w₁ header
    dsimp only at opened
    split at opened
    · rename_i cur w₂ first
      cases opened
      exact ⟨w₁, header, rfl, rfl, cur, rfl, first⟩
    · rename_i status page w₂ unfound first
      cases opened
      have agree₁ : Agree w₁ := by simpa [header] using agree.readPage filePtr pageNo none
      obtain ⟨cur, handed⟩ := readPage_ok_frame agree₁ (by rw [first])
      rw [first] at handed
      exact (unfound cur rfl handed).elim
  · rename_i status page w₁ unfound header
    cases opened
    obtain ⟨frame, handed⟩ := readPage_ok_frame agree (by rw [header])
    rw [header] at handed
    exact (unfound frame rfl handed).elim

/-- Where a scan stands is a matter of its `HeapFile` part alone: `startScan` and `markScan`
leave it. -/
theorem Placed.of_toHeapFile {w : World HeapPage} {scan scan' : HeapFileScan} {frame : Nat}
    {pages : List Int} {rest : List (RID × Record)} (placed : Placed w scan frame pages rest)
    (same : scan'.toHeapFile = scan.toHeapFile) : Placed w scan' frame pages rest := by
  obtain ⟨cursor, records, standing, rfl⟩ := placed
  exact ⟨(congrArg HeapFile.curPage same).trans cursor, records,
    congrArg HeapFile.filePtr same ▸ congrArg HeapFile.curPageNo same ▸ standing,
    congrArg HeapFile.curRec same ▸ rfl⟩

/-- **A scan opened with `OK` stands on the first page of its file's list, with every record of the
list ahead**, when the header and the pages of the list hold what their readers get. -/
theorem construct_placed {db : Db} {fileName : String} {w w' : World HeapPage}
    {scan : HeapFileScan} {hdr : HeapPage} {pages : List Int} {records : List (RID × Record)}
    (agree : Agree w) (opened : construct db fileName w = (.ok, scan, w'))
    (header : Cell.Holds hdr (cellOf w (scan.filePtr, scan.headerPageNo)))
    (chain : Chain w scan.filePtr hdr.firstPage pages records) (first : hdr.firstPage ≠ -1)
    (held : ∀ p ∈ pages, ∃ bytes, Cell.Holds bytes (cellOf w (scan.filePtr, p))) :
    ∃ frame pages', pages = hdr.firstPage :: pages' ∧ Placed w' scan frame pages' records := by
  obtain ⟨w₁, headerRead, firstNo, nullRec, cur, cursor, firstRead⟩ :=
    construct_ok agree (construct_toHeapFile opened)
  obtain ⟨loaded, keeps⟩ := readPage_ok_holds agree headerRead
  have named : scan.curPageNo = hdr.firstPage := by
    rw [firstNo, Option.some.inj (loaded.trans header.content)]
  have agree₁ := agree.readPage scan.filePtr scan.headerPageNo none
  rw [headerRead] at agree₁
  rw [named] at firstRead
  obtain ⟨pages', records', rfl, rfl, standing, -, -⟩ := OnPage.enter agree₁ (chain.of_keeps held keeps)
    first (fun p mem => (held p mem).imp fun _ => keeps _ _) firstRead
  refine ⟨cur, pages', rfl, cursor, records', named ▸ standing, ?_⟩
  rw [nullRec]
  rfl

/-- **A scan opened with `OK` and started returns, call after call, the records of its file's list
that the predicate accepts, in the list's order, each once, then `FILEEOF`**, up to a call that
fails with another status, a read of the buffer manager or the store failing. With fuel at least
the list's records and pages, every call returns. The header and the pages of the list hold what
their readers get (`Cell.Holds`: a reader gets those bytes, and no eviction loses them). -/
theorem scan_enumerates {db : Db} {fileName : String} {w₀ w : World HeapPage}
    {scan : HeapFileScan} {hdr : HeapPage} {pages : List Int} {records : List (RID × Record)}
    (agree : Agree w₀) (opened : construct db fileName w₀ = (.ok, scan, w))
    (header : Cell.Holds hdr (cellOf w₀ (scan.filePtr, scan.headerPageNo)))
    (chain : Chain w₀ scan.filePtr hdr.firstPage pages records) (first : hdr.firstPage ≠ -1)
    (held : ∀ p ∈ pages, ∃ bytes, Cell.Holds bytes (cellOf w₀ (scan.filePtr, p)))
    (offset length : Int) (type : Datatype) (filter : Option (List UInt8)) (op : Operator)
    {fuel : Nat} (enough : records.length + pages.length ≤ fuel) (count : Nat) :
    ∃ results scan' w', scanNexts fuel count (scan.startScan offset length type filter op).2 w =
        some (results, scan', w') ∧
      Follows results
        (answers (accepted (scan.startScan offset length type filter op).2.matchRec records) count) := by
  obtain ⟨frame, pages', rfl, placed⟩ := construct_placed agree opened header chain first held
  simp only [List.length_cons] at enough
  obtain ⟨results, scan', w', ran, follows, -⟩ :=
    scanNexts_follows fuel count
      (placed.of_toHeapFile (startScan_toHeapFile offset length type filter op scan)) (by omega)
  exact ⟨results, scan', w', ran, follows⟩

/-- The file of `storedWorld 4 2`, scanned without a filter, returns its two records in order and
then `FILEEOF`. -/
theorem storedFile_enumerates :
    ∃ scan' w', scanNexts 4 3 ((construct storedCatalog "heap" (storedWorld 4 2)).2.1.startScan
        0 0 .STRING none .EQ).2 (construct storedCatalog "heap" (storedWorld 4 2)).2.2 =
        some ([(.ok, some ⟨1, 0⟩), (.ok, some ⟨2, 0⟩), (.fileEOF, none)], scan', w') ∧
      Follows [(.ok, some ⟨1, 0⟩), (.ok, some ⟨2, 0⟩), (.fileEOF, none)]
        (answers (accepted ((construct storedCatalog "heap" (storedWorld 4 2)).2.1.startScan
          0 0 .STRING none .EQ).2.matchRec [(⟨1, 0⟩, record4 1), (⟨2, 0⟩, record4 2)]) 3) := by
  have chain := chainFrom_sound (show chainFrom (storedWorld 4 2) (some 0) 3 1 = _ from rfl)
  obtain ⟨results, scan', w', ran, follows⟩ := scan_enumerates (Agree.init _ _ _ _)
    (show construct storedCatalog "heap" (storedWorld 4 2) = (.ok, _, _) from rfl)
    (holds_init 4 _ _ rfl) chain (by decide) chain.held_init 0 0 .STRING none .EQ
    (show _ ≤ 4 by decide) 3
  have run : scanNexts 4 3 ((construct storedCatalog "heap" (storedWorld 4 2)).2.1.startScan
      0 0 .STRING none .EQ).2 (construct storedCatalog "heap" (storedWorld 4 2)).2.2 =
      some ([(.ok, some ⟨1, 0⟩), (.ok, some ⟨2, 0⟩), (.fileEOF, none)], _, _) := rfl
  have same := ran.symm.trans run
  simp only [Option.some.injEq, Prod.mk.injEq] at same
  obtain ⟨rfl, -, -⟩ := same
  exact ⟨_, _, run, follows⟩

end HeapFileScan

/-! ### Restarted scans -/

/-- The file of `oneRecord`, whose record is `(2, 0)`: a scan opened and started, one `scanNext`,
then `endScan()`, `startScan()` and one more `scanNext`. The statuses of the calls, the identifiers
the two `scanNext` calls return, and the scan and the world at the end. -/
def restartedScan : Option (List Status × List (Option RID) × HeapFileScan × World HeapPage) := do
  let (db, _, _, w) := oneRecord
  let (opened, scan, w) := HeapFileScan.construct db "heap" w
  let (started, scan) := scan.startScan 0 0 .STRING none .EQ
  let (scanned, rid, scan, w) ← scan.scanNext 4 w
  let (ended, scan, w) := scan.endScan w
  let (restarted, scan) := scan.startScan 0 0 .STRING none .EQ
  let (rescanned, rid', scan, w) ← scan.scanNext 4 w
  pure ([opened, started, scanned, ended, restarted, rescanned], [rid, rid'], scan, w)

/-- Two records on a new file, `record4 1` on page `2` and `record4 2` on page `10`: a scan opened
and started returns the first, and `deleteRecord()` deletes it, which leaves page `2` without a
record; then `endScan()`, `startScan()` and one more `scanNext`. -/
def emptiedFirstPage : Option (List Status × Option RID × HeapFileScan × World HeapPage) := do
  let (_, db, w) := created fun _ => false
  let (_, _, w) := insertSession onePerPage db "heap" [record4 1, record4 2] w
  let (opened, scan, w) := HeapFileScan.construct db "heap" w
  let (started, scan) := scan.startScan 0 0 .STRING none .EQ
  let (scanned, _, scan, w) ← scan.scanNext 4 w
  let (deleted, scan, w) ← scan.deleteRecord w
  let (ended, scan, w) := scan.endScan w
  let (restarted, scan) := scan.startScan 0 0 .STRING none .EQ
  let (rescanned, rid, scan, w) ← scan.scanNext 4 w
  pure ([opened, started, scanned, deleted, ended, restarted, rescanned], rid, scan, w)

/-- **A scan without a cursor page (after `endScan`) never returns the first record of the list**:
`scanNext` reads the first page the header names, makes its first record the current one, and
runs the loop, which goes on from the record after it. A first page without a record makes it
return an error (`NORECORDS`, when the read succeeds), whatever the later pages hold. So a scan
restarted by `endScan()` and `startScan()` misses records of its file's list. On the file of
`oneRecord`, whose list is page `2` with the record `(2, 0)`, the restarted scan returns
`FILEEOF` at once. On a file whose first page has lost its record and whose second page, `10`,
holds `(10, 0)`, it returns `NORECORDS`. -/
theorem restartedScan_misses :
    (∀ (w : World HeapPage) (scan : HeapFileScan) (pages : List Int)
        (records : List (RID × Record)) (fuel : Nat), Agree w → scan.curPage = none →
      Chain w scan.filePtr (scan.header w).firstPage pages records →
      (scan.header w).firstPage ≠ -1 →
      (∀ p ∈ pages, ∃ bytes, Cell.Holds bytes (cellOf w (scan.filePtr, p))) →
      records.length + pages.length ≤ fuel →
      ∃ result, scan.scanNext fuel w = some result ∧
        HeapFileScan.Answer w scan records.tail (records.length + pages.length) result ∧
        (∀ page, (cellOf w (scan.filePtr, (scan.header w).firstPage)).content = some page →
          page.liveRecords = [] → result.1 ≠ .ok ∧ result.1 ≠ .fileEOF)) ∧
    (∃ scan w, restartedScan =
        some ([.ok, .ok, .ok, .ok, .ok, .fileEOF], [some ⟨2, 0⟩, none], scan, w) ∧
      Chain w (some 0) (scan.header w).firstPage [2] [(⟨2, 0⟩, record4 1)]) ∧
    (∃ scan w, emptiedFirstPage = some ([.ok, .ok, .ok, .ok, .ok, .ok, .noRecords], none, scan, w) ∧
      Chain w (some 0) (scan.header w).firstPage [2, 10] [(⟨10, 0⟩, record4 2)]) := by
  refine ⟨fun w scan pages records fuel agree uncursored chain first held enough => ?_,
    ⟨_, _, rfl, chainFrom_sound (show chainFrom _ _ 2 _ = _ from rfl)⟩,
    ⟨_, _, rfl, chainFrom_sound (show chainFrom _ _ 3 _ = _ from rfl)⟩⟩
  unfold HeapFileScan.scanNext
  rw [uncursored]
  dsimp only
  split
  · rename_i frame w₁ read
    obtain ⟨pages', records', rfl, rfl, standing, keeps, content⟩ :=
      OnPage.enter agree chain first held read
    split
    · rename_i rid found
      obtain ⟨rec, got, live⟩ := HeapPage.firstRecord_ok found
      have placed : HeapFileScan.Placed w₁
          { scan with curPageNo := (scan.header w).firstPage, curDirtyFlag := false,
                      curPage := some frame, curRec := rid } frame pages'
          ((w₁.bufPool frame).recordsFrom (rid.slotNo + 1).toNat ++ records') :=
        ⟨rfl, records', standing, rfl⟩
      rw [live] at enough ⊢
      simp only [List.cons_append, List.length_cons, List.tail_cons] at enough ⊢
      obtain ⟨answer, ran, answers⟩ := HeapFileScan.scanLoop_answers fuel placed (by omega)
      refine ⟨answer, ran, answers.widen (by exact rfl) keeps rfl (by omega),
        fun page content' empty => ?_⟩
      rw [content'] at content
      rw [← Option.some.inj content, empty] at live
      cases live
    · rename_i status noRecords
      obtain ⟨rfl, -⟩ := HeapPage.firstRecord_error noRecords
      exact ⟨_, rfl, .failed (by simp) (by simp), fun _ _ _ => ⟨by simp, by simp⟩⟩
  · rename_i status page w₁ unfound read
    have unreported := readPage_unreported agree read fun frame same =>
      unfound frame (Prod.mk.inj same).1 (Prod.mk.inj same).2
    exact ⟨_, rfl, .failed unreported.1 unreported.2, fun _ _ _ => unreported⟩

end Minirel
