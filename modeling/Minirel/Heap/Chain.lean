/-
**The list of data pages of a heap file, as a reader follows it.**

The records of a heap file live on a list of data pages: the header names the first, each page
names the next through `nextPage`, and `-1` ends the list. `Chain w file pageNo pages records`
says that following the links from `pageNo`, through what a reader gets of each page (`cellOf`:
the frame if the page is resident, else the store), passes the pages `pages`, reaches `-1`, and
finds on the way the records `records`, page by page and slot by slot.

* `Chain.unique` — the list from a page is a function of the world.
* `Chain.nodup` — **a list that ends passes no page twice**: it is acyclic.
* `chainFrom_sound`, `chainFrom_complete` — the list, computed with fuel.
* `insertSession` — a client's `InsertFileScan` session: open the file, insert, destroy.
* `twoSessions_cutsPage` — **a second session cuts pages out of the list**: its cursor starts
  at the first data page, and an insert that overflows there links that page straight to the new
  one, past the pages after it and the records they hold.
* `storedWorld`, `Chain.held_init` — a heap file already in the store, and the list a buffer
  manager that caches nothing reads of it.
-/

import Minirel.Heap.File

namespace Minirel

open World BufMgr

/-- The pages and records of the list from `pageNo` on, read through `cellOf`. -/
inductive Chain (w : World HeapPage) (file : Option FileId) :
    Int → List Int → List (RID × Record) → Prop
  | last : Chain w file (-1) [] []
  | link {pageNo : Int} {page : HeapPage} {pages : List Int} {records : List (RID × Record)} :
      pageNo ≠ -1 → (cellOf w (file, pageNo)).content = some page →
      Chain w file page.nextPage pages records →
      Chain w file pageNo (pageNo :: pages) (page.liveRecords ++ records)

namespace Chain

variable {w : World HeapPage} {file : Option FileId}

/-- The list from a page, and its records, are determined by the world. -/
theorem unique {pageNo : Int} {pages pages' : List Int} {records records' : List (RID × Record)}
    (chain : Chain w file pageNo pages records) (chain' : Chain w file pageNo pages' records') :
    pages' = pages ∧ records' = records := by
  induction chain generalizing pages' records' with
  | last =>
    cases chain' with
    | last => exact ⟨rfl, rfl⟩
    | link more _ _ => exact absurd rfl more
  | link more read _ ih =>
    cases chain' with
    | last => exact absurd rfl more
    | link _ read' rest' =>
      cases read.symm.trans read'
      obtain ⟨rfl, rfl⟩ := ih rest'
      exact ⟨rfl, rfl⟩

/-- From a page on the list, the list goes on for no more pages than from its start. -/
theorem of_mem {pageNo pageNo' : Int} {pages : List Int} {records : List (RID × Record)}
    (chain : Chain w file pageNo pages records) (mem : pageNo' ∈ pages) :
    ∃ pages' records', Chain w file pageNo' pages' records' ∧ pages'.length ≤ pages.length := by
  induction chain with
  | last => cases mem
  | link more read rest ih =>
    rcases List.mem_cons.mp mem with rfl | later
    · exact ⟨_, _, .link more read rest, Nat.le_refl _⟩
    · obtain ⟨pages', records', chain', shorter⟩ := ih later
      exact ⟨pages', records', chain', Nat.le_succ_of_le shorter⟩

/-- **A list that reaches `-1` passes no page twice.** A page met again would start the same
list again, longer than the rest of the list it starts. -/
theorem nodup {pageNo : Int} {pages : List Int} {records : List (RID × Record)}
    (chain : Chain w file pageNo pages records) : pages.Nodup := by
  induction chain with
  | last => exact List.nodup_nil
  | @link pageNo page pages records more read rest ih =>
    refine List.nodup_cons.mpr ⟨fun again => ?_, ih⟩
    obtain ⟨pages', records', chain', shorter⟩ := rest.of_mem again
    have same := (unique (.link more read rest) chain').1
    rw [same, List.length_cons] at shorter
    omega

end Chain

/-- The list from `pageNo`, followed for at most `fuel` pages: `none` when the fuel runs out or
a page on the way cannot be read. -/
def chainFrom (w : World HeapPage) (file : Option FileId) :
    Nat → Int → Option (List Int × List (RID × Record))
  | 0, _ => none
  | fuel + 1, pageNo =>
    if pageNo = -1 then some ([], [])
    else
      match (cellOf w (file, pageNo)).content with
      | some page =>
        (chainFrom w file fuel page.nextPage).map fun (pages, records) =>
          (pageNo :: pages, page.liveRecords ++ records)
      | none => none

theorem chainFrom_sound {w : World HeapPage} {file : Option FileId} {fuel : Nat} {pageNo : Int}
    {pages : List Int} {records : List (RID × Record)}
    (found : chainFrom w file fuel pageNo = some (pages, records)) :
    Chain w file pageNo pages records := by
  induction fuel generalizing pageNo pages records with
  | zero => cases found
  | succ fuel ih =>
    unfold chainFrom at found
    split_ifs at found with ended
    · cases found
      exact ended ▸ .last
    · split at found
      · obtain ⟨⟨pages', records'⟩, rest, same⟩ := Option.map_eq_some'.mp found
        cases same
        exact .link ended ‹_› (ih rest)
      · cases found

theorem chainFrom_complete {w : World HeapPage} {file : Option FileId} {pageNo : Int}
    {pages : List Int} {records : List (RID × Record)} (chain : Chain w file pageNo pages records) :
    chainFrom w file (pages.length + 1) pageNo = some (pages, records) := by
  induction chain with
  | last => rfl
  | link more read _ ih =>
    rw [List.length_cons, chainFrom, if_neg more, read]
    dsimp only
    rw [ih]
    rfl

/-! ### Sessions of a client -/

/-- A client inserting `records` one after another into an open `InsertFileScan`, with the
status of each insert. -/
def insertAll (layout : Layout) :
    List Record → HeapFile → World HeapPage → List Status × HeapFile × World HeapPage
  | [], hf, w => ([], hf, w)
  | record :: records, hf, w =>
    let (status, _, hf, w) := InsertFileScan.insertRecord layout record hf w
    let (statuses, hf, w) := insertAll layout records hf w
    (status :: statuses, hf, w)

/-- A client's `InsertFileScan` session: construct the object (its constructor is `HeapFile`'s),
insert `records`, destroy it. -/
def insertSession (layout : Layout) (db : Db) (fileName : String) (records : List Record)
    (w : World HeapPage) : Status × List Status × World HeapPage :=
  let (status, hf, w) := HeapFile.construct db fileName w
  let (statuses, hf, w) := insertAll layout records hf w
  (status, statuses, InsertFileScan.destruct hf w)

/-- A layout whose data page holds one record of four bytes and no second one. -/
def onePerPage : Layout := ⟨8, 4, 2⟩

/-- A record of four equal bytes. -/
def record4 (byte : UInt8) : Record := ⟨[byte, byte, byte, byte], 4⟩

/-- The file `heap` created, by the catalog that makes it file `0`, over four frames and an empty
store that numbers a new page by the index of its call and fails the calls `fault` picks. -/
def created (fault : Nat → Bool) : Status × Db × World HeapPage :=
  createHeapFile ⟨fun _ => none, fun _ => 0⟩ "heap"
    (World.init 4 ⟨fun _ _ => none, fun _ => none⟩ fault fun n => n)

/-- Two sessions on a new file: the first inserts two records, the second one more. -/
def twoSessions : (Status × List Status) × (Status × List Status) × World HeapPage :=
  let (_, db, w) := created fun _ => false
  let (opened₁, inserted₁, w) := insertSession onePerPage db "heap" [record4 1, record4 2] w
  let (opened₂, inserted₂, w) := insertSession onePerPage db "heap" [record4 3] w
  ((opened₁, inserted₁), (opened₂, inserted₂), w)

/-- The header is page `0` and the first data page `2`. The first session fills page `2`,
overflows to page `10` and puts the second record there. The second session starts on page `2`,
overflows again, and links page `2` to its new page `12`: the list is `2, 12`, while the header
counts three pages and every insert returned `OK`; page `10` and the second record are lost. -/
theorem twoSessions_cutsPage :
    twoSessions.1 = (.ok, [.ok, .ok]) ∧ twoSessions.2.1 = (.ok, [.ok]) ∧
      (cellOf twoSessions.2.2 (some 0, 0)).content.map
          (fun hdr => (hdr.firstPage, hdr.lastPage, hdr.pageCnt)) = some (2, 12, 3) ∧
      Chain twoSessions.2.2 (some 0) 2 [2, 12] [(⟨2, 0⟩, record4 1), (⟨12, 0⟩, record4 3)] :=
  ⟨rfl, rfl, rfl, chainFrom_sound (show chainFrom _ _ 3 _ = _ from rfl)⟩

/-! ### A file in the store -/

/-- The pages of a heap file of `n` data pages, as the store holds them: the header, page `0`,
names page `1` first and page `n` last; data page `p` holds the record `record4 p` in slot `0` and
links to page `p + 1`, page `n` ending the list. -/
def storedPage (n : Nat) (pageNo : Int) : Option HeapPage :=
  if pageNo = 0 then
    some { (default : HeapPage) with firstPage := 1, lastPage := n, pageCnt := n, recCnt := n }
  else if 1 ≤ pageNo ∧ pageNo ≤ n then
    some { (default : HeapPage) with
            curPage := pageNo, slots := [some (record4 pageNo.toNat.toUInt8)],
            nextPage := if pageNo = n then -1 else pageNo + 1 }
  else none

/-- A world of `bufs` frames, before any call, over a store holding the heap file `0` of `n` data
pages, its header first; no call fails. -/
def storedWorld (bufs n : Nat) : World HeapPage :=
  World.init bufs ⟨fun id pageNo => if id = 0 then storedPage n pageNo else none, fun _ => some 0⟩
    (fun _ => false) fun _ => 0

/-- A catalog in which every name opens file `0`. -/
def storedCatalog : Db := ⟨fun _ => some 0, fun _ => 1⟩

/-- Before any call, a page the store holds holds its bytes for its readers: the pool caches
nothing. -/
theorem holds_init {Page : Type} [Inhabited Page] (bufs : Nat) {disk : Disk Page}
    (fault : Nat → Bool) (fresh : Nat → Int) {key : Option FileId × Int} {bytes : Page}
    (stored : disk.read key.1 key.2 = some bytes) :
    Cell.Holds bytes (cellOf (World.init bufs disk fault fresh) key) :=
  have uncached : (cellOf (World.init bufs disk fault fresh) key).cached = none := rfl
  have read : (cellOf (World.init bufs disk fault fresh) key).stored = some bytes := stored
  ⟨by rw [read]; rfl, by rw [Cell.content, uncached]; exact read,
    fun _ cached => by rw [uncached] at cached; cases cached⟩

/-- Before any call, every page of a list holds its bytes for its readers. -/
theorem Chain.held_init {bufs : Nat} {disk : Disk HeapPage} {fault : Nat → Bool}
    {fresh : Nat → Int} {file : Option FileId} {pageNo : Int} {pages : List Int}
    {records : List (RID × Record)}
    (chain : Chain (World.init bufs disk fault fresh) file pageNo pages records) :
    ∀ p ∈ pages, ∃ bytes, Cell.Holds bytes (cellOf (World.init bufs disk fault fresh) (file, p)) := by
  induction chain with
  | last => exact fun _ mem => absurd mem (List.not_mem_nil _)
  | link _ read _ ih =>
    intro p mem
    rcases List.mem_cons.mp mem with rfl | later
    · exact ⟨_, holds_init bufs fault fresh read⟩
    · exact ih p later

end Minirel
