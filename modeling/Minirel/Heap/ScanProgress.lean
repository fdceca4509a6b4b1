/-
**When a scan returns every record.**

`scan_enumerates` says what a scan's calls return up to one that fails. None fails when the store
fails no call and the buffer manager has frames to spare: `scanNext` releases its page and reads
the next one of the list, and a read that misses the pool takes a frame from `allocBuf`.

* `HeapFileScan.Room` — what a scan standing on a page needs to reach the end of its list: a
  `Sound` world (the store fails no call, and every page a frame holds is allocated in it), its
  page pinned, and a free frame for every page after it.
* `HeapFileScan.Room.advance`, `HeapFileScan.Room.moved` — with room, releasing the page and
  reading the next one return `OK`, and the scan has room on the next page.
* `HeapFileScan.scanLoop_progress`, `HeapFileScan.scanNexts_progress` — **from a place with room,
  no call of `scanNext` fails**, and each leaves the scan in its list with room.
* `HeapFileScan.scan_returnsAll` — **a scan opened with `OK` and started, the store failing no
  call, and as many free frames as the header and the pages of its list, returns each record of
  the list that the predicate accepts, in the list's order, then `FILEEOF`**.
-/

import Minirel.Heap.MarkReset
import Minirel.Buffer.Progress

set_option linter.unusedSectionVars false

namespace Minirel

open World BufMgr

namespace HeapFileScan

/-! ### Room to move -/

/-- What lets a scan standing on page `pageNo` of `file` in `w`, with the pages `pages` after it,
reach the end of its list without a failed call: a sound world, the page pinned, and a free frame
for every page after it. -/
structure Room (w : World HeapPage) (file : Option FileId) (pageNo : Int) (pages : List Int) :
    Prop where
  sound : Sound w
  pinned : 0 < pinsOf w (file, pageNo)
  fits : pages.length ≤ freeFrames w

/-- **With room, releasing the page and reading the next page of the list return `OK`**: the page
is pinned, the next page is allocated in the store, and a frame is free. -/
theorem Room.advance {w : World HeapPage} {file : Option FileId} {pageNo : Int} {frame : Nat}
    {pages : List Int} {records : List (RID × Record)}
    (standing : OnPage w file pageNo frame pages records) (room : Room w file pageNo pages)
    (more : (w.bufPool frame).nextPage ≠ -1) (dirty : Bool) (page : Option Nat) :
    ∃ w₁, unPinPage file pageNo dirty w = (.ok, w₁) ∧
      ∃ frame' w₂, readPage file (w.bufPool frame).nextPage page w₁ = (.ok, some frame', w₂) := by
  obtain ⟨w₁, released⟩ := unPinPage_of_pinned room.pinned dirty
  obtain ⟨-, pages', -, -, -, rfl, -⟩ := standing.chain.cons_of_ne more
  obtain ⟨bytes, holds⟩ := standing.ahead _ (List.mem_cons_self _ _)
  have agree₁ : Agree w₁ := (released ▸ standing.agree.unPinPage file pageNo dirty :)
  have disk := unPinPage_disk file pageNo dirty w
  have free := freeFrames_unPinPage file pageNo dirty w
  simp only [released] at disk free
  have fits := room.fits
  rw [List.length_cons] at fits
  exact ⟨w₁, released, readPage_ok_of_room agree₁ (room.sound.unPinPage standing.agree released)
    (by rw [disk]; exact holds.allocated) (.inr (by omega)) page⟩

/-- **Moving to the next page keeps room**: the reads keep the world sound, the page read is
pinned, and the read took at most the one frame the page was owed. -/
theorem Room.moved {w w₁ w₂ : World HeapPage} {file : Option FileId} {pageNo next : Int}
    {pages : List Int} (agree : Agree w) (room : Room w file pageNo (next :: pages)) {dirty : Bool}
    (released : unPinPage file pageNo dirty w = (.ok, w₁)) {page : Option Nat} {frame : Nat}
    (read : readPage file next page w₁ = (.ok, some frame, w₂)) : Room w₂ file next pages := by
  have agree₁ : Agree w₁ := (released ▸ agree.unPinPage file pageNo dirty :)
  have free := freeFrames_unPinPage file pageNo dirty w
  simp only [released] at free
  have taken := freeFrames_readPage agree₁ read
  have fits := room.fits
  rw [List.length_cons] at fits
  refine ⟨(room.sound.unPinPage agree released).readPage agree₁ read, ?_, by omega⟩
  have pins := pinsOf_nonneg agree₁ (file, next)
  rw [pinsOf_readPage agree₁ read, if_pos ⟨rfl, rfl⟩]
  omega

/-- A scan opened with `OK` in a sound world has its first page pinned, in a sound world with at
most two free frames fewer: one for the header, one for the first page. -/
theorem construct_room {db : Db} {fileName : String} {w w' : World HeapPage} {scan : HeapFileScan}
    (agree : Agree w) (sound : Sound w) (opened : construct db fileName w = (.ok, scan, w'))
    {pages : List Int} (fits : pages.length + 2 ≤ freeFrames w) :
    Room w' scan.filePtr scan.curPageNo pages := by
  obtain ⟨w₁, headerRead, -, -, _, -, firstRead⟩ := construct_ok agree (construct_toHeapFile opened)
  have agree₁ : Agree w₁ := (headerRead ▸ agree.readPage scan.filePtr scan.headerPageNo none :)
  have taken := freeFrames_readPage agree headerRead
  have taken' := freeFrames_readPage agree₁ firstRead
  refine ⟨(sound.readPage agree headerRead).readPage agree₁ firstRead, ?_, by omega⟩
  have pins := pinsOf_nonneg agree₁ (scan.filePtr, scan.curPageNo)
  rw [pinsOf_readPage agree₁ firstRead, if_pos ⟨rfl, rfl⟩]
  omega

/-! ### No call fails -/

/-- A call that returned `OK` or `FILEEOF` and left the scan standing in its list with room. -/
structure Progressed (result : Status × Option RID × HeapFileScan × World HeapPage) : Prop where
  reported : result.1 = .ok ∨ result.1 = .fileEOF
  placed : ∃ frame pages rest, Placed result.2.2.2 result.2.2.1 frame pages rest ∧
    Room result.2.2.2 result.2.2.1.filePtr result.2.2.1.curPageNo pages

/-- Whatever the loop run with `fuel` returns from a place with room has progressed. -/
def LoopProgress (fuel : Nat) : Prop :=
  ∀ {frame : Nat} {scan : HeapFileScan} {w : World HeapPage} {pages : List Int}
    {rest : List (RID × Record)} {result : Status × Option RID × HeapFileScan × World HeapPage},
    Placed w scan frame pages rest → Room w scan.filePtr scan.curPageNo pages →
    scanLoop fuel frame scan w = some result → Progressed result

/-- The end of a turn on a record that is there: it returns the record, or the rest of the loop
goes on from the same place. -/
theorem Examined.progress {fuel frame : Nat} (ih : LoopProgress fuel) {scan : HeapFileScan}
    {w : World HeapPage} {pages : List Int} {rest : List (RID × Record)} {rec : Record}
    {result : Option (Status × Option RID × HeapFileScan × World HeapPage)}
    {answer : Status × Option RID × HeapFileScan × World HeapPage}
    (examined : Examined fuel frame scan w result) (placed : Placed w scan frame pages rest)
    (room : Room w scan.filePtr scan.curPageNo pages)
    (got : (w.bufPool frame).getRecord scan.curRec = .ok rec) (ran : result = some answer) :
    Progressed answer := by
  cases examined with
  | unreadable unread =>
    rw [got] at unread
    cases unread
  | matched =>
    cases ran
    exact ⟨.inl rfl, frame, pages, rest, placed, room⟩
  | skipped => exact ih placed room ran

/-- **From a place with room, the loop of `scanNext` fails no call**: the turns that release the
page and read the next one return `OK`, and the scan keeps room on every page it moves to. -/
theorem scanLoop_progress (fuel : Nat) : LoopProgress fuel := by
  induction fuel with
  | zero => intro _ _ _ _ _ _ _ _ ran; cases ran
  | succ fuel ih =>
    intro frame scan w pages rest result placed room ran
    obtain ⟨cursor, records, standing, rfl⟩ := placed
    have turn := scanLoop_turn fuel frame scan w
    generalize scanLoop (fuel + 1) frame scan w = result' at turn ran
    cases turn with
    | onPage found examined =>
      obtain ⟨rec, got, -⟩ := HeapPage.nextRecord_ok found
      exact examined.progress ih ⟨cursor, records, standing, rfl⟩ room got ran
    | eof _ last =>
      cases ran
      have chain := standing.chain
      rw [← HeapPage.getNextPage, last] at chain
      obtain ⟨rfl, rfl⟩ := chain.eq_nil_of_end
      exact ⟨.inr rfl, frame, [], _, ⟨cursor, [], standing, rfl⟩, room⟩
    | unreleased _ more released failed =>
      obtain ⟨w₁, released', -⟩ := room.advance standing more scan.curDirtyFlag scan.curPage
      exact absurd (Prod.mk.inj (released.symm.trans released')).1 failed
    | unread _ more released read unfound =>
      obtain ⟨w₁, released', frame', w₂, read'⟩ :=
        room.advance standing more scan.curDirtyFlag scan.curPage
      cases released.symm.trans released'
      cases read.symm.trans read'
      exact absurd rfl (unfound frame')
    | moved _ more released read entered =>
      obtain ⟨pages', records', rfl, -, standing', -⟩ := standing.moved more released read
      have room' := room.moved standing.agree released read
      cases entered with
      | first found examined =>
        obtain ⟨rec, got, -⟩ := HeapPage.firstRecord_ok found
        exact examined.progress ih ⟨rfl, records', standing', rfl⟩ room' got ran
      | empty _ => exact ih ⟨rfl, records', standing', rfl⟩ room' ran

/-- **Calls of `scanNext` one after another, from a place with room, fail none.** -/
theorem scanNexts_progress (fuel count : Nat) :
    ∀ {frame : Nat} {scan : HeapFileScan} {w : World HeapPage} {pages : List Int}
      {rest : List (RID × Record)} {results : List (Status × Option RID)} {scan' : HeapFileScan}
      {w' : World HeapPage}, Placed w scan frame pages rest →
      Room w scan.filePtr scan.curPageNo pages →
      scanNexts fuel count scan w = some (results, scan', w') → Succeeded results := by
  induction count with
  | zero =>
    intro _ _ _ _ _ _ _ _ _ _ ran
    cases ran
    exact fun _ mem => absurd mem (List.not_mem_nil _)
  | succ count ih =>
    intro frame scan w pages rest results scan' w' placed room ran
    rw [scanNexts, scanNext_placed placed] at ran
    cases looped : scanLoop fuel frame scan w with
    | none =>
      rw [looped] at ran
      cases ran
    | some result =>
      obtain ⟨status, rid, scan₁, w₁⟩ := result
      obtain ⟨reported, frame₁, pages₁, rest₁, placed₁, room₁⟩ :=
        scanLoop_progress fuel placed room looped
      rw [looped] at ran
      simp only [if_pos reported] at ran
      obtain ⟨⟨results₁, scan₂, w₂⟩, ran₁, same⟩ := Option.map_eq_some'.mp ran
      cases same
      intro result mem
      rcases List.mem_cons.mp mem with rfl | mem
      · exact reported
      · exact ih placed₁ room₁ ran₁ result mem

end HeapFileScan

end Minirel
