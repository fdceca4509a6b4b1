/-
**The header page: the record count and the header's dirty flag.**

An open heap file writes into its header page through the frame it holds pinned and, when it is
done, releases the page with `hdrDirtyFlag` as the dirty bit. `SameHeader hf hf'` says that `hf'`
is `hf` with at most its cursor moved: the same file, header frame, header page and header dirty
flag.

* `InsertFileScan.insertRecord_sameHeader` — **an insert moves only the cursor**: it keeps
  `hdrDirtyFlag` as it was, though an insert that returns `OK` writes `recCnt` (and, over a full
  page, `lastPage` and `pageCnt`) into the header page.
* `oneRecord_staleHeader` — so the destructor releases that header clean, and a flush of the file
  that returns `OK` leaves the store's header without the insert.
* `doubleDelete_recCnt` — **a delete counts one record less and marks the header dirty whatever
  the page answers**; it returns `OK` exactly when the current record's slot is live. Two deletes
  of one record: `getRecCnt` is `-1` over a list of pages without records.
-/

import Minirel.Heap.Chain
import Minirel.Heap.Scan

namespace Minirel

open World BufMgr

/-- `hf'` is `hf` with at most its cursor moved. -/
structure SameHeader (hf hf' : HeapFile) : Prop where
  filePtr : hf'.filePtr = hf.filePtr
  headerPage : hf'.headerPage = hf.headerPage
  headerPageNo : hf'.headerPageNo = hf.headerPageNo
  hdrDirtyFlag : hf'.hdrDirtyFlag = hf.hdrDirtyFlag

theorem SameHeader.trans {hf hf' hf'' : HeapFile} (first : SameHeader hf hf')
    (second : SameHeader hf' hf'') : SameHeader hf hf'' :=
  ⟨second.1.trans first.1, second.2.trans first.2, second.3.trans first.3, second.4.trans first.4⟩

/-! ### Inserts -/

namespace InsertFileScan

theorem pinLastPage_sameHeader {hf : HeapFile} {w : World HeapPage} :
    (∀ {frame hf' w'}, pinLastPage hf w = .ok (frame, hf', w') → SameHeader hf hf') ∧
      (∀ {status hf' w'}, pinLastPage hf w = .error (status, hf', w') → SameHeader hf hf') := by
  constructor <;> intro _ _ _ result <;> unfold pinLastPage at result <;>
    (repeat' (first | (dsimp only at result) | split at result)) <;>
    cases result <;> exact ⟨rfl, rfl, rfl, rfl⟩

theorem insertOnNewPage_sameHeader (layout : Layout) (rec : Record) (frame : Nat) (hf : HeapFile)
    (w : World HeapPage) : SameHeader hf (insertOnNewPage layout rec frame hf w).2.2.1 := by
  unfold insertOnNewPage
  repeat' (first | dsimp only | split)
  all_goals exact ⟨rfl, rfl, rfl, rfl⟩

/-- **An insert moves only the cursor**: whatever it returns, the object keeps its file, its
header page and its header dirty flag. -/
theorem insertRecord_sameHeader (layout : Layout) (rec : Record) (hf : HeapFile)
    (w : World HeapPage) : SameHeader hf (insertRecord layout rec hf w).2.2.1 := by
  unfold insertRecord
  split
  · exact ⟨rfl, rfl, rfl, rfl⟩
  split
  · rename_i result
    exact pinLastPage_sameHeader.2 result
  · rename_i result
    have pinned := pinLastPage_sameHeader.1 result
    split
    · exact pinned.trans ⟨rfl, rfl, rfl, rfl⟩
    · exact pinned.trans (insertOnNewPage_sameHeader layout rec _ _ _)
    · exact pinned

end InsertFileScan

/-- One record inserted into a new file by one `InsertFileScan` session: the catalog, and the
session's statuses and world. -/
def oneRecord : Db × Status × List Status × World HeapPage :=
  let (_, db, w) := created fun _ => false
  (db, insertSession onePerPage db "heap" [record4 1] w)

/-- The session opens the file, the insert returns `OK`, and the object is destroyed: its
header, page `0`, is resident and clean, counting one record. The flush of the file returns `OK`
and leaves the store's header counting none. -/
theorem oneRecord_staleHeader :
    oneRecord.2.1 = .ok ∧ oneRecord.2.2.1 = [.ok] ∧
      (cellOf oneRecord.2.2.2 (some 0, 0)).cached.map (fun (hdr, dirty) => (hdr.recCnt, dirty)) =
        some (1, false) ∧
      (flushFile (some 0) oneRecord.2.2.2).1 = .ok ∧
      ((flushFile (some 0) oneRecord.2.2.2).2.disk.read (some 0) 0).map HeapPage.recCnt = some 0 :=
  ⟨rfl, rfl, rfl, rfl, rfl⟩

/-! ### Deletes -/

/-- After `oneRecord`, a scan without a filter: open, start, step to the record, delete it, and
delete it again. The statuses and the final object and world. -/
def doubleDelete : Option (List Status × HeapFileScan × World HeapPage) := do
  let (db, _, _, w) := oneRecord
  let (opened, scan, w) := HeapFileScan.construct db "heap" w
  let (started, scan) := HeapFileScan.startScan 0 0 .STRING none .EQ scan
  let (scanned, _, scan, w) ← HeapFileScan.scanNext 2 scan w
  let (deleted, scan, w) ← scan.deleteRecord w
  let (deletedAgain, scan, w) ← scan.deleteRecord w
  pure ([opened, started, scanned, deleted, deletedAgain], scan, w)

/-- **A delete counts one record less and marks the header dirty whatever the page answers**
(the header in another frame than the cursor page); it returns `OK` exactly when the current
record's slot is live. On `doubleDelete` the second delete returns `INVALIDSLOTNO` and still
counts a record less: `getRecCnt` is `-1`, while the list of pages from the header's first page
is page `2` alone, with no record. -/
theorem doubleDelete_recCnt :
    (∀ (scan : HeapFileScan) (w : World HeapPage) (frame : Nat), scan.curPage = some frame →
      frame ≠ scan.headerPage →
      ∃ status scan' w', scan.deleteRecord w = some (status, scan', w') ∧
        (status = .ok ↔ ((w.bufPool frame).slot scan.curRec.slotNo).isSome) ∧
        (scan'.header w').recCnt = (scan.header w).recCnt - 1 ∧ scan'.hdrDirtyFlag = true) ∧
    ∃ scan w, doubleDelete = some ([.ok, .ok, .ok, .ok, .invalidSlotNo], scan, w) ∧
      scan.getRecCnt w = -1 ∧ Chain w (some 0) (scan.header w).firstPage [2] [] := by
  refine ⟨fun scan w frame cursor apart => ⟨_, _, _,
    by simp only [HeapFileScan.deleteRecord, cursor, Option.map_some']; rfl, ?_, ?_, rfl⟩,
    _, _, rfl, rfl, chainFrom_sound (show chainFrom _ _ 2 _ = _ from rfl)⟩
  · simp only [HeapPage.deleteRecord]
    split <;> simp [*]
  · simp [HeapFile.header, setHeader, Function.update_noteq (Ne.symm apart)]

end Minirel
