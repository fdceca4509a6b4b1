/-
**What a scan and an insert scan hold pinned.**

The ledger of `Minirel.Heap.Ledger` (`HeapFile.held`, `Tracks`) carried through the calls of the
two derived objects.

* `HeapFileScan.scanLoop_tracks`, `HeapFileScan.scanNext_tracks` — **`scanNext` keeps the pool in
  step when it reports `OK` or `FILEEOF`**: the cursor's pin moves with the cursor from page to
  page, through every turn of the loop (`scanLoop_turn`).
* `endScan_tracks`, `resetScan_tracks`, `deleteRecord_tracks` — the other calls of a scan that
  report `OK` or `FILEEOF` keep it in step; `endScan_destruct_pins` — a scan's destructor gives
  back every pin the object holds.
* `scanSession_pins` — **a `HeapFileScan` session whose calls all report `OK` or `FILEEOF` leaves
  every page's pins as they were before the constructor.**
* `InsertFileScan.insertRecord_tracks` — **an insert that returns `OK` keeps the pool in step**:
  over a full page it moves the cursor's pin to the page it allocates
  (`insertOnNewPage_tracks`); `dirtyDestruct_pins` — the insert scan's destructor gives back
  every pin.
* `insertSession_pins` — **an `InsertFileScan` session whose inserts all return `OK` leaves
  every page's pins as they were before the constructor.**
-/

import Minirel.Heap.Ledger

namespace Minirel

open World BufMgr

namespace HeapFileScan

open HeapFile

variable {w : World HeapPage}

/-- The end of a turn on a record keeps the pool in step, given that the rest of the loop does. -/
theorem Examined.tracks {fuel frame : Nat} {scan : HeapFileScan} {result}
    (examined : Examined fuel frame scan w result) (agree : Agree w)
    (cursor : scan.curPage = some frame)
    (onward : ∀ {status rid scan' w'}, scanLoop fuel frame scan w = some (status, rid, scan', w') →
      (status = .ok ∨ status = .fileEOF) →
      Agree w' ∧ scan'.curPage.isSome ∧ Tracks w w' scan.toHeapFile scan'.toHeapFile)
    {status : Status} {rid : Option RID} {scan' : HeapFileScan} {w' : World HeapPage}
    (ran : result = some (status, rid, scan', w')) (reported : status = .ok ∨ status = .fileEOF) :
    Agree w' ∧ scan'.curPage.isSome ∧ Tracks w w' scan.toHeapFile scan'.toHeapFile := by
  cases examined with
  | unreadable _ | matched _ _ =>
    cases ran
    exact ⟨agree, by simp [cursor], fun _ => rfl⟩
  | skipped _ _ => exact onward ran reported

/-- **`scanNext`'s loop keeps the pool in step when it reports `OK` or `FILEEOF`**, and leaves a
cursor page: the cursor's pin moves with the cursor from page to page. -/
theorem scanLoop_tracks (fuel : Nat) :
    ∀ {frame : Nat} {scan : HeapFileScan} {w : World HeapPage} {status : Status} {rid : Option RID}
      {scan' : HeapFileScan} {w' : World HeapPage}, Agree w → scan.curPage = some frame →
      scanLoop fuel frame scan w = some (status, rid, scan', w') → (status = .ok ∨ status = .fileEOF) →
      Agree w' ∧ scan'.curPage.isSome ∧ Tracks w w' scan.toHeapFile scan'.toHeapFile := by
  induction fuel with
  | zero => exact fun _ _ ran _ => by cases ran
  | succ fuel ih =>
    intro frame scan w status rid scan' w' agree cursor ran reported
    have turn := scanLoop_turn fuel frame scan w
    generalize scanLoop (fuel + 1) frame scan w = result at turn ran
    cases turn with
    | onPage _ examined => exact examined.tracks agree cursor (ih agree cursor) ran reported
    | eof _ _ =>
      cases ran
      exact ⟨agree, by simp [cursor], fun _ => rfl⟩
    | unreleased _ _ released failed =>
      cases ran
      cases unPinPage_failed released failed
      exact ⟨agree, by simp [cursor], fun _ => rfl⟩
    | unread _ _ released loaded unfound =>
      have agree₁ : Agree _ := (released ▸ agree.unPinPage _ _ _ :)
      cases ran
      have := readPage_unreported agree₁ loaded unfound
      rcases reported with rfl | rfl <;> simp at this
    | @moved _ frame' w₁ w₂ _ _ _ released loaded entered =>
      have agree₁ : Agree _ := (released ▸ agree.unPinPage _ _ _ :)
      have agree₂ : Agree _ := (loaded ▸ agree₁.readPage _ _ _ :)
      have step : Tracks w w₂ scan.toHeapFile
          { scan with curPageNo := (w.bufPool frame).getNextPage, curDirtyFlag := false,
                      curPage := some frame' }.toHeapFile := fun key => by
        rw [pinsOf_readPage agree₁ loaded, pinsOf_unPinPage_ok agree released]
        simp only [held, cursor, Option.isSome_some, true_and, and_true]
        split_ifs <;> omega
      cases entered with
      | first _ examined =>
        obtain ⟨agree', cursor', rest⟩ := examined.tracks agree₂ rfl (ih agree₂ rfl) ran reported
        exact ⟨agree', cursor', step.trans rest⟩
      | empty _ =>
        obtain ⟨agree', cursor', rest⟩ := ih agree₂ rfl ran reported
        exact ⟨agree', cursor', step.trans rest⟩

/-- **A `scanNext` that reports `OK` or `FILEEOF` keeps the pool in step** and leaves a cursor
page; without one it first pins the header's first data page. -/
theorem scanNext_tracks (agree : Agree w) (fuel : Nat) {scan : HeapFileScan} {status : Status}
    {rid : Option RID} {scan' : HeapFileScan} {w' : World HeapPage}
    (ran : scanNext fuel scan w = some (status, rid, scan', w'))
    (reported : status = .ok ∨ status = .fileEOF) :
    Agree w' ∧ scan'.curPage.isSome ∧ Tracks w w' scan.toHeapFile scan'.toHeapFile := by
  unfold scanNext at ran
  cases cursor : scan.curPage with
  | some frame =>
    rw [cursor] at ran
    exact scanLoop_tracks fuel agree cursor ran reported
  | none =>
    rw [cursor] at ran
    dsimp only at ran
    split at ran
    · rename_i frame w₁ loaded
      have agree₁ : Agree w₁ := (loaded ▸ agree.readPage _ _ _ :)
      have step : Tracks w w₁ scan.toHeapFile
          { scan with curPageNo := (scan.header w).firstPage, curDirtyFlag := false,
                      curPage := some frame }.toHeapFile := fun key => by
        rw [pinsOf_readPage agree loaded]
        simp only [held, cursor, Option.isSome_some, Option.isSome_none, Bool.false_eq_true,
          false_and, if_false, true_and, and_true]
        split_ifs <;> omega
      split at ran
      · obtain ⟨agree', cursor', rest⟩ := scanLoop_tracks fuel agree₁ rfl ran reported
        exact ⟨agree', cursor', step.trans rest⟩
      · cases ran
        exact ⟨agree₁, rfl, step⟩
    · rename_i status' page w₁ unfound loaded
      cases ran
      have := readPage_unreported agree loaded fun frame same =>
        unfound frame (Prod.mk.inj same).1 (Prod.mk.inj same).2
      rcases reported with rfl | rfl <;> simp at this

/-- An `endScan` that reports `OK` or `FILEEOF` gives back the cursor's pin. -/
theorem endScan_tracks (agree : Agree w) (scan : HeapFileScan) {status : Status}
    {scan' : HeapFileScan} {w' : World HeapPage} (ended : scan.endScan w = (status, scan', w'))
    (reported : status = .ok ∨ status = .fileEOF) :
    Agree w' ∧ Tracks w w' scan.toHeapFile scan'.toHeapFile := by
  unfold endScan at ended
  cases cursor : scan.curPage with
  | none =>
    rw [cursor] at ended
    cases ended
    exact ⟨agree, fun _ => rfl⟩
  | some frame =>
    rw [cursor] at ended
    generalize released : unPinPage scan.filePtr scan.curPageNo scan.curDirtyFlag w = result at ended
    obtain ⟨status', w₁⟩ := result
    cases ended
    have listed := unPinPage_status scan.filePtr scan.curPageNo scan.curDirtyFlag w
    rw [released] at listed
    obtain rfl : status = .ok := by rcases reported with rfl | rfl <;> simp at listed ⊢
    refine ⟨(released ▸ agree.unPinPage _ _ _ :), fun key => ?_⟩
    rw [pinsOf_unPinPage_ok agree released]
    simp only [held, cursor, Option.isSome_some, Option.isSome_none, Bool.false_eq_true,
      false_and, if_false, true_and]
    split_ifs <;> omega

/-- A `resetScan` that reports `OK` or `FILEEOF` keeps the pool in step: moving to the marked
page, it moves the cursor's pin there. -/
theorem resetScan_tracks (agree : Agree w) (scan : HeapFileScan) {status : Status}
    {scan' : HeapFileScan} {w' : World HeapPage} (reset : scan.resetScan w = (status, scan', w'))
    (reported : status = .ok ∨ status = .fileEOF) :
    Agree w' ∧ Tracks w w' scan.toHeapFile scan'.toHeapFile := by
  unfold resetScan at reset
  split_ifs at reset with moved
  · dsimp only at reset
    split at reset
    · rename_i w₁ freeing
      obtain ⟨agree₁, freed⟩ : Agree w₁ ∧ ∀ key, pinsOf w₁ key =
          pinsOf w key - if scan.curPage.isSome ∧ key = (scan.filePtr, scan.curPageNo) then 1 else 0 := by
        cases cursor : scan.curPage with
        | none =>
          simp only [cursor] at freeing
          cases freeing
          exact ⟨agree, by simp⟩
        | some frame =>
          simp only [cursor] at freeing
          exact ⟨(freeing ▸ agree.unPinPage _ _ _ :), fun key => by
            simp [pinsOf_unPinPage_ok agree freeing]⟩
      split at reset
      · rename_i page w₂ loaded
        cases reset
        obtain ⟨frame, handed⟩ := readPage_ok_frame agree₁ (by rw [loaded])
        rw [loaded] at handed
        cases handed
        refine ⟨(loaded ▸ agree₁.readPage _ _ _ :), fun key => ?_⟩
        rw [pinsOf_readPage agree₁ loaded, freed]
        simp only [held, Option.isSome_some, true_and, and_true]
        split_ifs <;> omega
      · rename_i status' page w₂ failed loaded
        cases reset
        have listed := readPage_status scan.filePtr scan.markedPageNo scan.curPage w₁
        rw [loaded] at listed
        rcases reported with rfl | rfl
        · exact absurd rfl failed
        · simp at listed
    · rename_i status' w₁ failed freeing
      have unchanged : w₁ = w := by
        cases cursor : scan.curPage with
        | none =>
          simp only [cursor, Prod.mk.injEq] at freeing
          exact absurd freeing.1.symm failed
        | some frame =>
          simp only [cursor] at freeing
          exact unPinPage_failed freeing failed
      subst unchanged
      cases reset
      exact ⟨agree, fun _ => rfl⟩
  · cases reset
    exact ⟨agree, fun _ => rfl⟩

/-- A `deleteRecord` moves no pin: it writes the cursor page and the header in the pool. -/
theorem deleteRecord_tracks (agree : Agree w) (scan : HeapFileScan) {status : Status}
    {scan' : HeapFileScan} {w' : World HeapPage}
    (deleted : scan.deleteRecord w = some (status, scan', w')) :
    Agree w' ∧ Tracks w w' scan.toHeapFile scan'.toHeapFile := by
  obtain ⟨frame, -, deleted⟩ := Option.map_eq_some'.mp deleted
  cases deleted
  exact ⟨(agree.setPage _ _).setPage _ _, fun _ => rfl⟩

/-- `startScan` leaves the open file as it was. -/
theorem startScan_toHeapFile (offset length : Int) (type : Datatype) (filter : Option (List UInt8))
    (op : Operator) (scan : HeapFileScan) :
    (scan.startScan offset length type filter op).2.toHeapFile = scan.toHeapFile := by
  unfold startScan
  split
  · rfl
  · split_ifs <;> rfl

/-- **A scan's destructor gives back every pin the object holds**, as long as the pool holds
them: `endScan` releases the cursor page, the base destructor the header. -/
theorem endScan_destruct_pins (agree : Agree w) (scan : HeapFileScan)
    (holds : ∀ key, scan.held key ≤ pinsOf w key) (key : Option FileId × Int) :
    pinsOf (scan.destruct w) key = pinsOf w key - scan.held key := by
  have ended : (scan.endScan w).1 = .ok := by
    unfold endScan
    cases cursor : scan.curPage with
    | none => rfl
    | some frame =>
      have current := holds (scan.filePtr, scan.curPageNo)
      simp only [held, cursor, Option.isSome_some, true_and, if_true] at current
      obtain ⟨w₁, released⟩ := unPinPage_of_pinned
        (show 0 < pinsOf w (scan.filePtr, scan.curPageNo) by split_ifs at current <;> omega)
        scan.curDirtyFlag
      simp only [released]
  unfold destruct
  generalize ending : scan.endScan w = result at ended ⊢
  obtain ⟨status₁, scan₁, w₁⟩ := result
  obtain ⟨agree₁, tracks⟩ := endScan_tracks agree scan ending (.inl ended)
  rw [HeapFile.destruct_pins agree₁ _ (fun key => by
    have := tracks key
    have := holds key
    omega) key]
  have := tracks key
  omega

end HeapFileScan

/-! ### A session of scan calls -/

/-- The calls a client makes on an open `HeapFileScan`. -/
inductive ScanCall where
  | startScan (offset length : Int) (type : Datatype) (filter : Option (List UInt8)) (op : Operator)
  | scanNext
  | markScan
  | resetScan
  | endScan
  | getRecord
  | deleteRecord
  | markDirty

/-- One call on the scan and its status, with `fuel` for `scanNext`'s loop; `none` where the model
gives the call no result (the loop out of fuel, a null cursor page dereferenced). -/
def ScanCall.apply (fuel : Nat) (scan : HeapFileScan) (w : World HeapPage) :
    ScanCall → Option (Status × HeapFileScan × World HeapPage)
  | .startScan offset length type filter op =>
    let (status, scan) := scan.startScan offset length type filter op
    some (status, scan, w)
  | .scanNext => (scan.scanNext fuel w).map fun (status, _, scan, w) => (status, scan, w)
  | .markScan => some (.ok, scan.markScan, w)
  | .resetScan => some (scan.resetScan w)
  | .endScan => some (scan.endScan w)
  | .getRecord =>
    (scan.getRecord w).map fun got =>
      (match got with
        | .ok _ => .ok
        | .error status => status, scan, w)
  | .deleteRecord => scan.deleteRecord w
  | .markDirty => some (.ok, scan.markDirty, w)

/-- The calls one after another, with the status of each. -/
def runScan (fuel : Nat) : List ScanCall → HeapFileScan → World HeapPage →
    Option (List Status × HeapFileScan × World HeapPage)
  | [], scan, w => some ([], scan, w)
  | call :: calls, scan, w => do
    let (status, scan, w) ← call.apply fuel scan w
    let (statuses, scan, w) ← runScan fuel calls scan w
    pure (status :: statuses, scan, w)

/-- A client's `HeapFileScan` session: construct the object, make the calls, destroy it. -/
def scanSession (fuel : Nat) (db : Db) (fileName : String) (calls : List ScanCall)
    (w : World HeapPage) : Option (Status × List Status × World HeapPage) :=
  let (status, scan, w) := HeapFileScan.construct db fileName w
  (runScan fuel calls scan w).map fun (statuses, scan, w) => (status, statuses, scan.destruct w)

open HeapFile HeapFileScan

/-- Every scan call that reports `OK` or `FILEEOF` keeps the pool in step. -/
theorem ScanCall.apply_tracks {w : World HeapPage} (agree : Agree w) (fuel : Nat)
    (scan : HeapFileScan) {status : Status} {scan' : HeapFileScan} {w' : World HeapPage} :
    ∀ call : ScanCall, call.apply fuel scan w = some (status, scan', w') →
      (status = .ok ∨ status = .fileEOF) → Agree w' ∧ Tracks w w' scan.toHeapFile scan'.toHeapFile
  | .startScan offset length type filter op, ran, _ => by
    have kept := startScan_toHeapFile offset length type filter op scan
    rw [ScanCall.apply] at ran
    generalize scan.startScan offset length type filter op = started at ran kept
    cases ran
    exact ⟨agree, fun key => by rw [kept]⟩
  | .scanNext, ran, reported => by
    obtain ⟨⟨status₁, rid, scan₁, w₁⟩, next, ran⟩ := Option.map_eq_some'.mp ran
    cases ran
    obtain ⟨agree', -, tracks⟩ := scanNext_tracks agree fuel next reported
    exact ⟨agree', tracks⟩
  | .markScan, ran, _ | .markDirty, ran, _ => by
    cases ran
    exact ⟨agree, fun _ => rfl⟩
  | .resetScan, ran, reported => resetScan_tracks agree scan (Option.some.inj ran) reported
  | .endScan, ran, reported => endScan_tracks agree scan (Option.some.inj ran) reported
  | .getRecord, ran, _ => by
    obtain ⟨_, -, ran⟩ := Option.map_eq_some'.mp ran
    cases ran
    exact ⟨agree, fun _ => rfl⟩
  | .deleteRecord, ran, _ => deleteRecord_tracks agree scan ran

/-- A run of scan calls that all report `OK` or `FILEEOF` keeps the pool in step. -/
theorem runScan_tracks (fuel : Nat) (calls : List ScanCall) :
    ∀ {scan : HeapFileScan} {w : World HeapPage} {statuses : List Status} {scan' : HeapFileScan}
      {w' : World HeapPage}, Agree w → runScan fuel calls scan w = some (statuses, scan', w') →
      (∀ status ∈ statuses, status = .ok ∨ status = .fileEOF) →
      Agree w' ∧ Tracks w w' scan.toHeapFile scan'.toHeapFile := by
  induction calls with
  | nil =>
    intro scan w statuses scan' w' agree ran _
    cases ran
    exact ⟨agree, fun _ => rfl⟩
  | cons call calls ih =>
    intro scan w statuses scan' w' agree ran reported
    obtain ⟨⟨status, scan₁, w₁⟩, first, ran⟩ := Option.bind_eq_some.mp ran
    obtain ⟨⟨statuses', scan₂, w₂⟩, rest, ran⟩ := Option.bind_eq_some.mp ran
    cases ran
    simp only [List.mem_cons, forall_eq_or_imp] at reported
    obtain ⟨agree₁, tracks₁⟩ := call.apply_tracks agree fuel scan first reported.1
    obtain ⟨agree₂, tracks₂⟩ := ih agree₁ rest reported.2
    exact ⟨agree₂, tracks₁.trans tracks₂⟩

/-- **A `HeapFileScan` session whose calls all report `OK` or `FILEEOF` leaves every page's pins
as they were before the constructor**: the object takes one pin on the header and one on its
cursor page, every call keeps the pool in step with what it holds, and the destructor gives them
back. -/
theorem scanSession_pins {w : World HeapPage} (agree : Agree w) (fuel : Nat) (db : Db)
    (fileName : String) (calls : List ScanCall) {status : Status} {statuses : List Status}
    {w' : World HeapPage} (ran : scanSession fuel db fileName calls w = some (status, statuses, w'))
    (opened : status = .ok) (reported : ∀ status ∈ statuses, status = .ok ∨ status = .fileEOF)
    (key : Option FileId × Int) : pinsOf w' key = pinsOf w key := by
  unfold scanSession HeapFileScan.construct at ran
  generalize constructed : HeapFile.construct db fileName w = result at ran
  obtain ⟨status₀, hf, w₁⟩ := result
  obtain ⟨⟨statuses', scan, w₂⟩, calls, ran⟩ := Option.map_eq_some'.mp ran
  cases ran
  subst opened
  obtain ⟨agree₁, -, taken⟩ := HeapFile.construct_pins agree constructed
  obtain ⟨agree₂, tracks⟩ := runScan_tracks fuel _ agree₁ calls reported
  dsimp only at tracks
  have kept (key) : pinsOf w₂ key = pinsOf w key + scan.held key := by
    have := tracks key
    have := taken key
    omega
  rw [endScan_destruct_pins agree₂ scan (fun key => by
    rw [kept]
    have := pinsOf_nonneg agree key
    omega) key, kept]
  omega

/-- A scan of the file of `storedWorld 4 2` that returns its two records and then `FILEEOF`
gives page `1` its pins back. -/
theorem storedFile_scanSession_pins :
    ∃ w', scanSession 4 storedCatalog "heap"
        [.startScan 0 0 .STRING none .EQ, .scanNext, .scanNext, .scanNext] (storedWorld 4 2) =
        some (.ok, [.ok, .ok, .ok, .fileEOF], w') ∧
      pinsOf w' (some 0, 1) = pinsOf (storedWorld 4 2) (some 0, 1) :=
  ⟨_, rfl, scanSession_pins (Agree.init _ _ _ _) 4 storedCatalog "heap"
    [.startScan 0 0 .STRING none .EQ, .scanNext, .scanNext, .scanNext] (by rfl) rfl (by decide) _⟩

namespace InsertFileScan

open HeapFile

variable {w : World HeapPage}

/-- The `NOSPACE` branch of an insert, when it returns `OK`, moves the cursor's pin from the full
page to the page it allocates: `allocPage` and the read of the new page pin it twice, the two
releases unpin the full page and the new one once each. -/
theorem insertOnNewPage_tracks (agree : Agree w) (layout : Layout) (rec : Record) {hf : HeapFile}
    {frame : Nat} (cursor : hf.curPage = some frame) (pinned : 0 < pinsOf w (hf.filePtr, hf.curPageNo))
    {rid : Option RID} {hf' : HeapFile} {w' : World HeapPage}
    (ran : insertOnNewPage layout rec frame hf w = (.ok, rid, hf', w')) :
    Agree w' ∧ hf'.curPage.isSome ∧ Tracks w w' hf hf' := by
  unfold insertOnNewPage at ran
  split at ran
  · rename_i status w₁ failed
    cases ran
    refine ⟨(failed ▸ agree.allocPage _ :), by simp [cursor], fun key => ?_⟩
    rw [pinsOf_allocPage_error agree failed]
  · rename_i newPageNo newFrame w₁ allocated
    have agree₁ : Agree w₁ := (allocated ▸ agree.allocPage _ :)
    dsimp only at ran
    generalize unlinked : (unPinPage hf.filePtr hf.curPageNo true _).2 = w₅ at ran
    have agree₅ : Agree w₅ :=
      unlinked ▸ (((agree₁.setPage _ _).setHeader _ _ _ _ _).setPage _ _).unPinPage _ _ _
    have linked (key) : pinsOf w₅ key = pinsOf w key + (if key = (hf.filePtr, newPageNo) then 1 else 0) -
        if key = (hf.filePtr, hf.curPageNo) then 1 else 0 := by
      have pinned₁ : 0 < pinsOf w₁ (hf.filePtr, hf.curPageNo) := by
        rw [pinsOf_allocPage_ok agree allocated]
        split_ifs <;> omega
      rw [← unlinked, pinsOf_unPinPage_pinned (((agree₁.setPage _ _).setHeader _ _ _ _ _).setPage _ _)
        pinned₁]
      simp only [pinsOf_setPage, pinsOf_setHeader]
      rw [pinsOf_allocPage_ok agree allocated]
    have last : (hf.header w₅).lastPage = newPageNo := by
      rw [← unlinked]
      by_cases here : frame = hf.headerPage
      · subst here
        simp [HeapFile.header, setHeader, HeapPage.setNextPage]
      · simp [HeapFile.header, setHeader, Function.update_apply, Ne.symm here]
    split at ran
    · rename_i cur w₆ loaded
      split at ran
      · rename_i placed page inserted
        cases ran
        rw [last] at loaded ⊢
        have agree₆ : Agree w₆ := (loaded ▸ agree₅.readPage _ _ _ :)
        have read := pinsOf_readPage agree₅ loaded
        have pinned₆ : 0 < pinsOf w₆ (hf.filePtr, newPageNo) := by
          have := pinsOf_nonneg agree₅ (hf.filePtr, newPageNo)
          rw [read]
          simp only [and_self, if_true]
          omega
        refine ⟨(((agree₆.setPage _ _).setHeader _ _ _ _ _).setPage _ _).unPinPage _ _ _, rfl,
          fun key => ?_⟩
        rw [pinsOf_unPinPage_pinned (((agree₆.setPage _ _).setHeader _ _ _ _ _).setPage _ _) pinned₆]
        simp only [pinsOf_setPage, pinsOf_setHeader]
        rw [read, linked]
        simp only [held, cursor, Option.isSome_some, true_and, and_true]
        split_ifs <;> omega
      · rename_i status failed
        cases ran
        cases HeapPage.insertRecord_error _ failed
    · rename_i status page w₆ unfound loaded
      cases ran
      exact absurd rfl (readPage_unreported agree₅ loaded fun frame same =>
        unfound frame (Prod.mk.inj same).1 (Prod.mk.inj same).2).1

/-- **An insert that returns `OK` keeps the pool in step** and leaves a cursor page, from an
object with a cursor page the pool holds pinned: in place it moves no pin; over a full page it
moves the cursor's pin to the page it allocates. -/
theorem insertRecord_tracks (agree : Agree w) (layout : Layout) (rec : Record) {hf : HeapFile}
    {frame : Nat} (cursor : hf.curPage = some frame) (pinned : 0 < pinsOf w (hf.filePtr, hf.curPageNo))
    {rid : Option RID} {hf' : HeapFile} {w' : World HeapPage}
    (ran : insertRecord layout rec hf w = (.ok, rid, hf', w')) :
    Agree w' ∧ hf'.curPage.isSome ∧ Tracks w w' hf hf' := by
  unfold insertRecord at ran
  split_ifs at ran
  · cases ran
  simp only [pinLastPage, cursor] at ran
  split at ran
  · cases ran
    exact ⟨(agree.setPage _ _).setHeader _ _ _ _ _, rfl, fun _ => by
      simp only [held, cursor, pinsOf_setHeader, pinsOf_setPage]⟩
  · exact insertOnNewPage_tracks agree layout rec cursor pinned ran
  · rename_i status _ failed
    cases ran
    cases HeapPage.insertRecord_error _ failed

/-- **An insert scan's destructor gives back every pin the object holds**, as long as the pool
holds them: it releases the cursor page dirty, then the base destructor the header. -/
theorem dirtyDestruct_pins (agree : Agree w) (hf : HeapFile)
    (holds : ∀ key, hf.held key ≤ pinsOf w key) (key : Option FileId × Int) :
    pinsOf (InsertFileScan.destruct hf w) key = pinsOf w key - hf.held key := by
  unfold InsertFileScan.destruct
  cases cursor : hf.curPage with
  | none => exact HeapFile.destruct_pins agree hf holds key
  | some frame =>
    have current := holds (hf.filePtr, hf.curPageNo)
    simp only [held, cursor, Option.isSome_some, true_and, if_true] at current
    have pinned : 0 < pinsOf w (hf.filePtr, hf.curPageNo) := by split_ifs at current <;> omega
    have released := pinsOf_unPinPage_pinned agree pinned true
    dsimp only
    rw [HeapFile.destruct_pins (agree.unPinPage _ _ _) _ (fun key => by
      have := holds key
      rw [released]
      simp only [held, cursor, Option.isSome_none, Bool.false_eq_true, false_and, if_false,
        Option.isSome_some, true_and] at this ⊢
      split_ifs at this ⊢ <;> omega) key, released]
    simp only [held, cursor, Option.isSome_none, Bool.false_eq_true, false_and, if_false,
      Option.isSome_some, true_and]
    split_ifs <;> omega

end InsertFileScan

open HeapFile InsertFileScan

/-- Inserts that all return `OK`, from an object with a cursor page whose pins the pool holds,
keep the pool in step. -/
theorem insertAll_tracks (layout : Layout) (records : List Record) :
    ∀ (hf : HeapFile) (w : World HeapPage), Agree w → hf.curPage.isSome →
      (∀ key, hf.held key ≤ pinsOf w key) →
      (∀ status ∈ (insertAll layout records hf w).1, status = .ok) →
      Agree (insertAll layout records hf w).2.2 ∧
        Tracks w (insertAll layout records hf w).2.2 hf (insertAll layout records hf w).2.1 := by
  induction records with
  | nil => exact fun hf w agree _ _ _ => ⟨agree, fun _ => rfl⟩
  | cons record records ih =>
    intro hf w agree cursor holds inserted
    obtain ⟨frame, cursor⟩ := Option.isSome_iff_exists.mp cursor
    simp only [insertAll, List.mem_cons, forall_eq_or_imp] at inserted ⊢
    have pinned : 0 < pinsOf w (hf.filePtr, hf.curPageNo) := by
      have := holds (hf.filePtr, hf.curPageNo)
      simp only [held, cursor, Option.isSome_some, true_and, if_true] at this
      split_ifs at this <;> omega
    generalize placed : insertRecord layout record hf w = result at inserted ⊢
    obtain ⟨status, rid, hf₁, w₁⟩ := result
    dsimp only at inserted ⊢
    obtain ⟨rfl, rest⟩ := inserted
    obtain ⟨agree₁, cursor₁, first⟩ := insertRecord_tracks agree layout record cursor pinned placed
    obtain ⟨agree₂, second⟩ := ih hf₁ w₁ agree₁ cursor₁ (fun key => by
      have := first key
      have := holds key
      omega) rest
    exact ⟨agree₂, first.trans second⟩

/-- **An `InsertFileScan` session whose inserts all return `OK` leaves every page's pins as they
were before the constructor.** -/
theorem insertSession_pins {w : World HeapPage} (agree : Agree w) (layout : Layout) (db : Db)
    (fileName : String) (records : List Record)
    (opened : (insertSession layout db fileName records w).1 = .ok)
    (inserted : ∀ status ∈ (insertSession layout db fileName records w).2.1, status = .ok)
    (key : Option FileId × Int) :
    pinsOf (insertSession layout db fileName records w).2.2 key = pinsOf w key := by
  unfold insertSession at opened inserted ⊢
  generalize constructed : HeapFile.construct db fileName w = result at opened inserted ⊢
  obtain ⟨status, hf, w₁⟩ := result
  dsimp only at opened inserted ⊢
  subst opened
  obtain ⟨agree₁, cursor, taken⟩ := HeapFile.construct_pins agree constructed
  have holds (key) : hf.held key ≤ pinsOf w₁ key := by
    have := pinsOf_nonneg agree key
    rw [taken]
    omega
  obtain ⟨agree₂, tracks⟩ := insertAll_tracks layout records hf w₁ agree₁ cursor holds inserted
  generalize insertAll layout records hf w₁ = run at agree₂ tracks ⊢
  obtain ⟨statuses, hf₂, w₂⟩ := run
  dsimp only at agree₂ tracks ⊢
  have kept (key) : pinsOf w₂ key = pinsOf w key + hf₂.held key := by
    have := tracks key
    have := taken key
    omega
  rw [dirtyDestruct_pins agree₂ hf₂ (fun key => by
    rw [kept]
    have := pinsOf_nonneg agree key
    omega) key, kept]
  omega

/-- A session inserting one record into the file of `storedWorld 4 2`, on a layout with room for
it on page `1`, gives page `1` its pins back. -/
theorem storedFile_insertSession_pins :
    pinsOf (insertSession ⟨64, 4, 2⟩ storedCatalog "heap" [record4 3] (storedWorld 4 2)).2.2
        (some 0, 1) = pinsOf (storedWorld 4 2) (some 0, 1) :=
  insertSession_pins (Agree.init _ _ _ _) ⟨64, 4, 2⟩ storedCatalog "heap" [record4 3] (by rfl)
    (by decide) _

end Minirel
