/-
**The cursor of an open heap file: `getRecord` and the pins it moves.**

An open heap file holds one pin on its header page and, while `curPage` is set, one on its
cursor page. `HeapFile::getRecord` reads a record off another page by releasing the cursor page
number `curPageNo` and reading the record's page; `ReadRecordOutcome` lists what that can do.

* `HeapFile.readRecord_ok` — a read that returns `OK` moves the cursor to the record's page, takes
  one pin from `curPageNo` and gives one to the record's page, whether or not the object held a
  cursor page.
* `endScanThenGet_unpinsHeader` — **after `endScan`, `getRecord` takes a pin from page `0` of the
  file**: `endScan` clears `curPage` and sets `curPageNo` to `0`, and `getRecord` releases
  `curPageNo` all the same. Where the header is page `0`, the object's header pin goes.
* `failedRead_staleCursor` — **a read that fails after the release keeps the page pointer**: the
  object has one pin fewer on its old page, while `curPage` still points at its frame and
  `curPageNo` names the record's page. The next `getRecord` of that page returns the record of
  the old one.
-/

import Minirel.Heap.Header

namespace Minirel

open World BufMgr

namespace HeapFile

variable {w : World HeapPage}

/-- What the `else` branch of `getRecord` can do: the release fails and nothing changes; the
release succeeds and the read fails, the object numbering the record's page and keeping the page
pointer `readPage` hands back; or both succeed and the page answers. -/
inductive ReadRecordOutcome (rid : RID) (hf : HeapFile) (w : World HeapPage) :
    Status × Option Record × HeapFile × World HeapPage → Prop
  | unreleased {status : Status} {w₁ : World HeapPage} :
      unPinPage hf.filePtr hf.curPageNo hf.curDirtyFlag w = (status, w₁) → status ≠ .ok →
      ReadRecordOutcome rid hf w (status, none, hf, w₁)
  | unread {w₁ w₂ : World HeapPage} {status : Status} {page : Option Nat} :
      unPinPage hf.filePtr hf.curPageNo hf.curDirtyFlag w = (.ok, w₁) →
      readPage hf.filePtr rid.pageNo hf.curPage w₁ = (status, page, w₂) →
      (∀ frame, (status, page) ≠ (.ok, some frame)) →
      ReadRecordOutcome rid hf w
        (status, none, { hf with curPageNo := rid.pageNo, curRec := rid, curDirtyFlag := false,
                                 curPage := page }, w₂)
  | read {w₁ w₂ : World HeapPage} {frame : Nat} :
      unPinPage hf.filePtr hf.curPageNo hf.curDirtyFlag w = (.ok, w₁) →
      readPage hf.filePtr rid.pageNo hf.curPage w₁ = (.ok, some frame, w₂) →
      ReadRecordOutcome rid hf w
        (match (w₂.bufPool frame).getRecord rid with
          | .ok _ => .ok
          | .error status => status,
         ((w₂.bufPool frame).getRecord rid).toOption,
         { hf with curPageNo := rid.pageNo, curRec := rid, curDirtyFlag := false,
                   curPage := some frame }, w₂)

/-- **`readRecord` does one of the three things `ReadRecordOutcome` lists.** -/
theorem readRecord_cases (rid : RID) (hf : HeapFile) (w : World HeapPage) :
    ReadRecordOutcome rid hf w (hf.readRecord rid w) := by
  unfold readRecord
  cases released : unPinPage hf.filePtr hf.curPageNo hf.curDirtyFlag w with
  | mk status w₁ =>
  cases status
  case ok =>
    dsimp only
    cases loaded : readPage hf.filePtr rid.pageNo hf.curPage w₁ with
    | mk status' rest =>
    obtain ⟨page, w₂⟩ := rest
    cases status' <;> cases page
    case ok.some frame =>
      have outcome : ReadRecordOutcome rid hf w _ := .read released loaded
      dsimp only
      split <;> rename_i answer <;> simpa [answer] using outcome
    all_goals exact .unread released loaded fun _ same => by cases same
  all_goals exact .unreleased released (by decide)

/-- Without a cursor page, `getRecord` is its `else` branch. -/
theorem getRecord_of_none {hf : HeapFile} (uncursored : hf.curPage = none) (rid : RID) :
    hf.getRecord rid w = hf.readRecord rid w := by
  simp only [getRecord, uncursored]

/-- With a cursor page on another page than the record's, `getRecord` is its `else` branch. -/
theorem getRecord_of_moved {hf : HeapFile} {frame : Nat} (cursor : hf.curPage = some frame)
    {rid : RID} (moved : hf.curPageNo ≠ rid.pageNo) : hf.getRecord rid w = hf.readRecord rid w := by
  simp only [getRecord, cursor, if_neg moved]

/-- **A `readRecord` that returns `OK` moves the cursor to the record's page, in the frame it
read, taking one pin from `curPageNo` and giving one to the record's page**, whether or not the
object held a cursor page. -/
theorem readRecord_ok (agree : Agree w) (rid : RID) (hf : HeapFile)
    (read : (hf.readRecord rid w).1 = .ok) :
    (∃ frame, (hf.readRecord rid w).2.2.1 =
      { hf with curPageNo := rid.pageNo, curRec := rid, curDirtyFlag := false,
                curPage := some frame }) ∧
    ∀ key, pinsOf (hf.readRecord rid w).2.2.2 key =
      pinsOf w key - (if key = (hf.filePtr, hf.curPageNo) then 1 else 0) +
        (if key = (hf.filePtr, rid.pageNo) then 1 else 0) := by
  have outcome := readRecord_cases rid hf w
  generalize hf.readRecord rid w = result at outcome read ⊢
  cases outcome with
  | unreleased _ failed => exact absurd read failed
  | unread released loaded unfound =>
    have agree₁ : Agree _ := (released ▸ agree.unPinPage _ _ _ :)
    dsimp only at read
    obtain ⟨frame, handed⟩ := readPage_ok_frame agree₁ (by rw [loaded]; exact read)
    rw [loaded] at handed
    dsimp only at handed
    exact (unfound frame (by rw [read, handed])).elim
  | read released loaded =>
    have agree₁ : Agree _ := (released ▸ agree.unPinPage _ _ _ :)
    refine ⟨⟨_, rfl⟩, fun key => ?_⟩
    rw [pinsOf_readPage agree₁ loaded, pinsOf_unPinPage_ok agree released]
    simp

end HeapFile

/-- After `oneRecord`, a scan is opened, ended, and asked by `HeapFile::getRecord` for the record
on page `2`: the statuses, the record, and the pins of the object's header page before the open,
after it, and at the end, the object still open. -/
def endScanThenGet : List Status × Option Record × List Int :=
  let (db, _, _, w₀) := oneRecord
  let (opened, scan, w₁) := HeapFileScan.construct db "heap" w₀
  let header := (scan.filePtr, scan.headerPageNo)
  let (ended, scan, w₂) := scan.endScan w₁
  let (got, record, _, w₃) := HeapFile.getRecord ⟨2, 0⟩ scan.toHeapFile w₂
  ([opened, ended, got], record, [pinsOf w₀ header, pinsOf w₁ header, pinsOf w₃ header])

/-- **After `endScan`, `getRecord` takes a pin from page `0` of the file**: `endScan` leaves no
cursor page and `curPageNo = 0`, and `getRecord` of a record off page `0` releases `curPageNo`
all the same. On `endScanThenGet`, where the header is page `0`, every call returns `OK` and the
record comes back, but the object's pin on its header page is gone while the object is open. -/
theorem endScanThenGet_unpinsHeader :
    (∀ (w : World HeapPage) (scan : HeapFileScan) (frame : Nat) (rid : RID), Agree w →
      scan.curPage = some frame → rid.pageNo ≠ 0 →
      (HeapFile.getRecord rid (scan.endScan w).2.1.toHeapFile (scan.endScan w).2.2).1 = .ok →
      pinsOf (HeapFile.getRecord rid (scan.endScan w).2.1.toHeapFile (scan.endScan w).2.2).2.2.2
          (scan.filePtr, 0) = pinsOf (scan.endScan w).2.2 (scan.filePtr, 0) - 1) ∧
    endScanThenGet = ([.ok, .ok, .ok], some (record4 1), [0, 1, 0]) := by
  refine ⟨fun w scan frame rid agree cursor other got => ?_, rfl⟩
  have ended : scan.endScan w = ((unPinPage scan.filePtr scan.curPageNo scan.curDirtyFlag w).1,
      { scan with curPage := none, curPageNo := 0, curDirtyFlag := false },
      (unPinPage scan.filePtr scan.curPageNo scan.curDirtyFlag w).2) := by
    simp only [HeapFileScan.endScan, cursor]
  rw [ended, HeapFile.getRecord_of_none rfl] at got ⊢
  rw [(HeapFile.readRecord_ok (agree.unPinPage _ _ _) _ _ got).2]
  simp [other, Ne.symm other]

/-- Two records on pages `2` and `10` of a new file, the file flushed, and a store that fails
call `18`, the read of page `10` by the `getRecord` of a `HeapFile` object that has page `2` as its
cursor. The statuses of the open and of two `getRecord`s of the record on page `10`; after the
first, the cursor's frame and page number, the page that frame holds and its pins; the record the
second returns. -/
def failedRead : List Status × Option Nat × Int × (Option FileId × Int) × Int × Option Record :=
  let (_, db, w) := created fun n => n == 18
  let (_, _, w) := insertSession onePerPage db "heap" [record4 1, record4 2] w
  let (_, w) := flushFile (some 0) w
  let (opened, hf, w) := HeapFile.construct db "heap" w
  let (failed, _, hf, w) := hf.getRecord ⟨10, 0⟩ w
  let (again, record, _, _) := hf.getRecord ⟨10, 0⟩ w
  ([opened, failed, again], hf.curPage, hf.curPageNo, (w.bufTable 2).key, pinsOf w (some 0, 2),
    record)

/-- **A read that fails after the release keeps the page pointer**: `getRecord` of a record off
the cursor page, whose release returns `OK` and whose `readPage` fails before it hands back a
frame, returns that failure with `curPage` still on the old frame and `curPageNo` on the
record's page, while the object holds one pin fewer on its old page. On `failedRead` the read
fails with `UNIXERR`, and the object keeps `curPage` on frame `2`, which holds page `2`, now
unpinned, while `curPageNo` is `10`; the next `getRecord` of the record on page `10` takes the
fast path and returns the record of page `2`. -/
theorem failedRead_staleCursor :
    (∀ (w : World HeapPage) (hf : HeapFile) (frame : Nat) (rid : RID) (w₁ : World HeapPage),
      Agree w → hf.curPage = some frame → hf.curPageNo ≠ rid.pageNo →
      unPinPage hf.filePtr hf.curPageNo hf.curDirtyFlag w = (.ok, w₁) →
      (readPage hf.filePtr rid.pageNo hf.curPage w₁).1 ≠ .ok →
      (readPage hf.filePtr rid.pageNo hf.curPage w₁).1 ≠ .hashTblError →
      (hf.getRecord rid w).1 = (readPage hf.filePtr rid.pageNo hf.curPage w₁).1 ∧
        (hf.getRecord rid w).2.2.1.curPage = some frame ∧
        (hf.getRecord rid w).2.2.1.curPageNo = rid.pageNo ∧
        pinsOf (hf.getRecord rid w).2.2.2 (hf.filePtr, hf.curPageNo) =
          pinsOf w (hf.filePtr, hf.curPageNo) - 1) ∧
    failedRead = ([.ok, .unixErr, .ok], some 2, 10, (some 0, 2), 0, some (record4 1)) := by
  refine ⟨fun w hf frame rid w₁ agree cursor moved released failed indexed => ?_, rfl⟩
  have kept := readPage_failed_page failed indexed
  rw [HeapFile.getRecord_of_moved cursor moved]
  have outcome := HeapFile.readRecord_cases rid hf w
  generalize hf.readRecord rid w = result at outcome ⊢
  cases outcome with
  | unreleased unreleased refused =>
    rw [released] at unreleased
    cases unreleased
    exact absurd rfl refused
  | unread released' loaded _ =>
    rw [released] at released'
    cases released'
    rw [loaded] at failed kept
    have agree₁ : Agree _ := (released ▸ agree.unPinPage _ _ _ :)
    refine ⟨by rw [loaded], kept.trans cursor, rfl, ?_⟩
    rw [pinsOf_readPage agree₁ loaded, pinsOf_unPinPage_ok agree released]
    simp [failed]
  | read released' loaded =>
    rw [released] at released'
    cases released'
    rw [loaded] at failed
    exact absurd rfl failed

end Minirel
