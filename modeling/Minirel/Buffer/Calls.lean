/-
**What each call of the buffer manager can do.**

One inversion lemma per member function, from a world where frames and index agree; every later
invariant is a case analysis on these and never unfolds a call again.

* `allocBuf_cases`: `allocBuf` hands out a frame that was unpinned (`Handed`), or fails with a
  status other than `OK`, changing no frame's page, pins or dirty bit, nor the index, the pool or
  the disk; `allocBuf_calls`: the only store calls it makes are write-backs.
* `readPage_cases` (`ReadOutcome`): a hit pins the resident page; a miss fails in `allocBuf`,
  fails the read (and disposes of the page), reads the page into a frame it then fails to index,
  or reads, indexes and `Set`s it.
* `readPage_status`, `unPinPage_status`: the statuses each can return; `unPinPage_failed`: an
  `unPinPage` that fails changes nothing.
* `allocPage_cases` (`AllocOutcome`): the store refuses a page, `allocBuf` fails, the index
  refuses the key, or the new page is indexed and `Set` in a free frame.
* `disposePage_eq`: clear and unindex the page if resident, then call the store.
* `flushFileFrom_cons`: one turn of `flushFile`'s loop.
-/

import Minirel.Buffer.SecondChance

set_option linter.unusedSectionVars false

namespace Minirel

namespace BufMgr

variable {Page : Type} [Inhabited Page]

open World

/-! ### `allocBuf` -/

section AllocBuf

variable {w : World Page}

/-- **What one call of `allocBuf` does**: it hands out a frame that was unpinned, as `Handed`
says; or it fails with a status other than `OK`, moving only the hand and reference bits and
perhaps logging a failed write-back. -/
theorem allocBuf_cases (agree : Agree w) :
    (∃ j, (allocBuf w).1 = .ok j ∧ j < w.numBufs ∧ Handed w j (allocBuf w).2 ∧
        (w.bufTable j).pinCnt = 0) ∨
      ((∃ status, status ≠ .ok ∧ (allocBuf w).1 = .error status) ∧
        (∀ i, ((allocBuf w).2.bufTable i).core = (w.bufTable i).core) ∧
        (allocBuf w).2.hashTable = w.hashTable ∧ (allocBuf w).2.bufPool = w.bufPool ∧
        (allocBuf w).2.disk = w.disk) := by
  rcases Nat.eq_zero_or_pos w.numBufs with empty | pos
  · rw [allocBuf, empty, allocBufLoop_exceeded empty]
    exact .inr ⟨⟨_, by decide, rfl⟩, fun _ => rfl, rfl, rfl, rfl⟩
  obtain ⟨k, exceeded | returns⟩ := allocBufLoop_cases (2 * w.numBufs + 1) 0 w
  · rw [allocBuf, exceeded]
    exact .inr ⟨⟨_, by decide, rfl⟩, sweep_core k w, sweep_hashTable k w, sweep_bufPool k w,
      sweep_disk k w⟩
  have swept := agree.sweep k
  unfold allocBuf
  generalize allocBufLoop (2 * w.numBufs + 1) 0 w = result at returns ⊢
  have handed : ∀ j w', result = (.ok j, w') →
      j < w.numBufs ∧ Handed w j w' ∧ (w.bufTable j).pinCnt = 0 := by
    rintro j w' rfl
    obtain ⟨rfl, handed, _, unpinned⟩ := returns_handed swept (by simpa using pos) returns
    exact ⟨by simpa using frameAt_lt (w := sweepPass^[k] w) (by simpa using pos) 1, handed.of_sweep,
      (BufDesc.core_eq_iff.mp (sweep_core k w _)).2.2.2.1 ▸ unpinned⟩
  cases returns with
  | free => exact .inl ⟨_, rfl, handed _ _ rfl⟩
  | victim valid _ _ =>
    -- Only the victim branch fails, and only in its write-back: the victim is indexed.
    have replaced := replaceFrame_cases (advanceClock (sweepPass^[k] w))
    generalize replaceFrame (advanceClock (sweepPass^[k] w)) = result at replaced handed ⊢
    rcases replaced with _ | ⟨_, absent⟩ | _
    · exact .inr ⟨⟨_, by decide, rfl⟩, sweep_core k w, sweep_hashTable k w, sweep_bufPool k w,
        sweep_disk k w⟩
    · have found := swept.advanceClock.indexed _
        (by simpa using frameAt_lt (w := sweepPass^[k] w) (by simpa using pos) 1)
        (by simpa using valid)
      rw [advanceClock_clockHand_frameAt] at absent
      rw [absent] at found
      cases found
    · exact .inl ⟨_, rfl, handed _ _ rfl⟩

/-- The only store calls `allocBuf` makes are write-backs. -/
theorem allocBuf_calls (w : World Page) :
    (allocBuf w).2.calls = w.calls ∨
      ∃ file pageNo, (allocBuf w).2.calls = .writePage file pageNo :: w.calls := by
  obtain ⟨k, exceeded | returns⟩ := allocBufLoop_cases (2 * w.numBufs + 1) 0 w
  · rw [allocBuf, exceeded]
    exact .inl (sweep_calls k w)
  unfold allocBuf
  generalize allocBufLoop (2 * w.numBufs + 1) 0 w = result at returns ⊢
  cases returns with
  | free => exact .inl (sweep_calls k w)
  | victim =>
    have replaced := replaceFrame_cases (advanceClock (sweepPass^[k] w))
    generalize replaceFrame (advanceClock (sweepPass^[k] w)) = result at replaced ⊢
    rcases replaced with _ | ⟨back, _⟩ | ⟨back, _⟩
    · exact .inr ⟨_, _, congrArg _ (sweep_calls k w)⟩
    all_goals
      cases back with
      | clean => exact .inl (sweep_calls k w)
      | written => exact .inr ⟨_, _, congrArg _ (sweep_calls k w)⟩

/-- The statuses `allocBuf` fails with: no frame, a failed write-back, or a victim missing from the
index. -/
theorem allocBuf_status (w : World Page) {status : Status} {w' : World Page}
    (failed : allocBuf w = (.error status, w')) :
    status = .bufferExceeded ∨ status = .unixErr ∨ status = .hashNotFound := by
  obtain ⟨k, exceeded | returns⟩ := allocBufLoop_cases (2 * w.numBufs + 1) 0 w
  · rw [allocBuf, exceeded] at failed
    cases failed
    exact .inl rfl
  unfold allocBuf at failed
  generalize allocBufLoop (2 * w.numBufs + 1) 0 w = result at returns failed
  cases returns with
  | free => cases failed
  | victim =>
    have replaced := replaceFrame_cases (advanceClock (sweepPass^[k] w))
    generalize replaceFrame (advanceClock (sweepPass^[k] w)) = result at replaced failed
    cases replaced <;> cases failed
    · exact .inr (.inl rfl)
    · exact .inr (.inr rfl)

theorem allocBuf_failed (agree : Agree w) {status : Status} {w' : World Page}
    (allocated : allocBuf w = (.error status, w')) :
    status ≠ .ok ∧ (∀ i, (w'.bufTable i).core = (w.bufTable i).core) ∧
      w'.hashTable = w.hashTable ∧ w'.bufPool = w.bufPool ∧ w'.disk = w.disk := by
  rcases allocBuf_cases agree with ⟨j, handed, -⟩ | ⟨⟨status', failed, refused⟩, unmoved⟩
  · rw [allocated] at handed
    cases handed
  · rw [allocated] at refused unmoved
    cases refused
    exact ⟨failed, unmoved⟩

theorem allocBuf_handed (agree : Agree w) {j : Nat} {w' : World Page}
    (allocated : allocBuf w = (.ok j, w')) :
    j < w.numBufs ∧ Handed w j w' ∧ (w.bufTable j).pinCnt = 0 := by
  rcases allocBuf_cases agree with ⟨j', handed, rest⟩ | ⟨⟨_, _, refused⟩, _⟩
  · rw [allocated] at handed rest
    cases handed
    exact rest
  · rw [allocated] at refused
    cases refused

/-! ### What handing out a frame leaves -/

section Handed

variable {w w' : World Page} {j : Nat} (handed : Handed w j w')
include handed

theorem Handed.free : (w'.bufTable j).valid = false := by
  rw [handed.cleared]
  rfl

theorem Handed.pinCnt (unpinned : (w.bufTable j).pinCnt = 0) (i : Nat) :
    (w'.bufTable i).pinCnt = (w.bufTable i).pinCnt := by
  by_cases here : i = j
  · rw [here, handed.cleared, unpinned]
    rfl
  · exact (BufDesc.core_eq_iff.mp (handed.others i here)).2.2.2.1

/-- Handing out a frame unindexes at most its page: no page moves and none enters. -/
theorem Handed.frameOf {key : Option FileId × Int} {i : Nat}
    (found : w'.hashTable.frameOf key = some i) : w.hashTable.frameOf key = some i := by
  rw [handed.hashTable] at found
  split_ifs at found
  · rw [BufHashTbl.erase_frameOf] at found
    split_ifs at found
    exact found
  · exact found

/-- Handing out a frame leaves every pinned page where it was. -/
theorem Handed.kept (agree : Agree w) (bound : j < w.numBufs) (unpinned : (w.bufTable j).pinCnt = 0)
    {key : Option FileId × Int} {i : Nat} (found : w.hashTable.frameOf key = some i)
    (pinned : 0 < (w.bufTable i).pinCnt) : w'.hashTable.frameOf key = some i := by
  rw [handed.hashTable]
  split_ifs with valid
  · rw [BufHashTbl.erase_frameOf, if_neg fun same => ?_]
    · exact found
    have indexed := agree.indexed j bound valid
    rw [← same, found] at indexed
    cases indexed
    omega
  · exact found

theorem Handed.absent {key : Option FileId × Int} (absent : w.hashTable.frameOf key = none) :
    w'.hashTable.frameOf key = none := by
  cases found : w'.hashTable.frameOf key with
  | none => rfl
  | some i => rw [handed.frameOf found] at absent; cases absent

end Handed

end AllocBuf

/-! ### `readPage` -/

/-- What `readPage(file, pageNo)` can do from `w`: pin the resident page; fail to get a frame;
get frame `j` and fail the read, disposing of the page; get frame `j`, read the page into it and
fail to index it; or get frame `j`, read the page into it, index it and `Set` the descriptor. -/
inductive ReadOutcome (file : Option FileId) (pageNo : Int) (page : Option Nat) (w : World Page) :
    Status × Option Nat × World Page → Prop
  | hit {i : Nat} : w.hashTable.frameOf (file, pageNo) = some i →
      ReadOutcome file pageNo page w (.ok, some i,
        w.setDesc i { w.bufTable i with refbit := true, pinCnt := (w.bufTable i).pinCnt + 1 })
  | noFrame {status : Status} {w' : World Page} : w.hashTable.frameOf (file, pageNo) = none →
      allocBuf w = (.error status, w') → ReadOutcome file pageNo page w (status, page, w')
  | readFailed {j : Nat} {w' : World Page} : w.hashTable.frameOf (file, pageNo) = none →
      allocBuf w = (.ok j, w') →
      ReadOutcome file pageNo page w
        (.unixErr, page, (disposePage file pageNo (w'.record (.readPage file pageNo))).2)
  | unindexed {j : Nat} {w' : World Page} {bytes : Page} :
      w.hashTable.frameOf (file, pageNo) = none → allocBuf w = (.ok j, w') →
      w'.disk.read file pageNo = some bytes →
      ReadOutcome file pageNo page w (.hashTblError, some j,
        ((w'.record (.readPage file pageNo)).setPage j bytes).record .newBucket)
  | loaded {j : Nat} {w' : World Page} {bytes : Page} :
      w.hashTable.frameOf (file, pageNo) = none → allocBuf w = (.ok j, w') →
      w'.disk.read file pageNo = some bytes → w'.hashTable.frameOf (file, pageNo) = none →
      ReadOutcome file pageNo page w (.ok, some j,
        { (((w'.record (.readPage file pageNo)).setPage j bytes).record .newBucket).setDesc j
            { (w'.bufTable j).set file pageNo with frameNo := j } with
          hashTable := ⟨Function.update w'.hashTable.frameOf (file, pageNo) (some j)⟩ })

/-- **`readPage` does one of the five things `ReadOutcome` lists.** -/
theorem readPage_cases (file : Option FileId) (pageNo : Int) (page : Option Nat)
    (w : World Page) : ReadOutcome file pageNo page w (readPage file pageNo page w) := by
  unfold readPage
  cases found : w.hashTable.frameOf (file, pageNo) with
  | some i =>
    simp only [BufHashTbl.lookup_eq, found]
    exact .hit found
  | none =>
    simp only [BufHashTbl.lookup_eq, found]
    cases allocated : allocBuf w with
    | mk result w' =>
    cases result with
    | error status => exact .noFrame found allocated
    | ok j =>
    rcases File.readPage_cases file pageNo w' with failed | ⟨bytes, stored, read⟩
    · simp only [failed]
      exact .readFailed found allocated
    simp only [read, newBucket]
    split
    · rename_i status refused
      rw [BufHashTbl.insert_eq_error refused]
      exact .unindexed found allocated stored
    · rename_i table inserted
      obtain ⟨absent, rfl⟩ := BufHashTbl.insert_eq_ok inserted
      exact .loaded found allocated stored absent

/-- The page pointer passed to `readPage` is only handed back when the call assigns none. -/
theorem readPage_page (file : Option FileId) (pageNo : Int) (page : Option Nat) (w : World Page) :
    readPage file pageNo page w =
      ((readPage file pageNo none w).1, (readPage file pageNo none w).2.1.or page,
        (readPage file pageNo none w).2.2) := by
  unfold readPage
  repeat' (first | dsimp only | split)
  all_goals rfl

/-- A `readPage` that fails other than in the index leaves the page pointer unassigned. -/
theorem readPage_failed_page {file : Option FileId} {pageNo : Int} {page : Option Nat}
    {w : World Page} (failed : (readPage file pageNo page w).1 ≠ .ok)
    (indexed : (readPage file pageNo page w).1 ≠ .hashTblError) :
    (readPage file pageNo page w).2.1 = page := by
  have outcome := readPage_cases file pageNo page w
  generalize readPage file pageNo page w = result at outcome failed indexed ⊢
  cases outcome with
  | hit | loaded => exact absurd rfl failed
  | unindexed => exact absurd rfl indexed
  | noFrame | readFailed => rfl

/-- The statuses `readPage` returns. -/
theorem readPage_status (file : Option FileId) (pageNo : Int) (page : Option Nat) (w : World Page) :
    (readPage file pageNo page w).1 ∈
      [.ok, .bufferExceeded, .unixErr, .hashNotFound, .hashTblError] := by
  have outcome := readPage_cases file pageNo page w
  generalize readPage file pageNo page w = result at outcome ⊢
  cases outcome with
  | noFrame _ allocated => rcases allocBuf_status w allocated with rfl | rfl | rfl <;> simp
  | _ => simp

/-- A `readPage` that returns `OK` hands back a frame. -/
theorem readPage_ok_frame {file : Option FileId} {pageNo : Int} {page : Option Nat}
    {w : World Page} (agree : Agree w) (read : (readPage file pageNo page w).1 = .ok) :
    ∃ frame, (readPage file pageNo page w).2.1 = some frame := by
  have outcome := readPage_cases file pageNo page w
  generalize readPage file pageNo page w = result at outcome read ⊢
  cases outcome with
  | hit | loaded => exact ⟨_, rfl⟩
  | noFrame _ allocated => exact absurd read (allocBuf_failed agree allocated).1
  | readFailed | unindexed => cases read

/-- A `readPage` that hands out no frame reports neither `OK` nor `FILEEOF`. -/
theorem readPage_unreported {file : Option FileId} {pageNo : Int} {page page' : Option Nat}
    {status : Status} {w w' : World Page} (agree : Agree w)
    (read : readPage file pageNo page w = (status, page', w'))
    (unfound : ∀ frame, (status, page') ≠ (.ok, some frame)) : status ≠ .ok ∧ status ≠ .fileEOF := by
  constructor
  · rintro rfl
    obtain ⟨frame, handed⟩ := readPage_ok_frame agree (by rw [read])
    rw [read] at handed
    exact unfound frame (congrArg (Prod.mk Status.ok) handed)
  · have listed := readPage_status file pageNo page w
    rw [read] at listed
    rintro rfl
    simp at listed

/-! ### `unPinPage` -/

/-- The statuses `unPinPage` returns. -/
theorem unPinPage_status (file : Option FileId) (pageNo : Int) (dirty : Bool) (w : World Page) :
    (unPinPage file pageNo dirty w).1 ∈ [.ok, .hashNotFound, .pageNotPinned] := by
  unfold unPinPage
  split
  · simp
  · dsimp only
    split <;> simp

/-- `unPinPage` writes no page of the pool. -/
@[simp] theorem unPinPage_bufPool (file : Option FileId) (pageNo : Int) (dirty : Bool)
    (w : World Page) : (unPinPage file pageNo dirty w).2.bufPool = w.bufPool := by
  unfold unPinPage
  split
  · rfl
  · dsimp only
    split <;> rfl

/-- An `unPinPage` that fails changes nothing. -/
theorem unPinPage_failed {file : Option FileId} {pageNo : Int} {dirty : Bool} {status : Status}
    {w w' : World Page} (released : unPinPage file pageNo dirty w = (status, w'))
    (failed : status ≠ .ok) : w' = w := by
  unfold unPinPage at released
  split at released
  · cases released; rfl
  · dsimp only at released
    split at released
    · cases released; rfl
    · cases released; exact absurd rfl failed

/-! ### `allocPage` -/

/-- What `allocPage(file)` can do from `w`: the store refuses a page; the store gives page
`pageNum` and `allocBuf` fails; it gets frame `j` and the index refuses the key; or the page is
indexed and `Set` in frame `j`. -/
inductive AllocOutcome (file : Option FileId) (w : World Page) :
    Except Status (Int × Nat) × World Page → Prop
  | noPage : AllocOutcome file w (.error .unixErr, w.record (.allocatePage file))
  | noFrame {pageNum : Int} {status : Status} {w₁ w₂ : World Page} :
      File.allocatePage file w = (.ok pageNum, w₁) → allocBuf w₁ = (.error status, w₂) →
      AllocOutcome file w (.error status, w₂)
  | unindexed {pageNum : Int} {j : Nat} {w₁ w₂ : World Page} :
      File.allocatePage file w = (.ok pageNum, w₁) → allocBuf w₁ = (.ok j, w₂) →
      AllocOutcome file w (.error .hashTblError, w₂.record .newBucket)
  | allocated {pageNum : Int} {j : Nat} {w₁ w₂ : World Page} :
      File.allocatePage file w = (.ok pageNum, w₁) → allocBuf w₁ = (.ok j, w₂) →
      w₂.hashTable.frameOf (file, pageNum) = none →
      AllocOutcome file w (.ok (pageNum, j),
        { (w₂.record .newBucket).setDesc j ((w₂.bufTable j).set file pageNum) with
          hashTable := ⟨Function.update w₂.hashTable.frameOf (file, pageNum) (some j)⟩ })

/-- **`allocPage` does one of the four things `AllocOutcome` lists.** -/
theorem allocPage_cases (file : Option FileId) (w : World Page) :
    AllocOutcome file w (allocPage file w) := by
  unfold allocPage
  rcases File.allocatePage_cases file w with refused | ⟨_, _, _, _, _, offered⟩
  · rw [refused]
    exact .noPage
  rw [offered]
  dsimp only
  cases allocated : allocBuf { w.record (.allocatePage file) with disk := _ } with
  | mk result w₂ =>
  cases result with
  | error status => exact .noFrame offered allocated
  | ok j =>
  simp only [newBucket]
  split
  · rename_i status refused
    rw [BufHashTbl.insert_eq_error refused]
    exact .unindexed offered allocated
  · rename_i table inserted
    obtain ⟨absent, rfl⟩ := BufHashTbl.insert_eq_ok inserted
    exact .allocated offered allocated absent

/-! ### `disposePage` and `flushFile` -/

/-- `disposePage(file, pageNo)` clears and unindexes the page's frame if the page is resident,
then asks the store to dispose of the page. -/
theorem disposePage_eq (file : Option FileId) (pageNo : Int) (w : World Page) :
    (∃ i, w.hashTable.frameOf (file, pageNo) = some i ∧
        disposePage file pageNo w = File.disposePage file pageNo
          { w.setDesc i (w.bufTable i).clear with hashTable := w.hashTable.erase (file, pageNo) }) ∨
      (w.hashTable.frameOf (file, pageNo) = none ∧
        disposePage file pageNo w = File.disposePage file pageNo w) := by
  unfold disposePage
  cases found : w.hashTable.frameOf (file, pageNo) with
  | some i =>
    refine .inl ⟨i, rfl, ?_⟩
    simp only [BufHashTbl.lookup_eq, found, setDesc_hashTable,
      BufHashTbl.remove_of_isSome (show (w.hashTable.frameOf (file, pageNo)).isSome by simp [found])]
  | none =>
    refine .inr ⟨rfl, ?_⟩
    simp only [BufHashTbl.lookup_eq, found, BufHashTbl.remove, Option.isSome_none]
    rfl

/-- The store's allocation touches no frame and no index entry. -/
theorem File.allocatePage_frames {file : Option FileId} {w w' : World Page}
    {result : Except Status Int} (offered : File.allocatePage file w = (result, w')) :
    w'.bufTable = w.bufTable ∧ w'.hashTable = w.hashTable ∧ w'.bufPool = w.bufPool := by
  rcases File.allocatePage_cases file w with refused | ⟨_, _, _, _, _, given⟩
  · rw [refused] at offered
    cases offered
    exact ⟨rfl, rfl, rfl⟩
  · rw [given] at offered
    cases offered
    exact ⟨rfl, rfl, rfl⟩

/-- The store's disposal touches no frame and no index entry. -/
theorem File.disposePage_frames (file : Option FileId) (pageNo : Int) (w : World Page) :
    (File.disposePage file pageNo w).2.bufTable = w.bufTable ∧
      (File.disposePage file pageNo w).2.hashTable = w.hashTable ∧
      (File.disposePage file pageNo w).2.bufPool = w.bufPool := by
  rcases File.disposePage_cases file pageNo w with failed | ⟨_, _, disposed⟩
  · rw [failed]
    exact ⟨rfl, rfl, rfl⟩
  · rw [disposed]
    exact ⟨rfl, rfl, rfl⟩

/-- Disposing of a page that is not resident touches no frame and no index entry. -/
theorem disposePage_absent {file : Option FileId} {pageNo : Int} {w : World Page}
    (absent : w.hashTable.frameOf (file, pageNo) = none) :
    (disposePage file pageNo w).2.bufTable = w.bufTable ∧
      (disposePage file pageNo w).2.hashTable = w.hashTable ∧
      (disposePage file pageNo w).2.bufPool = w.bufPool := by
  rcases disposePage_eq file pageNo w with ⟨i, found, _⟩ | ⟨_, disposed⟩
  · rw [absent] at found
    cases found
  · rw [disposed]
    exact File.disposePage_frames file pageNo w

/-- What one turn of `flushFile`'s loop does with frame `i`: a pinned frame of the file stops the
loop with `PAGEPINNED`; an unpinned one is written back if dirty (a failed write stops the loop
with `UNIXERR`), unindexed and invalidated; an invalid frame naming the file stops the loop with
`BADBUFFER`; any other frame is passed over. -/
inductive FlushTurn (file : Option FileId) (i : Nat) (rest : List Nat) (w : World Page) :
    Status × World Page → Prop
  | pinned : (w.bufTable i).valid = true → (w.bufTable i).file = file →
      0 < (w.bufTable i).pinCnt → FlushTurn file i rest w (.pagePinned, w)
  | writeFailed : (w.bufTable i).valid = true → (w.bufTable i).file = file →
      ¬ 0 < (w.bufTable i).pinCnt → (w.bufTable i).dirty = true →
      FlushTurn file i rest w
        (.unixErr, w.record (.writePage (w.bufTable i).file (w.bufTable i).pageNo))
  | flushed {w' : World Page} : (w.bufTable i).valid = true → (w.bufTable i).file = file →
      ¬ 0 < (w.bufTable i).pinCnt → WroteBack w i w' →
      FlushTurn file i rest w (flushFileFrom file rest
        { w'.setDesc i { w.bufTable i with dirty := false, file := none, pageNo := -1,
                                           valid := false } with
          hashTable := w.hashTable.erase (w.bufTable i).key })
  | stale : (w.bufTable i).valid = false → (w.bufTable i).file = file →
      FlushTurn file i rest w (.badBuffer, w)
  | passed : ¬ ((w.bufTable i).valid = true ∧ (w.bufTable i).file = file) →
      ¬ ((w.bufTable i).valid = false ∧ (w.bufTable i).file = file) →
      FlushTurn file i rest w (flushFileFrom file rest w)

/-- A flushed frame leaves frames and index in agreement. -/
theorem Agree.flushed {w w' : World Page} (agree : Agree w) {i : Nat} (here : i < w.numBufs)
    (valid : (w.bufTable i).valid = true) (unpinned : ¬ 0 < (w.bufTable i).pinCnt)
    (back : WroteBack w i w') :
    Agree { w'.setDesc i { w.bufTable i with dirty := false, file := none, pageNo := -1,
                                             valid := false } with
      hashTable := w.hashTable.erase (w.bufTable i).key } := by
  obtain ⟨_, _, index, _, _⟩ := wroteBack_bufTable back
  have found : w'.hashTable.frameOf (w.bufTable i).key = some i :=
    index ▸ agree.indexed i here valid
  have pins := agree.pinCnt i
  rw [← index]
  exact (agree.wroteBack back).evict found rfl (by simp only; omega) rfl rfl (agree.frameNo i)

/-- **One turn of `flushFile`'s loop does one of the five things `FlushTurn` lists.** -/
theorem flushFileFrom_cons (file : Option FileId) (i : Nat) (rest : List Nat) (w : World Page) :
    FlushTurn file i rest w (flushFileFrom file (i :: rest) w) := by
  rw [flushFileFrom]
  split
  · rename_i matching
    split
    · exact .pinned matching.1 matching.2 ‹_›
    · rename_i unpinned
      rcases writeBack_cases w i with ⟨failed, dirty⟩ | ⟨w', back, written⟩
      · rw [failed]
        exact .writeFailed matching.1 matching.2 unpinned dirty
      obtain ⟨table, _, index, _, _⟩ := wroteBack_bufTable back
      have flushed : FlushTurn file i rest w _ := .flushed matching.1 matching.2 unpinned back
      have key : (w.bufTable i).key = (file, (w.bufTable i).pageNo) := by
        simp [BufDesc.key, matching.2]
      rw [key, ← index] at flushed
      rw [written]
      dsimp only
      rw [if_neg (not_not.mpr rfl)]
      split
      · rename_i removed
        rwa [setDesc_withIndex, (BufHashTbl.remove_eq_ok removed).2]
      · rename_i missing
        rwa [BufHashTbl.erase_of_absent (BufHashTbl.remove_eq_error missing).2] at flushed
  · split
    · rename_i stale
      exact .stale stale.1 stale.2
    · exact .passed ‹_› ‹_›

end BufMgr

end Minirel
