/-
**When the buffer manager's calls succeed.**

A call of the buffer manager fails when the store fails one of its calls, or when `allocBuf` finds
no frame. `freeFrames` counts the frames that hold no page.

* `freeFrames_readPage` — **a `readPage` that returns `OK` takes at most one free frame**, and
  `unPinPage` takes none (`freeFrames_unPinPage`).
* `allocBuf_ok_of_free` — **with a free frame, and a store that fails no call, `allocBuf` hands
  out a frame**: the first sweep of the clock stops at the first frame that is free, or unpinned
  and unreferenced, before its count of pinned frames reaches `numBufs`; writing back a dirty
  victim succeeds, as every resident page is allocated in the store (`replaceFrame_ok`).
* `readPage_ok_of_room` — **`readPage` of a page the store holds returns `OK`** when the page is
  resident or a frame is free, in a `Sound` world: the store fails no call, and every page a frame
  holds is allocated in it, which the calls keep (`Sound.readPage`, `Sound.unPinPage`).
-/

import Minirel.Buffer.Stable

set_option linter.unusedSectionVars false

namespace Minirel

namespace BufMgr

variable {Page : Type} [Inhabited Page]

open World

/-! ### Free frames -/

/-- The frames that hold no page. -/
def freeFrames (w : World Page) : Nat :=
  (List.range w.numBufs).countP fun i => !(w.bufTable i).valid

/-- Frames that keep their validity keep the count. -/
theorem freeFrames_congr {w w' : World Page} (bufs : w'.numBufs = w.numBufs)
    (valid : ∀ i, (w'.bufTable i).valid = (w.bufTable i).valid) : freeFrames w' = freeFrames w := by
  simp only [freeFrames, bufs, valid]

/-- Frames that keep their validity but `j` lose at most one free frame. -/
theorem freeFrames_le_of_others {w w' : World Page} (bufs : w'.numBufs = w.numBufs) (j : Nat)
    (others : ∀ i, i ≠ j → (w'.bufTable i).valid = (w.bufTable i).valid) :
    freeFrames w ≤ freeFrames w' + 1 := by
  unfold freeFrames
  rw [bufs]
  induction w.numBufs with
  | zero => simp
  | succ n ih =>
    simp only [List.range_succ, List.countP_append, List.countP_singleton]
    by_cases here : n = j
    · have below : (List.range n).countP (fun i => !(w.bufTable i).valid) =
          (List.range n).countP (fun i => !(w'.bufTable i).valid) :=
        List.countP_congr fun i mem => by
          rw [others i (by have := List.mem_range.mp mem; omega)]
      rw [below]
      split <;> split <;> omega
    · rw [others n here]
      omega

/-- `unPinPage` changes no frame's validity. -/
theorem freeFrames_unPinPage (file : Option FileId) (pageNo : Int) (dirty : Bool) (w : World Page) :
    freeFrames (unPinPage file pageNo dirty w).2 = freeFrames w := by
  unfold unPinPage
  repeat' (first | dsimp only | split)
  all_goals first
    | rfl
    | exact freeFrames_congr rfl fun i => by rw [setDesc_bufTable_apply]; split <;> simp_all

/-- **A `readPage` that returns `OK` takes at most one free frame**: the frame `allocBuf` hands out
on a miss, and none on a hit. -/
theorem freeFrames_readPage {w w' : World Page} (agree : Agree w) {file : Option FileId}
    {pageNo : Int} {page : Option Nat} {frame : Nat}
    (read : readPage file pageNo page w = (.ok, some frame, w')) :
    freeFrames w ≤ freeFrames w' + 1 := by
  have outcome := readPage_cases file pageNo page w
  rw [read] at outcome
  generalize ok : Status.ok = status at outcome
  generalize handed : some frame = result at outcome
  cases outcome with
  | hit =>
    refine freeFrames_le_of_others rfl frame fun i _ => ?_
    rw [setDesc_bufTable_apply]
    split <;> simp_all
  | noFrame _ allocated => exact absurd ok.symm (allocBuf_failed agree allocated).1
  | readFailed => cases ok
  | unindexed => cases ok
  | @loaded j w₁ _ _ allocated =>
    have others := (allocBuf_handed agree allocated).2.1.others
    have bufs : w₁.numBufs = w.numBufs := by
      have := agree.allocBuf.2.1
      rwa [allocated] at this
    refine freeFrames_le_of_others (by simpa using bufs) j fun i other => ?_
    simp only [setDesc_bufTable_apply, if_neg other, setPage_bufTable, record_bufTable]
    exact (BufDesc.core_eq_iff.mp (others i other)).2.2.2.2.2

/-! ### Frames the store backs -/

/-- With frames and index in agreement, a valid frame holds a page the store has allocated when
every resident page is. -/
theorem frames_stored {w : World Page} (agree : Agree w)
    (backed : ∀ key, Cell.Backed (cellOf w key)) {i : Nat} (bound : i < w.numBufs)
    (valid : (w.bufTable i).valid = true) :
    (w.disk.read (w.bufTable i).file (w.bufTable i).pageNo).isSome :=
  backed (w.bufTable i).key (by simp [cellOf, agree.indexed i bound valid])

/-- The store fails no call, and every page a frame holds is allocated in the store. -/
structure Sound (w : World Page) : Prop where
  quiet : ∀ n, w.fault n = false
  backed : ∀ key, Cell.Backed (cellOf w key)

/-- `unPinPage` keeps a world sound. -/
theorem Sound.unPinPage {w w' : World Page} (agree : Agree w) (sound : Sound w)
    {file : Option FileId} {pageNo : Int} {dirty : Bool} {status : Status}
    (released : BufMgr.unPinPage file pageNo dirty w = (status, w')) : Sound w' := by
  have kept := unPinPage_schedule file pageNo dirty w
  rw [released] at kept
  refine ⟨fun n => (congrFun (congrArg Prod.fst kept) n).trans (sound.quiet n), fun key => ?_⟩
  have step : Relation.ReflGen (Cell.Step False) _ _ := cellOf_unPinPage agree file pageNo dirty key
  rw [released] at step
  exact (sound.backed key).reflGen step

/-- `readPage` keeps a world sound. -/
theorem Sound.readPage {w w' : World Page} (agree : Agree w) (sound : Sound w)
    {file : Option FileId} {pageNo : Int} {page : Option Nat} {status : Status}
    {frame : Option Nat} (read : BufMgr.readPage file pageNo page w = (status, frame, w')) :
    Sound w' := by
  have kept := readPage_schedule file pageNo page w
  rw [read] at kept
  refine ⟨fun n => (congrFun (congrArg Prod.fst kept) n).trans (sound.quiet n), fun key => ?_⟩
  rw [readPage_page] at read
  have step : Relation.ReflGen (Cell.Step False) _ _ := cellOf_readPage agree file pageNo key
  rw [(Prod.mk.inj (Prod.mk.inj read).2).2] at step
  exact (sound.backed key).reflGen step

/-! ### `allocBuf` finds a frame -/

/-- **The victim branch succeeds** on a valid frame under the hand whose page the store holds,
the store failing no call: the write-back of a dirty frame goes through, and the index holds the
page it removes. -/
theorem replaceFrame_ok {w : World Page} (agree : Agree w) (quiet : w.failing = false)
    (bound : w.clockHand < w.numBufs) (valid : (w.bufTable w.clockHand).valid = true)
    (stored : (w.disk.read (w.bufTable w.clockHand).file (w.bufTable w.clockHand).pageNo).isSome) :
    ∃ j w', replaceFrame w = (.ok j, w') := by
  have indexed := agree.indexed _ bound valid
  simp only [BufDesc.key] at indexed
  obtain ⟨w₁, back, table⟩ : ∃ w₁, writeBack w w.clockHand = (.ok, w₁) ∧
      w₁.hashTable = w.hashTable := by
    unfold writeBack
    dsimp only
    split
    · obtain ⟨bytes, read⟩ := Option.isSome_iff_exists.mp stored
      cases file : (w.bufTable w.clockHand).file with
      | none => rw [file] at read; cases read
      | some id =>
        rw [file] at read
        simp only [File.writePage, read, quiet]
        exact ⟨_, rfl, rfl⟩
    · exact ⟨w, rfl, rfl⟩
  unfold replaceFrame
  simp only [back, table, BufHashTbl.remove, indexed, Option.isSome_some, if_true, ne_eq,
    not_true_eq_false, if_false]
  exact ⟨_, _, rfl⟩

/-- **With a free frame, and a store that fails no call, `allocBuf` hands out a frame**: the first
sweep stops at the first free, or unpinned and unreferenced, frame after the hand, having counted
fewer pinned frames than there are frames. -/
theorem allocBuf_ok_of_free {w : World Page} (agree : Agree w) (quiet : w.failing = false)
    (stored : ∀ i < w.numBufs, (w.bufTable i).valid = true →
      (w.disk.read (w.bufTable i).file (w.bufTable i).pageNo).isSome)
    (free : 0 < freeFrames w) : ∃ j w', allocBuf w = (.ok j, w') := by
  obtain ⟨i, mem, invalid⟩ := List.countP_pos_iff.mp free
  have bound := List.mem_range.mp mem
  have pos : 0 < w.numBufs := by omega
  have hand : w.clockHand < w.numBufs := agree.hand.resolve_right (by omega)
  obtain ⟨q, low, high, rfl⟩ := exists_frameAt hand bound
  obtain ⟨k, low, high, chosen, before⟩ :=
    exists_firstAfterHand (p := FirstChoice) ⟨q, low, high, .inl (by simpa using invalid)⟩
  have seen := unreferencedSeen_le w (k - 1)
  rw [allocBuf, show 2 * w.numBufs + 1 = 2 * w.numBufs - (k - 1) + 1 + (k - 1) by omega,
    allocBufLoop_sweep hand (by omega)
      (fun q qlow qhigh => passed_of_not_firstChoice (agree.pinCnt _) (before q qlow (by omega)))
      (fun q below => by have := unreferencedSeen_le w q; omega)]
  -- the pass after `k - 1` sweeping passes looks at the first first-choice frame
  have next : (sweepPass^[k - 1] w).bufTable (frameAt (sweepPass^[k - 1] w) 1) =
      w.bufTable (frameAt w k) := by
    rw [sweep_next hand (by omega), Nat.sub_add_cancel low]
  have room : (sweepPass^[k - 1] w).numBufs ≠ 0 + unreferencedSeen w (k - 1) := by
    rw [sweep_numBufs]
    omega
  cases valid : ((sweepPass^[k - 1] w).bufTable (frameAt (sweepPass^[k - 1] w) 1)).valid with
  | false => exact ⟨_, _, allocBufLoop_free room valid⟩
  | true =>
    rw [next] at valid
    obtain ⟨unpinned, unreferenced⟩ := chosen.resolve_left (by simp [valid])
    rw [allocBufLoop_victim room (by rw [next]; exact valid) (by rw [next]; exact unreferenced)
      (by rw [next]; omega)]
    have atHand : (advanceClock (sweepPass^[k - 1] w)).bufTable
        (advanceClock (sweepPass^[k - 1] w)).clockHand = w.bufTable (frameAt w k) := by
      rw [advanceClock_bufTable, advanceClock_clockHand_frameAt, next]
    have quiet' : (advanceClock (sweepPass^[k - 1] w)).failing = false := by
      show (sweepPass^[k - 1] w).fault (sweepPass^[k - 1] w).calls.length = false
      rw [sweep_fault, sweep_calls]
      exact quiet
    refine replaceFrame_ok (agree.sweep _).advanceClock quiet' ?_ (by rw [atHand]; exact valid)
      (by rw [atHand, advanceClock_disk, sweep_disk]; exact stored _ (frameAt_lt pos k) valid)
    rw [advanceClock_clockHand_frameAt, advanceClock_numBufs]
    exact frameAt_lt (by rw [sweep_numBufs]; exact pos) 1

/-! ### `readPage` succeeds -/

/-- **`readPage` of a page the store holds returns `OK`** when the page is resident, or when a
frame is free and the store fails no call. -/
theorem readPage_ok_of_room {w : World Page} (agree : Agree w) (sound : Sound w)
    {file : Option FileId} {pageNo : Int}
    (stored : (w.disk.read file pageNo).isSome)
    (room : (w.hashTable.frameOf (file, pageNo)).isSome ∨ 0 < freeFrames w) (page : Option Nat) :
    ∃ frame w', readPage file pageNo page w = (.ok, some frame, w') := by
  cases found : w.hashTable.frameOf (file, pageNo) with
  | some i =>
    simp only [readPage, BufHashTbl.lookup_eq, found]
    exact ⟨_, _, rfl⟩
  | none =>
    rw [found] at room
    obtain ⟨j, w₁, allocated⟩ := allocBuf_ok_of_free agree (sound.quiet _)
      (fun i bound valid => frames_stored agree sound.backed bound valid) (room.resolve_left (by simp))
    have same : w₁.disk.read file pageNo = w.disk.read file pageNo :=
      congrArg Cell.stored (cellOf_allocBuf_absent agree allocated found)
    have schedule : w₁.fault = w.fault := by
      have := congrArg Prod.fst (allocBuf_schedule w)
      rwa [allocated] at this
    obtain ⟨bytes, read⟩ := Option.isSome_iff_exists.mp stored
    have absent := (allocBuf_handed agree allocated).2.1.absent found
    simp only [readPage, BufHashTbl.lookup_eq, found, allocated, File.readPage, same, read,
      World.failing, World.record, World.setPage, schedule, sound.quiet, Bool.false_eq_true, if_false,
      newBucket, BufHashTbl.insert, absent, Option.isSome_none, Bool.or_false]
    exact ⟨_, _, rfl⟩

end BufMgr

end Minirel
