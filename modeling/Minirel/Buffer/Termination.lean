/-
**The clock loop of `allocBuf` terminates.**

`allocBufLoop` runs the body of the `while (true)` loop on fuel. Here the body is one function,
`allocBufPass`, which returns or goes round again (`allocBufLoop_succ`), and `allocBufRun` runs it
pass by pass, telling a loop that has returned from one that is still going.

* `allocBufPass_again` — **a pass that does not return clears the reference bit of a valid frame,
  or counts a pinned frame with `numPinnedPages` still below `numBufs`**; no pass sets a reference
  bit. So `loopMeasure`, the valid frames with the bit set plus `numBufs - numPinnedPages`,
  drops at every such pass (`loopMeasure_lt`).
* `allocBufPass_empty` — with no frames the first test returns `BUFFEREXCEEDED`: `advanceClock`,
  whose modulo is by `numBufs`, is never reached.
* `allocBuf_terminates` — **from every world the loop returns within `2 * numBufs + 1` passes,
  with the result of `allocBuf`**: the fuel of the model never runs out.
-/

import Minirel.Buffer.Clock
import Mathlib.Data.Finset.Card

set_option linter.unusedSectionVars false

namespace Minirel

namespace BufMgr

variable {Page : Type} [Inhabited Page]

open World

/-- What one pass of the body of `allocBuf`'s loop leads to: a `return` with its result, or the
next pass with the count of pinned frames and the world it leaves. -/
inductive LoopPass (Page : Type) where
  | done (result : Except Status Nat × World Page)
  | again (numPinnedPages : Nat) (w : World Page)

/-- One pass of the body of `allocBuf`'s `while (true)` loop. -/
def allocBufPass (numPinnedPages : Nat) (w : World Page) : LoopPass Page :=
  if w.numBufs = numPinnedPages then .done (.error .bufferExceeded, w)
  else
    let w := advanceClock w
    let curBuffer := w.bufTable w.clockHand
    if !curBuffer.valid then .done (.ok curBuffer.frameNo, w.setDesc w.clockHand curBuffer.clear)
    else if curBuffer.refbit then
      .again numPinnedPages (w.setDesc w.clockHand { curBuffer with refbit := false })
    else if curBuffer.pinCnt > 0 then .again (numPinnedPages + 1) w
    else .done (replaceFrame w)

/-- The fuelled loop is the pass, then the loop on one unit of fuel less. -/
theorem allocBufLoop_succ (fuel numPinnedPages : Nat) (w : World Page) :
    allocBufLoop (fuel + 1) numPinnedPages w =
      match allocBufPass numPinnedPages w with
      | .done result => result
      | .again numPinnedPages w => allocBufLoop fuel numPinnedPages w := by
  rw [allocBufLoop, allocBufPass]
  split
  · rfl
  · dsimp only
    split
    · rfl
    · split
      · rfl
      · split <;> rfl

/-- The loop run for at most `passes` passes: the result if it has returned by then, else the
count and the world it has reached. -/
def allocBufRun : Nat → Nat → World Page → LoopPass Page
  | 0, numPinnedPages, w => .again numPinnedPages w
  | passes + 1, numPinnedPages, w =>
    match allocBufPass numPinnedPages w with
    | .done result => .done result
    | .again numPinnedPages w => allocBufRun passes numPinnedPages w

/-! ### The variant -/

/-- The valid frames whose reference bit is set. -/
def referenced (w : World Page) : Finset Nat :=
  (Finset.range w.numBufs).filter fun i =>
    (w.bufTable i).valid = true ∧ (w.bufTable i).refbit = true

/-- What bounds the passes still to come: the reference bits the loop may still clear, and the
pinned frames it may still count before `numPinnedPages` reaches `numBufs`. -/
def loopMeasure (numPinnedPages : Nat) (w : World Page) : Nat :=
  (referenced w).card + (w.numBufs - numPinnedPages)

theorem loopMeasure_le (numPinnedPages : Nat) (w : World Page) :
    loopMeasure numPinnedPages w ≤ 2 * w.numBufs := by
  have bounded : (referenced w).card ≤ w.numBufs :=
    (Finset.card_filter_le _ _).trans (Finset.card_range _).le
  unfold loopMeasure
  omega

/-- Clearing the reference bit of a frame takes it out of `referenced`. -/
theorem referenced_clear (w : World Page) (i : Nat) :
    referenced (w.setDesc i { w.bufTable i with refbit := false }) = (referenced w).erase i := by
  ext j
  by_cases here : j = i
  · subst here
    simp [referenced]
  · simp [referenced, here]

variable {w w' : World Page} {numPinnedPages numPinnedPages' : Nat}

/-- **A pass that does not return clears the reference bit of a valid frame, or counts a pinned
frame while the count is below `numBufs`**, and sets no reference bit. -/
theorem allocBufPass_again (bounded : numPinnedPages ≤ w.numBufs)
    (again : allocBufPass numPinnedPages w = .again numPinnedPages' w') :
    w'.numBufs = w.numBufs ∧
      ((numPinnedPages' = numPinnedPages ∧ (referenced w').card + 1 = (referenced w).card) ∨
        (numPinnedPages' = numPinnedPages + 1 ∧ numPinnedPages < w.numBufs ∧
          referenced w' = referenced w)) := by
  unfold allocBufPass at again
  split at again
  · cases again
  rename_i room
  have hand : (advanceClock w).clockHand < w.numBufs := Nat.mod_lt _ (by omega)
  dsimp only at again
  split at again
  · cases again
  rename_i valid
  split at again
  · rename_i set
    cases again
    refine ⟨rfl, .inl ⟨rfl, ?_⟩⟩
    rw [referenced_clear]
    exact Finset.card_erase_add_one (Finset.mem_filter.mpr
      ⟨Finset.mem_range.mpr hand, by simpa using valid, by simpa using set⟩)
  split at again
  · cases again
    exact ⟨rfl, .inr ⟨rfl, by omega, rfl⟩⟩
  · cases again

/-- **The variant drops at every pass that does not return**, and the count stays at most
`numBufs`. -/
theorem loopMeasure_lt (bounded : numPinnedPages ≤ w.numBufs)
    (again : allocBufPass numPinnedPages w = .again numPinnedPages' w') :
    numPinnedPages' ≤ w'.numBufs ∧
      loopMeasure numPinnedPages' w' < loopMeasure numPinnedPages w := by
  obtain ⟨frames, cleared | counted⟩ := allocBufPass_again bounded again
  · unfold loopMeasure
    omega
  · obtain ⟨rfl, below, same⟩ := counted
    unfold loopMeasure
    rw [same, frames]
    omega

/-- With no frames, a pass returns `BUFFEREXCEEDED` before it moves the hand. -/
theorem allocBufPass_empty (bounded : numPinnedPages ≤ w.numBufs) (empty : w.numBufs = 0) :
    allocBufPass numPinnedPages w = .done (.error .bufferExceeded, w) := by
  rw [allocBufPass, if_pos (by omega)]

/-- Run for more passes than the variant, the loop has returned, with the fuelled loop's result. -/
theorem allocBufRun_done (passes : Nat) :
    ∀ {numPinnedPages : Nat} {w : World Page}, numPinnedPages ≤ w.numBufs →
      loopMeasure numPinnedPages w < passes →
      allocBufRun passes numPinnedPages w = .done (allocBufLoop passes numPinnedPages w) := by
  induction passes with
  | zero => exact fun _ enough => absurd enough (Nat.not_lt_zero _)
  | succ passes ih =>
    intro numPinnedPages w bounded enough
    rw [allocBufRun, allocBufLoop_succ]
    cases pass : allocBufPass numPinnedPages w with
    | done result => rfl
    | again numPinnedPages' w' =>
      obtain ⟨bounded', lower⟩ := loopMeasure_lt bounded pass
      exact ih bounded' (by omega)

/-- **`allocBuf`'s `while (true)` loop terminates**, from every world, whatever its frames, hand,
pins, reference bits and dirty bits. Run pass by pass, the loop has returned within
`2 * numBufs + 1` passes, and returned what `allocBuf` returns. Every pass that does not return
keeps `numPinnedPages` at most `numBufs` and lowers `loopMeasure`, by clearing the reference bit
of a valid frame or by counting a pinned frame; with no frames, the first pass returns without
evaluating `advanceClock`. -/
theorem allocBuf_terminates (w : World Page) :
    allocBufRun (2 * w.numBufs + 1) 0 w = .done (allocBuf w) ∧
      (∀ (n n' : Nat) (v v' : World Page), n ≤ v.numBufs → allocBufPass n v = .again n' v' →
        n' ≤ v'.numBufs ∧ loopMeasure n' v' < loopMeasure n v ∧
          ((n' = n ∧ (referenced v').card + 1 = (referenced v).card) ∨
            (n' = n + 1 ∧ n < v.numBufs ∧ referenced v' = referenced v))) ∧
      (∀ (n : Nat) (v : World Page), n ≤ v.numBufs → v.numBufs = 0 →
        allocBufPass n v = .done (.error .bufferExceeded, v)) :=
  ⟨allocBufRun_done _ (Nat.zero_le _) (Nat.lt_succ_of_le (loopMeasure_le 0 w)),
    fun _ _ _ _ bounded again =>
      ⟨(loopMeasure_lt bounded again).1, (loopMeasure_lt bounded again).2,
        (allocBufPass_again bounded again).2⟩,
    fun _ _ bounded empty => allocBufPass_empty bounded empty⟩

end BufMgr

end Minirel
