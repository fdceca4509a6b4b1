/-
**`allocBuf` is the second-chance clock, up to its pinned-frame count.**

* `allocBuf_secondChance`: from a reachable world with at least one frame, a frame `j` that
  `allocBuf` hands out is the one the second-chance clock picks (`ClockPick`): the first frame
  after the hand that is free, or valid, unpinned and unreferenced; failing that, the first
  unpinned frame on the second sweep. The hand stops on `j`, the frames passed over are left
  unreferenced, `j` is written back if dirty, unindexed and cleared, and no other frame's page,
  pins or dirty bit changes (`Handed`).
* `allocBuf_exceeded_of_pinned`: with every frame valid and pinned, `allocBuf` reports
  `BUFFEREXCEEDED`.
* `countingRun_bufferExceeded`: the converse fails. The count of pinned frames counts visits and
  is kept across sweeps, so a reachable world with a valid unpinned frame can get
  `BUFFEREXCEEDED`.

The proof follows the loop pass by pass:

* `frameAt_inj`, `exists_frameAt`: the offsets `1, …, numBufs` from the hand name every frame once;
* `sweep_refbit_visited`, `sweep_unvisited`: after `m` sweeping passes the frames at offsets
  `1, …, m` are unreferenced and the others untouched;
* `allocBufLoop_skip`, `allocBufLoop_exceeded`, `allocBufLoop_free`, `allocBufLoop_victim`: one
  pass, by the branch it takes, and `allocBufLoop_take` for a pass that hands out its frame;
* `allocBufLoop_sweep`: `m` passes over frames that are referenced or pinned, each finding the
  count below `numBufs`, are `m` sweeping passes that count the unreferenced frames among them;
* `allocBuf_firstSweep`, `allocBuf_secondSweep`: the two cases of the pick.
-/

import Minirel.Buffer.Residency
import Mathlib.Data.Nat.Find
import Mathlib.Tactic.Set

set_option linter.unusedSectionVars false

namespace Minirel

namespace BufMgr

variable {Page : Type} [Inhabited Page]

open World

/-! ### Offsets from the hand -/

section Offsets

variable {w : World Page}

theorem frameAt_lt (pos : 0 < w.numBufs) (k : Nat) : frameAt w k < w.numBufs :=
  Nat.mod_lt _ pos

/-- Offsets `1, …, numBufs` from the hand name distinct frames. -/
theorem frameAt_inj {q q' : Nat} (low : 1 ≤ q) (ordered : q < q') (bounded : q' ≤ w.numBufs) : frameAt w q ≠ frameAt w q' := by
  intro same
  have apart := Nat.sub_mod_eq_zero_of_mod_eq same.symm
  rw [show w.clockHand + q' - (w.clockHand + q) = q' - q by omega,
    Nat.mod_eq_of_lt (by omega)] at apart
  omega

/-- Every frame is at some offset `1, …, numBufs` from a hand that is on a frame. -/
theorem exists_frameAt (hand : w.clockHand < w.numBufs) {i : Nat} (bound : i < w.numBufs) :
    ∃ q, 1 ≤ q ∧ q ≤ w.numBufs ∧ frameAt w q = i := by
  by_cases after : w.clockHand < i
  · refine ⟨i - w.clockHand, by omega, by omega, ?_⟩
    rw [frameAt, show w.clockHand + (i - w.clockHand) = i by omega, Nat.mod_eq_of_lt bound]
  · refine ⟨i + w.numBufs - w.clockHand, by omega, by omega, ?_⟩
    rw [frameAt, show w.clockHand + (i + w.numBufs - w.clockHand) = i + w.numBufs by omega,
      Nat.add_mod_right, Nat.mod_eq_of_lt bound]

theorem frameAt_zero (hand : w.clockHand < w.numBufs) : frameAt w 0 = w.clockHand :=
  Nat.mod_eq_of_lt hand

theorem sweep_clockHand (hand : w.clockHand < w.numBufs) (m : Nat) :
    (sweepPass^[m] w).clockHand = frameAt w m := by
  induction m with
  | zero => exact (frameAt_zero hand).symm
  | succ m ih =>
    rw [Function.iterate_succ_apply', sweepPass_clockHand, frameAt, ih, sweep_numBufs, frameAt,
      Nat.mod_add_mod, Nat.add_assoc]
    rfl

theorem frameAt_sweep (hand : w.clockHand < w.numBufs) (m q : Nat) :
    frameAt (sweepPass^[m] w) q = frameAt w (m + q) := by
  rw [frameAt, sweep_clockHand hand, sweep_numBufs, frameAt, Nat.mod_add_mod, Nat.add_assoc]
  rfl

end Offsets

/-! ### What sweeping passes leave -/

section Sweep

variable {w : World Page}

/-- The frames the first `m` passes visited are unreferenced. -/
theorem sweep_refbit_visited (hand : w.clockHand < w.numBufs) {m q : Nat} (low : 1 ≤ q)
    (high : q ≤ m) : ((sweepPass^[m] w).bufTable (frameAt w q)).refbit = false := by
  induction m with
  | zero => omega
  | succ m ih =>
    rw [Function.iterate_succ_apply', sweepPass_bufTable, frameAt_sweep hand]
    split
    · rfl
    · rename_i other
      rcases Nat.lt_or_ge q (m + 1) with earlier | last
      · exact ih (by omega)
      · exact absurd (by rw [show q = m + 1 by omega]) other

/-- A frame the first `m` passes did not visit is untouched. -/
theorem sweep_unvisited (hand : w.clockHand < w.numBufs) {m i : Nat}
    (unvisited : ∀ q, 1 ≤ q → q ≤ m → frameAt w q ≠ i) :
    (sweepPass^[m] w).bufTable i = w.bufTable i := by
  induction m with
  | zero => rfl
  | succ m ih =>
    rw [Function.iterate_succ_apply', sweepPass_bufTable, frameAt_sweep hand,
      if_neg (fun here => unvisited (m + 1) (by omega) (Nat.le_refl _) (by rw [here]))]
    exact ih fun q low high => unvisited q low (by omega)

end Sweep

/-! ### One pass of the loop, by the branch it takes -/

section Pass

variable {w : World Page} {fuel numPinnedPages : Nat}

theorem advanceClock_clockHand_frameAt (w : World Page) :
    (advanceClock w).clockHand = frameAt w 1 := rfl

theorem allocBufLoop_exceeded (full : w.numBufs = numPinnedPages) :
    allocBufLoop (fuel + 1) numPinnedPages w = (.error .bufferExceeded, w) := by
  rw [allocBufLoop, if_pos full]

theorem allocBufLoop_free (room : w.numBufs ≠ numPinnedPages)
    (free : (w.bufTable (frameAt w 1)).valid = false) :
    allocBufLoop (fuel + 1) numPinnedPages w =
      (.ok (w.bufTable (frameAt w 1)).frameNo,
        (advanceClock w).setDesc (frameAt w 1) (w.bufTable (frameAt w 1)).clear) := by
  rw [allocBufLoop, if_neg room]
  simp only [advanceClock_bufTable, advanceClock_clockHand_frameAt, free]
  rfl

theorem allocBufLoop_victim (room : w.numBufs ≠ numPinnedPages)
    (valid : (w.bufTable (frameAt w 1)).valid = true)
    (unreferenced : (w.bufTable (frameAt w 1)).refbit = false)
    (unpinned : ¬ 0 < (w.bufTable (frameAt w 1)).pinCnt) :
    allocBufLoop (fuel + 1) numPinnedPages w = replaceFrame (advanceClock w) := by
  rw [allocBufLoop, if_neg room]
  simp only [advanceClock_bufTable, advanceClock_clockHand_frameAt, valid, unreferenced,
    if_neg unpinned]
  rfl

/-- A pass over a valid frame that is referenced or pinned is a sweeping pass, which counts the
frame when it was unreferenced. -/
theorem allocBufLoop_skip (room : w.numBufs ≠ numPinnedPages)
    (valid : (w.bufTable (frameAt w 1)).valid = true)
    (kept : (w.bufTable (frameAt w 1)).refbit = true ∨ 0 < (w.bufTable (frameAt w 1)).pinCnt) :
    allocBufLoop (fuel + 1) numPinnedPages w =
      allocBufLoop fuel
        (numPinnedPages + if (w.bufTable (frameAt w 1)).refbit then 0 else 1) (sweepPass w) := by
  rw [allocBufLoop, if_neg room]
  simp only [advanceClock_bufTable, advanceClock_clockHand_frameAt]
  rw [if_neg (by simp [valid])]
  cases referenced : (w.bufTable (frameAt w 1)).refbit with
  | true => rw [if_pos rfl]; rfl
  | false =>
    have pinned := kept.resolve_left (by simp [referenced])
    rw [if_neg (by simp [referenced]), if_pos pinned, sweepPass,
      BufDesc.with_refbit_self (by exact referenced), setDesc_self]
    rfl

end Pass

/-! ### Runs of sweeping passes -/

/-- The unreferenced frames among the offsets `1, …, m` from the hand: the ones the loop counts as
pinned when it passes over them. -/
def unreferencedSeen (w : World Page) : Nat → Nat
  | 0 => 0
  | m + 1 => unreferencedSeen w m + if (w.bufTable (frameAt w (m + 1))).refbit then 0 else 1

theorem unreferencedSeen_le (w : World Page) (m : Nat) : unreferencedSeen w m ≤ m := by
  induction m with
  | zero => exact Nat.le_refl 0
  | succ m ih => rw [unreferencedSeen]; split <;> omega

theorem unreferencedSeen_of_unreferenced {w : World Page} {m : Nat}
    (unreferenced : ∀ q, 1 ≤ q → q ≤ m → (w.bufTable (frameAt w q)).refbit = false) :
    unreferencedSeen w m = m := by
  induction m with
  | zero => rfl
  | succ m ih =>
    rw [unreferencedSeen, ih fun q low high => unreferenced q low (by omega),
      unreferenced (m + 1) (by omega) (Nat.le_refl _)]
    rfl

section Run

variable {w : World Page} (hand : w.clockHand < w.numBufs)
include hand

/-- The frame the next pass looks at, after `m` sweeping passes that have not come round. -/
theorem sweep_next {m : Nat} (within : m < w.numBufs) :
    (sweepPass^[m] w).bufTable (frameAt (sweepPass^[m] w) 1) = w.bufTable (frameAt w (m + 1)) := by
  rw [frameAt_sweep hand]
  exact sweep_unvisited hand fun q low high => frameAt_inj low (by omega) (by omega)

/-- **Passes over valid frames that are referenced or pinned, each finding the count below
`numBufs`, are sweeping passes that count the unreferenced frames.** -/
theorem allocBufLoop_sweep {m numPinnedPages : Nat} (within : m ≤ w.numBufs)
    (kept : ∀ q, 1 ≤ q → q ≤ m → (w.bufTable (frameAt w q)).valid = true ∧
      ((w.bufTable (frameAt w q)).refbit = true ∨ 0 < (w.bufTable (frameAt w q)).pinCnt))
    (room : ∀ q < m, w.numBufs ≠ numPinnedPages + unreferencedSeen w q) (fuel : Nat) :
    allocBufLoop (fuel + m) numPinnedPages w =
      allocBufLoop fuel (numPinnedPages + unreferencedSeen w m) (sweepPass^[m] w) := by
  induction m generalizing fuel with
  | zero => rfl
  | succ m ih =>
    have next := sweep_next hand (m := m) (by omega)
    obtain ⟨valid, passed⟩ := kept (m + 1) (by omega) (Nat.le_refl _)
    rw [show fuel + (m + 1) = fuel + 1 + m by omega,
      ih (by omega) (fun q low high => kept q low (by omega)) (fun q below => room q (by omega)),
      allocBufLoop_skip (by simpa using room m (by omega)) (by rwa [next]) (by rwa [next]), next,
      ← Function.iterate_succ_apply' sweepPass, unreferencedSeen, Nat.add_assoc]

end Run

/-! ### Handing out a frame -/

/-- What handing out frame `j` does, against the world `w` the call started from: the hand stops
on `j`; `j` is cleared, unindexed if it held a page, and its bytes are on that page if it was
dirty; no other frame's page, pins or dirty bit changes. -/
structure Handed (w : World Page) (j : Nat) (w' : World Page) : Prop where
  clockHand : w'.clockHand = j
  cleared : w'.bufTable j = (w.bufTable j).clear
  others : ∀ i, i ≠ j → (w'.bufTable i).core = (w.bufTable i).core
  hashTable : w'.hashTable =
    if (w.bufTable j).valid then w.hashTable.erase (w.bufTable j).key else w.hashTable
  bufPool : w'.bufPool = w.bufPool
  written : (w.bufTable j).valid = true → (w.bufTable j).dirty = true →
    ∃ id, (w.bufTable j).file = some id ∧
      w'.disk = w.disk.write id (w.bufTable j).pageNo (some (w.bufPool j))
  unwritten : (w.bufTable j).dirty = false → w'.disk = w.disk

/-- Sweeping before the hand-out is invisible to `Handed`, which reads no reference bit. -/
theorem Handed.of_sweep {w w' : World Page} {j : Nat} {m : Nat}
    (handed : Handed (sweepPass^[m] w) j w') : Handed w j w' := by
  have core := BufDesc.core_eq_iff.mp (sweep_core m w j)
  have key : ((sweepPass^[m] w).bufTable j).key = (w.bufTable j).key := by
    simp only [BufDesc.key, core.1, core.2.1]
  obtain ⟨hand, cleared, others, table, pool, written, unwritten⟩ := handed
  simp only [sweep_bufPool, sweep_hashTable, sweep_disk, core.1, core.2.1, core.2.2.2.2.1,
    core.2.2.2.2.2, key] at *
  exact ⟨hand, by rw [cleared, BufDesc.clear_eq_of_core (sweep_core m w j)],
    fun i other => by rw [others i other, sweep_core], table, pool, written, unwritten⟩

/-- Moving the hand first is invisible to `Handed`, which reads the hand only after. -/
theorem Handed.of_advanceClock {w w' : World Page} {j : Nat} (handed : Handed (advanceClock w) j w') :
    Handed w j w' :=
  let ⟨hand, cleared, others, table, pool, written, unwritten⟩ := handed
  ⟨hand, cleared, others, table, pool, written, unwritten⟩

section Take

variable {w w' : World Page} {j fuel numPinnedPages : Nat}

/-- A frame the first sweep of the clock takes: free, or valid, unpinned and unreferenced. -/
def FirstChoice (desc : BufDesc) : Prop :=
  desc.valid = false ∨ (desc.pinCnt = 0 ∧ desc.refbit = false)

instance : DecidablePred FirstChoice := fun _ => inferInstanceAs (Decidable (_ ∨ _))

/-- A frame that is no first choice is valid, and referenced or pinned. -/
theorem passed_of_not_firstChoice {desc : BufDesc} (pins : 0 ≤ desc.pinCnt)
    (passed : ¬ FirstChoice desc) :
    desc.valid = true ∧ (desc.refbit = true ∨ 0 < desc.pinCnt) := by
  obtain ⟨valid, chosen⟩ := not_or.mp passed
  refine ⟨by simpa using valid, ?_⟩
  cases referenced : desc.refbit
  · exact .inr (by simp only [referenced, and_true] at chosen; omega)
  · exact .inl rfl

/-- The victim branch, when it hands out a frame, hands out the one under the hand. -/
theorem replaceFrame_handed (agree : Agree w) (valid : (w.bufTable w.clockHand).valid = true)
    (replaced : replaceFrame w = (.ok j, w')) :
    j = w.clockHand ∧ Handed w j w' ∧ ∀ i, i ≠ j → w'.bufTable i = w.bufTable i := by
  have cases := replaceFrame_cases w
  rw [replaced] at cases
  rcases cases with _ | _ | ⟨back, _⟩
  rw [agree.frameNo]
  obtain ⟨table, pool, _, _, hand⟩ := wroteBack_bufTable back
  refine ⟨rfl, ⟨by simp [hand], by simp [setDesc_bufTable_apply], fun i other => ?_, by simp [valid],
    by simp [pool], fun _ dirty => ?_, fun clean => ?_⟩, fun i other => ?_⟩
  · simp [setDesc_bufTable_apply, other, table]
  · cases back with
    | clean unwritten => simp [dirty] at unwritten
    | written _ file => exact ⟨_, file, rfl⟩
  · cases back with
    | clean => rfl
    | written dirty => simp [dirty] at clean
  · simp [setDesc_bufTable_apply, other, table]

/-- The pass that returns, when it hands out a frame, hands out the one after the hand, which was
unpinned. -/
theorem returns_handed (agree : Agree w) (pos : 0 < w.numBufs) (returns : Returns w (.ok j, w')) :
    j = frameAt w 1 ∧ Handed w j w' ∧ (∀ i, i ≠ j → w'.bufTable i = w.bufTable i) ∧
      (w.bufTable j).pinCnt = 0 := by
  generalize outcome : (Except.ok j, w') = result at returns
  cases returns with
  | free invalid =>
    simp only [Prod.mk.injEq, Except.ok.injEq] at outcome
    obtain ⟨rfl, rfl⟩ := outcome
    rw [agree.frameNo]
    refine ⟨rfl, ⟨rfl, by simp, fun i other => ?_, by simp [invalid], rfl,
      fun valid => by simp [invalid] at valid, fun _ => rfl⟩, fun i other => ?_,
      (agree.free _ (frameAt_lt pos 1) invalid).1⟩ <;>
      simp [setDesc_bufTable_apply, other]
  | victim valid _ unpinned =>
    obtain ⟨hand, handed, others⟩ :=
      replaceFrame_handed agree.advanceClock (by simpa using valid) outcome.symm
    have pins := agree.pinCnt (frameAt w 1)
    exact ⟨hand, handed.of_advanceClock, others, by rw [hand, advanceClock_clockHand_frameAt]; omega⟩

/-- **A pass over a first-choice frame that hands out a frame hands out that one.** -/
theorem allocBufLoop_take (agree : Agree w) (pos : 0 < w.numBufs)
    (room : w.numBufs ≠ numPinnedPages) (chosen : FirstChoice (w.bufTable (frameAt w 1)))
    (taken : allocBufLoop (fuel + 1) numPinnedPages w = (.ok j, w')) :
    j = frameAt w 1 ∧ Handed w j w' ∧ ∀ i, i ≠ j → w'.bufTable i = w.bufTable i := by
  have returns : Returns w (.ok j, w') := by
    cases valid : (w.bufTable (frameAt w 1)).valid with
    | false =>
      rw [allocBufLoop_free room valid] at taken
      exact taken ▸ .free valid
    | true =>
      obtain ⟨unpinned, unreferenced⟩ := chosen.resolve_left (by simp [valid])
      rw [allocBufLoop_victim room valid unreferenced (by omega)] at taken
      exact taken ▸ .victim valid unreferenced (by omega)
  obtain ⟨hand, handed, others, _⟩ := returns_handed agree pos returns
  exact ⟨hand, handed, others⟩

end Take

/-! ### The two sweeps -/

/-- `k` is the first offset from the hand, among `1, …, numBufs`, whose frame satisfies `p`. -/
def FirstAfterHand (w : World Page) (p : BufDesc → Prop) (k : Nat) : Prop :=
  1 ≤ k ∧ k ≤ w.numBufs ∧ p (w.bufTable (frameAt w k)) ∧
    ∀ q, 1 ≤ q → q < k → ¬ p (w.bufTable (frameAt w q))

theorem exists_firstAfterHand {w : World Page} {p : BufDesc → Prop}
    (found : ∃ q, 1 ≤ q ∧ q ≤ w.numBufs ∧ p (w.bufTable (frameAt w q))) :
    ∃ k, FirstAfterHand w p k := by
  classical
  obtain ⟨low, high, holds⟩ := Nat.find_spec found
  exact ⟨Nat.find found, low, high, holds,
    fun q qlow below holdsq => Nat.find_min found below ⟨qlow, by omega, holdsq⟩⟩

theorem frameAt_add_numBufs (w : World Page) (q : Nat) :
    frameAt w (w.numBufs + q) = frameAt w q := by
  rw [frameAt, frameAt, show w.clockHand + (w.numBufs + q) = w.clockHand + q + w.numBufs by omega,
    Nat.add_mod_right]

/-- Sweeping passes never set a reference bit. -/
theorem sweep_unreferenced {w : World Page} {i : Nat} (unreferenced : (w.bufTable i).refbit = false)
    (m : Nat) : ((sweepPass^[m] w).bufTable i).refbit = false := by
  induction m with
  | zero => exact unreferenced
  | succ m ih =>
    rw [Function.iterate_succ_apply', sweepPass_bufTable]
    split
    · rfl
    · exact ih

/-- **With every frame valid and pinned, `allocBuf` reports `BUFFEREXCEEDED`**: the free and the
victim branch both need a frame that is invalid or unpinned. -/
theorem allocBuf_exceeded_of_pinned {w : World Page}
    (pinned : ∀ i < w.numBufs, (w.bufTable i).valid = true ∧ 0 < (w.bufTable i).pinCnt) :
    (allocBuf w).1 = .error .bufferExceeded := by
  rcases Nat.eq_zero_or_pos w.numBufs with empty | pos
  · rw [allocBuf, empty, allocBufLoop_exceeded empty]
  obtain ⟨k, exceeded | returns⟩ := allocBufLoop_cases (2 * w.numBufs + 1) 0 w
  · rw [allocBuf, exceeded]
  have core := BufDesc.core_eq_iff.mp (sweep_core k w (frameAt (sweepPass^[k] w) 1))
  have frame := pinned _ (by simpa using frameAt_lt (w := sweepPass^[k] w) (by simpa using pos) 1)
  rw [← core.2.2.2.2.2, ← core.2.2.2.1] at frame
  unfold allocBuf
  generalize allocBufLoop (2 * w.numBufs + 1) 0 w = result at returns
  cases returns with
  | free invalid => simp [invalid] at frame
  | victim _ _ unpinned => exact absurd frame.2 unpinned

/-- The pinned-frame count of `allocBuf` counts visits: from `countingRun` it counts frame `0`,
frame `1`, clears frame `2`'s reference bit, counts frame `0` again and reports `BUFFEREXCEEDED`,
although frame `2` is valid and unpinned; `readPage` of a new page fails with it. -/
theorem countingRun_bufferExceeded :
    Reachable countingRun ∧ (countingRun.bufTable 2).valid = true ∧
      (countingRun.bufTable 2).pinCnt = 0 ∧ (allocBuf countingRun).1 = .error .bufferExceeded ∧
      ((Op.readPage (some 0) 4).apply countingRun).1.status = .bufferExceeded :=
  ⟨(Reachable.init _ _ _ _).exec _, rfl, rfl, rfl, rfl⟩

section Sweeps

variable {w w' : World Page} {j : Nat} (agree : Agree w) (pos : 0 < w.numBufs)
include agree pos

/-- **The first sweep: `allocBuf` hands out the first first-choice frame after the hand, and the
frames it passed over are left unreferenced.** -/
theorem allocBuf_firstSweep {k : Nat} (first : FirstAfterHand w FirstChoice k)
    (allocated : allocBuf w = (.ok j, w')) :
    j = frameAt w k ∧ Handed w j w' ∧
      ∀ q, 1 ≤ q → q < k → (w'.bufTable (frameAt w q)).refbit = false := by
  have hand : w.clockHand < w.numBufs := agree.hand.resolve_right (by omega)
  obtain ⟨low, high, chosen, before⟩ := first
  have seen := unreferencedSeen_le w (k - 1)
  rw [allocBuf, show 2 * w.numBufs + 1 = 2 * w.numBufs - (k - 1) + 1 + (k - 1) by omega,
    allocBufLoop_sweep hand (by omega)
      (fun q qlow qhigh => passed_of_not_firstChoice (agree.pinCnt _) (before q qlow (by omega)))
      (fun q below => by have := unreferencedSeen_le w q; omega)] at allocated
  obtain ⟨rfl, handed, others⟩ := allocBufLoop_take (agree.sweep (k - 1)) (by simpa using pos) (by simp; omega)
    (by rwa [sweep_next hand (by omega), Nat.sub_add_cancel low]) allocated
  rw [frameAt_sweep hand, Nat.sub_add_cancel low] at handed others ⊢
  refine ⟨rfl, handed.of_sweep, fun q qlow below => ?_⟩
  rw [others _ (frameAt_inj qlow below high)]
  exact sweep_refbit_visited hand qlow (by omega)

/-- **The second sweep: with no first-choice frame, a frame `allocBuf` hands out is the first
unpinned frame after the hand, and every frame is left unreferenced.** -/
theorem allocBuf_secondSweep (passed : ∀ i < w.numBufs, ¬ FirstChoice (w.bufTable i))
    (allocated : allocBuf w = (.ok j, w')) :
    ∃ k, FirstAfterHand w (fun desc => desc.pinCnt = 0) k ∧ j = frameAt w k ∧ Handed w j w' ∧
      ∀ i < w.numBufs, (w'.bufTable i).refbit = false := by
  have hand : w.clockHand < w.numBufs := agree.hand.resolve_right (by omega)
  -- Some frame is unpinned, or the call would have reported `BUFFEREXCEEDED`.
  have unpinned : ∃ q, 1 ≤ q ∧ q ≤ w.numBufs ∧ (w.bufTable (frameAt w q)).pinCnt = 0 :=
    Classical.byContradiction fun pinned => by
      have exceeded := allocBuf_exceeded_of_pinned (w := w) fun i bound => by
        obtain ⟨q, low, high, rfl⟩ := exists_frameAt hand bound
        have := agree.pinCnt (frameAt w q)
        have : (w.bufTable (frameAt w q)).pinCnt ≠ 0 := fun free => pinned ⟨q, low, high, free⟩
        exact ⟨(passed_of_not_firstChoice (agree.pinCnt _) (passed _ bound)).1, by omega⟩
      rw [allocated] at exceeded
      cases exceeded
  obtain ⟨k, low, high, free, before⟩ :=
    exists_firstAfterHand (p := fun desc => desc.pinCnt = 0) unpinned
  have pinned q (qlow : 1 ≤ q) (qhigh : q ≤ k - 1) : 0 < (w.bufTable (frameAt w q)).pinCnt := by
    have := agree.pinCnt (frameAt w q); have := before q qlow (by omega); omega
  have kept q (_ : 1 ≤ q) (_ : q ≤ w.numBufs) :=
    passed_of_not_firstChoice (agree.pinCnt _) (passed _ (frameAt_lt pos q))
  rw [allocBuf, show 2 * w.numBufs + 1 = w.numBufs + 1 + w.numBufs by omega,
    allocBufLoop_sweep hand (Nat.le_refl _) kept
      (fun q below => by have := unreferencedSeen_le w q; omega)] at allocated
  -- The first sweep has brought the hand back and cleared every reference bit.
  generalize seen : 0 + unreferencedSeen w w.numBufs = a at allocated
  have counted : a ≤ w.numBufs := by have := unreferencedSeen_le w w.numBufs; omega
  set w₁ := sweepPass^[w.numBufs] w
  have bufs₁ : w₁.numBufs = w.numBufs := sweep_numBufs _ _
  have hand₁ : w₁.clockHand < w₁.numBufs := by
    rw [sweep_clockHand hand, sweep_numBufs]; exact frameAt_lt pos _
  have offsets₁ q : frameAt w₁ q = frameAt w q := by rw [frameAt_sweep hand, frameAt_add_numBufs]
  have unreferenced₁ i (bound : i < w.numBufs) : (w₁.bufTable i).refbit = false := by
    obtain ⟨q, low, high, rfl⟩ := exists_frameAt hand bound
    exact sweep_refbit_visited hand low high
  -- On the second sweep each pinned frame before the first unpinned one is counted once.
  have run (r : Nat) (within : r ≤ k - 1) (room : a + r ≤ w.numBufs) (fuel : Nat) :
      allocBufLoop (fuel + r) a w₁ = allocBufLoop fuel (a + r) (sweepPass^[r] w₁) := by
    have seen₁ q : unreferencedSeen w₁ q = q := unreferencedSeen_of_unreferenced
      fun q' _ _ => by rw [offsets₁]; exact unreferenced₁ _ (frameAt_lt pos _)
    rw [allocBufLoop_sweep hand₁ (by rw [bufs₁]; omega) (fun q low high => ?_)
      (fun q below => by rw [seen₁, bufs₁]; omega), seen₁]
    have core := BufDesc.core_eq_iff.mp (sweep_core w.numBufs w (frameAt w q))
    rw [offsets₁, core.2.2.2.2.2, core.2.2.2.1]
    exact ⟨(kept q low (by omega)).1, .inr (pinned q low (by omega))⟩
  -- The count stays below `numBufs` up to that frame, or the call would have failed.
  have fits : a + (k - 1) < w.numBufs := Classical.byContradiction fun full => by
    rw [show w.numBufs + 1 = a + 1 + (w.numBufs - a) by omega, run (w.numBufs - a) (by omega)
      (by omega), allocBufLoop_exceeded (by rw [sweep_numBufs, bufs₁]; omega)] at allocated
    cases allocated
  rw [show w.numBufs + 1 = w.numBufs + 1 - k + 1 + (k - 1) by omega,
    run (k - 1) (Nat.le_refl _) (by omega)] at allocated
  have chosen : FirstChoice ((sweepPass^[k - 1] w₁).bufTable (frameAt (sweepPass^[k - 1] w₁) 1)) := by
    rw [sweep_next hand₁ (by rw [bufs₁]; omega), Nat.sub_add_cancel low, offsets₁]
    have core := BufDesc.core_eq_iff.mp (sweep_core w.numBufs w (frameAt w k))
    exact .inr ⟨by rw [core.2.2.2.1, free], unreferenced₁ _ (frameAt_lt pos _)⟩
  obtain ⟨rfl, handed, others⟩ :=
    allocBufLoop_take ((agree.sweep _).sweep (k - 1)) (by rw [sweep_numBufs, bufs₁]; exact pos)
      (by rw [sweep_numBufs, bufs₁]; omega)
      chosen allocated
  rw [frameAt_sweep hand₁, Nat.sub_add_cancel low, offsets₁] at handed others ⊢
  refine ⟨k, ⟨low, high, free, before⟩, rfl, handed.of_sweep.of_sweep, fun i bound => ?_⟩
  by_cases here : i = frameAt w k
  · rw [here, handed.cleared, BufDesc.clear_refbit]
  · rw [others i here]
    exact sweep_unreferenced (unreferenced₁ i bound) _

end Sweeps

/-- The frame `j` the second-chance clock picks from `w`, with the reference bits it leaves in
`w'`: the first first-choice frame after the hand, the frames before it unreferenced; or, when no
frame is a first choice, the first unpinned frame after the hand, every frame unreferenced. -/
def ClockPick (w : World Page) (j : Nat) (w' : World Page) : Prop :=
  ((∃ i < w.numBufs, FirstChoice (w.bufTable i)) →
      ∃ k, FirstAfterHand w FirstChoice k ∧ j = frameAt w k ∧
        ∀ q, 1 ≤ q → q < k → (w'.bufTable (frameAt w q)).refbit = false) ∧
    ((∀ i < w.numBufs, ¬ FirstChoice (w.bufTable i)) →
      ∃ k, FirstAfterHand w (fun desc => desc.pinCnt = 0) k ∧ j = frameAt w k ∧
        ∀ i < w.numBufs, (w'.bufTable i).refbit = false)

/-- **In every reachable world with a frame, a frame `allocBuf` hands out is the second-chance
clock's pick, handed out as `Handed` says.** -/
theorem allocBuf_secondChance {w w' : World Page} {j : Nat} (reach : Reachable w)
    (pos : 0 < w.numBufs) (allocated : allocBuf w = (.ok j, w')) :
    Handed w j w' ∧ ClockPick w j w' := by
  have agree := Agree.reachable reach
  have hand : w.clockHand < w.numBufs := agree.hand.resolve_right (by omega)
  by_cases found : ∃ i < w.numBufs, FirstChoice (w.bufTable i)
  · obtain ⟨i, bound, chosen⟩ := found
    obtain ⟨q, low, high, rfl⟩ := exists_frameAt hand bound
    obtain ⟨k, first⟩ := exists_firstAfterHand ⟨q, low, high, chosen⟩
    obtain ⟨picked, handed, passed⟩ := allocBuf_firstSweep agree pos first allocated
    exact ⟨handed, fun _ => ⟨k, first, picked, passed⟩,
      fun none => absurd chosen (none _ bound)⟩
  · have none i (bound : i < w.numBufs) : ¬ FirstChoice (w.bufTable i) :=
      fun chosen => found ⟨i, bound, chosen⟩
    obtain ⟨k, first, picked, handed, unreferenced⟩ :=
      allocBuf_secondSweep agree pos none allocated
    exact ⟨handed, fun exists_chosen => absurd exists_chosen found,
      fun _ => ⟨k, first, picked, unreferenced⟩⟩

/-- Two frames over a store where every page of file `0` exists: pages `0` and `1` are read and
page `1` is released. Both frames are referenced, so none is a first choice: `allocBuf` clears both
reference bits, passes the pinned frame `0` and takes frame `1` on its second sweep. -/
def releasedRun : World Nat :=
  (Op.exec (World.init 2 ⟨fun _ _ => some 0, fun _ => none⟩ (fun _ => false) (fun _ => 0))
    [.readPage (some 0) 0, .readPage (some 0) 1, .unPinPage (some 0) 1 false]).2

theorem releasedRun_secondChance :
    Reachable releasedRun ∧ 0 < releasedRun.numBufs ∧
      (∀ i < releasedRun.numBufs, ¬ FirstChoice (releasedRun.bufTable i)) ∧
      allocBuf releasedRun = (.ok 1, (allocBuf releasedRun).2) ∧
      Handed releasedRun 1 (allocBuf releasedRun).2 ∧ ClockPick releasedRun 1 (allocBuf releasedRun).2 :=
  ⟨(Reachable.init _ _ _ _).exec _, by decide, by decide, rfl,
    allocBuf_secondChance ((Reachable.init _ _ _ _).exec _) (by decide) rfl⟩

end BufMgr

end Minirel
