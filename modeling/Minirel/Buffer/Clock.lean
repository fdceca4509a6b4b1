/-
**What one call of `allocBuf` can do.**

A pass of the clock loop that does not return moves the hand and leaves the frame under it
unreferenced (`sweepPass`: the reference-bit branch clears the bit, the pinned branch finds it
clear). So every run of the loop is `k` such passes followed by one pass that returns
(`allocBufLoop_cases`):

* the count of pinned frames has reached `numBufs`, or the fuel is spent: `BUFFEREXCEEDED`, the
  world being `sweepPass^[k] w`;
* the frame under the hand is invalid: it is cleared and handed out;
* the frame under the hand is valid, unreferenced and unpinned: `replaceFrame`, which writes it
  back if dirty, drops its index entry and clears it (`replaceFrame_cases`).

Sweeping changes nothing but the hand and reference bits (`sweep_core`, `sweep_hashTable`, ...).
Everything the invariants need about `allocBuf` is read off these lemmas; none of them unfolds
the loop again.
-/

import Minirel.Buffer.Manager
import Mathlib.Logic.Function.Iterate

set_option linter.unusedSectionVars false

namespace Minirel

namespace BufMgr

variable {Page : Type} [Inhabited Page]

open World

/-! ### Sweeping passes -/

/-- A pass of the clock loop that does not return: the hand moves on, and the frame under it is
left unreferenced. -/
def sweepPass (w : World Page) : World Page :=
  let w := advanceClock w
  w.setDesc w.clockHand { w.bufTable w.clockHand with refbit := false }

/-- The frame `k` places after the hand. -/
def frameAt (w : World Page) (k : Nat) : Nat := (w.clockHand + k) % w.numBufs

@[simp] theorem sweepPass_numBufs (w : World Page) : (sweepPass w).numBufs = w.numBufs := rfl
@[simp] theorem sweepPass_bufPool (w : World Page) : (sweepPass w).bufPool = w.bufPool := rfl
@[simp] theorem sweepPass_hashTable (w : World Page) :
    (sweepPass w).hashTable = w.hashTable := rfl
@[simp] theorem sweepPass_disk (w : World Page) : (sweepPass w).disk = w.disk := rfl
@[simp] theorem sweepPass_calls (w : World Page) : (sweepPass w).calls = w.calls := rfl
@[simp] theorem sweepPass_fault (w : World Page) : (sweepPass w).fault = w.fault := rfl
@[simp] theorem sweepPass_fresh (w : World Page) : (sweepPass w).fresh = w.fresh := rfl
@[simp] theorem sweepPass_clockHand (w : World Page) :
    (sweepPass w).clockHand = frameAt w 1 := rfl

theorem sweepPass_bufTable (w : World Page) (i : Nat) :
    (sweepPass w).bufTable i =
      if i = frameAt w 1 then { w.bufTable i with refbit := false } else w.bufTable i := by
  simp only [sweepPass, setDesc_bufTable, advanceClock_bufTable, advanceClock_clockHand,
    Function.update_apply, frameAt]
  split <;> simp_all

@[simp] theorem sweepPass_core (w : World Page) (i : Nat) :
    ((sweepPass w).bufTable i).core = (w.bufTable i).core := by
  rw [sweepPass_bufTable]
  split <;> simp

/-- A projection that one pass keeps, any number of passes keep. -/
theorem sweep_keeps {β : Type} (project : World Page → β)
    (kept : ∀ w, project (sweepPass w) = project w) (k : Nat) (w : World Page) :
    project (sweepPass^[k] w) = project w := by
  induction k with
  | zero => rfl
  | succ k ih => rw [Function.iterate_succ_apply', kept, ih]

@[simp] theorem sweep_numBufs (k : Nat) (w : World Page) :
    (sweepPass^[k] w).numBufs = w.numBufs := sweep_keeps (·.numBufs) sweepPass_numBufs k w
@[simp] theorem sweep_bufPool (k : Nat) (w : World Page) :
    (sweepPass^[k] w).bufPool = w.bufPool := sweep_keeps (·.bufPool) sweepPass_bufPool k w
@[simp] theorem sweep_hashTable (k : Nat) (w : World Page) :
    (sweepPass^[k] w).hashTable = w.hashTable := sweep_keeps (·.hashTable) sweepPass_hashTable k w
@[simp] theorem sweep_disk (k : Nat) (w : World Page) :
    (sweepPass^[k] w).disk = w.disk := sweep_keeps (·.disk) sweepPass_disk k w
@[simp] theorem sweep_calls (k : Nat) (w : World Page) :
    (sweepPass^[k] w).calls = w.calls := sweep_keeps (·.calls) sweepPass_calls k w
@[simp] theorem sweep_fault (k : Nat) (w : World Page) :
    (sweepPass^[k] w).fault = w.fault := sweep_keeps (·.fault) sweepPass_fault k w
@[simp] theorem sweep_fresh (k : Nat) (w : World Page) :
    (sweepPass^[k] w).fresh = w.fresh := sweep_keeps (·.fresh) sweepPass_fresh k w
@[simp] theorem sweep_core (k : Nat) (w : World Page) (i : Nat) :
    ((sweepPass^[k] w).bufTable i).core = (w.bufTable i).core :=
  sweep_keeps (fun w => (w.bufTable i).core) (fun w => sweepPass_core w i) k w

/-! ### The shape of every run of the loop -/

/-- The pass of the loop that returns, taken from the world `w` its sweep has left: the
invalid-frame branch or the victim branch, the hand having moved to `frameAt w 1`. -/
inductive Returns (w : World Page) : Except Status Nat × World Page → Prop
  | free : (w.bufTable (frameAt w 1)).valid = false →
      Returns w (.ok (w.bufTable (frameAt w 1)).frameNo,
        (advanceClock w).setDesc (frameAt w 1) (w.bufTable (frameAt w 1)).clear)
  | victim : (w.bufTable (frameAt w 1)).valid = true →
      (w.bufTable (frameAt w 1)).refbit = false → ¬ 0 < (w.bufTable (frameAt w 1)).pinCnt →
      Returns w (replaceFrame (advanceClock w))

/-- **Every run of the clock loop is `k` sweeping passes and then one that returns.** -/
theorem allocBufLoop_cases (fuel numPinnedPages : Nat) (w : World Page) :
    ∃ k, allocBufLoop fuel numPinnedPages w = (.error .bufferExceeded, sweepPass^[k] w) ∨
      Returns (sweepPass^[k] w) (allocBufLoop fuel numPinnedPages w) := by
  induction fuel generalizing numPinnedPages w with
  | zero => exact ⟨0, .inl rfl⟩
  | succ fuel ih =>
    rw [allocBufLoop]
    split
    · exact ⟨0, .inl rfl⟩
    · simp only
      split
      · rename_i free
        exact ⟨0, .inr (.free (by simpa using free))⟩
      · split
        · obtain ⟨k, result⟩ := ih numPinnedPages _
          refine ⟨k + 1, ?_⟩
          rwa [Function.iterate_succ_apply]
        · split
          · rename_i unreferenced pinned
            obtain ⟨k, result⟩ := ih (numPinnedPages + 1) (advanceClock w)
            have same : sweepPass w = advanceClock w := by
              rw [sweepPass, BufDesc.with_refbit_self (by simpa using unreferenced), setDesc_self]
            refine ⟨k + 1, ?_⟩
            rwa [Function.iterate_succ_apply, same]
          · rename_i valid unreferenced pinned
            exact ⟨0, .inr (.victim (by simpa using valid) (by simpa using unreferenced) pinned)⟩

/-! ### The victim branch -/

/-- The world after the write-back of frame `i`: nothing to do for a clean frame, its bytes on its
page for a dirty one. -/
inductive WroteBack (w : World Page) (i : Nat) : World Page → Prop
  | clean : (w.bufTable i).dirty = false → WroteBack w i w
  | written {id : FileId} : (w.bufTable i).dirty = true → (w.bufTable i).file = some id →
      WroteBack w i { w.record (.writePage (some id) (w.bufTable i).pageNo) with
        disk := w.disk.write id (w.bufTable i).pageNo (some (w.bufPool i)) }

/-- What the victim branch can do, from the world whose hand is on the victim. -/
inductive Replaced (w : World Page) : Except Status Nat × World Page → Prop
  | writeFailed : (w.bufTable w.clockHand).dirty = true →
      Replaced w (.error .unixErr, w.record (.writePage (w.bufTable w.clockHand).file
        (w.bufTable w.clockHand).pageNo))
  | removeFailed {w' : World Page} : WroteBack w w.clockHand w' →
      w.hashTable.frameOf (w.bufTable w.clockHand).key = none →
      Replaced w (.error .hashNotFound, w')
  | cleared {w' : World Page} : WroteBack w w.clockHand w' →
      (w.hashTable.frameOf (w.bufTable w.clockHand).key).isSome →
      Replaced w (.ok (w.bufTable w.clockHand).frameNo,
        { w'.setDesc w.clockHand (w.bufTable w.clockHand).clear with
          hashTable := w.hashTable.erase (w.bufTable w.clockHand).key })

theorem wroteBack_bufTable {w w' : World Page} {i : Nat} (back : WroteBack w i w') :
    w'.bufTable = w.bufTable ∧ w'.bufPool = w.bufPool ∧ w'.hashTable = w.hashTable ∧
      w'.numBufs = w.numBufs ∧ w'.clockHand = w.clockHand := by
  cases back <;> exact ⟨rfl, rfl, rfl, rfl, rfl⟩

/-- **The write-back fails, logging the write, or leaves the frame's bytes on its page.** -/
theorem writeBack_cases (w : World Page) (i : Nat) :
    (writeBack w i = (.unixErr, w.record (.writePage (w.bufTable i).file (w.bufTable i).pageNo)) ∧
        (w.bufTable i).dirty = true) ∨
      ∃ w', WroteBack w i w' ∧ writeBack w i = (.ok, w') := by
  unfold writeBack
  dsimp only
  split
  · rename_i dirty
    rcases File.writePage_cases (w.bufTable i).file (w.bufTable i).pageNo (w.bufPool i) w with
      failed | ⟨id, file, _, written⟩
    · exact .inl ⟨failed, dirty⟩
    · refine .inr ⟨_, ?_, written⟩
      have back := WroteBack.written (w := w) (i := i) dirty file
      rwa [← file] at back
  · rename_i clean
    exact .inr ⟨w, .clean (Bool.eq_false_iff.mpr clean), rfl⟩

/-- **The victim branch writes back, unindexes and clears, or fails with nothing cleared.** -/
theorem replaceFrame_cases (w : World Page) : Replaced w (replaceFrame w) := by
  unfold replaceFrame
  rcases writeBack_cases w w.clockHand with ⟨failed, dirty⟩ | ⟨w', back, written⟩
  · rw [failed]
    exact .writeFailed dirty
  · obtain ⟨_, _, table, _, hand⟩ := wroteBack_bufTable back
    rw [written]
    dsimp only
    rw [if_neg (not_not.mpr rfl), table, hand]
    split
    · rename_i status missing
      obtain ⟨rfl, absent⟩ := BufHashTbl.remove_eq_error missing
      exact .removeFailed back absent
    · rename_i removed
      obtain ⟨present, rfl⟩ := BufHashTbl.remove_eq_ok removed
      exact .cleared back present

end BufMgr

end Minirel
