/-
**The frame table and the residency index agree, in every reachable world.**

`Agree w` says: every descriptor's `frameNo` is its index; every valid frame is indexed under its
`(file, pageNo)`; every index entry names a valid frame below `numBufs` holding that key; every
invalid frame is unpinned, clean and has no file; the hand is on a frame; pin counts are not
negative.

It is preserved by every building block of the operations (`Agree.sweep`, `Agree.install`,
`Agree.evict`, `Agree.allocBuf`), hence by every call (`Agree.apply`), and it holds of the
constructor. The main result, `reachable_agree`, adds what follows from it: no page is resident
in two frames, and `flushFile` of a non-`NULL` file never answers `BADBUFFER`.
-/

import Minirel.Buffer.Clock

set_option linter.unusedSectionVars false

namespace Minirel

variable {Page : Type} [Inhabited Page]

open World BufMgr

/-- The frame table and the residency index agree. -/
structure Agree (w : World Page) : Prop where
  frameNo : ∀ i, (w.bufTable i).frameNo = i
  indexed : ∀ i < w.numBufs, (w.bufTable i).valid = true →
    w.hashTable.frameOf (w.bufTable i).key = some i
  entry : ∀ key i, w.hashTable.frameOf key = some i →
    i < w.numBufs ∧ (w.bufTable i).valid = true ∧ (w.bufTable i).key = key
  free : ∀ i < w.numBufs, (w.bufTable i).valid = false →
    (w.bufTable i).pinCnt = 0 ∧ (w.bufTable i).dirty = false ∧ (w.bufTable i).file = none
  hand : w.clockHand < w.numBufs ∨ w.numBufs = 0
  pinCnt : ∀ i, 0 ≤ (w.bufTable i).pinCnt

namespace Agree

variable {w w' : World Page}

/-- The constructor's world agrees: no frame is valid and the index is empty. -/
theorem init (bufs : Nat) (disk : Disk Page) (fault : Nat → Bool) (fresh : Nat → Int) :
    Agree (World.init bufs disk fault fresh) where
  frameNo _ := rfl
  indexed _ _ valid := by cases valid
  entry _ _ found := by cases found
  free _ _ _ := ⟨rfl, rfl, rfl⟩
  hand := by
    show bufs - 1 < bufs ∨ bufs = 0
    omega
  pinCnt _ := Int.le_refl 0

/-- Agreement reads only the table, the index, the size and the hand. -/
theorem congr (agree : Agree w) (table : w'.bufTable = w.bufTable)
    (index : w'.hashTable = w.hashTable) (bufs : w'.numBufs = w.numBufs)
    (hand : w'.clockHand = w.clockHand) : Agree w' := by
  obtain ⟨frameNo, indexed, entry, free, handOn, pins⟩ := agree
  rw [← table, ← index, ← bufs] at *
  rw [← hand] at handOn
  exact ⟨frameNo, indexed, entry, free, handOn, pins⟩

theorem record (agree : Agree w) (c : Call) : Agree (w.record c) :=
  agree.congr rfl rfl rfl rfl

theorem setPage (agree : Agree w) (i : Nat) (p : Page) : Agree (w.setPage i p) :=
  agree.congr rfl rfl rfl rfl

theorem withDisk (agree : Agree w) (disk : Disk Page) : Agree { w with disk := disk } :=
  agree.congr rfl rfl rfl rfl

/-- The hand, moved modulo the number of frames, is on a frame. -/
theorem mod_lt_or_zero (x n : Nat) : x % n < n ∨ n = 0 := by
  rcases Nat.eq_zero_or_pos n with empty | pos
  · exact .inr empty
  · exact .inl (Nat.mod_lt x pos)

/-- Agreement survives any change that keeps every descriptor's core, the index and the size,
and leaves the hand on a frame. -/
theorem of_core (agree : Agree w) (core : ∀ i, (w'.bufTable i).core = (w.bufTable i).core)
    (index : w'.hashTable = w.hashTable) (bufs : w'.numBufs = w.numBufs)
    (hand : w'.clockHand < w'.numBufs ∨ w'.numBufs = 0) : Agree w' := by
  have key : ∀ i, (w'.bufTable i).key = (w.bufTable i).key := fun i => by
    obtain ⟨file, pageNo, -⟩ := BufDesc.core_eq_iff.mp (core i)
    simp [BufDesc.key, file, pageNo]
  refine ⟨fun i => ?_, fun i bound valid => ?_, fun key' i found => ?_,
    fun i bound invalid => ?_, hand, fun i => ?_⟩ <;>
    obtain ⟨file, -, number, pins, dirty, valid'⟩ := BufDesc.core_eq_iff.mp (core i)
  · exact number.trans (agree.frameNo i)
  · rw [index, key]
    exact agree.indexed i (bufs ▸ bound) (valid' ▸ valid)
  · obtain ⟨bound, valid, named⟩ := agree.entry key' i (index ▸ found)
    exact ⟨bufs ▸ bound, valid'.trans valid, (key i).trans named⟩
  · obtain ⟨unpinned, clean, noFile⟩ := agree.free i (bufs ▸ bound) (valid' ▸ invalid)
    exact ⟨pins.trans unpinned, dirty.trans clean, file.trans noFile⟩
  · exact pins ▸ agree.pinCnt i

theorem advanceClock (agree : Agree w) : Agree (advanceClock w) :=
  agree.of_core (fun _ => rfl) rfl rfl (mod_lt_or_zero _ _)

theorem sweep (agree : Agree w) (k : Nat) : Agree (sweepPass^[k] w) := by
  refine agree.of_core (sweep_core k w) (sweep_hashTable k w) (sweep_numBufs k w) ?_
  cases k with
  | zero => exact agree.hand
  | succ k =>
    rw [Function.iterate_succ_apply', sweepPass_clockHand, sweepPass_numBufs]
    exact mod_lt_or_zero _ _

/-- An invalid frame stays invalid under a new descriptor that is unpinned, clean, without file
and keeps its number. -/
theorem clearFree (agree : Agree w) {i : Nat} (invalid : (w.bufTable i).valid = false)
    {desc : BufDesc} (stillInvalid : desc.valid = false) (unpinned : desc.pinCnt = 0)
    (clean : desc.dirty = false) (noFile : desc.file = none) (number : desc.frameNo = i) :
    Agree (w.setDesc i desc) := by
  refine ⟨fun i' => ?_, fun i' bound valid => ?_, fun key i' found => ?_,
    fun i' bound invalid' => ?_, agree.hand, fun i' => ?_⟩ <;>
    simp only [setDesc_bufTable_apply, setDesc_hashTable, setDesc_numBufs] at *
  · split_ifs with here
    · exact number.trans here.symm
    · exact agree.frameNo i'
  · split_ifs at valid ⊢ with here
    · simp [stillInvalid] at valid
    · exact agree.indexed i' bound valid
  · obtain ⟨bound, valid, named⟩ := agree.entry key i' found
    have other : i' ≠ i := fun same => by simp [same, invalid] at valid
    simp only [if_neg other]
    exact ⟨bound, valid, named⟩
  · split_ifs at invalid' ⊢ with here
    · exact ⟨unpinned, clean, noFile⟩
    · exact agree.free i' bound invalid'
  · split_ifs with here
    · exact unpinned ▸ Int.le_refl 0
    · exact agree.pinCnt i'

/-- A resident page leaves the pool: its frame gets a descriptor that is invalid, unpinned, clean,
without file and keeps its number, and its index entry is erased. -/
theorem evict (agree : Agree w) {i : Nat} {key : Option FileId × Int}
    (found : w.hashTable.frameOf key = some i) {desc : BufDesc} (invalid : desc.valid = false)
    (unpinned : desc.pinCnt = 0) (clean : desc.dirty = false) (noFile : desc.file = none)
    (number : desc.frameNo = i) :
    Agree { w.setDesc i desc with hashTable := w.hashTable.erase key } := by
  obtain ⟨_, _, named⟩ := agree.entry key i found
  refine ⟨fun i' => ?_, fun i' bound valid => ?_, fun key' i' found' => ?_,
    fun i' bound invalid' => ?_, agree.hand, fun i' => ?_⟩ <;>
    simp only [setDesc_bufTable_apply, setDesc_numBufs, BufHashTbl.erase_frameOf] at *
  · split_ifs with here
    · exact number.trans here.symm
    · exact agree.frameNo i'
  · by_cases here : i' = i
    · simp [here, invalid] at valid
    · simp only [if_neg here] at valid ⊢
      have indexed := agree.indexed i' bound valid
      have distinct : (w.bufTable i').key ≠ key := fun same => by
        rw [same, found] at indexed
        exact here (Option.some.inj indexed).symm
      rw [if_neg distinct]
      exact indexed
  · split_ifs at found' with erased
    obtain ⟨bound, valid, named'⟩ := agree.entry key' i' found'
    have other : i' ≠ i := fun same => erased (named'.symm.trans (same ▸ named))
    simp only [if_neg other]
    exact ⟨bound, valid, named'⟩
  · split_ifs at invalid' ⊢ with here
    · exact ⟨unpinned, clean, noFile⟩
    · exact agree.free i' bound invalid'
  · split_ifs with here
    · exact unpinned ▸ Int.le_refl 0
    · exact agree.pinCnt i'

/-- A page enters the pool: a free frame below `numBufs` gets a valid descriptor for a key the
index does not hold, and the index maps the key to the frame. -/
theorem install (agree : Agree w) {j : Nat} (bound : j < w.numBufs)
    (invalid : (w.bufTable j).valid = false) {key : Option FileId × Int}
    (absent : w.hashTable.frameOf key = none) {desc : BufDesc} (valid : desc.valid = true)
    (named : desc.key = key) (number : desc.frameNo = j) (pins : 0 ≤ desc.pinCnt) :
    Agree { w.setDesc j desc with
      hashTable := ⟨Function.update w.hashTable.frameOf key (some j)⟩ } := by
  refine ⟨fun i' => ?_, fun i' bound' valid' => ?_, fun key' i' found => ?_,
    fun i' bound' invalid' => ?_, agree.hand, fun i' => ?_⟩ <;>
    simp only [setDesc_bufTable_apply, setDesc_numBufs, Function.update_apply] at *
  · split_ifs with here
    · exact number.trans here.symm
    · exact agree.frameNo i'
  · by_cases here : i' = j
    · simp [here, named]
    · simp only [if_neg here] at valid' ⊢
      have indexed := agree.indexed i' bound' valid'
      have distinct : (w.bufTable i').key ≠ key := fun same => by
        rw [same, absent] at indexed
        cases indexed
      rw [if_neg distinct]
      exact indexed
  · split_ifs at found with same
    · cases found
      simp only [if_true]
      exact ⟨bound, valid, named.trans same.symm⟩
    · obtain ⟨bound', valid', named'⟩ := agree.entry key' i' found
      have other : i' ≠ j := fun here => by simp [here, invalid] at valid'
      simp only [if_neg other]
      exact ⟨bound', valid', named'⟩
  · split_ifs at invalid' ⊢ with here
    · simp [valid] at invalid'
    · exact agree.free i' bound' invalid'
  · split_ifs with here
    · exact pins
    · exact agree.pinCnt i'

theorem wroteBack {i : Nat} (agree : Agree w) (back : WroteBack w i w') : Agree w' := by
  cases back with
  | clean => exact agree
  | written => exact (agree.record _).withDisk _

/-- **`allocBuf` keeps agreement, and hands out a free frame below `numBufs`.** -/
theorem allocBuf (agree : Agree w) :
    Agree (BufMgr.allocBuf w).2 ∧ (BufMgr.allocBuf w).2.numBufs = w.numBufs ∧
      ∀ j, (BufMgr.allocBuf w).1 = .ok j →
        j < w.numBufs ∧ ((BufMgr.allocBuf w).2.bufTable j).valid = false := by
  rcases Nat.eq_zero_or_pos w.numBufs with empty | pos
  · have exceeded : BufMgr.allocBuf w = (.error .bufferExceeded, w) := by
      simp [BufMgr.allocBuf, allocBufLoop, empty]
    rw [exceeded]
    exact ⟨agree, rfl, fun _ found => by cases found⟩
  obtain ⟨k, exceeded | returns⟩ := allocBufLoop_cases (2 * w.numBufs + 1) 0 w
  · rw [BufMgr.allocBuf, exceeded]
    exact ⟨agree.sweep k, sweep_numBufs k w, fun _ found => by cases found⟩
  have swept := agree.sweep k
  have bound : frameAt (sweepPass^[k] w) 1 < w.numBufs := by
    simpa [frameAt] using Nat.mod_lt _ pos
  rw [BufMgr.allocBuf]
  generalize allocBufLoop (2 * w.numBufs + 1) 0 w = result at returns ⊢
  cases returns with
  | free invalid =>
    refine ⟨swept.advanceClock.clearFree invalid rfl rfl rfl rfl (swept.frameNo _), by simp,
      fun j handed => ?_⟩
    cases handed
    rw [swept.frameNo]
    exact ⟨bound, by simp⟩
  | victim valid _ _ =>
    have moved := swept.advanceClock
    have replaced := replaceFrame_cases (BufMgr.advanceClock (sweepPass^[k] w))
    generalize replaceFrame (BufMgr.advanceClock (sweepPass^[k] w)) = result at replaced ⊢
    rcases replaced with _ | ⟨back, _⟩ | ⟨back, _⟩
    · exact ⟨moved.record _, by simp, fun _ found => by cases found⟩
    · obtain ⟨_, _, _, bufs, _⟩ := wroteBack_bufTable back
      exact ⟨moved.wroteBack back, by simp [bufs], fun _ found => by cases found⟩
    · obtain ⟨table, _, index, bufs, hand⟩ := wroteBack_bufTable back
      have found := moved.indexed _ (by simpa using bound) (by simpa using valid)
      rw [← index, ← table] at found ⊢
      refine ⟨(moved.wroteBack back).evict found rfl rfl rfl rfl ?_, by simp [bufs],
        fun j handed => ?_⟩
      · exact (moved.wroteBack back).frameNo _
      · cases handed
        rw [(moved.wroteBack back).frameNo]
        simpa [hand] using Nat.mod_lt _ pos

/-- A resident page's descriptor changes without moving: still valid, same key and number. -/
theorem touch (agree : Agree w) {j : Nat} {key : Option FileId × Int}
    (found : w.hashTable.frameOf key = some j) {desc : BufDesc} (valid : desc.valid = true)
    (named : desc.key = key) (number : desc.frameNo = j) (pins : 0 ≤ desc.pinCnt) :
    Agree (w.setDesc j desc) := by
  obtain ⟨bound, wasValid, wasNamed⟩ := agree.entry key j found
  refine ⟨fun i' => ?_, fun i' bound' valid' => ?_, fun key' i' found' => ?_,
    fun i' bound' invalid' => ?_, agree.hand, fun i' => ?_⟩ <;>
    simp only [setDesc_bufTable_apply, setDesc_numBufs, setDesc_hashTable] at *
  · split_ifs with here
    · exact number.trans here.symm
    · exact agree.frameNo i'
  · split_ifs at valid' ⊢ with here
    · subst here
      rw [named, found]
    · exact agree.indexed i' bound' valid'
  · obtain ⟨bound'', valid'', named'⟩ := agree.entry key' i' found'
    split_ifs with here
    · subst here
      exact ⟨bound'', valid, named.trans (wasNamed.symm.trans named')⟩
    · exact ⟨bound'', valid'', named'⟩
  · split_ifs at invalid' ⊢ with here
    · simp [valid] at invalid'
    · exact agree.free i' bound' invalid'
  · split_ifs with here
    · exact pins
    · exact agree.pinCnt i'

theorem fileDispose (agree : Agree w) (file pageNo) :
    Agree (File.disposePage file pageNo w).2 := by
  rcases File.disposePage_cases file pageNo w with failed | ⟨_, _, disposed⟩
  · rw [failed]; exact agree.record _
  · rw [disposed]; exact (agree.record _).withDisk _

theorem fileAllocate (agree : Agree w) (file) : Agree (File.allocatePage file w).2 := by
  rcases File.allocatePage_cases file w with failed | ⟨_, _, _, _, _, allocated⟩
  · rw [failed]; exact agree.record _
  · rw [allocated]; exact (agree.record _).withDisk _

theorem fileAllocated (agree : Agree w) {file : Option FileId} {result : Except Status Int}
    (offered : File.allocatePage file w = (result, w')) : Agree w' := by
  simpa [offered] using agree.fileAllocate file

theorem disposePage (agree : Agree w) (file pageNo) :
    Agree (BufMgr.disposePage file pageNo w).2 := by
  unfold BufMgr.disposePage
  apply fileDispose
  cases found : w.hashTable.frameOf (file, pageNo) with
  | some j =>
    simp only [BufHashTbl.lookup_eq, found, setDesc_hashTable,
      BufHashTbl.remove_of_isSome (by simp [found] : (w.hashTable.frameOf (file, pageNo)).isSome)]
    exact agree.evict found rfl rfl rfl rfl (agree.frameNo j)
  | none =>
    have missing : w.hashTable.remove file pageNo = .error .hashNotFound := by
      simp [BufHashTbl.remove, found]
    simp only [BufHashTbl.lookup_eq, found, missing]
    exact agree

theorem readPage (agree : Agree w) (file pageNo page) :
    Agree (BufMgr.readPage file pageNo page w).2.2 := by
  unfold BufMgr.readPage
  cases found : w.hashTable.frameOf (file, pageNo) with
  | some j =>
    simp only [BufHashTbl.lookup_eq, found]
    obtain ⟨_, valid, named⟩ := agree.entry _ j found
    have pins := agree.pinCnt j
    exact agree.touch found valid named (agree.frameNo j) (by simp; omega)
  | none =>
    simp only [BufHashTbl.lookup_eq, found]
    obtain ⟨allocated, bufs, handed⟩ := agree.allocBuf
    revert allocated bufs handed
    generalize BufMgr.allocBuf w = result
    obtain ⟨_ | frame, w₁⟩ := result
    · intro allocated _ _
      exact allocated
    intro allocated bufs handed
    obtain ⟨bound, free⟩ := handed frame rfl
    dsimp only at *
    rcases File.readPage_cases file pageNo w₁ with failed | ⟨bytes, _, read⟩
    · rw [failed]
      exact (allocated.record _).disposePage file pageNo
    rw [read]
    dsimp only [newBucket]
    split
    · exact ((allocated.record _).setPage _ _).record _
    · rename_i table inserted
      obtain ⟨absent, rfl⟩ := BufHashTbl.insert_eq_ok inserted
      exact ((allocated.record _).setPage _ _).record _ |>.install (by simp; omega)
        (by simpa using free) absent rfl rfl rfl (by simp)

theorem unPinPage (agree : Agree w) (file pageNo dirty) :
    Agree (BufMgr.unPinPage file pageNo dirty w).2 := by
  unfold BufMgr.unPinPage
  cases found : w.hashTable.frameOf (file, pageNo) with
  | none => simpa [found] using agree
  | some j =>
    simp only [BufHashTbl.lookup_eq, found]
    obtain ⟨_, valid, named⟩ := agree.entry _ j found
    split
    · exact agree
    · rename_i pinned
      have pins := agree.pinCnt j
      cases dirty <;>
        exact agree.touch found valid named (agree.frameNo j) (by simp; omega)

theorem allocPage (agree : Agree w) (file) : Agree (BufMgr.allocPage file w).2 := by
  unfold BufMgr.allocPage
  have allocated := agree.fileAllocate file
  revert allocated
  generalize File.allocatePage file w = result
  obtain ⟨_ | pageNum, w₁⟩ := result
  · exact id
  intro allocated
  dsimp only
  obtain ⟨taken, bufs, handed⟩ := allocated.allocBuf
  revert taken bufs handed
  generalize BufMgr.allocBuf w₁ = result
  obtain ⟨_ | frame, w₂⟩ := result
  · intro taken _ _
    exact taken
  intro taken bufs handed
  obtain ⟨bound, free⟩ := handed frame rfl
  dsimp only [newBucket] at *
  split
  · exact taken.record _
  · rename_i table inserted
    obtain ⟨absent, rfl⟩ := BufHashTbl.insert_eq_ok inserted
    exact (taken.record _).install (by simp; omega) (by simpa using free) absent
      rfl rfl ((taken.record _).frameNo frame) (by simp)

/-- `flushFile`'s loop keeps agreement, and through a non-`NULL` file never finds a stale
invalid frame. -/
theorem flushFileFrom (file : Option FileId) :
    ∀ (frames : List Nat) {w : World Page}, Agree w → (∀ i ∈ frames, i < w.numBufs) →
      Agree (BufMgr.flushFileFrom file frames w).2 ∧
        (file ≠ none → (BufMgr.flushFileFrom file frames w).1 ≠ .badBuffer)
  | [], _, agree, _ => ⟨agree, fun _ => by simp [BufMgr.flushFileFrom]⟩
  | i :: rest, w, agree, bound => by
    have here : i < w.numBufs := bound i (List.mem_cons_self i rest)
    have later : ∀ i' ∈ rest, i' < w.numBufs := fun i' mem => bound i' (List.mem_cons_of_mem i mem)
    simp only [BufMgr.flushFileFrom]
    split
    · rename_i matching
      split
      · exact ⟨agree, fun _ => by simp⟩
      · rename_i unpinned
        rcases writeBack_cases w i with ⟨failed, _⟩ | ⟨w', back, written⟩
        · rw [failed]
          exact ⟨agree.record _, fun _ => by simp⟩
        rw [written]
        obtain ⟨table, _, index, bufs, _⟩ := wroteBack_bufTable back
        have found := agree.indexed i here matching.1
        have named : (w.bufTable i).key = (file, (w.bufTable i).pageNo) := by
          simp [BufDesc.key, matching.2]
        rw [named, ← index] at found
        dsimp only
        rw [if_neg (not_not.mpr rfl), BufHashTbl.remove_of_isSome (by simp [found]),
          setDesc_withIndex]
        have pins := agree.pinCnt i
        rw [← table] at unpinned pins found ⊢
        apply flushFileFrom file rest ((agree.wroteBack back).evict found rfl ?_ rfl rfl ?_)
        · simpa [bufs] using later
        · simp only
          omega
        · simp [(agree.wroteBack back).frameNo]
    · split
      · rename_i stale
        refine ⟨agree, fun named => absurd ?_ named⟩
        rw [← stale.2]
        exact (agree.free i here stale.1).2.2
      · exact flushFileFrom file rest agree later

theorem flushFile (agree : Agree w) (file) : Agree (BufMgr.flushFile file w).2 :=
  (flushFileFrom file _ agree fun _ mem => List.mem_range.mp mem).1

theorem writeFrame (agree : Agree w) (file pageNo) (bytes : Page) :
    Agree (BufMgr.writeFrame file pageNo bytes w) := by
  unfold BufMgr.writeFrame
  split
  · split
    · exact agree.setPage _ _
    · exact agree
  · exact agree

/-- **Every call keeps agreement.** -/
theorem apply (agree : Agree w) : ∀ op : Op Page, Agree (op.apply w).2
  | .readPage file pageNo => agree.readPage file pageNo none
  | .allocPage file => by simpa using agree.allocPage file
  | .unPinPage file pageNo dirty => agree.unPinPage file pageNo dirty
  | .disposePage file pageNo => agree.disposePage file pageNo
  | .flushFile file => agree.flushFile file
  | .write file pageNo bytes => agree.writeFrame file pageNo bytes

theorem reachable {w : World Page} (reach : Reachable w) : Agree w := by
  induction reach with
  | init bufs disk fault fresh => exact init bufs disk fault fresh
  | step op _ agree => exact agree.apply op

end Agree

/-- **In every reachable world the frame table and the residency index agree exactly**: each
descriptor's `frameNo` is its index, each valid frame is indexed under its `(file, pageNo)`, each
index entry names a valid frame below `numBufs` holding that key, and each invalid frame is
unpinned, clean and without file. Hence no page is resident in two frames, and `flushFile` of a
non-`NULL` file never returns `BADBUFFER`. -/
theorem reachable_agree {w : World Page} (reach : Reachable w) :
    Agree w ∧
      (∀ i < w.numBufs, ∀ i' < w.numBufs, (w.bufTable i).valid = true →
        (w.bufTable i').valid = true → (w.bufTable i).key = (w.bufTable i').key → i = i') ∧
      ∀ file : FileId, (BufMgr.flushFile (some file) w).1 ≠ .badBuffer := by
  have agree := Agree.reachable reach
  refine ⟨agree, fun i bound i' bound' valid valid' same => ?_, fun file => ?_⟩
  · have first := agree.indexed i bound valid
    rw [same, agree.indexed i' bound' valid'] at first
    exact (Option.some.inj first).symm
  · exact (Agree.flushFileFrom (some file) _ agree fun _ mem => List.mem_range.mp mem).2
      (Option.some_ne_none file)

/-- Three frames over a store where every page of file `0` exists: pages `0` and `1` are read and
stay pinned, page `2` is read and released, and page `3` is read (after a full sweep it takes page
`2`'s frame, leaving pages `0` and `1` unreferenced) and released. -/
def countingRun : World Nat :=
  (Op.exec (World.init 3 ⟨fun _ _ => some 0, fun _ => none⟩ (fun _ => false) (fun _ => 0))
    [.readPage (some 0) 0, .readPage (some 0) 1, .readPage (some 0) 2, .unPinPage (some 0) 2 false,
      .readPage (some 0) 3, .unPinPage (some 0) 3 false]).2

theorem countingRun_agree :
    Reachable countingRun ∧ Agree countingRun ∧
      (∀ i < countingRun.numBufs, ∀ i' < countingRun.numBufs,
        (countingRun.bufTable i).valid = true → (countingRun.bufTable i').valid = true →
          (countingRun.bufTable i).key = (countingRun.bufTable i').key → i = i') ∧
      ∀ file : FileId, (BufMgr.flushFile (some file) countingRun).1 ≠ .badBuffer :=
  ⟨(Reachable.init _ _ _ _).exec _, reachable_agree ((Reachable.init _ _ _ _).exec _)⟩

end Minirel
