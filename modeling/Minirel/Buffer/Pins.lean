/-
**Pins: the client's count and the pool's.**

A client counts its pins on a page `key` from the calls it made and their replies (`pins`): one
for each `readPage` of the page and each `allocPage` returning it that succeeded, one less for
each `unPinPage` of it that succeeded, none after a `disposePage` of it. The pool holds its own
count, `pinsOf`: the `pinCnt` of the page's frame if the page is resident.

* `PinMove`: what one call does to the pool's pins, read through the index — every count moves
  as the client's does (`pins`), no resident page changes frame (`stay`), a failed call changes
  no frame's `pinCnt` but that of the page it disposes of (`failed`), and a call that takes a
  count from `0` to `1` replies with the page's frame (`frame`).
* `pinMove_apply`: every call, from a world where frames and index agree, is such a move.
-/

import Minirel.Buffer.Calls
import Mathlib.Data.List.Infix

set_option linter.unusedSectionVars false

namespace Minirel

variable {Page : Type} [Inhabited Page]

open World BufMgr

/-! ### The pool's count -/

/-- The pins the pool holds on the page `key`: its frame's count if it is resident, else none. -/
def pinsOf (w : World Page) (key : Option FileId × Int) : Int :=
  match w.hashTable.frameOf key with
  | some i => (w.bufTable i).pinCnt
  | none => 0

section PoolCount

variable {w w' : World Page} {key : Option FileId × Int} {i j : Nat}

theorem pinsOf_of_found (found : w.hashTable.frameOf key = some i) :
    pinsOf w key = (w.bufTable i).pinCnt := by
  simp [pinsOf, found]

theorem pinsOf_of_absent (absent : w.hashTable.frameOf key = none) : pinsOf w key = 0 := by
  simp [pinsOf, absent]

theorem pinsOf_congr (index : w'.hashTable = w.hashTable)
    (pins : ∀ i, (w'.bufTable i).pinCnt = (w.bufTable i).pinCnt) : pinsOf w' = pinsOf w := by
  funext key
  unfold pinsOf
  rw [index]
  split <;> simp [pins]

/-- Two pages indexed to one frame are one page. -/
theorem Agree.key_eq (agree : Agree w) {key' : Option FileId × Int}
    (found : w.hashTable.frameOf key = some i) (found' : w.hashTable.frameOf key' = some i) :
    key = key' :=
  (agree.entry key i found).2.2.symm.trans (agree.entry key' i found').2.2

/-- No page is indexed to an invalid frame. -/
theorem Agree.not_found_free (agree : Agree w) (free : (w.bufTable j).valid = false)
    (key : Option FileId × Int) : w.hashTable.frameOf key ≠ some j := fun found => by
  simp [(agree.entry key j found).2.1] at free

/-- A resident page's descriptor changes in place. -/
theorem pinsOf_touch (agree : Agree w) (found : w.hashTable.frameOf key = some i) (desc : BufDesc)
    (other : Option FileId × Int) :
    pinsOf (w.setDesc i desc) other = if other = key then desc.pinCnt else pinsOf w other := by
  unfold pinsOf
  simp only [setDesc_hashTable, setDesc_bufTable_apply]
  split_ifs with same
  · simp [same, found]
  · split
    · rename_i i' found'
      rw [if_neg (show i' ≠ i from fun here => same (agree.key_eq found' (here ▸ found)))]
    · rfl

/-- A page enters a free frame. -/
theorem pinsOf_install (agree : Agree w) (key : Option FileId × Int)
    (free : (w.bufTable j).valid = false) (desc : BufDesc)
    (other : Option FileId × Int) :
    pinsOf { w.setDesc j desc with
        hashTable := ⟨Function.update w.hashTable.frameOf key (some j)⟩ } other =
      if other = key then desc.pinCnt else pinsOf w other := by
  unfold pinsOf
  simp only [Function.update_apply, setDesc_bufTable_apply]
  split_ifs with same
  · simp
  · split
    · rename_i i' found'
      rw [if_neg (show i' ≠ j from fun here => agree.not_found_free free other (here ▸ found'))]
    · rfl

/-- A resident page leaves its frame. -/
theorem pinsOf_evict (agree : Agree w) (found : w.hashTable.frameOf key = some i) (desc : BufDesc)
    (other : Option FileId × Int) :
    pinsOf { w.setDesc i desc with hashTable := w.hashTable.erase key } other =
      if other = key then 0 else pinsOf w other := by
  unfold pinsOf
  simp only [BufHashTbl.erase_frameOf, setDesc_bufTable_apply]
  split_ifs with same
  · rfl
  · split
    · rename_i i' found'
      rw [if_neg (show i' ≠ i from fun here => same (agree.key_eq found' (here ▸ found)))]
    · rfl

/-- The frame `allocBuf` hands out was unpinned, so handing it out moves no count. -/
theorem pinsOf_handed (agree : Agree w) (bound : j < w.numBufs) (handed : Handed w j w')
    (unpinned : (w.bufTable j).pinCnt = 0) : pinsOf w' = pinsOf w := by
  funext other
  have kept : ∀ i, i ≠ j → (w'.bufTable i).pinCnt = (w.bufTable i).pinCnt := fun i ne =>
    (BufDesc.core_eq_iff.mp (handed.others i ne)).2.2.2.1
  unfold pinsOf
  rw [handed.hashTable]
  split_ifs with valid
  · rw [BufHashTbl.erase_frameOf]
    split_ifs with same
    · rw [same, agree.indexed j bound valid]
      exact unpinned.symm
    · split
      · rename_i i found
        exact kept i fun here => same (agree.key_eq found (here ▸ agree.indexed j bound valid))
      · rfl
  · split
    · rename_i i found
      exact kept i fun here => agree.not_found_free (by simpa using valid) other (here ▸ found)
    · rfl

end PoolCount

/-! ### The client's count -/

/-- How one call with its reply moves the client's count of pins on `key`. -/
def pinStep (key : Option FileId × Int) (pins : Int) : Op Page × Reply → Int
  | (.readPage file pageNo, reply) =>
    if (file, pageNo) = key ∧ reply.status = .ok then pins + 1 else pins
  | (.allocPage file, reply) =>
    if reply.status = .ok ∧ reply.pageNo.map (file, ·) = some key then pins + 1 else pins
  | (.unPinPage file pageNo _, reply) =>
    if (file, pageNo) = key ∧ reply.status = .ok then pins - 1 else pins
  | (.disposePage file pageNo, _) => if (file, pageNo) = key then 0 else pins
  | (.flushFile _, _) => pins
  | (.write _ _ _, _) => pins

/-- The client's count of pins on `key` after the calls of `history`, oldest first. -/
def pins (history : List (Op Page × Reply)) (key : Option FileId × Int) : Int :=
  history.foldl (pinStep key) 0

/-! ### One call -/

/-- What one call with its reply does to the pool's pins, read through the index. -/
structure PinMove (w w' : World Page) (op : Op Page) (reply : Reply) : Prop where
  pins : ∀ key, pinsOf w' key = pinStep key (pinsOf w key) (op, reply)
  stay : ∀ key i i', w.hashTable.frameOf key = some i → 0 < (w.bufTable i).pinCnt →
    w'.hashTable.frameOf key = some i' → i' = i
  failed : reply.status ≠ .ok → ∀ i,
    (∀ file pageNo, op = .disposePage file pageNo → w.hashTable.frameOf (file, pageNo) ≠ some i) →
      (w'.bufTable i).pinCnt = (w.bufTable i).pinCnt
  frame : ∀ key, pinStep key 0 (op, reply) = 1 → w'.hashTable.frameOf key = reply.frame

section Calls

variable {w : World Page}

theorem raised_readPage {key : Option FileId × Int} {file : Option FileId} {pageNo : Int}
    {reply : Reply} (raised : pinStep key 0 ((.readPage file pageNo : Op Page), reply) = 1) :
    (file, pageNo) = key ∧ reply.status = .ok := by
  simp only [pinStep] at raised
  split_ifs at raised with read
  · exact read
  · omega

theorem pinMove_readPage (agree : Agree w) (file : Option FileId) (pageNo : Int) :
    PinMove w (readPage file pageNo none w).2.2 (.readPage file pageNo)
      ⟨(readPage file pageNo none w).1, none, (readPage file pageNo none w).2.1⟩ := by
  have outcome := readPage_cases file pageNo none w
  generalize readPage file pageNo none w = result at outcome ⊢
  cases outcome with
  | hit found =>
    dsimp only
    refine ⟨fun key => ?_, fun key i i' found' _ found'' => ?_, fun failed => absurd rfl failed,
      fun key raised => ?_⟩
    · rcases eq_or_ne key (file, pageNo) with rfl | other
      · simp [pinStep, pinsOf_touch agree found, pinsOf_of_found found]
      · simp [pinStep, pinsOf_touch agree found, other, Ne.symm other]
    · exact Option.some.inj (found''.symm.trans found')
    · rw [← (raised_readPage raised).1]
      exact found
  | noFrame absent allocated =>
    obtain ⟨failed, core, index, -, -⟩ := allocBuf_failed agree allocated
    have pinned i := (BufDesc.core_eq_iff.mp (core i)).2.2.2.1
    dsimp only
    refine ⟨fun key => ?_, fun key i i' found _ found' => ?_, fun _ i _ => pinned i,
      fun key raised => absurd (raised_readPage raised).2 failed⟩
    · simp [pinStep, pinsOf_congr index pinned, failed]
    · rw [index] at found'
      exact Option.some.inj (found'.symm.trans found)
  | @readFailed j w₁ absent allocated =>
    obtain ⟨bound, handed, unpinned⟩ := allocBuf_handed agree allocated
    obtain ⟨table, index, -⟩ :=
      disposePage_absent (w := w₁.record (.readPage file pageNo)) (handed.absent absent)
    have pinned i := congrFun table i
    dsimp only
    refine ⟨fun key => ?_, fun key i i' found _ found' => ?_,
      fun _ i _ => by rw [pinned]; exact handed.pinCnt unpinned i,
      fun key raised => by simpa using (raised_readPage raised).2⟩
    · rw [pinsOf_congr index fun i => by rw [pinned]]
      simpa [pinStep] using congrFun (pinsOf_handed agree bound handed unpinned) key
    · rw [index] at found'
      exact Option.some.inj ((handed.frameOf found').symm.trans found)
  | unindexed absent allocated stored =>
    obtain ⟨bound, handed, unpinned⟩ := allocBuf_handed agree allocated
    dsimp only
    refine ⟨fun key => ?_, fun key i i' found _ found' => ?_,
      fun _ i _ => handed.pinCnt unpinned i,
      fun key raised => by simpa using (raised_readPage raised).2⟩
    · simpa [pinStep] using congrFun (pinsOf_handed agree bound handed unpinned) key
    · exact Option.some.inj ((handed.frameOf found').symm.trans found)
  | @loaded j w₁ bytes absent allocated stored fresh =>
    obtain ⟨bound, handed, unpinned⟩ := allocBuf_handed agree allocated
    have agree₁ : Agree w₁ := by simpa [allocated] using agree.allocBuf.1
    have installed := pinsOf_install
      (((agree₁.record (.readPage file pageNo)).setPage j bytes).record .newBucket)
      (file, pageNo) handed.free
    dsimp only
    refine ⟨fun key => ?_, fun key i i' found _ found' => ?_, fun failed => absurd rfl failed,
      fun key raised => ?_⟩
    · refine (installed _ key).trans ?_
      rcases eq_or_ne key (file, pageNo) with rfl | other
      · simp [pinStep, pinsOf_of_absent absent]
      · simp only [pinStep, if_neg other, Ne.symm other, false_and, if_false]
        exact congrFun (pinsOf_handed agree bound handed unpinned) key
    · simp only [Function.update_apply] at found'
      split_ifs at found' with same
      · rw [same, absent] at found
        cases found
      · exact Option.some.inj ((handed.frameOf found').symm.trans found)
    · obtain ⟨rfl, -⟩ := raised_readPage raised
      exact Function.update_same _ _ _

theorem raised_allocPage {key : Option FileId × Int} {file : Option FileId} {reply : Reply}
    (raised : pinStep key 0 ((.allocPage file : Op Page), reply) = 1) :
    reply.status = .ok ∧ reply.pageNo.map (file, ·) = some key := by
  simp only [pinStep] at raised
  split_ifs at raised with allocated
  · exact allocated
  · omega

theorem pinMove_allocPage (agree : Agree w) (file : Option FileId) :
    PinMove w ((Op.allocPage file).apply w).2 (.allocPage file) ((Op.allocPage file).apply w).1 := by
  simp only [Op.apply]
  have outcome := allocPage_cases file w
  generalize allocPage file w = result at outcome ⊢
  cases outcome with
  | noPage =>
    dsimp only
    refine ⟨fun key => ?_, fun key i i' found _ found' => ?_, fun _ i _ => rfl,
      fun key raised => by simpa using (raised_allocPage raised).1⟩
    · simp [pinStep, pinsOf]
    · exact Option.some.inj (found'.symm.trans found)
  | @noFrame pageNum status w₁ w₂ offered allocated =>
    obtain ⟨table, index, -⟩ := File.allocatePage_frames offered
    dsimp only
    have agree₁ := agree.fileAllocated offered
    obtain ⟨failed, core, index₂, -, -⟩ := allocBuf_failed agree₁ allocated
    have pinned i : (w₂.bufTable i).pinCnt = (w.bufTable i).pinCnt := by
      rw [(BufDesc.core_eq_iff.mp (core i)).2.2.2.1, table]
    refine ⟨fun key => ?_, fun key i i' found _ found' => ?_, fun _ i _ => pinned i,
      fun key raised => absurd (raised_allocPage raised).1 failed⟩
    · simp [pinStep, pinsOf_congr (index₂.trans index) pinned, failed]
    · rw [index₂, index] at found'
      exact Option.some.inj (found'.symm.trans found)
  | @unindexed pageNum j w₁ w₂ offered allocated =>
    obtain ⟨table, index, -⟩ := File.allocatePage_frames offered
    have agree₁ := agree.fileAllocated offered
    obtain ⟨bound, handed, unpinned⟩ := allocBuf_handed agree₁ allocated
    have moved : pinsOf w₁ = pinsOf w := pinsOf_congr index fun i => by rw [table]
    dsimp only
    refine ⟨fun key => ?_, fun key i i' found _ found' => ?_,
      fun _ i _ => (handed.pinCnt unpinned i).trans (by rw [table]),
      fun key raised => by simpa using (raised_allocPage raised).1⟩
    · simpa [pinStep, ← moved] using congrFun (pinsOf_handed agree₁ bound handed unpinned) key
    · have found₁ := handed.frameOf found'
      rw [index] at found₁
      exact Option.some.inj (found₁.symm.trans found)
  | @allocated pageNum j w₁ w₂ offered allocated absent =>
    obtain ⟨table, index, -⟩ := File.allocatePage_frames offered
    have agree₁ := agree.fileAllocated offered
    obtain ⟨bound, handed, unpinned⟩ := allocBuf_handed agree₁ allocated
    have agree₂ : Agree w₂ := by simpa [allocated] using agree₁.allocBuf.1
    have moved : pinsOf w₂ = pinsOf w :=
      (pinsOf_handed agree₁ bound handed unpinned).trans (pinsOf_congr index fun i => by rw [table])
    have installed := pinsOf_install (agree₂.record .newBucket) (file, pageNum)
      handed.free
    dsimp only
    refine ⟨fun key => (installed _ key).trans ?_, fun key i i' found pinned found' => ?_,
      fun failed => absurd rfl failed, fun key raised => ?_⟩
    · rcases eq_or_ne key (file, pageNum) with rfl | other
      · simp [pinStep, ← moved, pinsOf_of_absent absent]
      · simp only [pinStep, if_neg other, Option.map_some', Option.some.injEq, Ne.symm other,
          and_false, if_false]
        exact congrFun moved key
    · simp only [Function.update_apply] at found'
      split_ifs at found' with same
      · rw [same, ← index] at found
        rw [← table] at pinned
        rw [handed.kept agree₁ bound unpinned found pinned] at absent
        cases absent
      · have found₁ := handed.frameOf found'
        rw [index] at found₁
        exact Option.some.inj (found₁.symm.trans found)
    · obtain ⟨-, named⟩ := raised_allocPage raised
      simp only [Option.map_some', Option.some.injEq] at named
      rw [← named]
      exact Function.update_same _ _ _

theorem pinMove_unPinPage (agree : Agree w) (file : Option FileId) (pageNo : Int) (dirty : Bool) :
    PinMove w (unPinPage file pageNo dirty w).2 (.unPinPage file pageNo dirty)
      ⟨(unPinPage file pageNo dirty w).1, none, none⟩ := by
  have lowered : ∀ key reply, pinStep key 0 ((.unPinPage file pageNo dirty : Op Page), reply) ≠ 1 :=
    fun key reply raised => by
      simp only [pinStep] at raised
      split_ifs at raised <;> omega
  unfold unPinPage
  cases found : w.hashTable.frameOf (file, pageNo) with
  | none =>
    simp only [BufHashTbl.lookup_eq, found]
    exact ⟨fun key => by simp [pinStep], fun key i i' found _ found' =>
      Option.some.inj (found'.symm.trans found), fun _ _ _ => rfl,
      fun key raised => absurd raised (lowered key _)⟩
  | some i =>
    simp only [BufHashTbl.lookup_eq, found]
    split
    · exact ⟨fun key => by simp [pinStep], fun key i i' found _ found' =>
        Option.some.inj (found'.symm.trans found), fun _ _ _ => rfl,
        fun key raised => absurd raised (lowered key _)⟩
    · refine ⟨fun key => ?_, fun key i i' found _ found' => Option.some.inj (found'.symm.trans found),
        fun failed => absurd rfl failed, fun key raised => absurd raised (lowered key _)⟩
      rw [pinsOf_touch agree found]
      rcases eq_or_ne key (file, pageNo) with rfl | other
      · cases dirty <;> simp [pinStep, pinsOf_of_found found]
      · simp [pinStep, other, Ne.symm other]

theorem pinMove_disposePage (agree : Agree w) (file : Option FileId) (pageNo : Int) :
    PinMove w (disposePage file pageNo w).2 (.disposePage file pageNo)
      ⟨(disposePage file pageNo w).1, none, none⟩ := by
  have lowered : ∀ key reply, pinStep key 0 ((.disposePage file pageNo : Op Page), reply) ≠ 1 :=
    fun key reply raised => by
      simp only [pinStep] at raised
      split_ifs at raised <;> omega
  rcases disposePage_eq file pageNo w with ⟨i, found, disposed⟩ | ⟨absent, disposed⟩
  · rw [disposed]
    obtain ⟨table, index, -⟩ := File.disposePage_frames file pageNo
      { w.setDesc i (w.bufTable i).clear with hashTable := w.hashTable.erase (file, pageNo) }
    refine ⟨fun key => ?_, fun key i' i'' found' _ found'' => ?_, fun _ i' other => ?_,
      fun key raised => absurd raised (lowered key _)⟩
    · rw [pinsOf_congr index fun _ => by rw [table], pinsOf_evict agree found]
      rcases eq_or_ne key (file, pageNo) with rfl | other
      · simp [pinStep]
      · simp [pinStep, other, Ne.symm other]
    · rw [index, BufHashTbl.erase_frameOf] at found''
      split_ifs at found''
      exact Option.some.inj (found''.symm.trans found')
    · rw [table]
      simp only [setDesc_bufTable_apply]
      rw [if_neg fun (here : i' = i) => other file pageNo rfl (here ▸ found)]
  · rw [disposed]
    obtain ⟨table, index, -⟩ := File.disposePage_frames file pageNo w
    refine ⟨fun key => ?_, fun key i' i'' found' _ found'' => ?_, fun _ i' _ => by rw [table],
      fun key raised => absurd raised (lowered key _)⟩
    · rw [pinsOf_congr index fun _ => by rw [table]]
      rcases eq_or_ne key (file, pageNo) with rfl | other
      · simp [pinStep, pinsOf_of_absent absent]
      · simp [pinStep, Ne.symm other]
    · rw [index] at found''
      exact Option.some.inj (found''.symm.trans found')

/-- `flushFile`'s loop moves no count and no pin, and only unindexes pages. -/
theorem flushFileFrom_pins (file : Option FileId) :
    ∀ (frames : List Nat) {w : World Page}, Agree w → (∀ i ∈ frames, i < w.numBufs) →
      pinsOf (flushFileFrom file frames w).2 = pinsOf w ∧
        (∀ i, ((flushFileFrom file frames w).2.bufTable i).pinCnt = (w.bufTable i).pinCnt) ∧
        ∀ key i, (flushFileFrom file frames w).2.hashTable.frameOf key = some i →
          w.hashTable.frameOf key = some i
  | [], _, _, _ => ⟨rfl, fun _ => rfl, fun _ _ found => found⟩
  | i :: rest, w, agree, bound => by
    have here := bound i (List.mem_cons_self i rest)
    have later : ∀ i' ∈ rest, i' < w.numBufs := fun i' mem => bound i' (List.mem_cons_of_mem i mem)
    have turn := flushFileFrom_cons file i rest w
    generalize flushFileFrom file (i :: rest) w = result at turn ⊢
    cases turn with
    | pinned => exact ⟨rfl, fun _ => rfl, fun _ _ found => found⟩
    | writeFailed => exact ⟨rfl, fun _ => rfl, fun _ _ found => found⟩
    | @flushed w' valid _ unpinned back =>
      obtain ⟨table, _, index, bufs, _⟩ := wroteBack_bufTable back
      have flushedAgree := BufMgr.Agree.flushed agree here valid unpinned back
      obtain ⟨pins, pinned, unindexed⟩ :=
        flushFileFrom_pins file rest flushedAgree (by simpa [bufs] using later)
      have found := agree.indexed i here valid
      have free := agree.pinCnt i
      refine ⟨pins.trans ?_, fun i' => (pinned i').trans ?_, fun key i' found' => ?_⟩
      · funext key
        rw [← index, pinsOf_evict (agree.wroteBack back) (index ▸ found),
          pinsOf_congr index fun i' => by rw [table]]
        split_ifs with same
        · rw [same, pinsOf_of_found found]
          omega
        · rfl
      · simp only [setDesc_bufTable_apply, table]
        split_ifs with same <;> simp [same]
      · have erased := unindexed key i' found'
        simp only [BufHashTbl.erase_frameOf] at erased
        split_ifs at erased
        exact erased
    | stale => exact ⟨rfl, fun _ => rfl, fun _ _ found => found⟩
    | passed => exact flushFileFrom_pins file rest agree later

theorem pinMove_flushFile (agree : Agree w) (file : Option FileId) :
    PinMove w (flushFile file w).2 (.flushFile file) ⟨(flushFile file w).1, none, none⟩ := by
  obtain ⟨pins, pinned, unindexed⟩ :=
    flushFileFrom_pins file (List.range w.numBufs) agree fun _ mem => List.mem_range.mp mem
  exact ⟨fun key => by rw [flushFile, pins]; rfl,
    fun key i i' found _ found' => Option.some.inj ((unindexed key i' found').symm.trans found),
    fun _ i _ => pinned i, fun key raised => by simp [pinStep] at raised⟩

theorem pinMove_write (file : Option FileId) (pageNo : Int) (bytes : Page) :
    PinMove w (writeFrame file pageNo bytes w) (.write file pageNo bytes) ⟨.ok, none, none⟩ := by
  have same : (writeFrame file pageNo bytes w).bufTable = w.bufTable ∧
      (writeFrame file pageNo bytes w).hashTable = w.hashTable := by
    unfold writeFrame
    split
    · split <;> simp
    · simp
  exact ⟨fun key => by rw [pinsOf_congr same.2 fun i => by rw [same.1]]; rfl,
    fun key i i' found _ found' => Option.some.inj ((same.2 ▸ found').symm.trans found),
    fun _ i _ => by rw [same.1], fun key raised => by simp [pinStep] at raised⟩

/-- **Every call, from a world where frames and index agree, moves pins as `pinStep` says.** -/
theorem pinMove_apply (agree : Agree w) : ∀ op : Op Page, PinMove w (op.apply w).2 op (op.apply w).1
  | .readPage file pageNo => pinMove_readPage agree file pageNo
  | .allocPage file => pinMove_allocPage agree file
  | .unPinPage file pageNo dirty => pinMove_unPinPage agree file pageNo dirty
  | .disposePage file pageNo => pinMove_disposePage agree file pageNo
  | .flushFile file => pinMove_flushFile agree file
  | .write file pageNo bytes => pinMove_write file pageNo bytes

/-! The pins a call moves, read off its result. -/

/-- Writing into the pool moves no pin. -/
@[simp] theorem pinsOf_setPage (w : World Page) (i : Nat) (bytes : Page)
    (key : Option FileId × Int) : pinsOf (w.setPage i bytes) key = pinsOf w key := rfl

/-- An `unPinPage` that returns `OK` takes one pin from its page. -/
theorem pinsOf_unPinPage_ok (agree : Agree w) {file : Option FileId} {pageNo : Int} {dirty : Bool}
    {w' : World Page} (released : unPinPage file pageNo dirty w = (.ok, w'))
    (key : Option FileId × Int) :
    pinsOf w' key = pinsOf w key - if key = (file, pageNo) then 1 else 0 := by
  have moved := (pinMove_unPinPage agree file pageNo dirty).pins key
  rw [released] at moved
  rw [moved]
  by_cases here : key = (file, pageNo) <;> simp [pinStep, here, Eq.comm]

/-- A `readPage` gives one pin to its page if it returns `OK`, and moves no other. -/
theorem pinsOf_readPage (agree : Agree w) {file : Option FileId} {pageNo : Int}
    {page page' : Option Nat} {status : Status} {w' : World Page}
    (read : readPage file pageNo page w = (status, page', w')) (key : Option FileId × Int) :
    pinsOf w' key = pinsOf w key + if key = (file, pageNo) ∧ status = .ok then 1 else 0 := by
  have moved := (pinMove_readPage agree file pageNo).pins key
  rw [readPage_page] at read
  simp only [Prod.mk.injEq] at read
  obtain ⟨rfl, -, rfl⟩ := read
  rw [moved]
  by_cases here : key = (file, pageNo) <;> by_cases ok : (readPage file pageNo none w).1 = .ok <;>
    simp [pinStep, here, ok, Eq.comm]

/-- An `allocPage` that returns `OK` gives one pin to the new page. -/
theorem pinsOf_allocPage_ok (agree : Agree w) {file : Option FileId} {pageNo : Int} {frame : Nat}
    {w' : World Page} (allocated : allocPage file w = (.ok (pageNo, frame), w'))
    (key : Option FileId × Int) :
    pinsOf w' key = pinsOf w key + if key = (file, pageNo) then 1 else 0 := by
  have moved := (pinMove_allocPage agree file).pins key
  simp only [Op.apply, allocated] at moved
  rw [moved]
  by_cases here : key = (file, pageNo) <;> simp [pinStep, here, Eq.comm]

/-- An `allocPage` that fails moves no pin. -/
theorem pinsOf_allocPage_error (agree : Agree w) {file : Option FileId} {status : Status}
    {w' : World Page} (failed : allocPage file w = (.error status, w'))
    (key : Option FileId × Int) : pinsOf w' key = pinsOf w key := by
  have moved := (pinMove_allocPage agree file).pins key
  simp only [Op.apply, failed] at moved
  simp [moved, pinStep]

end Calls

/-! ### Runs -/

section Runs

variable {w : World Page} {key : Option FileId × Int}

theorem pinsOf_nonneg (agree : Agree w) (key : Option FileId × Int) : 0 ≤ pinsOf w key := by
  unfold pinsOf
  split
  · exact agree.pinCnt _
  · exact Int.le_refl 0

/-- A positive count belongs to a resident page. -/
theorem found_of_pinsOf_pos (held : 0 < pinsOf w key) : ∃ i, w.hashTable.frameOf key = some i := by
  unfold pinsOf at held
  split at held
  · exact ⟨_, by assumption⟩
  · omega

/-- An `unPinPage` of a page the pool holds pinned returns `OK`. -/
theorem unPinPage_of_pinned {file : Option FileId} {pageNo : Int}
    (pinned : 0 < pinsOf w (file, pageNo)) (dirty : Bool) :
    ∃ w', unPinPage file pageNo dirty w = (.ok, w') := by
  obtain ⟨i, found⟩ := found_of_pinsOf_pos pinned
  rw [pinsOf_of_found found] at pinned
  simp only [unPinPage, BufHashTbl.lookup_eq, found, if_neg (Int.ne_of_gt pinned)]
  exact ⟨_, rfl⟩

/-- An `unPinPage` of a pinned page takes one pin from it, whatever the caller does with the
status. -/
theorem pinsOf_unPinPage_pinned (agree : Agree w) {file : Option FileId} {pageNo : Int}
    (pinned : 0 < pinsOf w (file, pageNo)) (dirty : Bool) (key : Option FileId × Int) :
    pinsOf (unPinPage file pageNo dirty w).2 key =
      pinsOf w key - if key = (file, pageNo) then 1 else 0 := by
  obtain ⟨w', released⟩ := unPinPage_of_pinned pinned dirty
  rw [released, pinsOf_unPinPage_ok agree released]

/-- From `0`, a call that leaves the client's count positive leaves it at `1`. -/
theorem pinStep_zero_pos {x : Op Page × Reply} (raised : 0 < pinStep key 0 x) :
    pinStep key 0 x = 1 := by
  rcases x with ⟨op, reply⟩
  cases op <;> simp only [pinStep] at raised ⊢ <;> (try split_ifs at raised ⊢) <;> omega

/-- Along a run, the pool's count of a page moves as the client's count over the run's history. -/
theorem pinsOf_exec (agree : Agree w) (ops : List (Op Page)) (key : Option FileId × Int) :
    pinsOf (Op.exec w ops).2 key = (Op.exec w ops).1.foldl (pinStep key) (pinsOf w key) := by
  induction ops generalizing w with
  | nil => rfl
  | cons op ops ih =>
    rw [Op.exec_cons, List.foldl_cons, ← (pinMove_apply agree op).pins key]
    exact ih (agree.apply op)

/-- A run from the constructor ends in a world that agrees and holds the client's counts. -/
theorem pinsOf_eq_pins {bufs : Nat} {disk : Disk Page} {fault : Nat → Bool} {fresh : Nat → Int}
    {ops : List (Op Page)} {history : List (Op Page × Reply)}
    (ran : Op.exec (World.init bufs disk fault fresh) ops = (history, w)) :
    Agree w ∧ ∀ key, pinsOf w key = pins history key := by
  have agree := Agree.reachable ((Reachable.init bufs disk fault fresh).exec ops)
  have count := fun key => pinsOf_exec (Agree.init bufs disk fault fresh) ops key
  rw [ran] at agree count
  exact ⟨agree, count⟩

/-- A pinned page keeps its frame for as long as it stays pinned. -/
theorem frameOf_exec_of_held (ops : List (Op Page)) (agree : Agree w) {i : Nat}
    (found : w.hashTable.frameOf key = some i)
    (held : ∀ ops' rest, ops = ops' ++ rest → 0 < pinsOf (Op.exec w ops').2 key) :
    (Op.exec w ops).2.hashTable.frameOf key = some i := by
  induction ops generalizing w i with
  | nil => exact found
  | cons op ops ih =>
    have before := held [] (op :: ops) rfl
    rw [Op.exec_nil, pinsOf_of_found found] at before
    obtain ⟨i', found'⟩ : ∃ i', (op.apply w).2.hashTable.frameOf key = some i' :=
      found_of_pinsOf_pos (held [op] ops rfl)
    obtain rfl := (pinMove_apply agree op).stay key i i' found before found'
    exact ih (agree.apply op) found' fun ops' rest split =>
      held (op :: ops') rest (by rw [split]; rfl)

/-- **The pool keeps the client's count of pins.** Over every run from the constructor, whatever
the calls return and whatever the store does: the client's count of a page is never negative, is
its frame's `pinCnt` when it is resident and `0` when it is not; a page whose count a call raised
from `0` stays in the frame that call returned for as long as the count stays positive; and a
call that fails changes no frame's `pinCnt`, but that `disposePage` clears the frame of the page
it disposes of whatever the store answers. -/
theorem pins_tracked (bufs : Nat) (disk : Disk Page) (fault : Nat → Bool) (fresh : Nat → Int)
    (key : Option FileId × Int) :
    (∀ ops history (w : World Page),
      Op.exec (World.init bufs disk fault fresh) ops = (history, w) →
      0 ≤ pins history key ∧
        (∀ i, w.hashTable.frameOf key = some i → (w.bufTable i).pinCnt = pins history key) ∧
        (w.hashTable.frameOf key = none → pins history key = 0)) ∧
    (∀ pre op mid history₀ (w₀ : World Page) reply w₁,
      Op.exec (World.init bufs disk fault fresh) pre = (history₀, w₀) →
      op.apply w₀ = (reply, w₁) → pins history₀ key = 0 →
      (∀ mid' rest, mid = mid' ++ rest →
        0 < pins (history₀ ++ (op, reply) :: (Op.exec w₁ mid').1) key) →
      (Op.exec w₁ mid).2.hashTable.frameOf key = reply.frame) ∧
    (∀ w : World Page, Reachable w → ∀ op : Op Page, (op.apply w).1.status ≠ .ok → ∀ i,
      (∀ file pageNo, op = .disposePage file pageNo → w.hashTable.frameOf (file, pageNo) ≠ some i) →
      ((op.apply w).2.bufTable i).pinCnt = (w.bufTable i).pinCnt) := by
  refine ⟨fun ops history w ran => ?_, fun pre op mid history₀ w₀ reply w₁ ran applied zero held => ?_,
    fun w reach op failed i other => (pinMove_apply (Agree.reachable reach) op).failed failed i other⟩
  · obtain ⟨agree, count⟩ := pinsOf_eq_pins ran
    refine ⟨count key ▸ pinsOf_nonneg agree key, fun i found => ?_, fun absent => ?_⟩
    · rw [← count, pinsOf_of_found found]
    · rw [← count, pinsOf_of_absent absent]
  · obtain ⟨agree₀, count⟩ := pinsOf_eq_pins ran
    have move : PinMove w₀ w₁ op reply := by
      have move := pinMove_apply agree₀ op
      rwa [applied] at move
    have agree₁ : Agree w₁ := by
      have agree₁ := agree₀.apply op
      rwa [applied] at agree₁
    have unpinned : pinsOf w₀ key = 0 := (count key).trans zero
    have step : ∀ mid', pins (history₀ ++ (op, reply) :: (Op.exec w₁ mid').1) key =
        (Op.exec w₁ mid').1.foldl (pinStep key) (pinsOf w₁ key) := fun mid' => by
      rw [pins, List.foldl_append, List.foldl_cons, move.pins, unpinned, ← pins, zero]
    have first : 0 < pinsOf w₁ key := by
      have first := held [] mid rfl
      rw [step] at first
      exact first
    have raised : pinStep key 0 (op, reply) = 1 := by
      rw [move.pins, unpinned] at first
      exact pinStep_zero_pos first
    obtain ⟨i, found⟩ := found_of_pinsOf_pos first
    rw [frameOf_exec_of_held mid agree₁ found fun mid' rest split => by
      rw [pinsOf_exec agree₁, ← step]; exact held mid' rest split, ← found, move.frame key raised]

end Runs

/-- Two frames over a store where every page of file `0` exists and no call fails. -/
def twoFrameStore : World Nat :=
  World.init 2 ⟨fun _ _ => some 0, fun _ => none⟩ (fun _ => false) (fun _ => 0)

/-- The calls made while page `0` is held in frame `0`: page `1` is read into frame `1` and released,
and page `2`, read next, evicts it. -/
def heldRun : List (Op Nat) :=
  [.readPage (some 0) 1, .unPinPage (some 0) 1 false, .readPage (some 0) 2]

/-- Page `0`, read first, stays in frame `0` with one pin while page `2` evicts page `1`; once
page `2` is released, `readPage` of page `3` fails with `BUFFEREXCEEDED` and leaves frame `0`'s
pin as it was. -/
theorem heldPage_tracked :
    (Op.exec ((Op.readPage (some 0) 0).apply twoFrameStore).2 heldRun).2.hashTable.frameOf
        (some 0, 0) = some 0 ∧
      (Op.exec ((Op.readPage (some 0) 0).apply twoFrameStore).2 heldRun).2.hashTable.frameOf
        (some 0, 1) = none ∧
      ((Op.exec twoFrameStore (.readPage (some 0) 0 :: heldRun)).2.bufTable 0).pinCnt = 1 ∧
      ((Op.readPage (some 0) 3).apply (Op.exec twoFrameStore
        (.readPage (some 0) 0 :: heldRun ++ [.unPinPage (some 0) 2 false])).2).1.status =
          .bufferExceeded ∧
      (((Op.readPage (some 0) 3).apply (Op.exec twoFrameStore
        (.readPage (some 0) 0 :: heldRun ++ [.unPinPage (some 0) 2 false])).2).2.bufTable 0).pinCnt =
          1 := by
  have tracked := pins_tracked 2 ⟨fun _ _ => some 0, fun _ => none⟩ (fun _ => false) (fun _ => 0)
    (some 0, 0)
  have held : ∀ mid' ∈ heldRun.inits, 0 < pins ([] ++ (Op.readPage (some 0) 0,
      ((Op.readPage (some 0) 0).apply twoFrameStore).1) ::
        (Op.exec ((Op.readPage (some 0) 0).apply twoFrameStore).2 mid').1) (some 0, 0) := by
    decide
  refine ⟨(tracked.2.1 [] (.readPage (some 0) 0) heldRun [] twoFrameStore _ _ rfl rfl rfl
    fun mid' rest split => held mid' ((List.mem_inits _ _).mpr ⟨rest, split.symm⟩)).trans rfl, rfl,
    ((tracked.1 (.readPage (some 0) 0 :: heldRun) _ _ rfl).2.1 0 rfl).trans (by decide), rfl,
    (tracked.2.2 _ ((Reachable.init _ _ _ _).exec _) (.readPage (some 0) 3) (by decide) 0
      fun _ _ disposed => by cases disposed).trans (by decide)⟩

/-! ### A failed `disposePage` -/

/-- Page `0` of file `0` pinned in a one-frame pool, the store's next call (the third) scheduled
to fail. -/
def pinnedPage : World Nat :=
  (Op.exec (World.init 1 ⟨fun _ _ => some 0, fun _ => none⟩ (fun n => n == 2) (fun _ => 0))
    [.readPage (some 0) 0]).2

/-- `disposePage` of a pinned page clears its frame, pin count included, even when the store fails
to deallocate the page and the call returns `UNIXERR`. -/
theorem disposePage_failed_clears :
    Reachable pinnedPage ∧ (pinnedPage.bufTable 0).pinCnt = 1 ∧
      ((Op.disposePage (some 0) 0).apply pinnedPage).1.status = .unixErr ∧
      (((Op.disposePage (some 0) 0).apply pinnedPage).2.bufTable 0).pinCnt = 0 :=
  ⟨(Reachable.init _ _ _ _).exec _, rfl, rfl, rfl⟩

end Minirel
