/-
**The buffer manager's data: status codes, frame descriptors and the residency index.**

`buf.C` manipulates three kinds of data declared elsewhere in Minirel (`buf.h`, `bufHash.h`,
`error.h`, none of which is among the sources):

* `Status` — the closed set of codes the operations return;
* `BufDesc` — one descriptor per frame, with `clear` (`Clear()`) and `set` (`Set(file, pageNo)`);
* `BufHashTbl` — the residency index from `(file, pageNo)` to a frame, with `lookup`, `insert`
  and `remove`.

A `File*` is an `Option FileId`: `none` is `NULL`. The descriptor and the index are modelled from
the spec's data model; each definition says which sentence it follows.
-/

import Mathlib.Logic.Function.Basic

namespace Minirel

/-- The identity of an open `File` object; a `File*` is an `Option FileId`. -/
abbrev FileId := Nat

/-- The status codes of `error.h` that the buffer manager, the heap file and the page layer
return. -/
inductive Status where
  | ok
  | bufferExceeded
  | pagePinned
  | pageNotPinned
  | badBuffer
  | hashNotFound
  | hashTblError
  | unixErr
  | fileEOF
  | fileExists
  | badScanParm
  | invalidRecLen
  | noSpace
  | noRecords
  | endOfPage
  | invalidSlotNo
  deriving DecidableEq, Repr

/-! ### Frame descriptors -/

/-- A frame descriptor of `buf.h`: the page it holds, its pins, and the clock's reference bit. -/
structure BufDesc where
  file : Option FileId
  pageNo : Int
  frameNo : Nat
  pinCnt : Int
  dirty : Bool
  valid : Bool
  refbit : Bool
  deriving DecidableEq, Repr

namespace BufDesc

/-- `Clear()`, modelled from the spec: invalid, unpinned, clean, unreferenced, no file, the frame
number kept. The spec leaves the page number undefined; `-1`, what `flushFile` writes when it
invalidates a frame by hand, is taken. -/
def clear (desc : BufDesc) : BufDesc :=
  { desc with pinCnt := 0, file := none, pageNo := -1, dirty := false, refbit := false,
              valid := false }

/-- `Set(file, pageNo)`, modelled from the spec: the frame holds the page, pinned once, clean and
referenced. -/
def set (desc : BufDesc) (file : Option FileId) (pageNo : Int) : BufDesc :=
  { desc with file := file, pageNo := pageNo, pinCnt := 1, dirty := false, refbit := true,
              valid := true }

/-- The key under which the residency index knows the frame's page. -/
def key (desc : BufDesc) : Option FileId × Int := (desc.file, desc.pageNo)

/-- Everything of a descriptor except its reference bit: what the clock sweep never touches. -/
def core (desc : BufDesc) : Option FileId × Int × Nat × Int × Bool × Bool :=
  (desc.file, desc.pageNo, desc.frameNo, desc.pinCnt, desc.dirty, desc.valid)

@[simp] theorem clear_valid (desc : BufDesc) : desc.clear.valid = false := rfl
@[simp] theorem clear_pinCnt (desc : BufDesc) : desc.clear.pinCnt = 0 := rfl
@[simp] theorem clear_dirty (desc : BufDesc) : desc.clear.dirty = false := rfl
@[simp] theorem clear_file (desc : BufDesc) : desc.clear.file = none := rfl
@[simp] theorem clear_refbit (desc : BufDesc) : desc.clear.refbit = false := rfl
@[simp] theorem clear_frameNo (desc : BufDesc) : desc.clear.frameNo = desc.frameNo := rfl

@[simp] theorem set_valid (desc : BufDesc) (file pageNo) : (desc.set file pageNo).valid = true :=
  rfl
@[simp] theorem set_pinCnt (desc : BufDesc) (file pageNo) : (desc.set file pageNo).pinCnt = 1 :=
  rfl
@[simp] theorem set_dirty (desc : BufDesc) (file pageNo) :
    (desc.set file pageNo).dirty = false := rfl
@[simp] theorem set_file (desc : BufDesc) (file pageNo) : (desc.set file pageNo).file = file :=
  rfl
@[simp] theorem set_pageNo (desc : BufDesc) (file pageNo) :
    (desc.set file pageNo).pageNo = pageNo := rfl
@[simp] theorem set_refbit (desc : BufDesc) (file pageNo) :
    (desc.set file pageNo).refbit = true := rfl
@[simp] theorem set_frameNo (desc : BufDesc) (file pageNo) :
    (desc.set file pageNo).frameNo = desc.frameNo := rfl

@[simp] theorem key_set (desc : BufDesc) (file pageNo) :
    (desc.set file pageNo).key = (file, pageNo) := rfl

@[simp] theorem core_refbit (desc : BufDesc) (refbit : Bool) :
    { desc with refbit := refbit }.core = desc.core := rfl

theorem core_eq_iff {desc desc' : BufDesc} :
    desc'.core = desc.core ↔ desc'.file = desc.file ∧ desc'.pageNo = desc.pageNo ∧
      desc'.frameNo = desc.frameNo ∧ desc'.pinCnt = desc.pinCnt ∧ desc'.dirty = desc.dirty ∧
      desc'.valid = desc.valid := by
  simp [core]

theorem with_refbit_self {desc : BufDesc} {refbit : Bool} (same : desc.refbit = refbit) :
    { desc with refbit := refbit } = desc := by
  subst same
  rfl

/-- Clearing keeps only the frame number, so descriptors with one core clear alike. -/
theorem clear_eq_of_core {desc desc' : BufDesc} (same : desc'.core = desc.core) :
    desc'.clear = desc.clear := by
  simp only [clear, (core_eq_iff.mp same).2.2.1]

end BufDesc

/-! ### The residency index -/

/-- The residency index `BufHashTbl`, modelled from the spec: a map from `(file, pageNo)` to a
frame number, keys unique. -/
structure BufHashTbl where
  frameOf : Option FileId × Int → Option Nat

namespace BufHashTbl

/-- The empty index the constructor allocates. -/
def empty : BufHashTbl := ⟨fun _ => none⟩

/-- `lookup(file, pageNo)`: the frame, or `none` for `HASHNOTFOUND`. -/
def lookup (table : BufHashTbl) (file : Option FileId) (pageNo : Int) : Option Nat :=
  table.frameOf (file, pageNo)

@[simp] theorem lookup_eq (table : BufHashTbl) (file pageNo) :
    table.lookup file pageNo = table.frameOf (file, pageNo) := rfl

/-- `insert(file, pageNo, frameNo)`: `HASHTBLERROR` if the key is present or the allocation of
its bucket fails (`outOfMemory`). -/
def insert (table : BufHashTbl) (file : Option FileId) (pageNo : Int) (frameNo : Nat)
    (outOfMemory : Bool) : Except Status BufHashTbl :=
  if (table.frameOf (file, pageNo)).isSome || outOfMemory then .error .hashTblError
  else .ok ⟨Function.update table.frameOf (file, pageNo) (some frameNo)⟩

/-- `remove(file, pageNo)`: `HASHNOTFOUND` if the key is absent. -/
def remove (table : BufHashTbl) (file : Option FileId) (pageNo : Int) :
    Except Status BufHashTbl :=
  if (table.frameOf (file, pageNo)).isSome then
    .ok ⟨Function.update table.frameOf (file, pageNo) none⟩
  else .error .hashNotFound

/-- The index with the key dropped, whether or not it was there: what `remove` leaves. -/
def erase (table : BufHashTbl) (key : Option FileId × Int) : BufHashTbl :=
  ⟨Function.update table.frameOf key none⟩

theorem insert_eq_ok {table table' : BufHashTbl} {file pageNo frameNo outOfMemory}
    (inserted : table.insert file pageNo frameNo outOfMemory = .ok table') :
    table.frameOf (file, pageNo) = none ∧
      table' = ⟨Function.update table.frameOf (file, pageNo) (some frameNo)⟩ := by
  unfold insert at inserted
  split at inserted
  · cases inserted
  · rename_i fresh
    simp only [Bool.or_eq_true, not_or, Option.not_isSome_iff_eq_none] at fresh
    exact ⟨fresh.1, (Except.ok.inj inserted).symm⟩

theorem insert_eq_error {table : BufHashTbl} {file pageNo frameNo outOfMemory status}
    (refused : table.insert file pageNo frameNo outOfMemory = .error status) :
    status = .hashTblError := by
  unfold insert at refused
  split at refused <;> cases refused
  rfl

theorem remove_eq_ok {table table' : BufHashTbl} {file pageNo}
    (removed : table.remove file pageNo = .ok table') :
    (table.frameOf (file, pageNo)).isSome ∧ table' = table.erase (file, pageNo) := by
  unfold remove at removed
  split at removed
  · exact ⟨‹_›, (Except.ok.inj removed).symm⟩
  · cases removed

theorem remove_eq_error {table : BufHashTbl} {file pageNo status}
    (failed : table.remove file pageNo = .error status) :
    status = .hashNotFound ∧ table.frameOf (file, pageNo) = none := by
  unfold remove at failed
  split at failed
  · cases failed
  · rename_i absent
    cases failed
    exact ⟨rfl, Option.not_isSome_iff_eq_none.mp absent⟩

theorem remove_of_isSome {table : BufHashTbl} {file pageNo}
    (present : (table.frameOf (file, pageNo)).isSome) :
    table.remove file pageNo = .ok (table.erase (file, pageNo)) := by
  simp [remove, present, erase]

theorem erase_of_absent {table : BufHashTbl} {key : Option FileId × Int}
    (absent : table.frameOf key = none) : table.erase key = table := by
  rw [erase, ← absent, Function.update_eq_self]

@[simp] theorem erase_frameOf (table : BufHashTbl) (key other) :
    (table.erase key).frameOf other = if other = key then none else table.frameOf other := by
  simp [erase, Function.update_apply]

end BufHashTbl

end Minirel
