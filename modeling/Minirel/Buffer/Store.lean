/-
**The buffer manager's state and the world around it.**

* `BufMgr` — the fields of the C++ class: `numBufs`, the frame table `bufTable`, the pool
  `bufPool`, the residency index `hashTable` and `clockHand`; `BufMgr.init` is the constructor.
* `Disk` — the paged file store behind `File` (db.C is not among the sources), modelled from the
  spec: the bytes of every allocated page, and each file's first page.
* `World` — the buffer manager, the store, and the schedule of the outside world: whether the
  `n`-th call out of the sources fails (`fault`), which page number the store offers when asked
  to allocate (`fresh`), and the log of the calls made so far (`calls`). Quantifying over every
  schedule is quantifying over every outcome of the store and of the allocator.
* `File.readPage`, `File.writePage`, `File.allocatePage`, `File.disposePage` — the store's calls;
  each is logged, and each fails when scheduled to, through a `NULL` file, or on a page that is
  not allocated (allocation: on an offered page that is in use).
-/

import Minirel.Buffer.Basic

set_option linter.unusedSectionVars false

namespace Minirel

/-- The data of the `BufMgr` class. -/
structure BufMgr (Page : Type) where
  numBufs : Nat
  bufTable : Nat → BufDesc
  bufPool : Nat → Page
  hashTable : BufHashTbl
  clockHand : Nat

/-- The constructor `BufMgr(bufs)`: every frame invalid with `frameNo = i`, the rest of the
descriptor zeroed by `memset`; the pool zeroed; an empty index; the hand at `bufs - 1`. -/
def BufMgr.init {Page : Type} [Inhabited Page] (bufs : Nat) : BufMgr Page where
  numBufs := bufs
  bufTable i := ⟨none, 0, i, 0, false, false, false⟩
  bufPool _ := default
  hashTable := .empty
  clockHand := bufs - 1

/-- Modelled from the spec: the paged file store. A page is allocated when it has bytes. -/
structure Disk (Page : Type) where
  pages : FileId → Int → Option Page
  firstPage : FileId → Option Int

/-- A call out of the sources: to the file store, or to the allocator for an index bucket. -/
inductive Call where
  | readPage (file : Option FileId) (pageNo : Int)
  | writePage (file : Option FileId) (pageNo : Int)
  | allocatePage (file : Option FileId)
  | disposePage (file : Option FileId) (pageNo : Int)
  | newBucket
  deriving DecidableEq, Repr

/-- The buffer manager, the store, and the outside world's schedule and log. -/
structure World (Page : Type) extends BufMgr Page where
  disk : Disk Page
  fault : Nat → Bool
  fresh : Nat → Int
  calls : List Call

variable {Page : Type}

namespace World

/-- A freshly constructed buffer manager of `bufs` frames over any store and any schedule. -/
def init [Inhabited Page] (bufs : Nat) (disk : Disk Page) (fault : Nat → Bool)
    (fresh : Nat → Int) : World Page :=
  { toBufMgr := BufMgr.init bufs, disk := disk, fault := fault, fresh := fresh, calls := [] }

/-- Whether the next call out of the sources fails. -/
def failing (w : World Page) : Bool := w.fault w.calls.length

/-- The world after logging a call. -/
def record (w : World Page) (call : Call) : World Page := { w with calls := call :: w.calls }

/-- Replace descriptor `frame`. -/
def setDesc (w : World Page) (frame : Nat) (desc : BufDesc) : World Page :=
  { w with bufTable := Function.update w.bufTable frame desc }

/-- Replace the bytes of frame `frame`. -/
def setPage (w : World Page) (frame : Nat) (page : Page) : World Page :=
  { w with bufPool := Function.update w.bufPool frame page }

/-- `new hashBucket` inside `BufHashTbl::insert`: whether the allocation fails. -/
def newBucket (w : World Page) : Bool × World Page := (w.failing, w.record .newBucket)

@[simp] theorem record_bufTable (w : World Page) (c) : (w.record c).bufTable = w.bufTable := rfl
@[simp] theorem record_bufPool (w : World Page) (c) : (w.record c).bufPool = w.bufPool := rfl
@[simp] theorem record_hashTable (w : World Page) (c) :
    (w.record c).hashTable = w.hashTable := rfl
@[simp] theorem record_numBufs (w : World Page) (c) : (w.record c).numBufs = w.numBufs := rfl
@[simp] theorem record_clockHand (w : World Page) (c) :
    (w.record c).clockHand = w.clockHand := rfl
@[simp] theorem record_disk (w : World Page) (c) : (w.record c).disk = w.disk := rfl
@[simp] theorem record_calls (w : World Page) (c) : (w.record c).calls = c :: w.calls := rfl

@[simp] theorem setDesc_bufTable (w : World Page) (i d) :
    (w.setDesc i d).bufTable = Function.update w.bufTable i d := rfl
@[simp] theorem setDesc_bufPool (w : World Page) (i d) : (w.setDesc i d).bufPool = w.bufPool :=
  rfl
@[simp] theorem setDesc_hashTable (w : World Page) (i d) :
    (w.setDesc i d).hashTable = w.hashTable := rfl
@[simp] theorem setDesc_numBufs (w : World Page) (i d) : (w.setDesc i d).numBufs = w.numBufs :=
  rfl
@[simp] theorem setDesc_clockHand (w : World Page) (i d) :
    (w.setDesc i d).clockHand = w.clockHand := rfl
@[simp] theorem setDesc_disk (w : World Page) (i d) : (w.setDesc i d).disk = w.disk := rfl
@[simp] theorem setDesc_calls (w : World Page) (i d) : (w.setDesc i d).calls = w.calls := rfl

theorem setDesc_bufTable_apply (w : World Page) (i d i') :
    (w.setDesc i d).bufTable i' = if i' = i then d else w.bufTable i' := by
  simp [Function.update_apply]

theorem setDesc_withIndex (w : World Page) (i d) (table : BufHashTbl) :
    ({ w with hashTable := table } : World Page).setDesc i d =
      { w.setDesc i d with hashTable := table } := rfl

theorem setDesc_self (w : World Page) (i : Nat) : w.setDesc i (w.bufTable i) = w := by
  simp only [setDesc, Function.update_eq_self]

@[simp] theorem setPage_bufTable (w : World Page) (i p) : (w.setPage i p).bufTable = w.bufTable :=
  rfl
@[simp] theorem setPage_bufPool (w : World Page) (i p) :
    (w.setPage i p).bufPool = Function.update w.bufPool i p := rfl
@[simp] theorem setPage_hashTable (w : World Page) (i p) :
    (w.setPage i p).hashTable = w.hashTable := rfl
@[simp] theorem setPage_numBufs (w : World Page) (i p) : (w.setPage i p).numBufs = w.numBufs :=
  rfl
@[simp] theorem setPage_clockHand (w : World Page) (i p) :
    (w.setPage i p).clockHand = w.clockHand := rfl
@[simp] theorem setPage_disk (w : World Page) (i p) : (w.setPage i p).disk = w.disk := rfl
@[simp] theorem setPage_calls (w : World Page) (i p) : (w.setPage i p).calls = w.calls := rfl

end World

namespace Disk

/-- The bytes of a page through a `File*`: `none` through `NULL` or for an unallocated page. -/
def read (disk : Disk Page) (file : Option FileId) (pageNo : Int) : Option Page :=
  file.bind fun id => disk.pages id pageNo

/-- The store with new bytes for one page. -/
def write (disk : Disk Page) (id : FileId) (pageNo : Int) (page : Option Page) : Disk Page :=
  { disk with pages := Function.update disk.pages id (Function.update (disk.pages id) pageNo page) }

@[simp] theorem read_none (disk : Disk Page) (pageNo) : disk.read none pageNo = none := rfl

@[simp] theorem write_read (disk : Disk Page) (id pageNo page) (file : Option FileId) (other) :
    (disk.write id pageNo page).read file other =
      if file = some id ∧ other = pageNo then page else disk.read file other := by
  cases file with
  | none => simp
  | some file =>
    by_cases same : file = id
    · subst same
      by_cases here : other = pageNo
      · simp [read, write, here]
      · simp [read, write, here]
    · simp [read, write, same]

end Disk

namespace File

variable [Inhabited Page]

/-- `File::readPage`: the page's bytes. -/
def readPage (file : Option FileId) (pageNo : Int) (w : World Page) :
    Except Status Page × World Page :=
  let w' := w.record (.readPage file pageNo)
  match w.disk.read file pageNo with
  | some page => if w.failing then (.error .unixErr, w') else (.ok page, w')
  | none => (.error .unixErr, w')

/-- `File::writePage`: byte-exact transfer of the frame to its page. -/
def writePage (file : Option FileId) (pageNo : Int) (page : Page) (w : World Page) :
    Status × World Page :=
  let w' := w.record (.writePage file pageNo)
  match file, w.disk.read file pageNo with
  | some id, some _ =>
    if w.failing then (.unixErr, w') else (.ok, { w' with disk := w.disk.write id pageNo page })
  | _, _ => (.unixErr, w')

/-- `File::allocatePage`: the store offers a page number of its choosing; an offered number in
use fails the call. The new page is zeroed; the file's first page is its first allocation. -/
def allocatePage (file : Option FileId) (w : World Page) : Except Status Int × World Page :=
  let pageNo := w.fresh w.calls.length
  let w' := w.record (.allocatePage file)
  match file, w.disk.read file pageNo with
  | some id, none =>
    if w.failing then (.error .unixErr, w')
    else
      (.ok pageNo,
        { w' with disk := { w.disk.write id pageNo (some default) with
                            firstPage := Function.update w.disk.firstPage id
                              ((w.disk.firstPage id).orElse fun _ => some pageNo) } })
  | _, _ => (.error .unixErr, w')

/-- `File::disposePage`: the page is deallocated. -/
def disposePage (file : Option FileId) (pageNo : Int) (w : World Page) : Status × World Page :=
  let w' := w.record (.disposePage file pageNo)
  match file, w.disk.read file pageNo with
  | some id, some _ =>
    if w.failing then (.unixErr, w') else (.ok, { w' with disk := w.disk.write id pageNo none })
  | _, _ => (.unixErr, w')

end File

namespace File

variable [Inhabited Page]

/-! ### What each call of the store can do -/

theorem readPage_cases (file : Option FileId) (pageNo : Int) (w : World Page) :
    readPage file pageNo w = (.error .unixErr, w.record (.readPage file pageNo)) ∨
      ∃ page, w.disk.read file pageNo = some page ∧
        readPage file pageNo w = (.ok page, w.record (.readPage file pageNo)) := by
  unfold readPage
  split
  · rename_i page stored
    split
    · exact .inl rfl
    · exact .inr ⟨page, stored, rfl⟩
  · exact .inl rfl

theorem writePage_cases (file : Option FileId) (pageNo : Int) (page : Page) (w : World Page) :
    writePage file pageNo page w = (.unixErr, w.record (.writePage file pageNo)) ∨
      ∃ id, file = some id ∧ (w.disk.read file pageNo).isSome ∧
        writePage file pageNo page w =
          (.ok, { w.record (.writePage file pageNo) with disk := w.disk.write id pageNo (some page) }) := by
  unfold writePage
  split
  · rename_i id old stored
    split
    · exact .inl rfl
    · exact .inr ⟨id, rfl, by simp [stored], rfl⟩
  · exact .inl rfl

theorem disposePage_cases (file : Option FileId) (pageNo : Int) (w : World Page) :
    disposePage file pageNo w = (.unixErr, w.record (.disposePage file pageNo)) ∨
      ∃ id, file = some id ∧
        disposePage file pageNo w =
          (.ok, { w.record (.disposePage file pageNo) with disk := w.disk.write id pageNo none }) := by
  unfold disposePage
  split
  · split
    · exact .inl rfl
    · exact .inr ⟨_, rfl, rfl⟩
  · exact .inl rfl

theorem allocatePage_cases (file : Option FileId) (w : World Page) :
    allocatePage file w = (.error .unixErr, w.record (.allocatePage file)) ∨
      ∃ id disk, file = some id ∧ w.disk.read file (w.fresh w.calls.length) = none ∧
        disk.pages = (w.disk.write id (w.fresh w.calls.length) (some default)).pages ∧
        allocatePage file w =
          (.ok (w.fresh w.calls.length), { w.record (.allocatePage file) with disk := disk }) := by
  unfold allocatePage
  dsimp only
  split
  · rename_i id unallocated
    split
    · exact .inl rfl
    · refine .inr ⟨id, _, rfl, unallocated, ?_, rfl⟩
      rfl
  · exact .inl rfl

end File

end Minirel
