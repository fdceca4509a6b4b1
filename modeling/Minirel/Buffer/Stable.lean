/-
**Pages a client relies on across its calls.**

A heap file writes its pages through the frames it holds pinned and reads the pages it does not
hold; across the calls it makes, it relies on every page of its list reading the same until it
writes the page itself. `Stable w key` says what keeps page `key` safe from the calls: the page
holds its bytes for its readers (`Cell.Holds`: a clean frame holds the store's bytes, and a dirty
one is written back before it is evicted), so that an eviction loses nothing, or it is pinned and allocated (`Pinned`), so that no eviction takes its frame. `Steady w w' key`
says that from `w` to `w'` a stable page stays stable and reads the same.

* `readPage_ok_holds`, `unPinPage_holds` — the calls that write no page keep what every page holds.
* `Steady.of_step` — **a call that is at most one step without a write or a disposal, and keeps a
  pinned page pinned, is steady for every page**: a page that holds its bytes keeps them, and a
  pinned one keeps its frame's bytes (`Cell.Written.step`).
* `Steady.readPage`, `Steady.allocPage` — a `readPage` or an `allocPage` that returns `OK` is
  steady for every page; `allocPage_ok_fresh`: the page it hands out was not allocated before.
* `Steady.unPinPage_dirty`, `Steady.unPinPage_other` — an `unPinPage` is steady for the pages it
  does not release and for a page it releases dirty: a page written under a pin and released with
  `unPinPage(file, pageNo, true)` holds its bytes from then on.
* `Steady.setPage`, `Stable.setPage_self` — a client's write into a frame is steady for every page
  another frame holds, and the stable page pinned in that frame reads the new bytes.
* `PinnedAt` — a page pinned in a frame stays in it across the calls that keep it pinned;
  `PinnedAt.holds_unPinPage`: released dirty, it holds its frame's bytes from then on.
* `flushFile_holds`, `allocPage_ok_firstPage`, `flushFile_firstPage` — a flush keeps what every
  page holds; only the first allocation of a file sets the store's first page of the file.
* `Stable.flushFile_stored` — **a flush of a file that returns `OK` leaves every stable page of
  the file in the store as its readers saw it.**
-/

import Minirel.Buffer.Coherence
import Minirel.Buffer.Flush

set_option linter.unusedSectionVars false

namespace Minirel

variable {Page : Type} [Inhabited Page]

open World BufMgr

/-! ### What a call keeps of a page -/

section Keep

variable {w : World Page}

theorem unPinPage_calls (file : Option FileId) (pageNo : Int) (dirty : Bool) (w : World Page) :
    (unPinPage file pageNo dirty w).2.calls = w.calls := by
  unfold unPinPage
  split
  · rfl
  · dsimp only
    split <;> rfl

/-- A `readPage` that returns `OK` asks the store to dispose of no page. -/
theorem readPage_ok_logged (agree : Agree w) {file : Option FileId} {pageNo : Int}
    {page : Option Nat} (ok : (readPage file pageNo page w).1 = .ok) (key : Option FileId × Int) :
    (readPage file pageNo page w).2.2.calls.count (.disposePage key.1 key.2) =
      w.calls.count (.disposePage key.1 key.2) := by
  have outcome := readPage_cases file pageNo page w
  generalize readPage file pageNo page w = result at outcome ok ⊢
  cases outcome with
  | hit => rfl
  | noFrame _ allocated => exact absurd ok (allocBuf_failed agree allocated).1
  | readFailed => cases ok
  | unindexed => cases ok
  | @loaded j w' bytes _ allocated =>
    have logged := allocBuf_logged w key
    rw [allocated] at logged
    show (Call.newBucket :: Call.readPage file pageNo :: w'.calls).count _ = _
    rw [List.count_cons_of_ne (by simp), List.count_cons_of_ne (by simp), logged]

/-- **A `readPage` that returns `OK` keeps what every page holds**, and hands out a frame with
what a reader of the page it reads got. -/
theorem readPage_ok_holds (agree : Agree w) {file : Option FileId} {pageNo : Int}
    {page : Option Nat} {frame : Nat} {w' : World Page}
    (read : readPage file pageNo page w = (.ok, some frame, w')) :
    some (w'.bufPool frame) = (cellOf w (file, pageNo)).content ∧
      ∀ key bytes, Cell.Holds bytes (cellOf w key) → Cell.Holds bytes (cellOf w' key) := by
  rw [readPage_page] at read
  simp only [Prod.mk.injEq] at read
  obtain ⟨ok, handed, rfl⟩ := read
  obtain ⟨j, assigned, content⟩ := readPage_ok_content agree ok
  rw [assigned] at handed
  cases Option.some.inj handed
  refine ⟨content, fun key bytes holds => ?_⟩
  rcases Cell.eq_or_step_of_reflGen
    (cellOf_readPage agree file pageNo key : Relation.ReflGen (Cell.Step False) _ _) with same | step
  · exact same ▸ holds
  · exact holds.step step (readPage_ok_logged agree ok key)

/-- `unPinPage` keeps what every page holds. -/
theorem unPinPage_holds (agree : Agree w) (file : Option FileId) (pageNo : Int) (dirty : Bool)
    {key : Option FileId × Int} {bytes : Page} (holds : Cell.Holds bytes (cellOf w key)) :
    Cell.Holds bytes (cellOf (unPinPage file pageNo dirty w).2 key) := by
  rcases Cell.eq_or_step_of_reflGen
    (cellOf_unPinPage agree file pageNo dirty key : Relation.ReflGen (Cell.Step False) _ _)
    with same | step
  · exact same ▸ holds
  · exact holds.step step (congrArg (List.count _) (unPinPage_calls file pageNo dirty w))

/-- `flushFile` keeps what every page holds: it evicts a page at most once. -/
theorem flushFile_holds (agree : Agree w) (file : Option FileId) {key : Option FileId × Int}
    {bytes : Page} (holds : Cell.Holds bytes (cellOf w key)) :
    Cell.Holds bytes (cellOf (flushFile file w).2 key) := by
  rcases cellOf_flushFileFrom file key (List.range w.numBufs) agree
    (fun _ mem => List.mem_range.mp mem) with same | evicted
  · exact same ▸ holds
  · exact evicted ▸ holds.evicted

/-- A `readPage` that returns `OK` leaves the page indexed at the frame it hands out. -/
theorem readPage_ok_indexed (agree : Agree w) {file : Option FileId} {pageNo : Int}
    {page : Option Nat} {frame : Nat} {w' : World Page}
    (read : readPage file pageNo page w = (.ok, some frame, w')) :
    w'.hashTable.frameOf (file, pageNo) = some frame := by
  have outcome := readPage_cases file pageNo page w
  rw [read] at outcome
  cases outcome with
  | hit found => exact found
  | noFrame _ allocated => exact absurd rfl (allocBuf_failed agree allocated).1
  | loaded => exact Function.update_same _ _ _

end Keep

/-! ### The store's schedule -/

section Schedule

/-- The outside world's schedule: which calls out of the sources fail, and which page numbers the
store offers. -/
def World.schedule (w : World Page) : (Nat → Bool) × (Nat → Int) := (w.fault, w.fresh)

/-- No call changes the schedule. -/
@[simp] theorem File.readPage_schedule (file : Option FileId) (pageNo : Int) (w : World Page) :
    (File.readPage file pageNo w).2.schedule = w.schedule := by
  unfold File.readPage
  repeat' (first | dsimp only | split)
  all_goals rfl

@[simp] theorem File.writePage_schedule (file : Option FileId) (pageNo : Int) (page : Page)
    (w : World Page) : (File.writePage file pageNo page w).2.schedule = w.schedule := by
  unfold File.writePage
  repeat' (first | dsimp only | split)
  all_goals rfl

@[simp] theorem File.allocatePage_schedule (file : Option FileId) (w : World Page) :
    (File.allocatePage file w).2.schedule = w.schedule := by
  unfold File.allocatePage
  repeat' (first | dsimp only | split)
  all_goals rfl

@[simp] theorem File.disposePage_schedule (file : Option FileId) (pageNo : Int) (w : World Page) :
    (File.disposePage file pageNo w).2.schedule = w.schedule := by
  unfold File.disposePage
  repeat' (first | dsimp only | split)
  all_goals rfl

theorem writeBack_schedule (w : World Page) (frame : Nat) :
    (writeBack w frame).2.schedule = w.schedule := by
  unfold writeBack
  dsimp only
  split
  · exact File.writePage_schedule _ _ _ _
  · rfl

theorem replaceFrame_schedule (w : World Page) : (replaceFrame w).2.schedule = w.schedule := by
  unfold replaceFrame
  have kept := writeBack_schedule w w.clockHand
  generalize writeBack w w.clockHand = result at kept ⊢
  obtain ⟨written, w'⟩ := result
  dsimp only
  split_ifs
  · exact kept
  · split <;> exact kept

theorem allocBufLoop_schedule : ∀ (fuel numPinnedPages : Nat) (w : World Page),
    (allocBufLoop fuel numPinnedPages w).2.schedule = w.schedule
  | 0, _, _ => rfl
  | fuel + 1, numPinnedPages, w => by
    unfold allocBufLoop
    dsimp only
    split_ifs
    · rfl
    · rfl
    · rw [allocBufLoop_schedule]
      rfl
    · rw [allocBufLoop_schedule]
      rfl
    · rw [replaceFrame_schedule]
      rfl

@[simp] theorem allocBuf_schedule (w : World Page) : (allocBuf w).2.schedule = w.schedule :=
  allocBufLoop_schedule _ _ w

@[simp] theorem disposePage_schedule (file : Option FileId) (pageNo : Int) (w : World Page) :
    (disposePage file pageNo w).2.schedule = w.schedule := by
  unfold disposePage
  rw [File.disposePage_schedule]
  repeat' (first | dsimp only | split)
  all_goals rfl

@[simp] theorem readPage_schedule (file : Option FileId) (pageNo : Int) (page : Option Nat)
    (w : World Page) : (readPage file pageNo page w).2.2.schedule = w.schedule := by
  unfold readPage
  split
  · cases allocated : allocBuf w with
    | mk result w₁ =>
      have kept : w₁.schedule = w.schedule := by rw [← allocBuf_schedule w, allocated]
      cases result with
      | error => exact kept
      | ok frame =>
        dsimp only
        cases read : File.readPage file pageNo w₁ with
        | mk result w₂ =>
          have kept₂ : w₂.schedule = w.schedule := by
            rw [← kept, ← File.readPage_schedule file pageNo w₁, read]
          cases result with
          | error => exact (disposePage_schedule file pageNo w₂).trans kept₂
          | ok bytes =>
            dsimp only
            split <;> exact kept₂
  · rfl

@[simp] theorem allocPage_schedule (file : Option FileId) (w : World Page) :
    (allocPage file w).2.schedule = w.schedule := by
  unfold allocPage
  cases offered : File.allocatePage file w with
  | mk result w₁ =>
    have kept : w₁.schedule = w.schedule := by rw [← File.allocatePage_schedule file w, offered]
    cases result with
    | error => exact kept
    | ok pageNum =>
      dsimp only
      cases allocated : allocBuf w₁ with
      | mk result w₂ =>
        have kept₂ : w₂.schedule = w.schedule := by rw [← kept, ← allocBuf_schedule w₁, allocated]
        cases result with
        | error => exact kept₂
        | ok frame =>
          dsimp only
          split <;> exact kept₂

@[simp] theorem unPinPage_schedule (file : Option FileId) (pageNo : Int) (dirty : Bool)
    (w : World Page) : (unPinPage file pageNo dirty w).2.schedule = w.schedule := by
  unfold unPinPage
  repeat' (first | dsimp only | split)
  all_goals rfl

theorem allocBuf_fresh (w : World Page) : (allocBuf w).2.fresh = w.fresh :=
  congrArg Prod.snd (allocBuf_schedule w)

theorem readPage_fresh (file : Option FileId) (pageNo : Int) (page : Option Nat) (w : World Page) :
    (readPage file pageNo page w).2.2.fresh = w.fresh :=
  congrArg Prod.snd (readPage_schedule file pageNo page w)

theorem allocPage_fresh (file : Option FileId) (w : World Page) :
    (allocPage file w).2.fresh = w.fresh :=
  congrArg Prod.snd (allocPage_schedule file w)

theorem unPinPage_fresh (file : Option FileId) (pageNo : Int) (dirty : Bool) (w : World Page) :
    (unPinPage file pageNo dirty w).2.fresh = w.fresh :=
  congrArg Prod.snd (unPinPage_schedule file pageNo dirty w)

/-- The page `allocPage` hands out is one the store's schedule offers. -/
theorem allocPage_ok_offered {w w' : World Page} {file : Option FileId} {pageNo : Int}
    {frame : Nat} (allocated : allocPage file w = (.ok (pageNo, frame), w')) :
    pageNo = w.fresh w.calls.length := by
  have outcome := allocPage_cases file w
  rw [allocated] at outcome
  cases outcome with
  | allocated offered =>
    rcases File.allocatePage_cases file w with refused | ⟨_, _, _, _, _, given⟩
    · rw [refused] at offered
      cases offered
    · rw [given] at offered
      cases offered
      rfl

/-! Only the store's first allocation for a file names the file's first page. -/

@[simp] theorem File.writePage_firstPage (file : Option FileId) (pageNo : Int) (page : Page)
    (w : World Page) : (File.writePage file pageNo page w).2.disk.firstPage = w.disk.firstPage := by
  unfold File.writePage
  repeat' (first | dsimp only | split)
  all_goals rfl

theorem File.allocatePage_ok_firstPage {w w' : World Page} {id : FileId} {pageNo : Int}
    (offered : File.allocatePage (some id) w = (.ok pageNo, w')) :
    w'.disk.firstPage id = (w.disk.firstPage id).orElse fun _ => some pageNo := by
  unfold File.allocatePage at offered
  repeat' (first | dsimp only at offered | split at offered)
  all_goals cases offered
  cases Option.some.inj ‹some id = some _›
  simp

theorem replaceFrame_firstPage (w : World Page) :
    (replaceFrame w).2.disk.firstPage = w.disk.firstPage := by
  unfold replaceFrame writeBack
  repeat' (first | dsimp only | split)
  all_goals simp [setDesc]

theorem allocBufLoop_firstPage : ∀ (fuel numPinnedPages : Nat) (w : World Page),
    (allocBufLoop fuel numPinnedPages w).2.disk.firstPage = w.disk.firstPage
  | 0, _, _ => rfl
  | fuel + 1, numPinnedPages, w => by
    unfold allocBufLoop
    dsimp only
    split_ifs
    · rfl
    · rfl
    · rw [allocBufLoop_firstPage]
      rfl
    · rw [allocBufLoop_firstPage]
      rfl
    · rw [replaceFrame_firstPage]
      rfl

@[simp] theorem allocBuf_firstPage (w : World Page) :
    (allocBuf w).2.disk.firstPage = w.disk.firstPage :=
  allocBufLoop_firstPage _ _ w

/-- The page `allocPage` hands out is the file's first page if the file had none. -/
theorem allocPage_ok_firstPage {w w' : World Page} {id : FileId} {pageNo : Int} {frame : Nat}
    (allocated : allocPage (some id) w = (.ok (pageNo, frame), w')) :
    w'.disk.firstPage id = (w.disk.firstPage id).orElse fun _ => some pageNo := by
  have outcome := allocPage_cases (some id) w
  rw [allocated] at outcome
  cases outcome with
  | @allocated _ _ w₁ w₂ offered given _ =>
    have kept : w₂.disk.firstPage = w₁.disk.firstPage := by rw [← allocBuf_firstPage w₁, given]
    exact (congrFun kept id).trans (File.allocatePage_ok_firstPage offered)

@[simp] theorem unPinPage_disk (file : Option FileId) (pageNo : Int) (dirty : Bool)
    (w : World Page) : (unPinPage file pageNo dirty w).2.disk = w.disk := by
  unfold unPinPage
  repeat' (first | dsimp only | split)
  all_goals rfl

theorem flushFileFrom_firstPage (file : Option FileId) :
    ∀ (frames : List Nat) (w : World Page),
      (flushFileFrom file frames w).2.disk.firstPage = w.disk.firstPage
  | [], _ => rfl
  | i :: rest, w => by
    have turn := flushFileFrom_cons file i rest w
    generalize flushFileFrom file (i :: rest) w = result at turn ⊢
    cases turn with
    | flushed _ _ _ back =>
      refine (flushFileFrom_firstPage file rest _).trans ?_
      cases back <;> rfl
    | passed => exact flushFileFrom_firstPage file rest w
    | pinned | writeFailed | stale => rfl

@[simp] theorem flushFile_firstPage (file : Option FileId) (w : World Page) :
    (flushFile file w).2.disk.firstPage = w.disk.firstPage :=
  flushFileFrom_firstPage file _ w

end Schedule

/-! ### Frames, pins and the store -/

section Calls

variable {w w' : World Page} {key : Option FileId × Int}

/-- The index gives a frame to one page at most. -/
theorem Agree.frameOf_ne (agree : Agree w) {key₀ : Option FileId × Int} {i : Nat}
    (found : w.hashTable.frameOf key₀ = some i) (other : key ≠ key₀) :
    w.hashTable.frameOf key ≠ some i := fun found' =>
  other ((agree.entry key i found').2.2.symm.trans (agree.entry key₀ i found).2.2)

@[simp] theorem unPinPage_hashTable (file : Option FileId) (pageNo : Int) (dirty : Bool)
    (w : World Page) : (unPinPage file pageNo dirty w).2.hashTable = w.hashTable := by
  unfold unPinPage
  split
  · rfl
  · dsimp only
    split <;> rfl

theorem pinsOf_unPinPage_other (agree : Agree w) {file : Option FileId} {pageNo : Int}
    (other : key ≠ (file, pageNo)) (dirty : Bool) :
    pinsOf (unPinPage file pageNo dirty w).2 key = pinsOf w key := by
  rw [(pinMove_unPinPage agree file pageNo dirty).pins key]
  simp [pinStep, Ne.symm other]

/-- An `allocPage` asks the store to dispose of no page. -/
theorem allocPage_logged (file : Option FileId) (key : Option FileId × Int) :
    (allocPage file w).2.calls.count (.disposePage key.1 key.2) =
      w.calls.count (.disposePage key.1 key.2) := by
  have offered {pageNum : Int} {w₁ : World Page}
      (offered : File.allocatePage file w = (.ok pageNum, w₁)) :
      (cellOf w₁ key).disposals = (cellOf w key).disposals := by
    obtain ⟨-, -, logged, others⟩ := File.allocatePage_cells offered
    by_cases same : key = (file, pageNum)
    · exact same ▸ logged
    · rw [others key same]
  have framed {w₁ w₂ : World Page} {result : Except Status Nat}
      (allocated : allocBuf w₁ = (result, w₂)) :
      (cellOf w₂ key).disposals = (cellOf w₁ key).disposals := by
    have logged := allocBuf_logged w₁ key
    rwa [allocated] at logged
  have outcome := allocPage_cases file w
  generalize allocPage file w = result at outcome ⊢
  cases outcome with
  | noPage =>
    show (Call.allocatePage file :: w.calls).count _ = _
    rw [List.count_cons_of_ne (by simp)]
  | noFrame given allocated => exact (framed allocated).trans (offered given)
  | @unindexed _ _ _ w₂ given allocated | @allocated _ _ _ w₂ given allocated =>
    show (Call.newBucket :: w₂.calls).count _ = _
    rw [List.count_cons_of_ne (by simp)]
    exact (framed allocated).trans (offered given)

/-- **An `allocPage` that returns `OK` hands out a page the store did not hold**: allocated now,
and indexed at the frame it returns. -/
theorem allocPage_ok_fresh (agree : Agree w) {file : Option FileId} {pageNo : Int} {frame : Nat}
    (allocated : allocPage file w = (.ok (pageNo, frame), w')) :
    (cellOf w (file, pageNo)).stored = none ∧ (cellOf w' (file, pageNo)).stored.isSome ∧
      w'.hashTable.frameOf (file, pageNo) = some frame := by
  have outcome := allocPage_cases file w
  rw [allocated] at outcome
  cases outcome with
  | allocated offered allocBuf' _ =>
    obtain ⟨absent, created, -, -⟩ := File.allocatePage_cells offered
    exact ⟨absent, (allocBuf_stored (agree.fileAllocated offered) allocBuf' created).1,
      Function.update_same _ _ _⟩

/-- An `allocPage` that fails does not say `OK`. -/
theorem allocPage_error_ne (agree : Agree w) {file : Option FileId} {status : Status}
    (failed : allocPage file w = (.error status, w')) : status ≠ .ok := by
  have outcome := allocPage_cases file w
  rw [failed] at outcome
  cases outcome with
  | noPage => decide
  | noFrame offered allocated => exact (allocBuf_failed (agree.fileAllocated offered) allocated).1
  | unindexed => decide

/-- Page `key` is pinned in frame `i`. -/
def PinnedAt (w : World Page) (key : Option FileId × Int) (i : Nat) : Prop :=
  w.hashTable.frameOf key = some i ∧ 0 < pinsOf w key

/-- A call after which a pinned page is still pinned leaves it in its frame. -/
theorem PinMove.pinnedAt {op : Op Page} {reply : Reply} (move : PinMove w w' op reply) {i : Nat}
    (pinned : PinnedAt w key i) (still : 0 < pinsOf w' key) : PinnedAt w' key i := by
  obtain ⟨i', found'⟩ := found_of_pinsOf_pos still
  have count := pinned.2
  rw [pinsOf_of_found pinned.1] at count
  obtain rfl := move.stay key i i' pinned.1 count found'
  exact ⟨found', still⟩

theorem PinnedAt.readPage (agree : Agree w) {i : Nat} (pinned : PinnedAt w key i)
    {file : Option FileId} {pageNo : Int} {page : Option Nat} {frame : Nat}
    (read : readPage file pageNo page w = (.ok, some frame, w')) : PinnedAt w' key i := by
  have raised := pinsOf_readPage agree read key
  rw [readPage_page] at read
  simp only [Prod.mk.injEq] at read
  obtain ⟨-, -, rfl⟩ := read
  have held := pinned.2
  exact (pinMove_readPage agree file pageNo).pinnedAt pinned (by rw [raised]; split_ifs <;> omega)

theorem PinnedAt.allocPage (agree : Agree w) {i : Nat} (pinned : PinnedAt w key i)
    {file : Option FileId} {pageNo : Int} {frame : Nat}
    (allocated : allocPage file w = (.ok (pageNo, frame), w')) : PinnedAt w' key i := by
  have move := pinMove_allocPage agree file
  simp only [Op.apply, allocated] at move
  have held := pinned.2
  exact move.pinnedAt pinned (by rw [pinsOf_allocPage_ok agree allocated]; split_ifs <;> omega)

theorem PinnedAt.unPinPage (agree : Agree w) {i : Nat} (pinned : PinnedAt w key i)
    (file : Option FileId) (pageNo : Int) (dirty : Bool)
    (more : key = (file, pageNo) → 1 < pinsOf w key) :
    PinnedAt (unPinPage file pageNo dirty w).2 key i := by
  refine ⟨by rw [unPinPage_hashTable]; exact pinned.1, ?_⟩
  by_cases target : key = (file, pageNo)
  · subst target
    rw [pinsOf_unPinPage_pinned agree pinned.2, if_pos rfl]
    have := more rfl
    omega
  · rw [pinsOf_unPinPage_other agree target]
    exact pinned.2

theorem PinnedAt.setPage {i : Nat} (pinned : PinnedAt w key i) (j : Nat) (bytes : Page) :
    PinnedAt (w.setPage j bytes) key i :=
  pinned

/-- The page a `readPage` that returns `OK` reads is pinned in the frame it hands out. -/
theorem readPage_ok_pinnedAt (agree : Agree w) {file : Option FileId} {pageNo : Int}
    {page : Option Nat} {frame : Nat} (read : readPage file pageNo page w = (.ok, some frame, w')) :
    PinnedAt w' (file, pageNo) frame := by
  refine ⟨readPage_ok_indexed agree read, ?_⟩
  rw [pinsOf_readPage agree read, if_pos ⟨rfl, rfl⟩]
  have := pinsOf_nonneg agree (file, pageNo)
  omega

/-- The allocated page is pinned in the frame `allocPage` returns. -/
theorem allocPage_ok_pinnedAt (agree : Agree w) {file : Option FileId} {pageNo : Int} {frame : Nat}
    (allocated : allocPage file w = (.ok (pageNo, frame), w')) :
    PinnedAt w' (file, pageNo) frame := by
  refine ⟨(allocPage_ok_fresh agree allocated).2.2, ?_⟩
  rw [pinsOf_allocPage_ok agree allocated, if_pos rfl]
  have := pinsOf_nonneg agree (file, pageNo)
  omega

end Calls

/-! ### Stable pages -/

/-- Page `key` is pinned and allocated: no eviction takes its frame, and the store holds a copy. -/
def Pinned (w : World Page) (key : Option FileId × Int) : Prop :=
  0 < pinsOf w key ∧ (cellOf w key).stored.isSome

/-- Page `key` reads the same across every call that neither writes nor disposes of it, and keeps
it pinned if it is: it holds its bytes for its readers, an eviction losing none, or it is
pinned. -/
def Stable (w : World Page) (key : Option FileId × Int) : Prop :=
  (∃ bytes, Cell.Holds bytes (cellOf w key)) ∨ Pinned w key

/-- From `w` to `w'`, page `key` stays stable if it was, and reads the same. -/
def Steady (w w' : World Page) (key : Option FileId × Int) : Prop :=
  Stable w key → Stable w' key ∧ (cellOf w' key).content = (cellOf w key).content

section Stable

variable {w w₁ w₂ w₃ w' : World Page} {key : Option FileId × Int}

theorem Steady.trans (first : Steady w₁ w₂ key) (second : Steady w₂ w₃ key) : Steady w₁ w₃ key :=
  fun stable =>
    have ⟨stable₂, same₂⟩ := first stable
    have ⟨stable₃, same₃⟩ := second stable₂
    ⟨stable₃, same₃.trans same₂⟩

/-- A stable page is allocated. -/
theorem Stable.allocated (stable : Stable w key) : (cellOf w key).stored.isSome :=
  stable.elim (fun ⟨_, holds⟩ => holds.allocated) And.right

/-- A pinned page is resident: its frame holds what a reader gets. -/
theorem Pinned.written (pinned : Pinned w key) :
    ∃ i, w.hashTable.frameOf key = some i ∧ Cell.Written (w.bufPool i) (cellOf w key) := by
  obtain ⟨i, found⟩ := found_of_pinsOf_pos pinned.1
  exact ⟨i, found, (w.bufTable i).dirty, by simp [cellOf, found]⟩

/-- **A call that is at most one step without a write or a disposal, and keeps a pinned page
pinned, is steady for the page.** -/
theorem Steady.of_step (step : Relation.ReflGen (Cell.Step False) (cellOf w key) (cellOf w' key))
    (kept : (cellOf w' key).disposals = (cellOf w key).disposals)
    (pins : 0 < pinsOf w key → 0 < pinsOf w' key) : Steady w w' key := by
  intro stable
  rcases Cell.eq_or_step_of_reflGen step with same | step
  · refine ⟨?_, by rw [same]⟩
    unfold Stable Pinned
    rw [same]
    exact stable.imp id (And.imp_left pins)
  rcases stable with ⟨bytes, holds⟩ | pinned
  · have holds' := holds.step step kept
    exact ⟨.inl ⟨bytes, holds'⟩, holds'.content.trans holds.content.symm⟩
  · obtain ⟨i, -, written⟩ := pinned.written
    obtain ⟨i', found'⟩ := found_of_pinsOf_pos (pins pinned.1)
    have resident : (cellOf w' key).cached.isSome := by simp [cellOf, found']
    have backed : Cell.Backed (cellOf w key) := fun _ => pinned.2
    exact ⟨.inr ⟨pins pinned.1, backed.step step resident⟩,
      (written.step backed step resident).content.trans written.content.symm⟩

theorem Steady.readPage (agree : Agree w) {file : Option FileId} {pageNo : Int} {page : Option Nat}
    {frame : Nat} (read : readPage file pageNo page w = (.ok, some frame, w'))
    (key : Option FileId × Int) : Steady w w' key := by
  have raised := pinsOf_readPage agree read key
  rw [readPage_page] at read
  simp only [Prod.mk.injEq] at read
  obtain ⟨ok, -, rfl⟩ := read
  exact .of_step (cellOf_readPage agree file pageNo key) (readPage_ok_logged agree ok key)
    fun pinned => by rw [raised]; split_ifs <;> omega

theorem Steady.allocPage (agree : Agree w) {file : Option FileId} {pageNo : Int} {frame : Nat}
    (allocated : allocPage file w = (.ok (pageNo, frame), w')) (key : Option FileId × Int) :
    Steady w w' key := by
  have step :
      Relation.ReflGen (Cell.Step False) (cellOf w key) (cellOf (BufMgr.allocPage file w).2 key) :=
    cellOf_allocPage agree file key
  have kept := allocPage_logged (w := w) file key
  rw [allocated] at step kept
  exact .of_step step kept fun pinned => by
    rw [pinsOf_allocPage_ok agree allocated]
    split_ifs <;> omega

theorem Steady.unPinPage_other (agree : Agree w) {file : Option FileId} {pageNo : Int}
    (other : key ≠ (file, pageNo)) (dirty : Bool) : Steady w (unPinPage file pageNo dirty w).2 key :=
  .of_step (cellOf_unPinPage agree file pageNo dirty key)
    (congrArg (List.count _) (unPinPage_calls file pageNo dirty w))
    fun pinned => by rwa [pinsOf_unPinPage_other agree other]

/-- **Releasing a page dirty is steady for every page**: a pinned page released from its last pin
holds its frame's bytes from then on. -/
theorem Steady.unPinPage_dirty (agree : Agree w) (file : Option FileId) (pageNo : Int)
    (key : Option FileId × Int) : Steady w (unPinPage file pageNo true w).2 key := by
  intro stable
  rcases stable with ⟨bytes, holds⟩ | pinned
  · have holds' := unPinPage_holds agree file pageNo true holds
    exact ⟨.inl ⟨bytes, holds'⟩, holds'.content.trans holds.content.symm⟩
  by_cases target : key = (file, pageNo)
  · subst target
    obtain ⟨w₁, released⟩ := unPinPage_of_pinned pinned.1 true
    obtain ⟨i, -, written⟩ := pinned.written
    have holds := holds_unPinPage (fun _ => pinned.2) written released
    rw [released]
    exact ⟨.inl ⟨_, holds⟩, holds.content.trans written.content.symm⟩
  · exact Steady.unPinPage_other agree target true (.inr pinned)

/-- A write into frame `i` is steady for every page another frame holds. -/
theorem Steady.setPage {i : Nat} (other : w.hashTable.frameOf key ≠ some i) (bytes : Page) :
    Steady w (w.setPage i bytes) key := by
  intro stable
  unfold Stable Pinned
  rw [cellOf_setPage other, pinsOf_setPage]
  exact ⟨stable, rfl⟩

/-- A write into the frame of a stable pinned page leaves it stable, reading the new bytes. -/
theorem Stable.setPage_self (stable : Stable w key) {i : Nat} (pinned : PinnedAt w key i)
    (bytes : Page) :
    Stable (w.setPage i bytes) key ∧ (cellOf (w.setPage i bytes) key).content = some bytes :=
  ⟨.inr ⟨pinned.2, stable.allocated⟩, by simp [cellOf, Cell.content, pinned.1]⟩

/-- A page pinned in a frame reads that frame's bytes. -/
theorem PinnedAt.content {key : Option FileId × Int} {i : Nat}
    (pinned : PinnedAt w key i) : (cellOf w key).content = some (w.bufPool i) := by
  simp [cellOf, Cell.content, pinned.1]

/-- A write into the frame of a pinned page is steady for every other page. -/
theorem Steady.setPage_pinned (agree : Agree w) {key key₀ : Option FileId × Int}
    {i : Nat} (pinned : PinnedAt w key₀ i) (other : key ≠ key₀) (bytes : Page) :
    Steady w (w.setPage i bytes) key :=
  .setPage (agree.frameOf_ne pinned.1 other) bytes

/-- A page pinned in a frame across a call that is steady for it keeps the frame's bytes. -/
theorem PinnedAt.bufPool_eq {key : Option FileId × Int} {i : Nat}
    (pinned : PinnedAt w key i) (pinned' : PinnedAt w' key i) (stable : Stable w key)
    (steady : Steady w w' key) : w'.bufPool i = w.bufPool i :=
  Option.some.inj (pinned'.content.symm.trans ((steady stable).2.trans pinned.content))

/-- **A stable page released dirty from a pin holds its frame's bytes from then on**, whoever
else still holds it pinned. -/
theorem PinnedAt.holds_unPinPage {file : Option FileId} {pageNo : Int} {i : Nat}
    (pinned : PinnedAt w (file, pageNo) i) (stable : Stable w (file, pageNo)) :
    Cell.Holds (w.bufPool i) (cellOf (BufMgr.unPinPage file pageNo true w).2 (file, pageNo)) := by
  obtain ⟨w', released⟩ := unPinPage_of_pinned pinned.2 true
  rw [released]
  exact Minirel.holds_unPinPage (fun _ => stable.allocated)
    ⟨(w.bufTable i).dirty, by simp [cellOf, pinned.1]⟩ released

/-- **A flush of a file that returns `OK` leaves every stable page of the file in the store as its
readers saw it**: a page pinned in a frame would have stopped the flush, so the page held its
bytes, and the flush evicted it. -/
theorem Stable.flushFile_stored (agree : Agree w) {file : Option FileId} {pageNo : Int}
    (stable : Stable w (file, pageNo)) (flushed : flushFile file w = (.ok, w')) :
    ∃ bytes, (cellOf w (file, pageNo)).content = some bytes ∧
      w'.disk.read file pageNo = some bytes := by
  have run : FlushRun file (List.range w.numBufs) w (flushFile file w).1 (flushFile file w).2 :=
    flushFileFrom_run file _ agree (List.nodup_range _) fun _ mem => List.mem_range.mp mem
  have agree' := agree.flushFile file
  rw [flushed] at run agree'
  have cleared (i : Nat) (bound : i < w.numBufs) :
      ¬((w'.bufTable i).valid = true ∧ (w'.bufTable i).file = file) :=
    run.cleared rfl i (List.mem_range.mpr bound)
  obtain ⟨bytes, holds⟩ : ∃ bytes, Cell.Holds bytes (cellOf w (file, pageNo)) := by
    rcases stable with held | ⟨pinned, -⟩
    · exact held
    obtain ⟨i, found⟩ := found_of_pinsOf_pos pinned
    obtain ⟨bound, valid, key⟩ := agree.entry _ _ found
    rw [pinsOf_of_found found] at pinned
    rcases run.frame i with kept | ⟨-, -, unpinned, -⟩
    · exact absurd ⟨kept ▸ valid, kept ▸ congrArg Prod.fst key⟩ (cleared i bound)
    · omega
  have unindexed : w'.hashTable.frameOf (file, pageNo) = none := by
    cases found : w'.hashTable.frameOf (file, pageNo) with
    | none => rfl
    | some j =>
      obtain ⟨bound, valid, key⟩ := agree'.entry _ _ found
      exact absurd ⟨valid, congrArg Prod.fst key⟩ (cleared j (run.numBufs ▸ bound))
  have held := flushFile_holds agree file holds
  rw [flushed] at held
  refine ⟨bytes, holds.content, ?_⟩
  simpa [Cell.content, cellOf, unindexed] using held.content

end Stable

end Minirel
