/-
**One page as a client sees it: the abstract cache.**

Seen through the buffer manager, a page of a file is a `Cell`: the bytes and dirty bit of the
frame holding it when it is resident, the store's copy when it is allocated, and the number of
times the store has been asked to dispose of it. `Cell.Step` lists everything a call may do to
it: mark the frame dirty, evict the page (a dirty frame is written back first), load it from the
store, create a page the store does not hold, write into the frame (only a call that writes the
page), or drop it (only with a request to the store to dispose of it).

* `Cell.Backed.step` — **a resident page is allocated in the store**, after every step from a
  cell where this holds.
* `Cell.holds_of_steps` — **only a write or a disposal changes what a page holds**: a page whose
  readers get `bytes`, and whose clean frame agrees with the store, keeps giving `bytes` along
  every run of steps without a write and without a disposal.
-/

import Mathlib.Logic.Relation

namespace Minirel

/-- One page as a client of the buffer manager sees it. -/
structure Cell (Page : Type) where
  /-- the bytes and dirty bit of the frame holding the page, if it is resident -/
  cached : Option (Page × Bool)
  /-- the store's copy, if the page is allocated -/
  stored : Option Page
  /-- how many times the store has been asked to dispose of the page -/
  disposals : Nat

namespace Cell

variable {Page : Type}

/-- What a reader of the page gets: the frame's bytes if it is resident, else the store's. -/
def content (cell : Cell Page) : Option Page :=
  match cell.cached with
  | some (bytes, _) => some bytes
  | none => cell.stored

/-- What one call may do to a page. A write into its frame is a step only when `writes` holds. -/
inductive Step (writes : Prop) : Cell Page → Cell Page → Prop
  | mark {bytes : Page} {dirty stored n} :
      Step writes ⟨some (bytes, dirty), stored, n⟩ ⟨some (bytes, true), stored, n⟩
  | evict {bytes : Page} {dirty stored n} :
      Step writes ⟨some (bytes, dirty), stored, n⟩
        ⟨none, if dirty then some bytes else stored, n⟩
  | load {bytes : Page} {n} : Step writes ⟨none, some bytes, n⟩ ⟨some (bytes, false), some bytes, n⟩
  | create {cached cached' : Option (Page × Bool)} {bytes : Page} {n} :
      Step writes ⟨cached, none, n⟩ ⟨cached', some bytes, n⟩
  | write {bytes bytes' : Page} {dirty stored n} : writes →
      Step writes ⟨some (bytes, dirty), stored, n⟩ ⟨some (bytes', dirty), stored, n⟩
  | drop {cached : Option (Page × Bool)} {stored stored' n n'} : n < n' →
      Step writes ⟨cached, stored, n⟩ ⟨none, stored', n'⟩

/-- Steps allowed to write stay steps when more writes are allowed. -/
theorem Step.mono {writes writes' : Prop} (more : writes → writes') {cell cell' : Cell Page}
    (step : Step writes cell cell') : Step writes' cell cell' := by
  cases step with
  | write allowed => exact .write (more allowed)
  | mark => exact .mark
  | evict => exact .evict
  | load => exact .load
  | create => exact .create
  | drop more => exact .drop more

/-! The steps, read off the fields of the two cells. -/

section Fields

variable {writes : Prop} {cell cell' : Cell Page} {bytes : Page}

theorem Step.of_mark {dirty : Bool} (cached : cell.cached = some (bytes, dirty))
    (marked : cell'.cached = some (bytes, true)) (stored : cell'.stored = cell.stored)
    (same : cell'.disposals = cell.disposals) : Step writes cell cell' := by
  rcases cell with ⟨_, _, _⟩
  rcases cell' with ⟨_, _, _⟩
  simp only at cached marked stored same
  subst cached marked stored same
  exact .mark

theorem Step.of_load (absent : cell.cached = none) (stored : cell.stored = some bytes)
    (loaded : cell'.cached = some (bytes, false)) (kept : cell'.stored = cell.stored)
    (same : cell'.disposals = cell.disposals) : Step writes cell cell' := by
  rcases cell with ⟨_, _, _⟩
  rcases cell' with ⟨_, _, _⟩
  simp only at absent stored loaded kept same
  subst absent stored loaded kept same
  exact .load

theorem Step.of_create (absent : cell.stored = none) (created : cell'.stored.isSome)
    (same : cell'.disposals = cell.disposals) : Step writes cell cell' := by
  rcases cell with ⟨_, _, _⟩
  rcases cell' with ⟨_, _ | _, _⟩
  · cases created
  simp only at absent same
  subst absent same
  exact .create

theorem Step.of_write (allowed : writes) {bytes' : Page} {dirty : Bool}
    (cached : cell.cached = some (bytes, dirty)) (written : cell'.cached = some (bytes', dirty))
    (stored : cell'.stored = cell.stored) (same : cell'.disposals = cell.disposals) :
    Step writes cell cell' := by
  rcases cell with ⟨_, _, _⟩
  rcases cell' with ⟨_, _, _⟩
  simp only at cached written stored same
  subst cached written stored same
  exact .write allowed

theorem Step.of_drop (dropped : cell'.cached = none) (more : cell.disposals < cell'.disposals) :
    Step writes cell cell' := by
  rcases cell with ⟨_, _, _⟩
  rcases cell' with ⟨_, _, _⟩
  simp only at dropped more
  subst dropped
  exact .drop more

end Fields

theorem reflGen_of_eq {writes : Prop} {cell cell' : Cell Page} (same : cell' = cell) :
    Relation.ReflGen (Step writes) cell cell' :=
  same ▸ .refl

/-- A call that is at most one step leaves the page as it was or takes one step. -/
theorem eq_or_step_of_reflGen {writes : Prop} {cell cell' : Cell Page}
    (step : Relation.ReflGen (Step writes) cell cell') : cell' = cell ∨ Step writes cell cell' := by
  cases step with
  | refl => exact .inl rfl
  | single step => exact .inr step

theorem Step.disposals_le {writes : Prop} {cell cell' : Cell Page} (step : Step writes cell cell') :
    cell.disposals ≤ cell'.disposals := by
  cases step with
  | drop more => exact Nat.le_of_lt more
  | _ => exact Nat.le_refl _

theorem disposals_le_of_reflGen {writes : Prop} {cell cell' : Cell Page}
    (step : Relation.ReflGen (Step writes) cell cell') : cell.disposals ≤ cell'.disposals := by
  cases step with
  | refl => exact Nat.le_refl _
  | single step => exact step.disposals_le

theorem disposals_le_of_steps {writes : Prop} {cell cell' : Cell Page}
    (steps : Relation.ReflTransGen (Step writes) cell cell') : cell.disposals ≤ cell'.disposals := by
  induction steps with
  | refl => exact Nat.le_refl _
  | tail _ step before => exact Nat.le_trans before step.disposals_le

/-- The page after an eviction: no longer resident, its frame's bytes on the store if the frame
was dirty. A page that is not resident is left as it is. -/
def evicted (cell : Cell Page) : Cell Page :=
  match cell.cached with
  | some (bytes, dirty) => ⟨none, if dirty then some bytes else cell.stored, cell.disposals⟩
  | none => cell

@[simp] theorem evicted_cached (cell : Cell Page) : cell.evicted.cached = none := by
  unfold evicted
  split
  · rfl
  · assumption

@[simp] theorem evicted_disposals (cell : Cell Page) : cell.evicted.disposals = cell.disposals := by
  unfold evicted
  split <;> rfl

theorem evicted_of_cached {cell : Cell Page} {bytes : Page} {dirty : Bool}
    (cached : cell.cached = some (bytes, dirty)) :
    cell.evicted = ⟨none, if dirty then some bytes else cell.stored, cell.disposals⟩ := by
  simp only [evicted, cached]

theorem evicted_of_absent {cell : Cell Page} (absent : cell.cached = none) : cell.evicted = cell := by
  simp only [evicted, absent]

theorem evicted_evicted (cell : Cell Page) : cell.evicted.evicted = cell.evicted :=
  evicted_of_absent (evicted_cached cell)

theorem evicted_stored_isSome {cell : Cell Page} (allocated : cell.stored.isSome) :
    cell.evicted.stored.isSome := by
  rcases cell with ⟨_ | ⟨bytes, dirty⟩, stored, n⟩
  · exact allocated
  · cases dirty
    · exact allocated
    · rfl

/-- Evicting is a step, or nothing if the page is not resident. -/
theorem reflGen_evicted {writes : Prop} (cell : Cell Page) :
    Relation.ReflGen (Step writes) cell cell.evicted := by
  rcases cell with ⟨_ | ⟨bytes, dirty⟩, stored, n⟩
  · exact .refl
  · exact .single .evict

/-! ### A resident page is allocated -/

/-- A resident page is allocated in the store. -/
def Backed (cell : Cell Page) : Prop := cell.cached.isSome → cell.stored.isSome

theorem Backed.step {writes : Prop} {cell cell' : Cell Page} (backed : Backed cell)
    (step : Step writes cell cell') : Backed cell' := by
  cases step with
  | mark | write => exact backed
  | evict | drop => intro resident; cases resident
  | load | create => intro _; rfl

/-- A resident page stays allocated across at most one step. -/
theorem Backed.reflGen {writes : Prop} {cell cell' : Cell Page} (backed : Backed cell)
    (step : Relation.ReflGen (Step writes) cell cell') : Backed cell' := by
  rcases eq_or_step_of_reflGen step with same | step
  · exact same ▸ backed
  · exact backed.step step

/-! ### What a page holds -/

/-- The frame holding the page holds `bytes`. -/
def Written (bytes : Page) (cell : Cell Page) : Prop := ∃ dirty, cell.cached = some (bytes, dirty)

/-- A reader of a resident page gets its frame's bytes. -/
theorem Written.content {bytes : Page} {cell : Cell Page} (written : Written bytes cell) :
    cell.content = some bytes := by
  obtain ⟨dirty, cached⟩ := written
  simp [Cell.content, cached]

/-- A step that neither writes the page nor disposes of it, and after which the page is still
resident, keeps its frame's bytes: such a step is a `mark`. -/
theorem Written.step {bytes : Page} {cell cell' : Cell Page} (written : Written bytes cell)
    (backed : Backed cell) (step : Step False cell cell') (resident : cell'.cached.isSome) :
    Written bytes cell' := by
  obtain ⟨dirty, cached⟩ := written
  cases step with
  | mark => cases cached; exact ⟨true, rfl⟩
  | evict | drop => cases resident
  | load => cases cached
  | create => cases backed (by rw [cached]; rfl)
  | write writes => exact writes.elim

/-- The page holds `bytes` for its readers: it is allocated, a reader gets `bytes`, and a clean
frame holds the store's bytes. -/
structure Holds (bytes : Page) (cell : Cell Page) : Prop where
  allocated : cell.stored.isSome
  content : cell.content = some bytes
  clean : ∀ b, cell.cached = some (b, false) → cell.stored = some b

/-- One step that neither writes the page nor disposes of it keeps what it holds. -/
theorem Holds.step {bytes : Page} {cell cell' : Cell Page} (holds : Holds bytes cell)
    (step : Step False cell cell') (kept : cell'.disposals = cell.disposals) :
    Holds bytes cell' := by
  obtain ⟨allocated, content, clean⟩ := holds
  cases step with
  | mark => exact ⟨allocated, content, fun _ clean' => by cases clean'⟩
  | @evict b dirty stored n =>
    cases dirty with
    | true => exact ⟨rfl, content, fun _ clean' => by cases clean'⟩
    | false =>
      have agrees := clean b rfl
      refine ⟨allocated, ?_, fun _ clean' => by cases clean'⟩
      rw [← content]
      exact agrees
  | load => exact ⟨allocated, content, fun _ clean' => by cases clean'; rfl⟩
  | create => cases allocated
  | write writes => exact writes.elim
  | drop more => exact absurd kept (Nat.ne_of_gt more)

/-- An eviction of a page that holds `bytes` leaves `bytes` in the store. -/
theorem Holds.evicted_stored {bytes : Page} {cell : Cell Page} (holds : Holds bytes cell) :
    cell.evicted.stored = some bytes := by
  obtain ⟨_, content, clean⟩ := holds
  rcases cell with ⟨_ | ⟨b, _ | _⟩, stored, n⟩
  · exact content
  · exact (clean b rfl).trans content
  · exact content

/-- An eviction keeps what a page holds. -/
theorem Holds.evicted {bytes : Page} {cell : Cell Page} (holds : Holds bytes cell) :
    Holds bytes cell.evicted :=
  ⟨by rw [holds.evicted_stored]; rfl, by
    simp [Cell.content, holds.evicted_stored],
    fun _ cached => by simp at cached⟩

/-- **Along a run of steps without writes and without disposals, a page keeps what it holds.** -/
theorem holds_of_steps {bytes : Page} {cell cell' : Cell Page}
    (steps : Relation.ReflTransGen (Step False) cell cell') (holds : Holds bytes cell)
    (kept : cell'.disposals = cell.disposals) : Holds bytes cell' := by
  induction steps with
  | refl => exact holds
  | @tail middle last steps step before =>
    have first := disposals_le_of_steps steps
    have second := step.disposals_le
    exact (before (by omega)).step step (by omega)

end Cell

end Minirel
