/-
**What an open heap file holds pinned.**

By design an open heap file holds one pin on its header page and, while `curPage` is set, one on
its cursor page (`HeapFile.held`). A call on the object keeps the pool in step with it when every
page's pins move as the object's held pins do (`Tracks`).

* `HeapFile.construct_pins` — a constructor that returns `OK` takes exactly the pins of the new
  object.
* `HeapFile.getRecord_tracks` — **`getRecord` on an object with a cursor page keeps the pool in
  step** when it returns `OK`, on the fast path and on the path through another page; and it
  leaves a cursor page. Without one, as after `endScan`, it releases page `0`.
* `HeapFile.destruct_pins` — a destructor gives back every pin the object holds, as long as the
  pool holds them.
* `readSession_pins` — **a session of `getRecord` calls that all return `OK` leaves every page's
  pins as they were before the constructor.** The session returns what each call read.
-/

import Minirel.Heap.Cursor

namespace Minirel

open World BufMgr

namespace HeapFile

variable {w : World HeapPage}

/-- The pins an open heap file holds by design: one on its header page, and one on its cursor page
while `curPage` is set. -/
def held (hf : HeapFile) (key : Option FileId × Int) : Int :=
  (if key = (hf.filePtr, hf.headerPageNo) then 1 else 0) +
    (if hf.curPage.isSome ∧ key = (hf.filePtr, hf.curPageNo) then 1 else 0)

/-- The call that took `hf` in `w` to `hf'` in `w'` moved every page's pins as the object's held
pins moved. -/
def Tracks (w w' : World HeapPage) (hf hf' : HeapFile) : Prop :=
  ∀ key, pinsOf w' key - hf'.held key = pinsOf w key - hf.held key

theorem Tracks.trans {w₁ w₂ w₃ : World HeapPage} {hf₁ hf₂ hf₃ : HeapFile}
    (first : Tracks w₁ w₂ hf₁ hf₂) (second : Tracks w₂ w₃ hf₂ hf₃) : Tracks w₁ w₃ hf₁ hf₃ :=
  fun key => (second key).trans (first key)

/-! ### The constructor -/

theorem Db.openFile_error {db : Db} {fileName : String} {status : Status}
    (failed : db.openFile fileName = .error status) : status = .unixErr := by
  unfold Db.openFile at failed
  split at failed <;> cases failed
  rfl

theorem getFirstPage_error {file : Option FileId} {status : Status}
    (failed : File.getFirstPage file w = .error status) : status = .unixErr := by
  unfold File.getFirstPage at failed
  split at failed <;> cases failed
  rfl

/-- **A constructor that returns `OK` takes exactly the pins of the new object**: one on the header
page and one on the first data page, now its cursor page. -/
theorem construct_pins (agree : Agree w) {db : Db} {fileName : String} {hf : HeapFile}
    {w' : World HeapPage} (opened : construct db fileName w = (.ok, hf, w')) :
    Agree w' ∧ hf.curPage.isSome ∧ ∀ key, pinsOf w' key = pinsOf w key + hf.held key := by
  unfold construct at opened
  split at opened
  · rename_i status failed
    cases Db.openFile_error failed
    cases opened
  rename_i filePtr _
  split at opened
  · rename_i status failed
    cases getFirstPage_error failed
    cases opened
  rename_i pageNo _
  split at opened
  · rename_i frame w₁ header
    dsimp only at opened
    split at opened
    · rename_i cur w₂ first
      cases opened
      have agree₁ : Agree w₁ := by simpa [header] using agree.readPage filePtr pageNo none
      refine ⟨(first ▸ agree₁.readPage _ _ _ :), rfl, fun key => ?_⟩
      rw [pinsOf_readPage agree₁ first, pinsOf_readPage agree header]
      simp only [held, and_true, Option.isSome_some, true_and]
      omega
    · rename_i status page w₂ unfound first
      have agree₁ : Agree w₁ := by simpa [header] using agree.readPage filePtr pageNo none
      cases opened
      obtain ⟨cur, handed⟩ := readPage_ok_frame agree₁ (by rw [first])
      rw [first] at handed
      exact (unfound cur rfl handed).elim
  · rename_i status page w₁ unfound header
    cases opened
    obtain ⟨frame, handed⟩ := readPage_ok_frame agree (by rw [header])
    rw [header] at handed
    exact (unfound frame rfl handed).elim

/-! ### `getRecord` -/

/-- The world `readRecord` leaves agrees. -/
theorem readRecord_agree (agree : Agree w) (rid : RID) (hf : HeapFile) :
    Agree (hf.readRecord rid w).2.2.2 := by
  have outcome := readRecord_cases rid hf w
  generalize hf.readRecord rid w = result at outcome ⊢
  cases outcome with
  | unreleased released => exact (released ▸ agree.unPinPage _ _ _ :)
  | unread released loaded | read released loaded =>
    have agree₁ : Agree _ := (released ▸ agree.unPinPage _ _ _ :)
    exact (loaded ▸ agree₁.readPage _ _ _ :)

theorem getRecord_agree (agree : Agree w) (rid : RID) (hf : HeapFile) :
    Agree (hf.getRecord rid w).2.2.2 := by
  unfold getRecord
  split
  · split
    · dsimp only
      split <;> exact agree
    · exact readRecord_agree agree rid _
  · exact readRecord_agree agree rid _

/-- **`getRecord` on an object with a cursor page keeps the pool in step when it returns `OK`**,
and leaves a cursor page: the fast path moves no pin, the path through another page moves the
cursor's pin to the record's page. -/
theorem getRecord_tracks (agree : Agree w) {hf : HeapFile} {frame : Nat}
    (cursor : hf.curPage = some frame) (rid : RID) (got : (hf.getRecord rid w).1 = .ok) :
    (hf.getRecord rid w).2.2.1.curPage.isSome ∧
      Tracks w (hf.getRecord rid w).2.2.2 hf (hf.getRecord rid w).2.2.1 := by
  by_cases same : hf.curPageNo = rid.pageNo
  · have fast : (hf.getRecord rid w).2.2 = ({ hf with curRec := rid }, w) := by
      simp only [getRecord, cursor, if_pos same]
      split <;> rfl
    rw [fast]
    exact ⟨by simp [cursor], fun _ => rfl⟩
  · rw [getRecord_of_moved cursor same] at got ⊢
    obtain ⟨⟨_, moved⟩, pins⟩ := readRecord_ok agree rid hf got
    rw [moved]
    refine ⟨rfl, fun key => ?_⟩
    rw [pins]
    simp only [held, cursor, Option.isSome_some, true_and]
    split_ifs <;> omega

/-! ### The destructor -/

/-- **A destructor gives back every pin the object holds**, as long as the pool holds them. -/
theorem destruct_pins (agree : Agree w) (hf : HeapFile)
    (holds : ∀ key, hf.held key ≤ pinsOf w key) (key : Option FileId × Int) :
    pinsOf (hf.destruct w) key = pinsOf w key - hf.held key := by
  have header := holds (hf.filePtr, hf.headerPageNo)
  unfold destruct
  cases cursor : hf.curPage with
  | none =>
    simp only [held, cursor, Option.isSome_none, Bool.false_eq_true, false_and, if_false,
      if_true, Int.add_zero] at header ⊢
    obtain ⟨w₁, released⟩ :=
      unPinPage_of_pinned (show 0 < pinsOf w (hf.filePtr, hf.headerPageNo) by omega) hf.hdrDirtyFlag
    rw [released, pinsOf_unPinPage_ok agree released]
  | some frame =>
    have current := holds (hf.filePtr, hf.curPageNo)
    simp only [held, cursor, Option.isSome_some, true_and, if_true] at header current ⊢
    obtain ⟨w₁, released⟩ := unPinPage_of_pinned
      (show 0 < pinsOf w (hf.filePtr, hf.curPageNo) by split_ifs at current <;> omega)
      hf.curDirtyFlag
    have agree₁ : Agree w₁ := (released ▸ agree.unPinPage _ _ _ :)
    have lowered := pinsOf_unPinPage_ok agree released
    obtain ⟨w₂, released₂⟩ := unPinPage_of_pinned
      (show 0 < pinsOf w₁ (hf.filePtr, hf.headerPageNo) by
        rw [lowered]
        split_ifs at header ⊢ <;> omega) hf.hdrDirtyFlag
    rw [released, released₂, pinsOf_unPinPage_ok agree₁ released₂, lowered]
    split_ifs <;> omega

end HeapFile

/-! ### A session of reads -/

/-- A client reading the records `rids` one after another through an open `HeapFile`, with the
status and the record of each read. -/
def getAll : List RID → HeapFile → World HeapPage →
    List (Status × Option Record) × HeapFile × World HeapPage
  | [], hf, w => ([], hf, w)
  | rid :: rids, hf, w =>
    let (status, record, hf, w) := hf.getRecord rid w
    let (reads, hf, w) := getAll rids hf w
    ((status, record) :: reads, hf, w)

/-- A client's `HeapFile` session: construct the object, read `rids`, destroy it. -/
def readSession (db : Db) (fileName : String) (rids : List RID) (w : World HeapPage) :
    Status × List (Status × Option Record) × World HeapPage :=
  let (status, hf, w) := HeapFile.construct db fileName w
  let (reads, hf, w) := getAll rids hf w
  (status, reads, hf.destruct w)

open HeapFile in
/-- Reads that all return `OK`, from an object with a cursor page, keep the pool in step. -/
theorem getAll_tracks (rids : List RID) :
    ∀ (hf : HeapFile) (w : World HeapPage), Agree w → hf.curPage.isSome →
      (∀ read ∈ (getAll rids hf w).1, read.1 = .ok) →
      Agree (getAll rids hf w).2.2 ∧ Tracks w (getAll rids hf w).2.2 hf (getAll rids hf w).2.1 := by
  induction rids with
  | nil => exact fun hf w agree _ _ => ⟨agree, fun _ => rfl⟩
  | cons rid rids ih =>
    intro hf w agree cursor read
    obtain ⟨frame, cursor⟩ := Option.isSome_iff_exists.mp cursor
    simp only [getAll, List.mem_cons, forall_eq_or_imp] at read ⊢
    obtain ⟨cursor', first⟩ := getRecord_tracks agree cursor rid read.1
    obtain ⟨agree', rest⟩ := ih _ _ (getRecord_agree agree rid hf) cursor' read.2
    exact ⟨agree', first.trans rest⟩

/-- **A session of `getRecord` calls that all return `OK` leaves every page's pins as they were
before the constructor**: the object takes its pins when it is constructed, keeps the pool in step
at every read, and gives them back when it is destroyed. -/
theorem readSession_pins {w : World HeapPage} (agree : Agree w) (db : Db) (fileName : String)
    (rids : List RID) (opened : (readSession db fileName rids w).1 = .ok)
    (read : ∀ read ∈ (readSession db fileName rids w).2.1, read.1 = .ok)
    (key : Option FileId × Int) :
    pinsOf (readSession db fileName rids w).2.2 key = pinsOf w key := by
  unfold readSession at opened read ⊢
  generalize constructed : HeapFile.construct db fileName w = result at opened read ⊢
  obtain ⟨status, hf, w₁⟩ := result
  dsimp only at opened read ⊢
  subst opened
  obtain ⟨agree₁, cursor, taken⟩ := HeapFile.construct_pins agree constructed
  obtain ⟨agree₂, tracks⟩ := getAll_tracks rids hf w₁ agree₁ cursor read
  generalize getAll rids hf w₁ = run at agree₂ tracks ⊢
  obtain ⟨reads, hf₂, w₂⟩ := run
  dsimp only at agree₂ tracks ⊢
  have kept (key) : pinsOf w₂ key = pinsOf w key + hf₂.held key := by
    have := tracks key
    have := taken key
    omega
  rw [HeapFile.destruct_pins agree₂ hf₂ (fun key => by
    rw [kept]
    have := pinsOf_nonneg agree key
    omega) key, kept]
  omega

/-- A session reading the two records of the file of `storedWorld 4 2` gives page `1` its pins
back. -/
theorem storedFile_readSession_pins :
    pinsOf (readSession storedCatalog "heap" [⟨2, 0⟩, ⟨1, 0⟩] (storedWorld 4 2)).2.2 (some 0, 1) =
      pinsOf (storedWorld 4 2) (some 0, 1) :=
  readSession_pins (Agree.init _ _ _ _) storedCatalog "heap" [⟨2, 0⟩, ⟨1, 0⟩] (by rfl) (by decide) _

end Minirel
