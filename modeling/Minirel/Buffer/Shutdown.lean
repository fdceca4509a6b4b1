/-
**The destructor evicts every page.**

`~BufMgr` writes every valid dirty frame to its page; the frame table and the pool are then
freed. Seen through `cellOf`, that is an eviction of every page at once (`Cell.evicted`), as long
as the store fails none of the writes (`Reliable`): in a reachable world a resident page is
allocated (`backed_reachable`), and no two frames hold one page.

* `destructFrom_read` — the loop over a list of distinct frames writes the bytes of each dirty
  frame among them to its page, and leaves the store's copy of every other page.
* `destruct_stored` — **after the destructor the store holds what an eviction of each page would
  leave**: the frame's bytes if the frame was dirty, else the store's copy as it was.
* `destruct_after_dirty_unPin` — **a page written under a pin and released dirty is in the store
  once the buffer manager is destroyed**, through any calls after the release that neither write
  nor dispose of it.
-/

import Minirel.Buffer.Coherence

set_option linter.unusedSectionVars false

namespace Minirel

variable {Page : Type} [Inhabited Page]

open World

namespace BufMgr

/-- The store fails none of the calls from `w` on. -/
def Reliable (w : World Page) : Prop := ∀ n, w.calls.length ≤ n → w.fault n = false

variable {w : World Page}

/-- A write of a valid frame to its allocated page, the store not failing: the page gets the
frame's bytes, and nothing but the store and the log changes. -/
theorem writePage_frame (reliable : Reliable w) {i : Nat}
    (allocated : (w.disk.read (w.bufTable i).file (w.bufTable i).pageNo).isSome) :
    ∃ id, (w.bufTable i).file = some id ∧
      (File.writePage (w.bufTable i).file (w.bufTable i).pageNo (w.bufPool i) w).2 =
        { w.record (.writePage (w.bufTable i).file (w.bufTable i).pageNo) with
          disk := w.disk.write id (w.bufTable i).pageNo (some (w.bufPool i)) } := by
  obtain ⟨old, stored⟩ := Option.isSome_iff_exists.mp allocated
  cases file : (w.bufTable i).file with
  | none => rw [file] at stored; cases stored
  | some id =>
    rw [file] at stored
    exact ⟨id, rfl, by simp [File.writePage, stored, failing, reliable _ (Nat.le_refl _)]⟩

/-- **The loop of the destructor over distinct frames**: a page whose frame is among them and
dirty gets that frame's bytes; every other page keeps its store copy. -/
theorem destructFrom_read (frames : List Nat) (distinct : frames.Nodup) (w : World Page)
    (agree : Agree w) (reliable : Reliable w) (bounded : ∀ i ∈ frames, i < w.numBufs)
    (allocated : ∀ i ∈ frames, (w.bufTable i).valid = true →
      (w.disk.read (w.bufTable i).file (w.bufTable i).pageNo).isSome)
    (file : Option FileId) (pageNo : Int) :
    (destructFrom frames w).disk.read file pageNo =
      match w.hashTable.frameOf (file, pageNo) with
      | some i =>
        if i ∈ frames ∧ (w.bufTable i).dirty = true then some (w.bufPool i)
        else w.disk.read file pageNo
      | none => w.disk.read file pageNo := by
  induction frames generalizing w with
  | nil => cases w.hashTable.frameOf (file, pageNo) <;> simp [destructFrom]
  | cons i rest ih =>
    obtain ⟨fresh, distinct⟩ := List.nodup_cons.mp distinct
    have bounded' : ∀ j ∈ rest, j < w.numBufs := fun j mem => bounded j (List.mem_cons_of_mem i mem)
    simp only [destructFrom]
    split_ifs with written
    · obtain ⟨valid, dirty⟩ := written
      obtain ⟨id, named, wrote⟩ :=
        writePage_frame reliable (allocated i (List.mem_cons_self i rest) valid)
      have indexed := agree.indexed i (bounded i (List.mem_cons_self i rest)) valid
      rw [wrote, ih distinct _ ((agree.record _).withDisk _)
        (fun n later => reliable n (by simp at later; omega)) bounded' fun j mem valid' => by
          simp only [Disk.write_read]
          split_ifs
          · rfl
          · exact allocated j (List.mem_cons_of_mem i mem) valid']
      simp only [Disk.write_read, record_hashTable, record_bufTable, record_bufPool]
      cases found : w.hashTable.frameOf (file, pageNo) with
      | none =>
        have other : ¬(file = some id ∧ pageNo = (w.bufTable i).pageNo) := fun ⟨same, same'⟩ => by
          simp [BufDesc.key, named, ← same, ← same', found] at indexed
        simp [other]
      | some j =>
        obtain ⟨-, -, key⟩ := agree.entry _ _ found
        by_cases here : j = i
        · subst here
          simp only [BufDesc.key, Prod.mk.injEq] at key
          simp [fresh, dirty, ← key.1, ← key.2, named]
        · have other : ¬(file = some id ∧ pageNo = (w.bufTable i).pageNo) :=
            fun ⟨same, same'⟩ => by
              simp [BufDesc.key, named, ← same, ← same', found] at indexed
              exact here indexed
          simp [other, here]
    · rw [ih distinct w agree reliable bounded' fun j mem => allocated j (List.mem_cons_of_mem i mem)]
      cases found : w.hashTable.frameOf (file, pageNo) with
      | none => rfl
      | some j =>
        by_cases here : j = i
        · subst here
          have valid := (agree.entry _ _ found).2.1
          simp [fresh, show (w.bufTable j).dirty = false by simpa [valid] using written]
        · simp [here]

/-- **After the destructor the store holds what an eviction of each page would leave**: from a
reachable world where the store fails none of the calls from now on, a page in a dirty frame gets
the frame's bytes and every other page keeps its store copy. -/
theorem destruct_stored (reach : Reachable w) (reliable : Reliable w) (key : Option FileId × Int) :
    (cellOf (destruct w) key).stored = (cellOf w key).evicted.stored := by
  have agree := Agree.reachable reach
  have read := destructFrom_read (List.range w.numBufs) (List.nodup_range _) w agree reliable
    (fun i mem => List.mem_range.mp mem) (fun i mem valid => by
      have backed := backed_reachable reach (w.bufTable i).key
      simpa [Cell.Backed, cellOf, agree.indexed i (List.mem_range.mp mem) valid] using backed)
    key.1 key.2
  cases found : w.hashTable.frameOf key with
  | none => simp [cellOf, destruct, read, found, Cell.evicted]
  | some i =>
    have bound := (agree.entry _ _ found).1
    simp only [cellOf, destruct, read, found, Cell.evicted, Option.map_some', List.mem_range.mpr bound,
      true_and]

end BufMgr

open BufMgr

/-- **A page written under a pin and released dirty is in the store once the buffer manager is
destroyed**: with the run of `holds_after_dirty_unPin`, after which the store fails none of the
destructor's writes, the store's copy of the page is `bytes`. -/
theorem destruct_after_dirty_unPin {w₀ w₁ w₂ w₃ : World Page} (reach : Reachable w₀)
    (file : Option FileId) (pageNo : Int) (bytes : Page) (mid post : List (Op Page))
    (held : ∀ mid' rest, mid = mid' ++ rest →
      0 < pinsOf (Op.exec (writeFrame file pageNo bytes w₀) mid').2 (file, pageNo))
    (ranMid : (Op.exec (writeFrame file pageNo bytes w₀) mid).2 = w₁)
    (released : unPinPage file pageNo true w₁ = (.ok, w₂))
    (ranPost : (Op.exec w₂ post).2 = w₃)
    (unwritten : ∀ op ∈ mid ++ post, ∀ bytes', op ≠ .write file pageNo bytes')
    (undisposed : w₃.calls.count (.disposePage file pageNo) =
      w₀.calls.count (.disposePage file pageNo))
    (reliable : Reliable w₃) :
    (destruct w₃).disk.read file pageNo = some bytes := by
  obtain ⟨reach₃, holds⟩ := holds_after_dirty_unPin reach file pageNo bytes mid post held ranMid
    released ranPost unwritten undisposed
  exact (destruct_stored reach₃ reliable (file, pageNo)).trans holds.evicted_stored

/-- In `oneFrame`, page `0` written with `7` and released dirty is in the store once the buffer
manager is destroyed. -/
theorem oneFrame_destruct :
    (destruct (unPinPage (some 0) 0 true (writeFrame (some 0) 0 7 oneFrame)).2).disk.read
      (some 0) 0 = some 7 :=
  destruct_after_dirty_unPin (show Reachable oneFrame from (Reachable.init _ _ _ _).exec _)
    (some 0) 0 7 [] []
    (fun mid' rest split => by
      obtain ⟨rfl, rfl⟩ := List.append_eq_nil.mp split.symm
      decide)
    rfl (show unPinPage (some 0) 0 true (writeFrame (some 0) 0 7 oneFrame) =
      (.ok, (unPinPage (some 0) 0 true (writeFrame (some 0) 0 7 oneFrame)).2) from rfl)
    rfl (by simp) (by decide) fun _ _ => rfl

/-- Before the destructor the store still holds the page's old `0`: the write reaches it only
through the destructor. -/
example : (unPinPage (some 0) 0 true (writeFrame (some 0) 0 7 oneFrame)).2.disk.read (some 0) 0 =
    some 0 := rfl

end Minirel
