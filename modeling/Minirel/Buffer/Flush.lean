/-
**What `flushFile` leaves.**

`flushFile(file)` walks the frames in order; every valid frame of the file is written back if
dirty, unindexed and invalidated, and the walk stops early at a pinned frame of the file or a
failed write.

* `FlushedFrame` — what the call may do to one frame: keep it, or — a valid, unpinned frame of
  the file — invalidate it, after its bytes have reached its page if it was dirty.
* `flushFileFrom_run` (`FlushRun`) — **the loop over distinct frames** keeps the pool's bytes and
  every frame outside the list, leaves each frame as `FlushedFrame` says, changes no page of
  another file, and, when it returns `OK`, leaves no frame of the list valid with the file.
* `flushFile_evicts` — **from a reachable world**: whatever `flushFile(file)` returns, each frame
  is kept or was written back (if dirty) before it was invalidated, the pool's bytes and the
  other files' pages are unchanged; when it returns `OK`, no frame is valid with the file, the
  index has no key of the file, every page of the file that was dirty in a frame holds that
  frame's bytes in the store, and every other frame is as it was.
-/

import Minirel.Buffer.Calls

set_option linter.unusedSectionVars false

namespace Minirel

namespace BufMgr

variable {Page : Type} [Inhabited Page]

open World

/-- Frame `i` of `w` as `flushFile(file)` may leave it in `w'`: as it was; or, a valid and
unpinned frame of the file, invalidated, its bytes on its page if it was dirty. -/
def FlushedFrame (file : Option FileId) (w w' : World Page) (i : Nat) : Prop :=
  w'.bufTable i = w.bufTable i ∨
    ((w.bufTable i).valid = true ∧ (w.bufTable i).file = file ∧ (w.bufTable i).pinCnt = 0 ∧
      w'.bufTable i =
        { w.bufTable i with dirty := false, file := none, pageNo := -1, valid := false } ∧
      ((w.bufTable i).dirty = true →
        w'.disk.read file (w.bufTable i).pageNo = some (w.bufPool i)))

/-- What `flushFile`'s loop over `frames` did, from `w` to `w'` with status `status`. -/
structure FlushRun (file : Option FileId) (frames : List Nat) (w : World Page) (status : Status)
    (w' : World Page) : Prop where
  numBufs : w'.numBufs = w.numBufs
  bufPool : w'.bufPool = w.bufPool
  outside : ∀ i, i ∉ frames → w'.bufTable i = w.bufTable i
  frame : ∀ i, FlushedFrame file w w' i
  otherFiles : ∀ file', file' ≠ file → ∀ pageNo, w'.disk.read file' pageNo = w.disk.read file' pageNo
  written : ∀ pageNo, w'.disk.read file pageNo = w.disk.read file pageNo ∨
    ∃ i ∈ frames, (w.bufTable i).valid = true ∧ (w.bufTable i).file = file ∧
      (w.bufTable i).dirty = true ∧ (w.bufTable i).pageNo = pageNo
  cleared : status = .ok → ∀ i ∈ frames, ¬((w'.bufTable i).valid = true ∧ (w'.bufTable i).file = file)

/-- A loop that stops at once, having changed nothing but the log of calls. -/
theorem FlushRun.stopped {file : Option FileId} {frames : List Nat} {w w' : World Page}
    {status : Status} (failed : status ≠ .ok) (numBufs : w'.numBufs = w.numBufs)
    (bufTable : w'.bufTable = w.bufTable) (bufPool : w'.bufPool = w.bufPool)
    (disk : w'.disk = w.disk) : FlushRun file frames w status w' :=
  ⟨numBufs, bufPool, fun i _ => by rw [bufTable], fun i => .inl (by rw [bufTable]),
    fun _ _ _ => by rw [disk], fun _ => .inl (by rw [disk]), fun ok => absurd ok failed⟩

/-- The world after a turn of the loop that writes back and invalidates frame `i`, against the
world before the turn: the pool and every other frame kept, frame `i` invalidated, and the store
changed only on the frame's page, and only if the frame was dirty. -/
theorem flushed_world {w w₁ W : World Page} {file : Option FileId} {i : Nat}
    (named : (w.bufTable i).file = file) (back : WroteBack w i w₁)
    (next : { w₁.setDesc i
        { w.bufTable i with dirty := false, file := none, pageNo := -1, valid := false } with
          hashTable := w.hashTable.erase (w.bufTable i).key } = W) :
    (W.numBufs = w.numBufs ∧ W.bufPool = w.bufPool) ∧
      W.bufTable i =
        { w.bufTable i with dirty := false, file := none, pageNo := -1, valid := false } ∧
      (∀ j, j ≠ i → W.bufTable j = w.bufTable j) ∧
      ∀ file' pageNo, W.disk.read file' pageNo =
        if file' = file ∧ pageNo = (w.bufTable i).pageNo ∧ (w.bufTable i).dirty = true then
          some (w.bufPool i)
        else w.disk.read file' pageNo := by
  obtain ⟨table, pool, -, bufs, -⟩ := wroteBack_bufTable back
  subst next
  refine ⟨⟨bufs, pool⟩, by simp [setDesc_bufTable_apply],
    fun j other => by simp [setDesc_bufTable_apply, other, table], fun file' pageNo => ?_⟩
  cases back with
  | clean clean => simp [clean]
  | @written id dirty named' =>
    rw [named] at named'
    subst named'
    simp only [setDesc_disk, record_disk, Disk.write_read, dirty, and_true]

/-- **The loop of `flushFile` over distinct frames of the pool does what `FlushRun` says.** -/
theorem flushFileFrom_run (file : Option FileId) :
    ∀ (frames : List Nat) {w : World Page}, Agree w → frames.Nodup →
      (∀ i ∈ frames, i < w.numBufs) →
      FlushRun file frames w (flushFileFrom file frames w).1 (flushFileFrom file frames w).2
  | [], w, _, _, _ =>
    ⟨rfl, rfl, fun _ _ => rfl, fun _ => .inl rfl, fun _ _ _ => rfl, fun _ => .inl rfl,
      fun _ _ mem => absurd mem (List.not_mem_nil _)⟩
  | i :: rest, w, agree, distinct, bound => by
    obtain ⟨fresh, distinct⟩ := List.nodup_cons.mp distinct
    have here := bound i (List.mem_cons_self i rest)
    have later : ∀ j ∈ rest, j < w.numBufs := fun j mem => bound j (List.mem_cons_of_mem i mem)
    have turn := flushFileFrom_cons file i rest w
    generalize flushFileFrom file (i :: rest) w = result at turn ⊢
    cases turn with
    | pinned => exact .stopped (by simp) rfl rfl rfl rfl
    | writeFailed => exact .stopped (by simp) rfl rfl rfl rfl
    | stale => exact .stopped (by simp) rfl rfl rfl rfl
    | passed matching _ =>
      have run := flushFileFrom_run file rest agree distinct later
      refine ⟨run.numBufs, run.bufPool, fun j outside => run.outside j fun mem =>
          outside (List.mem_cons_of_mem i mem), run.frame, run.otherFiles, fun pageNo => ?_,
        fun ok j mem => ?_⟩
      · rcases run.written pageNo with same | ⟨j, mem, rest⟩
        · exact .inl same
        · exact .inr ⟨j, List.mem_cons_of_mem i mem, rest⟩
      · rcases List.mem_cons.mp mem with rfl | mem
        · rw [run.outside j fresh]
          exact matching
        · exact run.cleared ok j mem
    | @flushed w₁ valid named unpinned back =>
      have agree₁ := Agree.flushed agree here valid unpinned back
      generalize next : ({ w₁.setDesc i
          { w.bufTable i with dirty := false, file := none, pageNo := -1, valid := false } with
            hashTable := w.hashTable.erase (w.bufTable i).key } : World Page) = W at agree₁ ⊢
      obtain ⟨sizes, invalidated, kept, wrote⟩ := flushed_world named back next
      have run := flushFileFrom_run file rest agree₁ distinct fun j mem => sizes.1 ▸ later j mem
      refine ⟨run.numBufs.trans sizes.1, run.bufPool.trans sizes.2, fun j outside => ?_,
        fun j => ?_, fun file' other pageNo => ?_, fun pageNo => ?_, fun ok j mem => ?_⟩
      · have other : j ≠ i := fun same => outside (same ▸ List.mem_cons_self i rest)
        rw [run.outside j fun mem => outside (List.mem_cons_of_mem i mem), kept j other]
      · by_cases same : j = i
        · subst same
          refine .inr ⟨valid, named, by have := agree.pinCnt j; omega,
            by rw [run.outside j fresh, invalidated],
            fun dirty => ?_⟩
          rcases run.written (w.bufTable j).pageNo with stays | ⟨k, mem, valid', named', _, page⟩
          · rw [stays, wrote, if_pos ⟨rfl, rfl, dirty⟩]
          · have other : k ≠ j := fun same => fresh (same ▸ mem)
            rw [kept k other] at valid' named' page
            have found := agree.indexed k (later k mem) valid'
            have indexed := agree.indexed j here valid
            simp only [BufDesc.key, named', page, ← named] at found indexed
            exact absurd (Option.some.inj (found.symm.trans indexed)) other
        · rcases run.frame j with stays | ⟨valid', named', unpinned', flushed, dirty'⟩
          · exact .inl (by rw [stays, kept j same])
          · rw [kept j same] at valid' named' unpinned' flushed dirty'
            exact .inr ⟨valid', named', unpinned', flushed, by rwa [← sizes.2]⟩
      · rw [run.otherFiles file' other, wrote, if_neg fun ⟨same, _⟩ => other same]
      · rcases run.written pageNo with stays | ⟨j, mem, valid', named', dirty', page⟩
        · rw [stays, wrote]
          split_ifs with written
          · exact .inr ⟨i, List.mem_cons_self i rest, valid, named, written.2.2, written.2.1.symm⟩
          · exact .inl rfl
        · have other : j ≠ i := fun same => fresh (same ▸ mem)
          rw [kept j other] at valid' named' dirty' page
          exact .inr ⟨j, List.mem_cons_of_mem i mem, valid', named', dirty', page⟩
      · rcases List.mem_cons.mp mem with rfl | mem
        · simp [run.outside j fresh, invalidated]
        · exact run.cleared ok j mem

/-- **`flushFile(file)` from a reachable world.** Whatever it returns, each frame is kept or, a
valid unpinned frame of the file, was written back if dirty before it was invalidated; the pool's
bytes and every page of every other file are unchanged. When it returns `OK`, no frame is valid
with the file, the index has no key of the file, each page of the file that was dirty in a
frame holds that frame's bytes in the store, and every frame not holding a page of the file is
as it was. -/
theorem flushFile_evicts {w w' : World Page} (reach : Reachable w) {file : Option FileId}
    {status : Status} (flushed : flushFile file w = (status, w')) :
    w'.bufPool = w.bufPool ∧ (∀ i < w.numBufs, FlushedFrame file w w' i) ∧
      (∀ file', file' ≠ file → ∀ pageNo, w'.disk.read file' pageNo = w.disk.read file' pageNo) ∧
      (status = .ok →
        (∀ i < w'.numBufs, ¬((w'.bufTable i).valid = true ∧ (w'.bufTable i).file = file)) ∧
        (∀ pageNo, w'.hashTable.frameOf (file, pageNo) = none) ∧
        (∀ i < w.numBufs, (w.bufTable i).valid = true → (w.bufTable i).file = file →
          (w.bufTable i).dirty = true →
          w'.disk.read file (w.bufTable i).pageNo = some (w.bufPool i)) ∧
        (∀ i < w.numBufs, ¬((w.bufTable i).valid = true ∧ (w.bufTable i).file = file) →
          w'.bufTable i = w.bufTable i)) := by
  have agree := Agree.reachable reach
  have run := flushFileFrom_run file (List.range w.numBufs) agree (List.nodup_range _)
    fun _ mem => List.mem_range.mp mem
  have agree' := agree.flushFile file
  rw [flushFile] at agree'
  unfold flushFile at flushed
  rw [flushed] at run agree'
  have cleared (ok : status = .ok) (i : Nat) (bound : i < w'.numBufs) :
      ¬((w'.bufTable i).valid = true ∧ (w'.bufTable i).file = file) :=
    run.cleared ok i (List.mem_range.mpr (run.numBufs ▸ bound))
  refine ⟨run.bufPool, fun i _ => run.frame i, run.otherFiles, fun ok =>
    ⟨cleared ok, fun pageNo => ?_, fun i bound valid named dirty => ?_, fun i bound other => ?_⟩⟩
  · cases found : w'.hashTable.frameOf (file, pageNo) with
    | none => rfl
    | some j =>
      obtain ⟨bound, valid, key⟩ := agree'.entry _ _ found
      exact absurd ⟨valid, congrArg Prod.fst key⟩ (cleared ok j bound)
  · rcases run.frame i with kept | ⟨-, -, -, -, written⟩
    · exact absurd ⟨kept ▸ valid, kept ▸ named⟩ (cleared ok i (run.numBufs ▸ bound))
    · exact written dirty
  · rcases run.frame i with kept | ⟨valid, named, -⟩
    · exact kept
    · exact absurd ⟨valid, named⟩ other

/-- Page `0` of file `0` written with `7` and released dirty in frame `0`; page `0` of file `1`
read and still pinned in frame `1`. -/
def twoFiles : World Nat :=
  (Op.exec (World.init 2 ⟨fun _ _ => some 0, fun _ => none⟩ (fun _ => false) (fun _ => 0))
    [.readPage (some 0) 0, .write (some 0) 0 7, .unPinPage (some 0) 0 true,
      .readPage (some 1) 0]).2

/-- Flushing file `0` there returns `OK`, leaves `7` on page `0` of file `0` in the store and
keeps frame `1`, which holds file `1`'s page. -/
theorem twoFiles_flushFile :
    (flushFile (some 0) twoFiles).1 = .ok ∧
      (flushFile (some 0) twoFiles).2.disk.read (some 0) 0 = some 7 ∧
      (flushFile (some 0) twoFiles).2.bufTable 1 = twoFiles.bufTable 1 :=
  have evicts := (flushFile_evicts (show Reachable twoFiles from (Reachable.init _ _ _ _).exec _)
    (show flushFile (some 0) twoFiles =
      ((flushFile (some 0) twoFiles).1, (flushFile (some 0) twoFiles).2) from rfl)).2.2.2 rfl
  ⟨rfl, evicts.2.2.1 0 (by decide) rfl rfl rfl, evicts.2.2.2 1 (by decide) (by decide)⟩

end BufMgr

end Minirel
