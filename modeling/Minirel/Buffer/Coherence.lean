/-
**The cache is transparent: no declared update is lost.**

`cellOf w key` is page `key` of the world `w` as a client sees it (`Cell`): the bytes and dirty
bit of the frame the index gives for it, the store's copy, and the disposals of it the store was
asked for.

* `cellOf_apply` — **every call is at most one cell step for every page**: the buffer manager
  refines the abstract page of `Cell`. Only a write of the page writes into it, and only a request
  to the store to dispose of it drops it.
* `backed_reachable` — in every reachable world a resident page is allocated in the store.
* `holds_after_dirty_unPin` — **a page written under a pin and released with
  `unPinPage(file, pageNo, true)` holds its bytes from then on**, through evictions, failed
  write-backs, flushes and re-reads, as long as the page is neither written again nor disposed
  of; `readPage_after_dirty_unPin`: so every later `readPage` that succeeds gives its bytes.
-/

import Minirel.Buffer.Pins
import Minirel.Buffer.Cell

set_option linter.unusedSectionVars false

namespace Minirel

variable {Page : Type} [Inhabited Page]

open World BufMgr

/-- Page `key` of `w` as a client sees it. -/
def cellOf (w : World Page) (key : Option FileId × Int) : Cell Page where
  cached := (w.hashTable.frameOf key).map fun i => (w.bufPool i, (w.bufTable i).dirty)
  stored := w.disk.read key.1 key.2
  disposals := w.calls.count (.disposePage key.1 key.2)

/-! ### What a page's cell reads -/

section Frames

variable {w w' : World Page} {key : Option FileId × Int} {i j : Nat}

/-- A page's cell reads its index entry, its frame's bytes and dirty bit, its store copy and the
disposals logged for it, and nothing else. -/
theorem cellOf_eq (index : w'.hashTable.frameOf key = w.hashTable.frameOf key)
    (frame : ∀ i, w.hashTable.frameOf key = some i →
      w'.bufPool i = w.bufPool i ∧ (w'.bufTable i).dirty = (w.bufTable i).dirty)
    (stored : w'.disk.read key.1 key.2 = w.disk.read key.1 key.2)
    (logged : w'.calls.count (.disposePage key.1 key.2) =
      w.calls.count (.disposePage key.1 key.2)) :
    cellOf w' key = cellOf w key := by
  unfold cellOf
  rw [index, stored, logged]
  cases found : w.hashTable.frameOf key with
  | none => rfl
  | some i => simp only [Option.map_some', (frame i found).1, (frame i found).2]

theorem cellOf_record {call : Call} (other : call ≠ .disposePage key.1 key.2) :
    cellOf (w.record call) key = cellOf w key :=
  cellOf_eq rfl (fun _ _ => ⟨rfl, rfl⟩) rfl (List.count_cons_of_ne other.symm _)

theorem cellOf_setDesc_dirty {desc : BufDesc} (same : desc.dirty = (w.bufTable i).dirty) :
    cellOf (w.setDesc i desc) key = cellOf w key :=
  cellOf_eq rfl (fun i' _ => ⟨rfl, by by_cases here : i' = i <;> simp [here, same]⟩) rfl rfl

theorem cellOf_setDesc_of_ne {desc : BufDesc} (other : w.hashTable.frameOf key ≠ some i) :
    cellOf (w.setDesc i desc) key = cellOf w key :=
  cellOf_eq rfl (fun i' found => ⟨rfl, by
    rw [setDesc_bufTable_apply, if_neg fun (here : i' = i) => other (here ▸ found)]⟩) rfl rfl

theorem cellOf_setPage {bytes : Page} (other : w.hashTable.frameOf key ≠ some i) :
    cellOf (w.setPage i bytes) key = cellOf w key :=
  cellOf_eq rfl (fun i' found => ⟨by
    rw [setPage_bufPool, Function.update_noteq fun (here : i' = i) => other (here ▸ found)],
    rfl⟩) rfl rfl

/-- Writing another page's bytes to the store leaves this page's copy. -/
theorem read_write_of_ne (disk : Disk Page) {id : FileId} {pageNo : Int} {bytes : Option Page}
    (other : (some id, pageNo) ≠ key) : (disk.write id pageNo bytes).read key.1 key.2 =
      disk.read key.1 key.2 := by
  rw [Disk.write_read, if_neg fun ⟨file, page⟩ => other (by rw [← file, ← page])]

end Frames

/-! ### `allocBuf` -/

section AllocBuf

variable {w w' : World Page} {key : Option FileId × Int} {j : Nat}

theorem allocBuf_logged (w : World Page) (key : Option FileId × Int) :
    (allocBuf w).2.calls.count (.disposePage key.1 key.2) =
      w.calls.count (.disposePage key.1 key.2) := by
  rcases allocBuf_calls w with same | ⟨file, pageNo, written⟩
  · rw [same]
  · rw [written, List.count_cons_of_ne (by simp)]

/-- Handing out a frame writes back at most the page of that frame. -/
theorem BufMgr.Handed.read (agree : Agree w) (bound : j < w.numBufs) (handed : Handed w j w')
    (other : (w.bufTable j).valid = true → (w.bufTable j).key ≠ key) :
    w'.disk.read key.1 key.2 = w.disk.read key.1 key.2 := by
  cases dirty : (w.bufTable j).dirty with
  | false => rw [handed.unwritten dirty]
  | true =>
    cases valid : (w.bufTable j).valid with
    | false => simp [(agree.free j bound valid).2.1] at dirty
    | true =>
      obtain ⟨id, file, written⟩ := handed.written valid dirty
      rw [written, read_write_of_ne]
      rw [← file]
      exact other valid

/-- **Handing out frame `j` evicts the page it held and leaves every other page.** -/
theorem cellOf_handed (agree : Agree w) (bound : j < w.numBufs) (handed : Handed w j w')
    (logged : w'.calls.count (.disposePage key.1 key.2) =
      w.calls.count (.disposePage key.1 key.2)) :
    cellOf w' key =
      if w.hashTable.frameOf key = some j then (cellOf w key).evicted else cellOf w key := by
  split_ifs with here
  · obtain ⟨-, valid, named⟩ := agree.entry key j here
    have erased : w'.hashTable.frameOf key = none := by
      rw [handed.hashTable, if_pos valid, BufHashTbl.erase_frameOf, if_pos named.symm]
    have stored : w'.disk.read key.1 key.2 =
        if (w.bufTable j).dirty then some (w.bufPool j) else w.disk.read key.1 key.2 := by
      cases dirty : (w.bufTable j).dirty with
      | false => rw [handed.unwritten dirty, if_neg (by simp)]
      | true =>
        obtain ⟨id, file, written⟩ := handed.written valid dirty
        rw [written, ← named, Disk.write_read, if_pos ⟨file, rfl⟩, if_pos rfl]
    simp only [cellOf, Cell.evicted, here, erased, Option.map_some', Option.map_none', stored,
      logged]
  · refine cellOf_eq ?_ (fun i found => ⟨by rw [handed.bufPool], ?_⟩) (handed.read agree bound
      fun valid named => here (named ▸ agree.indexed j bound valid)) logged
    · rw [handed.hashTable]
      split_ifs with valid
      · rw [BufHashTbl.erase_frameOf,
          if_neg fun (named : key = _) => here (named ▸ agree.indexed j bound valid)]
      · rfl
    · exact (BufDesc.core_eq_iff.mp (handed.others i fun same => here (same ▸ found))).2.2.2.2.1

/-- `allocBuf` evicts at most one page: every page's cell is as it was, or evicted. -/
theorem cellOf_allocBuf (agree : Agree w) (key : Option FileId × Int) :
    cellOf (allocBuf w).2 key = cellOf w key ∨ cellOf (allocBuf w).2 key = (cellOf w key).evicted := by
  rcases allocBuf_cases agree with ⟨j, -, bound, handed, -⟩ | ⟨-, core, index, pool, disk⟩
  · rw [cellOf_handed agree bound handed (allocBuf_logged w key)]
    split_ifs
    · exact .inr rfl
    · exact .inl rfl
  · exact .inl (cellOf_eq (by rw [index]) (fun i _ => ⟨by rw [pool],
      (BufDesc.core_eq_iff.mp (core i)).2.2.2.2.1⟩) (by rw [disk]) (allocBuf_logged w key))

theorem reflGen_allocBuf (agree : Agree w) {writes : Prop} {result : Except Status Nat}
    (allocated : allocBuf w = (result, w')) (key : Option FileId × Int) :
    Relation.ReflGen (Cell.Step writes) (cellOf w key) (cellOf w' key) := by
  have moved := cellOf_allocBuf agree key
  rw [allocated] at moved
  rcases moved with same | evicted
  · exact same ▸ .refl
  · exact evicted ▸ Cell.reflGen_evicted _

/-- `allocBuf` leaves a page that is not resident as it was. -/
theorem cellOf_allocBuf_absent (agree : Agree w) {result : Except Status Nat}
    (allocated : allocBuf w = (result, w')) (absent : w.hashTable.frameOf key = none) :
    cellOf w' key = cellOf w key := by
  have unresident : (cellOf w key).cached = none := by simp [cellOf, absent]
  have moved := cellOf_allocBuf agree key
  rw [allocated, Cell.evicted_of_absent unresident, or_self] at moved
  exact moved

/-- No page is indexed to the frame `allocBuf` hands out. -/
theorem allocBuf_unindexed (agree : Agree w) (allocated : allocBuf w = (.ok j, w'))
    (key : Option FileId × Int) : w'.hashTable.frameOf key ≠ some j := by
  have agree' : Agree w' := by simpa [allocated] using agree.allocBuf.1
  exact agree'.not_found_free (allocBuf_handed agree allocated).2.1.free key

end AllocBuf

/-! ### `disposePage` -/

section Dispose

variable {w : World Page} {key : Option FileId × Int}

theorem disposePage_calls (file : Option FileId) (pageNo : Int) (w : World Page) :
    (disposePage file pageNo w).2.calls = .disposePage file pageNo :: w.calls := by
  have stored : ∀ w' : World Page,
      (File.disposePage file pageNo w').2.calls = .disposePage file pageNo :: w'.calls := by
    intro w'
    rcases File.disposePage_cases file pageNo w' with failed | ⟨_, _, disposed⟩
    · rw [failed]
      rfl
    · rw [disposed]
      rfl
  rcases disposePage_eq file pageNo w with ⟨i, -, disposed⟩ | ⟨-, disposed⟩
  · rw [disposed, stored]
    rfl
  · rw [disposed, stored]

theorem File.disposePage_read {file : Option FileId} {pageNo : Int} (w : World Page)
    (other : (file, pageNo) ≠ key) :
    (File.disposePage file pageNo w).2.disk.read key.1 key.2 = w.disk.read key.1 key.2 := by
  rcases File.disposePage_cases file pageNo w with failed | ⟨id, named, disposed⟩
  · rw [failed]
    rfl
  · rw [disposed]
    exact read_write_of_ne w.disk (named ▸ other)

/-- Disposing of another page leaves this page's cell. -/
theorem cellOf_disposePage_other (agree : Agree w) {file : Option FileId} {pageNo : Int}
    (other : (file, pageNo) ≠ key) : cellOf (disposePage file pageNo w).2 key = cellOf w key := by
  have logged : (disposePage file pageNo w).2.calls.count (.disposePage key.1 key.2) =
      w.calls.count (.disposePage key.1 key.2) := by
    rw [disposePage_calls, List.count_cons_of_ne]
    intro named
    cases named
    exact other rfl
  rcases disposePage_eq file pageNo w with ⟨i, found, disposed⟩ | ⟨absent, disposed⟩
  · obtain ⟨table, index, pool⟩ := File.disposePage_frames file pageNo
      { w.setDesc i (w.bufTable i).clear with hashTable := w.hashTable.erase (file, pageNo) }
    refine cellOf_eq ?_ (fun i' found' => ⟨by rw [disposed, pool]; rfl, ?_⟩) ?_ logged
    · rw [disposed, index, BufHashTbl.erase_frameOf, if_neg (Ne.symm other)]
    · rw [disposed, table, setDesc_bufTable_apply,
        if_neg fun (here : i' = i) => other (agree.key_eq found (here ▸ found'))]
    · rw [disposed, File.disposePage_read _ other]
      rfl
  · obtain ⟨table, index, pool⟩ := File.disposePage_frames file pageNo w
    rw [← disposed] at table index pool
    exact cellOf_eq (by rw [index]) (fun _ _ => ⟨by rw [pool], by rw [table]⟩)
      (by rw [disposed, File.disposePage_read _ other]) logged

/-- **Disposing of a page drops it**, whatever the store answers. -/
theorem step_disposePage {writes : Prop} (file : Option FileId) (pageNo : Int) :
    Cell.Step writes (cellOf w (file, pageNo)) (cellOf (disposePage file pageNo w).2 (file, pageNo)) := by
  refine Cell.Step.of_drop ?_ ?_
  · rcases disposePage_eq file pageNo w with ⟨i, -, disposed⟩ | ⟨absent, disposed⟩
    · rw [cellOf, disposed, (File.disposePage_frames file pageNo _).2.1]
      simp
    · rw [cellOf, disposed, (File.disposePage_frames file pageNo _).2.1]
      simp [absent]
  · simp only [cellOf, disposePage_calls, List.count_cons_self]
    omega

end Dispose

/-! ### `readPage` -/

section Read

variable {w : World Page}

theorem cellOf_touch (i : Nat) (refbit : Bool) (pinCnt : Int) (key : Option FileId × Int) :
    cellOf (w.setDesc i { w.bufTable i with refbit := refbit, pinCnt := pinCnt }) key =
      cellOf w key :=
  cellOf_setDesc_dirty rfl

/-- Indexing another page leaves this page's cell. -/
theorem cellOf_indexOther {key key' : Option FileId × Int}
    {frameOf : Option FileId × Int → Option Nat} {frame : Option Nat} (other : key' ≠ key)
    (index : frameOf key = w.hashTable.frameOf key) :
    cellOf { w with hashTable := ⟨Function.update frameOf key' frame⟩ } key = cellOf w key :=
  cellOf_eq ((Function.update_noteq (Ne.symm other) _ _).trans index) (fun _ _ => ⟨rfl, rfl⟩) rfl
    rfl

/-- **`readPage` is at most one step of every page**: it loads the page it reads, or drops it if
the read fails, and evicts at most the page of the frame it takes. -/
theorem cellOf_readPage (agree : Agree w) {writes : Prop} (file : Option FileId) (pageNo : Int)
    (key : Option FileId × Int) :
    Relation.ReflGen (Cell.Step writes) (cellOf w key)
      (cellOf (readPage file pageNo none w).2.2 key) := by
  have outcome := readPage_cases file pageNo none w
  generalize readPage file pageNo none w = result at outcome ⊢
  cases outcome with
  | hit => exact Cell.reflGen_of_eq (cellOf_touch _ _ _ key)
  | noFrame _ allocated => exact reflGen_allocBuf agree allocated key
  | @readFailed j w' absent allocated =>
    have start : cellOf (w'.record (.readPage file pageNo)) key = cellOf w' key :=
      cellOf_record (by simp)
    by_cases same : key = (file, pageNo)
    · subst same
      rw [← cellOf_allocBuf_absent agree allocated absent, ← start]
      exact .single (step_disposePage file pageNo)
    · have agree' : Agree w' := by simpa [allocated] using agree.allocBuf.1
      rw [cellOf_disposePage_other (agree'.record _) (Ne.symm same), start]
      exact reflGen_allocBuf agree allocated key
  | @unindexed j w' bytes absent allocated =>
    rw [cellOf_record (by simp),
      cellOf_setPage (w := w'.record _) (allocBuf_unindexed agree allocated key),
      cellOf_record (by simp)]
    exact reflGen_allocBuf agree allocated key
  | @loaded j w' bytes absent allocated stored absent' =>
    dsimp only
    by_cases same : key = (file, pageNo)
    · subst same
      rw [← cellOf_allocBuf_absent agree allocated absent]
      refine .single (Cell.Step.of_load (by simp [cellOf, absent']) stored ?_ rfl ?_)
      · simp [cellOf]
      · simp [cellOf]
    · have unindexed := allocBuf_unindexed agree allocated key
      rw [cellOf_indexOther (Ne.symm same),
        cellOf_setDesc_of_ne (w := ((w'.record _).setPage j bytes).record _) unindexed,
        cellOf_record (by simp), cellOf_setPage (w := w'.record _) unindexed,
        cellOf_record (by simp)]
      · exact reflGen_allocBuf agree allocated key
      · rfl

end Read

/-! ### `allocPage` -/

section Alloc

variable {w : World Page}

theorem Disk.read_of_pages {disk disk' : Disk Page} (pages : disk.pages = disk'.pages)
    (file : Option FileId) (pageNo : Int) : disk.read file pageNo = disk'.read file pageNo := by
  simp only [Disk.read, pages]

/-- The store's allocation of page `pageNum` creates it, and leaves every other page's cell. -/
theorem File.allocatePage_cells {file : Option FileId} {pageNum : Int} {w₁ : World Page}
    (offered : File.allocatePage file w = (.ok pageNum, w₁)) :
    (cellOf w (file, pageNum)).stored = none ∧ (cellOf w₁ (file, pageNum)).stored.isSome ∧
      (cellOf w₁ (file, pageNum)).disposals = (cellOf w (file, pageNum)).disposals ∧
      ∀ key, key ≠ (file, pageNum) → cellOf w₁ key = cellOf w key := by
  rcases File.allocatePage_cases file w with refused | ⟨id, disk, named, absent, pages, allocated⟩
  · rw [refused] at offered
    cases offered
  rw [allocated] at offered
  simp only [Prod.mk.injEq, Except.ok.injEq] at offered
  obtain ⟨rfl, rfl⟩ := offered
  have logged : ∀ key : Option FileId × Int,
      (w.record (.allocatePage file)).calls.count (.disposePage key.1 key.2) =
        w.calls.count (.disposePage key.1 key.2) := fun _ => List.count_cons_of_ne (by simp) _
  refine ⟨absent, ?_, logged _, fun key other => cellOf_eq rfl (fun _ _ => ⟨rfl, rfl⟩) ?_ (logged key)⟩
  · show (disk.read file _).isSome
    rw [Disk.read_of_pages pages, Disk.write_read, if_pos ⟨named, rfl⟩]
    rfl
  · show disk.read key.1 key.2 = _
    rw [Disk.read_of_pages pages, read_write_of_ne]
    rw [← named]
    exact Ne.symm other

/-- A page that `allocBuf` finds allocated it leaves allocated, and it logs no disposal. -/
theorem allocBuf_stored (agree : Agree w) {result : Except Status Nat} {w' : World Page}
    (allocated : allocBuf w = (result, w')) {key : Option FileId × Int}
    (stored : (cellOf w key).stored.isSome) :
    (cellOf w' key).stored.isSome ∧ (cellOf w' key).disposals = (cellOf w key).disposals := by
  have moved := cellOf_allocBuf agree key
  rw [allocated] at moved
  rcases moved with same | evicted
  · rw [same]
    exact ⟨stored, rfl⟩
  · rw [evicted]
    exact ⟨Cell.evicted_stored_isSome stored, Cell.evicted_disposals _⟩

/-- **`allocPage` is at most one step of every page**: it creates the page the store gives it,
and evicts at most the page of the frame it takes. -/
theorem cellOf_allocPage (agree : Agree w) {writes : Prop} (file : Option FileId)
    (key : Option FileId × Int) :
    Relation.ReflGen (Cell.Step writes) (cellOf w key) (cellOf (allocPage file w).2 key) := by
  have outcome := allocPage_cases file w
  generalize allocPage file w = result at outcome ⊢
  cases outcome with
  | noPage => exact Cell.reflGen_of_eq (cellOf_record (by simp))
  | @noFrame pageNum status w₁ w₂ offered allocated =>
    obtain ⟨absent, created, logged, others⟩ := File.allocatePage_cells offered
    have agree₁ := agree.fileAllocated offered
    by_cases same : key = (file, pageNum)
    · subst same
      obtain ⟨created₂, logged₂⟩ := allocBuf_stored agree₁ allocated created
      exact .single (Cell.Step.of_create absent created₂ (logged₂.trans logged))
    · rw [← others key same]
      exact reflGen_allocBuf agree₁ allocated key
  | @unindexed pageNum j w₁ w₂ offered allocated =>
    obtain ⟨absent, created, logged, others⟩ := File.allocatePage_cells offered
    have agree₁ := agree.fileAllocated offered
    by_cases same : key = (file, pageNum)
    · subst same
      obtain ⟨created₂, logged₂⟩ := allocBuf_stored agree₁ allocated created
      rw [← cellOf_record (w := w₂) (show Call.newBucket ≠ .disposePage file pageNum by simp)]
        at created₂ logged₂
      exact .single (Cell.Step.of_create absent created₂ (logged₂.trans logged))
    · rw [cellOf_record (by simp), ← others key same]
      exact reflGen_allocBuf agree₁ allocated key
  | @allocated pageNum j w₁ w₂ offered allocated absent₂ =>
    obtain ⟨absent, created, logged, others⟩ := File.allocatePage_cells offered
    have agree₁ := agree.fileAllocated offered
    by_cases same : key = (file, pageNum)
    · subst same
      obtain ⟨created₂, logged₂⟩ := allocBuf_stored agree₁ allocated created
      refine .single (Cell.Step.of_create absent created₂ ?_)
      rw [← logged, ← logged₂]
      simp [cellOf]
    · rw [cellOf_indexOther (Ne.symm same),
        cellOf_setDesc_of_ne (w := w₂.record _) (allocBuf_unindexed agree₁ allocated key),
        cellOf_record (by simp), ← others key same]
      · exact reflGen_allocBuf agree₁ allocated key
      · rfl

end Alloc

/-! ### `unPinPage`, a client's write, `flushFile` -/

section Others

variable {w w' : World Page}

/-- `unPinPage(file, pageNo, true)` marks the page dirty; no other page changes. -/
theorem cellOf_unPinPage (agree : Agree w) {writes : Prop} (file : Option FileId) (pageNo : Int)
    (dirty : Bool) (key : Option FileId × Int) :
    Relation.ReflGen (Cell.Step writes) (cellOf w key)
      (cellOf (unPinPage file pageNo dirty w).2 key) := by
  unfold unPinPage
  cases found : w.hashTable.frameOf (file, pageNo) with
  | none =>
    simp only [BufHashTbl.lookup_eq, found]
    exact .refl
  | some i =>
    simp only [BufHashTbl.lookup_eq, found]
    split
    · exact .refl
    by_cases same : key = (file, pageNo)
    · subst same
      cases dirty
      · exact Cell.reflGen_of_eq (cellOf_setDesc_dirty rfl)
      · have cached : (cellOf w (file, pageNo)).cached =
            some (w.bufPool i, (w.bufTable i).dirty) := by simp [cellOf, found]
        exact .single (Cell.Step.of_mark cached (by simp [cellOf, found]) rfl rfl)
    · exact Cell.reflGen_of_eq (cellOf_setDesc_of_ne fun here => same (agree.key_eq here found))

/-- A client's write into the frame of a page it has pinned writes that page and no other. -/
theorem cellOf_writeFrame (agree : Agree w) (file : Option FileId) (pageNo : Int) (bytes : Page)
    (key : Option FileId × Int) :
    Relation.ReflGen
      (Cell.Step (∃ bytes', (Op.write file pageNo bytes : Op Page) = .write key.1 key.2 bytes'))
      (cellOf w key) (cellOf (writeFrame file pageNo bytes w) key) := by
  unfold writeFrame
  cases found : w.hashTable.frameOf (file, pageNo) with
  | none =>
    simp only [BufHashTbl.lookup_eq, found]
    exact .refl
  | some i =>
    simp only [BufHashTbl.lookup_eq, found]
    split
    · by_cases same : key = (file, pageNo)
      · subst same
        have cached : (cellOf w (file, pageNo)).cached =
            some (w.bufPool i, (w.bufTable i).dirty) := by simp [cellOf, found]
        have written : (cellOf (w.setPage i bytes) (file, pageNo)).cached =
            some (bytes, (w.bufTable i).dirty) := by simp [cellOf, found]
        exact .single (Cell.Step.of_write ⟨bytes, rfl⟩ cached written rfl rfl)
      · exact Cell.reflGen_of_eq (cellOf_setPage fun here => same (agree.key_eq here found))
    · exact .refl

/-- A frame that `flushFile` writes back and invalidates evicts its page and leaves every other. -/
theorem cellOf_flushed (agree : Agree w) {i : Nat} (here : i < w.numBufs)
    (valid : (w.bufTable i).valid = true) (back : WroteBack w i w') (desc : BufDesc)
    (key : Option FileId × Int) :
    cellOf { w'.setDesc i desc with hashTable := w.hashTable.erase (w.bufTable i).key } key =
      if key = (w.bufTable i).key then (cellOf w key).evicted else cellOf w key := by
  have indexed := agree.indexed i here valid
  split_ifs with named
  · subst named
    have cached : (cellOf w (w.bufTable i).key).cached =
        some (w.bufPool i, (w.bufTable i).dirty) := by simp [cellOf, indexed]
    rw [Cell.evicted_of_cached cached]
    cases back with
    | clean clean => simp [cellOf, clean]
    | @written id dirty file => simp [cellOf, dirty, BufDesc.key, file]
  · have other : ∀ i', w.hashTable.frameOf key = some i' → i' ≠ i := fun i' found same =>
      named (agree.key_eq found (same ▸ indexed))
    refine cellOf_eq ?_ (fun i' found => ?_) ?_ ?_
    · simp only [BufHashTbl.erase_frameOf, if_neg named]
    · obtain ⟨table, pool, -⟩ := wroteBack_bufTable back
      simp [setDesc_bufTable_apply, if_neg (other i' found), table, pool]
    · cases back with
      | clean => rfl
      | @written id dirty file =>
        show (w.disk.write id _ _).read key.1 key.2 = _
        rw [read_write_of_ne]
        rw [← file]
        exact fun same => named same.symm
    · cases back with
      | clean => rfl
      | written => exact List.count_cons_of_ne (by simp) _

/-- `flushFile`'s loop evicts a page at most once and changes no page otherwise. -/
theorem cellOf_flushFileFrom (file : Option FileId) (key : Option FileId × Int) :
    ∀ (frames : List Nat) {w : World Page}, Agree w → (∀ i ∈ frames, i < w.numBufs) →
      cellOf (flushFileFrom file frames w).2 key = cellOf w key ∨
        cellOf (flushFileFrom file frames w).2 key = (cellOf w key).evicted
  | [], _, _, _ => .inl rfl
  | i :: rest, w, agree, bound => by
    have here := bound i (List.mem_cons_self i rest)
    have turn := flushFileFrom_cons file i rest w
    generalize flushFileFrom file (i :: rest) w = result at turn ⊢
    cases turn with
    | pinned => exact .inl rfl
    | writeFailed => exact .inl (cellOf_record (by simp))
    | @flushed w' valid _ unpinned back =>
      obtain ⟨-, -, -, bufs, -⟩ := wroteBack_bufTable back
      have later := cellOf_flushFileFrom file key rest
        (BufMgr.Agree.flushed agree here valid unpinned back)
        fun i' mem => by simpa [bufs] using bound i' (List.mem_cons_of_mem i mem)
      rw [cellOf_flushed agree here valid back] at later
      split_ifs at later
      · rw [Cell.evicted_evicted, or_self] at later
        exact .inr later
      · exact later
    | stale => exact .inl rfl
    | passed =>
      exact cellOf_flushFileFrom file key rest agree fun i' mem =>
        bound i' (List.mem_cons_of_mem i mem)

theorem cellOf_flushFile (agree : Agree w) {writes : Prop} (file : Option FileId)
    (key : Option FileId × Int) :
    Relation.ReflGen (Cell.Step writes) (cellOf w key) (cellOf (flushFile file w).2 key) := by
  rcases cellOf_flushFileFrom file key (List.range w.numBufs) agree
    (fun _ mem => List.mem_range.mp mem) with same | evicted
  · exact Cell.reflGen_of_eq same
  · exact evicted ▸ Cell.reflGen_evicted _

end Others

/-! ### Every call is at most one step -/

section Calls

variable {w w' : World Page}

/-- **Every call is at most one step of every page**, and a write into the page only when the
call is a client's write of that page. -/
theorem cellOf_apply (agree : Agree w) (op : Op Page) (key : Option FileId × Int) :
    Relation.ReflGen (Cell.Step (∃ bytes, op = .write key.1 key.2 bytes)) (cellOf w key)
      (cellOf (op.apply w).2 key) := by
  cases op with
  | readPage file pageNo => exact cellOf_readPage agree file pageNo key
  | allocPage file =>
    rw [Op.apply_allocPage]
    exact cellOf_allocPage agree file key
  | unPinPage file pageNo dirty => exact cellOf_unPinPage agree file pageNo dirty key
  | disposePage file pageNo =>
    by_cases same : key = (file, pageNo)
    · subst same
      exact .single (step_disposePage file pageNo)
    · exact Cell.reflGen_of_eq (cellOf_disposePage_other agree (Ne.symm same))
  | flushFile file => exact cellOf_flushFile agree file key
  | write file pageNo bytes => exact cellOf_writeFrame agree file pageNo bytes key

/-- Along a run, each page takes a run of steps, writing only where a call writes it. -/
theorem cellSteps_exec (agree : Agree w) (key : Option FileId × Int) (ops : List (Op Page)) :
    Relation.ReflTransGen (Cell.Step (∃ op ∈ ops, ∃ bytes, op = .write key.1 key.2 bytes))
      (cellOf w key) (cellOf (Op.exec w ops).2 key) := by
  induction ops generalizing w with
  | nil => exact .refl
  | cons op ops ih =>
    refine Relation.ReflTransGen.trans ?_ ((ih (agree.apply op)).mono fun _ _ step =>
      step.mono fun ⟨op', mem, written⟩ => ⟨op', List.mem_cons_of_mem op mem, written⟩)
    rcases Cell.eq_or_step_of_reflGen (cellOf_apply agree op key) with same | step
    · exact same ▸ .refl
    · exact .single (step.mono fun written => ⟨op, List.mem_cons_self op ops, written⟩)

/-- **In every reachable world, a resident page is allocated in the store.** -/
theorem backed_reachable (reach : Reachable w) (key : Option FileId × Int) :
    Cell.Backed (cellOf w key) := by
  induction reach with
  | init => intro resident; cases resident
  | step op reach backed => exact backed.reflGen (cellOf_apply (Agree.reachable reach) op key)

end Calls

/-! ### A declared update is never lost -/

section Update

variable {w w' : World Page} {file : Option FileId} {pageNo : Int} {bytes : Page}

/-- A client's write into the frame of a page it has pinned puts its bytes in the frame. -/
theorem written_writeFrame (pinned : 0 < pinsOf w (file, pageNo)) :
    Cell.Written bytes (cellOf (writeFrame file pageNo bytes w) (file, pageNo)) := by
  obtain ⟨i, found⟩ := found_of_pinsOf_pos pinned
  rw [pinsOf_of_found found] at pinned
  exact ⟨(w.bufTable i).dirty, by simp [writeFrame, cellOf, found, pinned]⟩

/-- While the page stays pinned and no call writes it, its frame keeps the bytes written. -/
theorem written_exec (reach : Reachable w) (written : Cell.Written bytes (cellOf w (file, pageNo)))
    (ops : List (Op Page)) (unwritten : ∀ op ∈ ops, ∀ bytes', op ≠ .write file pageNo bytes')
    (held : ∀ ops' rest, ops = ops' ++ rest → 0 < pinsOf (Op.exec w ops').2 (file, pageNo)) :
    Cell.Written bytes (cellOf (Op.exec w ops).2 (file, pageNo)) := by
  induction ops generalizing w with
  | nil => exact written
  | cons op ops ih =>
    have resident : (cellOf (op.apply w).2 (file, pageNo)).cached.isSome := by
      obtain ⟨i, found⟩ : ∃ i, (op.apply w).2.hashTable.frameOf (file, pageNo) = some i :=
        found_of_pinsOf_pos (held [op] ops rfl)
      simp [cellOf, found]
    have next : Cell.Written bytes (cellOf (op.apply w).2 (file, pageNo)) := by
      rcases Cell.eq_or_step_of_reflGen (cellOf_apply (Agree.reachable reach) op (file, pageNo))
        with same | step
      · exact same ▸ written
      · exact written.step (backed_reachable reach _)
          (step.mono fun ⟨bytes', same⟩ => unwritten op (List.mem_cons_self op ops) bytes' same)
          resident
    exact ih (reach.step op) next (fun op' mem => unwritten op' (List.mem_cons_of_mem op mem))
      fun ops' rest split => held (op :: ops') rest (by rw [split]; rfl)

/-- Releasing the page with `unPinPage(file, pageNo, true)` marks its frame dirty: the page then
holds the frame's bytes. -/
theorem holds_unPinPage (backed : Cell.Backed (cellOf w (file, pageNo)))
    (written : Cell.Written bytes (cellOf w (file, pageNo)))
    (released : unPinPage file pageNo true w = (.ok, w')) :
    Cell.Holds bytes (cellOf w' (file, pageNo)) := by
  obtain ⟨dirty, cached⟩ := written
  have allocated := backed (by rw [cached]; rfl)
  cases found : w.hashTable.frameOf (file, pageNo) with
  | none => simp [cellOf, found] at cached
  | some i =>
    simp only [cellOf, found, Option.map_some', Option.some.injEq, Prod.mk.injEq] at cached
    unfold unPinPage at released
    simp only [BufHashTbl.lookup_eq, found] at released
    split_ifs at released
    · cases released
    simp only [Prod.mk.injEq] at released
    obtain ⟨-, rfl⟩ := released
    exact ⟨allocated, by simp [cellOf, Cell.content, found, cached.1], fun _ clean => by
      simp [cellOf, found] at clean⟩

/-- A `readPage` that succeeds gives a frame holding what a reader of the page gets. -/
theorem readPage_ok_content (agree : Agree w) (read : (readPage file pageNo none w).1 = .ok) :
    ∃ j, (readPage file pageNo none w).2.1 = some j ∧
      some ((readPage file pageNo none w).2.2.bufPool j) = (cellOf w (file, pageNo)).content := by
  have outcome := readPage_cases file pageNo none w
  generalize readPage file pageNo none w = result at outcome read ⊢
  cases outcome with
  | @hit i found => exact ⟨i, rfl, by simp [cellOf, Cell.content, found]⟩
  | noFrame _ allocated => exact absurd read (allocBuf_failed agree allocated).1
  | readFailed => cases read
  | unindexed => cases read
  | @loaded j w₁ bytes absent allocated stored absent' =>
    refine ⟨j, rfl, ?_⟩
    rw [← cellOf_allocBuf_absent agree allocated absent]
    simp [cellOf, Cell.content, absent', stored]

/-- **A page written under a pin and released with `unPinPage(file, pageNo, true)` holds its bytes
from then on.** From any reachable world `w₀`: the client writes `bytes` into the frame of the
page, which stays pinned through the calls `mid`; it releases the page with
`unPinPage(file, pageNo, true)`, which returns `OK`; any calls `post` follow, evictions, failed
write-backs, flushes and re-reads included. If no call after the write writes the page and the
store is never asked to dispose of it, the world reached is reachable and the page holds `bytes`
there (`Cell.Holds`). -/
theorem holds_after_dirty_unPin {w₀ w₁ w₂ w₃ : World Page} (reach : Reachable w₀)
    (file : Option FileId) (pageNo : Int) (bytes : Page) (mid post : List (Op Page))
    (held : ∀ mid' rest, mid = mid' ++ rest →
      0 < pinsOf (Op.exec (writeFrame file pageNo bytes w₀) mid').2 (file, pageNo))
    (ranMid : (Op.exec (writeFrame file pageNo bytes w₀) mid).2 = w₁)
    (released : unPinPage file pageNo true w₁ = (.ok, w₂))
    (ranPost : (Op.exec w₂ post).2 = w₃)
    (unwritten : ∀ op ∈ mid ++ post, ∀ bytes', op ≠ .write file pageNo bytes')
    (undisposed : w₃.calls.count (.disposePage file pageNo) =
      w₀.calls.count (.disposePage file pageNo)) :
    Reachable w₃ ∧ Cell.Holds bytes (cellOf w₃ (file, pageNo)) := by
  have agree₀ := Agree.reachable reach
  have wrote : Reachable (writeFrame file pageNo bytes w₀) := reach.step (.write file pageNo bytes)
  have reach₁ : Reachable w₁ := ranMid ▸ wrote.exec mid
  have reach₂ : Reachable w₂ := by
    have step := reach₁.step (.unPinPage file pageNo true)
    rwa [Op.apply_unPinPage, released] at step
  have pinned : 0 < pinsOf w₀ (file, pageNo) := by
    have pinned : 0 < pinsOf (writeFrame file pageNo bytes w₀) (file, pageNo) := held [] mid rfl
    rw [(pinMove_write (w := w₀) file pageNo bytes).pins] at pinned
    exact pinned
  have written : Cell.Written bytes (cellOf w₁ (file, pageNo)) := ranMid ▸ written_exec wrote
    (written_writeFrame pinned) mid (fun op mem => unwritten op (List.mem_append_left post mem))
    held
  have holds := holds_unPinPage (backed_reachable reach₁ _) written released
  -- The disposals of the page never decrease, and end where they started.
  have first := Cell.disposals_le_of_reflGen (cellOf_writeFrame agree₀ file pageNo bytes (file, pageNo))
  have second := Cell.disposals_le_of_steps (cellSteps_exec (Agree.reachable wrote) (file, pageNo) mid)
  have third := Cell.disposals_le_of_reflGen
    (cellOf_unPinPage (Agree.reachable reach₁) file pageNo true (file, pageNo) :
      Relation.ReflGen (Cell.Step False) _ _)
  have steps := cellSteps_exec (Agree.reachable reach₂) (file, pageNo) post
  have fourth := Cell.disposals_le_of_steps steps
  rw [ranMid] at second
  rw [released] at third
  rw [ranPost] at steps fourth
  have kept : (cellOf w₃ (file, pageNo)).disposals = (cellOf w₂ (file, pageNo)).disposals := by
    simp only [cellOf] at first second third fourth undisposed ⊢
    omega
  have unwrittenPost : (∃ op ∈ post, ∃ bytes', op = .write file pageNo bytes') → False :=
    fun ⟨op, mem, bytes', same⟩ => unwritten op (List.mem_append_right mid mem) bytes' same
  exact ⟨ranPost ▸ reach₂.exec post,
    Cell.holds_of_steps (steps.mono fun _ _ step => step.mono unwrittenPost) holds kept⟩

/-- **A page written under a pin and released with `unPinPage(file, pageNo, true)` gives its bytes
to every later `readPage` that succeeds.** From any reachable world `w₀`: the client writes
`bytes` into the frame of the page, which stays pinned through the calls `mid`; it releases the
page with `unPinPage(file, pageNo, true)`, which returns `OK`; any calls `post` follow, evictions,
failed write-backs, flushes and re-reads included. If no call after the write writes the page and
the store is never asked to dispose of it, a `readPage` of the page that returns `OK` gives a
frame holding `bytes`. -/
theorem readPage_after_dirty_unPin {w₀ w₁ w₂ w₃ : World Page} (reach : Reachable w₀)
    (file : Option FileId) (pageNo : Int) (bytes : Page) (mid post : List (Op Page))
    (held : ∀ mid' rest, mid = mid' ++ rest →
      0 < pinsOf (Op.exec (writeFrame file pageNo bytes w₀) mid').2 (file, pageNo))
    (ranMid : (Op.exec (writeFrame file pageNo bytes w₀) mid).2 = w₁)
    (released : unPinPage file pageNo true w₁ = (.ok, w₂))
    (ranPost : (Op.exec w₂ post).2 = w₃)
    (unwritten : ∀ op ∈ mid ++ post, ∀ bytes', op ≠ .write file pageNo bytes')
    (undisposed : w₃.calls.count (.disposePage file pageNo) =
      w₀.calls.count (.disposePage file pageNo))
    (read : (readPage file pageNo none w₃).1 = .ok) :
    ∃ j, (readPage file pageNo none w₃).2.1 = some j ∧
      (readPage file pageNo none w₃).2.2.bufPool j = bytes := by
  obtain ⟨reach₃, holds⟩ := holds_after_dirty_unPin reach file pageNo bytes mid post held ranMid
    released ranPost unwritten undisposed
  obtain ⟨j, frame, content⟩ := readPage_ok_content (Agree.reachable reach₃) read
  exact ⟨j, frame, Option.some.inj (content.trans holds.content)⟩

/-- One frame over a store whose file `0` has every page, zeroed; page `0` is read and pinned. -/
def oneFrame : World Nat :=
  (Op.exec (World.init 1 ⟨fun _ _ => some 0, fun _ => none⟩ (fun _ => false) (fun _ => 0))
    [.readPage (some 0) 0]).2

/-- `oneFrame` after the client writes `7` into page `0` and releases it dirty, then reads page
`1` into the only frame (page `0` is written back and evicted) and releases it. -/
def rereadRun : World Nat :=
  (Op.exec (unPinPage (some 0) 0 true (writeFrame (some 0) 0 7 oneFrame)).2
    [.readPage (some 0) 1, .unPinPage (some 0) 1 false]).2

/-- Page `0`, evicted after its dirty release, is read back from the store with its `7`. -/
theorem rereadRun_readPage :
    ∃ j, (readPage (some 0) 0 none rereadRun).2.1 = some j ∧
      (readPage (some 0) 0 none rereadRun).2.2.bufPool j = 7 :=
  readPage_after_dirty_unPin (show Reachable oneFrame from (Reachable.init _ _ _ _).exec _)
    (some 0) 0 7 [] _
    (fun mid' rest split => by
      obtain ⟨rfl, rfl⟩ := List.append_eq_nil.mp split.symm
      decide)
    rfl (show unPinPage (some 0) 0 true (writeFrame (some 0) 0 7 oneFrame) =
      (.ok, (unPinPage (some 0) 0 true (writeFrame (some 0) 0 7 oneFrame)).2) from rfl)
    rfl (by simp) (by decide) (by decide)

end Update

end Minirel
