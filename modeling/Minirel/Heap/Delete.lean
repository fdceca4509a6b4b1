/-
**A delete takes its record out of the list.**

`HeapFileScan::deleteRecord` frees the current record's slot on the cursor page, through the
frame the scan holds pinned, and counts one record less in the header. Seen through the list of
the file's records (`Chain`), whose pages number their records by themselves, the identifiers of
the records are distinct, and the delete erases exactly the current record from the list, the
others keeping their order; every page of the list stays stable (`Stable`).

* `HeapPage.deleteRecord_ok` — freeing a slot filters the page's records by the identifier, and
  keeps the page's link.
* `Chain.rids_nodup` — **the records of a list have distinct identifiers.**
* `Chain.filter` — a list with one page rewritten so filters the list's records.
* `HeapFileScan.deleteRecord_filters` — **a delete through a scan that stands on a record of the
  list returns `OK`, erases that record from the list and nothing else, keeps every page of the
  list stable, and counts one record less in the header.**
-/

import Minirel.Heap.Lookup
import Mathlib.Data.List.Nodup

namespace Minirel

open World BufMgr

/-! ### A page's delete -/

namespace HeapPage

/-- Every record of the slots from `n` on has an identifier of a slot from `n` on. -/
theorem slot_ge_of_mem {curPage : Int} {slots : List (Option Record)} {n : Nat}
    {entry : RID × Record} (mem : entry ∈ (slots.enumFrom n).filterMap (entryRecord curPage)) :
    ∃ i, n ≤ i ∧ entry.1 = ⟨curPage, i⟩ := by
  obtain ⟨⟨i, slot⟩, listed, named⟩ := List.mem_filterMap.mp mem
  obtain ⟨rec, -, rfl⟩ := Option.map_eq_some'.mp named
  exact ⟨i, (List.mem_enumFrom listed).1, rfl⟩

/-- Freeing slot `k` takes from the records of a slot directory exactly the one of that slot. -/
theorem filterMap_set_none (curPage : Int) (slots : List (Option Record)) (n k : Nat) :
    ((slots.set k none).enumFrom n).filterMap (entryRecord curPage) =
      ((slots.enumFrom n).filterMap (entryRecord curPage)).filter
        (·.1 ≠ ⟨curPage, ↑(n + k)⟩) := by
  induction slots generalizing n k with
  | nil => simp
  | cons entry slots ih =>
    have later : ∀ e ∈ (slots.enumFrom (n + 1)).filterMap (entryRecord curPage),
        e.1 ≠ ⟨curPage, ↑n⟩ := fun e mem same => by
      obtain ⟨i, above, named⟩ := slot_ge_of_mem mem
      rw [same, RID.mk.injEq] at named
      omega
    cases k with
    | zero =>
      have kept : ((slots.enumFrom (n + 1)).filterMap (entryRecord curPage)).filter
          (fun e => !decide (e.1 = ⟨curPage, ↑n⟩)) =
            (slots.enumFrom (n + 1)).filterMap (entryRecord curPage) :=
        List.filter_eq_self.mpr fun e mem => by simpa using later e mem
      rw [List.set_cons_zero, List.enumFrom_cons, List.enumFrom_cons]
      cases entry <;> simp [entryRecord, List.filter_cons, kept]
    | succ k =>
      rw [List.set_cons_succ, List.enumFrom_cons, List.enumFrom_cons, List.filterMap_cons,
        List.filterMap_cons, ih, show n + 1 + k = n + (k + 1) by omega]
      cases entry <;> simp [entryRecord, List.filter_cons, show (k : Int) + 1 ≠ 0 by omega]

/-- The records of the slots from `n` on have distinct identifiers. -/
theorem rids_nodup_from (curPage : Int) (slots : List (Option Record)) (n : Nat) :
    (((slots.enumFrom n).filterMap (entryRecord curPage)).map Prod.fst).Nodup := by
  induction slots generalizing n with
  | nil => exact List.nodup_nil
  | cons entry slots ih =>
    rw [List.enumFrom_cons, List.filterMap_cons]
    cases entry with
    | none => exact ih (n + 1)
    | some rec =>
      refine List.nodup_cons.mpr ⟨fun mem => ?_, ih (n + 1)⟩
      obtain ⟨e, listed, named⟩ := List.mem_map.mp mem
      obtain ⟨i, above, same⟩ := slot_ge_of_mem listed
      rw [named, RID.mk.injEq] at same
      omega

/-- **Freeing a live slot filters the page's records by the identifier**, on a page that numbers
its records by the identifier's page; the page keeps its link. -/
theorem deleteRecord_ok {page : HeapPage} {rid : RID} {rec : Record}
    (got : page.getRecord rid = .ok rec) (numbered : rid.pageNo = page.curPage) :
    (page.deleteRecord rid).1 = .ok ∧
      (page.deleteRecord rid).2.liveRecords = page.liveRecords.filter (·.1 ≠ rid) ∧
      (page.deleteRecord rid).2.nextPage = page.nextPage := by
  unfold getRecord at got
  split at got
  · rename_i live
    have nonneg : 0 ≤ rid.slotNo := by
      unfold slot at live
      split at live
      · assumption
      · cases live
    have named : (⟨page.curPage, ↑(0 + rid.slotNo.toNat)⟩ : RID) = rid := by
      rw [Nat.zero_add, Int.toNat_of_nonneg nonneg, ← numbered]
    have filtered := filterMap_set_none page.curPage page.slots 0 rid.slotNo.toNat
    rw [named] at filtered
    unfold deleteRecord
    rw [live]
    exact ⟨rfl, filtered, rfl⟩
  · cases got

end HeapPage

/-! ### The list -/

/-- **The records of a list have distinct identifiers**, when its pages number their records by
themselves: a page's records are those of distinct slots, and a list passes no page twice. -/
theorem Chain.rids_nodup {w : World HeapPage} {file : Option FileId} {first : Int}
    {pages : List Int} {records : List (RID × Record)} (chain : Chain w file first pages records)
    (numbered : ∀ p ∈ pages, ∀ page,
      (cellOf w (file, p)).content = some page → page.curPage = p) :
    (records.map Prod.fst).Nodup := by
  induction chain with
  | last => exact List.nodup_nil
  | @link pageNo page rest recs more read tail ih =>
    have numbered' (p) (mem : p ∈ rest) := numbered p (List.mem_cons_of_mem _ mem)
    have outside := (List.nodup_cons.mp (Chain.link more read tail).nodup).1
    rw [List.map_append, List.nodup_append]
    refine ⟨HeapPage.rids_nodup_from page.curPage page.slots 0, ih numbered',
      fun rid here later => ?_⟩
    obtain ⟨⟨_, r⟩, mem, rfl⟩ := List.mem_map.mp here
    obtain ⟨⟨_, r'⟩, mem', rfl⟩ := List.mem_map.mp later
    have onPage := (HeapPage.getRecord_of_mem mem).1
    rw [numbered pageNo (List.mem_cons_self _ _) page read] at onPage
    exact outside (onPage ▸ (tail.lookup numbered' mem').1)

/-- In a list of records with distinct identifiers, dropping the records under the identifier of
one of them erases that one. -/
theorem filter_rid_eq_erase {records : List (RID × Record)} (keys : (records.map Prod.fst).Nodup)
    {rid : RID} {rec : Record} (mem : (rid, rec) ∈ records) :
    records.filter (·.1 ≠ rid) = records.erase (rid, rec) := by
  rw [(keys.of_map _).erase_eq_filter]
  refine List.filter_congr fun e listed => ?_
  have same : e.1 = rid ↔ e = (rid, rec) :=
    ⟨fun named => List.inj_on_of_nodup_map keys listed mem named, fun named => by rw [named]⟩
  by_cases named : e = (rid, rec) <;> simp [same, named]

/-- **A list with the page of an identifier rewritten, the page keeping its link and its records
filtered by the identifier, has its records filtered by the identifier**: the pages number their
records by themselves, so no other page holds a record under the identifier. -/
theorem Chain.filter {w w' : World HeapPage} {file : Option FileId} {first : Int}
    {pages : List Int} {records : List (RID × Record)} (chain : Chain w file first pages records)
    (numbered : ∀ p ∈ pages, ∀ page,
      (cellOf w (file, p)).content = some page → page.curPage = p)
    {rid : RID} {page page' : HeapPage} (read : (cellOf w (file, rid.pageNo)).content = some page)
    (written : (cellOf w' (file, rid.pageNo)).content = some page')
    (link : page'.nextPage = page.nextPage)
    (filtered : page'.liveRecords = page.liveRecords.filter (·.1 ≠ rid))
    (same : ∀ p ∈ pages, p ≠ rid.pageNo →
      (cellOf w' (file, p)).content = (cellOf w (file, p)).content) :
    Chain w' file first pages (records.filter (·.1 ≠ rid)) := by
  induction chain with
  | last => exact .last
  | @link pageNo pg rest recs more read₀ tail ih =>
    have numbered' (p) (mem : p ∈ rest) := numbered p (List.mem_cons_of_mem _ mem)
    rw [List.filter_append]
    by_cases here : pageNo = rid.pageNo
    · subst here
      cases read.symm.trans read₀
      have outside := (List.nodup_cons.mp (Chain.link more read₀ tail).nodup).1
      have kept : recs.filter (·.1 ≠ rid) = recs := List.filter_eq_self.mpr fun r mem => by
        have listed := (tail.lookup numbered' (show (r.1, r.2) ∈ recs from mem)).1
        simpa using fun named : r.1 = rid => outside (named ▸ listed)
      rw [kept, ← filtered]
      exact .link more written (link ▸ tail.of_contents fun p mem =>
        same p (List.mem_cons_of_mem _ mem) fun hit => outside (hit ▸ mem))
    · have kept : pg.liveRecords.filter (·.1 ≠ rid) = pg.liveRecords :=
        List.filter_eq_self.mpr fun r mem => by
          have named := (HeapPage.getRecord_of_mem (show (r.1, r.2) ∈ pg.liveRecords from mem)).1
          rw [numbered pageNo (List.mem_cons_self _ _) pg read₀] at named
          simpa using fun hit : r.1 = rid => here (hit ▸ named).symm
      rw [kept]
      exact .link more ((same pageNo (List.mem_cons_self _ _) here).trans read₀)
        (ih numbered' fun p mem => same p (List.mem_cons_of_mem _ mem))

/-! ### The scan's delete -/

namespace HeapFileScan

/-- **A delete through a scan that stands on a record of the list returns `OK`, takes that record
out of the list and nothing else, keeps every page of the list stable, and counts one record less
in the header**: the cursor page and the header are pinned in their frames, the header is not a
page of the list, and the pages of the list number their records by themselves. -/
theorem deleteRecord_filters {w : World HeapPage} (agree : Agree w) {scan : HeapFileScan}
    {frame : Nat} (cursor : scan.curPage = some frame)
    (current : PinnedAt w (scan.filePtr, scan.curPageNo) frame)
    (header : PinnedAt w (scan.filePtr, scan.headerPageNo) scan.headerPage)
    {first : Int} {pages : List Int} {records : List (RID × Record)}
    (chain : Chain w scan.filePtr first pages records)
    (stable : ∀ p ∈ pages, Stable w (scan.filePtr, p))
    (numbered : ∀ p ∈ pages, ∀ page,
      (cellOf w (scan.filePtr, p)).content = some page → page.curPage = p)
    (apart : scan.headerPageNo ∉ pages) (onPage : scan.curRec.pageNo = scan.curPageNo)
    {rec : Record} (listed : (scan.curRec, rec) ∈ records) :
    ∃ w', scan.deleteRecord w =
        some (.ok, { scan with curDirtyFlag := true, hdrDirtyFlag := true }, w') ∧
      Chain w' scan.filePtr first pages (records.erase (scan.curRec, rec)) ∧
      (∀ p ∈ pages, Stable w' (scan.filePtr, p)) ∧
      (scan.header w').recCnt = (scan.header w).recCnt - 1 := by
  obtain ⟨inList, page, read, got⟩ := chain.lookup numbered listed
  rw [← onPage] at current
  cases Option.some.inj (current.content.symm.trans read)
  obtain ⟨deleted, filtered, link⟩ :=
    HeapPage.deleteRecord_ok got (numbered _ inList _ read).symm
  have other (p) (mem : p ∈ pages) : (scan.filePtr, p) ≠ (scan.filePtr, scan.headerPageNo) :=
    fun same => apart ((Prod.mk.inj same).2 ▸ mem)
  have frames : scan.headerPage ≠ frame := fun same =>
    agree.frameOf_ne current.1 (other _ inList).symm (same ▸ header.1)
  generalize answered : (w.bufPool frame).deleteRecord scan.curRec = result at deleted filtered link
  obtain ⟨status, page'⟩ := result
  cases deleted
  -- the cursor page is written first, then the header
  let w₁ := w.setPage frame page'
  have steady (p) (mem : p ∈ pages) : Steady w₁
      (setHeader w₁ scan.headerPage (w₁.bufPool scan.headerPage).firstPage
        (w₁.bufPool scan.headerPage).lastPage (w₁.bufPool scan.headerPage).pageCnt
        ((w₁.bufPool scan.headerPage).recCnt - 1)) (scan.filePtr, p) :=
    Steady.setPage_pinned (agree.setPage _ _) (header.setPage _ _) (other p mem) _
  have written : Stable w₁ (scan.filePtr, scan.curRec.pageNo) ∧
      (cellOf w₁ (scan.filePtr, scan.curRec.pageNo)).content = some page' :=
    (stable _ inList).setPage_self current page'
  have kept (p) (moved : p ≠ scan.curRec.pageNo) : Steady w w₁ (scan.filePtr, p) :=
    Steady.setPage_pinned agree current (fun same => moved (Prod.mk.inj same).2) page'
  have stable₁ (p) (mem : p ∈ pages) : Stable w₁ (scan.filePtr, p) := by
    by_cases moved : p = scan.curRec.pageNo
    · exact moved ▸ written.1
    · exact (kept p moved (stable p mem)).1
  refine ⟨_, by simp only [deleteRecord, cursor, Option.map_some', answered]; rfl,
    ?_, fun p mem => (steady p mem (stable₁ p mem)).1, ?_⟩
  · rw [← filter_rid_eq_erase (chain.rids_nodup numbered) listed]
    refine chain.filter numbered read ((steady _ inList written.1).2.trans written.2) link filtered
      fun p mem moved => ?_
    exact (steady p mem (stable₁ p mem)).2.trans (kept p moved (stable p mem)).2
  · simp [w₁, HeapFile.header, setHeader, World.setPage, Function.update_noteq frames]

/-- The file of `storedWorld 4 2`, scanned without a filter, after one `scanNext`: the scan stands
on the file's first record, `(1, 0)`. -/
def firstScanned : Status × Option RID × HeapFileScan × World HeapPage :=
  let (_, scan, w) := construct storedCatalog "heap" (storedWorld 4 2)
  ((scan.startScan 0 0 .STRING none .EQ).2.scanNext 4 w).getD (.ok, none, scan, w)

example : firstScanned.2.1 = some ⟨1, 0⟩ := by decide

theorem firstScanned_agree : Agree firstScanned.2.2.2 :=
  (show firstScanned.2.2.2 = (readPage (some 0) 1 (some 0)
    (readPage (some 0) 0 none (storedWorld 4 2)).2.2).2.2 from rfl) ▸
      ((Agree.init _ _ _ _).readPage _ _ _).readPage _ _ _

/-- Deleting the first record of the file of `storedWorld 4 2` through its scan leaves the second
one alone in the list. -/
theorem firstScanned_deleteRecord :
    ∃ w', firstScanned.2.2.1.deleteRecord firstScanned.2.2.2 =
        some (.ok, { firstScanned.2.2.1 with curDirtyFlag := true, hdrDirtyFlag := true }, w') ∧
      Chain w' firstScanned.2.2.1.filePtr 1 [1, 2]
        ([(⟨1, 0⟩, record4 1), (⟨2, 0⟩, record4 2)].erase
          (firstScanned.2.2.1.curRec, record4 1)) ∧
      (∀ p ∈ [1, 2], Stable w' (firstScanned.2.2.1.filePtr, p)) ∧
      (firstScanned.2.2.1.header w').recCnt =
        (firstScanned.2.2.1.header firstScanned.2.2.2).recCnt - 1 :=
  deleteRecord_filters firstScanned_agree (show _ = some 1 by decide)
    ⟨by decide, by decide⟩ ⟨by decide, by decide⟩
    (chainFrom_sound (show chainFrom firstScanned.2.2.2 (some 0) 3 1 = _ from rfl))
    (fun p mem => by
      rcases List.mem_cons.mp mem with rfl | mem
      · exact .inr ⟨by decide, by decide⟩
      · rcases List.mem_singleton.mp mem with rfl
        exact .inl ⟨_, rfl, rfl, fun _ cached => by cases cached⟩)
    (fun p mem page read => by
      rcases List.mem_cons.mp mem with rfl | mem
      · cases read
        rfl
      · rcases List.mem_singleton.mp mem with rfl
        cases read
        rfl)
    (by decide) (by decide) (show (_, record4 1) ∈ _ by decide)

end HeapFileScan

end Minirel
