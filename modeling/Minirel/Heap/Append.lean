/-
**Inserts append to the file: an insert scan refines a list of records.**

A client of `InsertFileScan` sees the file as the list of its records, read from the header's
first page along the data pages (`Chain`). `Appending w hf frame pages records` says that the open
scan `hf` stands where an insert appends: its cursor page, pinned in `frame`, is the last page of
the list `pages`; every page of the list is stable (`Stable`), so that the calls of an insert read
it the same; and the header, pinned apart from the list, names the cursor page as the last page
and counts the pages and the records.

* `HeapPage.insertRecord_ok` — a page's insert adds the record under the identifier it returns:
  the page's records become a permutation of the old ones and the new one, exactly the old ones
  followed by it when the page has no freed slot.
* `Chain.graft` — a list whose last page is replaced, with a list hung after it.
* `InsertFileScan.insertRecord_appends`, `insertAll_appends` — **an insert that returns `OK`
  keeps the scan appending, with the record after the list's records** (up to the order the slots
  give on the last page); through a run of inserts, the records in order.
* `HeapFile.construct_appending` — a constructor that returns `OK` on a file of one data page
  (`OnePage`) opens an appending scan.
* `InsertFileScan.insertRecord_getRecord` — **a record inserted with `OK` reads back** through
  `getRecord` under the identifier the insert returns.
* `insertSession_appends` — **a whole session on a file of one data page leaves the file's list
  with the page's records and then the inserted ones**, every page of it stable.
* `insertSession_flushFile` — **a flush of the file after the session, returning `OK`, leaves
  that list in the store**, for a buffer manager started afresh to read.
-/

import Minirel.Heap.ScanOrder
import Minirel.Heap.Create
import Mathlib.Data.List.Perm.Basic

set_option linter.unusedSectionVars false

namespace Minirel

open World BufMgr

/-! ### A page's insert -/

namespace HeapPage

section Insert

variable (layout : Layout) (curPage : Int) (rec : Record)

/-- Filling a freed slot adds its record to the records of the slot directory. -/
theorem filterMap_set_perm (slots : List (Option Record)) (n k : Nat)
    (free : slots[k]? = some none) :
    List.Perm (((slots.set k (some rec)).enumFrom n).filterMap (entryRecord curPage))
      ((slots.enumFrom n).filterMap (entryRecord curPage) ++ [(⟨curPage, ↑(n + k)⟩, rec)]) := by
  induction slots generalizing n k with
  | nil => simp at free
  | cons entry slots ih =>
    cases k with
    | zero =>
      obtain rfl : entry = none := by simpa using free
      simpa [entryRecord] using (List.perm_append_singleton _ _).symm
    | succ k =>
      have rest := ih (n + 1) k (by simpa using free)
      rw [show n + 1 + k = n + (k + 1) by omega] at rest
      cases entry with
      | none => simpa [entryRecord] using rest
      | some old => simpa [entryRecord] using rest.cons (⟨curPage, ↑n⟩, old)

@[simp] theorem liveRecords_setNextPage (page : HeapPage) (pageNo : Int) :
    (page.setNextPage pageNo).liveRecords = page.liveRecords := rfl

@[simp] theorem liveRecords_init (page : HeapPage) (pageNo : Int) :
    (page.init pageNo).liveRecords = [] := rfl

@[simp] theorem slots_setNextPage (page : HeapPage) (pageNo : Int) :
    (page.setNextPage pageNo).slots = page.slots := rfl

@[simp] theorem getRecord_setNextPage (page : HeapPage) (pageNo : Int) (rid : RID) :
    (page.setNextPage pageNo).getRecord rid = page.getRecord rid := rfl

/-- Appending a slot adds its record after the records of the page. -/
theorem liveRecords_append (page : HeapPage) :
    { page with slots := page.slots ++ [some rec] }.liveRecords =
      page.liveRecords ++ [(⟨page.curPage, page.slots.length⟩, rec)] := by
  simp only [liveRecords, List.enum_append, List.filterMap_append]
  rfl

variable {layout rec}

/-- **A page's insert adds the record under the identifier it returns**, on the page the page was
initialised as, and changes nothing but the slots: the page's records become a permutation of the
old ones and the new one, and exactly the old ones followed by it when no slot was freed, after
which still none is. -/
theorem insertRecord_ok {page page' : HeapPage} {rid : RID}
    (inserted : page.insertRecord layout rec = .ok (rid, page')) :
    (∃ slots, page' = { page with slots := slots }) ∧ rid.pageNo = page.curPage ∧
      page'.getRecord rid = .ok rec ∧ page'.liveRecords.Perm (page.liveRecords ++ [(rid, rec)]) ∧
      (none ∉ page.slots →
        page'.liveRecords = page.liveRecords ++ [(rid, rec)] ∧ none ∉ page'.slots) := by
  unfold insertRecord at inserted
  split_ifs at inserted
  split at inserted
  · rename_i k found
    cases inserted
    have free : page.slots[k]? = some none := by
      have entry := List.findIdx?_of_eq_some found
      split at entry
      · rename_i slot got
        cases slot
        · exact got
        · cases entry
      · cases entry
    obtain ⟨bound, got⟩ := List.getElem?_eq_some_iff.mp free
    refine ⟨⟨_, rfl⟩, rfl, by simp [getRecord, slot, List.getElem?_set_self bound, Int.ofNat_nonneg], ?_,
      fun packed => absurd (got ▸ List.getElem_mem bound) packed⟩
    simpa using filterMap_set_perm page.curPage rec page.slots 0 k free
  · rename_i missing
    cases inserted
    have packed : none ∉ page.slots := fun mem => by
      simpa using List.findIdx?_eq_none_iff.mp missing none mem
    refine ⟨⟨_, rfl⟩, rfl, by simp [getRecord, slot, Int.ofNat_nonneg], (liveRecords_append rec page).symm ▸ .refl _,
      fun _ => ⟨liveRecords_append rec page, by simpa using packed⟩⟩

end Insert

end HeapPage

/-! ### The list after an append -/

/-- **A list whose last page is replaced, with a list hung after it.** The list from `first`
passes `pages` with `records`, and its page `pageNo` read `page`, the end of the list. In a world
where the other pages of the list read the same, `pageNo` reads `page'` and a list goes from
`page'.nextPage`, the list from `first` passes `pages` and then that list, and finds the records
the other pages had, then those of `page'` and of the list after it. -/
theorem Chain.graft {w w' : World HeapPage} {file : Option FileId} {first pageNo : Int}
    {pages pages' : List Int} {records records' : List (RID × Record)} {page page' : HeapPage}
    (chain : Chain w file first pages records) (mem : pageNo ∈ pages)
    (last : (cellOf w (file, pageNo)).content = some page) (ends : page.nextPage = -1)
    (same : ∀ p ∈ pages, p ≠ pageNo → (cellOf w' (file, p)).content = (cellOf w (file, p)).content)
    (replaced : (cellOf w' (file, pageNo)).content = some page')
    (tail : Chain w' file page'.nextPage pages' records') :
    ∃ before, records = before ++ page.liveRecords ∧
      Chain w' file first (pages ++ pages') (before ++ page'.liveRecords ++ records') := by
  induction chain with
  | last => cases mem
  | @link pageNo₀ page₀ pages₀ records₀ more read rest ih =>
    by_cases here : pageNo₀ = pageNo
    · subst here
      cases Option.some.inj (read.symm.trans last)
      obtain ⟨rfl, rfl⟩ := (ends ▸ rest).eq_nil_of_end
      exact ⟨[], by simp, .link more replaced tail⟩
    · obtain ⟨before, rfl, chain'⟩ := ih (List.mem_of_ne_of_mem (Ne.symm here) mem)
        fun p mem' => same p (List.mem_cons_of_mem _ mem')
      refine ⟨page₀.liveRecords ++ before, by simp, ?_⟩
      simpa using Chain.link more ((same _ (List.mem_cons_self _ _) here).trans read) chain'

/-! ### Where an insert appends -/

/-- The open insert scan `hf` stands where an insert appends to its file: the list from the
header's first page passes `pages` with `records`; its last page is the cursor page, pinned in
`frame` and numbered by itself; every page of the list is stable; and the header page, pinned in
its frame apart from the list, names the cursor page as the last page and counts the pages and the
records. The store never offers `-1`, the number that ends a list, for a new page. -/
structure Appending (w : World HeapPage) (hf : HeapFile) (frame : Nat) (pages : List Int)
    (records : List (RID × Record)) : Prop where
  agree : Agree w
  cursor : hf.curPage = some frame
  current : PinnedAt w (hf.filePtr, hf.curPageNo) frame
  header : PinnedAt w (hf.filePtr, hf.headerPageNo) hf.headerPage
  headerAllocated : (cellOf w (hf.filePtr, hf.headerPageNo)).stored.isSome
  chain : Chain w hf.filePtr (hf.header w).firstPage pages records
  last : hf.curPageNo ∈ pages
  ends : (w.bufPool frame).nextPage = -1
  numbered : (w.bufPool frame).curPage = hf.curPageNo
  stable : ∀ p ∈ pages, Stable w (hf.filePtr, p)
  apart : hf.headerPageNo ∉ pages
  lastPage : (hf.header w).lastPage = hf.curPageNo
  pageCnt : (hf.header w).pageCnt = pages.length
  recCnt : (hf.header w).recCnt = records.length
  numbering : ∀ n, w.fresh n ≠ -1

@[simp] theorem setHeader_hashTable (w : World HeapPage) (frame : Nat)
    (firstPage lastPage pageCnt recCnt : Int) :
    (setHeader w frame firstPage lastPage pageCnt recCnt).hashTable = w.hashTable := rfl

@[simp] theorem setHeader_fresh (w : World HeapPage) (frame : Nat)
    (firstPage lastPage pageCnt recCnt : Int) :
    (setHeader w frame firstPage lastPage pageCnt recCnt).fresh = w.fresh := rfl

theorem setHeader_bufPool (w : World HeapPage) (frame : Nat) (firstPage lastPage pageCnt recCnt : Int)
    (i : Nat) : (setHeader w frame firstPage lastPage pageCnt recCnt).bufPool i =
      if i = frame then { w.bufPool frame with firstPage := firstPage, lastPage := lastPage,
                                               pageCnt := pageCnt, recCnt := recCnt }
      else w.bufPool i := by
  simp only [setHeader, setPage_bufPool, Function.update_apply]

/-- Writing a frame's own bytes back changes nothing. -/
theorem setPage_bufPool_self (w : World HeapPage) (i : Nat) : w.setPage i (w.bufPool i) = w := by
  unfold World.setPage
  rw [Function.update_eq_self]

theorem HeapPage.setNextPage_of_eq {page : HeapPage} {pageNo : Int} (same : page.nextPage = pageNo) :
    page.setNextPage pageNo = page := by
  cases page
  cases same
  rfl

namespace Appending

variable {w : World HeapPage} {hf : HeapFile} {frame : Nat} {pages : List Int}
  {records : List (RID × Record)}

theorem cursor_ne (appending : Appending w hf frame pages records) :
    hf.curPageNo ≠ hf.headerPageNo := fun same => appending.apart (same ▸ appending.last)

/-- The cursor page and the header page are in different frames. -/
theorem frame_ne (appending : Appending w hf frame pages records) : frame ≠ hf.headerPage :=
  fun same => appending.agree.frameOf_ne appending.header.1
    (by simpa using appending.cursor_ne) (same ▸ appending.current.1)

/-- **An insert into the cursor page keeps the scan where an insert appends**, with the record
added to the list; the header counts it. -/
theorem insertInPlace (appending : Appending w hf frame pages records) {layout : Layout}
    {rec : Record} {rid : RID} {page : HeapPage}
    (inserted : (w.bufPool frame).insertRecord layout rec = .ok (rid, page)) :
    ∃ records', Appending (setHeader (w.setPage frame page) hf.headerPage
        (hf.header (w.setPage frame page)).firstPage (hf.header (w.setPage frame page)).lastPage
        (hf.header (w.setPage frame page)).pageCnt ((hf.header (w.setPage frame page)).recCnt + 1))
        { hf with curRec := rid, curDirtyFlag := true } frame pages records' ∧
      records'.Perm (records ++ [(rid, rec)]) ∧
      (none ∉ (w.bufPool frame).slots → records' = records ++ [(rid, rec)] ∧ none ∉ page.slots) ∧
      rid.pageNo = hf.curPageNo ∧ page.getRecord rid = .ok rec ∧
      (setHeader (w.setPage frame page) hf.headerPage
        (hf.header (w.setPage frame page)).firstPage (hf.header (w.setPage frame page)).lastPage
        (hf.header (w.setPage frame page)).pageCnt
        ((hf.header (w.setPage frame page)).recCnt + 1)).bufPool frame = page := by
  obtain ⟨⟨slots, rfl⟩, numbered, got, perm, packed⟩ := HeapPage.insertRecord_ok inserted
  have apart := appending.frame_ne
  have agree := appending.agree
  have header : hf.header (w.setPage frame { w.bufPool frame with slots := slots }) = hf.header w := by
    simp [HeapFile.header, Function.update_noteq (Ne.symm apart)]
  rw [header]
  set page := { w.bufPool frame with slots := slots }
  have agree₁ : Agree (w.setPage frame page) := agree.setPage _ _
  have written := (appending.stable _ appending.last).setPage_self appending.current page
  have toHeader : (hf.filePtr, hf.curPageNo) ≠ (hf.filePtr, hf.headerPageNo) := by
    simpa using appending.cursor_ne
  have steady {p : Int} (mem : p ∈ pages) (other : p ≠ hf.curPageNo) :
      Steady w (setHeader (w.setPage frame page) hf.headerPage (hf.header w).firstPage
        (hf.header w).lastPage (hf.header w).pageCnt ((hf.header w).recCnt + 1)) (hf.filePtr, p) :=
    (Steady.setPage_pinned agree appending.current (by simpa using other) page).trans
      (Steady.setPage_pinned agree₁ appending.header
        (by simpa using fun same : p = hf.headerPageNo => appending.apart (same ▸ mem)) _)
  have current : Steady (w.setPage frame page) (setHeader (w.setPage frame page) hf.headerPage
      (hf.header w).firstPage (hf.header w).lastPage (hf.header w).pageCnt
      ((hf.header w).recCnt + 1)) (hf.filePtr, hf.curPageNo) :=
    Steady.setPage_pinned agree₁ appending.header toHeader _
  obtain ⟨stable, content⟩ := current written.1
  rw [written.2] at content
  obtain ⟨before, rfl, chain⟩ := appending.chain.graft appending.last appending.current.content
    appending.ends (fun p mem other => ((steady mem other) (appending.stable p mem)).2) content
    (show Chain _ _ page.nextPage [] [] from appending.ends ▸ .last)
  have cursorPage : (setHeader (w.setPage frame page) hf.headerPage (hf.header w).firstPage
      (hf.header w).lastPage (hf.header w).pageCnt ((hf.header w).recCnt + 1)).bufPool frame = page := by
    simp [setHeader_bufPool, apart]
  have length : (before ++ page.liveRecords).length =
      (before ++ (w.bufPool frame).liveRecords).length + 1 := by
    simp only [List.length_append, perm.length_eq, List.length_singleton]
    omega
  refine ⟨before ++ page.liveRecords,
    { agree := (agree₁.setHeader _ _ _ _ _)
      cursor := appending.cursor
      current := appending.current
      header := appending.header
      headerAllocated := appending.headerAllocated
      chain := by simpa [HeapFile.header, setHeader_bufPool] using chain
      last := appending.last
      ends := by rw [cursorPage]; exact appending.ends
      numbered := by rw [cursorPage]; exact appending.numbered
      stable := fun p mem => by
        by_cases here : p = hf.curPageNo
        · exact here ▸ stable
        · exact ((steady mem here) (appending.stable p mem)).1
      apart := appending.apart
      lastPage := by simpa [HeapFile.header, setHeader_bufPool] using appending.lastPage
      pageCnt := by simpa [HeapFile.header, setHeader_bufPool] using appending.pageCnt
      recCnt := by
        have count := appending.recCnt
        simp only [HeapFile.header, setHeader_bufPool, if_true] at count ⊢
        rw [length]
        omega
      numbering := appending.numbering }, ?_, fun packed' => ?_, numbered.trans appending.numbered, got,
      cursorPage⟩
  · rw [List.append_assoc]
    exact perm.append_left before
  · obtain ⟨same, free⟩ := packed packed'
    exact ⟨by rw [same, List.append_assoc], free⟩

/-- **Linking a new page after the cursor page**, the first half of an insert over a full page:
`allocPage` hands out a page the list does not hold, initialised as an empty last page; the header
names it as the last page and counts it; the cursor page links to it and is released dirty. The
scan then stands where an insert appends, with the new page as its cursor page. -/
theorem link (appending : Appending w hf frame pages records) {newPageNo : Int} {newFrame : Nat}
    {w₁ w₂ w₃ w₄ w₅ : World HeapPage}
    (allocated : allocPage hf.filePtr w = (.ok (newPageNo, newFrame), w₁))
    (initialised : w₁.setPage newFrame ((w₁.bufPool newFrame).init newPageNo) = w₂)
    (counted : setHeader w₂ hf.headerPage (hf.header w₂).firstPage newPageNo
      ((hf.header w₂).pageCnt + 1) (hf.header w₂).recCnt = w₃)
    (linked : w₃.setPage frame ((w₃.bufPool frame).setNextPage newPageNo) = w₄)
    (released : (unPinPage hf.filePtr hf.curPageNo true w₄).2 = w₅) :
    (hf.header w₅).lastPage = newPageNo ∧ (w₅.bufPool newFrame).slots = [] ∧
      Appending w₅ { hf with curDirtyFlag := true, curPageNo := newPageNo, curPage := some newFrame }
        newFrame (pages ++ [newPageNo]) records := by
  have agree := appending.agree
  have agree₁ : Agree w₁ := (allocated ▸ agree.allocPage _ :)
  obtain ⟨absent, created, -⟩ := allocPage_ok_fresh agree allocated
  have newPinned := allocPage_ok_pinnedAt agree allocated
  have more : newPageNo ≠ -1 := allocPage_ok_offered allocated ▸ appending.numbering _
  have outside : newPageNo ∉ pages := fun mem => by
    simpa [absent] using (appending.stable _ mem).allocated
  have newHeader : (hf.filePtr, newPageNo) ≠ (hf.filePtr, hf.headerPageNo) := fun same => by
    have allocated := appending.headerAllocated
    rw [← (Prod.mk.inj same).2, absent] at allocated
    cases allocated
  have newCursor : (hf.filePtr, newPageNo) ≠ (hf.filePtr, hf.curPageNo) := fun same =>
    outside ((Prod.mk.inj same).2 ▸ appending.last)
  have cursorHeader : (hf.filePtr, hf.curPageNo) ≠ (hf.filePtr, hf.headerPageNo) := by
    simpa using appending.cursor_ne
  have header₁ := appending.header.allocPage agree allocated
  have current₁ := appending.current.allocPage agree allocated
  have headerFrame : newFrame ≠ hf.headerPage := fun same =>
    agree₁.frameOf_ne header₁.1 newHeader (same ▸ newPinned.1)
  have cursorFrame : frame ≠ newFrame := fun same =>
    agree₁.frameOf_ne newPinned.1 (Ne.symm newCursor) (same ▸ current₁.1)
  have headerStable : Stable w (hf.filePtr, hf.headerPageNo) :=
    .inr ⟨appending.header.2, appending.headerAllocated⟩
  -- the header's and the cursor page's bytes before the writes
  have headerBytes₁ := appending.header.bufPool_eq header₁ headerStable
    (Steady.allocPage agree allocated _)
  have cursorBytes₁ := appending.current.bufPool_eq current₁ (appending.stable _ appending.last)
    (Steady.allocPage agree allocated _)
  -- the worlds between the calls agree
  have agree₂ : Agree w₂ := initialised ▸ agree₁.setPage _ _
  have agree₃ : Agree w₃ := counted ▸ agree₂.setHeader _ _ _ _ _
  have agree₄ : Agree w₄ := linked ▸ agree₃.setPage _ _
  -- the three pages stay pinned in their frames
  have pinned₂ {key : Option FileId × Int} {i : Nat} (pinned : PinnedAt w₁ key i) : PinnedAt w₂ key i :=
    initialised ▸ pinned.setPage _ _
  have pinned₃ {key : Option FileId × Int} {i : Nat} (pinned : PinnedAt w₂ key i) : PinnedAt w₃ key i :=
    counted ▸ pinned.setPage _ _
  have pinned₄ {key : Option FileId × Int} {i : Nat} (pinned : PinnedAt w₃ key i) : PinnedAt w₄ key i :=
    linked ▸ pinned.setPage _ _
  have pinned₅ {key : Option FileId × Int} {i : Nat} (pinned : PinnedAt w₄ key i)
      (other : key ≠ (hf.filePtr, hf.curPageNo)) : PinnedAt w₅ key i :=
    released ▸ pinned.unPinPage agree₄ _ _ _ fun same => absurd same other
  -- each call is steady for every page it does not write
  have steady₂ {key : Option FileId × Int} (other : key ≠ (hf.filePtr, newPageNo)) :
      Steady w₁ w₂ key := initialised ▸ Steady.setPage_pinned agree₁ newPinned other _
  have steady₃ {key : Option FileId × Int} (other : key ≠ (hf.filePtr, hf.headerPageNo)) :
      Steady w₂ w₃ key := counted ▸ Steady.setPage_pinned agree₂ (pinned₂ header₁) other _
  have steady₄ {key : Option FileId × Int} (other : key ≠ (hf.filePtr, hf.curPageNo)) :
      Steady w₃ w₄ key := linked ▸ Steady.setPage_pinned agree₃ (pinned₃ (pinned₂ current₁)) other _
  have steady₅ (key : Option FileId × Int) : Steady w₄ w₅ key :=
    released ▸ Steady.unPinPage_dirty agree₄ _ _ key
  -- the bytes the header page, the cursor page and the new page end with
  have headerBytes : w₅.bufPool hf.headerPage =
      { w.bufPool hf.headerPage with lastPage := newPageNo,
                                     pageCnt := (w.bufPool hf.headerPage).pageCnt + 1 } := by
    subst initialised counted linked released
    simp [setHeader_bufPool, HeapFile.header, Ne.symm appending.frame_ne, Ne.symm headerFrame,
      headerBytes₁]
  have cursorBytes : w₃.bufPool frame = w.bufPool frame := by
    subst initialised counted
    simp [setHeader_bufPool, appending.frame_ne, cursorFrame, cursorBytes₁]
  have newBytes : w₅.bufPool newFrame = (w₁.bufPool newFrame).init newPageNo := by
    subst initialised counted linked released
    simp [setHeader_bufPool, headerFrame, Ne.symm cursorFrame]
  -- what a reader gets of the pages of the list, and of the new page
  have others {p : Int} (mem : p ∈ pages) (other : p ≠ hf.curPageNo) : Steady w w₅ (hf.filePtr, p) :=
    (Steady.allocPage agree allocated _).trans <| (steady₂ fun same => outside ((Prod.mk.inj same).2 ▸ mem)).trans <|
      (steady₃ fun same => appending.apart ((Prod.mk.inj same).2 ▸ mem)).trans <|
      (steady₄ fun same => other (Prod.mk.inj same).2).trans (steady₅ _)
  obtain ⟨cursorStable, cursorContent⟩ : Stable w₅ (hf.filePtr, hf.curPageNo) ∧
      (cellOf w₅ (hf.filePtr, hf.curPageNo)).content = some ((w.bufPool frame).setNextPage newPageNo) := by
    have stable₃ := ((Steady.allocPage agree allocated _).trans <| (steady₂ (Ne.symm newCursor)).trans
      (steady₃ cursorHeader)) (appending.stable _ appending.last)
    have written : Stable w₄ _ ∧ _ :=
      linked ▸ stable₃.1.setPage_self (pinned₃ (pinned₂ current₁)) ((w₃.bufPool frame).setNextPage newPageNo)
    rw [cursorBytes] at written
    exact ⟨(steady₅ _ written.1).1, (steady₅ _ written.1).2.trans written.2⟩
  obtain ⟨newStable, newContent⟩ : Stable w₅ (hf.filePtr, newPageNo) ∧
      (cellOf w₅ (hf.filePtr, newPageNo)).content = some ((w₁.bufPool newFrame).init newPageNo) := by
    have written : Stable w₂ _ ∧ _ := initialised ▸
      (Stable.setPage_self (.inr ⟨newPinned.2, created⟩) newPinned ((w₁.bufPool newFrame).init newPageNo))
    have steady := (steady₃ newHeader).trans ((steady₄ newCursor).trans (steady₅ _))
    exact ⟨(steady written.1).1, (steady written.1).2.trans written.2⟩
  obtain ⟨before, rfl, chain⟩ := appending.chain.graft appending.last appending.current.content
    appending.ends (fun p mem other => (others mem other (appending.stable p mem)).2) cursorContent
    (Chain.link more newContent (show Chain _ _ (-1) [] [] from .last))
  have headerStable₅ : Stable w₅ (hf.filePtr, hf.headerPageNo) := by
    have stable₂ := ((Steady.allocPage agree allocated _).trans (steady₂ (Ne.symm newHeader)))
      headerStable
    have written : Stable w₃ (hf.filePtr, hf.headerPageNo) := by
      rw [← counted]
      exact (stable₂.1.setPage_self (pinned₂ header₁) _).1
    exact ((steady₄ (Ne.symm cursorHeader)).trans (steady₅ _) written).1
  have fresh₁ : w₁.fresh = w.fresh := by
    have fresh := allocPage_fresh hf.filePtr w
    rwa [allocated] at fresh
  have header : (hf.header w).pageCnt = pages.length ∧ (hf.header w).recCnt = _ :=
    ⟨appending.pageCnt, appending.recCnt⟩
  simp only [HeapFile.header] at header
  refine ⟨by rw [HeapFile.header, headerBytes], by rw [newBytes]; rfl,
    { agree := released ▸ agree₄.unPinPage _ _ _
      cursor := rfl
      current := pinned₅ (pinned₄ (pinned₃ (pinned₂ newPinned))) newCursor
      header := pinned₅ (pinned₄ (pinned₃ (pinned₂ header₁))) (Ne.symm cursorHeader)
      headerAllocated := headerStable₅.allocated
      chain := by simpa [HeapFile.header, headerBytes] using chain
      last := List.mem_append_right _ (List.mem_singleton_self _)
      ends := by rw [newBytes]; rfl
      numbered := by rw [newBytes]; rfl
      stable := fun p mem => by
        rcases List.mem_append.mp mem with mem | mem
        · by_cases here : p = hf.curPageNo
          · exact here ▸ cursorStable
          · exact (others mem here (appending.stable p mem)).1
        · exact List.mem_singleton.mp mem ▸ newStable
      apart := fun mem => by
        rcases List.mem_append.mp mem with mem | mem
        · exact appending.apart mem
        · exact newHeader (by rw [List.mem_singleton.mp mem])
      lastPage := by simp [HeapFile.header, headerBytes]
      pageCnt := by
        simp only [HeapFile.header, headerBytes, List.length_append, List.length_singleton]
        omega
      recCnt := by simpa [HeapFile.header, headerBytes] using header.2
      numbering := by
        rw [← released, unPinPage_fresh, ← linked, ← counted, ← initialised]
        exact fresh₁ ▸ appending.numbering }⟩

/-- **Reading the cursor page again pins it once more** and keeps the scan where an insert
appends: the page is resident, so `readPage` hands out its frame. -/
theorem readPage (appending : Appending w hf frame pages records) {page : Option Nat} {cur : Nat}
    {w' : World HeapPage} (read : readPage hf.filePtr hf.curPageNo page w = (.ok, some cur, w')) :
    1 < pinsOf w' (hf.filePtr, hf.curPageNo) ∧ w'.bufPool cur = w.bufPool frame ∧
      Appending w' { hf with curPage := some cur } cur pages records := by
  have agree := appending.agree
  have current := appending.current.readPage agree read
  obtain rfl : cur = frame := Option.some.inj ((readPage_ok_indexed agree read).symm.trans current.1)
  have header := appending.header.readPage agree read
  have steady := Steady.readPage agree read
  have headerStable : Stable w (hf.filePtr, hf.headerPageNo) :=
    .inr ⟨appending.header.2, appending.headerAllocated⟩
  have headerBytes := appending.header.bufPool_eq header headerStable (steady _)
  have cursorBytes := appending.current.bufPool_eq current (appending.stable _ appending.last) (steady _)
  have fresh := readPage_fresh hf.filePtr hf.curPageNo page w
  rw [read] at fresh
  refine ⟨by rw [pinsOf_readPage agree read, if_pos ⟨rfl, rfl⟩]; have := appending.current.2; omega,
    cursorBytes,
    { agree := (read ▸ agree.readPage _ _ _ :)
      cursor := rfl
      current := current
      header := header
      headerAllocated := (steady _ headerStable).1.allocated
      chain := by
        rw [HeapFile.header, headerBytes]
        exact appending.chain.of_contents fun p mem => (steady _ (appending.stable p mem)).2
      last := appending.last
      ends := cursorBytes ▸ appending.ends
      numbered := cursorBytes ▸ appending.numbered
      stable := fun p mem => (steady _ (appending.stable p mem)).1
      apart := appending.apart
      lastPage := by rw [HeapFile.header, headerBytes]; exact appending.lastPage
      pageCnt := by rw [HeapFile.header, headerBytes]; exact appending.pageCnt
      recCnt := by rw [HeapFile.header, headerBytes]; exact appending.recCnt
      numbering := fresh ▸ appending.numbering }⟩

/-- Ending the list at the cursor page again changes nothing. -/
theorem endList (appending : Appending w hf frame pages records) :
    Appending (w.setPage frame ((w.bufPool frame).setNextPage (-1))) hf frame pages records := by
  rwa [HeapPage.setNextPage_of_eq appending.ends, setPage_bufPool_self]

/-- **Releasing the cursor page dirty while another pin holds it** keeps the scan where an insert
appends. -/
theorem unPinPage (appending : Appending w hf frame pages records)
    (more : 1 < pinsOf w (hf.filePtr, hf.curPageNo)) :
    Appending (unPinPage hf.filePtr hf.curPageNo true w).2 hf frame pages records := by
  have agree := appending.agree
  have steady := Steady.unPinPage_dirty agree hf.filePtr hf.curPageNo
  have headerStable : Stable w (hf.filePtr, hf.headerPageNo) :=
    .inr ⟨appending.header.2, appending.headerAllocated⟩
  exact
    { agree := agree.unPinPage _ _ _
      cursor := appending.cursor
      current := appending.current.unPinPage agree _ _ _ fun _ => more
      header := appending.header.unPinPage agree _ _ _ fun same => absurd (Prod.mk.inj same).2
        (Ne.symm appending.cursor_ne)
      headerAllocated := (steady _ headerStable).1.allocated
      chain := by
        rw [HeapFile.header, unPinPage_bufPool]
        exact appending.chain.of_contents fun p mem => (steady _ (appending.stable p mem)).2
      last := appending.last
      ends := by rw [unPinPage_bufPool]; exact appending.ends
      numbered := by rw [unPinPage_bufPool]; exact appending.numbered
      stable := fun p mem => (steady _ (appending.stable p mem)).1
      apart := appending.apart
      lastPage := by rw [HeapFile.header, unPinPage_bufPool]; exact appending.lastPage
      pageCnt := by rw [HeapFile.header, unPinPage_bufPool]; exact appending.pageCnt
      recCnt := by rw [HeapFile.header, unPinPage_bufPool]; exact appending.recCnt
      numbering := by rw [unPinPage_fresh]; exact appending.numbering }

end Appending

namespace InsertFileScan

variable {w : World HeapPage} {hf : HeapFile} {frame : Nat} {pages : List Int}
  {records : List (RID × Record)}

/-- **An insert that returns `OK` appends its record to the file's list**, from a scan that
stands where an insert appends: in place on the cursor page, or on a page it allocates and links
after it. The scan still stands where an insert appends, over the same pages or one more; the
file's records become a permutation of the old ones and the new one, exactly the old ones followed
by it when the cursor page has no freed slot (a new page has none); and the cursor page holds the
record under the identifier returned. -/
theorem insertRecord_appends (appending : Appending w hf frame pages records) (layout : Layout)
    (rec : Record) {rid : Option RID} {hf' : HeapFile} {w' : World HeapPage}
    (inserted : insertRecord layout rec hf w = (.ok, rid, hf', w')) :
    ∃ rid' frame' pages' records', rid = some rid' ∧ Appending w' hf' frame' pages' records' ∧
      records'.Perm (records ++ [(rid', rec)]) ∧
      (none ∉ (w.bufPool frame).slots →
        records' = records ++ [(rid', rec)] ∧ none ∉ (w'.bufPool frame').slots) ∧
      (pages' = pages ∨ pages' = pages ++ [hf'.curPageNo]) ∧
      rid'.pageNo = hf'.curPageNo ∧ (w'.bufPool frame').getRecord rid' = .ok rec := by
  unfold insertRecord at inserted
  split_ifs at inserted
  · cases inserted
  have pinned : pinLastPage hf w = .ok (frame, hf, w) := by simp [pinLastPage, appending.cursor]
  rw [pinned] at inserted
  dsimp only at inserted
  split at inserted
  · rename_i rid₀ page placed
    cases inserted
    obtain ⟨records', appending', perm, packed, numbered, got, bytes⟩ := appending.insertInPlace placed
    exact ⟨rid₀, frame, pages, records', rfl, appending', perm, fun free => by
      rw [bytes]; exact packed free, .inl rfl, numbered, by rw [bytes]; exact got⟩
  · unfold insertOnNewPage at inserted
    split at inserted
    · rename_i status w₁ failed
      cases inserted
      exact absurd rfl (allocPage_error_ne appending.agree failed)
    rename_i newPageNo newFrame w₁ allocated
    dsimp only at inserted
    generalize released : (unPinPage hf.filePtr hf.curPageNo true _).2 = w₅ at inserted
    obtain ⟨last, empty, linked⟩ := appending.link allocated rfl rfl rfl released
    rw [last] at inserted
    split at inserted
    · rename_i cur w₆ loaded
      obtain ⟨more, reread, read⟩ := linked.readPage loaded
      split at inserted
      · rename_i rid₀ page placed
        cases inserted
        obtain ⟨records', appending', perm, packed, numbered, got, bytes⟩ := read.insertInPlace placed
        have ended := appending'.endList.unPinPage (by simpa using more)
        have fresh : none ∉ (w₆.bufPool cur).slots := by simp [reread, empty]
        obtain ⟨appended, free⟩ := packed fresh
        refine ⟨rid₀, cur, _, records', rfl, ended, by simpa using perm,
          fun _ => ⟨by simpa using appended, by simpa [bytes] using free⟩, .inr rfl, numbered, ?_⟩
        simpa [bytes] using got
      · rename_i status failed
        cases inserted
        cases HeapPage.insertRecord_error _ failed
    · rename_i status page w₆ unfound loaded
      cases inserted
      exact absurd rfl (readPage_unreported linked.agree loaded fun frame same =>
        unfound frame (Prod.mk.inj same).1 (Prod.mk.inj same).2).1
  · rename_i status _ failed
    cases inserted
    cases HeapPage.insertRecord_error _ failed

end InsertFileScan

/-! ### A session of inserts -/

/-- **The constructor of a file of one data page leaves the scan where an insert appends**: it
pins the header and the data page, which is the cursor page and the last page of the list. -/
theorem HeapFile.construct_appending {w w' : World HeapPage} (agree : Agree w)
    (numbering : ∀ n, w.fresh n ≠ -1) {db : Db} {fileName : String} {hf : HeapFile}
    (opened : HeapFile.construct db fileName w = (.ok, hf, w')) {hdr page : HeapPage}
    (onePage : OnePage w hf.filePtr hf.headerPageNo hdr page) :
    ∃ frame, w'.bufPool frame = page ∧ Appending w' hf frame [hdr.firstPage] page.liveRecords := by
  obtain ⟨w₁, headerRead, firstNo, -, cur, cursor, firstRead⟩ :=
    HeapFileScan.construct_ok agree opened
  have agree₁ : Agree w₁ := (headerRead ▸ agree.readPage _ _ _ :)
  have headerBytes₁ : w₁.bufPool hf.headerPage = hdr :=
    Option.some.inj ((readPage_ok_holds agree headerRead).1.trans onePage.header.content)
  rw [headerBytes₁] at firstNo
  have header₁ := readPage_ok_pinnedAt agree headerRead
  have steady₁ := Steady.readPage agree headerRead
  have steady₂ := Steady.readPage agree₁ firstRead
  have headerStable₁ : Stable w₁ (hf.filePtr, hf.headerPageNo) :=
    (steady₁ _ (.inl ⟨_, onePage.header⟩)).1
  have header := header₁.readPage agree₁ firstRead
  have headerBytes := header₁.bufPool_eq header headerStable₁ (steady₂ _)
  rw [firstNo] at firstRead
  obtain ⟨firstStable, firstContent⟩ :=
    ((steady₁ (hf.filePtr, hdr.firstPage)).trans (steady₂ _)) (.inl ⟨_, onePage.first⟩)
  have cursorBytes : w'.bufPool cur = page := Option.some.inj
    ((readPage_ok_holds agree₁ firstRead).1.trans
      (((steady₁ _ (.inl ⟨_, onePage.first⟩)).2).trans onePage.first.content))
  have fresh : w'.fresh = w.fresh := by
    have first := readPage_fresh hf.filePtr hdr.firstPage (some hf.headerPage) w₁
    have second := readPage_fresh hf.filePtr hf.headerPageNo none w
    rw [firstRead] at first
    rw [headerRead] at second
    exact first.trans second
  refine ⟨cur, cursorBytes,
    { agree := (firstRead ▸ agree₁.readPage _ _ _ :)
      cursor := cursor
      current := firstNo ▸ readPage_ok_pinnedAt agree₁ firstRead
      header := header
      headerAllocated := ((steady₂ _ headerStable₁).1).allocated
      chain := by
        rw [HeapFile.header, headerBytes, headerBytes₁]
        simpa using Chain.link onePage.more (firstContent.trans onePage.first.content)
          (show Chain w' hf.filePtr page.nextPage [] [] from onePage.ends ▸ .last)
      last := by rw [firstNo]; exact List.mem_singleton_self _
      ends := by rw [cursorBytes]; exact onePage.ends
      numbered := by rw [cursorBytes, firstNo]; exact onePage.numbered
      stable := fun p mem => List.mem_singleton.mp mem ▸ firstStable
      apart := fun mem => onePage.apart (List.mem_singleton.mp mem)
      lastPage := by rw [HeapFile.header, headerBytes, headerBytes₁, firstNo]; exact onePage.lastPage
      pageCnt := by rw [HeapFile.header, headerBytes, headerBytes₁]; exact onePage.pageCnt
      recCnt := by rw [HeapFile.header, headerBytes, headerBytes₁]; exact onePage.recCnt
      numbering := fresh ▸ numbering }⟩

/-- **An inserted record reads back**: after an insert that returns `OK` with identifier `rid`,
`getRecord(rid)` of the same object returns the record off the cursor page, calling neither the
buffer manager nor the store. -/
theorem InsertFileScan.insertRecord_getRecord {w : World HeapPage} {hf : HeapFile} {frame : Nat}
    {pages : List Int} {records : List (RID × Record)}
    (appending : Appending w hf frame pages records) (layout : Layout)
    (rec : Record) {rid : Option RID} {hf' : HeapFile} {w' : World HeapPage}
    (inserted : InsertFileScan.insertRecord layout rec hf w = (.ok, rid, hf', w')) :
    ∃ rid', rid = some rid' ∧
      hf'.getRecord rid' w' = (.ok, some rec, { hf' with curRec := rid' }, w') := by
  obtain ⟨rid', frame', _, _, rfl, appending', -, -, -, pageNo, got⟩ :=
    InsertFileScan.insertRecord_appends appending layout rec inserted
  refine ⟨rid', rfl, ?_⟩
  rw [HeapFile.getRecord, appending'.cursor]
  simp [pageNo, got]

/-- The file `heap` once created, opened for inserts. -/
def openedHeap : Status × HeapFile × World HeapPage :=
  HeapFile.construct (created fun _ => false).2.1 "heap" (created fun _ => false).2.2

/-- The scan `openedHeap` after the insert of one record. -/
def insertedHeap : Status × Option RID × HeapFile × World HeapPage :=
  InsertFileScan.insertRecord onePerPage (record4 1) openedHeap.2.1 openedHeap.2.2

/-- The record inserted into the new file `heap` reads back. -/
theorem insertedHeap_readBack :
    ∃ rid, insertedHeap.2.1 = some rid ∧ insertedHeap.2.2.1.getRecord rid insertedHeap.2.2.2 =
      (.ok, some (record4 1), { insertedHeap.2.2.1 with curRec := rid }, insertedHeap.2.2.2) := by
  obtain ⟨_, _, appending⟩ := HeapFile.construct_appending created_agree created_numbering
    (show openedHeap = (.ok, openedHeap.2.1, openedHeap.2.2) from rfl) created_onePage
  exact InsertFileScan.insertRecord_getRecord appending onePerPage (record4 1)
    (show InsertFileScan.insertRecord _ _ _ _ =
      (.ok, insertedHeap.2.1, insertedHeap.2.2.1, insertedHeap.2.2.2) from rfl)

/-- **Inserts that all return `OK` append their records to the file's list**, from a scan that
stands where an insert appends: the scan still does, over the same pages and maybe more after
them; the file's records become a permutation of the old ones followed by the inserted ones, each
with an identifier, and exactly those when the cursor page has no freed slot. -/
theorem insertAll_appends (layout : Layout) (recs : List Record) :
    ∀ {w : World HeapPage} {hf : HeapFile} {frame : Nat} {pages : List Int}
      {records : List (RID × Record)}, Appending w hf frame pages records →
      (∀ status ∈ (insertAll layout recs hf w).1, status = .ok) →
      ∃ frame' pages' records' added,
        Appending (insertAll layout recs hf w).2.2 (insertAll layout recs hf w).2.1 frame' pages'
          records' ∧ (∃ more, pages' = pages ++ more) ∧ added.map Prod.snd = recs ∧
        records'.Perm (records ++ added) ∧
        (none ∉ (w.bufPool frame).slots → records' = records ++ added ∧
          none ∉ ((insertAll layout recs hf w).2.2.bufPool frame').slots) := by
  induction recs with
  | nil =>
    intro w hf frame pages records appending _
    exact ⟨frame, pages, records, [], appending, ⟨[], by simp⟩, rfl, by simp, fun packed =>
      ⟨by simp, packed⟩⟩
  | cons rec recs ih =>
    intro w hf frame pages records appending inserted
    simp only [insertAll, List.mem_cons, forall_eq_or_imp] at inserted ⊢
    generalize placed : InsertFileScan.insertRecord layout rec hf w = result at inserted ⊢
    obtain ⟨status, rid, hf₁, w₁⟩ := result
    dsimp only at inserted ⊢
    obtain ⟨rfl, rest⟩ := inserted
    obtain ⟨rid', frame₁, pages₁, records₁, rfl, appending₁, perm₁, packed₁, grown, -, -⟩ :=
      InsertFileScan.insertRecord_appends appending layout rec placed
    obtain ⟨frame', pages', records', added, appending', ⟨more, rfl⟩, named, perm, packed⟩ :=
      ih appending₁ rest
    refine ⟨frame', _, records', (rid', rec) :: added, appending', ?_, by simp [named],
      perm.trans (by simpa using perm₁.append_right added), fun free => ?_⟩
    · rcases grown with rfl | rfl
      · exact ⟨more, rfl⟩
      · exact ⟨_ :: more, List.append_assoc _ _ _⟩
    · obtain ⟨appended₁, free₁⟩ := packed₁ free
      obtain ⟨appended, free'⟩ := packed free₁
      exact ⟨by simp [appended, appended₁], free'⟩

/-- A list starts at its first page. -/
theorem Chain.head_eq {w : World HeapPage} {file : Option FileId} {start pageNo : Int}
    {pages : List Int} {records : List (RID × Record)}
    (chain : Chain w file start (pageNo :: pages) records) : start = pageNo := by
  cases chain
  rfl

/-- The inserts of a client move only the scan's cursor. -/
theorem insertAll_sameHeader (layout : Layout) (recs : List Record) :
    ∀ (hf : HeapFile) (w : World HeapPage), SameHeader hf (insertAll layout recs hf w).2.1 := by
  induction recs with
  | nil => exact fun _ _ => ⟨rfl, rfl, rfl, rfl⟩
  | cons rec recs ih =>
    intro hf w
    have first := InsertFileScan.insertRecord_sameHeader layout rec hf w
    simp only [insertAll]
    generalize InsertFileScan.insertRecord layout rec hf w = result at first ⊢
    obtain ⟨status, rid, hf₁, w₁⟩ := result
    exact first.trans (ih hf₁ w₁)

/-- The constructor opens the file the catalog names and takes its first page as the header. -/
theorem HeapFile.construct_named {w w' : World HeapPage} (agree : Agree w) {db : Db}
    {fileName : String} {file : Option FileId} {headerNo : Int}
    (opened : db.openFile fileName = .ok file) (first : File.getFirstPage file w = .ok headerNo)
    {hf : HeapFile} (constructed : HeapFile.construct db fileName w = (.ok, hf, w')) :
    hf.filePtr = file ∧ hf.headerPageNo = headerNo := by
  unfold HeapFile.construct at constructed
  simp only [opened, first] at constructed
  split at constructed
  · split at constructed <;> cases constructed <;> exact ⟨rfl, rfl⟩
  · rename_i status page w₁ unfound header
    cases constructed
    obtain ⟨frame, handed⟩ := readPage_ok_frame agree (by rw [header])
    rw [header] at handed
    exact (unfound frame rfl handed).elim

/-- The destructor of an insert scan with a cursor page releases it dirty, then the header with
the object's header flag. -/
theorem Appending.destruct_eq {w : World HeapPage} {hf : HeapFile} {frame : Nat}
    {pages : List Int} {records : List (RID × Record)}
    (appending : Appending w hf frame pages records) :
    InsertFileScan.destruct hf w = (BufMgr.unPinPage hf.filePtr hf.headerPageNo hf.hdrDirtyFlag
      (BufMgr.unPinPage hf.filePtr hf.curPageNo true w).2).2 := by
  simp [InsertFileScan.destruct, appending.cursor, HeapFile.destruct]

/-- The destructor of an appending insert scan is steady for every page of the list: it releases
the cursor page dirty, and the header, which is not a page of the list. -/
theorem Appending.destruct_steady {w : World HeapPage} {hf : HeapFile} {frame : Nat}
    {pages : List Int} {records : List (RID × Record)}
    (appending : Appending w hf frame pages records) {p : Int} (mem : p ∈ pages) :
    Steady w (InsertFileScan.destruct hf w) (hf.filePtr, p) := by
  rw [appending.destruct_eq]
  exact (Steady.unPinPage_dirty appending.agree _ _ _).trans
    (Steady.unPinPage_other (appending.agree.unPinPage _ _ _)
      (fun same => appending.apart (by rw [← (Prod.mk.inj same).2]; exact mem)) _)

/-- A session up to its destructor: on a file of one data page, the constructor and inserts that
all return `OK` leave the object appending to the list from the data page, with the page's records
(in some order) and then the inserted ones. -/
theorem insertSession_run {w : World HeapPage} (agree : Agree w)
    (numbering : ∀ n, w.fresh n ≠ -1) (layout : Layout) {db : Db} {fileName : String}
    {file : Option FileId} {headerNo : Int} (opened : db.openFile fileName = .ok file)
    (first : File.getFirstPage file w = .ok headerNo) {hdr page : HeapPage}
    (onePage : OnePage w file headerNo hdr page) (recs : List Record)
    (started : (insertSession layout db fileName recs w).1 = .ok)
    (inserted : ∀ status ∈ (insertSession layout db fileName recs w).2.1, status = .ok) :
    ∃ hf w₂ frame more records added,
      (insertSession layout db fileName recs w).2.2 = InsertFileScan.destruct hf w₂ ∧
      hf.filePtr = file ∧ Appending w₂ hf frame (hdr.firstPage :: more) records ∧
      Chain w₂ file hdr.firstPage (hdr.firstPage :: more) records ∧ added.map Prod.snd = recs ∧ records.Perm (page.liveRecords ++ added) ∧
      (none ∉ page.slots → records = page.liveRecords ++ added) := by
  unfold insertSession at started inserted ⊢
  generalize constructed : HeapFile.construct db fileName w = result at started inserted ⊢
  obtain ⟨status, hf, w₁⟩ := result
  dsimp only at started inserted ⊢
  subst started
  obtain ⟨rfl, rfl⟩ := HeapFile.construct_named agree opened first constructed
  obtain ⟨frame, bytes, appending⟩ :=
    HeapFile.construct_appending agree numbering constructed onePage
  have same := insertAll_sameHeader layout recs hf w₁
  obtain ⟨frame', pages', records', added, appending', ⟨more, rfl⟩, named, perm, packed⟩ :=
    insertAll_appends layout recs appending inserted
  generalize insertAll layout recs hf w₁ = run at appending' packed same ⊢
  obtain ⟨statuses, hf₂, w₂⟩ := run
  dsimp only at appending' packed same ⊢
  have chain := appending'.chain
  rw [chain.head_eq, same.filePtr] at chain
  exact ⟨hf₂, w₂, frame', more, records', added, rfl, same.filePtr, appending',
    chain, named, by simpa using perm, fun free => (packed (bytes ▸ free)).1⟩

/-- **An `InsertFileScan` session on a file of one data page, whose inserts all return `OK`,
appends the inserted records to the file's list**: after the destructor, the list from the data
page passes it and the pages the inserts linked after it, and holds a permutation of the page's
records followed by the inserted ones, each with an identifier; exactly those when the page had no
freed slot, as a new file's page has none. Every page of the list is stable: it holds its bytes
for its readers (`Cell.Holds`: a clean frame agrees with the store, a dirty one is written back
before it is evicted), unless another client still holds it pinned. -/
theorem insertSession_appends {w : World HeapPage} (agree : Agree w)
    (numbering : ∀ n, w.fresh n ≠ -1) (layout : Layout) {db : Db} {fileName : String}
    {file : Option FileId} {headerNo : Int} (opened : db.openFile fileName = .ok file)
    (first : File.getFirstPage file w = .ok headerNo) {hdr page : HeapPage}
    (onePage : OnePage w file headerNo hdr page) (recs : List Record)
    (started : (insertSession layout db fileName recs w).1 = .ok)
    (inserted : ∀ status ∈ (insertSession layout db fileName recs w).2.1, status = .ok) :
    ∃ more records added,
      Chain (insertSession layout db fileName recs w).2.2 file hdr.firstPage (hdr.firstPage :: more)
        records ∧ added.map Prod.snd = recs ∧ records.Perm (page.liveRecords ++ added) ∧
      (none ∉ page.slots → records = page.liveRecords ++ added) ∧
      ∀ p ∈ hdr.firstPage :: more, Stable (insertSession layout db fileName recs w).2.2 (file, p) := by
  obtain ⟨hf, w₂, frame, more, records, added, session, rfl, appending, chain, named, perm,
    packed⟩ := insertSession_run agree numbering layout opened first onePage recs started inserted
  have steady {p : Int} (mem : p ∈ hdr.firstPage :: more) :=
    appending.destruct_steady mem (appending.stable p mem)
  rw [session]
  exact ⟨more, records, added, chain.of_contents fun p mem => (steady mem).2, named, perm, packed,
    fun p mem => (steady mem).1⟩

/-- Two records inserted into the new file `heap` in one session, one on each page. -/
theorem createdHeap_insertSession :
    ∃ more records added,
      Chain (insertSession onePerPage (created fun _ => false).2.1 "heap" [record4 1, record4 2]
          (created fun _ => false).2.2).2.2 (some 0) createdHeader.firstPage
        (createdHeader.firstPage :: more) records ∧
      added.map Prod.snd = [record4 1, record4 2] ∧
      records.Perm (createdPage.liveRecords ++ added) ∧
      (none ∉ createdPage.slots → records = createdPage.liveRecords ++ added) ∧
      ∀ p ∈ createdHeader.firstPage :: more,
        Stable (insertSession onePerPage (created fun _ => false).2.1 "heap" [record4 1, record4 2]
          (created fun _ => false).2.2).2.2 (some 0, p) :=
  insertSession_appends created_agree created_numbering onePerPage (by rfl) (by rfl)
    created_onePage _ (by rfl) (by decide)

/-! ### The session's list in the store -/

/-- **After an `InsertFileScan` session on a file of one data page whose inserts all return `OK`,
a `flushFile` of the file that returns `OK` leaves the whole list in the store**: a buffer manager
started afresh over the store reads, from the data page, the list with the page's records (in
some order) and then the inserted ones. The session released every page of the list dirty, or
left it as the store holds it. -/
theorem insertSession_flushFile {w : World HeapPage} (agree : Agree w)
    (numbering : ∀ n, w.fresh n ≠ -1) (layout : Layout) {db : Db} {fileName : String}
    {file : Option FileId} {headerNo : Int} (opened : db.openFile fileName = .ok file)
    (first : File.getFirstPage file w = .ok headerNo) {hdr page : HeapPage}
    (onePage : OnePage w file headerNo hdr page) (recs : List Record)
    (started : (insertSession layout db fileName recs w).1 = .ok)
    (inserted : ∀ status ∈ (insertSession layout db fileName recs w).2.1, status = .ok)
    {w' : World HeapPage}
    (flushed : flushFile file (insertSession layout db fileName recs w).2.2 = (.ok, w'))
    (bufs : Nat) (fault : Nat → Bool) (fresh : Nat → Int) :
    ∃ more records added,
      Chain (World.init bufs w'.disk fault fresh) file hdr.firstPage (hdr.firstPage :: more)
        records ∧ added.map Prod.snd = recs ∧ records.Perm (page.liveRecords ++ added) ∧
      (none ∉ page.slots → records = page.liveRecords ++ added) := by
  obtain ⟨hf, w₂, frame, more, records, added, session, rfl, appending, chain, named, perm,
    packed⟩ := insertSession_run agree numbering layout opened first onePage recs started inserted
  rw [session, appending.destruct_eq] at flushed
  have agree₃ := (appending.agree.unPinPage hf.filePtr hf.curPageNo true).unPinPage hf.filePtr
    hf.headerPageNo hf.hdrDirtyFlag
  refine ⟨more, records, added, chain.of_contents fun p mem => ?_, named, perm, packed⟩
  obtain ⟨stable₃, same⟩ := appending.destruct_steady mem (appending.stable p mem)
  rw [appending.destruct_eq] at stable₃ same
  obtain ⟨bytes, content, stored⟩ := stable₃.flushFile_stored agree₃ flushed
  exact stored.trans (content.symm.trans same)

/-- The two records inserted into the new file `heap` in one session are in the store once the
file is flushed. -/
theorem createdHeap_flushFile :
    ∃ more records added,
      Chain (World.init 4 (flushFile (some 0) (insertSession onePerPage
          (created fun _ => false).2.1 "heap" [record4 1, record4 2]
          (created fun _ => false).2.2).2.2).2.disk (fun _ => false) fun _ => 0)
        (some 0) createdHeader.firstPage (createdHeader.firstPage :: more) records ∧
      added.map Prod.snd = [record4 1, record4 2] ∧
      records.Perm (createdPage.liveRecords ++ added) ∧
      (none ∉ createdPage.slots → records = createdPage.liveRecords ++ added) :=
  insertSession_flushFile created_agree created_numbering onePerPage
    (show (created fun _ => false).2.1.openFile "heap" = .ok (some 0) from rfl) (by rfl)
    created_onePage _ (by rfl) (by decide) (by rfl) 4 _ _

end Minirel
