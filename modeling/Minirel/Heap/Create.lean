/-
**`createHeapFile` makes a heap file of one empty data page.**

`OnePage w file headerNo hdr page` is the file a heap file's constructor opens when the list has
one page: the header page `headerNo` holds `hdr`, which names the data page as the first and the
last page of the list and counts one page and that page's records; the data page holds `page`,
numbered by itself, the end of the list. Both pages hold their bytes for their readers
(`Cell.Holds`): a reader gets them, a clean frame agrees with the store, and a dirty one is
written back before it is evicted, so that no eviction changes what a reader gets. The store
itself need not have them: `createHeapFile` ignores the status of its `flushFile`.

* `Db.createFile_openFile` — the catalog opens a name it has just created to the new file.
* `createHeapFile_onePage` — **a `createHeapFile` that returns `OK` leaves such a file, its data
  page without a slot**: the catalog opens the name to it, and the store names its header page as
  the file's first page, the page `HeapFile::HeapFile` reads as the header.
-/

import Minirel.Buffer.Stable
import Minirel.Heap.Chain

namespace Minirel

open World BufMgr

/-- A heap file of one data page, whose two pages hold their bytes for their readers: its header page
`headerNo` holds `hdr`, which names the data page `hdr.firstPage` as the first and the last page
and counts one page and that page's records; the data page holds `page`, numbered by itself, the
end of the list. -/
structure OnePage (w : World HeapPage) (file : Option FileId) (headerNo : Int)
    (hdr page : HeapPage) : Prop where
  header : Cell.Holds hdr (cellOf w (file, headerNo))
  first : Cell.Holds page (cellOf w (file, hdr.firstPage))
  apart : headerNo ≠ hdr.firstPage
  more : hdr.firstPage ≠ -1
  ends : page.nextPage = -1
  numbered : page.curPage = hdr.firstPage
  lastPage : hdr.lastPage = hdr.firstPage
  pageCnt : hdr.pageCnt = 1
  recCnt : hdr.recCnt = page.liveRecords.length

/-- The catalog opens a name it has just created to the file it created. -/
theorem Db.createFile_openFile {db db' : Db} {fileName : String}
    (created : db.createFile fileName = .ok db') :
    db'.openFile fileName = .ok (some (db.fresh fileName)) := by
  unfold Db.createFile at created
  split at created
  · cases created
  · cases created
    simp [Db.openFile]

/-- A name the catalog does not open is one it creates. -/
theorem Db.createFile_of_openFile {db : Db} {fileName : String} {status : Status}
    (unopened : db.openFile fileName = .error status) :
    ∃ db', db.createFile fileName = .ok db' := by
  unfold Db.openFile at unopened
  unfold Db.createFile
  split at unopened
  · cases unopened
  · rename_i absent
    simp [absent]

/-- `createHeapFile` keeps frames and index in agreement. -/
theorem Agree.createHeapFile {w : World HeapPage} (agree : Agree w) (db : Db) (fileName : String) :
    Agree (createHeapFile db fileName w).2.2 := by
  unfold Minirel.createHeapFile
  split
  · exact agree
  split
  · exact agree
  split
  · exact agree
  rename_i file _
  generalize allocHdr : BufMgr.allocPage file w = first
  have agree₁ : Agree first.2 := allocHdr ▸ agree.allocPage file
  obtain ⟨_ | ⟨hdrNo, hdrFrame⟩, w₁⟩ := first
  · exact agree₁
  dsimp only
  generalize allocNew : BufMgr.allocPage file w₁ = second
  have agree₂ : Agree second.2 := allocNew ▸ agree₁.allocPage file
  obtain ⟨_ | ⟨newNo, newFrame⟩, w₂⟩ := second
  · exact agree₂
  exact ((((agree₂.setPage _ _).setHeader _ _ _ _ _).unPinPage _ _ _).unPinPage _ _ _).flushFile _

/-- Two pinned, stable pages of a file, released dirty one after the other, each hold the bytes of
their frames. -/
theorem releaseBoth_holds {w : World HeapPage} (agree : Agree w) {file : Option FileId}
    {pageNo pageNo' : Int} {i i' : Nat} (keys : (file, pageNo') ≠ (file, pageNo))
    (pinned : PinnedAt w (file, pageNo) i) (stable : Stable w (file, pageNo))
    (pinned' : PinnedAt w (file, pageNo') i') (stable' : Stable w (file, pageNo')) :
    Cell.Holds (w.bufPool i)
        (cellOf (unPinPage file pageNo' true (unPinPage file pageNo true w).2).2 (file, pageNo)) ∧
      Cell.Holds (w.bufPool i')
        (cellOf (unPinPage file pageNo' true (unPinPage file pageNo true w).2).2 (file, pageNo')) := by
  have steady := Steady.unPinPage_other agree keys true stable'
  have pinned₁ := pinned'.unPinPage agree file pageNo true fun same => absurd same keys
  have same : (unPinPage file pageNo true w).2.bufPool i' = w.bufPool i' :=
    Option.some.inj (pinned₁.content.symm.trans (steady.2.trans pinned'.content))
  exact ⟨unPinPage_holds (agree.unPinPage file pageNo true) file pageNo' true
    (pinned.holds_unPinPage stable), same ▸ pinned₁.holds_unPinPage steady.1⟩

/-- **A `createHeapFile` that returns `OK` leaves a heap file of one data page without a slot**,
under the name the catalog now opens, whose header page the store names as the file's first page:
the header names the data page as the first and the last page, one page and no record. A store
that held no first page for the new file and never offers `-1` as a page number is all it asks. -/
theorem createHeapFile_onePage {w w' : World HeapPage} (agree : Agree w)
    (numbering : ∀ n, w.fresh n ≠ -1) {db db' : Db} {fileName : String}
    (unused : w.disk.firstPage (db.fresh fileName) = none)
    (created : createHeapFile db fileName w = (.ok, db', w')) :
    db'.openFile fileName = .ok (some (db.fresh fileName)) ∧
      ∃ headerNo hdr page, File.getFirstPage (some (db.fresh fileName)) w' = .ok headerNo ∧
        OnePage w' (some (db.fresh fileName)) headerNo hdr page ∧ page.slots = [] := by
  unfold createHeapFile at created
  split at created
  · cases created
  rename_i status unopened
  obtain ⟨db₁, made⟩ := Db.createFile_of_openFile unopened
  have reopened := Db.createFile_openFile made
  simp only [made, reopened] at created
  generalize allocHdr : allocPage (some (db.fresh fileName)) w = first at created
  obtain ⟨_ | ⟨hdrNo, hdrFrame⟩, w₁⟩ := first <;> dsimp only at created
  · cases created
    exact absurd rfl (allocPage_error_ne agree allocHdr)
  have agree₁ : Agree w₁ := (allocHdr ▸ agree.allocPage _ :)
  generalize allocNew : allocPage (some (db.fresh fileName)) w₁ = second at created
  obtain ⟨_ | ⟨newNo, newFrame⟩, w₂⟩ := second <;> dsimp only at created
  · cases created
    exact absurd rfl (allocPage_error_ne agree₁ allocNew)
  generalize initialised :
    w₂.setPage newFrame (((w₂.bufPool newFrame).init newNo).setNextPage (-1)) = w₃ at created
  generalize counted : setHeader w₃ hdrFrame newNo newNo 1 0 = w₄ at created
  generalize releasedHdr : (unPinPage (some (db.fresh fileName)) hdrNo true w₄).2 = w₅ at created
  generalize releasedNew : (unPinPage (some (db.fresh fileName)) newNo true w₅).2 = w₆ at created
  cases created
  refine ⟨reopened, ?_⟩
  generalize db.fresh fileName = id at unused allocHdr allocNew releasedHdr releasedNew ⊢
  -- the two pages the store allocates
  obtain ⟨-, hdrCreated, -⟩ := allocPage_ok_fresh agree allocHdr
  obtain ⟨newAbsent, newCreated, -⟩ := allocPage_ok_fresh agree₁ allocNew
  have apart : hdrNo ≠ newNo := fun same => by
    rw [same, newAbsent] at hdrCreated
    cases hdrCreated
  have keys : (some id, newNo) ≠ (some id, hdrNo) := fun same => apart (Prod.mk.inj same).2.symm
  have fresh₁ : w₁.fresh = w.fresh := by rw [← allocPage_fresh (some id) w, allocHdr]
  have more : newNo ≠ -1 := by
    rw [allocPage_ok_offered allocNew, fresh₁]
    exact numbering _
  have firstPage : w₆.disk.firstPage id = some hdrNo := by
    rw [← releasedNew, unPinPage_disk, ← releasedHdr, unPinPage_disk, ← counted,
      ← initialised]
    show w₂.disk.firstPage id = some hdrNo
    rw [allocPage_ok_firstPage allocNew, allocPage_ok_firstPage allocHdr, unused]
    rfl
  -- the worlds between the calls agree
  have agree₂ : Agree w₂ := (allocNew ▸ agree₁.allocPage _ :)
  have agree₃ : Agree w₃ := initialised ▸ agree₂.setPage _ _
  have agree₄ : Agree w₄ := counted ▸ agree₃.setHeader _ _ _ _ _
  have agree₅ : Agree w₅ := releasedHdr ▸ agree₄.unPinPage _ _ _
  have agree₆ : Agree w₆ := releasedNew ▸ agree₅.unPinPage _ _ _
  -- both pages pinned and stable once allocated
  have hdrPinned₁ := allocPage_ok_pinnedAt agree allocHdr
  have hdrPinned₂ := hdrPinned₁.allocPage agree₁ allocNew
  have newPinned₂ := allocPage_ok_pinnedAt agree₁ allocNew
  have hdrStable₂ : Stable w₂ (some id, hdrNo) :=
    (Steady.allocPage agree₁ allocNew _ (.inr ⟨hdrPinned₁.2, hdrCreated⟩)).1
  -- the data page written, then the header
  have hdrPinned₃ : PinnedAt w₃ (some id, hdrNo) hdrFrame := initialised ▸ hdrPinned₂.setPage _ _
  have newPinned₃ : PinnedAt w₃ (some id, newNo) newFrame := initialised ▸ newPinned₂.setPage _ _
  have hdrStable₃ : Stable w₃ (some id, hdrNo) :=
    initialised ▸ (Steady.setPage_pinned agree₂ newPinned₂ (Ne.symm keys) _ hdrStable₂).1
  have newWritten₃ : Stable w₃ (some id, newNo) ∧ (cellOf w₃ (some id, newNo)).content =
      some (((w₂.bufPool newFrame).init newNo).setNextPage (-1)) :=
    initialised ▸ Stable.setPage_self (.inr ⟨newPinned₂.2, newCreated⟩) newPinned₂ _
  have hdrWritten₄ : Stable w₄ (some id, hdrNo) ∧ (cellOf w₄ (some id, hdrNo)).content =
      some { w₃.bufPool hdrFrame with firstPage := newNo, lastPage := newNo, pageCnt := 1,
                                      recCnt := 0 } :=
    counted ▸ hdrStable₃.setPage_self hdrPinned₃ _
  have newWritten₄ : Stable w₄ (some id, newNo) ∧
      (cellOf w₄ (some id, newNo)).content = (cellOf w₃ (some id, newNo)).content :=
    counted ▸ Steady.setPage_pinned agree₃ hdrPinned₃ keys _ newWritten₃.1
  have hdrPinned₄ : PinnedAt w₄ (some id, hdrNo) hdrFrame := counted ▸ hdrPinned₃.setPage _ _
  have newPinned₄ : PinnedAt w₄ (some id, newNo) newFrame := counted ▸ newPinned₃.setPage _ _
  -- each page released dirty holds what was written into it
  obtain ⟨hdrHolds, newHolds⟩ :=
    releaseBoth_holds agree₄ keys hdrPinned₄ hdrWritten₄.1 newPinned₄ newWritten₄.1
  rw [releasedHdr, releasedNew, Option.some.inj (hdrPinned₄.content.symm.trans hdrWritten₄.2)]
    at hdrHolds
  rw [releasedHdr, releasedNew, Option.some.inj (newPinned₄.content.symm.trans
    (newWritten₄.2.trans newWritten₃.2))] at newHolds
  exact ⟨hdrNo, _, _, by simp [File.getFirstPage, firstPage],
    ⟨flushFile_holds agree₆ _ hdrHolds, flushFile_holds agree₆ _ newHolds, apart, more, rfl, rfl,
      rfl, rfl, rfl⟩, rfl⟩

/-- The file `heap` created over an empty store is a file of one empty data page. -/
theorem createdHeap_onePage :
    (created fun _ => false).2.1.openFile "heap" = .ok (some 0) ∧
      ∃ headerNo hdr page, File.getFirstPage (some 0) (created fun _ => false).2.2 = .ok headerNo ∧
        OnePage (created fun _ => false).2.2 (some 0) headerNo hdr page ∧ page.slots = [] :=
  createHeapFile_onePage (Agree.init _ _ _ _) (fun n => by show (n : Int) ≠ -1; omega) (by rfl)
    (show createHeapFile ⟨fun _ => none, fun _ => 0⟩ "heap"
      (World.init 4 ⟨fun _ _ => none, fun _ => none⟩ (fun _ => false) fun n => n) = (.ok, _, _) from rfl)

/-- The header of the file `heap` once created: its data page is page `2`. -/
def createdHeader : HeapPage :=
  { (default : HeapPage) with firstPage := 2, lastPage := 2, pageCnt := 1, recCnt := 0 }

/-- The data page of the file `heap` once created. -/
def createdPage : HeapPage := ((default : HeapPage).init 2).setNextPage (-1)

theorem created_agree : Agree (created fun _ => false).2.2 :=
  Agree.createHeapFile (Agree.init _ _ _ _) _ _

theorem created_numbering (n : Nat) : (created fun _ => false).2.2.fresh n ≠ -1 := by
  show (n : Int) ≠ -1
  omega

/-- The file `heap` once created, read off the world: header page `0`, data page `2`. -/
theorem created_onePage :
    OnePage (created fun _ => false).2.2 (some 0) 0 createdHeader createdPage :=
  ⟨⟨rfl, rfl, fun _ cached => by cases cached⟩, ⟨rfl, rfl, fun _ cached => by cases cached⟩,
    by decide, by decide, rfl, rfl, rfl, rfl, rfl⟩

end Minirel
