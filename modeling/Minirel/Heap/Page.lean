/-
**The pages of a heap file: records, record identifiers, and the page layer.**

`heapfile.C` reads a page's bytes through two casts: a header page as a `FileHdrPage`
(`firstPage`, `lastPage`, `pageCnt`, `recCnt`) and a data page as Minirel's slotted `Page`, whose
methods (`init`, `insertRecord`, `deleteRecord`, `getRecord`, `firstRecord`, `nextRecord`,
`getNextPage`, `setNextPage`) live in `page.C`, which is not among the sources. `HeapPage` holds
both views; the page layer is modelled from the spec: record identifiers stay stable until
their record is deleted, an insert fails with `NOSPACE` when the page has no room, and a page
links to the next data page, `-1` ending the list.

* `HeapPage.insertRecord`, `HeapPage.deleteRecord`, `HeapPage.getRecord` — the slot directory:
  an insert fills the first freed slot or appends one, a delete frees a live slot.
* `HeapPage.firstRecord`, `HeapPage.nextRecord` — the live slots in order, for the scans.
* `HeapPage.liveRecords` — the records a data page holds, each with its identifier.
-/

import Minirel.Buffer.Basic
import Mathlib.Data.List.Basic

namespace Minirel

/-- A record: `length` bytes at `data`. -/
structure Record where
  data : List UInt8
  length : Int
  deriving DecidableEq, Repr

/-- A record identifier: the page and the slot of the record. -/
structure RID where
  pageNo : Int
  slotNo : Int
  deriving DecidableEq, Repr

/-- Modelled from the spec: the identifier of no record. -/
def NULLRID : RID := ⟨-1, -1⟩

/-- Modelled from the spec: the sizes that `page.h` fixes (`PAGESIZE`, the fixed part `DPFIXED`
of a data page, which holds one slot, and the size of a slot). The sources name the first two
and show no values, so the model holds for every layout. -/
structure Layout where
  pageSize : Nat
  dpFixed : Nat
  slotSize : Nat
  deriving DecidableEq, Repr

/-- The bytes of a page, through the header view and the data-page view. A zeroed page is
`default`. The header's `fileName` is left out: only the destructor's trace reads it. -/
structure HeapPage where
  firstPage : Int
  lastPage : Int
  pageCnt : Int
  recCnt : Int
  /-- the page number `init` recorded, from which the page makes its records' identifiers -/
  curPage : Int
  /-- the slot directory: a live slot holds its record, a freed one `none` -/
  slots : List (Option Record)
  nextPage : Int
  deriving DecidableEq, Repr, Inhabited

namespace HeapPage

variable (layout : Layout)

/-- Modelled from the spec: `init(pageNo)`, an empty data page at the end of the list. -/
def init (page : HeapPage) (pageNo : Int) : HeapPage :=
  { page with curPage := pageNo, slots := [], nextPage := -1 }

/-- The bytes the records of a page occupy. -/
def recordBytes : List (Option Record) → Int
  | [] => 0
  | none :: slots => recordBytes slots
  | some rec :: slots => rec.length + recordBytes slots

/-- Modelled from the spec: the free bytes of a data page. An empty page has room for one slot
and `PAGESIZE - DPFIXED` bytes of record, as the fixed part counts one slot. -/
def freeSpace (page : HeapPage) : Int :=
  layout.pageSize - layout.dpFixed + layout.slotSize - page.slots.length * layout.slotSize -
    recordBytes page.slots

/-- Modelled from the spec: `insertRecord(rec, rid)`. `NOSPACE` unless the record and a slot
fit; the record goes into the first freed slot, or a new one. -/
def insertRecord (rec : Record) (page : HeapPage) : Except Status (RID × HeapPage) :=
  if freeSpace layout page < rec.length + layout.slotSize then .error .noSpace
  else
    match page.slots.findIdx? Option.isNone with
    | some slot => .ok (⟨page.curPage, slot⟩, { page with slots := page.slots.set slot (some rec) })
    | none => .ok (⟨page.curPage, page.slots.length⟩, { page with slots := page.slots ++ [some rec] })

/-- The only error of `insertRecord` is `NOSPACE`. -/
theorem insertRecord_error {rec : Record} {page : HeapPage} {status : Status}
    (failed : page.insertRecord layout rec = .error status) : status = .noSpace := by
  unfold insertRecord at failed
  split_ifs at failed
  · cases failed
    rfl
  · split at failed <;> cases failed

/-- The record in slot `slotNo`, if that slot is live. -/
def slot (page : HeapPage) (slotNo : Int) : Option Record :=
  if 0 ≤ slotNo then (page.slots.get? slotNo.toNat).join else none

/-- Modelled from the spec: `getRecord(rid, rec)`, the record of a live slot. -/
def getRecord (page : HeapPage) (rid : RID) : Except Status Record :=
  match page.slot rid.slotNo with
  | some rec => .ok rec
  | none => .error .invalidSlotNo

/-- Modelled from the spec: `deleteRecord(rid)` frees a live slot; any other slot number is
`INVALIDSLOTNO`. -/
def deleteRecord (page : HeapPage) (rid : RID) : Status × HeapPage :=
  match page.slot rid.slotNo with
  | some _ => (.ok, { page with slots := page.slots.set rid.slotNo.toNat none })
  | none => (.invalidSlotNo, page)

/-- The first live slot at or after `start`. -/
def liveFrom (slots : List (Option Record)) (start : Nat) : Option Nat :=
  ((slots.enum.drop start).find? fun entry => entry.2.isSome).map Prod.fst

/-- Modelled from the spec: `firstRecord(rid)`, the first live slot, else `NORECORDS`. -/
def firstRecord (page : HeapPage) : Except Status RID :=
  match liveFrom page.slots 0 with
  | some slot => .ok ⟨page.curPage, slot⟩
  | none => .error .noRecords

/-- Modelled from the spec: `nextRecord(cur, next)`, the first live slot after `cur`, else
`ENDOFPAGE`. -/
def nextRecord (page : HeapPage) (cur : RID) : Except Status RID :=
  match liveFrom page.slots (cur.slotNo + 1).toNat with
  | some slot => .ok ⟨page.curPage, slot⟩
  | none => .error .endOfPage

/-- `getNextPage(pageNo)`. -/
def getNextPage (page : HeapPage) : Int := page.nextPage

/-- `setNextPage(pageNo)`. -/
def setNextPage (page : HeapPage) (pageNo : Int) : HeapPage := { page with nextPage := pageNo }

/-- The records of a data page, each with the identifier the page gives it. -/
def liveRecords (page : HeapPage) : List (RID × Record) :=
  (page.slots.enum.filterMap fun (slot, entry) => entry.map fun rec => (⟨page.curPage, slot⟩, rec))

end HeapPage

end Minirel
