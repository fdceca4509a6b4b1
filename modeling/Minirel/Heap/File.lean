/-
**The heap file of `heapfile.C`: creation, the open-file object, and inserts.**

An open heap file is a `HeapFile`: the file, the frame and number of its header page (pinned
for the object's lifetime), and a cursor, the frame and number of one data page it holds
pinned. `curPage` is the frame pointer of the source, `none` for `NULL`; the source reads and
writes a page's bytes through these pointers, the model through `bufPool` at the frame. Every
call on the object is a function from the object and the world to a status, the new object and
the new world.

* `createHeapFile` — a header page and one empty data page, both released dirty and flushed.
* `HeapFile.construct`, `HeapFile.destruct` — `HeapFile::HeapFile` pins the header and the
  first data page; `HeapFile::~HeapFile` releases them.
* `HeapFile.getRecord` — `getRecord(rid, rec)`: the cursor page if it is the record's page,
  else release the cursor and read the record's page.
* `InsertFileScan.insertRecord` — insert into the cursor page; on `NOSPACE` allocate a page,
  link the cursor page to it, and insert there.

The catalog `db` is modelled from the spec (`Db`): the files that exist and the `File` object
each opens to, the same object on every open.
-/

import Minirel.Buffer.Coherence
import Minirel.Heap.Page
import Mathlib.Algebra.Group.Int

namespace Minirel

open World BufMgr

/-! ### The catalog and the store's header -/

/-- Modelled from the spec: the catalog `db` — the `File` object of each existing file, and the
one a file will get when it is created. -/
structure Db where
  opened : String → Option FileId
  fresh : String → FileId

namespace Db

/-- Modelled from the spec: `db.openFile(name, file)`. -/
def openFile (db : Db) (fileName : String) : Except Status (Option FileId) :=
  match db.opened fileName with
  | some id => .ok (some id)
  | none => .error .unixErr

/-- Modelled from the spec: `db.createFile(name)`, `FILEEXISTS` for a file that exists. -/
def createFile (db : Db) (fileName : String) : Except Status Db :=
  match db.opened fileName with
  | some _ => .error .fileExists
  | none => .ok { db with opened := Function.update db.opened fileName (some (db.fresh fileName)) }

end Db

/-- Modelled from the spec: `File::getFirstPage(pageNo)`, the file's first page. -/
def File.getFirstPage {Page : Type} (file : Option FileId) (w : World Page) : Except Status Int :=
  match file.bind w.disk.firstPage with
  | some pageNo => .ok pageNo
  | none => .error .unixErr

/-! ### Creating a heap file -/

/-- The header view of the page in `frame`, with new list fields. -/
def setHeader (w : World HeapPage) (frame : Nat) (firstPage lastPage pageCnt recCnt : Int) :
    World HeapPage :=
  w.setPage frame
    { w.bufPool frame with firstPage := firstPage, lastPage := lastPage, pageCnt := pageCnt,
                            recCnt := recCnt }

/-- Writing the header moves no pin. -/
@[simp] theorem pinsOf_setHeader (w : World HeapPage) (frame : Nat)
    (firstPage lastPage pageCnt recCnt : Int) (key : Option FileId × Int) :
    pinsOf (setHeader w frame firstPage lastPage pageCnt recCnt) key = pinsOf w key := rfl

theorem Agree.setHeader {w : World HeapPage} (agree : Agree w) (frame : Nat)
    (firstPage lastPage pageCnt recCnt : Int) :
    Agree (setHeader w frame firstPage lastPage pageCnt recCnt) :=
  agree.setPage _ _

/-- `createHeapFile(fileName)`: `FILEEXISTS` if the file opens; else create and open it,
allocate the header page and one data page, initialise the data page with no next page and the
header with it as first and last page, one page, no record; release both dirty, flush the file
and close it. The header's `strcpy` of the name is left out. -/
def createHeapFile (db : Db) (fileName : String) (w : World HeapPage) :
    Status × Db × World HeapPage :=
  match db.openFile fileName with
  | .ok _ => (.fileExists, db, w)
  | .error _ =>
    match db.createFile fileName with
    | .error create => (create, db, w)
    | .ok db =>
      match db.openFile fileName with
      | .error opened => (opened, db, w)
      | .ok file =>
        match allocPage file w with
        | (.error status, w) => (status, db, w)
        | (.ok (hdrPageNo, hdrFrame), w) =>
          match allocPage file w with
          | (.error status, w) => (status, db, w)
          | (.ok (newPageNo, newFrame), w) =>
            let w := w.setPage newFrame (((w.bufPool newFrame).init newPageNo).setNextPage (-1))
            let w := setHeader w hdrFrame newPageNo newPageNo 1 0
            let w := (unPinPage file hdrPageNo true w).2
            let w := (unPinPage file newPageNo true w).2
            (.ok, db, (flushFile file w).2)

/-! ### The open-file object -/

/-- An open heap file (`HeapFile`): its file, its pinned header page, and its cursor. -/
structure HeapFile where
  filePtr : Option FileId
  /-- the frame of the header page -/
  headerPage : Nat
  headerPageNo : Int
  hdrDirtyFlag : Bool
  /-- the frame of the cursor page, `none` for `NULL` -/
  curPage : Option Nat
  curPageNo : Int
  curDirtyFlag : Bool
  curRec : RID
  deriving DecidableEq, Repr

namespace HeapFile

/-- The fields a constructor that fails leaves unassigned; the source leaves them indeterminate,
and the model gives them these values. -/
def unassigned : HeapFile := ⟨none, 0, 0, false, none, 0, false, NULLRID⟩

/-- The header page, through the object's header pointer. -/
def header (hf : HeapFile) (w : World HeapPage) : HeapPage := w.bufPool hf.headerPage

/-- `HeapFile::HeapFile(fileName, returnStatus)`: open the file, read and pin its first page as
the header, then read and pin the header's first data page as the cursor, with clean dirty flags
and no current record. -/
def construct (db : Db) (fileName : String) (w : World HeapPage) :
    Status × HeapFile × World HeapPage :=
  match db.openFile fileName with
  | .error status => (status, unassigned, w)
  | .ok filePtr =>
    match File.getFirstPage filePtr w with
    | .error status => (status, { unassigned with filePtr := filePtr }, w)
    | .ok pageNo =>
      match readPage filePtr pageNo none w with
      | (.ok, some frame, w) =>
        let hf := { unassigned with filePtr := filePtr, headerPage := frame, headerPageNo := pageNo,
                                    hdrDirtyFlag := false }
        let firstNo := (w.bufPool frame).firstPage
        match readPage filePtr firstNo (some frame) w with
        | (.ok, some cur, w) =>
          (.ok, { hf with curPage := some cur, curPageNo := firstNo, curDirtyFlag := false,
                          curRec := NULLRID }, w)
        | (status, _, w) => (status, hf, w)
      | (status, _, w) => (status, { unassigned with filePtr := filePtr }, w)

/-- `HeapFile::~HeapFile()`: release the cursor page, if any, with its dirty flag, then the header
page with its own; the statuses are only reported. -/
def destruct (hf : HeapFile) (w : World HeapPage) : World HeapPage :=
  let w := match hf.curPage with
    | some _ => (unPinPage hf.filePtr hf.curPageNo hf.curDirtyFlag w).2
    | none => w
  (unPinPage hf.filePtr hf.headerPageNo hf.hdrDirtyFlag w).2

/-- `getRecCnt()`. -/
def getRecCnt (hf : HeapFile) (w : World HeapPage) : Int := (hf.header w).recCnt

/-- The `else` branch of `getRecord(rid, rec)`: release the cursor page, make the record's page
the cursor, read and pin it, and extract the record. `readPage` assigns `curPage` only when it
succeeds. -/
def readRecord (rid : RID) (hf : HeapFile) (w : World HeapPage) :
    Status × Option Record × HeapFile × World HeapPage :=
  match unPinPage hf.filePtr hf.curPageNo hf.curDirtyFlag w with
  | (.ok, w) =>
    let hf := { hf with curPageNo := rid.pageNo, curRec := rid, curDirtyFlag := false }
    match readPage hf.filePtr hf.curPageNo hf.curPage w with
    | (.ok, some frame, w) =>
      let hf := { hf with curPage := some frame }
      match (w.bufPool frame).getRecord hf.curRec with
      | .ok rec => (.ok, some rec, hf, w)
      | .error status => (status, none, hf, w)
    | (status, curPage, w) => (status, none, { hf with curPage := curPage }, w)
  | (status, w) => (status, none, hf, w)

/-- `getRecord(rid, rec)`: from the cursor page if it holds the record's page, else through
`readRecord`. -/
def getRecord (rid : RID) (hf : HeapFile) (w : World HeapPage) :
    Status × Option Record × HeapFile × World HeapPage :=
  match hf.curPage with
  | some frame =>
    if hf.curPageNo = rid.pageNo then
      let hf := { hf with curRec := rid }
      match (w.bufPool frame).getRecord hf.curRec with
      | .ok rec => (.ok, some rec, hf, w)
      | .error status => (status, none, hf, w)
    else readRecord rid hf w
  | none => readRecord rid hf w

end HeapFile

/-! ### Inserting -/

namespace InsertFileScan

open HeapFile

/-- A 32-bit `int` converted to `unsigned int`. -/
def unsigned (x : Int) : Nat := (x % 2 ^ 32).toNat

/-- The block of `insertRecord` for a missing cursor page: release the nominal cursor, read and
pin the header's last page, and make its first record the current one. The frame of the cursor
page, or the status to return. -/
def pinLastPage (hf : HeapFile) (w : World HeapPage) :
    Except (Status × HeapFile × World HeapPage) (Nat × HeapFile × World HeapPage) :=
  match hf.curPage with
  | some frame => .ok (frame, hf, w)
  | none =>
    match unPinPage hf.filePtr hf.curPageNo hf.curDirtyFlag w with
    | (.ok, w) =>
      let hf := { hf with curPageNo := (hf.header w).lastPage }
      match readPage hf.filePtr hf.curPageNo hf.curPage w with
      | (.ok, some frame, w) =>
        let hf := { hf with curPage := some frame, curDirtyFlag := false }
        match (w.bufPool frame).firstRecord with
        | .ok rid => .ok (frame, { hf with curRec := rid }, w)
        | .error status => .error (status, hf, w)
      | (status, curPage, w) => .error (status, { hf with curPage := curPage, curDirtyFlag := false }, w)
    | (status, w) => .error (status, hf, w)

/-- The `NOSPACE` branch of `insertRecord`: allocate a page and initialise it, make it the
header's last page and count it, link the cursor page to it and release the cursor page dirty,
read and pin the new page as the cursor, insert there, count the record, end the list at the new
page and release it dirty. The checks after the two releases test the insert's status, which is
`OK` there, so neither returns. -/
def insertOnNewPage (layout : Layout) (rec : Record) (frame : Nat) (hf : HeapFile)
    (w : World HeapPage) : Status × Option RID × HeapFile × World HeapPage :=
  match allocPage hf.filePtr w with
  | (.error status, w) => (status, none, hf, w)
  | (.ok (newPageNo, newFrame), w) =>
    let w := w.setPage newFrame ((w.bufPool newFrame).init newPageNo)
    let hdr := hf.header w
    let w := setHeader w hf.headerPage hdr.firstPage newPageNo (hdr.pageCnt + 1) hdr.recCnt
    let w := w.setPage frame ((w.bufPool frame).setNextPage newPageNo)
    let w := (unPinPage hf.filePtr hf.curPageNo true w).2
    let hf := { hf with curDirtyFlag := true, curPageNo := (hf.header w).lastPage }
    match readPage hf.filePtr hf.curPageNo hf.curPage w with
    | (.ok, some cur, w) =>
      let hf := { hf with curPage := some cur }
      match (w.bufPool cur).insertRecord layout rec with
      | .ok (rid, page) =>
        let w := w.setPage cur page
        let hdr := hf.header w
        let w := setHeader w hf.headerPage hdr.firstPage hdr.lastPage hdr.pageCnt (hdr.recCnt + 1)
        let hf := { hf with curRec := rid, curDirtyFlag := true }
        let w := w.setPage cur ((w.bufPool cur).setNextPage (-1))
        (.ok, some rid, hf, (unPinPage hf.filePtr hf.curPageNo true w).2)
      | .error status => (status, none, hf, w)
    | (status, curPage, w) => (status, none, { hf with curPage := curPage }, w)

/-- `InsertFileScan::insertRecord(rec, outRid)`: `INVALIDRECLEN` for a record longer than
`PAGESIZE - DPFIXED` (compared as `unsigned`); else insert into the cursor page (pinning the
last page first if there is none), counting the record in the header; on `NOSPACE` go through
`insertOnNewPage`. -/
def insertRecord (layout : Layout) (rec : Record) (hf : HeapFile) (w : World HeapPage) :
    Status × Option RID × HeapFile × World HeapPage :=
  if unsigned ((layout.pageSize : Int) - layout.dpFixed) < unsigned rec.length then
    (.invalidRecLen, none, hf, w)
  else
    match pinLastPage hf w with
    | .error (status, hf, w) => (status, none, hf, w)
    | .ok (frame, hf, w) =>
      match (w.bufPool frame).insertRecord layout rec with
      | .ok (rid, page) =>
        let w := w.setPage frame page
        let hdr := hf.header w
        let w := setHeader w hf.headerPage hdr.firstPage hdr.lastPage hdr.pageCnt (hdr.recCnt + 1)
        (.ok, some rid, { hf with curRec := rid, curDirtyFlag := true }, w)
      | .error .noSpace => insertOnNewPage layout rec frame hf w
      | .error status => (status, none, hf, w)

/-- `InsertFileScan::~InsertFileScan()`: release the cursor page dirty, then the base destructor
releases the header. -/
def destruct (hf : HeapFile) (w : World HeapPage) : World HeapPage :=
  match hf.curPage with
  | some _ =>
    let w := (unPinPage hf.filePtr hf.curPageNo true w).2
    HeapFile.destruct { hf with curPage := none, curPageNo := 0 } w
  | none => HeapFile.destruct hf w

end InsertFileScan

end Minirel
