/-
**The operations of `buf.C`.**

Each member function of `BufMgr` is a function of the `World`, translated line by line:

* `advanceClock`, and `allocBuf` with its `while (true)` loop `allocBufLoop`, whose victim branch
  is `replaceFrame`;
* `readPage`, `unPinPage`, `allocPage`, `disposePage` and `flushFile` (its `for` loop is
  `flushFileFrom` over the frame numbers);
* the destructor `destruct`, which writes every valid dirty frame to the store (`destructFrom`).

Out-parameters are returned: `allocBuf`'s frame and `allocPage`'s page number and frame as the
value of an `.ok`, and `readPage`'s `Page*& page` as an `Option Nat` frame pointer that the call
receives and hands back, since `readPage` assigns it on one of its error paths too.

The loop of `allocBuf` runs on fuel `2 * numBufs + 1`: each pass that does not return clears a
reference bit or counts a pinned frame towards `numBufs`, so the loop never needs more passes.

`Op` lists the calls a client makes — the five operations and a write into the frame of a page it
has pinned — and `Reachable` is every world reached from the constructor by any sequence of them.
-/

import Minirel.Buffer.Store

set_option linter.unusedSectionVars false

namespace Minirel

namespace BufMgr

variable {Page : Type} [Inhabited Page]

open World

/-- `advanceClock()`, modelled from the spec: the hand moves one frame on, modulo `numBufs`. -/
def advanceClock (w : World Page) : World Page :=
  { w with clockHand := (w.clockHand + 1) % w.numBufs }

@[simp] theorem advanceClock_bufTable (w : World Page) :
    (advanceClock w).bufTable = w.bufTable := rfl
@[simp] theorem advanceClock_bufPool (w : World Page) : (advanceClock w).bufPool = w.bufPool :=
  rfl
@[simp] theorem advanceClock_hashTable (w : World Page) :
    (advanceClock w).hashTable = w.hashTable := rfl
@[simp] theorem advanceClock_numBufs (w : World Page) : (advanceClock w).numBufs = w.numBufs :=
  rfl
@[simp] theorem advanceClock_clockHand (w : World Page) :
    (advanceClock w).clockHand = (w.clockHand + 1) % w.numBufs := rfl
@[simp] theorem advanceClock_disk (w : World Page) : (advanceClock w).disk = w.disk := rfl
@[simp] theorem advanceClock_calls (w : World Page) : (advanceClock w).calls = w.calls := rfl

/-- The write-back shared by `allocBuf`'s victim branch and `flushFile`: a dirty frame goes to its
page; each caller handles a failed write in its own way. -/
def writeBack (w : World Page) (frame : Nat) : Status × World Page :=
  let curBuffer := w.bufTable frame
  if curBuffer.dirty then File.writePage curBuffer.file curBuffer.pageNo (w.bufPool frame) w
  else (.ok, w)

/-- The victim branch of `allocBuf`'s loop: the frame under the hand holds an unpinned,
unreferenced page. It is written back if dirty (a failed write is `UNIXERR`), its index entry is
removed, and it is cleared. The source's `curBuffer->dirty = true` after a successful write sets
a bit that is already set. -/
def replaceFrame (w : World Page) : Except Status Nat × World Page :=
  let curBuffer := w.bufTable w.clockHand
  match writeBack w w.clockHand with
  | (written, w') =>
    if written ≠ .ok then (.error .unixErr, w')
    else
      match w'.hashTable.remove curBuffer.file curBuffer.pageNo with
      | .error status => (.error status, w')
      | .ok table =>
        (.ok curBuffer.frameNo, { w'.setDesc w'.clockHand curBuffer.clear with hashTable := table })

/-- The `while (true)` loop of `allocBuf`, counting pinned frames in `numPinnedPages`. -/
def allocBufLoop : Nat → Nat → World Page → Except Status Nat × World Page
  | 0, _, w => (.error .bufferExceeded, w)
  | fuel + 1, numPinnedPages, w =>
    if w.numBufs = numPinnedPages then (.error .bufferExceeded, w)
    else
      let w := advanceClock w
      let curBuffer := w.bufTable w.clockHand
      if !curBuffer.valid then (.ok curBuffer.frameNo, w.setDesc w.clockHand curBuffer.clear)
      else if curBuffer.refbit then
        allocBufLoop fuel numPinnedPages (w.setDesc w.clockHand { curBuffer with refbit := false })
      else if curBuffer.pinCnt > 0 then allocBufLoop fuel (numPinnedPages + 1) w
      else replaceFrame w

/-- `allocBuf(frame)`: a frame for a new page, chosen by the clock. -/
def allocBuf (w : World Page) : Except Status Nat × World Page :=
  allocBufLoop (2 * w.numBufs + 1) 0 w

/-- `disposePage(file, pageNo)`: clear the page's frame if it is resident, drop its index entry
(ignoring `remove`'s status), and return the store's status. -/
def disposePage (file : Option FileId) (pageNo : Int) (w : World Page) : Status × World Page :=
  let w := match w.hashTable.lookup file pageNo with
    | some frameNo => w.setDesc frameNo (w.bufTable frameNo).clear
    | none => w
  let w := match w.hashTable.remove file pageNo with
    | .ok table => { w with hashTable := table }
    | .error _ => w
  File.disposePage file pageNo w

/-- `readPage(file, pageNo, page)`. A hit pins the frame and sets its reference bit; a miss takes
a frame from `allocBuf`, reads the page into it (disposing of the page if the read fails), enters
it in the index and `Set`s the descriptor. `page` is assigned once the read has succeeded. -/
def readPage (file : Option FileId) (pageNo : Int) (page : Option Nat) (w : World Page) :
    Status × Option Nat × World Page :=
  match w.hashTable.lookup file pageNo with
  | none =>
    match allocBuf w with
    | (.error status, w) => (status, page, w)
    | (.ok frame, w) =>
      match File.readPage file pageNo w with
      | (.error status, w) => (status, page, (disposePage file pageNo w).2)
      | (.ok bytes, w) =>
        let w := w.setPage frame bytes
        let (outOfMemory, w) := w.newBucket
        match w.hashTable.insert file pageNo frame outOfMemory with
        | .error status => (status, some frame, w)
        | .ok table =>
          (.ok, some frame,
            { w.setDesc frame { (w.bufTable frame).set file pageNo with frameNo := frame } with
              hashTable := table })
  | some frame =>
    let curBuffer := w.bufTable frame
    (.ok, some frame,
      w.setDesc frame { curBuffer with refbit := true, pinCnt := curBuffer.pinCnt + 1 })

/-- `unPinPage(file, pageNo, dirty)`: `HASHNOTFOUND` if not resident, `PAGENOTPINNED` if not
pinned; otherwise set the dirty bit if asked and drop one pin. -/
def unPinPage (file : Option FileId) (pageNo : Int) (dirty : Bool) (w : World Page) :
    Status × World Page :=
  match w.hashTable.lookup file pageNo with
  | none => (.hashNotFound, w)
  | some frame =>
    let curBuffer := w.bufTable frame
    if curBuffer.pinCnt = 0 then (.pageNotPinned, w)
    else
      let curBuffer := if dirty then { curBuffer with dirty := true } else curBuffer
      (.ok, w.setDesc frame { curBuffer with pinCnt := curBuffer.pinCnt - 1 })

/-- `allocPage(file, pageNo, page)`: a new page of the file in a frame from `allocBuf`, entered in
the index and `Set`; the out-parameters are assigned only on success. -/
def allocPage (file : Option FileId) (w : World Page) : Except Status (Int × Nat) × World Page :=
  match File.allocatePage file w with
  | (.error status, w) => (.error status, w)
  | (.ok pageNum, w) =>
    match allocBuf w with
    | (.error status, w) => (.error status, w)
    | (.ok frame, w) =>
      let (outOfMemory, w) := w.newBucket
      match w.hashTable.insert file pageNum frame outOfMemory with
      | .error status => (.error status, w)
      | .ok table =>
        (.ok (pageNum, frame),
          { w.setDesc frame ((w.bufTable frame).set file pageNum) with hashTable := table })

/-- The `for` loop of `flushFile` over the frames `frames`. -/
def flushFileFrom (file : Option FileId) : List Nat → World Page → Status × World Page
  | [], w => (.ok, w)
  | i :: rest, w =>
    let tmpbuf := w.bufTable i
    if tmpbuf.valid = true ∧ tmpbuf.file = file then
      if tmpbuf.pinCnt > 0 then (.pagePinned, w)
      else
        let (status, w) := writeBack w i
        if status ≠ .ok then (status, w)
        else
          let w := match w.hashTable.remove file tmpbuf.pageNo with
            | .ok table => { w with hashTable := table }
            | .error _ => w
          flushFileFrom file rest
            (w.setDesc i { tmpbuf with dirty := false, file := none, pageNo := -1, valid := false })
    else if tmpbuf.valid = false ∧ tmpbuf.file = file then (.badBuffer, w)
    else flushFileFrom file rest w

/-- `flushFile(file)`: write back and evict every page of the file, frame by frame. -/
def flushFile (file : Option FileId) (w : World Page) : Status × World Page :=
  flushFileFrom file (List.range w.numBufs) w

/-- The `for` loop of `~BufMgr` over the frames `frames`: write every valid dirty frame to its
page, not looking at the status. -/
def destructFrom : List Nat → World Page → World Page
  | [], w => w
  | i :: rest, w =>
    let tmpbuf := w.bufTable i
    if tmpbuf.valid = true ∧ tmpbuf.dirty = true then
      destructFrom rest (File.writePage tmpbuf.file tmpbuf.pageNo (w.bufPool i) w).2
    else destructFrom rest w

/-- `~BufMgr()`: flush out all unwritten pages. The frame table and the pool are then freed; the
store, and the calls made on it, are what is left. -/
def destruct (w : World Page) : World Page := destructFrom (List.range w.numBufs) w

/-- A client's write of `bytes` into the frame of a page it has pinned (through the pointer
`readPage` or `allocPage` gave it); a write to a page that is not pinned is not a client's. -/
def writeFrame (file : Option FileId) (pageNo : Int) (bytes : Page) (w : World Page) :
    World Page :=
  match w.hashTable.lookup file pageNo with
  | some frame => if 0 < (w.bufTable frame).pinCnt then w.setPage frame bytes else w
  | none => w

end BufMgr

/-- A call a client makes on the buffer manager. -/
inductive Op (Page : Type) where
  | readPage (file : Option FileId) (pageNo : Int)
  | allocPage (file : Option FileId)
  | unPinPage (file : Option FileId) (pageNo : Int) (dirty : Bool)
  | disposePage (file : Option FileId) (pageNo : Int)
  | flushFile (file : Option FileId)
  | write (file : Option FileId) (pageNo : Int) (bytes : Page)

/-- What a call hands back to the client: its status and, from `readPage` and `allocPage`, the
page number and the frame its page pointer points into. -/
structure Reply where
  status : Status
  pageNo : Option Int
  frame : Option Nat
  deriving DecidableEq, Repr

namespace Op

variable {Page : Type} [Inhabited Page]

open BufMgr

/-- One call on the buffer manager. -/
def apply (w : World Page) : Op Page → Reply × World Page
  | readPage file pageNo =>
    let (status, page, w) := BufMgr.readPage file pageNo none w
    (⟨status, none, page⟩, w)
  | allocPage file =>
    match BufMgr.allocPage file w with
    | (.ok (pageNo, frame), w) => (⟨.ok, some pageNo, some frame⟩, w)
    | (.error status, w) => (⟨status, none, none⟩, w)
  | unPinPage file pageNo dirty =>
    let (status, w) := BufMgr.unPinPage file pageNo dirty w
    (⟨status, none, none⟩, w)
  | disposePage file pageNo =>
    let (status, w) := BufMgr.disposePage file pageNo w
    (⟨status, none, none⟩, w)
  | flushFile file =>
    let (status, w) := BufMgr.flushFile file w
    (⟨status, none, none⟩, w)
  | write file pageNo bytes => (⟨.ok, none, none⟩, writeFrame file pageNo bytes w)

@[simp] theorem apply_readPage (w : World Page) (file pageNo) :
    ((readPage file pageNo).apply w).2 = (BufMgr.readPage file pageNo none w).2.2 := rfl
@[simp] theorem apply_allocPage (w : World Page) (file) :
    ((allocPage file).apply w).2 = (BufMgr.allocPage file w).2 := by
  simp only [apply]
  split <;> rename_i result <;> rw [result]
@[simp] theorem apply_unPinPage (w : World Page) (file pageNo dirty) :
    ((unPinPage file pageNo dirty).apply w).2 = (BufMgr.unPinPage file pageNo dirty w).2 := rfl
@[simp] theorem apply_disposePage (w : World Page) (file pageNo) :
    ((disposePage file pageNo).apply w).2 = (BufMgr.disposePage file pageNo w).2 := rfl
@[simp] theorem apply_flushFile (w : World Page) (file) :
    ((flushFile file).apply w).2 = (BufMgr.flushFile file w).2 := rfl
@[simp] theorem apply_write (w : World Page) (file pageNo bytes) :
    ((write file pageNo bytes).apply w).2 = writeFrame file pageNo bytes w := rfl

end Op

/-- Every world reached from the constructor by a sequence of calls, whatever the store holds and
whatever its schedule makes fail. -/
inductive Reachable {Page : Type} [Inhabited Page] : World Page → Prop
  | init (bufs : Nat) (disk : Disk Page) (fault : Nat → Bool) (fresh : Nat → Int) :
      Reachable (World.init bufs disk fault fresh)
  | step {w : World Page} (op : Op Page) : Reachable w → Reachable (op.apply w).2

namespace Op

variable {Page : Type} [Inhabited Page]

/-- The calls `ops` made in order from `w`: each call with its reply, and the world they leave. -/
def exec (w : World Page) : List (Op Page) → List (Op Page × Reply) × World Page
  | [] => ([], w)
  | op :: ops =>
    let (reply, w') := op.apply w
    let (history, w'') := exec w' ops
    ((op, reply) :: history, w'')

@[simp] theorem exec_nil (w : World Page) : exec w [] = ([], w) := rfl

theorem exec_cons (w : World Page) (op : Op Page) (ops : List (Op Page)) :
    exec w (op :: ops) =
      ((op, (op.apply w).1) :: (exec (op.apply w).2 ops).1, (exec (op.apply w).2 ops).2) := rfl

/-- A run of two call sequences is the second run from where the first one ends. -/
theorem exec_append (w : World Page) (ops ops' : List (Op Page)) :
    exec w (ops ++ ops') =
      ((exec w ops).1 ++ (exec (exec w ops).2 ops').1, (exec (exec w ops).2 ops').2) := by
  induction ops generalizing w with
  | nil => rfl
  | cons op ops ih => simp only [List.cons_append, exec_cons, ih]

end Op

theorem Reachable.exec {Page : Type} [Inhabited Page] {w : World Page} (reach : Reachable w) :
    ∀ ops : List (Op Page), Reachable (Op.exec w ops).2
  | [] => reach
  | op :: ops => (reach.step op).exec ops

end Minirel
