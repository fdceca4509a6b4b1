/-
**The filtered scan of `heapfile.C`: `HeapFileScan`.**

A `HeapFileScan` is a `HeapFile` with a predicate (`offset`, `length`, `type`, `filter`, `op`)
and a mark (`markedPageNo`, `markedRec`).

* `matchRec` — the predicate: the attribute at `offset` against `filter`, compared as a 32-bit
  `int` (the difference taken in `int`), a `float`, or by `strncmp`; the bound check
  `offset + length - 1 >= rec.length` is computed in 32-bit `int`.
* `scanNext` — forward iteration over the data-page list, with `fuel` for the `while (true)`
  loop, which the source runs for as long as the list goes on.
* `startScan`, `endScan`, `markScan`, `resetScan`, `getRecord`, `deleteRecord`, `markDirty`.
* `scanLoop_turn` (`Turn`, `Entered`, `Examined`) — what one turn of the loop does; later proofs
  about the loop go through it and never unfold `scanLoop`.

A null `curPage` that the source dereferences (`getRecord`, `deleteRecord`) is undefined
behaviour; those calls return `none` there.
-/

import Minirel.Heap.File

namespace Minirel

open World BufMgr

/-- The attribute types of a scan predicate. -/
inductive Datatype where
  | STRING
  | INTEGER
  | FLOAT
  deriving DecidableEq, Repr

/-- The comparison operators of a scan predicate. -/
inductive Operator where
  | LT
  | LTE
  | EQ
  | GTE
  | GT
  | NE
  deriving DecidableEq, Repr

namespace Operator

/-- Whether `diff op 0` holds for an integral `diff`. -/
def holdsInt (op : Operator) (diff : Int) : Bool :=
  match op with
  | LT => decide (diff < 0)
  | LTE => decide (diff ≤ 0)
  | EQ => decide (diff = 0)
  | GTE => decide (0 ≤ diff)
  | GT => decide (0 < diff)
  | NE => decide (diff ≠ 0)

/-- Whether `diff op 0.0` holds for a floating `diff`. -/
def holdsFloat (op : Operator) (diff : Float) : Bool :=
  match op with
  | LT => diff < 0
  | LTE => diff ≤ 0
  | EQ => diff == 0
  | GTE => 0 ≤ diff
  | GT => 0 < diff
  | NE => diff != 0

end Operator

/-! ### The predicate -/

/-- A 32-bit `int` after wrap-around. -/
def int32 (x : Int) : Int := (x + 2 ^ 31) % 2 ^ 32 - 2 ^ 31

/-- The byte at index `i` of `data`; a byte outside the record reads as `0` in the model, where
the source reads whatever memory holds. -/
def byteAt (data : List UInt8) (i : Int) : UInt8 :=
  if 0 ≤ i then data.getD i.toNat 0 else 0

/-- The four bytes from `start`, little-endian, as an unsigned 32-bit value. -/
def word (data : List UInt8) (start : Int) : Nat :=
  (byteAt data start).toNat + (byteAt data (start + 1)).toNat * 2 ^ 8 +
    (byteAt data (start + 2)).toNat * 2 ^ 16 + (byteAt data (start + 3)).toNat * 2 ^ 24

/-- A 32-bit IEEE `float` from its bits. -/
def float32 (bits : Nat) : Float :=
  let exponent : Nat := bits / 2 ^ 23 % 2 ^ 8
  let mantissa : Nat := bits % 2 ^ 23
  let magnitude :=
    if exponent = 0 then Float.scaleB (Float.ofNat mantissa) (-149)
    else if exponent = 255 then (if mantissa = 0 then 1 / 0 else 0 / 0)
    else Float.scaleB (Float.ofNat (mantissa + 2 ^ 23)) ((exponent : Int) - 150)
  if bits / 2 ^ 31 % 2 = 1 then -magnitude else magnitude

/-- `strncmp(s, t, n)`: the difference of the first differing bytes among the first `n`,
stopping at a `NUL` both strings share. -/
def strncmp (s t : Nat → UInt8) : Nat → Int
  | 0 => 0
  | n + 1 =>
    if s 0 ≠ t 0 then (s 0).toNat - (t 0).toNat
    else if s 0 = 0 then 0
    else strncmp (fun i => s (i + 1)) (fun i => t (i + 1)) n

/-- A scan over a heap file: the open file, the predicate, and the mark. -/
structure HeapFileScan extends HeapFile where
  offset : Int
  length : Int
  type : Datatype
  filter : Option (List UInt8)
  op : Operator
  markedPageNo : Int
  markedRec : RID
  deriving DecidableEq, Repr

namespace HeapFileScan

/-- `matchRec(rec)`: every record without a filter; else none whose attribute ends past the
record (the bound computed in `int`), and otherwise `diff op 0` for the difference of attribute
and filter. -/
def matchRec (scan : HeapFileScan) (rec : Record) : Bool :=
  match scan.filter with
  | none => true
  | some filter =>
    if rec.length ≤ int32 (scan.offset + scan.length - 1) then false
    else
      match scan.type with
      | .INTEGER =>
        scan.op.holdsInt (int32 (int32 (word rec.data scan.offset) - int32 (word filter 0)))
      | .FLOAT =>
        scan.op.holdsFloat (float32 (word rec.data scan.offset) - float32 (word filter 0))
      | .STRING =>
        scan.op.holdsInt (strncmp (fun i => byteAt rec.data (scan.offset + i))
          (fun i => byteAt filter i) scan.length.toNat)

/-- `HeapFileScan::HeapFileScan(name, status)`: the heap file, and no filter. The predicate and
the mark are unassigned. -/
def construct (db : Db) (fileName : String) (w : World HeapPage) :
    Status × HeapFileScan × World HeapPage :=
  let (status, hf, w) := HeapFile.construct db fileName w
  (status, ⟨hf, 0, 0, .STRING, none, .EQ, 0, NULLRID⟩, w)

/-- `startScan(offset, length, type, filter, op)`: no filter accepts every record; a filter
needs `offset >= 0`, `length >= 1`, and four bytes for an `INTEGER` or a `FLOAT`, else
`BADSCANPARM`. -/
def startScan (offset length : Int) (type : Datatype) (filter : Option (List UInt8))
    (op : Operator) (scan : HeapFileScan) : Status × HeapFileScan :=
  match filter with
  | none => (.ok, { scan with filter := none })
  | some _ =>
    if offset < 0 ∨ length < 1 ∨ (type = .INTEGER ∧ length ≠ 4) ∨ (type = .FLOAT ∧ length ≠ 4) then
      (.badScanParm, scan)
    else (.ok, { scan with offset := offset, length := length, type := type, filter := filter,
                           op := op })

/-- `endScan()`: release the cursor page, if any, and clear the cursor. -/
def endScan (scan : HeapFileScan) (w : World HeapPage) : Status × HeapFileScan × World HeapPage :=
  match scan.curPage with
  | some _ =>
    let (status, w) := unPinPage scan.filePtr scan.curPageNo scan.curDirtyFlag w
    (status, { scan with curPage := none, curPageNo := 0, curDirtyFlag := false }, w)
  | none => (.ok, scan, w)

/-- `markScan()`: remember the cursor's page and record. -/
def markScan (scan : HeapFileScan) : HeapFileScan :=
  { scan with markedPageNo := scan.curPageNo, markedRec := scan.curRec }

/-- `resetScan()`: back to the mark; on another page, release the cursor page (if any) and read
and pin the marked page, clean. -/
def resetScan (scan : HeapFileScan) (w : World HeapPage) : Status × HeapFileScan × World HeapPage :=
  if scan.markedPageNo ≠ scan.curPageNo then
    let released := match scan.curPage with
      | some _ => unPinPage scan.filePtr scan.curPageNo scan.curDirtyFlag w
      | none => (.ok, w)
    match released with
    | (.ok, w) =>
      let scan := { scan with curPageNo := scan.markedPageNo, curRec := scan.markedRec }
      match readPage scan.filePtr scan.curPageNo scan.curPage w with
      | (.ok, curPage, w) => (.ok, { scan with curPage := curPage, curDirtyFlag := false }, w)
      | (status, curPage, w) => (status, { scan with curPage := curPage }, w)
    | (status, w) => (status, scan, w)
  else (.ok, { scan with curRec := scan.markedRec }, w)

/-- The `while (true)` loop of `scanNext`, with the cursor page pinned in `frame`: the record after
`curRec` on the page, or the first of the next page (a page without records is passed over);
the first that `matchRec` accepts is returned. `none` when the fuel runs out. -/
def scanLoop : Nat → Nat → HeapFileScan → World HeapPage →
    Option (Status × Option RID × HeapFileScan × World HeapPage)
  | 0, _, _, _ => none
  | fuel + 1, frame, scan, w =>
    let page := w.bufPool frame
    let examine (frame : Nat) (scan : HeapFileScan) (w : World HeapPage) :=
      match (w.bufPool frame).getRecord scan.curRec with
      | .error status => some (status, none, scan, w)
      | .ok rec =>
        if scan.matchRec rec then some (.ok, some scan.curRec, scan, w)
        else scanLoop fuel frame scan w
    match page.nextRecord scan.curRec with
    | .ok next => examine frame { scan with curRec := next } w
    | .error _ =>
      let nextPageNo := page.getNextPage
      if nextPageNo = -1 then some (.fileEOF, none, scan, w)
      else
        match unPinPage scan.filePtr scan.curPageNo scan.curDirtyFlag w with
        | (.ok, w) =>
          let scan := { scan with curPageNo := nextPageNo, curDirtyFlag := false }
          match readPage scan.filePtr scan.curPageNo scan.curPage w with
          | (.ok, some frame, w) =>
            let scan := { scan with curPage := some frame }
            match (w.bufPool frame).firstRecord with
            | .ok rid => examine frame { scan with curRec := rid } w
            | .error _ => scanLoop fuel frame scan w
          | (status, curPage, w) => some (status, none, { scan with curPage := curPage }, w)
        | (status, w) => some (status, none, scan, w)

/-- `scanNext(outRid)`: with no cursor page, pin the header's first data page and make its first
record the current one; then run the loop. -/
def scanNext (fuel : Nat) (scan : HeapFileScan) (w : World HeapPage) :
    Option (Status × Option RID × HeapFileScan × World HeapPage) :=
  match scan.curPage with
  | some frame => scanLoop fuel frame scan w
  | none =>
    let scan := { scan with curPageNo := (scan.header w).firstPage, curDirtyFlag := false }
    match readPage scan.filePtr scan.curPageNo scan.curPage w with
    | (.ok, some frame, w) =>
      let scan := { scan with curPage := some frame }
      match (w.bufPool frame).firstRecord with
      | .ok rid => scanLoop fuel frame { scan with curRec := rid } w
      | .error status => some (status, none, scan, w)
    | (status, curPage, w) => some (status, none, { scan with curPage := curPage }, w)

/-- `getRecord(rec)`: the current record of the cursor page. -/
def getRecord (scan : HeapFileScan) (w : World HeapPage) : Option (Except Status Record) :=
  scan.curPage.map fun frame => (w.bufPool frame).getRecord scan.curRec

/-- `deleteRecord()`: delete the current record from the cursor page and mark it dirty, then
count one record less in the header and mark it dirty, whatever the page answered. -/
def deleteRecord (scan : HeapFileScan) (w : World HeapPage) :
    Option (Status × HeapFileScan × World HeapPage) :=
  scan.curPage.map fun frame =>
    let (status, page) := (w.bufPool frame).deleteRecord scan.curRec
    let w := w.setPage frame page
    let hdr := scan.header w
    let w := setHeader w scan.headerPage hdr.firstPage hdr.lastPage hdr.pageCnt (hdr.recCnt - 1)
    (status, { scan with curDirtyFlag := true, hdrDirtyFlag := true }, w)

/-- `markDirty()`. -/
def markDirty (scan : HeapFileScan) : HeapFileScan := { scan with curDirtyFlag := true }

/-- `HeapFileScan::~HeapFileScan()`: `endScan()`, then the base destructor. -/
def destruct (scan : HeapFileScan) (w : World HeapPage) : World HeapPage :=
  let (_, scan, w) := endScan scan w
  scan.toHeapFile.destruct w

/-! ### One turn of `scanNext`'s loop -/

/-- The end of a turn of `scanNext`'s loop, on the record `curRec` of the page in `frame`: the page
cannot give the record, `matchRec` accepts it, or the loop goes on. -/
inductive Examined (fuel frame : Nat) (scan : HeapFileScan) (w : World HeapPage) :
    Option (Status × Option RID × HeapFileScan × World HeapPage) → Prop
  | unreadable {status : Status} : (w.bufPool frame).getRecord scan.curRec = .error status →
      Examined fuel frame scan w (some (status, none, scan, w))
  | matched {rec : Record} : (w.bufPool frame).getRecord scan.curRec = .ok rec →
      scan.matchRec rec = true → Examined fuel frame scan w (some (.ok, some scan.curRec, scan, w))
  | skipped {rec : Record} : (w.bufPool frame).getRecord scan.curRec = .ok rec →
      scan.matchRec rec = false → Examined fuel frame scan w (scanLoop fuel frame scan w)

/-- A turn of the loop on a page it has just pinned in `frame`: examine the page's first record,
or go on from a page without records. -/
inductive Entered (fuel frame : Nat) (scan : HeapFileScan) (w : World HeapPage) :
    Option (Status × Option RID × HeapFileScan × World HeapPage) → Prop
  | first {rid : RID} {result} : (w.bufPool frame).firstRecord = .ok rid →
      Examined fuel frame { scan with curRec := rid } w result → Entered fuel frame scan w result
  | empty {status : Status} : (w.bufPool frame).firstRecord = .error status →
      Entered fuel frame scan w (scanLoop fuel frame scan w)

/-- What one turn of `scanNext`'s loop does: examine the next record of the page; stop at the end
of the list; fail to release the page, or to read the next one (the object then numbers the next
page and keeps the page pointer `readPage` hands back); or move to the next page and examine its
first record, or go on from an empty page. -/
inductive Turn (fuel frame : Nat) (scan : HeapFileScan) (w : World HeapPage) :
    Option (Status × Option RID × HeapFileScan × World HeapPage) → Prop
  | onPage {next : RID} {result} : (w.bufPool frame).nextRecord scan.curRec = .ok next →
      Examined fuel frame { scan with curRec := next } w result → Turn fuel frame scan w result
  | eof {last : Status} : (w.bufPool frame).nextRecord scan.curRec = .error last →
      (w.bufPool frame).getNextPage = -1 → Turn fuel frame scan w (some (.fileEOF, none, scan, w))
  | unreleased {last status : Status} {w₁ : World HeapPage} :
      (w.bufPool frame).nextRecord scan.curRec = .error last → (w.bufPool frame).getNextPage ≠ -1 →
      unPinPage scan.filePtr scan.curPageNo scan.curDirtyFlag w = (status, w₁) → status ≠ .ok →
      Turn fuel frame scan w (some (status, none, scan, w₁))
  | unread {last status : Status} {page : Option Nat} {w₁ w₂ : World HeapPage} :
      (w.bufPool frame).nextRecord scan.curRec = .error last → (w.bufPool frame).getNextPage ≠ -1 →
      unPinPage scan.filePtr scan.curPageNo scan.curDirtyFlag w = (.ok, w₁) →
      readPage scan.filePtr (w.bufPool frame).getNextPage scan.curPage w₁ = (status, page, w₂) →
      (∀ frame', (status, page) ≠ (.ok, some frame')) →
      Turn fuel frame scan w (some (status, none,
        { scan with curPageNo := (w.bufPool frame).getNextPage, curDirtyFlag := false,
                    curPage := page }, w₂))
  | moved {last : Status} {frame' : Nat} {w₁ w₂ : World HeapPage} {result} :
      (w.bufPool frame).nextRecord scan.curRec = .error last → (w.bufPool frame).getNextPage ≠ -1 →
      unPinPage scan.filePtr scan.curPageNo scan.curDirtyFlag w = (.ok, w₁) →
      readPage scan.filePtr (w.bufPool frame).getNextPage scan.curPage w₁ = (.ok, some frame', w₂) →
      Entered fuel frame'
        { scan with curPageNo := (w.bufPool frame).getNextPage, curDirtyFlag := false,
                    curPage := some frame' } w₂ result →
      Turn fuel frame scan w result

/-- The end of a turn on the record `curRec` does one of the three things `Examined` lists. -/
theorem examined_cases (fuel frame : Nat) (scan : HeapFileScan) (w : World HeapPage) :
    Examined fuel frame scan w
      (match (w.bufPool frame).getRecord scan.curRec with
        | .error status => some (status, none, scan, w)
        | .ok rec => if scan.matchRec rec then some (.ok, some scan.curRec, scan, w)
          else scanLoop fuel frame scan w) := by
  cases got : (w.bufPool frame).getRecord scan.curRec with
  | error status => exact .unreadable got
  | ok rec =>
    dsimp only
    cases accepted : scan.matchRec rec
    · exact .skipped got accepted
    · exact .matched got accepted

/-- **One turn of `scanNext`'s loop does one of the things `Turn` lists.** -/
theorem scanLoop_turn (fuel frame : Nat) (scan : HeapFileScan) (w : World HeapPage) :
    Turn fuel frame scan w (scanLoop (fuel + 1) frame scan w) := by
  simp only [scanLoop]
  cases next : (w.bufPool frame).nextRecord scan.curRec with
  | ok next => exact .onPage next (examined_cases _ _ _ _)
  | error last =>
    dsimp only
    split
    · rename_i eof
      exact .eof next eof
    rename_i more
    cases released : unPinPage scan.filePtr scan.curPageNo scan.curDirtyFlag w with
    | mk status w₁ =>
    cases status
    case ok =>
      dsimp only
      cases loaded : readPage scan.filePtr (w.bufPool frame).getNextPage scan.curPage w₁ with
      | mk status' rest =>
      obtain ⟨page, w₂⟩ := rest
      cases status' <;> cases page
      case ok.some frame' =>
        dsimp only
        cases first : (w₂.bufPool frame').firstRecord with
        | ok rid => exact .moved next more released loaded (.first first (examined_cases _ _ _ _))
        | error status => exact .moved next more released loaded (.empty first)
      all_goals exact .unread next more released loaded fun _ same => by cases same
    all_goals exact .unreleased next more released (by decide)

end HeapFileScan

end Minirel
