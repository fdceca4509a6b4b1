/-
**Marking a scan and going back to the mark.**

`markScan()` remembers the cursor's page and record; `resetScan()` goes back to them, reading the
marked page again when the cursor has left it.

* `HeapFileScan.resetScan_placed` — **a `resetScan()` that returns `OK` puts the scan back where
  it stood at the mark**: on the marked page, with the same records and pages ahead.
* `HeapFileScan.twoScans_replay` — **after a mark, calls of `scanNext` and a reset that returns
  `OK`, the calls of `scanNext` return what those after the mark returned**, the records the
  predicate accepts ahead of the mark, up to a call that fails; the cursor is back on the marked
  page, and every page's pins are as at the mark. Such a failure need not come from the store:
  with another scan open on the file and three frames, `allocBuf` returns `BUFFEREXCEEDED` after
  the reset though a frame is unpinned, as it counts visits to pinned frames.
-/

import Minirel.Heap.ScanOrder

namespace Minirel

open World BufMgr

/-! ### Back on a page -/

/-- What a cell holds is its content: it holds one page's bytes. -/
theorem Cell.Holds.unique {Page : Type} {bytes bytes' : Page} {cell : Cell Page}
    (holds : Cell.Holds bytes cell) (holds' : Cell.Holds bytes' cell) : bytes = bytes' :=
  Option.some.inj (holds.content.symm.trans holds'.content)

/-- Standing on a page is a matter of what the pages hold: in a world that keeps what every page
held, a frame indexed for the page and holding the bytes it held stands on it as before. -/
theorem OnPage.transport {w₀ w : World HeapPage} {file : Option FileId} {pageNo : Int}
    {frame₀ frame : Nat} {pages : List Int} {records : List (RID × Record)}
    (standing : OnPage w₀ file pageNo frame₀ pages records) (keeps : Keeps w₀ w) (agree : Agree w)
    (indexed : w.hashTable.frameOf (file, pageNo) = some frame)
    (same : w.bufPool frame = w₀.bufPool frame₀) : OnPage w file pageNo frame pages records :=
  ⟨agree, indexed, same ▸ keeps _ _ standing.current,
    fun p mem => (standing.ahead p mem).imp fun _ => keeps _ _,
    same ▸ standing.chain.of_keeps standing.ahead keeps⟩

namespace HeapFileScan

/-- Calls none of which failed return what was expected. -/
theorem Follows.eq_of_succeeded {results expected : List (Status × Option RID)}
    (follows : Follows results expected) (succeeded : Succeeded results) : results = expected := by
  induction follows with
  | nil => rfl
  | cons _ ih => exact congrArg _ (ih fun result mem => succeeded result (List.mem_cons_of_mem _ mem))
  | failed failed unreported =>
    rcases succeeded _ (List.mem_singleton_self _) with ok | eof
    · exact absurd ok failed
    · exact absurd eof unreported

/-- Calls of `scanNext` none of which fails keep the pool in step. -/
theorem scanNexts_tracks (fuel count : Nat) :
    ∀ {scan : HeapFileScan} {w : World HeapPage} {results : List (Status × Option RID)}
      {scan' : HeapFileScan} {w' : World HeapPage}, Agree w →
      scanNexts fuel count scan w = some (results, scan', w') → Succeeded results →
      Agree w' ∧ HeapFile.Tracks w w' scan.toHeapFile scan'.toHeapFile := by
  induction count with
  | zero =>
    intro scan w results scan' w' agree ran _
    cases ran
    exact ⟨agree, fun _ => rfl⟩
  | succ count ih =>
    intro scan w results scan' w' agree ran succeeded
    unfold scanNexts at ran
    split at ran
    · cases ran
    · rename_i status rid scan₁ w₁ first
      split_ifs at ran with reported
      · obtain ⟨⟨results', scan'', w''⟩, rest, same⟩ := Option.map_eq_some'.mp ran
        cases same
        obtain ⟨agree₁, -, step⟩ := scanNext_tracks agree fuel first reported
        obtain ⟨agree', rest'⟩ :=
          ih agree₁ rest fun result mem => succeeded result (List.mem_cons_of_mem _ mem)
        exact ⟨agree', step.trans rest'⟩
      · cases ran
        exact absurd (succeeded _ (List.mem_singleton_self _)) reported

/-- **A `resetScan` that returns `OK` puts the scan back where it stood at its mark**, on the marked
page with the same pages and records ahead, when the scan has moved only its cursor since the mark
and every page has kept what it held. -/
theorem resetScan_placed {w₀ w w' : World HeapPage} {marked scan scan' : HeapFileScan}
    {frame₀ frame : Nat} {pages₀ pages : List Int} {rest₀ rest : List (RID × Record)}
    (mark : Placed w₀ marked frame₀ pages₀ rest₀) (cursor : CursorOnly marked.markScan scan)
    (placed : Placed w scan frame pages rest) (keeps : Keeps w₀ w)
    (reset : scan.resetScan w = (.ok, scan', w')) :
    ∃ frame', CursorOnly marked.markScan scan' ∧ Placed w' scan' frame' pages₀ rest₀ ∧
      scan'.curPageNo = marked.curPageNo ∧ Keeps w w' := by
  obtain ⟨file, -, markedPageNo, markedRec⟩ : scan.filePtr = marked.filePtr ∧ _ ∧
      scan.markedPageNo = marked.curPageNo ∧ scan.markedRec = marked.curRec := cursor.fixed
  obtain ⟨-, records₀, standing₀, rfl⟩ := mark
  obtain ⟨current, records, standing, -⟩ := placed
  have held := keeps _ _ standing₀.current
  unfold resetScan at reset
  split_ifs at reset with moved
  · rw [current] at reset
    dsimp only at reset
    split at reset
    · rename_i w₁ released
      have unpinned : (unPinPage scan.filePtr scan.curPageNo scan.curDirtyFlag w).2 = w₁ :=
        congrArg Prod.snd released
      have agree₁ : Agree w₁ := unpinned ▸ standing.agree.unPinPage _ _ _
      have keep₁ : Keeps w w₁ := fun key bytes holds =>
        unpinned ▸ unPinPage_holds standing.agree _ _ _ holds
      split at reset
      · rename_i page w₂ read
        cases reset
        obtain ⟨frame', handed⟩ := readPage_ok_frame agree₁ (by rw [read])
        rw [read] at handed
        cases handed
        obtain ⟨loaded, keep₂⟩ := readPage_ok_holds agree₁ read
        rw [file, markedPageNo] at loaded read
        have agree₂ := agree₁.readPage marked.filePtr marked.curPageNo (some frame)
        rw [read] at agree₂
        have same : w'.bufPool frame' = w₀.bufPool frame₀ :=
          Option.some.inj (loaded.trans (keep₁ _ _ held).content)
        refine ⟨frame', cursor.trans (by exact rfl), ⟨rfl, records₀, ?_, ?_⟩, markedPageNo,
          keep₁.trans keep₂⟩
        · dsimp only
          rw [file, markedPageNo]
          exact standing₀.transport (keeps.trans (keep₁.trans keep₂)) agree₂
            (readPage_ok_indexed agree₁ read) same
        · dsimp only
          rw [same, markedRec]
      · rename_i status page w₂ failed read
        cases reset
        exact absurd rfl failed
    · rename_i status w₁ failed released
      cases reset
      exact absurd rfl failed
  · cases reset
    have onPage : scan.curPageNo = marked.curPageNo := (not_not.mp moved).symm.trans markedPageNo
    rw [file, onPage] at standing
    refine ⟨frame, cursor.trans (by exact rfl), ⟨current, records₀, ?_, ?_⟩, onPage, Keeps.refl w⟩
    · dsimp only
      rw [file, onPage]
      exact standing₀.transport keeps standing.agree standing.indexed
        (standing.current.unique held)
    · dsimp only
      rw [standing.current.unique held, markedRec]

/-! ### A replay that fails -/

/-- Two scans open on the file of `storedWorld 3 3`, each pinning the header and page `1`: the
second, started without a filter, is marked after its first call, moved by two more and reset,
then called twice more. What its calls return, the reset's status, and the pins of the three
frames after the reset. -/
def twoScans : Option (List (Status × Option RID) × List (Status × Option RID) × Status ×
    List Int × List (Status × Option RID)) := do
  let (_, _, w) := construct storedCatalog "heap" (storedWorld 3 3)
  let (_, scan, w) := construct storedCatalog "heap" w
  let (_, scan) := scan.startScan 0 0 .STRING none .EQ
  let (before, scan, w) ← scanNexts 6 1 scan w
  let (between, scan, w) ← scanNexts 6 2 scan.markScan w
  let (reset, scan, w) := scan.resetScan w
  let (after, _, _) ← scanNexts 6 2 scan w
  pure (before, between, reset, (List.range 3).map fun i => (w.bufTable i).pinCnt, after)

/-- **`markScan()`, calls of `scanNext`, and a `resetScan()` that returns `OK`: the calls of
`scanNext` after the reset return what those after the mark returned**, for a scan opened with
`OK`, started, and moved by `j` calls of `scanNext` that all reported `OK` or `FILEEOF`. Ahead of
the mark are the records the predicate accepts, less the first `j`. The `k` calls after the mark,
none failing, returned them (`answers`); from the reset, any number of calls return them again, up
to one that fails with another status. The reset leaves the cursor on the marked page, pinned in
the frame the index gives for it, and every page's pins as they were at the mark. The header and
the pages of the list hold what their readers get (`Cell.Holds`), and the fuel covers the list's
records and pages.

The failing call may come after the reset where the calls after the mark had none, with no
failure of the store: on `twoScans` the two calls after the mark return `(2, 0)` and `(3, 0)`,
the reset returns `OK` with frame `2` unpinned, and the first call after it returns
`BUFFEREXCEEDED`. -/
theorem twoScans_replay :
    (∀ (db : Db) (fileName : String) (w₀ w₁ w₂ w₃ w₄ : World HeapPage)
        (scan₀ scan₂ scan₃ scan₄ : HeapFileScan) (hdr : HeapPage) (pages : List Int)
        (records : List (RID × Record)) (offset length : Int) (type : Datatype)
        (filter : Option (List UInt8)) (op : Operator) (fuel j k : Nat)
        (before between : List (Status × Option RID)), Agree w₀ →
      construct db fileName w₀ = (.ok, scan₀, w₁) →
      Cell.Holds hdr (cellOf w₀ (scan₀.filePtr, scan₀.headerPageNo)) →
      Chain w₀ scan₀.filePtr hdr.firstPage pages records → hdr.firstPage ≠ -1 →
      (∀ p ∈ pages, ∃ bytes, Cell.Holds bytes (cellOf w₀ (scan₀.filePtr, p))) →
      records.length + pages.length ≤ fuel →
      scanNexts fuel j (scan₀.startScan offset length type filter op).2 w₁ =
        some (before, scan₂, w₂) → Succeeded before →
      scanNexts fuel k scan₂.markScan w₂ = some (between, scan₃, w₃) → Succeeded between →
      scan₃.resetScan w₃ = (.ok, scan₄, w₄) →
      between = answers
          ((accepted (scan₀.startScan offset length type filter op).2.matchRec records).drop j) k ∧
        (∀ count, ∃ results scan₅ w₅, scanNexts fuel count scan₄ w₄ = some (results, scan₅, w₅) ∧
          Follows results (answers
            ((accepted (scan₀.startScan offset length type filter op).2.matchRec records).drop j)
            count)) ∧
        scan₄.curPageNo = scan₂.curPageNo ∧
        (∃ frame, scan₄.curPage = some frame ∧
          w₄.hashTable.frameOf (scan₄.filePtr, scan₂.curPageNo) = some frame) ∧
        ∀ key, pinsOf w₄ key = pinsOf w₂ key) ∧
    twoScans = some ([(.ok, some ⟨1, 0⟩)], [(.ok, some ⟨2, 0⟩), (.ok, some ⟨3, 0⟩)], .ok,
      [2, 2, 0], [(.bufferExceeded, none)]) := by
  refine ⟨fun db fileName w₀ w₁ w₂ w₃ w₄ scan₀ scan₂ scan₃ scan₄ hdr pages records offset length
    type filter op fuel j k before between agree opened header chain first held enough scanned
    scannedOk stepped steppedOk reset => ?_, rfl⟩
  obtain ⟨frame₁, pages₁, rfl, placed₁⟩ := construct_placed agree opened header chain first held
  simp only [List.length_cons] at enough
  obtain ⟨results, scan₂', w₂', ran, -, settled⟩ := scanNexts_follows fuel j
    (placed₁.of_toHeapFile (startScan_toHeapFile offset length type filter op scan₀)) (by omega)
  rw [scanned] at ran
  obtain ⟨rfl, rfl, rfl⟩ : before = results ∧ scan₂ = scan₂' ∧ w₂ = w₂' := by simpa using ran
  obtain ⟨-, -, frame₂, pages₂, rest₂, placed₂, fits₂, ahead⟩ := settled scannedOk
  obtain ⟨results', scan₃', w₃', ran', follows, settled'⟩ :=
    scanNexts_follows fuel k (placed₂.of_toHeapFile rfl : Placed w₂ scan₂.markScan _ _ _) fits₂
  rw [stepped] at ran'
  obtain ⟨rfl, rfl, rfl⟩ : between = results' ∧ scan₃ = scan₃' ∧ w₃ = w₃' := by simpa using ran'
  obtain ⟨cursor₃, keeps₃, frame₃, pages₃, rest₃, placed₃, -⟩ := settled' steppedOk
  obtain ⟨frame₄, cursor₄, placed₄, onMark, -⟩ :=
    resetScan_placed placed₂ cursor₃ placed₃ keeps₃ reset
  obtain ⟨cur₂, records₂, standing₂, -⟩ := placed₂
  obtain ⟨cur₃, records₃, standing₃, -⟩ := placed₃
  obtain ⟨-, tracks₃⟩ := scanNexts_tracks fuel k standing₂.agree stepped steppedOk
  obtain ⟨-, tracks₄⟩ := resetScan_tracks standing₃.agree scan₃ reset (.inl rfl)
  -- the records ahead of the mark are those the predicate accepts, less the first `j`
  have marked : accepted scan₂.markScan.matchRec rest₂ = _ := ahead
  refine ⟨marked ▸ follows.eq_of_succeeded steppedOk, fun count => ?_, onMark,
    ⟨frame₄, placed₄.1, ?_⟩, fun key => ?_⟩
  · obtain ⟨results, scan₅, w₅, ran, follows, -⟩ := scanNexts_follows fuel count placed₄ fits₂
    exact ⟨results, scan₅, w₅, ran, marked ▸ cursor₄.matchRec ▸ follows⟩
  · obtain ⟨-, records₄, standing₄, -⟩ := placed₄
    exact onMark ▸ standing₄.indexed
  · obtain ⟨file, header, -, -⟩ : scan₄.filePtr = scan₂.filePtr ∧
        scan₄.headerPageNo = scan₂.headerPageNo ∧ _ ∧ _ := cursor₄.fixed
    have moved := (tracks₃.trans tracks₄) key
    change _ - HeapFile.held scan₄.toHeapFile key = _ - HeapFile.held scan₂.toHeapFile key at moved
    unfold HeapFile.held at moved
    simp only [file, header, onMark, placed₄.1, cur₂, Option.isSome_some, true_and] at moved
    omega

end HeapFileScan

end Minirel
