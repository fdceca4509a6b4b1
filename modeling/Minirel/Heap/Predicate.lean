/-
**The scan predicate `matchRec` against the comparison the spec describes.**

`matchRec` computes in C `int`s: the bound `offset + length - 1` and, for an `INTEGER`, the
difference of the two `int`s wrap at `2 ^ 31` (`int32`). A `STRING` is compared by `strncmp`,
which stops at a `NUL` the two strings share.

* `Accepted` (`startScan_accepted`) — the predicates `startScan` installs.
* `matchRec_reads_within` — **while `offset + length - 1` is an `int`, `matchRec` reads no byte
  outside `[0, rec.length)`**: records of one length that agree there get one answer.
  `wrappedBound_matchRec` — with `offset + length - 1 = 2 ^ 31` the bound wraps to `INT_MIN`:
  two records of length `2` agreeing on both bytes, the attribute wholly past their end, get
  different answers from the byte that follows them.
* `Operator.compares` — `a op f` over the integers; `matchRec_integer` — **an `INTEGER`
  comparison is `a op f` over the integers when `a - f` is an `int`**; `intWrap_matchRec` — else
  it compares the difference wrapped by `2 ^ 32`, and `2147483647 > -1` fails `GT`.
* `memcmp` — the bytewise comparison of all `length` bytes, as the spec states it;
  `matchRec_string` — **a `STRING` comparison is `memcmp`'s when the two strings share no `NUL`
  before their first difference**; `sharedNul_matchRec` — `0, 1` and `0, 2` compare equal.
-/

import Minirel.Heap.Scan

namespace Minirel

/-! ### 32-bit `int` arithmetic -/

theorem int32_eq_self {x : Int} (lo : -2 ^ 31 ≤ x) (hi : x < 2 ^ 31) : int32 x = x := by
  unfold int32
  omega

theorem int32_le_self {x : Int} (lo : -2 ^ 31 ≤ x) : int32 x ≤ x := by
  unfold int32
  omega

theorem int32_wrap {x : Int} (lo : 2 ^ 31 ≤ x) (hi : x < 2 ^ 32 + 2 ^ 31) :
    int32 x = x - 2 ^ 32 := by
  unfold int32
  omega

theorem int32_wrap_neg {x : Int} (lo : -2 ^ 32 - 2 ^ 31 ≤ x) (hi : x < -2 ^ 31) :
    int32 x = x + 2 ^ 32 := by
  unfold int32
  omega

theorem int32_mem (x : Int) : -2 ^ 31 ≤ int32 x ∧ int32 x < 2 ^ 31 := by
  unfold int32
  omega

/-! ### The comparison over the integers -/

/-- `a op f` over the integers: what the spec asks of an `INTEGER` predicate. -/
def Operator.compares (op : Operator) (a f : Int) : Bool :=
  match op with
  | .LT => decide (a < f)
  | .LTE => decide (a ≤ f)
  | .EQ => decide (a = f)
  | .GTE => decide (f ≤ a)
  | .GT => decide (f < a)
  | .NE => decide (a ≠ f)

/-- The sign of `a - f` against `0` is `a op f`. -/
theorem Operator.holdsInt_sub (op : Operator) (a f : Int) : op.holdsInt (a - f) = op.compares a f := by
  cases op <;> simp only [Operator.holdsInt, Operator.compares, decide_eq_decide] <;> omega

/-! ### What the comparison reads -/

/-- Four bytes that agree give one word. -/
theorem word_congr {data data' : List UInt8} {start : Int}
    (agree : ∀ k : Int, 0 ≤ k → k < 4 → byteAt data (start + k) = byteAt data' (start + k)) :
    word data start = word data' start := by
  have b0 := agree 0 (by omega) (by omega)
  rw [Int.add_zero] at b0
  simp only [word, b0, agree 1 (by omega) (by omega), agree 2 (by omega) (by omega),
    agree 3 (by omega) (by omega)]

/-- `strncmp` reads its first string only in its first `n` bytes. -/
theorem strncmp_congr (n : Nat) :
    ∀ {s s' t : Nat → UInt8}, (∀ i < n, s i = s' i) → strncmp s t n = strncmp s' t n := by
  induction n with
  | zero => exact fun _ => rfl
  | succ n ih =>
    intro s s' t agree
    rw [strncmp, strncmp, agree 0 (Nat.succ_pos n),
      ih fun i lt => agree (i + 1) (Nat.succ_lt_succ lt)]

namespace HeapFileScan

/-- The predicates `startScan` installs when it returns `OK`: no filter; or a filter with
`offset >= 0`, `length >= 1`, and four bytes for an `INTEGER` or a `FLOAT`. -/
def Accepted (scan : HeapFileScan) : Prop :=
  scan.filter = none ∨
    (0 ≤ scan.offset ∧ 1 ≤ scan.length ∧ (scan.type ≠ .STRING → scan.length = 4))

/-- **What `startScan` installs when it returns `OK` is an accepted predicate.** -/
theorem startScan_accepted {offset length : Int} {type : Datatype} {filter : Option (List UInt8)}
    {op : Operator} {scan scan' : HeapFileScan}
    (started : startScan offset length type filter op scan = (.ok, scan')) : Accepted scan' := by
  unfold startScan at started
  split at started
  · cases started
    exact .inl rfl
  · split_ifs at started with bad
    · cases started
    obtain ⟨-, rfl⟩ := Prod.mk.inj started
    simp only [not_or, not_and, ne_eq, not_not] at bad
    obtain ⟨offset, length, integer, float⟩ := bad
    refine .inr ⟨Int.not_lt.mp offset, Int.not_lt.mp length, fun notString => ?_⟩
    cases type with
    | STRING => exact absurd rfl notString
    | INTEGER => exact integer rfl
    | FLOAT => exact float rfl

variable {scan : HeapFileScan} {filter : List UInt8} {rec rec' : Record}

/-- A scan that keeps the records whose `int` at offset `0` is greater than `5`. -/
def aboveFive : HeapFileScan :=
  { HeapFile.unassigned with offset := 0, length := 4, type := .INTEGER, filter := some [5, 0, 0, 0],
                             op := .GT, markedPageNo := 0, markedRec := NULLRID }

theorem aboveFive_accepted : Accepted aboveFive := .inr ⟨by decide, by decide, fun _ => rfl⟩

theorem Accepted.params (accepted : Accepted scan) (filtered : scan.filter = some filter) :
    0 ≤ scan.offset ∧ 1 ≤ scan.length ∧ (scan.type ≠ .STRING → scan.length = 4) :=
  accepted.resolve_left (by simp [filtered])

/-- While `offset + length - 1` is an `int`, the bound check is the exact inequality. -/
theorem bound_exact (accepted : Accepted scan) (filtered : scan.filter = some filter)
    (noWrap : scan.offset + scan.length ≤ 2 ^ 31) :
    rec.length ≤ int32 (scan.offset + scan.length - 1) ↔ rec.length < scan.offset + scan.length := by
  obtain ⟨offset, length, -⟩ := accepted.params filtered
  rw [int32_eq_self (by omega) (by omega)]
  omega

/-- An attribute inside the record passes the bound check, wrapped or not. -/
theorem bound_passes (accepted : Accepted scan) (filtered : scan.filter = some filter)
    (fits : scan.offset + scan.length ≤ rec.length) :
    ¬rec.length ≤ int32 (scan.offset + scan.length - 1) := by
  obtain ⟨offset, length, -⟩ := accepted.params filtered
  have := int32_le_self (x := scan.offset + scan.length - 1) (by omega)
  omega

/-- **`matchRec` reads no byte of the record outside `[0, rec.length)`** while
`offset + length - 1` is an `int`: two records of one length that agree on those bytes get one
answer, whatever lies past their end. -/
theorem matchRec_reads_within (accepted : Accepted scan)
    (noWrap : scan.offset + scan.length ≤ 2 ^ 31) (sameLength : rec.length = rec'.length)
    (sameBytes : ∀ i, 0 ≤ i → i < rec.length → byteAt rec.data i = byteAt rec'.data i) :
    scan.matchRec rec = scan.matchRec rec' := by
  cases filtered : scan.filter with
  | none => simp only [matchRec, filtered]
  | some filter =>
    obtain ⟨offset, length, four⟩ := accepted.params filtered
    rw [matchRec, matchRec, filtered, ← sameLength]
    dsimp only
    by_cases past : rec.length ≤ int32 (scan.offset + scan.length - 1)
    · rw [if_pos past, if_pos past]
    rw [if_neg past, if_neg past]
    have inside := (not_congr (bound_exact accepted filtered noWrap)).mp past
    have attr (k : Int) (lo : 0 ≤ k) (lt : k < scan.length) :
        byteAt rec.data (scan.offset + k) = byteAt rec'.data (scan.offset + k) :=
      sameBytes _ (by omega) (by omega)
    cases type : scan.type with
    | STRING =>
      exact congrArg scan.op.holdsInt (strncmp_congr _ fun k lt => attr k (by omega) (by omega))
    | INTEGER =>
      have four := four (by simp [type])
      rw [word_congr fun k lo lt => attr k lo (by omega)]
    | FLOAT =>
      have four := four (by simp [type])
      rw [word_congr fun k lo lt => attr k lo (by omega)]

/-- Two records of length `4` that differ only in the byte after their end get one answer. -/
theorem aboveFive_reads_within :
    aboveFive.matchRec ⟨[9, 0, 0, 0, 1], 4⟩ = aboveFive.matchRec ⟨[9, 0, 0, 0, 2], 4⟩ :=
  matchRec_reads_within aboveFive_accepted (by decide) rfl fun i lo hi => by
    change i < 4 at hi
    obtain rfl | rfl | rfl | rfl : i = 0 ∨ i = 1 ∨ i = 2 ∨ i = 3 := by omega
    all_goals rfl

/-- The bytes `7, 7` with `1` past their end, as memory holds them after a two-byte record. -/
def spilled : Record := ⟨[7, 7, 1], 2⟩

/-- With `offset = 2` and `length = 2147483647`, `offset + length - 1` wraps to `INT_MIN`, below
every record length: the records `7, 7` of length `2`, whose attribute starts at their end,
pass the bound, and the one followed by a `1` is told from the one followed by a `0`. -/
theorem wrappedBound_matchRec (scan : HeapFileScan) :
    (startScan 2 2147483647 .STRING (some [0]) .EQ scan).1 = .ok ∧
      (startScan 2 2147483647 .STRING (some [0]) .EQ scan).2.matchRec ⟨[7, 7], 2⟩ = true ∧
      (startScan 2 2147483647 .STRING (some [0]) .EQ scan).2.matchRec spilled = false :=
  ⟨rfl, rfl, rfl⟩

/-! ### `INTEGER` -/

/-- An accepted `INTEGER` predicate on a record that holds the attribute compares the `int`
difference of the two `int`s. -/
theorem matchRec_integer_diff (accepted : Accepted scan) (filtered : scan.filter = some filter)
    (integer : scan.type = .INTEGER) (fits : scan.offset + 4 ≤ rec.length) :
    scan.matchRec rec =
      scan.op.holdsInt (int32 (int32 (word rec.data scan.offset) - int32 (word filter 0))) := by
  have four := (accepted.params filtered).2.2 (by simp [integer])
  rw [matchRec, filtered]
  dsimp only
  rw [if_neg (bound_passes accepted filtered (by omega)), integer]

/-- **An accepted `INTEGER` predicate compares the record's `int` `a` with the filter's `int` `f`
as `a op f` over the integers** whenever `a - f` is an `int`. -/
theorem matchRec_integer (accepted : Accepted scan) (filtered : scan.filter = some filter)
    (integer : scan.type = .INTEGER) (fits : scan.offset + 4 ≤ rec.length)
    (lo : -2 ^ 31 ≤ int32 (word rec.data scan.offset) - int32 (word filter 0))
    (hi : int32 (word rec.data scan.offset) - int32 (word filter 0) < 2 ^ 31) :
    scan.matchRec rec = scan.op.compares (int32 (word rec.data scan.offset)) (int32 (word filter 0)) := by
  rw [matchRec_integer_diff accepted filtered integer fits, int32_eq_self lo hi, Operator.holdsInt_sub]

/-- The record's `int` `9` against the filter's `5`: `GT` holds, as `9 > 5`. -/
theorem aboveFive_integer :
    aboveFive.matchRec ⟨[9, 0, 0, 0], 4⟩ = Operator.GT.compares 9 5 :=
  (matchRec_integer aboveFive_accepted rfl rfl (by decide) (by decide) (by decide)).trans
    (by decide)

/-- **Past the `int` range the difference wraps**: an accepted `INTEGER` predicate compares
`a - f - 2 ^ 32` when `a - f ≥ 2 ^ 31`, negative although `a > f`, and `a - f + 2 ^ 32` when
`a - f < -2 ^ 31`, positive although `a < f`. The record's `int` `2147483647` against the
filter's `-1`: `GT` rejects the record, though `2147483647 > -1`, as the difference `2147483648`
wraps to `INT_MIN`. -/
theorem intWrap_matchRec :
    (∀ (scan : HeapFileScan) (filter : List UInt8) (rec : Record), Accepted scan →
      scan.filter = some filter → scan.type = .INTEGER → scan.offset + 4 ≤ rec.length →
      (2 ^ 31 ≤ int32 (word rec.data scan.offset) - int32 (word filter 0) →
        scan.matchRec rec =
          scan.op.holdsInt (int32 (word rec.data scan.offset) - int32 (word filter 0) - 2 ^ 32)) ∧
      (int32 (word rec.data scan.offset) - int32 (word filter 0) < -2 ^ 31 →
        scan.matchRec rec =
          scan.op.holdsInt (int32 (word rec.data scan.offset) - int32 (word filter 0) + 2 ^ 32))) ∧
    ∀ scan : HeapFileScan,
      (startScan 0 4 .INTEGER (some [255, 255, 255, 255]) .GT scan).1 = .ok ∧
        int32 (word [255, 255, 255, 127] 0) = 2147483647 ∧ int32 (word [255, 255, 255, 255] 0) = -1 ∧
        Operator.GT.compares 2147483647 (-1) = true ∧
        (startScan 0 4 .INTEGER (some [255, 255, 255, 255]) .GT scan).2.matchRec
          ⟨[255, 255, 255, 127], 4⟩ = false := by
  refine ⟨fun scan filter rec accepted filtered integer fits => ?_, fun scan =>
    ⟨rfl, rfl, rfl, rfl, by simp [startScan, matchRec, int32, word, byteAt, Operator.holdsInt]⟩⟩
  have a := int32_mem (word rec.data scan.offset)
  have f := int32_mem (word filter 0)
  rw [matchRec_integer_diff accepted filtered integer fits]
  exact ⟨fun over => by rw [int32_wrap over (by omega)],
    fun under => by rw [int32_wrap_neg (by omega) under]⟩

/-! ### `STRING` -/

/-- `memcmp(s, t, n)`, the comparison the spec names: the difference of the first differing
bytes among all `n`, read on past a `NUL`. -/
def memcmp (s t : Nat → UInt8) : Nat → Int
  | 0 => 0
  | n + 1 =>
    if s 0 ≠ t 0 then (s 0).toNat - (t 0).toNat
    else memcmp (fun i => s (i + 1)) (fun i => t (i + 1)) n

/-- **`strncmp` is `memcmp` when the strings share no `NUL` before their first difference.** -/
theorem strncmp_eq_memcmp (n : Nat) :
    ∀ {s t : Nat → UInt8}, (∀ i < n, (∀ j < i, s j = t j) → s i = t i → s i ≠ 0) →
      strncmp s t n = memcmp s t n := by
  induction n with
  | zero => exact fun _ => rfl
  | succ n ih =>
    intro s t noNul
    rw [strncmp, memcmp]
    by_cases same : s 0 = t 0
    · have named : s 0 ≠ 0 := noNul 0 (Nat.succ_pos n) (fun _ lt => absurd lt (Nat.not_lt_zero _)) same
      rw [if_neg (not_not.mpr same), if_neg (not_not.mpr same), if_neg named]
      refine ih fun i lt agree => noNul (i + 1) (by omega) fun j lt' => ?_
      cases j with
      | zero => exact same
      | succ j => exact agree j (by omega)
    · rw [if_pos same, if_pos same]

/-- **An accepted `STRING` predicate on a record that holds the attribute is `memcmp`'s
comparison of all `length` bytes**, as long as the attribute and the filter share no `NUL` before
their first difference. -/
theorem matchRec_string (accepted : Accepted scan) (filtered : scan.filter = some filter)
    (string : scan.type = .STRING) (fits : scan.offset + scan.length ≤ rec.length)
    (noNul : ∀ i < scan.length.toNat,
      (∀ j < i, byteAt rec.data (scan.offset + j) = byteAt filter j) →
        byteAt rec.data (scan.offset + i) = byteAt filter i → byteAt rec.data (scan.offset + i) ≠ 0) :
    scan.matchRec rec = scan.op.holdsInt (memcmp (fun i => byteAt rec.data (scan.offset + i))
      (fun i => byteAt filter i) scan.length.toNat) := by
  rw [matchRec, filtered]
  dsimp only
  rw [if_neg (bound_passes accepted filtered fits), string]
  exact congrArg scan.op.holdsInt (strncmp_eq_memcmp _ noNul)

/-- The attribute `1, 3` against the filter `1, 2`, started as a `STRING` predicate: they differ at
byte `1` with no `NUL` before, and `EQ` compares `memcmp`'s `-1` with `0`. -/
theorem oneTwo_matchRec_string :
    (startScan 0 2 .STRING (some [1, 2]) .EQ aboveFive).2.matchRec ⟨[1, 3], 2⟩ =
      Operator.EQ.holdsInt (memcmp (fun i => byteAt [1, 3] (0 + i)) (fun i => byteAt [1, 2] i) 2) :=
  matchRec_string
    (startScan_accepted (show startScan 0 2 .STRING (some [1, 2]) .EQ aboveFive = (.ok, _) from rfl))
    rfl rfl (by decide) (by decide)

/-- The attribute `0, 1` and the filter `0, 2` share the `NUL` at byte `0`: `strncmp` stops there
and `EQ` accepts the record, while `memcmp` of the two bytes is `-1`, which `EQ` rejects. -/
theorem sharedNul_matchRec :
    (startScan 0 2 .STRING (some [0, 2]) .EQ aboveFive).1 = .ok ∧
      (startScan 0 2 .STRING (some [0, 2]) .EQ aboveFive).2.matchRec ⟨[0, 1], 2⟩ = true ∧
      memcmp (fun i => byteAt [0, 1] (0 + i)) (fun i => byteAt [0, 2] i) 2 = -1 ∧
      Operator.EQ.holdsInt (memcmp (fun i => byteAt [0, 1] (0 + i)) (fun i => byteAt [0, 2] i) 2) =
        false :=
  ⟨rfl, rfl, by decide, by decide⟩

end HeapFileScan

end Minirel
