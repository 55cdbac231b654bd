import Shawk.Text
import Mathlib.Data.Nat.Digits

/-!
# Go numerals: `strconv`, `encoding/hex` and decimal formatting

The probe turns numerals of kernel text into numbers with `strconv.ParseUint`,
`strconv.ParseInt` and `strconv.Atoi`, turns hex into bytes with `hex.DecodeString`, and
prints numbers with `fmt.Sprintf("%d", …)`, which is Lean's `Nat.repr`.

The parsers are modelled on their loops, since the probe reads their value even on error
(`ParseUint` returns the largest value with a range error) and since a range error can stop
the loop before a later syntax error.  Each parser returns Go's pair of value and error.
-/

namespace Shawk.Go

/-! ### `strconv.ParseUint` and `strconv.ParseInt` -/

/-- The `strconv.NumError` kinds: `ErrSyntax` and `ErrRange`. -/
inductive NumError
  | invalid
  | outOfRange
deriving DecidableEq, Repr

/-- `lower(c)` of `strconv`: the code with bit 0x20 set, which lower-cases ASCII letters. -/
def lower (c : Char) : Nat := c.toNat ||| 0x20

theorem char_le_iff {a b : Char} : a ≤ b ↔ a.toNat ≤ b.toNat := Iff.rfl

/-- The digit a character stands for in `ParseUint`'s loop: `0`–`9`, then the letters from
    10 on; `none` is the loop's syntax error. -/
def digitVal (c : Char) : Option Nat :=
  if '0' ≤ c ∧ c ≤ '9' then some (c.toNat - '0'.toNat)
  else if 'a'.toNat ≤ lower c ∧ lower c ≤ 'z'.toNat then some (lower c - 'a'.toNat + 10)
  else none

/-- The digit loop of `ParseUint`: `_` is skipped when the base came from a prefix, a
    non-digit or a digit not below `base` is a syntax error with value 0, and a value past
    `maxVal` stops the loop with a range error and value `maxVal`.  Returns the value, the
    error, and whether an underscore was skipped. -/
def digitLoop (base maxVal : Nat) (base0 : Bool) :
    Nat → Bool → List Char → Nat × Option NumError × Bool
  | n, us, [] => (n, none, us)
  | n, us, c :: cs =>
    if c = '_' ∧ base0 = true then digitLoop base maxVal base0 n true cs
    else match digitVal c with
      | none => (0, some .invalid, us)
      | some d =>
        if base ≤ d then (0, some .invalid, us)
        else if maxVal < n * base + d then (maxVal, some .outOfRange, us)
        else digitLoop base maxVal base0 (n * base + d) us cs

/-- What `underscoreOK` last saw: the start, a digit or base prefix, an underscore, or
    anything else. -/
inductive Saw
  | start
  | digit
  | underscore
  | other
deriving DecidableEq, Repr

/-- The loop of `underscoreOK` over the number proper; `none` is an early `false`. -/
def underscoreLoop (hex : Bool) : Saw → List Char → Option Saw
  | saw, [] => some saw
  | saw, c :: cs =>
    if ('0' ≤ c ∧ c ≤ '9') ∨ (hex = true ∧ 'a'.toNat ≤ lower c ∧ lower c ≤ 'f'.toNat) then
      underscoreLoop hex .digit cs
    else if c = '_' then
      if saw = .digit then underscoreLoop hex .underscore cs else none
    else if saw = .underscore then none
    else underscoreLoop hex .other cs

/-- `underscoreOK`: underscores appear only between digits, or between a base prefix and a
    digit, after an optional sign. -/
def underscoreOK (s : List Char) : Bool :=
  let s := match s with
    | '-' :: r => r
    | '+' :: r => r
    | s => s
  let start : Bool × Saw × List Char := match s with
    | '0' :: c :: r =>
      if lower c = 'b'.toNat ∨ lower c = 'o'.toNat ∨ lower c = 'x'.toNat then
        (decide (lower c = 'x'.toNat), .digit, r)
      else (false, .start, s)
    | s => (false, .start, s)
  match underscoreLoop start.1 start.2.1 start.2.2 with
  | some saw => saw != .underscore
  | none => false

/-- The base `ParseUint` reads from the prefix of a base-0 numeral, and the digits after it. -/
def basePrefix : List Char → Nat × List Char
  | '0' :: c :: d :: r =>
    if lower c = 'b'.toNat then (2, d :: r)
    else if lower c = 'o'.toNat then (8, d :: r)
    else if lower c = 'x'.toNat then (16, d :: r)
    else (8, c :: d :: r)
  | '0' :: r => (8, r)
  | s => (10, s)

/-- `strconv.ParseUint(s, base, bitSize)` for base 0 or 2–36 and bitSize 1–64. -/
def parseUint (s : List Char) (base bitSize : Nat) : Nat × Option NumError :=
  if s = [] then (0, some .invalid) else
  let start := if base = 0 then basePrefix s else (base, s)
  match digitLoop start.1 (2 ^ bitSize - 1) (base == 0) 0 false start.2 with
  | (n, some e, _) => (n, some e)
  | (n, none, us) => if us = true ∧ underscoreOK s = false then (0, some .invalid) else (n, none)

/-- `strconv.ParseInt(s, base, bitSize)`: an optional sign, `ParseUint` on the rest, then the
    signed range check. -/
def parseInt (s : List Char) (base bitSize : Nat) : Int × Option NumError :=
  match s with
  | [] => (0, some .invalid)
  | c :: r =>
  let signed : Bool × List Char :=
    if c = '+' then (false, r) else if c = '-' then (true, r) else (false, c :: r)
  match parseUint signed.2 base bitSize with
  | (_, some .invalid) => (0, some .invalid)
  | (un, _) =>
    let cutoff := 2 ^ (bitSize - 1)
    if signed.1 = false ∧ cutoff ≤ un then (cutoff - 1, some .outOfRange)
    else if signed.1 = true ∧ cutoff < un then (-cutoff, some .outOfRange)
    else (if signed.1 then -(un : Int) else un, none)

/-- `ParseUint` succeeds exactly when the string is not empty, the digit loop from the base
    prefix ends without error, and any underscore it skipped is well placed. -/
theorem parseUint_eq_ok_iff {s : List Char} {base bitSize n : Nat} :
    parseUint s base bitSize = (n, none) ↔ s ≠ [] ∧ ∃ us,
      digitLoop (if base = 0 then basePrefix s else (base, s)).1 (2 ^ bitSize - 1) (base == 0) 0
          false (if base = 0 then basePrefix s else (base, s)).2 = (n, none, us) ∧
        (us = true → underscoreOK s = true) := by
  unfold parseUint
  by_cases hs : s = []
  · simp [hs]
  · simp only [hs, if_false, ne_eq, not_false_eq_true, true_and]
    generalize (if base = 0 then basePrefix s else (base, s)) = start
    rcases digitLoop start.1 (2 ^ bitSize - 1) (base == 0) 0 false start.2 with ⟨v, _ | e, us⟩
    · by_cases hu : us = true ∧ underscoreOK s = false
      · simp [hu]
      · simp only [hu, if_false, Prod.mk.injEq, and_true, exists_eq_right']
        cases us <;> simp_all
    · simp

/-- A range error of the digit loop carries `maxVal`. -/
theorem digitLoop_outOfRange {base maxVal : Nat} {base0 : Bool} {n : Nat} {us : Bool}
    {p : List Char} {v : Nat} {us' : Bool}
    (h : digitLoop base maxVal base0 n us p = (v, some .outOfRange, us')) : v = maxVal := by
  induction n, us, p using digitLoop.induct base maxVal base0 with
  | case1 => simp [digitLoop] at h
  | case2 n us c cs hu ih => rw [digitLoop, if_pos hu] at h; exact ih h
  | case3 n us c cs hu hd => simp [digitLoop, hu, hd] at h
  | case4 n us c cs hu d hd hb => simp [digitLoop, hu, hd, hb] at h
  | case5 n us c cs hu d hd hb hM => simp [digitLoop, hu, hd, hb, hM] at h; exact h.1.symm
  | case6 n us c cs hu d hd hb hM ih =>
    rw [digitLoop, if_neg hu, hd] at h
    simp only [if_neg hb, if_neg hM] at h
    exact ih h

/-- A range error of `ParseUint` carries the largest value of the bit size. -/
theorem parseUint_outOfRange {s : List Char} {base bitSize v : Nat}
    (h : parseUint s base bitSize = (v, some .outOfRange)) : v = 2 ^ bitSize - 1 := by
  unfold parseUint at h
  split at h
  · cases h
  · dsimp only at h
    generalize (if base = 0 then basePrefix s else (base, s)) = start at h
    rcases hd : digitLoop start.1 (2 ^ bitSize - 1) (base == 0) 0 false start.2 with
      ⟨n, _ | e, us⟩ <;> simp only [hd] at h
    · split at h <;> cases h
    · cases h
      exact digitLoop_outOfRange hd

/-- `ParseInt` of a numeral without a sign succeeds exactly when `ParseUint` does, below the
    signed cutoff. -/
theorem parseInt_eq_ok_iff {c : Char} {r : List Char} {base bitSize : Nat} {v : Int}
    (hc : c ≠ '+' ∧ c ≠ '-') (hbits : 0 < bitSize) :
    parseInt (c :: r) base bitSize = (v, none) ↔
      ∃ n : Nat, parseUint (c :: r) base bitSize = (n, none) ∧ n < 2 ^ (bitSize - 1) ∧ v = n := by
  have hcut : 2 ^ (bitSize - 1) ≤ 2 ^ bitSize - 1 := by
    have := Nat.pow_lt_pow_right (show 1 < 2 by decide) (show bitSize - 1 < bitSize by omega)
    omega
  simp only [parseInt, if_neg hc.1, if_neg hc.2]
  rcases hu : parseUint (c :: r) base bitSize with ⟨n, _ | _ | _⟩
  · by_cases hn : 2 ^ (bitSize - 1) ≤ n
    · simp [hn]
    · simpa [hn, eq_comm] using fun _ => Nat.lt_of_not_le hn
  · simp
  · have hn : 2 ^ (bitSize - 1) ≤ n := parseUint_outOfRange hu ▸ hcut
    simp [hn]

/-- `strconv.Atoi` on a 64-bit platform: `ParseInt(s, 10, 64)` (its fast path for short
    numerals gives the same results). -/
def atoi (s : List Char) : Option Int :=
  match parseInt s 10 64 with
  | (n, none) => some n
  | _ => none

/-! ### `hex.DecodeString` -/

/-- `reverseHexTable` of `encoding/hex`: the value of a hex digit of either case. -/
def fromHexChar (c : Char) : Option Nat :=
  if '0' ≤ c ∧ c ≤ '9' then some (c.toNat - '0'.toNat)
  else if 'a' ≤ c ∧ c ≤ 'f' then some (c.toNat - 'a'.toNat + 10)
  else if 'A' ≤ c ∧ c ≤ 'F' then some (c.toNat - 'A'.toNat + 10)
  else none

/-- `hex.DecodeString`: two digits a byte, high digit first; an invalid digit or an odd
    length is an error (`none`). -/
def decodeHex : List Char → Option (List UInt8)
  | [] => some []
  | [_] => none
  | a :: b :: rest => do
    let x ← fromHexChar a
    let y ← fromHexChar b
    let bs ← decodeHex rest
    pure ((x * 16 + y).toUInt8 :: bs)

/-! ### Decimal numerals: `fmt.Sprintf("%d", n)` is `Nat.repr n` -/

theorem toDigitsCore_append (fuel n : Nat) (ds es : List Char) :
    Nat.toDigitsCore 10 fuel n (ds ++ es) = Nat.toDigitsCore 10 fuel n ds ++ es := by
  induction fuel generalizing n ds with
  | zero => rfl
  | succ fuel ih =>
    simp only [Nat.toDigitsCore]
    split
    · rfl
    · exact ih _ (_ :: ds)

theorem toDigitsCore_fuel : ∀ (fuel fuel' n : Nat) (ds : List Char), n < fuel → n < fuel' →
    Nat.toDigitsCore 10 fuel n ds = Nat.toDigitsCore 10 fuel' n ds
  | 0, _, _, _, h, _ => absurd h (Nat.not_lt_zero _)
  | _ + 1, 0, _, _, _, h => absurd h (Nat.not_lt_zero _)
  | fuel + 1, fuel' + 1, n, ds, h, h' => by
    simp only [Nat.toDigitsCore]
    split
    · rfl
    · exact toDigitsCore_fuel fuel fuel' _ _ (by omega) (by omega)

/-- The last digit of a decimal numeral, after the numeral of the rest. -/
theorem toDigits_ten (n : Nat) :
    Nat.toDigits 10 n =
      (if n < 10 then [] else Nat.toDigits 10 (n / 10)) ++ [Nat.digitChar (n % 10)] := by
  show Nat.toDigitsCore 10 (n + 1) n [] = _
  rw [Nat.toDigitsCore]
  split
  · rw [if_pos (by omega)]; rfl
  · rw [if_neg (by omega)]
    have h := toDigitsCore_append n (n / 10) [] [Nat.digitChar (n % 10)]
    rw [List.nil_append] at h
    rw [h, toDigitsCore_fuel n (n / 10 + 1) _ _ (by omega) (by omega)]
    rfl

theorem digitChar_lt_ten : ∀ d < 10,
    '0' ≤ Nat.digitChar d ∧ Nat.digitChar d ≤ '9' ∧ (Nat.digitChar d).toNat - '0'.toNat = d := by
  decide

/-- One digit of a decimal numeral read onto the value of the digits before it. -/
def decimalStep (n : Nat) (c : Char) : Nat := n * 10 + (c.toNat - '0'.toNat)

/-- The value of a decimal numeral. -/
def decimalValue (cs : List Char) : Nat := cs.foldl decimalStep 0

theorem toDigits_ten_digits (n : Nat) : ∀ c ∈ Nat.toDigits 10 n, '0' ≤ c ∧ c ≤ '9' := by
  induction n using Nat.strong_induction_on with
  | _ n ih =>
    rw [toDigits_ten]
    intro c hc
    rcases List.mem_append.mp hc with hc | hc
    · split at hc
      · exact absurd hc (List.not_mem_nil c)
      · exact ih (n / 10) (by omega) c hc
    · rw [List.mem_singleton.mp hc]
      exact ⟨(digitChar_lt_ten _ (n.mod_lt (by omega))).1,
        (digitChar_lt_ten _ (n.mod_lt (by omega))).2.1⟩

theorem decimalValue_toDigits (n : Nat) : decimalValue (Nat.toDigits 10 n) = n := by
  induction n using Nat.strong_induction_on with
  | _ n ih =>
    have hd := (digitChar_lt_ten (n % 10) (n.mod_lt (by omega))).2.2
    rw [toDigits_ten, decimalValue, List.foldl_append, List.foldl_cons, List.foldl_nil,
      decimalStep, hd]
    split
    · simp only [List.foldl_nil]; omega
    · rw [← decimalValue, ih (n / 10) (by omega)]; omega

theorem toDigits_ten_injective {a b : Nat} (h : Nat.toDigits 10 a = Nat.toDigits 10 b) :
    a = b := by
  rw [← decimalValue_toDigits a, h, decimalValue_toDigits]

theorem repr_injective {a b : Nat} (h : Nat.repr a = Nat.repr b) : a = b :=
  toDigits_ten_injective (congrArg String.data h)

theorem toDigits_ten_ne_nil (n : Nat) : Nat.toDigits 10 n ≠ [] := by
  rw [toDigits_ten]; simp

/-- The numeral of a positive number starts with a digit other than `0`. -/
theorem toDigits_ten_head {n : Nat} (hn : 0 < n) :
    ∃ c r, Nat.toDigits 10 n = c :: r ∧ c ≠ '0' := by
  induction n using Nat.strong_induction_on with
  | _ n ih =>
    rw [toDigits_ten]
    split
    · have : ∀ d < 10, 0 < d → Nat.digitChar d ≠ '0' := by decide
      exact ⟨_, [], rfl, by rw [Nat.mod_eq_of_lt (by omega)]; exact this n (by omega) hn⟩
    · obtain ⟨c, r, hr, hc⟩ := ih (n / 10) (by omega) (by omega)
      exact ⟨c, r ++ _, by rw [hr]; rfl, hc⟩

/-! ### Reading decimal numerals back -/

theorem digitVal_decimal {c : Char} (hc : '0' ≤ c ∧ c ≤ '9') :
    digitVal c = some (c.toNat - '0'.toNat) :=
  if_pos hc

theorem le_foldl_decimalStep (ds : List Char) (acc : Nat) : acc ≤ ds.foldl decimalStep acc := by
  induction ds generalizing acc with
  | nil => exact Nat.le_refl _
  | cons c cs ih => exact Nat.le_trans (by unfold decimalStep; omega) (ih _)

/-- `ParseUint`'s loop in base 10 reads a run of decimal digits while the value stays at most
    `M`. -/
theorem digitLoop_decimal {M : Nat} {b0 us : Bool} {ds : List Char}
    (hds : ∀ c ∈ ds, '0' ≤ c ∧ c ≤ '9') (rest : List Char) {acc : Nat}
    (hM : ds.foldl decimalStep acc ≤ M) :
    digitLoop 10 M b0 acc us (ds ++ rest) = digitLoop 10 M b0 (ds.foldl decimalStep acc) us rest := by
  induction ds generalizing acc with
  | nil => rfl
  | cons c cs ih =>
    have hc := hds c (List.mem_cons_self c cs)
    have hu : ¬ (c = '_' ∧ b0 = true) := fun h => absurd (h.1 ▸ hc.2) (by decide)
    have hd : ¬ 10 ≤ c.toNat - '0'.toNat := by
      have h9 : c.toNat ≤ 57 := char_le_iff.mp hc.2
      have h0 : '0'.toNat = 48 := rfl
      omega
    have hle : acc * 10 + (c.toNat - '0'.toNat) ≤ M := le_trans (le_foldl_decimalStep cs _) hM
    rw [List.cons_append, digitLoop, if_neg hu, digitVal_decimal hc]
    simp only [if_neg hd, if_neg (Nat.not_lt.mpr hle)]
    exact ih (fun c' h => hds c' (List.mem_cons_of_mem c h)) hM

/-- `ParseUint`'s loop in base 10 over a whole run of decimal digits: their value, or a range
    error once the value passes `M`. -/
theorem digitLoop_decimalRun {M : Nat} {b0 us : Bool} {ds : List Char}
    (hds : ∀ c ∈ ds, '0' ≤ c ∧ c ≤ '9') {acc : Nat} (hacc : acc ≤ M) :
    digitLoop 10 M b0 acc us ds =
      if ds.foldl decimalStep acc ≤ M then (ds.foldl decimalStep acc, none, us)
      else (M, some .outOfRange, us) := by
  induction ds generalizing acc with
  | nil => simp [digitLoop, hacc]
  | cons c cs ih =>
    have hc := hds c (List.mem_cons_self c cs)
    have hu : ¬ (c = '_' ∧ b0 = true) := fun h => absurd (h.1 ▸ hc.2) (by decide)
    have hd : ¬ 10 ≤ c.toNat - '0'.toNat := by
      have h9 : c.toNat ≤ 57 := char_le_iff.mp hc.2
      have h0 : '0'.toNat = 48 := rfl
      omega
    rw [digitLoop, if_neg hu, digitVal_decimal hc, List.foldl_cons]
    simp only [if_neg hd]
    by_cases hM : M < acc * 10 + (c.toNat - '0'.toNat)
    · have hgt : ¬ cs.foldl decimalStep (decimalStep acc c) ≤ M := fun h =>
        absurd (le_trans (le_foldl_decimalStep cs _) h) (Nat.not_le.mpr hM)
      rw [if_pos hM, if_neg hgt]
    · rw [if_neg hM, ih (fun c' h => hds c' (List.mem_cons_of_mem c h)) (Nat.not_lt.mp hM)]
      rfl

/-- `ParseUint(s, 10, 64)` of a run of decimal digits: its value below `2^64`, and a range
    error from there on. -/
theorem parseUint_decimalRun {ds : List Char} (hne : ds ≠ [])
    (hds : ∀ c ∈ ds, '0' ≤ c ∧ c ≤ '9') :
    parseUint ds 10 64 =
      if decimalValue ds < 2 ^ 64 then (decimalValue ds, none) else (2 ^ 64 - 1, some .outOfRange) := by
  have hloop := @digitLoop_decimalRun (2 ^ 64 - 1) (10 == 0) false ds hds 0 (Nat.zero_le _)
  rw [parseUint, if_neg hne, if_neg (by decide)]
  dsimp only
  rw [hloop]
  by_cases h : decimalValue ds < 2 ^ 64
  · rw [if_pos (show ds.foldl decimalStep 0 ≤ 2 ^ 64 - 1 by unfold decimalValue at h; omega), if_pos h]
    rfl
  · rw [if_neg (show ¬ ds.foldl decimalStep 0 ≤ 2 ^ 64 - 1 by unfold decimalValue at h; omega),
      if_neg h]

theorem digitLoop_toDigits {M n : Nat} {b0 us : Bool} (hn : n ≤ M) (rest : List Char) :
    digitLoop 10 M b0 0 us (Nat.toDigits 10 n ++ rest) = digitLoop 10 M b0 n us rest := by
  have h : (Nat.toDigits 10 n).foldl decimalStep 0 = n := decimalValue_toDigits n
  rw [digitLoop_decimal (toDigits_ten_digits n) rest (by rw [h]; exact hn), h]

/-- `ParseUint(s, 10, 64)` reads back every decimal numeral of a `uint64`. -/
theorem parseUint_toDigits {n : Nat} (hn : n < 2 ^ 64) :
    parseUint (Nat.toDigits 10 n) 10 64 = (n, none) := by
  have h := @digitLoop_toDigits (2 ^ 64 - 1) n (10 == 0) false (by omega) []
  rw [List.append_nil] at h
  rw [parseUint_eq_ok_iff, if_neg (by decide)]
  exact ⟨toDigits_ten_ne_nil n, false, h, fun h => absurd h (by decide)⟩

/-- `ParseUint(s, 0, 64)` reads back the decimal numeral of every positive `uint64`. -/
theorem parseUint_toDigits_base0 {n : Nat} (hpos : 0 < n) (hn : n < 2 ^ 64) :
    parseUint (Nat.toDigits 10 n) 0 64 = (n, none) := by
  obtain ⟨c, r, hcr, hc⟩ := toDigits_ten_head hpos
  have hprefix : basePrefix (c :: r) = (10, c :: r) := by
    unfold basePrefix
    split <;> simp_all
  have h := @digitLoop_toDigits (2 ^ 64 - 1) n (0 == 0) false (by omega) []
  rw [List.append_nil, hcr] at h
  rw [parseUint_eq_ok_iff, if_pos rfl, hcr, hprefix]
  exact ⟨List.cons_ne_nil c r, false, h, fun h => absurd h (by decide)⟩

/-- `ParseInt(s, 0, 64)` reads back the decimal numeral of every `int64`, `-` and all. -/
theorem parseInt_toString {n : Int} (hn : -2 ^ 63 ≤ n ∧ n < 2 ^ 63) :
    parseInt (toString n).data 0 64 = (n, none) := by
  match n, hn with
  | .ofNat 0, _ => rfl
  | .ofNat (m + 1), hn =>
    simp only [Int.ofNat_eq_coe] at hn
    obtain ⟨c, r, hcr, hc⟩ := toDigits_ten_head (Nat.succ_pos m)
    have hdig := toDigits_ten_digits (m + 1) c (hcr ▸ List.mem_cons_self c r)
    have hsign : c ≠ '+' ∧ c ≠ '-' := by
      constructor <;> rintro rfl <;> exact absurd hdig (by decide)
    show parseInt (Nat.toDigits 10 (m + 1)) 0 64 = _
    rw [hcr, parseInt_eq_ok_iff hsign (by decide), ← hcr]
    exact ⟨m + 1, parseUint_toDigits_base0 (Nat.succ_pos m) (by omega), by omega, rfl⟩
  | .negSucc m, hn =>
    simp only [Int.negSucc_coe] at hn
    show parseInt ('-' :: Nat.toDigits 10 (m + 1)) 0 64 = _
    have hu : parseUint (Nat.toDigits 10 (m + 1)) 0 64 = (m + 1, none) :=
      parseUint_toDigits_base0 (Nat.succ_pos m) (by omega)
    simp only [parseInt, if_neg (show '-' ≠ '+' by decide), if_pos rfl, ↓reduceIte, hu,
      show ¬ 2 ^ (64 - 1) < m + 1 by omega, and_false, false_and]
    rfl

end Shawk.Go
