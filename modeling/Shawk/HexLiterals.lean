import Shawk.Numerals

/-!
# What `hex.DecodeString` and `ParseInt` accept in hex

`decodeAddress` reads the address word of a `/proc/net/tcp` field with `hex.DecodeString`
and the port with `strconv.ParseInt("0x" + port, 0, 64)`.  This module states, as grammars
that do not mention the loops, which texts the two accept and what they return: `HexBytes`
for the first, `HexLiteral` and `hexValue` for the second.  Each loop is then proved to
accept exactly its grammar (`decodeHex_eq_some_iff`, `parseInt_hex_eq_ok_iff`).

The state field is read with `strconv.ParseUint(s, 16, 8)`, whose value the probe keeps
even on error: `parseUint_hexRun` gives it for every text.
-/

namespace Shawk.Go

/-! ### Hex digits -/

theorem digitVal_filter_ascii : ∀ n < 128,
    (digitVal (Char.ofNat n)).filter (fun d => decide (d < 16)) = fromHexChar (Char.ofNat n) := by
  decide

theorem toNat_le_lower (c : Char) : c.toNat ≤ lower c :=
  Nat.le_of_testBit fun i h => by simp [lower, h]

/-- The digits below 16 of `ParseUint`'s loop are the hex digits of `hex.DecodeString`. -/
theorem digitVal_filter (c : Char) :
    (digitVal c).filter (fun d => decide (d < 16)) = fromHexChar c := by
  by_cases hc : c.toNat < 128
  · simpa using digitVal_filter_ascii c.toNat hc
  · have hl := toNat_le_lower c
    have h9 : ¬ c ≤ '9' := fun h => hc (by rw [char_le_iff] at h; simp at h; omega)
    simp [digitVal, fromHexChar, h9, char_le_iff]
    rw [if_neg (by omega), if_neg (by omega), if_neg (by omega)]
    rfl

theorem fromHexChar_eq_some {c : Char} {d : Nat} :
    fromHexChar c = some d ↔ digitVal c = some d ∧ d < 16 := by
  rw [← digitVal_filter]
  cases digitVal c <;> simp [Option.filter, eq_comm, and_comm]
  rintro rfl
  rfl

/-- The digit test of `underscoreOK` in hex is the hex digit test of `hex.DecodeString`. -/
theorem underscoreDigit_iff (c : Char) :
    (('0' ≤ c ∧ c ≤ '9') ∨ ('a'.toNat ≤ lower c ∧ lower c ≤ 'f'.toNat)) ↔
      (fromHexChar c).isSome := by
  rw [← digitVal_filter, digitVal]
  simp only [char_le_iff, Char.reduceToNat]
  split_ifs <;> simp only [Option.filter, decide_eq_true_eq, Option.isSome_ite, Option.isSome_none,
    Bool.false_eq_true, iff_false, not_or, not_and, not_le] <;> omega

@[simp] theorem fromHexChar_underscore : fromHexChar '_' = none := rfl

@[simp] theorem fromHexChar_colon : fromHexChar ':' = none := rfl

/-! ### `hex.DecodeString` -/

/-- Hex digit pairs spelling bytes, the high digit first. -/
inductive HexBytes : List Char → List UInt8 → Prop
  | nil : HexBytes [] []
  | cons {x y : Char} {hi lo : Nat} {h : List Char} {bs : List UInt8} :
      fromHexChar x = some hi → fromHexChar y = some lo → HexBytes h bs →
      HexBytes (x :: y :: h) ((hi * 16 + lo).toUInt8 :: bs)

theorem HexBytes.colon_not_mem {h : List Char} {bs : List UInt8} (hb : HexBytes h bs) :
    ':' ∉ h := by
  induction hb with
  | nil => exact List.not_mem_nil _
  | cons hx hy _ ih =>
    simp only [List.mem_cons, not_or]
    exact ⟨fun e => by simp [← e] at hx, fun e => by simp [← e] at hy, ih⟩

theorem decodeHex_eq_some_iff {h : List Char} {bs : List UInt8} :
    decodeHex h = some bs ↔ HexBytes h bs := by
  constructor
  · intro hd
    induction h using decodeHex.induct generalizing bs with
    | case1 => cases hd; exact .nil
    | case2 => cases hd
    | case3 x y rest ih =>
      simp only [decodeHex, Option.bind_eq_bind, Option.bind_eq_some] at hd
      obtain ⟨hi, hx, lo, hy, bs', hr, hbs⟩ := hd
      cases hbs
      exact .cons hx hy (ih hr)
  · intro hb
    induction hb with
    | nil => rfl
    | cons hx hy _ ih => simp [decodeHex, hx, hy, ih]

/-! ### Go hex literals -/

/-- The digits of a Go hex literal after its `0x` prefix: hex digits of either case, with
    each underscore followed by a digit (the prefix counts as a digit before a first
    underscore). -/
structure HexLiteral (p : List Char) : Prop where
  ne_nil : p ≠ []
  chars : ∀ c ∈ p, c = '_' ∨ (fromHexChar c).isSome
  underscores : p.Chain' fun a b => a = '_' → b ≠ '_'
  last : p.getLast? ≠ some '_'

theorem HexLiteral.colon_not_mem {p : List Char} (hp : HexLiteral p) : ':' ∉ p := fun h => by
  rcases hp.chars ':' h with h | h
  · cases h
  · simp at h

/-- The number the hex digits of a literal spell, the first digit the most significant. -/
def hexValue (p : List Char) : Nat := Nat.ofDigits 16 (p.filterMap fromHexChar).reverse

theorem hexValue_cons_of_none {c : Char} (hc : fromHexChar c = none) (cs : List Char) :
    hexValue (c :: cs) = hexValue cs := by
  simp [hexValue, hc]

theorem hexValue_cons_of_some {c : Char} {d : Nat} (hc : fromHexChar c = some d)
    (cs : List Char) :
    hexValue (c :: cs) = hexValue cs + 16 ^ (cs.filterMap fromHexChar).length * d := by
  simp [hexValue, hc, Nat.ofDigits_append]

/-- A hex digit `d` in front: the loop's value `n` before it becomes `n * 16 + d` after it. -/
theorem hexValue_shift {c : Char} {d : Nat} (hc : fromHexChar c = some d) (n : Nat)
    (cs : List Char) :
    n * 16 ^ ((c :: cs).filterMap fromHexChar).length + hexValue (c :: cs) =
      (n * 16 + d) * 16 ^ (cs.filterMap fromHexChar).length + hexValue cs := by
  rw [List.filterMap_cons_some hc, hexValue_cons_of_some hc, List.length_cons, pow_succ]
  ring

theorem le_mul_pow_sixteen_add (a k b : Nat) : a ≤ a * 16 ^ k + b :=
  Nat.le_add_right_of_le (Nat.le_mul_of_pos_right a (Nat.pos_pow_of_pos k (by decide)))

/-- `ParseUint`'s loop from a hex prefix reads the hex digits, skipping underscores, as
    long as the value stays at most `M`. -/
theorem digitLoop_hex {M n : Nat} {us : Bool} {p : List Char} {v : Nat} {us' : Bool}
    (hn : n ≤ M) :
    digitLoop 16 M true n us p = (v, none, us') ↔
      (∀ c ∈ p, c = '_' ∨ (fromHexChar c).isSome) ∧
        v = n * 16 ^ (p.filterMap fromHexChar).length + hexValue p ∧ v ≤ M ∧
        us' = (us || decide ('_' ∈ p)) := by
  induction n, us, p using digitLoop.induct 16 M true with
  | case1 n us =>
    simp only [digitLoop, Prod.mk.injEq, List.not_mem_nil, false_implies, implies_true,
      List.filterMap_nil, List.length_nil, pow_zero, Nat.mul_one, hexValue, List.reverse_nil,
      Nat.ofDigits_nil, Nat.add_zero, decide_False, Bool.or_false, true_and]
    constructor
    · rintro ⟨rfl, rfl⟩; exact ⟨rfl, hn, rfl⟩
    · rintro ⟨rfl, -, rfl⟩; exact ⟨rfl, rfl⟩
  | case2 n us c cs hu ih =>
    obtain ⟨rfl, -⟩ := hu
    rw [digitLoop, if_pos ⟨rfl, rfl⟩, ih hn, hexValue_cons_of_none fromHexChar_underscore]
    simp
  | case3 n us c cs hu hd =>
    have hc : fromHexChar c = none := by rw [← digitVal_filter, hd]; rfl
    simp only [digitLoop, if_neg hu, hd]
    simp_all
  | case4 n us c cs hu d hd hb =>
    have hc : fromHexChar c = none := by
      rw [← digitVal_filter, hd]; simp [Option.filter, Nat.not_lt.mpr hb]
    simp only [digitLoop, if_neg hu, hd, if_pos hb]
    simp_all
  | case5 n us c cs hu d hd hb hM =>
    have hc : fromHexChar c = some d := fromHexChar_eq_some.mpr ⟨hd, Nat.not_le.mp hb⟩
    rw [digitLoop, if_neg hu, hd]
    simp only [if_neg hb, if_pos hM, Prod.mk.injEq, reduceCtorEq, false_and, and_false,
      false_iff, not_and]
    intro _ hv hvM
    have := le_mul_pow_sixteen_add (n * 16 + d) (cs.filterMap fromHexChar).length (hexValue cs)
    rw [← hexValue_shift hc, ← hv] at this
    omega
  | case6 n us c cs hu d hd hb hM ih =>
    have hc : fromHexChar c = some d := fromHexChar_eq_some.mpr ⟨hd, Nat.not_le.mp hb⟩
    have hcu : c ≠ '_' := fun h => by simp [h] at hc
    rw [digitLoop, if_neg hu, hd]
    simp only [if_neg hb, if_neg hM]
    have hchars : (∀ c' ∈ c :: cs, c' = '_' ∨ (fromHexChar c').isSome) ↔
        ∀ c' ∈ cs, c' = '_' ∨ (fromHexChar c').isSome := by simp [hc]
    have hmem : decide ('_' ∈ c :: cs) = decide ('_' ∈ cs) := by simp [hcu.symm]
    rw [ih (Nat.not_lt.mp hM), hexValue_shift hc, hchars, hmem]

/-- What `underscoreOK` last saw after a character of a hex literal. -/
def sawOf (c : Char) : Saw := if c = '_' then .underscore else .digit

/-- Over the characters of a hex literal, `underscoreOK`'s loop fails exactly at an
    underscore that follows an underscore, and otherwise ends on the last character. -/
theorem underscoreLoop_hex {p : List Char} (hp : ∀ c ∈ p, c = '_' ∨ (fromHexChar c).isSome)
    (x : Char) (hx : x = '_' ∨ (fromHexChar x).isSome) :
    underscoreLoop true (sawOf x) p =
      if (x :: p).Chain' (fun a b => a = '_' → b ≠ '_') then
        some (sawOf ((x :: p).getLast (List.cons_ne_nil x p)))
      else none := by
  induction p generalizing x with
  | nil => simp [underscoreLoop]
  | cons c cs ih =>
    have hcs : ∀ c ∈ cs, c = '_' ∨ (fromHexChar c).isSome := fun c' h =>
      hp c' (List.mem_cons_of_mem c h)
    simp only [List.chain'_cons, List.getLast_cons_cons]
    by_cases hd : (fromHexChar c).isSome
    · have hcu : c ≠ '_' := fun h => by simp [h] at hd
      have htest : ('0' ≤ c ∧ c ≤ '9') ∨ (true = true ∧ 'a'.toNat ≤ lower c ∧
          lower c ≤ 'f'.toNat) := by
        rw [eq_self_iff_true, true_and]; exact (underscoreDigit_iff c).mpr hd
      rw [underscoreLoop, if_pos htest, show Saw.digit = sawOf c from (if_neg hcu).symm,
        ih hcs c (Or.inr hd)]
      simp [hcu]
    · have hcu : c = '_' := (hp c (List.mem_cons_self c cs)).resolve_right hd
      have htest : ¬ (('0' ≤ c ∧ c ≤ '9') ∨ (true = true ∧ 'a'.toNat ≤ lower c ∧
          lower c ≤ 'f'.toNat)) := by
        rw [eq_self_iff_true, true_and, underscoreDigit_iff]; exact hd
      subst hcu
      rw [underscoreLoop, if_neg htest, if_pos rfl]
      by_cases hxu : x = '_'
      · subst hxu
        simp [sawOf]
      · rw [if_pos (show sawOf x = .digit from if_neg hxu),
          show Saw.underscore = sawOf '_' from rfl, ih hcs '_' (Or.inl rfl)]
        simp [hxu]

theorem chain'_of_not_mem {p : List Char} (h : '_' ∉ p) :
    p.Chain' fun a b => a = '_' → b ≠ '_' := by
  induction p with
  | nil => exact List.chain'_nil
  | cons a l ih =>
    rw [List.chain'_cons']
    exact ⟨fun _ _ ha => absurd (ha ▸ List.mem_cons_self a l) h,
      ih fun hl => h (List.mem_cons_of_mem a hl)⟩

/-- `underscoreOK` of a hex literal: its underscores are each followed by a digit. -/
theorem underscoreOK_hex {p : List Char} (hp : ∀ c ∈ p, c = '_' ∨ (fromHexChar c).isSome) :
    underscoreOK ('0' :: 'x' :: p) = true ↔
      p.Chain' (fun a b => a = '_' → b ≠ '_') ∧ p.getLast? ≠ some '_' := by
  have hloop := underscoreLoop_hex hp '0' (Or.inr rfl)
  rw [show sawOf '0' = .digit from rfl] at hloop
  show (match underscoreLoop true .digit p with
    | some saw => saw != .underscore
    | none => false) = true ↔ _
  rw [hloop]
  cases p with
  | nil => simp [sawOf]
  | cons c cs =>
    by_cases hch : (c :: cs).Chain' (fun a b => a = '_' → b ≠ '_')
    · have hch' : ('0' :: c :: cs).Chain' (fun a b => a = '_' → b ≠ '_') :=
        List.chain'_cons.mpr ⟨fun h => absurd h (by decide), hch⟩
      simp only [if_pos hch', List.getLast_cons_cons, hch, true_and,
        List.getLast?_eq_getLast (c :: cs) (List.cons_ne_nil c cs), ne_eq, Option.some.injEq]
      unfold sawOf
      split_ifs with h <;> simp [h]
    · have hch' : ¬ ('0' :: c :: cs).Chain' (fun a b => a = '_' → b ≠ '_') :=
        fun h => hch (List.chain'_cons.mp h).2
      simp [if_neg hch', hch]

/-- `ParseUint("0x" + p, 0, 64)` succeeds exactly on hex literals of at most 64 bits. -/
theorem parseUint_hex_eq_ok_iff {p : List Char} {n : Nat} :
    parseUint ('0' :: 'x' :: p) 0 64 = (n, none) ↔
      HexLiteral p ∧ n = hexValue p ∧ n ≤ 2 ^ 64 - 1 := by
  cases p with
  | nil =>
    rw [show parseUint ['0', 'x'] 0 64 = (0, some .invalid) by decide]
    exact ⟨fun h => (by cases h), fun h => absurd rfl h.1.ne_nil⟩
  | cons d r =>
    have hprefix : basePrefix ('0' :: 'x' :: d :: r) = (16, d :: r) := rfl
    rw [parseUint_eq_ok_iff, if_pos rfl, hprefix]
    simp only [ne_eq, reduceCtorEq, not_false_eq_true, true_and, beq_self_eq_true]
    constructor
    · rintro ⟨us, hd, hus⟩
      obtain ⟨hchars, hv, hle, rfl⟩ := (digitLoop_hex (Nat.zero_le _)).mp hd
      simp only [Nat.zero_mul, Nat.zero_add, Bool.false_or, decide_eq_true_eq] at hv hus
      by_cases hu : '_' ∈ d :: r
      · obtain ⟨hchain, hlast⟩ := (underscoreOK_hex hchars).mp (hus hu)
        exact ⟨⟨List.cons_ne_nil d r, hchars, hchain, hlast⟩, hv, hle⟩
      · exact ⟨⟨List.cons_ne_nil d r, hchars, chain'_of_not_mem hu,
          fun h => hu (List.mem_of_getLast?_eq_some h)⟩, hv, hle⟩
    · rintro ⟨hlit, rfl, hle⟩
      refine ⟨_, (digitLoop_hex (Nat.zero_le _)).mpr ⟨hlit.chars, by simp, hle, rfl⟩, ?_⟩
      intro _
      exact (underscoreOK_hex hlit.chars).mpr ⟨hlit.underscores, hlit.last⟩

/-- `ParseInt("0x" + p, 0, 64)` succeeds exactly on hex literals below `2^63`, with their
    value. -/
theorem parseInt_hex_eq_ok_iff {p : List Char} {v : Int} :
    parseInt ('0' :: 'x' :: p) 0 64 = (v, none) ↔
      HexLiteral p ∧ hexValue p < 2 ^ 63 ∧ v = hexValue p := by
  rw [parseInt_eq_ok_iff (by decide) (by decide)]
  simp only [parseUint_hex_eq_ok_iff]
  constructor
  · rintro ⟨n, ⟨hlit, rfl, -⟩, hlt, rfl⟩
    exact ⟨hlit, hlt, rfl⟩
  · rintro ⟨hlit, hlt, rfl⟩
    exact ⟨_, ⟨hlit, rfl, by omega⟩, hlt, rfl⟩

/-! ### `ParseUint(s, 16, bitSize)` -/

/-- Without a base prefix the digit loop never skips an underscore. -/
theorem digitLoop_us {base M n : Nat} {us : Bool} {p : List Char} :
    (digitLoop base M false n us p).2.2 = us := by
  induction n, us, p using digitLoop.induct base M false with
  | case1 => rfl
  | case2 n us c cs hu => exact absurd hu.2 (by decide)
  | case3 n us c cs hu hd => simp [digitLoop, hu, hd]
  | case4 n us c cs hu d hd hb => simp [digitLoop, hu, hd, hb]
  | case5 n us c cs hu d hd hb hM => simp [digitLoop, hu, hd, hb, hM]
  | case6 n us c cs hu d hd hb hM ih =>
    rw [digitLoop, if_neg hu, hd]
    simp only [if_neg hb, if_neg hM]
    exact ih

/-- The hex digit loop over a run of hex digits and a rest that does not start with one:
    the largest value once the value passes it, the value when nothing follows, and 0 (a
    syntax error) otherwise. -/
theorem digitLoop_hexRun {M n : Nat} {us : Bool} {ds rest : List Char} (hn : n ≤ M)
    (hds : ∀ c ∈ ds, (fromHexChar c).isSome) (hrest : ∀ c ∈ rest.head?, fromHexChar c = none) :
    (digitLoop 16 M false n us (ds ++ rest)).1 =
      if M < n * 16 ^ (ds.filterMap fromHexChar).length + hexValue ds then M
      else if rest = [] then n * 16 ^ (ds.filterMap fromHexChar).length + hexValue ds else 0 := by
  induction ds generalizing n with
  | nil =>
    simp only [List.nil_append, List.filterMap_nil, List.length_nil, pow_zero, Nat.mul_one,
      hexValue, List.reverse_nil, Nat.ofDigits_nil, Nat.add_zero, if_neg (Nat.not_lt.mpr hn)]
    cases rest with
    | nil => rfl
    | cons c r =>
      have hc : fromHexChar c = none := hrest c rfl
      have hskip : ¬ (c = '_' ∧ false = true) := by simp
      rw [digitLoop, if_neg hskip]
      rcases hd : digitVal c with _ | d
      · rfl
      · have hb : 16 ≤ d := Nat.not_lt.mp fun h => by
          simp [fromHexChar_eq_some.mpr ⟨hd, h⟩] at hc
        simp [hb]
  | cons c ds ih =>
    obtain ⟨d, hc⟩ := Option.isSome_iff_exists.mp (hds c (List.mem_cons_self c ds))
    obtain ⟨hd, hb⟩ := fromHexChar_eq_some.mp hc
    have hskip : ¬ (c = '_' ∧ false = true) := by simp
    rw [List.cons_append, digitLoop, if_neg hskip, hd, hexValue_shift hc]
    simp only [if_neg (Nat.not_le.mpr hb)]
    by_cases hM : M < n * 16 + d
    · rw [if_pos hM, if_pos (Nat.lt_of_lt_of_le hM (le_mul_pow_sixteen_add _ _ _))]
    · rw [if_neg hM, ih (Nat.not_lt.mp hM) fun c' h => hds c' (List.mem_cons_of_mem c h)]

/-- `ParseUint(s, 16, 8)`'s value, error or not, on a run of hex digits and a rest that
    does not start with one. -/
theorem parseUint_hexRun {ds rest : List Char} (hds : ∀ c ∈ ds, (fromHexChar c).isSome)
    (hrest : ∀ c ∈ rest.head?, fromHexChar c = none) :
    (parseUint (ds ++ rest) 16 8).1 =
      if 255 < hexValue ds then 255 else if rest = [] then hexValue ds else 0 := by
  by_cases hs : ds ++ rest = []
  · obtain ⟨rfl, rfl⟩ := List.append_eq_nil.mp hs
    rfl
  · have hloop := @digitLoop_hexRun 255 0 false ds rest (Nat.zero_le _) hds hrest
    have hus := @digitLoop_us 16 255 0 false (ds ++ rest)
    simp only [Nat.zero_mul, Nat.zero_add] at hloop
    unfold parseUint
    rw [if_neg hs]
    dsimp only
    rw [if_neg (by decide), ← hloop]
    simp only [show (2 : Nat) ^ 8 - 1 = 255 from rfl, show ((16 : Nat) == 0) = false from rfl]
    rcases hd : digitLoop 16 255 false 0 false (ds ++ rest) with ⟨v, _ | e, us⟩
    · have : us = false := by rw [← hus, hd]
      subst this
      simp
    · simp

end Shawk.Go
