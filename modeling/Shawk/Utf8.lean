import Shawk.Text
import Mathlib.Algebra.Group.Nat.Basic

/-!
# Go's UTF-8 decoding

File contents and link targets are bytes.  `fmt`'s scanners read them as runes through
`readRune`, which hands each run of bytes to `utf8.DecodeRune`: a valid encoding gives its
rune, and a byte that starts none reads as `utf8.RuneError` (U+FFFD), one byte wide, after
which decoding goes on at the next byte.  `runes` is that decoding of a whole input.

A byte below `0x80` reads as itself and is never a continuation byte, so decoding splits
before one (`runes_append_of_head`).  The bytes Lean's `String.utf8EncodeChar` writes for a
character decode to it, whatever follows (`runes_utf8_append`), so a valid text reads back as
itself; and the decoder takes only those bytes, so where the decoding starts with characters
other than `RuneError`, the bytes start with their encoding (`runes_eq_append`).
-/

namespace Shawk.Go

/-- A Go byte slice or string, as its bytes. -/
abbrev Bytes := List UInt8

/-- `utf8.RuneError`. -/
def RuneError : Char := '�'

/-- The width the table `first` of `unicode/utf8` gives a leading byte; 0 for a byte that
    starts no encoding (a continuation byte, `0xC0`, `0xC1`, `0xF5` and above). -/
def leadWidth (p0 : Nat) : Nat :=
  if 0xC2 ≤ p0 ∧ p0 ≤ 0xDF then 2
  else if 0xE0 ≤ p0 ∧ p0 ≤ 0xEF then 3
  else if 0xF0 ≤ p0 ∧ p0 ≤ 0xF4 then 4
  else 0

/-- The table `acceptRanges`: the range the second byte must lie in after the leading byte
    `p0`, narrower after `0xE0`, `0xED`, `0xF0` and `0xF4`. -/
def secondOK (p0 b1 : Nat) : Bool :=
  if p0 = 0xE0 then 0xA0 ≤ b1 && b1 ≤ 0xBF
  else if p0 = 0xED then 0x80 ≤ b1 && b1 ≤ 0x9F
  else if p0 = 0xF0 then 0x90 ≤ b1 && b1 ≤ 0xBF
  else if p0 = 0xF4 then 0x80 ≤ b1 && b1 ≤ 0x8F
  else 0x80 ≤ b1 && b1 ≤ 0xBF

/-- A continuation byte, `locb ≤ b ≤ hicb`. -/
def isCont (b : Nat) : Bool := 0x80 ≤ b && b ≤ 0xBF

/-- `utf8.DecodeRune(p)`: the rune `p` starts with and its width.  An encoding cut short by
    the end of input, or with a byte out of its range, is `RuneError` one byte wide.  The masks
    of `DecodeRune` (`p0&mask2`, `b1&maskx`, …) take the marker bits off bytes in these
    ranges, which is the subtraction here. -/
def decodeRune : Bytes → Char × Nat
  | [] => (RuneError, 0)
  | b0 :: rest =>
    if b0.toNat < 0x80 then (Char.ofNat b0.toNat, 1)
    else match leadWidth b0.toNat, rest with
      | 2, b1 :: _ =>
        if secondOK b0.toNat b1.toNat then
          (Char.ofNat ((b0.toNat - 0xC0) * 0x40 + (b1.toNat - 0x80)), 2)
        else (RuneError, 1)
      | 3, b1 :: b2 :: _ =>
        if secondOK b0.toNat b1.toNat && isCont b2.toNat then
          (Char.ofNat ((b0.toNat - 0xE0) * 0x1000 + (b1.toNat - 0x80) * 0x40 +
            (b2.toNat - 0x80)), 3)
        else (RuneError, 1)
      | 4, b1 :: b2 :: b3 :: _ =>
        if secondOK b0.toNat b1.toNat && isCont b2.toNat && isCont b3.toNat then
          (Char.ofNat ((b0.toNat - 0xF0) * 0x40000 + (b1.toNat - 0x80) * 0x1000 +
            (b2.toNat - 0x80) * 0x40 + (b3.toNat - 0x80)), 4)
        else (RuneError, 1)
      | _, _ => (RuneError, 1)

/-- The loop of `readRune` over an input, with `fuel` runes at most. -/
def runesFuel : Nat → Bytes → List Char
  | 0, _ => []
  | _ + 1, [] => []
  | n + 1, b :: bs =>
    (decodeRune (b :: bs)).1 :: runesFuel n ((b :: bs).drop (decodeRune (b :: bs)).2)

/-- The runes `fmt`'s `readRune` reads from `p`, one `utf8.DecodeRune` after another; every
    rune takes at least one byte, so `p.length` runes are enough. -/
def runes (p : Bytes) : List Char := runesFuel p.length p

/-- The bytes of a text, as Lean and Go write it. -/
def utf8 (s : List Char) : Bytes := s.flatMap String.utf8EncodeChar

@[simp] theorem utf8_nil : utf8 [] = [] := rfl

theorem utf8_append (s s' : List Char) : utf8 (s ++ s') = utf8 s ++ utf8 s' :=
  List.flatMap_append s s' _

theorem utf8_cons (c : Char) (s : List Char) :
    utf8 (c :: s) = String.utf8EncodeChar c ++ utf8 s := rfl

theorem utf8_cons_of_lt {c : Char} (hc : c.toNat < 0x80) (s : List Char) :
    utf8 (c :: s) = c.val.toUInt8 :: utf8 s := by
  rw [utf8_cons, String.utf8EncodeChar, if_pos (show c.val ≤ 0x7f from Nat.le_of_lt_succ hc)]
  rfl

/-! ### The tables -/

theorem leadWidth_eq_two {p0 : Nat} : leadWidth p0 = 2 ↔ 0xC2 ≤ p0 ∧ p0 ≤ 0xDF :=
  ⟨fun h => by unfold leadWidth at h; split_ifs at h <;> omega, fun h => by
    rw [leadWidth, if_pos h]⟩

theorem leadWidth_eq_three {p0 : Nat} : leadWidth p0 = 3 ↔ 0xE0 ≤ p0 ∧ p0 ≤ 0xEF :=
  ⟨fun h => by unfold leadWidth at h; split_ifs at h <;> omega, fun h => by
    rw [leadWidth, if_neg (by omega), if_pos h]⟩

theorem leadWidth_eq_four {p0 : Nat} : leadWidth p0 = 4 ↔ 0xF0 ≤ p0 ∧ p0 ≤ 0xF4 :=
  ⟨fun h => by unfold leadWidth at h; split_ifs at h <;> omega, fun h => by
    rw [leadWidth, if_neg (by omega), if_neg (by omega), if_pos h]⟩

/-- The table gives every byte one of four widths. -/
theorem leadWidth_cases (p0 : Nat) :
    leadWidth p0 = 0 ∨ leadWidth p0 = 2 ∨ leadWidth p0 = 3 ∨ leadWidth p0 = 4 := by
  unfold leadWidth
  split_ifs <;> simp

theorem secondOK_eq_true_iff {p0 b1 : Nat} : secondOK p0 b1 = true ↔
    0x80 ≤ b1 ∧ b1 ≤ 0xBF ∧ (p0 = 0xE0 → 0xA0 ≤ b1) ∧ (p0 = 0xED → b1 ≤ 0x9F) ∧
      (p0 = 0xF0 → 0x90 ≤ b1) ∧ (p0 = 0xF4 → b1 ≤ 0x8F) := by
  unfold secondOK
  split_ifs <;> simp only [Bool.and_eq_true, decide_eq_true_eq] <;> omega

theorem isCont_eq_true_iff {b : Nat} : isCont b = true ↔ 0x80 ≤ b ∧ b ≤ 0xBF := by
  simp only [isCont, Bool.and_eq_true, decide_eq_true_eq]

theorem secondOK_of_lt {p0 b1 : Nat} (h : b1 < 0x80) : secondOK p0 b1 = false := by
  unfold secondOK
  split_ifs <;> simp only [Bool.and_eq_false_iff, decide_eq_false_iff_not] <;> omega

theorem isCont_of_lt {b : Nat} (h : b < 0x80) : isCont b = false := by
  simp only [isCont, Bool.and_eq_false_iff, decide_eq_false_iff_not]
  omega

/-- After a leading byte of width 2, the second byte needs only be a continuation byte. -/
theorem secondOK_two {p0 b1 : Nat} (h0 : 0xC2 ≤ p0 ∧ p0 ≤ 0xDF) (h1 : 0x80 ≤ b1 ∧ b1 ≤ 0xBF) :
    secondOK p0 b1 = true :=
  secondOK_eq_true_iff.2 ⟨h1.1, h1.2, by omega, by omega, by omega, by omega⟩

theorem secondOK_three {p0 b1 : Nat} (h0 : 0xE0 ≤ p0 ∧ p0 ≤ 0xEF) (h1 : 0x80 ≤ b1 ∧ b1 ≤ 0xBF)
    (hE0 : p0 = 0xE0 → 0xA0 ≤ b1) (hED : p0 = 0xED → b1 ≤ 0x9F) : secondOK p0 b1 = true :=
  secondOK_eq_true_iff.2 ⟨h1.1, h1.2, hE0, hED, by omega, by omega⟩

theorem secondOK_four {p0 b1 : Nat} (h0 : 0xF0 ≤ p0 ∧ p0 ≤ 0xF4) (h1 : 0x80 ≤ b1 ∧ b1 ≤ 0xBF)
    (hF0 : p0 = 0xF0 → 0x90 ≤ b1) (hF4 : p0 = 0xF4 → b1 ≤ 0x8F) : secondOK p0 b1 = true :=
  secondOK_eq_true_iff.2 ⟨h1.1, h1.2, by omega, by omega, hF0, hF4⟩

theorem toNat_ofNat_of_valid {v : Nat} (h : v.isValidChar) : (Char.ofNat v).toNat = v := by
  simp [Char.ofNat, Char.ofNatAux, h, Char.toNat, UInt32.toNat]

/-! ### The arithmetic of one width

On the bytes a width accepts, the code point `DecodeRune` computes and the bytes
`String.utf8EncodeChar` writes for it are inverse: the accepted bytes are exactly the encodings
of the code points of the width's range, surrogates left out. -/

theorem width_two_iff {p0 b1 n : Nat} :
    (0xC2 ≤ p0 ∧ p0 ≤ 0xDF) ∧ (0x80 ≤ b1 ∧ b1 ≤ 0xBF) ∧ (p0 - 0xC0) * 0x40 + (b1 - 0x80) = n ↔
      (n < 0xd800 ∨ 0xdfff < n ∧ n < 0x110000) ∧ ¬ n ≤ 0x7f ∧ n ≤ 0x7ff ∧
        n / 0x40 + 0xC0 = p0 ∧ n % 0x40 + 0x80 = b1 := by
  omega

theorem width_three_iff {p0 b1 b2 n : Nat} :
    (0xE0 ≤ p0 ∧ p0 ≤ 0xEF) ∧ (0x80 ≤ b1 ∧ b1 ≤ 0xBF) ∧ (p0 = 0xE0 → 0xA0 ≤ b1) ∧
        (p0 = 0xED → b1 ≤ 0x9F) ∧ (0x80 ≤ b2 ∧ b2 ≤ 0xBF) ∧
        (p0 - 0xE0) * 0x1000 + (b1 - 0x80) * 0x40 + (b2 - 0x80) = n ↔
      (n < 0xd800 ∨ 0xdfff < n ∧ n < 0x110000) ∧ ¬ n ≤ 0x7f ∧ ¬ n ≤ 0x7ff ∧ n ≤ 0xffff ∧
        n / 0x1000 + 0xE0 = p0 ∧ n / 0x40 % 0x40 + 0x80 = b1 ∧ n % 0x40 + 0x80 = b2 := by
  constructor
  · rintro ⟨⟨h0, h0'⟩, ⟨h1, h1'⟩, hE0, hED, ⟨h2, h2'⟩, rfl⟩
    refine ⟨?_, ?_, ?_, ?_, ?_, ?_, ?_⟩ <;> omega
  · rintro ⟨hs, -, h, h', rfl, rfl, rfl⟩
    refine ⟨⟨?_, ?_⟩, ⟨?_, ?_⟩, ?_, ?_, ⟨?_, ?_⟩, ?_⟩ <;> omega

theorem width_four_iff {p0 b1 b2 b3 n : Nat} :
    (0xF0 ≤ p0 ∧ p0 ≤ 0xF4) ∧ (0x80 ≤ b1 ∧ b1 ≤ 0xBF) ∧ (p0 = 0xF0 → 0x90 ≤ b1) ∧
        (p0 = 0xF4 → b1 ≤ 0x8F) ∧ (0x80 ≤ b2 ∧ b2 ≤ 0xBF) ∧ (0x80 ≤ b3 ∧ b3 ≤ 0xBF) ∧
        (p0 - 0xF0) * 0x40000 + (b1 - 0x80) * 0x1000 + (b2 - 0x80) * 0x40 + (b3 - 0x80) = n ↔
      (n < 0xd800 ∨ 0xdfff < n ∧ n < 0x110000) ∧ ¬ n ≤ 0x7f ∧ ¬ n ≤ 0x7ff ∧ ¬ n ≤ 0xffff ∧
        n / 0x40000 + 0xF0 = p0 ∧ n / 0x1000 % 0x40 + 0x80 = b1 ∧
        n / 0x40 % 0x40 + 0x80 = b2 ∧ n % 0x40 + 0x80 = b3 := by
  constructor
  · rintro ⟨⟨h0, h0'⟩, ⟨h1, h1'⟩, hF0, hF4, ⟨h2, h2'⟩, ⟨h3, h3'⟩, rfl⟩
    refine ⟨.inr ⟨?_, ?_⟩, ?_, ?_, ?_, ?_, ?_, ?_, ?_⟩ <;> omega
  · rintro ⟨hs, -, -, h, rfl, rfl, rfl, rfl⟩
    refine ⟨⟨?_, ?_⟩, ⟨?_, ?_⟩, ?_, ?_, ⟨?_, ?_⟩, ⟨?_, ?_⟩, ?_⟩ <;> omega

/-! ### One rune -/

theorem decodeRune_ascii {b : UInt8} (hb : b.toNat < 0x80) (l : Bytes) :
    decodeRune (b :: l) = (Char.ofNat b.toNat, 1) := by
  unfold decodeRune
  exact if_pos hb

theorem decodeRune_width (b : UInt8) (l : Bytes) :
    1 ≤ (decodeRune (b :: l)).2 ∧ (decodeRune (b :: l)).2 ≤ l.length + 1 := by
  unfold decodeRune
  dsimp only
  split_ifs
  · simp
  · split <;> (try split) <;> simp

/-! ### The loop -/

theorem runesFuel_stable : ∀ {n m : Nat} {p : Bytes}, p.length ≤ n → p.length ≤ m →
    runesFuel n p = runesFuel m p
  | 0, 0, _, _, _ => rfl
  | 0, _ + 1, [], _, _ => rfl
  | _ + 1, 0, [], _, _ => rfl
  | _ + 1, _ + 1, [], _, _ => rfl
  | n + 1, m + 1, b :: bs, hn, hm => by
    have hw := decodeRune_width b bs
    simp only [List.length_cons] at hn hm
    simp only [runesFuel]
    congr 1
    exact runesFuel_stable (by simp; omega) (by simp; omega)

/-- One rune, then the rest: the spec of the loop. -/
theorem runes_cons (b : UInt8) (l : Bytes) :
    runes (b :: l) =
      (decodeRune (b :: l)).1 :: runes ((b :: l).drop (decodeRune (b :: l)).2) := by
  have hw := decodeRune_width b l
  rw [runes, List.length_cons, runesFuel, runes]
  congr 1
  exact runesFuel_stable (by simp; omega) le_rfl

@[simp] theorem runes_nil : runes [] = [] := rfl

theorem runes_ascii {b : UInt8} (hb : b.toNat < 0x80) (l : Bytes) :
    runes (b :: l) = Char.ofNat b.toNat :: runes l := by
  rw [runes_cons, decodeRune_ascii hb]
  rfl

example : runes [0xE4, 0xB8, 0x29] = [RuneError, RuneError, ')'] := by decide

/-! ### Decoding around ASCII -/

/-- An ASCII byte is no continuation byte, so no encoding runs into one. -/
theorem decodeRune_append_of_head {a l : Bytes} (ha : a ≠ [])
    (hl : ∀ b ∈ l.head?, b.toNat < 0x80) : decodeRune (a ++ l) = decodeRune a := by
  cases l with
  | nil => rw [List.append_nil]
  | cons c l =>
    have hc := hl c rfl
    obtain ⟨b0, rest, rfl⟩ := List.exists_cons_of_ne_nil ha
    by_cases hb : b0.toNat < 0x80
    · rw [List.cons_append, decodeRune_ascii hb, decodeRune_ascii hb]
    · have hs : secondOK b0.toNat c.toNat = false := secondOK_of_lt hc
      have hk : isCont c.toNat = false := isCont_of_lt hc
      rw [List.cons_append]
      unfold decodeRune
      dsimp only
      rw [if_neg hb, if_neg hb]
      rcases leadWidth_cases b0.toNat with hw | hw | hw | hw <;> rw [hw] <;>
        rcases rest with _ | ⟨x, _ | ⟨y, _ | ⟨z, rest⟩⟩⟩ <;> rcases l with _ | ⟨d, _ | ⟨e, l⟩⟩ <;>
        simp only [List.nil_append, List.cons_append, hs, hk, Bool.and_false, Bool.false_and,
          if_false, Bool.false_eq_true]

/-- Decoding splits before an ASCII byte. -/
theorem runes_append_of_head : ∀ (a : Bytes) {l : Bytes}, (∀ b ∈ l.head?, b.toNat < 0x80) →
    runes (a ++ l) = runes a ++ runes l
  | [], _, _ => rfl
  | b :: bs, l, hl => by
    have hw := decodeRune_width b bs
    have hdrop : (b :: bs ++ l).drop (decodeRune (b :: bs)).2 =
        (b :: bs).drop (decodeRune (b :: bs)).2 ++ l :=
      List.drop_append_of_le_length (by simp; omega)
    have hcons : runes (b :: bs ++ l) = (decodeRune (b :: bs ++ l)).1 ::
        runes ((b :: bs ++ l).drop (decodeRune (b :: bs ++ l)).2) := runes_cons b (bs ++ l)
    rw [hcons, decodeRune_append_of_head (List.cons_ne_nil b bs) hl, hdrop,
      runes_append_of_head _ hl, runes_cons b bs]
    rfl
termination_by a => a.length
decreasing_by simp; omega

/-! ### Valid text -/

theorem UInt8.or_toNat (a b : UInt8) : (a ||| b).toNat = a.toNat ||| b.toNat :=
  BitVec.toNat_or _ _

theorem marker_toNat {x : UInt8} {k m : Nat} (hor : ∀ y < 2 ^ k, y ||| m = y + m) :
    x.toNat &&& 2 ^ k - 1 ||| m = x.toNat % 2 ^ k + m := by
  rw [Nat.and_pow_two_sub_one_eq_mod]
  exact hor _ (Nat.mod_lt _ (Nat.two_pow_pos k))

/-- The bytes `String.utf8EncodeChar` writes, as numbers: the marker bits, then the bits of
    the code point. -/
theorem encodeChar_bytes (x : UInt8) :
    (x &&& 0x1f ||| 0xc0).toNat = x.toNat % 32 + 0xC0 ∧
      (x &&& 0x0f ||| 0xe0).toNat = x.toNat % 16 + 0xE0 ∧
      (x &&& 0x07 ||| 0xf0).toNat = x.toNat % 8 + 0xF0 ∧
      (x &&& 0x3f ||| 0x80).toNat = x.toNat % 64 + 0x80 := by
  simp only [UInt8.or_toNat, UInt8.and_toNat]
  exact ⟨marker_toNat (k := 5) (by decide), marker_toNat (k := 4) (by decide),
    marker_toNat (k := 3) (by decide), marker_toNat (k := 6) (by decide)⟩

/-! The bytes of a code point that `String.utf8EncodeChar` shifts out. -/

theorem val_toUInt8_toNat (c : Char) : c.val.toUInt8.toNat = c.toNat % 256 := rfl

theorem val_shift6_toNat (c : Char) : (c.val >>> 6).toUInt8.toNat = c.toNat / 64 % 256 :=
  congrArg (· % 256) (Nat.shiftRight_eq_div_pow c.toNat 6)

theorem val_shift12_toNat (c : Char) : (c.val >>> 12).toUInt8.toNat = c.toNat / 4096 % 256 :=
  congrArg (· % 256) (Nat.shiftRight_eq_div_pow c.toNat 12)

theorem val_shift18_toNat (c : Char) :
    (c.val >>> 18).toUInt8.toNat = c.toNat / 262144 % 256 :=
  congrArg (· % 256) (Nat.shiftRight_eq_div_pow c.toNat 18)

/-- The encoding of a character, as numbers: one byte below `0x80`, and above it a leading
    byte with the width's marker bits and continuation bytes of six bits each. -/
theorem encodeChar_map_toNat (c : Char) : (String.utf8EncodeChar c).map UInt8.toNat =
    if c.toNat ≤ 0x7f then [c.toNat]
    else if c.toNat ≤ 0x7ff then [c.toNat / 0x40 + 0xC0, c.toNat % 0x40 + 0x80]
    else if c.toNat ≤ 0xffff then
      [c.toNat / 0x1000 + 0xE0, c.toNat / 0x40 % 0x40 + 0x80, c.toNat % 0x40 + 0x80]
    else [c.toNat / 0x40000 + 0xF0, c.toNat / 0x1000 % 0x40 + 0x80,
      c.toNat / 0x40 % 0x40 + 0x80, c.toNat % 0x40 + 0x80] := by
  have hvalid : c.toNat < 0xd800 ∨ (0xdfff < c.toNat ∧ c.toNat < 0x110000) := c.valid
  have hb2 := fun x => (encodeChar_bytes x).1
  have hb3 := fun x => (encodeChar_bytes x).2.1
  have hb4 := fun x => (encodeChar_bytes x).2.2.1
  have hcont := fun x => (encodeChar_bytes x).2.2.2
  unfold String.utf8EncodeChar
  dsimp only
  simp only [show c.val ≤ 0x7f ↔ c.toNat ≤ 0x7f from Iff.rfl,
    show c.val ≤ 0x7ff ↔ c.toNat ≤ 0x7ff from Iff.rfl,
    show c.val ≤ 0xffff ↔ c.toNat ≤ 0xffff from Iff.rfl]
  split_ifs <;>
    simp only [List.map_cons, List.map_nil, hb2, hb3, hb4, hcont, val_toUInt8_toNat,
      val_shift6_toNat, val_shift12_toNat, val_shift18_toNat, List.cons.injEq, and_true,
      Nat.mod_mod_of_dvd _ (show 64 ∣ 256 by decide), Nat.mod_mod_of_dvd _ (show 32 ∣ 256 by decide),
      Nat.mod_mod_of_dvd _ (show 16 ∣ 256 by decide), Nat.mod_mod_of_dvd _ (show 8 ∣ 256 by decide)] <;>
    omega

/-- `DecodeRune` reads back the encoding of a character, whatever follows it. -/
theorem decodeRune_encodeChar_append (c : Char) (l : Bytes) :
    decodeRune (String.utf8EncodeChar c ++ l) = (c, (String.utf8EncodeChar c).length) := by
  have hvalid : c.toNat < 0xd800 ∨ (0xdfff < c.toNat ∧ c.toNat < 0x110000) := c.valid
  have hchar : ∀ {v}, v = c.toNat → Char.ofNat v = c := fun h => by rw [h, Char.ofNat_toNat]
  have hm := encodeChar_map_toNat c
  generalize String.utf8EncodeChar c = e at hm ⊢
  split_ifs at hm with h1 h2 h3
  · obtain ⟨b0, _, rfl, e0, hnil⟩ := List.map_eq_cons_iff.mp hm
    cases List.map_eq_nil_iff.mp hnil
    rw [List.cons_append, List.nil_append, decodeRune_ascii (by omega), hchar e0]
    rfl
  · obtain ⟨b0, _, rfl, e0, hm⟩ := List.map_eq_cons_iff.mp hm
    obtain ⟨b1, _, rfl, e1, hnil⟩ := List.map_eq_cons_iff.mp hm
    cases List.map_eq_nil_iff.mp hnil
    obtain ⟨hw, hb1, hv⟩ := width_two_iff.mpr ⟨hvalid, h1, h2, e0.symm, e1.symm⟩
    unfold decodeRune
    dsimp only [List.cons_append, List.nil_append]
    rw [if_neg (by omega), leadWidth_eq_two.mpr hw]
    dsimp only
    rw [if_pos (secondOK_two hw hb1), hchar hv]
    rfl
  · obtain ⟨b0, _, rfl, e0, hm⟩ := List.map_eq_cons_iff.mp hm
    obtain ⟨b1, _, rfl, e1, hm⟩ := List.map_eq_cons_iff.mp hm
    obtain ⟨b2, _, rfl, e2, hnil⟩ := List.map_eq_cons_iff.mp hm
    cases List.map_eq_nil_iff.mp hnil
    obtain ⟨hw, hb1, hE0, hED, hb2, hv⟩ :=
      width_three_iff.mpr ⟨hvalid, h1, h2, h3, e0.symm, e1.symm, e2.symm⟩
    unfold decodeRune
    dsimp only [List.cons_append, List.nil_append]
    rw [if_neg (by omega), leadWidth_eq_three.mpr hw]
    dsimp only
    rw [if_pos (Bool.and_eq_true_iff.2 ⟨secondOK_three hw hb1 hE0 hED, isCont_eq_true_iff.2 hb2⟩),
      hchar hv]
    rfl
  · obtain ⟨b0, _, rfl, e0, hm⟩ := List.map_eq_cons_iff.mp hm
    obtain ⟨b1, _, rfl, e1, hm⟩ := List.map_eq_cons_iff.mp hm
    obtain ⟨b2, _, rfl, e2, hm⟩ := List.map_eq_cons_iff.mp hm
    obtain ⟨b3, _, rfl, e3, hnil⟩ := List.map_eq_cons_iff.mp hm
    cases List.map_eq_nil_iff.mp hnil
    obtain ⟨hw, hb1, hF0, hF4, hb2, hb3, hv⟩ :=
      width_four_iff.mpr ⟨hvalid, h1, h2, h3, e0.symm, e1.symm, e2.symm, e3.symm⟩
    unfold decodeRune
    dsimp only [List.cons_append, List.nil_append]
    rw [if_neg (by omega), leadWidth_eq_four.mpr hw]
    dsimp only
    rw [if_pos (Bool.and_eq_true_iff.2 ⟨Bool.and_eq_true_iff.2 ⟨secondOK_four hw hb1 hF0 hF4,
      isCont_eq_true_iff.2 hb2⟩, isCont_eq_true_iff.2 hb3⟩), hchar hv]
    rfl

theorem runes_encodeChar_append (c : Char) (l : Bytes) :
    runes (String.utf8EncodeChar c ++ l) = c :: runes l := by
  obtain ⟨b, bs, hb⟩ := List.exists_cons_of_ne_nil (List.ne_nil_of_length_pos
    ((String.length_utf8EncodeChar c).symm ▸ Char.utf8Size_pos c))
  have hd := decodeRune_encodeChar_append c l
  rw [hb, List.cons_append] at hd ⊢
  rw [runes_cons, hd, ← List.cons_append, ← hb, List.drop_left]

/-- Decoding reads a valid text back, whatever follows it. -/
theorem runes_utf8_append (s : List Char) (l : Bytes) : runes (utf8 s ++ l) = s ++ runes l := by
  induction s with
  | nil => rfl
  | cons c s ih => rw [utf8_cons, List.append_assoc, runes_encodeChar_append, ih]; rfl

@[simp] theorem runes_utf8 (s : List Char) : runes (utf8 s) = s := by
  simpa using runes_utf8_append s []

example : runes (utf8 "añ€𝄞".data) = "añ€𝄞".data := by decide

/-! ### What a decoding says about the bytes -/

/-- Every way `DecodeRune` can end: `RuneError` one byte wide, an ASCII byte, or a leading
    byte of width 2, 3 or 4 whose following bytes lie in their ranges. -/
theorem decodeRune_cases (b0 : UInt8) (rest : Bytes) :
    decodeRune (b0 :: rest) = (RuneError, 1) ∨
    (b0.toNat < 0x80 ∧ decodeRune (b0 :: rest) = (Char.ofNat b0.toNat, 1)) ∨
    (∃ b1 r, rest = b1 :: r ∧ ¬ b0.toNat < 0x80 ∧ leadWidth b0.toNat = 2 ∧
      secondOK b0.toNat b1.toNat = true ∧
      decodeRune (b0 :: rest) = (Char.ofNat ((b0.toNat - 0xC0) * 0x40 + (b1.toNat - 0x80)), 2)) ∨
    (∃ b1 b2 r, rest = b1 :: b2 :: r ∧ ¬ b0.toNat < 0x80 ∧ leadWidth b0.toNat = 3 ∧
      secondOK b0.toNat b1.toNat = true ∧ isCont b2.toNat = true ∧
      decodeRune (b0 :: rest) = (Char.ofNat ((b0.toNat - 0xE0) * 0x1000 +
        (b1.toNat - 0x80) * 0x40 + (b2.toNat - 0x80)), 3)) ∨
    (∃ b1 b2 b3 r, rest = b1 :: b2 :: b3 :: r ∧ ¬ b0.toNat < 0x80 ∧ leadWidth b0.toNat = 4 ∧
      secondOK b0.toNat b1.toNat = true ∧ isCont b2.toNat = true ∧ isCont b3.toNat = true ∧
      decodeRune (b0 :: rest) = (Char.ofNat ((b0.toNat - 0xF0) * 0x40000 +
        (b1.toNat - 0x80) * 0x1000 + (b2.toNat - 0x80) * 0x40 + (b3.toNat - 0x80)), 4)) := by
  by_cases hb : b0.toNat < 0x80
  · exact .inr (.inl ⟨hb, decodeRune_ascii hb rest⟩)
  unfold decodeRune
  dsimp only
  rw [if_neg hb]
  split
  · split_ifs with h
    · exact .inr (.inr (.inl ⟨_, _, rfl, hb, ‹_›, h, rfl⟩))
    · exact .inl rfl
  · split_ifs with h
    · simp only [Bool.and_eq_true] at h
      exact .inr (.inr (.inr (.inl ⟨_, _, _, rfl, hb, ‹_›, h.1, h.2, rfl⟩)))
    · exact .inl rfl
  · split_ifs with h
    · simp only [Bool.and_eq_true] at h
      exact .inr (.inr (.inr (.inr ⟨_, _, _, _, rfl, hb, ‹_›, h.1.1, h.1.2, h.2, rfl⟩)))
    · exact .inl rfl
  · exact .inl rfl

theorem map_toNat_injective : Function.Injective (List.map UInt8.toNat) :=
  List.map_injective_iff.mpr fun _ _ => UInt8.toNat.inj

/-- A rune `DecodeRune` reads other than `RuneError` comes from its own encoding: the decoder
    takes only the shortest encoding of a scalar value. -/
theorem decodeRune_valid {b0 : UInt8} {rest : Bytes}
    (h : (decodeRune (b0 :: rest)).1 ≠ RuneError) :
    b0 :: rest = String.utf8EncodeChar (decodeRune (b0 :: rest)).1 ++
      (b0 :: rest).drop (decodeRune (b0 :: rest)).2 := by
  rcases decodeRune_cases b0 rest with hd | ⟨hb, hd⟩ | ⟨b1, r, rfl, hb, hw, h1, hd⟩ |
      ⟨b1, b2, r, rfl, hb, hw, h1, h2, hd⟩ | ⟨b1, b2, b3, r, rfl, hb, hw, h1, h2, h3, hd⟩ <;>
    simp only [hd] at h ⊢
  · exact absurd rfl h
  · have he : String.utf8EncodeChar (Char.ofNat b0.toNat) = [b0] := map_toNat_injective (by
      rw [encodeChar_map_toNat, toNat_ofNat_of_valid (.inl (by omega)), if_pos (by omega)]; rfl)
    rw [he]
    rfl
  · have h1 := secondOK_eq_true_iff.1 h1
    obtain ⟨hs, h7f, h7ff, e0, e1⟩ :=
      width_two_iff.mp ⟨leadWidth_eq_two.mp hw, ⟨h1.1, h1.2.1⟩, rfl⟩
    have he : String.utf8EncodeChar (Char.ofNat _) = [b0, b1] := map_toNat_injective (by
      rw [encodeChar_map_toNat, toNat_ofNat_of_valid hs, if_neg h7f, if_pos h7ff, e0, e1]
      rfl)
    rw [he]
    rfl
  · have h1 := secondOK_eq_true_iff.1 h1
    obtain ⟨hs, h7f, h7ff, hffff, e0, e1, e2⟩ := width_three_iff.mp ⟨leadWidth_eq_three.mp hw,
      ⟨h1.1, h1.2.1⟩, h1.2.2.1, h1.2.2.2.1, isCont_eq_true_iff.1 h2, rfl⟩
    have he : String.utf8EncodeChar (Char.ofNat _) = [b0, b1, b2] := map_toNat_injective (by
      rw [encodeChar_map_toNat, toNat_ofNat_of_valid hs, if_neg h7f, if_neg h7ff, if_pos hffff,
        e0, e1, e2]
      rfl)
    rw [he]
    rfl
  · have h1 := secondOK_eq_true_iff.1 h1
    obtain ⟨hs, h7f, h7ff, hffff, e0, e1, e2, e3⟩ := width_four_iff.mp ⟨leadWidth_eq_four.mp hw,
      ⟨h1.1, h1.2.1⟩, h1.2.2.2.2.1, h1.2.2.2.2.2, isCont_eq_true_iff.1 h2,
      isCont_eq_true_iff.1 h3, rfl⟩
    have he : String.utf8EncodeChar (Char.ofNat _) = [b0, b1, b2, b3] := map_toNat_injective (by
      rw [encodeChar_map_toNat, toNat_ofNat_of_valid hs, if_neg h7f, if_neg h7ff, if_neg hffff,
        e0, e1, e2, e3]
      rfl)
    rw [he]
    rfl

/-- Where the decoding of `l` starts with characters other than `RuneError`, `l` starts with
    their encoding. -/
theorem runes_eq_append {p : List Char} (hp : ∀ c ∈ p, c ≠ RuneError) :
    ∀ {l : Bytes} {r : List Char}, runes l = p ++ r → ∃ m, l = utf8 p ++ m ∧ runes m = r := by
  induction p with
  | nil => exact fun h => ⟨_, rfl, h⟩
  | cons c p ih =>
    intro l r h
    cases l with
    | nil => cases h
    | cons b bs =>
      rw [runes_cons, List.cons_append, List.cons.injEq] at h
      obtain ⟨m, hm, hr⟩ := ih (fun x hx => hp x (List.mem_cons_of_mem c hx)) h.2
      have hl := decodeRune_valid (h.1 ▸ hp c (List.mem_cons_self c p))
      rw [h.1, hm] at hl
      exact ⟨m, hl.trans (by rw [utf8_cons, List.append_assoc]), hr⟩

end Shawk.Go
