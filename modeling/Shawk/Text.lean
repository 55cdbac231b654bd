import Mathlib.Data.List.Basic

/-!
# Go text primitives

The probe reads kernel tables as text.  This module models the Go library functions it
uses to cut that text apart, over a text given as its list of characters:

* `unicode.IsSpace` (`isSpace`): the Latin-1 spaces, and above Latin-1 the rest of the
  Unicode White_Space class;
* `strings.Fields` (`fields`): the maximal runs of non-space characters, in order;
* `strings.Split` at one character, which is `List.splitOn`;
* `strings.Index` (`index`), over the bytes of the two strings.

The lemmas compute `fields` on a line laid out as blanks and words, which is how
`/proc/net/tcp` and `/proc/<pid>/stat` are written.
-/

namespace Shawk.Go

/-! ### Spaces and fields -/

/-- `unicode.IsSpace`: `'\t'`, `'\n'`, `'\v'`, `'\f'`, `'\r'`, `' '`, U+0085 and U+00A0 in
    Latin-1, and U+1680, U+2000–U+200A, U+2028, U+2029, U+202F, U+205F, U+3000 above it. -/
def isSpace (c : Char) : Bool :=
  let n := c.toNat
  if n ≤ 0xFF then
    (0x09 ≤ n && n ≤ 0x0D) || n == 0x20 || n == 0x85 || n == 0xA0
  else
    n == 0x1680 || (0x2000 ≤ n && n ≤ 0x200A) || n == 0x2028 || n == 0x2029 ||
      n == 0x202F || n == 0x205F || n == 0x3000

/-- `strings.Fields`: split around each run of one or more spaces, dropping empty pieces. -/
def fields (s : List Char) : List (List Char) :=
  (s.splitOnP isSpace).filter fun w => !w.isEmpty

/-- A word: a nonempty run of non-space characters, one field of a line. -/
def IsWord (w : List Char) : Prop := w ≠ [] ∧ ∀ c ∈ w, isSpace c = false

instance (w : List Char) : Decidable (IsWord w) := inferInstanceAs (Decidable (_ ∧ _))

/-- Blanks: spaces only (possibly none). -/
def IsBlank (b : List Char) : Prop := ∀ c ∈ b, isSpace c = true

instance (b : List Char) : Decidable (IsBlank b) := inferInstanceAs (Decidable (∀ c ∈ b, _))

@[simp] theorem fields_nil : fields [] = [] := rfl

/-- `strings.Index`: the first position at which `sub` occurs in `s`; `none` is `-1`.  Go
    compares the strings byte by byte, so `s` and `sub` are their bytes there. -/
def index {α : Type} [DecidableEq α] (s sub : List α) : Option Nat :=
  match s with
  | [] => if sub = [] then some 0 else none
  | c :: cs => if sub.isPrefixOf (c :: cs) then some 0 else (index cs sub).map (· + 1)

/-! ### Fields of a laid-out line -/

theorem splitOnP_blank_append {b : List Char} (hb : IsBlank b) (s : List Char) :
    (b ++ s).splitOnP isSpace = List.replicate b.length [] ++ s.splitOnP isSpace := by
  induction b with
  | nil => rfl
  | cons c b ih =>
    have hc : isSpace c = true := hb c (List.mem_cons_self c b)
    rw [List.cons_append, List.splitOnP_cons, if_pos hc,
      ih fun x hx => hb x (List.mem_cons_of_mem c hx)]
    rfl

/-- Leading blanks do not change the fields. -/
theorem fields_blank_append {b : List Char} (hb : IsBlank b) (s : List Char) :
    fields (b ++ s) = fields s := by
  simp only [fields, splitOnP_blank_append hb, List.filter_append, List.filter_replicate,
    List.isEmpty_nil, Bool.not_true, Bool.false_eq_true, if_false, List.nil_append]

theorem fields_word {w : List Char} (hw : IsWord w) : fields w = [w] := by
  have hne : w.isEmpty = false := List.isEmpty_eq_false.mpr hw.1
  simp only [fields, List.splitOnP_eq_single isSpace w fun c hc => by simp [hw.2 c hc],
    List.filter_singleton, hne, Bool.not_false, cond_true]

/-- A word followed by a nonempty run of blanks is the first field. -/
theorem fields_word_blank_append {w b : List Char} (hw : IsWord w) (hb : IsBlank b)
    (hb₀ : b ≠ []) (s : List Char) : fields (w ++ b ++ s) = w :: fields s := by
  obtain ⟨c, b', rfl⟩ := List.exists_cons_of_ne_nil hb₀
  have hc : isSpace c = true := hb c (List.mem_cons_self c b')
  have hne : w.isEmpty = false := List.isEmpty_eq_false.mpr hw.1
  rw [List.append_assoc, List.cons_append]
  simp only [fields, List.splitOnP_first isSpace w (fun x hx => by simp [hw.2 x hx]) c hc,
    List.filter_cons, hne, Bool.not_false, if_true]
  exact congrArg (w :: ·) (fields_blank_append (fun x hx => hb x (List.mem_cons_of_mem c hx)) s)

theorem fields_word_blank {w b : List Char} (hw : IsWord w) (hb : IsBlank b) :
    fields (w ++ b) = [w] := by
  by_cases hb₀ : b = []
  · simpa [hb₀] using fields_word hw
  · simpa using fields_word_blank_append hw hb hb₀ []

/-- The fields of `w₀ s₁ w₁ … sₙ wₙ t`, for words `wᵢ`, nonempty blank separators `sᵢ` and
    trailing blanks `t`, are `w₀, …, wₙ`. -/
theorem fields_words {w : List Char} (hw : IsWord w) (rest : List (List Char × List Char))
    (hrest : ∀ p ∈ rest, IsBlank p.1 ∧ p.1 ≠ [] ∧ IsWord p.2) {t : List Char} (ht : IsBlank t) :
    fields (w ++ rest.flatMap (fun p => p.1 ++ p.2) ++ t) = w :: rest.map Prod.snd := by
  induction rest generalizing w with
  | nil => simpa using fields_word_blank hw ht
  | cons p rest ih =>
    obtain ⟨hs, hs₀, hw'⟩ := hrest p (List.mem_cons_self p rest)
    have key := fields_word_blank_append hw hs hs₀
      (p.2 ++ rest.flatMap (fun p => p.1 ++ p.2) ++ t)
    simp only [List.append_assoc] at key ih ⊢
    simp only [List.flatMap_cons, List.append_assoc, key, List.map_cons,
      ih hw' fun q hq => hrest q (List.mem_cons_of_mem p hq)]

/-! ### Splitting at one character -/

theorem not_beq_of_not_mem {x : Char} {l : List Char} (h : x ∉ l) :
    ∀ c ∈ l, ¬ (c == x) = true :=
  fun _ hc he => h (eq_of_beq he ▸ hc)

theorem splitOn_of_not_mem {x : Char} {l : List Char} (h : x ∉ l) : l.splitOn x = [l] :=
  List.splitOnP_eq_single _ l (not_beq_of_not_mem h)

theorem splitOn_append_cons {x : Char} {l : List Char} (h : x ∉ l) (rest : List Char) :
    (l ++ x :: rest).splitOn x = l :: rest.splitOn x :=
  List.splitOnP_first _ l (not_beq_of_not_mem h) x (beq_self_eq_true x) rest

theorem eq_append_cons_of_splitOn_eq_pair {x : Char} {s l r : List Char}
    (h : s.splitOn x = [l, r]) : s = l ++ x :: r := by
  simpa [h, List.intercalate] using (List.intercalate_splitOn s x).symm

end Shawk.Go
