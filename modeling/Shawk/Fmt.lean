import Shawk.Numerals

/-!
# Go `fmt` scanning

`parseProcStat` reads `/proc/<pid>/stat` with `fmt.Fscan(f, &pid2, &comm, &state, &ppid,
&pgrp)` and then the command name with `fmt.Sscanf(comm, "(%s)", &pname)`;
`parseSocketInode` reads a link target with `fmt.Sscanf(lnk, "socket:[%d]", &ino)`.  This
module follows the scanner of `fmt/scan.go` for exactly these operands: `SkipSpace`, the
string token of `%v`/`%s`, the integer of `%v` (sign, base prefix, digits with underscores,
then `strconv.ParseInt(tok, 0, 64)`), the unsigned integer of `%d`, and format literals.
An operand that meets the end of input fails with `io.EOF` (`notEOF` panics with it and
`errorHandler` returns it); a format literal reads one input character with `mustReadRune`,
which fails with `io.ErrUnexpectedEOF` there.
-/

namespace Shawk.Go

/-- Why a scan stopped. -/
inductive ScanFailure
  /-- `io.EOF`: the input ended where an operand starts. -/
  | eof
  /-- `io.ErrUnexpectedEOF`: the input ended at a format literal. -/
  | unexpectedEOF
  /-- "unexpected newline". -/
  | unexpectedNewline
  /-- "expected integer". -/
  | expectedInteger
  /-- "input does not match format". -/
  | inputMismatch
  /-- The `strconv` error on the token. -/
  | number (e : NumError)
  /-- "unsigned integer overflow on token". -/
  | overflow
deriving DecidableEq, Repr

/-- `SkipSpace`: skip spaces; a newline is a space for `Fscan` (`nlIsSpace`) and an error for
    `Sscanf`, and a `\r` before a newline is dropped. -/
def skipSpace (nlIsSpace : Bool) : List Char → Except ScanFailure (List Char)
  | [] => .ok []
  | c :: cs =>
    if c = '\r' ∧ cs.head? = some '\n' then skipSpace nlIsSpace cs
    else if c = '\n' then
      if nlIsSpace then skipSpace nlIsSpace cs else .error .unexpectedNewline
    else if isSpace c then skipSpace nlIsSpace cs
    else .ok (c :: cs)

/-- The string operand of `%v` and `%s` (`convertString`): skip spaces, then take the run of
    non-space characters; at the end of input, `io.EOF`. -/
def scanString (nlIsSpace : Bool) (s : List Char) :
    Except ScanFailure (List Char × List Char) := do
  let s ← skipSpace nlIsSpace s
  if s = [] then throw .eof
  pure (s.span fun c => !isSpace c)

/-- `binaryDigits`, `octalDigits`, `decimalDigits`, `hexadecimalDigits` of `fmt`, with the
    underscore `scanBasePrefix` adds to each. -/
def digitClass (base : Nat) (c : Char) : Bool :=
  c == '_' ||
    match base with
    | 2 => c == '0' || c == '1'
    | 8 => '0' ≤ c && c ≤ '7'
    | 16 => ('0' ≤ c && c ≤ '9') || ('a' ≤ c && c ≤ 'f') || ('A' ≤ c && c ≤ 'F')
    | _ => '0' ≤ c && c ≤ '9'

/-- `scanBasePrefix`: the prefix characters it accepts, the base whose digits follow, whether
    a `0` was found, and the rest of the input. -/
def scanBasePrefix : List Char → List Char × Nat × Bool × List Char
  | '0' :: c :: r =>
    if c = 'b' ∨ c = 'B' then (['0', c], 2, true, r)
    else if c = 'o' ∨ c = 'O' then (['0', c], 8, true, r)
    else if c = 'x' ∨ c = 'X' then (['0', c], 16, true, r)
    else (['0'], 8, true, c :: r)
  | ['0'] => (['0'], 8, true, [])
  | s => ([], 10, false, s)

/-- The `int` operand of `%v` (`scanInt`): skip spaces, an optional sign, the base prefix,
    the digits, then `strconv.ParseInt(tok, 0, 64)` on everything accepted; the end of input
    before the operand or before its first digit is `io.EOF`. -/
def scanInt (s : List Char) : Except ScanFailure (Int × List Char) := do
  let s ← skipSpace true s
  if s = [] then throw .eof
  let signed : List Char × List Char := match s with
    | c :: r => if c = '+' ∨ c = '-' then ([c], r) else ([], s)
    | [] => ([], [])
  let (pre, base, zeroFound, s) := scanBasePrefix signed.2
  let (ds, rest) := s.span (digitClass base)
  if zeroFound = false then
    if s = [] then throw .eof
    if ds = [] then throw .expectedInteger
  match parseInt (signed.1 ++ pre ++ ds) 0 64 with
  | (n, none) => pure (n, rest)
  | (_, some e) => throw (.number e)

/-- The unsigned operand of `%d` (`scanUint`): skip spaces, the decimal digits, then
    `strconv.ParseUint(tok, 10, 64)` and the check that the value fits `bitSize` bits. -/
def scanUintD (bitSize : Nat) (s : List Char) : Except ScanFailure (Nat × List Char) := do
  let s ← skipSpace false s
  if s = [] then throw .eof
  let (ds, rest) := s.span fun c => '0' ≤ c && c ≤ '9'
  if ds = [] then throw .expectedInteger
  match parseUint ds 10 64 with
  | (n, none) => if 2 ^ bitSize ≤ n then throw .overflow else pure (n, rest)
  | (_, some e) => throw (.number e)

/-- Format literals (`advance`): each reads one input character and must equal it. -/
def matchLiteral : List Char → List Char → Except ScanFailure (List Char)
  | [], s => .ok s
  | _ :: _, [] => .error .unexpectedEOF
  | f :: fs, c :: cs => if f = c then matchLiteral fs cs else .error .inputMismatch

/-! ### The three scans of the probe -/

/-- `fmt.Fscan(f, &pid2, &comm, &state, &ppid, &pgrp)`: newlines are spaces. -/
def fscanProcStat (s : List Char) :
    Except ScanFailure (Int × List Char × List Char × Int × Int) := do
  let (pid2, s) ← scanInt s
  let (comm, s) ← scanString true s
  let (state, s) ← scanString true s
  let (ppid, s) ← scanInt s
  let (pgrp, _) ← scanInt s
  pure (pid2, comm, state, ppid, pgrp)

/-- `fmt.Sscanf(comm, "(%s)", &pname)`: what `pname` holds afterwards, and the error.  The
    `%s` token runs to the end of `comm`, so the closing `)` of the format meets the end of
    input. -/
def sscanfParenString (comm : List Char) : List Char × Option ScanFailure :=
  match matchLiteral ['('] comm with
  | .error e => ([], some e)
  | .ok s =>
    match skipSpace false s >>= scanString false with
    | .error e => ([], some e)
    | .ok (pname, rest) =>
      match matchLiteral [')'] rest with
      | .error e => (pname, some e)
      | .ok _ => (pname, none)

/-- `fmt.Sscanf(lnk, "socket:[%d]", &ino)` with a `uint32` operand. -/
def sscanfSocketInode (lnk : List Char) : Except ScanFailure Nat := do
  let s ← matchLiteral "socket:[".data lnk
  let s ← skipSpace false s
  let (ino, s) ← scanUintD 32 s
  let _ ← matchLiteral [']'] s
  pure ino

/-! ### Scanning laid-out text -/

theorem skipSpace_of_not_space {c : Char} (hc : isSpace c = false) (nl : Bool)
    (cs : List Char) : skipSpace nl (c :: cs) = .ok (c :: cs) := by
  have h1 : c ≠ '\r' := fun h => absurd (h ▸ hc) (by decide)
  have h2 : c ≠ '\n' := fun h => absurd (h ▸ hc) (by decide)
  simp [skipSpace, h1, h2, hc]

theorem skipSpace_space (nl : Bool) (cs : List Char) :
    skipSpace nl (' ' :: cs) = skipSpace nl cs := by
  simp [skipSpace, isSpace]

theorem skipSpace_word {w : List Char} (hw : IsWord w) (nl : Bool) (rest : List Char) :
    skipSpace nl (w ++ rest) = .ok (w ++ rest) := by
  obtain ⟨c, w', rfl⟩ := List.exists_cons_of_ne_nil hw.1
  exact skipSpace_of_not_space (hw.2 c (List.mem_cons_self c w')) nl _

/-- `span` stops at the end of a run of characters that pass and before one that fails. -/
theorem span_append {p : Char → Bool} {w rest : List Char} (hw : ∀ c ∈ w, p c = true)
    (hrest : ∀ c ∈ rest.head?, p c = false) : (w ++ rest).span p = (w, rest) := by
  rw [List.span_eq_take_drop, List.takeWhile_append_of_pos hw, List.dropWhile_append_of_pos hw]
  cases rest with
  | nil => simp
  | cons c r => simp [List.takeWhile_cons, List.dropWhile_cons, hrest c rfl]

/-- The string operand reads one word up to the next space. -/
theorem scanString_word {w : List Char} (hw : IsWord w) (nl : Bool) {rest : List Char}
    (hrest : ∀ c ∈ rest.head?, isSpace c = true) : scanString nl (w ++ rest) = .ok (w, rest) := by
  have hspan : (w ++ rest).span (fun c => !isSpace c) = (w, rest) :=
    span_append (fun c hc => by simp [hw.2 c hc]) (fun c hc => by simp [hrest c hc])
  simp only [scanString, skipSpace_word hw, bind, Except.bind, hspan,
    List.append_eq_nil, hw.1, false_and, if_false]
  rfl

theorem scanString_space (nl : Bool) (s : List Char) :
    scanString nl (' ' :: s) = scanString nl s := by
  simp only [scanString, skipSpace_space]

theorem scanInt_space (s : List Char) : scanInt (' ' :: s) = scanInt s := by
  simp only [scanInt, skipSpace_space]

theorem isSpace_range {c : Char} (hc : isSpace c = true) : c.toNat < 48 ∨ 102 < c.toNat := by
  unfold isSpace at hc
  dsimp only at hc
  split at hc <;> simp at hc <;> omega

/-- A space is no digit of any base. -/
theorem digitClass_of_isSpace {c : Char} (hc : isSpace c = true) (base : Nat) :
    digitClass base c = false := by
  have hn := isSpace_range hc
  have h95 : c ≠ '_' := fun h => by subst h; simp at hn
  have h0 : c ≠ '0' := fun h => by subst h; simp at hn
  have h1 : c ≠ '1' := fun h => by subst h; simp at hn
  unfold digitClass
  split <;> simp only [Bool.or_eq_false_iff, Bool.and_eq_false_iff, beq_eq_false_iff_ne, ne_eq,
    h95, h0, h1, not_false_eq_true, true_and, decide_eq_false_iff_not, char_le_iff,
    Char.reduceToNat] <;> omega

theorem digitClass_ten_of_digit {c : Char} (hc : '0' ≤ c ∧ c ≤ '9') : digitClass 10 c = true := by
  simp [digitClass, hc]

/-- A decimal digit is no space. -/
theorem isSpace_digit {c : Char} (hc : '0' ≤ c ∧ c ≤ '9') : isSpace c = false :=
  Bool.eq_false_iff.mpr fun hs => by
    have h09 : '0'.toNat = 48 ∧ '9'.toNat = 57 := ⟨rfl, rfl⟩
    have := isSpace_range hs
    rw [char_le_iff, char_le_iff] at hc
    omega

theorem scanBasePrefix_of_ne_zero {c : Char} (hc : c ≠ '0') (s : List Char) :
    scanBasePrefix (c :: s) = ([], 10, false, c :: s) := by
  unfold scanBasePrefix
  split <;> simp_all

/-- The decimal numeral of a positive number starts with a digit other than `0`, which is no
    space and no sign, and `scanInt` reads it in base 10 up to the space after it. -/
theorem scanInt_digits {m : Nat} (hm : 0 < m) {rest : List Char}
    (hrest : ∀ c ∈ rest.head?, isSpace c = true) :
    ∃ c r, Nat.toDigits 10 m = c :: r ∧ isSpace c = false ∧ ¬ (c = '+' ∨ c = '-') ∧
      scanBasePrefix (c :: (r ++ rest)) = ([], 10, false, c :: (r ++ rest)) ∧
      (c :: (r ++ rest)).span (digitClass 10) = (c :: r, rest) := by
  obtain ⟨c, r, hcr, hc⟩ := toDigits_ten_head hm
  have hdigits := toDigits_ten_digits m
  have hdig := hdigits c (hcr ▸ List.mem_cons_self c r)
  refine ⟨c, r, hcr, isSpace_digit hdig, ?_, scanBasePrefix_of_ne_zero hc _, ?_⟩
  · rintro (rfl | rfl) <;> exact absurd hdig (by decide)
  · rw [← List.cons_append, ← hcr]
    exact span_append (fun c hc => digitClass_ten_of_digit (hdigits c hc))
      fun c hc => digitClass_of_isSpace (hrest c hc) 10

/-- The `int` operand reads back every decimal `int64` up to the next space. -/
theorem scanInt_toString {n : Int} (hn : -2 ^ 63 ≤ n ∧ n < 2 ^ 63) {rest : List Char}
    (hrest : ∀ c ∈ rest.head?, isSpace c = true) :
    scanInt ((toString n).data ++ rest) = .ok (n, rest) := by
  have hparse := parseInt_toString hn
  match n, hparse with
  | .ofNat 0, _ =>
    show scanInt ('0' :: rest) = _
    have hpre : scanBasePrefix ('0' :: rest) = (['0'], 8, true, rest) := by
      cases rest with
      | nil => rfl
      | cons c r =>
        have hc := hrest c rfl
        have hb : ¬ (c = 'b' ∨ c = 'B') := by rintro (rfl | rfl) <;> exact absurd hc (by decide)
        have ho : ¬ (c = 'o' ∨ c = 'O') := by rintro (rfl | rfl) <;> exact absurd hc (by decide)
        have hx : ¬ (c = 'x' ∨ c = 'X') := by rintro (rfl | rfl) <;> exact absurd hc (by decide)
        simp only [scanBasePrefix, if_neg hb, if_neg ho, if_neg hx]
    have hspan : rest.span (digitClass 8) = ([], rest) :=
      @span_append _ [] rest (fun _ h => absurd h (List.not_mem_nil _))
        fun c hc => digitClass_of_isSpace (hrest c hc) 8
    simp only [scanInt, skipSpace_of_not_space (show isSpace '0' = false by decide), bind,
      Except.bind, pure, Except.pure, List.cons_ne_nil, if_false,
      if_neg (show ¬ ('0' = '+' ∨ '0' = '-') by decide), hpre, hspan, Bool.true_eq_false]
    rfl
  | .ofNat (m + 1), hparse =>
    obtain ⟨c, r, hcr, hsp, hsign, hpre, hspan⟩ := scanInt_digits (Nat.succ_pos m) hrest
    have hparse' : parseInt (c :: r) 0 64 = (Int.ofNat (m + 1), none) := hcr ▸ hparse
    show scanInt (Nat.toDigits 10 (m + 1) ++ rest) = _
    rw [hcr, List.cons_append]
    simp only [scanInt, skipSpace_of_not_space hsp, bind, Except.bind, pure, Except.pure,
      List.cons_ne_nil, if_false, if_neg hsign, hpre, hspan, List.nil_append, hparse',
      Bool.false_eq_true, ↓reduceIte]
  | .negSucc m, hparse =>
    obtain ⟨c, r, hcr, -, -, hpre, hspan⟩ := scanInt_digits (Nat.succ_pos m) hrest
    have hparse' : parseInt ('-' :: c :: r) 0 64 = (Int.negSucc m, none) := hcr ▸ hparse
    show scanInt ('-' :: (Nat.toDigits 10 (m + 1) ++ rest)) = _
    rw [hcr, List.cons_append]
    simp only [scanInt, skipSpace_of_not_space (show isSpace '-' = false by decide), bind,
      Except.bind, pure, Except.pure, List.cons_ne_nil, if_false, or_true, ↓reduceIte, hpre,
      hspan, List.singleton_append, List.append_nil, hparse', Bool.false_eq_true]

theorem isSpace_head_space (s : List Char) : ∀ c ∈ (' ' :: s).head?, isSpace c = true := by
  intro c hc
  cases Option.mem_some_iff.mp hc
  rfl

/-- `Fscan` of a `stat` line laid out as the kernel writes it: the PID, the command word,
    the state word, the parent and the group, each after one space, then anything that
    starts with a space. -/
theorem fscanProcStat_line {pid2 ppid pgrp : Int} (h2 : -2 ^ 63 ≤ pid2 ∧ pid2 < 2 ^ 63)
    (hp : -2 ^ 63 ≤ ppid ∧ ppid < 2 ^ 63) (hg : -2 ^ 63 ≤ pgrp ∧ pgrp < 2 ^ 63)
    {comm state tail : List Char} (hcomm : IsWord comm) (hstate : IsWord state)
    (htail : ∀ c ∈ tail.head?, isSpace c = true) :
    fscanProcStat ((toString pid2).data ++ ' ' :: (comm ++ ' ' :: (state ++ ' ' ::
        ((toString ppid).data ++ ' ' :: ((toString pgrp).data ++ tail))))) =
      .ok (pid2, comm, state, ppid, pgrp) := by
  simp only [fscanProcStat, bind, Except.bind, pure, Except.pure,
    scanInt_toString h2 (isSpace_head_space _), scanString_space,
    scanString_word hcomm true (isSpace_head_space _),
    scanString_word hstate true (isSpace_head_space _), scanInt_space,
    scanInt_toString hp (isSpace_head_space _), scanInt_toString hg htail]

/-- `Sscanf(comm, "(%s)", &pname)` on a parenthesised word: `pname` takes the word and the
    closing parenthesis, and the closing `)` of the format meets the end of input. -/
theorem sscanfParenString_paren {c : List Char} (hc : ∀ x ∈ c, isSpace x = false) :
    sscanfParenString ('(' :: (c ++ [')'])) = (c ++ [')'], some .unexpectedEOF) := by
  have hw : IsWord (c ++ [')']) := ⟨by simp, fun x hx => by
    rcases List.mem_append.mp hx with hx | hx
    · exact hc x hx
    · rw [List.mem_singleton.mp hx]; rfl⟩
  have hskip : skipSpace false (c ++ [')']) = .ok (c ++ [')']) := by
    simpa using skipSpace_word hw false []
  have hscan : scanString false (c ++ [')']) = .ok (c ++ [')'], []) := by
    simpa using @scanString_word _ hw false [] (by simp)
  simp only [sscanfParenString, show matchLiteral ['('] ('(' :: (c ++ [')'])) = .ok (c ++ [')'])
    from rfl, hskip, bind, Except.bind, hscan]
  rfl

/-! ### What `Sscanf` skips and reads -/

/-- `Sscanf`'s `SkipSpace` skips exactly a run of spaces other than a newline, up to the end of
    the input or a character that is no space. -/
theorem skipSpace_false_eq_ok_iff {s s' : List Char} :
    skipSpace false s = .ok s' ↔
      ∃ sp, s = sp ++ s' ∧ (∀ c ∈ sp, isSpace c = true ∧ c ≠ '\n') ∧
        ∀ c ∈ s'.head?, isSpace c = false := by
  constructor
  · intro h
    induction s with
    | nil => cases h; exact ⟨[], rfl, by simp, by simp⟩
    | cons c cs ih =>
      rw [skipSpace] at h
      by_cases hcr : c = '\r' ∧ cs.head? = some '\n'
      · rw [if_pos hcr] at h
        obtain ⟨sp, rfl, hsp, hs'⟩ := ih h
        exact ⟨c :: sp, rfl, List.forall_mem_cons.mpr ⟨by rw [hcr.1]; decide, hsp⟩, hs'⟩
      rw [if_neg hcr] at h
      by_cases hnl : c = '\n'
      · rw [if_pos hnl] at h; cases h
      rw [if_neg hnl] at h
      by_cases hc : isSpace c = true
      · rw [if_pos hc] at h
        obtain ⟨sp, rfl, hsp, hs'⟩ := ih h
        exact ⟨c :: sp, rfl, List.forall_mem_cons.mpr ⟨⟨hc, hnl⟩, hsp⟩, hs'⟩
      · rw [if_neg hc] at h
        cases h
        exact ⟨[], rfl, by simp, by simpa using hc⟩
  · rintro ⟨sp, rfl, hsp, hs'⟩
    induction sp with
    | nil =>
      cases s' with
      | nil => rfl
      | cons d ds => exact skipSpace_of_not_space (hs' d rfl) false ds
    | cons c sp ih =>
      obtain ⟨hc, hnl⟩ := hsp c (List.mem_cons_self c sp)
      have ih' := ih fun c' h => hsp c' (List.mem_cons_of_mem c h)
      rw [List.cons_append, skipSpace]
      by_cases hcr : c = '\r' ∧ (sp ++ s').head? = some '\n'
      · rw [if_pos hcr, ih']
      · rw [if_neg hcr, if_neg hnl, if_pos hc, ih']

theorem skipSpace_of_head {s : List Char} (hs : ∀ c ∈ s.head?, isSpace c = false) (nl : Bool) :
    skipSpace nl s = .ok s := by
  cases s with
  | nil => rfl
  | cons c cs => exact skipSpace_of_not_space (hs c rfl) nl cs

theorem digitTest_iff (c : Char) : ('0' ≤ c && c ≤ '9') = true ↔ '0' ≤ c ∧ c ≤ '9' := by simp

/-- From a character that is no space, the unsigned operand of `%d` reads a nonempty run of
    decimal digits whose value fits `bitSize` bits, up to the next character that is no
    digit. -/
theorem scanUintD_eq_ok_iff {bitSize : Nat} (hbits : bitSize ≤ 64) {s rest : List Char}
    {n : Nat} (hs : ∀ c ∈ s.head?, isSpace c = false) :
    scanUintD bitSize s = .ok (n, rest) ↔
      ∃ ds, s = ds ++ rest ∧ ds ≠ [] ∧ (∀ c ∈ ds, '0' ≤ c ∧ c ≤ '9') ∧
        (∀ c ∈ rest.head?, ¬ ('0' ≤ c ∧ c ≤ '9')) ∧ decimalValue ds < 2 ^ bitSize ∧
        n = decimalValue ds := by
  have hpow : 2 ^ bitSize ≤ 2 ^ 64 := Nat.pow_le_pow_right (by decide) hbits
  constructor
  · intro h
    have hds : ∀ c ∈ s.takeWhile (fun c => '0' ≤ c && c ≤ '9'), '0' ≤ c ∧ c ≤ '9' :=
      fun c hc => have h := List.mem_takeWhile_imp hc; (digitTest_iff c).mp h
    simp only [scanUintD, skipSpace_of_head hs, bind, Except.bind, pure, Except.pure,
      List.span_eq_take_drop] at h
    by_cases h1 : s = []
    · rw [if_pos h1] at h; cases h
    by_cases h2 : s.takeWhile (fun c => '0' ≤ c && c ≤ '9') = []
    · rw [if_neg h1, if_pos h2] at h; cases h
    rw [if_neg h1, if_neg h2, parseUint_decimalRun h2 hds] at h
    by_cases h3 : decimalValue (s.takeWhile (fun c => '0' ≤ c && c ≤ '9')) < 2 ^ bitSize
    · rw [if_pos (Nat.lt_of_lt_of_le h3 hpow)] at h
      simp only [if_neg (Nat.not_le.mpr h3), Except.ok.injEq, Prod.mk.injEq] at h
      obtain ⟨rfl, rfl⟩ := h
      refine ⟨_, (List.takeWhile_append_dropWhile _ s).symm, h2, hds, fun c hc hd => ?_, h3, rfl⟩
      have := List.head?_dropWhile_not (fun c => '0' ≤ c && c ≤ '9') s
      rw [hc] at this
      dsimp only at this
      exact Bool.false_ne_true (this.symm.trans ((digitTest_iff c).mpr hd))
    · by_cases h4 : decimalValue (s.takeWhile (fun c => '0' ≤ c && c ≤ '9')) < 2 ^ 64
      · rw [if_pos h4] at h
        simp only [if_pos (Nat.not_lt.mp h3)] at h
        cases h
      · rw [if_neg h4] at h
        cases h
  · rintro ⟨ds, rfl, hne, hds, hrest, hlt, rfl⟩
    have hspan : (ds ++ rest).span (fun c => '0' ≤ c && c ≤ '9') = (ds, rest) :=
      span_append (fun c hc => (digitTest_iff c).mpr (hds c hc))
        fun c hc => Bool.eq_false_iff.mpr fun h => hrest c hc ((digitTest_iff c).mp h)
    simp only [scanUintD, skipSpace_of_head hs, bind, Except.bind, pure, Except.pure, hspan,
      List.append_eq_nil, hne, false_and, if_false, parseUint_decimalRun hne hds,
      if_pos (Nat.lt_of_lt_of_le hlt hpow), if_neg (Nat.not_le.mpr hlt)]

/-! ### What a successful scan read -/

theorem except_bind_eq_ok {ε α β : Type} {x : Except ε α} {f : α → Except ε β} {b : β} :
    x.bind f = .ok b ↔ ∃ a, x = .ok a ∧ f a = .ok b := by
  cases x with
  | error e => exact ⟨fun h => (nomatch h), fun ⟨_, h, _⟩ => nomatch h⟩
  | ok a => exact ⟨fun h => ⟨a, rfl, h⟩, fun ⟨_, h, hf⟩ => by cases h; exact hf⟩

/-- `SkipSpace` stops at the end of input or at a character that is no space. -/
theorem skipSpace_head {nl : Bool} {s s' : List Char} (h : skipSpace nl s = .ok s') :
    ∀ c ∈ s'.head?, isSpace c = false := by
  induction s using skipSpace.induct nl with
  | case1 => cases h; intro c hc; cases hc
  | case2 c cs hcr ih => rw [skipSpace, if_pos hcr] at h; exact ih h
  | case3 cs hnl hcr ih => rw [skipSpace, if_neg hcr, if_pos rfl, if_pos hnl] at h; exact ih h
  | case4 cs hnl hcr => rw [skipSpace, if_neg hcr, if_pos rfl, if_neg hnl] at h; cases h
  | case5 c cs hcr hnl hc ih => rw [skipSpace, if_neg hcr, if_neg hnl, if_pos hc] at h; exact ih h
  | case6 c cs hcr hnl hc =>
    rw [skipSpace, if_neg hcr, if_neg hnl, if_neg hc] at h
    cases h
    intro d hd
    cases Option.mem_some_iff.mp hd
    exact Bool.eq_false_iff.mpr hc

/-- Every string operand the scanner returns is a word. -/
theorem scanString_eq_ok {nl : Bool} {s w rest : List Char}
    (h : scanString nl s = .ok (w, rest)) : IsWord w := by
  simp only [scanString, bind, pure, Except.pure, except_bind_eq_ok] at h
  obtain ⟨s', hs, h⟩ := h
  cases s' with
  | nil => cases h
  | cons c cs =>
    have hc : isSpace c = false := skipSpace_head hs c rfl
    simp only [if_neg (List.cons_ne_nil c cs), List.span_eq_take_drop, Except.bind,
      Except.ok.injEq, Prod.mk.injEq] at h
    obtain ⟨rfl, -⟩ := h
    refine ⟨by simp [List.takeWhile_cons, hc], fun x hx => ?_⟩
    simpa using List.mem_takeWhile_imp hx

/-- The command `Fscan` reads from a `stat` file is a word. -/
theorem fscanProcStat_comm {s : List Char} {pid2 ppid pgrp : Int} {comm state : List Char}
    (h : fscanProcStat s = .ok (pid2, comm, state, ppid, pgrp)) : IsWord comm := by
  simp only [fscanProcStat, bind, except_bind_eq_ok] at h
  obtain ⟨_, -, _, h2, _, -, _, -, _, -, h⟩ := h
  simp only [pure, Except.pure, Except.ok.injEq, Prod.mk.injEq] at h
  obtain ⟨-, rfl, -⟩ := h
  exact scanString_eq_ok h2

/-- `Sscanf(comm, "(%s)", &pname)` on a word: after a leading `(`, `pname` takes the rest of
    the word and the `)` of the format meets the end of input, unless nothing follows the `(`
    and `%s` meets it; a word that starts otherwise does not match the format. -/
theorem sscanfParenString_word {c : Char} {w : List Char} (hw : ∀ x ∈ w, isSpace x = false) :
    sscanfParenString (c :: w) =
      if c = '(' then (if w = [] then ([], some .eof) else (w, some .unexpectedEOF))
      else ([], some .inputMismatch) := by
  by_cases hc : c = '('
  · subst hc
    cases w with
    | nil => rfl
    | cons d ds =>
      have hword : IsWord (d :: ds) := ⟨List.cons_ne_nil d ds, hw⟩
      have hscan : scanString false (d :: ds) = .ok (d :: ds, []) := by
        simpa using @scanString_word _ hword false [] (by simp)
      simp only [sscanfParenString, show matchLiteral ['('] ('(' :: d :: ds) = .ok (d :: ds)
        from rfl, skipSpace_of_not_space (hw d (List.mem_cons_self d ds)), bind, Except.bind,
        hscan]
      rfl
  · simp [sscanfParenString, matchLiteral, Ne.symm hc, hc]

end Shawk.Go
