import Shawk.UserEnts

/-!
# Reading `/proc/<pid>/stat` and fd links

`parseProcStat` takes a process's name, parent and group from its `stat` file, and
`parseSocketInode` takes a socket's inode from an fd link.  Both read bytes as Go does: the
kernel writes a command name as it keeps it, up to 15 bytes cut anywhere, and `fmt` decodes
every byte that starts no UTF-8 encoding as U+FFFD.

`Fscan` splits the `stat` line at spaces before anything looks at the parentheses around
the command name.  So `parseProcStat` reads every line whose command decodes to no space and
does not end in `)`, and the name is that decoding (`parseProcStat_statLine`); a command
with a space shifts every later field and the scan fails, `TrimRight` takes the closing
parentheses off a command that ends in one, and a command cut inside a character comes back
with U+FFFD in its place.  Over every `stat` file, `parseProcStat` succeeds exactly when the
file opens and reads, `Fscan` reads its five fields, and the command word is `(` and more
(`parseProcStat_eq_ok_iff`).

`parseSocketInode` reads the link of a socket as its inode and a link that does not contain
`socket:[` as 0, but a path that contains `socket:[` after its start makes `Sscanf` fail,
and `BuildUserEntries` passes that error on.
-/

namespace Shawk.Netutil

open Shawk.Go

/-! ### `parseProcStat` -/

/-- An `int` of Go on a 64-bit platform. -/
def IsInt64 (n : Int) : Prop := -2 ^ 63 ≤ n ∧ n < 2 ^ 63

/-- The start of the `stat` file the kernel writes for a process: its PID, `(comm)`, its
    state, parent and group, each after one space, and then `tail`.  The command `comm` is
    the bytes the kernel keeps, unchecked. -/
def statLine (pid : Int) (comm : Bytes) (state : List Char) (ppid pgrp : Int) (tail : Bytes) :
    Bytes :=
  utf8 ((toString pid).data ++ [' ', '(']) ++ comm ++
    utf8 (')' :: ' ' :: (state ++ ' ' :: ((toString ppid).data ++ ' ' :: (toString pgrp).data)))
    ++ tail

/-- `Fscan` reads the runes of a `stat` file: the command comes out decoded, and the `)` after
    it, an ASCII byte, ends its last encoding. -/
theorem runes_statLine (pid : Int) (comm : Bytes) (state : List Char) (ppid pgrp : Int)
    (tail : Bytes) :
    runes (statLine pid comm state ppid pgrp tail) =
      (toString pid).data ++ ' ' :: (('(' :: (runes comm ++ [')'])) ++ ' ' :: (state ++ ' ' ::
        ((toString ppid).data ++ ' ' :: ((toString pgrp).data ++ runes tail)))) := by
  rw [statLine, List.append_assoc, List.append_assoc, runes_utf8_append,
    runes_append_of_head comm (by rw [utf8_cons_of_lt (by decide)]; rintro b ⟨⟩; decide),
    runes_utf8_append]
  simp only [List.append_assoc, List.cons_append, List.singleton_append, List.nil_append]

theorem trimRightParen_append_paren {c : List Char} (hc : c.getLast? ≠ some ')') :
    trimRightParen (c ++ [')']) = c := by
  rw [trimRightParen, List.reverse_append, List.reverse_singleton, List.singleton_append,
    List.dropWhile_cons, if_pos (beq_self_eq_true ')')]
  cases h : c.reverse with
  | nil => simpa using h.symm
  | cons x xs =>
    have hx : x ≠ ')' := fun e => hc (by rw [← List.head?_reverse, h, e]; rfl)
    rw [List.dropWhile_cons, if_neg (by simpa using hx), ← h, List.reverse_reverse]

/-- `parseProcStat` reads a `stat` file whose command decodes to no space and does not end in
    `)`: the name is the command's decoding, and the parent and group are the numbers after
    the state. -/
theorem parseProcStat_statLine (fs : ProcFs) (t : Nat) (pid : Int) {pid2 ppid pgrp : Int}
    (h2 : IsInt64 pid2) (hp : IsInt64 ppid) (hg : IsInt64 pgrp) {comm : Bytes}
    {state : List Char} {tail : Bytes} (hcomm : ∀ c ∈ runes comm, isSpace c = false)
    (hlast : (runes comm).getLast? ≠ some ')') (hstate : IsWord state)
    (htail : ∀ c ∈ (runes tail).head?, isSpace c = true)
    (hopen : (fs t).openStat (toString pid) = .ok ())
    (hstat : (fs (t + 1)).readStat (toString pid) =
      .ok (statLine pid2 comm state ppid pgrp tail)) :
    parseProcStat fs t pid = .ok ⟨⟨runes comm⟩, ppid, pgrp⟩ := by
  have hword : IsWord ('(' :: (runes comm ++ [')'])) := ⟨List.cons_ne_nil _ _, fun x hx => by
    simp only [List.mem_cons, List.mem_append, List.mem_singleton, List.not_mem_nil,
      or_false] at hx
    rcases hx with rfl | hx | rfl
    · rfl
    · exact hcomm x hx
    · rfl⟩
  simp only [parseProcStat, hopen, hstat, scanProcStat, runes_statLine,
    fscanProcStat_line h2 hp hg hword hstate htail, sscanfParenString_paren hcomm,
    trimRightParen_append_paren hlast]
  rfl

/-- A `/proc` whose every `stat` file opens and reads `body`, and which has nothing else. -/
def statTree (body : Bytes) : ProcTree :=
  ⟨.ok [], fun _ => .error ENOENT, fun _ => .error ENOENT, fun _ => ([], some ENOENT),
    fun _ _ => .error ENOENT, fun _ => .ok (), fun _ => .ok body⟩

theorem parseProcStat_statLine_cafe :
    (IsInt64 42 ∧ IsInt64 1 ∧ (∀ c ∈ runes (utf8 "café".data), isSpace c = false) ∧
      (runes (utf8 "café".data)).getLast? ≠ some ')' ∧ IsWord "S".data ∧
      (∀ c ∈ (runes (utf8 " 0 0".data)).head?, isSpace c = true) ∧
      (statTree (statLine 42 (utf8 "café".data) "S".data 1 42 (utf8 " 0 0".data))).openStat
        (toString (42 : Int)) = .ok () ∧
      (statTree (statLine 42 (utf8 "café".data) "S".data 1 42 (utf8 " 0 0".data))).readStat
        (toString (42 : Int)) =
        .ok (statLine 42 (utf8 "café".data) "S".data 1 42 (utf8 " 0 0".data))) ∧
    parseProcStat (fun _ => statTree (statLine 42 (utf8 "café".data) "S".data 1 42
      (utf8 " 0 0".data))) 0 42 = .ok ⟨⟨runes (utf8 "café".data)⟩, 1, 42⟩ := by
  have h42 : IsInt64 42 := by unfold IsInt64; norm_num
  have h1 : IsInt64 1 := by unfold IsInt64; norm_num
  have hcomm : ∀ c ∈ runes (utf8 "café".data), isSpace c = false := by rw [runes_utf8]; decide
  have hlast : (runes (utf8 "café".data)).getLast? ≠ some ')' := by rw [runes_utf8]; decide
  have htail : ∀ c ∈ (runes (utf8 " 0 0".data)).head?, isSpace c = true := by
    rw [runes_utf8]; exact isSpace_head_space _
  exact ⟨⟨h42, h1, hcomm, hlast, by decide, htail, rfl, rfl⟩,
    parseProcStat_statLine _ 0 42 h42 h1 h42 hcomm hlast (by decide) htail rfl rfl⟩

/-- A command with a space shifts the fields `Fscan` reads, so the parent is read from the
    state `S` and the scan fails; a command ending in `)` loses it; and a command the kernel
    cut inside a character, here the first two bytes of `中`, reads as two U+FFFD, whose bytes
    are not the command's. -/
theorem parseProcStat_comm_space_or_paren :
    parseProcStat (fun _ => statTree (utf8 "7 (a b) S 1 7".data)) 0 7 =
        .error (.scanStat 7 .expectedInteger) ∧
      parseProcStat (fun _ => statTree (utf8 "7 (a)) S 1 7".data)) 0 7 = .ok ⟨"a", 1, 7⟩ ∧
      parseProcStat (fun _ => statTree (utf8 "7 (".data ++ [0xE4, 0xB8] ++ utf8 ") S 1 7".data))
        0 7 = .ok ⟨"\uFFFD\uFFFD", 1, 7⟩ ∧ utf8 "\uFFFD\uFFFD".data ≠ [0xE4, 0xB8] :=
  ⟨rfl, rfl, rfl, by decide⟩

/-- Once `Fscan` has read the command word, `Sscanf` decides on it alone: a `(` followed by
    more gives the rest, trimmed; a `(` alone meets the end of input at `%s`; any other start
    does not match the format. -/
theorem scanProcStat_of_fscan {pid : Int} {body : Bytes} {pid2 ppid pgrp : Int} {c : Char}
    {w state : List Char} (hf : fscanProcStat (runes body) = .ok (pid2, c :: w, state, ppid, pgrp)) :
    scanProcStat pid (.ok body) = if c = '(' ∧ w ≠ [] then .ok ⟨⟨trimRightParen w⟩, ppid, pgrp⟩
      else .error (.scanComm ⟨c :: w⟩ (if c = '(' then .eof else .inputMismatch)) := by
  have hw : ∀ x ∈ w, isSpace x = false := fun x hx =>
    (fscanProcStat_comm hf).2 x (List.mem_cons_of_mem c hx)
  simp only [scanProcStat, hf, sscanfParenString_word hw]
  by_cases hc : c = '('
  · by_cases hw0 : w = []
    · simp only [hc, hw0, if_true, ne_eq, not_true_eq_false, and_false, if_false, reduceCtorEq]
    · simp only [hc, hw0, if_true, if_false, ne_eq, not_false_eq_true, and_self]
  · simp only [hc, if_false, false_and, reduceCtorEq]

/-- `parseProcStat` succeeds exactly when the `stat` file opens and its read returns a file in
    which `Fscan` reads five fields, the command word being `(` and more: the name is the rest
    of the word with its closing parentheses trimmed, whatever stands between them.  The `)` of
    `"(%s)"` never matches, and the `io.ErrUnexpectedEOF` this leaves is the error the code
    tolerates; the word `(` alone fails with `io.EOF`. -/
theorem parseProcStat_eq_ok_iff {fs : ProcFs} {t : Nat} {pid : Int} {st : ProcStat} :
    parseProcStat fs t pid = .ok st ↔
      (fs t).openStat (toString pid) = .ok () ∧
        ∃ body pid2 comm state ppid pgrp, (fs (t + 1)).readStat (toString pid) = .ok body ∧
          fscanProcStat (runes body) = .ok (pid2, '(' :: comm, state, ppid, pgrp) ∧
          comm ≠ [] ∧ st = ⟨⟨trimRightParen comm⟩, ppid, pgrp⟩ := by
  constructor
  · intro h
    rcases ho : (fs t).openStat (toString pid) with e | ⟨⟩
    · simp only [parseProcStat, ho, reduceCtorEq] at h
    rcases hr : (fs (t + 1)).readStat (toString pid) with e | body
    · simp only [parseProcStat, ho, hr, scanProcStat, reduceCtorEq] at h
    rcases hf : fscanProcStat (runes body) with f | ⟨pid2, comm, state, ppid, pgrp⟩
    · simp only [parseProcStat, ho, hr, scanProcStat, hf, reduceCtorEq] at h
    obtain ⟨c, w, rfl⟩ := List.exists_cons_of_ne_nil (fscanProcStat_comm hf).1
    rw [parseProcStat, ho, hr] at h
    dsimp only at h
    rw [scanProcStat_of_fscan hf] at h
    split_ifs at h with hc
    obtain ⟨rfl, hw⟩ := hc
    exact ⟨rfl, body, pid2, w, state, ppid, pgrp, rfl, hf, hw, (Except.ok.inj h).symm⟩
  · rintro ⟨ho, body, pid2, comm, state, ppid, pgrp, hr, hf, hw, rfl⟩
    rw [parseProcStat, ho, hr]
    exact (scanProcStat_of_fscan hf).trans (if_pos ⟨rfl, hw⟩)

/-! ### `parseSocketInode` -/

theorem matchLiteral_append (l s : List Char) : matchLiteral l (l ++ s) = .ok s := by
  induction l with
  | nil => rfl
  | cons c l ih => simp [matchLiteral, ih]

theorem index_append_self {α : Type} [DecidableEq α] (sub s : List α) :
    index (sub ++ s) sub = some 0 := by
  cases sub with
  | nil => cases s <;> rfl
  | cons c r =>
    exact if_pos (List.isPrefixOf_iff_prefix.mpr (List.prefix_append (c :: r) s))

theorem index_eq_none {α : Type} [DecidableEq α] {lnk sub : List α} (h : ¬ sub <:+: lnk) :
    index lnk sub = none := by
  induction lnk with
  | nil => rw [index, if_neg fun e => h (by rw [e])]
  | cons c cs ih =>
    rw [index, if_neg fun hp => h (List.IsPrefix.isInfix (List.isPrefixOf_iff_prefix.mp hp)),
      ih fun hi => h (hi.trans (List.suffix_cons c cs).isInfix)]
    rfl

/-- The link of a socket reads as its inode, for every `uint32` inode. -/
theorem parseSocketInode_socket (n : Nat) (hn : n < 2 ^ 32) :
    parseSocketInode (utf8 (socketPrefix ++ Nat.toDigits 10 n ++ [']'])) = .ok n.toUInt32 := by
  obtain ⟨c, r, hcr⟩ := List.exists_cons_of_ne_nil (toDigits_ten_ne_nil n)
  have hdigits := toDigits_ten_digits n
  have hsp := isSpace_digit (hdigits c (hcr ▸ List.mem_cons_self c r))
  have hspan : (Nat.toDigits 10 n ++ [']']).span (fun c => '0' ≤ c && c ≤ '9') =
      (Nat.toDigits 10 n, [']']) :=
    span_append (fun c hc => by simpa using hdigits c hc) fun c hc => by
      cases Option.mem_some_iff.mp hc; decide
  have hparse := parseUint_toDigits (show n < 2 ^ 64 by omega)
  have hskip : skipSpace false (Nat.toDigits 10 n ++ [']']) = .ok (Nat.toDigits 10 n ++ [']']) := by
    rw [hcr, List.cons_append, skipSpace_of_not_space hsp]
  rw [List.append_assoc, parseSocketInode, utf8_append, index_append_self, ← utf8_append,
    runes_utf8, socketPrefix]
  simp only [sscanfSocketInode, bind, Except.bind, matchLiteral_append, hskip, scanUintD,
    List.append_ne_nil_of_right_ne_nil _ (List.cons_ne_nil _ _), if_false, hspan,
    toDigits_ten_ne_nil, hparse, Nat.not_le.mpr hn, pure, Except.pure]
  rfl

theorem parseSocketInode_socket_77 :
    77 < 2 ^ 32 ∧ parseSocketInode (utf8 (socketPrefix ++ Nat.toDigits 10 77 ++ [']'])) =
      .ok (77 : Nat).toUInt32 :=
  ⟨by norm_num, parseSocketInode_socket 77 (by norm_num)⟩

/-- A link whose bytes do not contain `socket:[` reads as inode 0. -/
theorem parseSocketInode_of_not_infix {lnk : Bytes} (h : ¬ utf8 socketPrefix <:+: lnk) :
    parseSocketInode lnk = .ok 0 := by
  rw [parseSocketInode, index_eq_none h]

theorem parseSocketInode_of_not_infix_pipe :
    ¬ utf8 socketPrefix <:+: utf8 "pipe:[5]".data ∧ parseSocketInode (utf8 "pipe:[5]".data) = .ok 0 :=
  have h : ¬ utf8 socketPrefix <:+: utf8 "pipe:[5]".data := by decide
  ⟨h, parseSocketInode_of_not_infix h⟩

/-! ### Which links `parseSocketInode` accepts -/

theorem matchLiteral_eq_ok_iff {l s s' : List Char} : matchLiteral l s = .ok s' ↔ s = l ++ s' := by
  constructor
  · intro h
    induction l generalizing s with
    | nil => cases h; rfl
    | cons f fs ih =>
      cases s with
      | nil => cases h
      | cons c cs =>
        rw [matchLiteral] at h
        split_ifs at h with hfc
        · rw [hfc, ih h]; rfl
  · rintro rfl
    exact matchLiteral_append l s'

theorem index_ne_none_of_infix {α : Type} [DecidableEq α] {lnk sub : List α} (h : sub <:+: lnk) :
    index lnk sub ≠ none := by
  induction lnk with
  | nil => rw [List.infix_nil.mp h]; exact Option.some_ne_none 0
  | cons c cs ih =>
    rw [index]
    split_ifs with hp
    · exact Option.some_ne_none 0
    · rcases List.infix_cons_iff.mp h with hpre | hin
      · exact absurd (List.isPrefixOf_iff_prefix.mpr hpre) hp
      · simpa using ih hin

/-- `Sscanf(lnk, "socket:[%d]", &ino)` reads exactly the links that start with `socket:[`,
    then spaces other than a newline, then decimal digits of a `uint32` and a `]`, whatever
    follows. -/
theorem sscanfSocketInode_eq_ok_iff {lnk : List Char} {n : Nat} :
    sscanfSocketInode lnk = .ok n ↔
      ∃ sp ds rest, lnk = socketPrefix ++ sp ++ ds ++ ']' :: rest ∧
        (∀ c ∈ sp, isSpace c = true ∧ c ≠ '\n') ∧ ds ≠ [] ∧ (∀ c ∈ ds, '0' ≤ c ∧ c ≤ '9') ∧
        decimalValue ds < 2 ^ 32 ∧ n = decimalValue ds := by
  constructor
  · intro h
    simp only [sscanfSocketInode, bind, except_bind_eq_ok] at h
    obtain ⟨s1, h1, s2, h2, ⟨ino, s3⟩, h3, s4, h4, h⟩ := h
    dsimp only at h4
    cases h
    obtain ⟨sp, rfl, hsp, hs2⟩ := skipSpace_false_eq_ok_iff.mp h2
    obtain ⟨ds, rfl, hne, hds, -, hlt, rfl⟩ := (scanUintD_eq_ok_iff (by decide) hs2).mp h3
    refine ⟨sp, ds, s4, ?_, hsp, hne, hds, hlt, rfl⟩
    rw [matchLiteral_eq_ok_iff.mp h1, matchLiteral_eq_ok_iff.mp h4]
    simp only [socketPrefix, List.append_assoc, List.singleton_append]
  · rintro ⟨sp, ds, rest, rfl, hsp, hne, hds, hlt, rfl⟩
    obtain ⟨d, ds', rfl⟩ := List.exists_cons_of_ne_nil hne
    have hhead : ∀ c ∈ (d :: ds' ++ ']' :: rest).head?, isSpace c = false := fun c hc => by
      cases hc
      exact isSpace_digit (hds d (List.mem_cons_self d ds'))
    have h2 : skipSpace false (sp ++ (d :: ds' ++ ']' :: rest)) = .ok (d :: ds' ++ ']' :: rest) :=
      skipSpace_false_eq_ok_iff.mpr ⟨sp, rfl, hsp, hhead⟩
    have h3 : scanUintD 32 (d :: ds' ++ ']' :: rest) = .ok (decimalValue (d :: ds'), ']' :: rest) :=
      (scanUintD_eq_ok_iff (by decide) hhead).mpr
        ⟨d :: ds', rfl, hne, hds, fun c hc => by cases hc; decide, hlt, rfl⟩
    simp only [sscanfSocketInode, socketPrefix, List.append_assoc, matchLiteral_append, bind,
      Except.bind, h2, h3, pure, Except.pure]
    rfl

/-- The characters of a `socket:[` link before the `]`: none is `RuneError`, so the bytes of
    a link that decodes to them start with their encoding. -/
theorem socketPrefix_ne_runeError {sp ds : List Char} (hsp : ∀ c ∈ sp, isSpace c = true)
    (hds : ∀ c ∈ ds, '0' ≤ c ∧ c ≤ '9') :
    ∀ c ∈ socketPrefix ++ sp ++ ds ++ [']'], c ≠ RuneError := by
  intro c hc he
  subst he
  simp only [List.mem_append, List.mem_singleton] at hc
  rcases hc with ((h | h) | h) | h
  · exact absurd h (by decide)
  · exact absurd (hsp _ h) (by decide)
  · exact absurd (hds _ h) (by decide)
  · exact absurd h (by decide)

/-- `parseSocketInode` reads a link whose bytes do not contain `socket:[` as 0, reads a link
    that starts with `socket:[`, spaces other than a newline, the decimal digits of a `uint32`
    and `]` as that number whatever bytes follow, and fails on every other link. -/
theorem parseSocketInode_eq_ok_iff {lnk : Bytes} {v : UInt32} :
    parseSocketInode lnk = .ok v ↔
      (¬ utf8 socketPrefix <:+: lnk ∧ v = 0) ∨
        ∃ sp ds rest, lnk = utf8 (socketPrefix ++ sp ++ ds ++ [']']) ++ rest ∧
          (∀ c ∈ sp, isSpace c = true ∧ c ≠ '\n') ∧ ds ≠ [] ∧
          (∀ c ∈ ds, '0' ≤ c ∧ c ≤ '9') ∧ decimalValue ds < 2 ^ 32 ∧
          v = (decimalValue ds).toUInt32 := by
  have hstart : ∀ p rest, utf8 socketPrefix <:+: utf8 (socketPrefix ++ p) ++ rest :=
    fun p rest => by
      rw [utf8_append, List.append_assoc]
      exact List.infix_append [] _ _
  rw [parseSocketInode]
  cases hi : index lnk (utf8 socketPrefix) with
  | none =>
    have hno : ¬ utf8 socketPrefix <:+: lnk := fun h => index_ne_none_of_infix h hi
    constructor
    · intro h
      cases h
      exact .inl ⟨hno, rfl⟩
    · rintro (⟨-, rfl⟩ | ⟨sp, ds, rest, rfl, -⟩)
      · rfl
      · exact absurd (by simpa only [List.append_assoc] using hstart (sp ++ ds ++ [']']) rest) hno
  | some _ =>
    have hin : ¬ ¬ utf8 socketPrefix <:+: lnk := fun h => by rw [index_eq_none h] at hi; cases hi
    simp only [Except.map]
    constructor
    · intro h
      rcases hs : sscanfSocketInode (runes lnk) with _ | n <;> rw [hs] at h
      · cases h
      cases h
      obtain ⟨sp, ds, rest, hl, hsp, hne, hds, hlt, rfl⟩ := sscanfSocketInode_eq_ok_iff.mp hs
      obtain ⟨m, rfl, -⟩ := runes_eq_append (r := rest) (socketPrefix_ne_runeError (fun c h => (hsp c h).1) hds)
        (hl.trans (by simp only [List.append_assoc, List.singleton_append]))
      exact .inr ⟨sp, ds, m, rfl, hsp, hne, hds, hlt, rfl⟩
    · rintro (⟨h, -⟩ | ⟨sp, ds, rest, rfl, hsp, hne, hds, hlt, rfl⟩)
      · exact absurd h hin
      · rw [runes_utf8_append, sscanfSocketInode_eq_ok_iff.mpr ⟨sp, ds, runes rest,
          by simp only [List.append_assoc, List.singleton_append], hsp, hne, hds, hlt, rfl⟩]

/-- A `/proc` with the one process `4242`, whose only fd `3` links to `lnk`. -/
def oneFdTree (lnk : Bytes) : ProcTree :=
  ⟨.ok [⟨"4242", true⟩], fun _ => .ok true, fun _ => .ok (), fun _ => ([("3", .ok ())], none),
    fun _ _ => .ok lnk, fun _ => .ok (), fun _ => .ok (utf8 "4242 (nc) S 1 4242".data)⟩

/-- A file path that contains `socket:[` makes `parseSocketInode` fail, and with it the whole
    of `BuildUserEntries`. -/
theorem buildUserEntries_socket_path :
    parseSocketInode (utf8 "/tmp/socket:[x".data) = .error .inputMismatch ∧
      buildUserEntries (fun _ => oneFdTree (utf8 "/tmp/socket:[x".data)) 1 =
        .error (.socketInode .inputMismatch) := by
  refine ⟨rfl, ?_⟩
  simp only [buildUserEntries, oneFdTree, sortEntries_singleton, scanPids, scanPid, readDirFd,
    readDirResult, lstatNames, Except.map, sortNames_singleton]
  rfl

end Shawk.Netutil
