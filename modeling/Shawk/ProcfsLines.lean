import Shawk.HexLiterals
import Shawk.Procfs

/-!
# Which lines of `/proc/net/tcp` `ProcfsConnections` keeps

`ProcfsConnections` skips the header and every line it cannot read, silently.  This module
says which lines it reads and as what, over every text, with grammars of the fields that do
not mention the loops: an address field is hex digit pairs, a colon and a Go hex literal
below `2^63` (`AddressField`), and the state field yields the value of its leading hex
digits, 255 past a byte and 0 after a non-digit (`StateField`).  A line is read when it has
at least ten fields and its second and third are address fields (`TcpLine`); every other
line is skipped (`ReadsLines`).

The grammar is wider than what the kernel writes: an address of any even number of hex
digits is read (it prints as `?` and hex, or as IPv6), and a port may hold underscores or
more than four digits.  That is the design of `decodeAddress`.  A state that is not a hex
byte is only logged, and the line is read with status 0 or 255; the contract on the lines
(`ReadsAddressedLines`) leaves such a line open, and `ProcfsConnections` meets it over every
file (`procfsConnections_addressed`).
-/

namespace Shawk.Netutil

open Shawk.Go

/-! ### Address fields -/

/-- An address field as `decodeAddress` reads it: hex digit pairs,
    a colon, and the digits of a Go hex literal below `2^63`.  The address is `net.IP` of the
    bytes in reverse order, the port the literal's value as a `uint32`. -/
def AddressField (s : List Char) (a : Addr) : Prop :=
  ∃ h p bs, s = h ++ ':' :: p ∧ HexBytes h bs ∧ HexLiteral p ∧ hexValue p < 2 ^ 63 ∧
    a = ⟨ipString bs.reverse, UInt32.ofNat (hexValue p)⟩

theorem uint32_ofNat_emod (n : Nat) :
    UInt32.ofNat ((n : Int) % 4294967296).toNat = UInt32.ofNat n :=
  UInt32.toNat.inj (show ((n : Int) % 4294967296).toNat % 4294967296 = n % 4294967296 by omega)

/-- `decodeAddress` reads exactly the address fields. -/
theorem decodeAddress_eq_ok_iff {s : List Char} {a : Addr} :
    decodeAddress s = .ok a ↔ AddressField s a := by
  constructor
  · intro hs
    unfold decodeAddress at hs
    split at hs
    · rename_i addr port hsplit
      rcases hport : parseInt ('0' :: 'x' :: port) 0 64 with ⟨v, _ | e⟩ <;>
        simp only [hport] at hs
      · rcases hdec : decodeHex addr with _ | bs <;> simp only [hdec, reduceCtorEq] at hs
        obtain ⟨hlit, hlt, rfl⟩ := parseInt_hex_eq_ok_iff.mp hport
        refine ⟨addr, port, bs, eq_append_cons_of_splitOn_eq_pair hsplit,
          decodeHex_eq_some_iff.mp hdec, hlit, hlt, ?_⟩
        rw [← Except.ok.inj hs, uint32_ofNat_emod]
      · cases hs
    · cases hs
  · rintro ⟨h, p, bs, rfl, hb, hlit, hlt, rfl⟩
    rw [decodeAddress, splitOn_append_cons hb.colon_not_mem, splitOn_of_not_mem hlit.colon_not_mem]
    simp only [parseInt_hex_eq_ok_iff.mpr ⟨hlit, hlt, rfl⟩, decodeHex_eq_some_iff.mpr hb,
      uint32_ofNat_emod]

/-! ### The state field -/

/-- The `Status` a state field yields.  It is split into its leading
    hex digits and a rest that does not start with one; the status is 255 when the digits
    pass 255, their value when nothing follows, and 0 otherwise. -/
def StateField (f : List Char) (status : UInt8) : Prop :=
  ∃ ds rest, f = ds ++ rest ∧ (∀ c ∈ ds, (fromHexChar c).isSome) ∧
    (∀ c ∈ rest.head?, fromHexChar c = none) ∧
    status.toNat = if 255 < hexValue ds then 255 else if rest = [] then hexValue ds else 0

theorem stateValue_le (ds rest : List Char) :
    (if 255 < hexValue ds then 255 else if rest = [] then hexValue ds else 0) < 256 := by
  split_ifs <;> omega

/-- The status `parseTcpLine` takes from a state field, `uint8` of `ParseUint(s, 16, 8)`'s
    value, is the one the field yields. -/
theorem stateField_iff (f : List Char) (status : UInt8) :
    StateField f status ↔ status = (parseUint f 16 8).1.toUInt8 := by
  have hto (v : Nat) (hv : v < 256) : status = v.toUInt8 ↔ status.toNat = v :=
    ⟨fun h => h ▸ UInt8.toNat_ofNat_of_lt hv,
      fun h => UInt8.toNat.inj (h.trans (UInt8.toNat_ofNat_of_lt hv).symm)⟩
  constructor
  · rintro ⟨ds, rest, rfl, hds, hrest, hs⟩
    rw [parseUint_hexRun hds hrest, hto _ (stateValue_le ds rest)]
    exact hs
  · intro hs
    set p : Char → Bool := fun c => (fromHexChar c).isSome with hp
    have hrest : ∀ c ∈ (f.dropWhile p).head?, fromHexChar c = none := by
      intro c hc
      have hne : f.dropWhile p ≠ [] := fun h => by simp [h] at hc
      have := List.head_dropWhile_not p f hne
      rw [List.head?_eq_head hne, Option.mem_some_iff] at hc
      subst hc
      simpa [p] using this
    have hds : ∀ c ∈ f.takeWhile p, (fromHexChar c).isSome := fun c hc => by
      have := List.mem_takeWhile_imp hc
      exact this
    have hsplit := List.takeWhile_append_dropWhile p f
    refine ⟨f.takeWhile p, f.dropWhile p, hsplit.symm, hds, hrest, ?_⟩
    rw [← hto _ (stateValue_le _ _), ← parseUint_hexRun hds hrest, hsplit]
    exact hs

/-! ### Lines and the file -/

/-- A line that `ProcfsConnections` reads as the connection `c`: at
    least ten fields, of which the second and third are address fields of `c`'s local and
    remote address and the fourth is a state field of `c`'s status. -/
def TcpLine (line : List Char) (c : ConnectionStat) : Prop :=
  ∃ slot laddr raddr state rest, fields line = slot :: laddr :: raddr :: state :: rest ∧
    6 ≤ rest.length ∧ AddressField laddr c.laddr ∧ AddressField raddr c.raddr ∧
    StateField state c.status

/-- `parseTcpLine` reads exactly the lines of connections. -/
theorem parseTcpLine_eq_some_iff (line : List Char) (c : ConnectionStat) :
    parseTcpLine line = some c ↔ TcpLine line c := by
  unfold parseTcpLine TcpLine
  generalize fields line = l
  match l with
  | slot :: laddr :: raddr :: state :: rest =>
    simp only [List.length_cons, List.cons.injEq]
    by_cases hlen : 6 ≤ rest.length
    · have hrhs : (∃ slot' laddr' raddr' state' rest', (slot = slot' ∧ laddr = laddr' ∧
          raddr = raddr' ∧ state = state' ∧ rest = rest') ∧ 6 ≤ rest'.length ∧
          AddressField laddr' c.laddr ∧ AddressField raddr' c.raddr ∧
          StateField state' c.status) ↔
          decodeAddress laddr = .ok c.laddr ∧ decodeAddress raddr = .ok c.raddr ∧
            c.status = (parseUint state 16 8).1.toUInt8 := by
        simp only [decodeAddress_eq_ok_iff, ← stateField_iff]
        constructor
        · rintro ⟨_, _, _, _, _, ⟨rfl, rfl, rfl, rfl, rfl⟩, -, h⟩
          exact h
        · rintro h
          exact ⟨_, _, _, _, _, ⟨rfl, rfl, rfl, rfl, rfl⟩, hlen, h⟩
      rw [hrhs, if_neg (by omega)]
      obtain ⟨cl, cr, cs⟩ := c
      simp only [List.getD_cons_succ, List.getD_cons_zero]
      cases decodeAddress laddr <;> cases decodeAddress raddr <;>
        simp only [reduceCtorEq, false_and, and_false, false_iff, Option.some.injEq,
          ConnectionStat.mk.injEq, Except.ok.injEq, eq_comm]
    · rw [if_pos (by omega)]
      simp only [reduceCtorEq, false_iff, not_exists, not_and]
      rintro _ _ _ _ _ ⟨-, -, -, -, rfl⟩ h
      exact absurd h hlen
  | [] | [_] | [_, _] | [_, _, _] => simp

/-- `cs` is what is left of `lines` when each line of a connection is
    read as that connection and every other line is skipped. -/
inductive ReadsLines : List (List Char) → List ConnectionStat → Prop
  | nil : ReadsLines [] []
  | keep {l : List Char} {ls : List (List Char)} {c : ConnectionStat} {cs : List ConnectionStat} :
      TcpLine l c → ReadsLines ls cs → ReadsLines (l :: ls) (c :: cs)
  | skip {l : List Char} {ls : List (List Char)} {cs : List ConnectionStat} :
      (∀ c, ¬ TcpLine l c) → ReadsLines ls cs → ReadsLines (l :: ls) cs

theorem filterMap_parseTcpLine_eq_iff (ls : List (List Char)) (cs : List ConnectionStat) :
    ls.filterMap parseTcpLine = cs ↔ ReadsLines ls cs := by
  constructor
  · intro h
    subst h
    induction ls with
    | nil => exact .nil
    | cons l ls ih =>
      rcases hl : parseTcpLine l with _ | c
      · rw [List.filterMap_cons_none hl]
        exact .skip (fun c hc => by simp [(parseTcpLine_eq_some_iff l c).mpr hc] at hl) ih
      · rw [List.filterMap_cons_some hl]
        exact .keep ((parseTcpLine_eq_some_iff l c).mp hl) ih
  · intro h
    induction h with
    | nil => rfl
    | keep hc _ ih => rw [List.filterMap_cons_some ((parseTcpLine_eq_some_iff _ _).mpr hc), ih]
    | @skip l _ _ hl _ ih =>
      have : parseTcpLine l = none := by
        rcases hp : parseTcpLine l with _ | c
        · rfl
        · exact absurd ((parseTcpLine_eq_some_iff l c).mp hp) (hl c)
      rw [List.filterMap_cons_none this, ih]

/-- `ProcfsConnections` on a file it could read returns the connections of the lines after
    the header that are lines of connections, in order, and skips every other line. -/
theorem procfsConnections_eq_ok_iff (body : List Char) (cs : List ConnectionStat) :
    procfsConnections (.ok body) = .ok cs ↔ ReadsLines ((body.splitOn '\n').drop 1) cs := by
  rw [← filterMap_parseTcpLine_eq_iff]
  exact ⟨Except.ok.inj, congrArg Except.ok⟩

/-! ### The contract on the lines -/

/-- A state field that is a hex byte, and its value. -/
def HexByteField (f : List Char) (status : UInt8) : Prop :=
  f ≠ [] ∧ (∀ c ∈ f, (fromHexChar c).isSome) ∧ hexValue f ≤ 255 ∧ status.toNat = hexValue f

/-- A line of at least ten fields whose second and third are address fields of `la` and `ra`
    and whose fourth is `state`. -/
def AddressedLine (line : List Char) (la ra : Addr) (state : List Char) : Prop :=
  ∃ slot laddr raddr rest, fields line = slot :: laddr :: raddr :: state :: rest ∧
    6 ≤ rest.length ∧ AddressField laddr la ∧ AddressField raddr ra

/-- The contract on the lines after the header: a line with address fields and a hex byte
    for its state is read as its addresses and that status, a line without address fields
    is skipped, and a line with address fields and a state that is no hex byte is left open:
    it may be read as its addresses and any status, or skipped. -/
inductive ReadsAddressedLines : List (List Char) → List ConnectionStat → Prop
  | nil : ReadsAddressedLines [] []
  | keep {l : List Char} {ls : List (List Char)} {c : ConnectionStat} {cs : List ConnectionStat}
      {state : List Char} : AddressedLine l c.laddr c.raddr state → HexByteField state c.status →
      ReadsAddressedLines ls cs → ReadsAddressedLines (l :: ls) (c :: cs)
  | skip {l : List Char} {ls : List (List Char)} {cs : List ConnectionStat} :
      (∀ la ra state, ¬ AddressedLine l la ra state) → ReadsAddressedLines ls cs →
      ReadsAddressedLines (l :: ls) cs
  | keepOpen {l : List Char} {ls : List (List Char)} {c : ConnectionStat}
      {cs : List ConnectionStat} {state : List Char} : AddressedLine l c.laddr c.raddr state →
      (∀ s, ¬ HexByteField state s) → ReadsAddressedLines ls cs →
      ReadsAddressedLines (l :: ls) (c :: cs)
  | skipOpen {l : List Char} {ls : List (List Char)} {cs : List ConnectionStat} {la ra : Addr}
      {state : List Char} : AddressedLine l la ra state → (∀ s, ¬ HexByteField state s) →
      ReadsAddressedLines ls cs → ReadsAddressedLines (l :: ls) cs

theorem HexByteField.stateField {f : List Char} {s : UInt8} (h : HexByteField f s) :
    StateField f s := by
  refine ⟨f, [], (List.append_nil f).symm, h.2.1, fun _ hc => (Option.not_mem_none _ hc).elim, ?_⟩
  rw [if_neg (Nat.not_lt.mpr h.2.2.1), if_pos rfl, h.2.2.2]

theorem StateField.unique {f : List Char} {s s' : UInt8} (h : StateField f s)
    (h' : StateField f s') : s = s' :=
  ((stateField_iff f s).mp h).trans ((stateField_iff f s').mp h').symm

/-- What `ProcfsConnections` does with each line meets the contract. -/
theorem ReadsLines.addressed {ls : List (List Char)} {cs : List ConnectionStat}
    (h : ReadsLines ls cs) : ReadsAddressedLines ls cs := by
  induction h with
  | nil => exact .nil
  | keep hl _ ih =>
    obtain ⟨slot, laddr, raddr, state, rest, hf, hlen, hla, hra, hst⟩ := hl
    have ha : AddressedLine _ _ _ state := ⟨slot, laddr, raddr, rest, hf, hlen, hla, hra⟩
    by_cases hb : ∃ s, HexByteField state s
    · obtain ⟨s, hs⟩ := hb
      exact .keep ha (hs.stateField.unique hst ▸ hs) ih
    · exact .keepOpen ha (fun s hs => hb ⟨s, hs⟩) ih
  | skip hl _ ih =>
    refine .skip (fun la ra state ⟨slot, laddr, raddr, rest, hf, hlen, hla, hra⟩ => ?_) ih
    exact hl ⟨la, ra, _⟩
      ⟨slot, laddr, raddr, state, rest, hf, hlen, hla, hra, (stateField_iff _ _).mpr rfl⟩

/-- `ProcfsConnections` reads every file it could read as the contract on the lines says. -/
theorem procfsConnections_addressed (body : List Char) :
    ∃ cs, procfsConnections (.ok body) = .ok cs ∧
      ReadsAddressedLines ((body.splitOn '\n').drop 1) cs :=
  ⟨_, rfl, ((procfsConnections_eq_ok_iff body _).mp rfl).addressed⟩

/-- A line the format the spec describes rules out is read: its addresses are one byte each
    and print as `?00` and `?01`, its remote port `0xFFFFF` passes 65535, and its local port
    `1_0` holds an underscore.  Its state `01` is the hex byte of `ESTABLISHED`. -/
theorem procfsConnections_malformed_line :
    procfsConnections (.ok "sl\n0: 00:1_0 01:FFFFF 01 0 0 0 0 0 0".data) =
      .ok [⟨⟨"?00", 16⟩, ⟨"?01", 1048575⟩, 1⟩] := by
  rfl

end Shawk.Netutil
