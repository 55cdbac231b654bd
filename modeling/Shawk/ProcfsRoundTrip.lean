import Shawk.Netlink

/-!
# `/proc/net/tcp` round trip

The kernel writes one line per socket: a slot number, the local and remote address each as
the address word in host (little-endian) byte order in `%08X` and the port in `%04X`, the
state in `%02X`, then further fields.  This module writes a table of connections that way,
with any header line, any spacing and any further fields, and proves that
`ProcfsConnections` reads exactly the table back: every address as its dotted quad, every
port and state as its number, in order.
-/

namespace Shawk.Netutil

open Shawk.Go

/-! ### Upper-case hex -/

/-- An upper-case hex digit. -/
def hexDigitUpper (d : Nat) : Char :=
  Char.ofNat (if d < 10 then 48 + d else 55 + d)

/-- `%0wX`: `n` in `w` upper-case hex digits. -/
def hexUpper : Nat → Nat → List Char
  | 0, _ => []
  | w + 1, n => hexDigitUpper (n / 16 ^ w % 16) :: hexUpper w n

theorem hexDigitUpper_spec : ∀ d < 16,
    fromHexChar (hexDigitUpper d) = some d ∧ digitVal (hexDigitUpper d) = some d ∧
      isSpace (hexDigitUpper d) = false ∧ hexDigitUpper d ≠ ':' ∧ hexDigitUpper d ≠ '_' := by
  decide

theorem mem_hexUpper {w n : Nat} {c : Char} (h : c ∈ hexUpper w n) :
    ∃ d < 16, c = hexDigitUpper d := by
  induction w with
  | zero => cases h
  | succ w ih =>
    rcases List.mem_cons.mp h with rfl | h
    · exact ⟨_, Nat.mod_lt _ (by decide), rfl⟩
    · exact ih h

theorem hexUpper_ne_nil (w n : Nat) (hw : 0 < w) : hexUpper w n ≠ [] := by
  cases w with
  | zero => cases hw
  | succ w => simp [hexUpper]

/-- `ParseUint`'s loop reads `w` hex digits of `n` as `n mod 16^w`. -/
theorem digitLoop_hexUpper (M : Nat) (b0 : Bool) (us : Bool) (w n acc : Nat)
    (h : acc * 16 ^ w + n % 16 ^ w ≤ M) :
    digitLoop 16 M b0 acc us (hexUpper w n) = (acc * 16 ^ w + n % 16 ^ w, none, us) := by
  induction w generalizing acc with
  | zero => simp [hexUpper, digitLoop, Nat.mod_one]
  | succ w ih =>
    have hd := hexDigitUpper_spec (n / 16 ^ w % 16) (Nat.mod_lt _ (by decide))
    have hsplit : n % 16 ^ (w + 1) = n % 16 ^ w + 16 ^ w * (n / 16 ^ w % 16) := Nat.mod_pow_succ
    have hpos : 0 < 16 ^ w := Nat.pos_pow_of_pos w (by decide)
    have hstep : (acc * 16 + n / 16 ^ w % 16) * 16 ^ w + n % 16 ^ w =
        acc * 16 ^ (w + 1) + n % 16 ^ (w + 1) := by
      rw [hsplit, Nat.pow_succ]; ring
    have hle : acc * 16 + n / 16 ^ w % 16 ≤ M :=
      le_trans (Nat.le_add_right_of_le (Nat.le_mul_of_pos_right _ hpos)) (hstep ▸ h)
    simp only [hexUpper, digitLoop, hd.2.2.2.2, false_and, if_false, hd.2.1,
      if_neg (show ¬ 16 ≤ n / 16 ^ w % 16 from Nat.not_le.mpr (Nat.mod_lt _ (by decide))),
      if_neg (Nat.not_lt.mpr hle)]
    rw [ih _ (hstep ▸ h), hstep]

/-- A byte in two hex digits decodes back to the byte. -/
theorem decodeHex_hexUpper_byte (b : UInt8) (rest : List Char) :
    decodeHex (hexUpper 2 b.toNat ++ rest) = (decodeHex rest).map (b :: ·) := by
  have hb : b.toNat < 256 := b.toNat_lt_size
  have hhi := hexDigitUpper_spec (b.toNat / 16 ^ 1 % 16) (Nat.mod_lt _ (by decide))
  have hlo := hexDigitUpper_spec (b.toNat / 16 ^ 0 % 16) (Nat.mod_lt _ (by decide))
  have hval : (b.toNat / 16 ^ 1 % 16 * 16 + b.toNat / 16 ^ 0 % 16).toUInt8 = b := by
    apply UInt8.toNat.inj
    rw [show b.toNat / 16 ^ 1 % 16 * 16 + b.toNat / 16 ^ 0 % 16 = b.toNat by
      simp only [pow_one, pow_zero, Nat.div_one]; omega]
    exact UInt8.toNat_ofNat_of_lt hb
  rw [show hexUpper 2 b.toNat ++ rest = hexDigitUpper (b.toNat / 16 ^ 1 % 16) ::
    hexDigitUpper (b.toNat / 16 ^ 0 % 16) :: rest from rfl]
  simp only [decodeHex, hhi.1, hlo.1, Option.bind_eq_bind, Option.some_bind, hval]
  cases decodeHex rest <;> rfl

/-! ### Writing a line and the file -/

/-- The address field the kernel writes: the four address bytes last to first, then `:` and
    the port. -/
def encodeAddress (a : IPv4) (port : UInt16) : List Char :=
  hexUpper 2 a.b3.toNat ++ hexUpper 2 a.b2.toNat ++ hexUpper 2 a.b1.toNat ++
    hexUpper 2 a.b0.toNat ++ ':' :: hexUpper 4 port.toNat

/-- Spaces other than a newline, possibly none. -/
def IsLineBlank (b : List Char) : Prop := IsBlank b ∧ '\n' ∉ b

instance (b : List Char) : Decidable (IsLineBlank b) := inferInstanceAs (Decidable (_ ∧ _))

/-- The free parts of a line: leading blanks, the slot field (`i:`), the separators before
    the two address fields and the state, the further fields each after its separator, and
    trailing blanks. -/
structure TcpLineLayout where
  lead : List Char
  slot : List Char
  sep₁ : List Char
  sep₂ : List Char
  sep₃ : List Char
  extra : List (List Char × List Char)
  trail : List Char

/-- A layout the kernel could write: blanks and separators are spaces but no newline,
    separators are not empty, fields are words, and at least six fields follow the state. -/
structure TcpLineLayout.Valid (L : TcpLineLayout) : Prop where
  lead : IsLineBlank L.lead
  slot : IsWord L.slot
  seps : ∀ s ∈ [L.sep₁, L.sep₂, L.sep₃], IsLineBlank s ∧ s ≠ []
  extra : ∀ p ∈ L.extra, IsLineBlank p.1 ∧ p.1 ≠ [] ∧ IsWord p.2
  six : 6 ≤ L.extra.length
  trail : IsLineBlank L.trail

/-- The separated fields of a line after the slot. -/
def TcpLineLayout.items (L : TcpLineLayout) (m : InetDiagMsg) : List (List Char × List Char) :=
  [(L.sep₁, encodeAddress m.src m.srcPort), (L.sep₂, encodeAddress m.dst m.dstPort),
    (L.sep₃, hexUpper 2 m.state.toNat)] ++ L.extra

/-- The line of a connection. -/
def tcpLine (L : TcpLineLayout) (m : InetDiagMsg) : List Char :=
  L.lead ++ (L.slot ++ (L.items m).flatMap (fun p => p.1 ++ p.2) ++ L.trail)

/-- The file: the header line, then each connection's line after a newline, and a final
    newline when `finalNewline` (an empty last line). -/
def procNetTcp (header : List Char) (rows : List (TcpLineLayout × InetDiagMsg))
    (finalNewline : Bool) : List Char :=
  header ++ (rows.map (fun r : TcpLineLayout × InetDiagMsg => tcpLine r.1 r.2) ++
    if finalNewline then [[]] else []).flatMap
    ('\n' :: ·)

/-- The `ConnectionStat` of a connection. -/
def InetDiagMsg.toConnectionStat (m : InetDiagMsg) : ConnectionStat :=
  ⟨⟨m.src.toString, m.srcPort.toUInt32⟩, ⟨m.dst.toString, m.dstPort.toUInt32⟩, m.state⟩

/-! ### Reading a field back -/

theorem parseUint_hexUpper (s : UInt8) : parseUint (hexUpper 2 s.toNat) 16 8 = (s.toNat, none) := by
  have hs : s.toNat < 256 := s.toNat_lt_size
  have hloop := digitLoop_hexUpper (2 ^ 8 - 1) (16 == 0) false 2 s.toNat 0 (by omega)
  rw [Nat.zero_mul, Nat.zero_add, Nat.mod_eq_of_lt (by omega)] at hloop
  simp only [parseUint, hexUpper_ne_nil 2 _ (by decide), if_false,
    if_neg (show (16 : Nat) ≠ 0 by decide), hloop]
  rfl

theorem parseInt_hexPort (p : UInt16) :
    parseInt ('0' :: 'x' :: hexUpper 4 p.toNat) 0 64 = ((p.toNat : Int), none) := by
  have hp : p.toNat < 65536 := p.toNat_lt_size
  have hloop := digitLoop_hexUpper (2 ^ 64 - 1) (0 == 0) false 4 p.toNat 0 (by omega)
  rw [Nat.zero_mul, Nat.zero_add, Nat.mod_eq_of_lt (by omega)] at hloop
  have hprefix : basePrefix ('0' :: 'x' :: hexUpper 4 p.toNat) = (16, hexUpper 4 p.toNat) := rfl
  refine (parseInt_eq_ok_iff (by decide) (by decide)).mpr ⟨_, ?_, by omega, rfl⟩
  simp only [parseUint, hprefix, hloop, List.cons_ne_nil, if_false, if_true]
  rfl

theorem not_colon_of_mem_hexUpper {w n : Nat} {c : Char} (h : c ∈ hexUpper w n) : c ≠ ':' := by
  obtain ⟨d, hd, rfl⟩ := mem_hexUpper h
  exact (hexDigitUpper_spec d hd).2.2.2.1

theorem decodeAddress_encodeAddress (a : IPv4) (port : UInt16) :
    decodeAddress (encodeAddress a port) = .ok ⟨a.toString, port.toUInt32⟩ := by
  have hsplit : (encodeAddress a port).splitOn ':' =
      [hexUpper 2 a.b3.toNat ++ hexUpper 2 a.b2.toNat ++ hexUpper 2 a.b1.toNat ++
        hexUpper 2 a.b0.toNat, hexUpper 4 port.toNat] := by
    have haddr : ':' ∉ hexUpper 2 a.b3.toNat ++ hexUpper 2 a.b2.toNat ++
        hexUpper 2 a.b1.toNat ++ hexUpper 2 a.b0.toNat := fun hc => by
      simp only [List.mem_append] at hc
      rcases hc with ((hc | hc) | hc) | hc <;> exact not_colon_of_mem_hexUpper hc rfl
    rw [encodeAddress, splitOn_append_cons haddr,
      splitOn_of_not_mem fun hc => not_colon_of_mem_hexUpper hc rfl]
  have hhex : decodeHex (hexUpper 2 a.b3.toNat ++ hexUpper 2 a.b2.toNat ++ hexUpper 2 a.b1.toNat ++
      hexUpper 2 a.b0.toNat) = some [a.b3, a.b2, a.b1, a.b0] := by
    simp only [List.append_assoc, decodeHex_hexUpper_byte]
    rw [← List.append_nil (hexUpper 2 a.b0.toNat), decodeHex_hexUpper_byte]
    rfl
  have hport : ((port.toNat : Int) % 4294967296).toNat = port.toNat := by
    have : port.toNat < 65536 := port.toNat_lt_size
    omega
  have hport32 : UInt32.ofNat port.toNat = port.toUInt32 :=
    UInt32.toNat.inj (show port.toNat % 4294967296 = port.toNat from
      Nat.mod_eq_of_lt (Nat.lt_trans port.toNat_lt_size (by decide)))
  simp only [decodeAddress, hsplit, parseInt_hexPort, hhex, hport, hport32,
    show [a.b3, a.b2, a.b1, a.b0].reverse = a.toIP from rfl, ipString_toIP]

/-! ### Reading a line back -/

theorem isWord_hexUpper (w n : Nat) (hw : 0 < w) : IsWord (hexUpper w n) :=
  ⟨hexUpper_ne_nil w n hw, fun c hc => by
    obtain ⟨d, hd, rfl⟩ := mem_hexUpper hc
    exact (hexDigitUpper_spec d hd).2.2.1⟩

theorem isWord_encodeAddress (a : IPv4) (port : UInt16) : IsWord (encodeAddress a port) :=
  ⟨by simp [encodeAddress], fun c hc => by
    simp only [encodeAddress, List.mem_append, List.mem_cons] at hc
    rcases hc with (((hc | hc) | hc) | hc) | rfl | hc
    all_goals first
      | exact (isWord_hexUpper _ _ (by decide)).2 c hc
      | decide⟩

theorem newline_not_mem_of_isWord {w : List Char} (hw : IsWord w) : '\n' ∉ w :=
  fun h => absurd (hw.2 '\n' h) (by decide)

theorem TcpLineLayout.Valid.items {L : TcpLineLayout} (hL : L.Valid) (m : InetDiagMsg) :
    ∀ p ∈ L.items m, IsLineBlank p.1 ∧ p.1 ≠ [] ∧ IsWord p.2 := by
  intro p hp
  simp only [TcpLineLayout.items, List.mem_append, List.mem_cons, List.mem_singleton,
    List.not_mem_nil, or_false] at hp
  have hs := hL.seps
  simp only [List.mem_cons, List.mem_singleton, List.not_mem_nil, or_false,
    forall_eq_or_imp, forall_eq] at hs
  rcases hp with (rfl | rfl | rfl) | hp
  · exact ⟨hs.1.1, hs.1.2, isWord_encodeAddress _ _⟩
  · exact ⟨hs.2.1.1, hs.2.1.2, isWord_encodeAddress _ _⟩
  · exact ⟨hs.2.2.1, hs.2.2.2, isWord_hexUpper _ _ (by decide)⟩
  · exact hL.extra p hp

theorem fields_tcpLine {L : TcpLineLayout} (hL : L.Valid) (m : InetDiagMsg) :
    fields (tcpLine L m) = L.slot :: encodeAddress m.src m.srcPort ::
      encodeAddress m.dst m.dstPort :: hexUpper 2 m.state.toNat :: L.extra.map Prod.snd := by
  rw [tcpLine, fields_blank_append hL.lead.1, fields_words hL.slot _
    (fun p hp => ⟨(hL.items m p hp).1.1, (hL.items m p hp).2⟩) hL.trail.1]
  simp [TcpLineLayout.items]

theorem parseTcpLine_tcpLine {L : TcpLineLayout} (hL : L.Valid) (m : InetDiagMsg) :
    parseTcpLine (tcpLine L m) = some m.toConnectionStat := by
  have hlen : ¬ (L.slot :: encodeAddress m.src m.srcPort :: encodeAddress m.dst m.dstPort ::
      hexUpper 2 m.state.toNat :: L.extra.map Prod.snd).length < 10 := by
    simp only [List.length_cons, List.length_map]; have := hL.six; omega
  have hstate : m.state.toNat.toUInt8 = m.state :=
    UInt8.toNat.inj (UInt8.toNat_ofNat_of_lt m.state.toNat_lt_size)
  simp only [parseTcpLine, fields_tcpLine hL, hlen, if_false, List.getD_cons_succ,
    List.getD_cons_zero, decodeAddress_encodeAddress, parseUint_hexUpper, hstate]
  rfl

theorem newline_not_mem_tcpLine {L : TcpLineLayout} (hL : L.Valid) (m : InetDiagMsg) :
    '\n' ∉ tcpLine L m := by
  simp only [tcpLine, List.mem_append, List.mem_flatMap, not_or, not_exists, not_and]
  exact ⟨hL.lead.2, ⟨newline_not_mem_of_isWord hL.slot, fun p hp =>
    ⟨(hL.items m p hp).1.2, newline_not_mem_of_isWord (hL.items m p hp).2.2⟩⟩, hL.trail.2⟩

/-! ### Reading the file back -/

/-- Splitting at newlines undoes joining newline-free lines with newlines. -/
theorem splitOn_newlines (h : List Char) (ls : List (List Char)) (hh : '\n' ∉ h)
    (hls : ∀ l ∈ ls, '\n' ∉ l) : (h ++ ls.flatMap ('\n' :: ·)).splitOn '\n' = h :: ls := by
  induction ls generalizing h with
  | nil => simpa using splitOn_of_not_mem hh
  | cons l ls ih =>
    rw [List.flatMap_cons, List.cons_append, splitOn_append_cons hh,
      ih l (hls l (List.mem_cons_self l ls)) fun l' hl' => hls l' (List.mem_cons_of_mem l hl')]

theorem parseTcpLine_nil : parseTcpLine [] = none := rfl

/-- The lines after the header parse to the table. -/
theorem filterMap_parseTcpLine (rows : List (TcpLineLayout × InetDiagMsg))
    (hrows : ∀ r ∈ rows, r.1.Valid) (finalNewline : Bool) :
    (rows.map (fun r : TcpLineLayout × InetDiagMsg => tcpLine r.1 r.2) ++
        if finalNewline then [[]] else []).filterMap parseTcpLine =
      rows.map fun r => r.2.toConnectionStat := by
  have hlines : rows.filterMap (parseTcpLine ∘ fun r => tcpLine r.1 r.2) =
      rows.map fun r => r.2.toConnectionStat :=
    List.filterMap_eq_map_iff_forall_eq_some.mpr fun r hr => parseTcpLine_tcpLine (hrows r hr) r.2
  rw [List.filterMap_append, List.filterMap_map, hlines]
  cases finalNewline <;> simp [parseTcpLine_nil]

theorem lines_procNetTcp (header : List Char) (rows : List (TcpLineLayout × InetDiagMsg))
    (finalNewline : Bool) (hheader : '\n' ∉ header) (hrows : ∀ r ∈ rows, r.1.Valid) :
    ((procNetTcp header rows finalNewline).splitOn '\n').drop 1 =
      rows.map (fun r : TcpLineLayout × InetDiagMsg => tcpLine r.1 r.2) ++
        if finalNewline then [[]] else [] := by
  rw [procNetTcp, splitOn_newlines _ _ hheader]
  · rfl
  · intro l hl
    rcases List.mem_append.mp hl with hl | hl
    · obtain ⟨r, hr, rfl⟩ := List.mem_map.mp hl
      exact newline_not_mem_tcpLine (hrows r hr) r.2
    · cases finalNewline
      · exact absurd hl (List.not_mem_nil _)
      · exact List.mem_singleton.mp hl ▸ List.not_mem_nil _

/-- `ProcfsConnections` reads back every table the kernel can write, whatever the header,
    the spacing, the slot and further fields, and the final newline. -/
theorem procfsConnections_procNetTcp (header : List Char)
    (rows : List (TcpLineLayout × InetDiagMsg)) (finalNewline : Bool) (hheader : '\n' ∉ header)
    (hrows : ∀ r ∈ rows, r.1.Valid) :
    procfsConnections (.ok (procNetTcp header rows finalNewline)) =
      .ok (rows.map fun r => r.2.toConnectionStat) := by
  simp only [procfsConnections, Except.map, lines_procNetTcp header rows finalNewline hheader hrows,
    filterMap_parseTcpLine rows hrows]

/-- A line as the kernel lays it out: the slot right-aligned in four columns, single spaces,
    and six further fields. -/
def kernelLayout : TcpLineLayout :=
  ⟨"   ".data, "0:".data, [' '], [' '], [' '], List.replicate 6 ([' '], ['0']), []⟩

theorem kernelLayout_valid : kernelLayout.Valid :=
  ⟨by decide, by decide, by decide, by decide, by decide, by decide⟩

/-- An established connection from `10.0.0.1:5000` to `10.0.0.2:80`. -/
def establishedMsg : InetDiagMsg := ⟨TCP_ESTABLISHED, 5000, 80, ⟨10, 0, 0, 1⟩, ⟨10, 0, 0, 2⟩, 0⟩

theorem procfsConnections_procNetTcp_kernel :
    '\n' ∉ "  sl  local_address".data ∧ (∀ r ∈ [(kernelLayout, establishedMsg)], r.1.Valid) ∧
      procfsConnections (.ok (procNetTcp "  sl  local_address".data
        [(kernelLayout, establishedMsg)] true)) = .ok [establishedMsg.toConnectionStat] := by
  have hheader : '\n' ∉ "  sl  local_address".data := by decide
  have hrows : ∀ r ∈ [(kernelLayout, establishedMsg)], r.1.Valid := by
    simpa using kernelLayout_valid
  exact ⟨hheader, hrows, procfsConnections_procNetTcp _ _ true hheader hrows⟩

end Shawk.Netutil
