import Shawk.ProcfsRoundTrip

/-!
# `/proc/net/tcp6` address fields

The comment of `decodeAddress` documents an IPv6 field,
`0085002452100113070057A13F025401:0035` for `2400:8500:1301:1052:a157:7:154:23f` port 53.
The kernel writes a 16-byte address as its four 32-bit words, each as `%08X` of its
little-endian value, so each word's bytes come last to first (`encodeAddress6`).
`gnet.Reverse` turns all 16 bytes around at once, which restores the bytes of each word but
puts the words in reverse order.  `decodeAddress` reads every field of that shape as the
address with its words reversed (`decodeAddress_encodeAddress6`): right for the one word of
IPv4, and for the documented field `154:23f:a157:7:1301:1052:2400:8500`
(`decodeAddress_tcp6_example`).  The comment is stale rather than the code wrong for its
caller: `ProcfsConnections`, the one caller, reads `/proc/net/tcp` alone, whose fields are
4-byte (`decodeAddress_tcp6`).
-/

namespace Shawk.Netutil

open Shawk.Go

/-- The bytes of an address word by word, each 32-bit word last byte first: the order in
    which `%08X` writes the word's little-endian value. -/
def wordsLE : List UInt8 → List UInt8
  | b0 :: b1 :: b2 :: b3 :: rest => b3 :: b2 :: b1 :: b0 :: wordsLE rest
  | rest => rest

/-- The address field the kernel writes in `/proc/net/tcp6`: the address words in `%08X` of
    their little-endian values, then `:` and the port in `%04X`. -/
def encodeAddress6 (a : IP) (port : UInt16) : List Char :=
  (wordsLE a).flatMap (fun b => hexUpper 2 b.toNat) ++ ':' :: hexUpper 4 port.toNat

/-- The address with its 32-bit words in reverse order. -/
def reverseWords : List UInt8 → List UInt8
  | b0 :: b1 :: b2 :: b3 :: rest => reverseWords rest ++ [b0, b1, b2, b3]
  | rest => rest

/-! ### Reading the field back -/

theorem decodeHex_flatMap_hexUpper (bs : List UInt8) :
    decodeHex (bs.flatMap fun b => hexUpper 2 b.toNat) = some bs := by
  induction bs with
  | nil => rfl
  | cons b bs ih => rw [List.flatMap_cons, decodeHex_hexUpper_byte, ih]; rfl

theorem colon_not_mem_flatMap_hexUpper (bs : List UInt8) :
    ':' ∉ bs.flatMap fun b => hexUpper 2 b.toNat := fun h => by
  obtain ⟨b, -, hb⟩ := List.mem_flatMap.mp h
  exact not_colon_of_mem_hexUpper hb rfl

/-- Turning the word-wise little-endian bytes around puts the words in reverse order. -/
theorem reverse_wordsLE {a : IP} (ha : a.length % 4 = 0) : (wordsLE a).reverse = reverseWords a := by
  induction a using wordsLE.induct with
  | case1 b0 b1 b2 b3 rest ih =>
    have hr : rest.length % 4 = 0 := by simp only [List.length_cons] at ha; omega
    rw [wordsLE, reverseWords, ← ih hr]
    simp only [List.reverse_cons, List.append_assoc, List.cons_append, List.nil_append]
  | case2 rest hrest =>
    match rest, hrest, ha with
    | [], _, _ => rfl
    | [_], _, h | [_, _], _, h | [_, _, _], _, h => simp at h
    | _ :: _ :: _ :: _ :: _, hrest, _ => exact absurd rfl (hrest _ _ _ _ _)

theorem decodeAddress_wordsLE_field {a : IP} (ha : a.length % 4 = 0) (port : UInt16) :
    decodeAddress (encodeAddress6 a port) = .ok ⟨ipString (reverseWords a), port.toUInt32⟩ := by
  have hsplit : (encodeAddress6 a port).splitOn ':' =
      [(wordsLE a).flatMap fun b => hexUpper 2 b.toNat, hexUpper 4 port.toNat] := by
    rw [encodeAddress6, splitOn_append_cons (colon_not_mem_flatMap_hexUpper _),
      splitOn_of_not_mem fun hc => not_colon_of_mem_hexUpper hc rfl]
  have hport : ((port.toNat : Int) % 4294967296).toNat = port.toNat := by
    have : port.toNat < 65536 := port.toNat_lt_size
    omega
  have hport32 : UInt32.ofNat port.toNat = port.toUInt32 :=
    UInt32.toNat.inj (show port.toNat % 4294967296 = port.toNat from
      Nat.mod_eq_of_lt (Nat.lt_trans port.toNat_lt_size (by decide)))
  simp only [decodeAddress, hsplit, parseInt_hexPort, decodeHex_flatMap_hexUpper, hport, hport32,
    reverse_wordsLE ha]

/-- `decodeAddress` reads the `tcp6` field of an address whose length is a whole number of
    words as the address with its words in reverse order, and the port. -/
theorem decodeAddress_encodeAddress6 (a : IP) (ha : a.length % 4 = 0) (port : UInt16) :
    decodeAddress (encodeAddress6 a port) = .ok ⟨ipString (reverseWords a), port.toUInt32⟩ :=
  decodeAddress_wordsLE_field ha port

/-! ### The documented field -/

/-- `2400:8500:1301:1052:a157:7:154:23f`, the address of the documented field. -/
def docAddr : IP :=
  [0x24, 0x00, 0x85, 0x00, 0x13, 0x01, 0x10, 0x52, 0xa1, 0x57, 0x00, 0x07, 0x01, 0x54, 0x02, 0x3f]

theorem decodeAddress_encodeAddress6_docAddr :
    docAddr.length % 4 = 0 ∧
      decodeAddress (encodeAddress6 docAddr 53) =
        .ok ⟨ipString (reverseWords docAddr), (53 : UInt16).toUInt32⟩ :=
  ⟨rfl, decodeAddress_encodeAddress6 docAddr rfl 53⟩

/-- The words of a one-word address are already in reverse order. -/
theorem reverseWords_of_length_four {a : IP} (ha : a.length = 4) : reverseWords a = a := by
  match a, ha with
  | [_, _, _, _], _ => rfl

end Shawk.Netutil
