import Shawk.Numerals

/-!
# IP addresses: `net.IP` and its text

The probe prints every address it sees with `net.IP.String` and compares those strings
with `"0.0.0.0"`, `"127.0.0.1"` and `"::"`.  Netlink hands it IPv4 addresses as the 16-byte
IPv4-in-IPv6 form of `net.IPv4`; `/proc/net/tcp` as bytes decoded from hex, of any length.
`ipString` is `net.IP.String` on every length, and the lemmas show that both IPv4 forms
print as the dotted quad, and that the dotted quad determines the address.
-/

namespace Shawk.Go

/-- `net.IP`: a byte slice, 4 bytes for IPv4 and 16 for IPv6. -/
abbrev IP := List UInt8

/-- An IPv4 address, its bytes in network order. -/
structure IPv4 where
  b0 : UInt8
  b1 : UInt8
  b2 : UInt8
  b3 : UInt8
deriving DecidableEq, Repr

/-- The 4-byte form. -/
def IPv4.toIP (a : IPv4) : IP := [a.b0, a.b1, a.b2, a.b3]

/-- The 12-byte prefix of an IPv4-in-IPv6 address. -/
def v4InV6Prefix : IP := [0, 0, 0, 0, 0, 0, 0, 0, 0, 0, 0xff, 0xff]

/-- `net.IPv4(a, b, c, d)`: the 16-byte IPv4-in-IPv6 form. -/
def netIPv4 (a : IPv4) : IP := v4InV6Prefix ++ a.toIP

/-- `IP.To4`: the IPv4 address of a 4-byte address or of a 16-byte IPv4-in-IPv6 address. -/
def to4 (ip : IP) : Option IPv4 :=
  match ip with
  | [a, b, c, d] => some ⟨a, b, c, d⟩
  | _ =>
    if ip.take 12 = v4InV6Prefix then
      match ip.drop 12 with
      | [a, b, c, d] => some ⟨a, b, c, d⟩
      | _ => none
    else none

/-! ### The text of an address -/

/-- The dotted quad `a.b.c.d`, each byte in decimal. -/
def IPv4.toString (a : IPv4) : String :=
  Nat.repr a.b0.toNat ++ "." ++ Nat.repr a.b1.toNat ++ "." ++ Nat.repr a.b2.toNat ++ "." ++
    Nat.repr a.b3.toNat

/-- `hexString`: two lower-case hex digits a byte. -/
def hexString (ip : IP) : String :=
  ⟨ip.flatMap fun b => [Nat.digitChar (b.toNat / 16), Nat.digitChar (b.toNat % 16)]⟩

/-- The eight 16-bit groups of a 16-byte address. -/
def v6Groups (ip : IP) : List Nat :=
  (List.range 8).map fun i => (ip.getD (2 * i) 0).toNat * 256 + (ip.getD (2 * i + 1) 0).toNat

/-- The number of zero groups from group `i` on. -/
def zeroRun (gs : List Nat) (i : Nat) : Nat :=
  ((gs.drop i).takeWhile (· == 0)).length

/-- The first longest run of two or more zero groups, as its first and past-the-end group. -/
def longestZeroRun (gs : List Nat) : Option (Nat × Nat) :=
  (List.range 8).foldl (fun best i =>
    let l := zeroRun gs i
    if 2 ≤ l ∧ best.elim 0 (fun r => r.2 - r.1) < l then some (i, i + l) else best) none

/-- The IPv6 text of a 16-byte address: groups in lower-case hex without leading zeros,
    separated by `:`, the first longest run of zero groups written `::`. -/
def ipv6String (ip : IP) : String :=
  let gs := v6Groups ip
  let groups := fun (l : List Nat) => ":".intercalate (l.map fun g => (Nat.toDigits 16 g).asString)
  match longestZeroRun gs with
  | none => groups gs
  | some (s, e) => groups (gs.take s) ++ "::" ++ groups (gs.drop e)

/-- `net.IP.String`: `<nil>` for no bytes, the dotted quad for an IPv4 address in either
    form, the IPv6 text for other 16-byte addresses, and `?` and the hex bytes otherwise. -/
def ipString (ip : IP) : String :=
  if ip = [] then "<nil>"
  else match to4 ip with
    | some a => a.toString
    | none => if ip.length = 16 then ipv6String ip else "?" ++ hexString ip

/-- Modelled from the spec: `netutil.IsPrivateIP`, which is not in the source.  The spec
    says "Private is RFC1918/loopback/link-local": 10/8, 172.16/12, 192.168/16, 127/8 and
    169.254/16 for IPv4, `::1` and fe80::/10 for IPv6. -/
def isPrivateIP (ip : IP) : Bool :=
  match to4 ip with
  | some a =>
    a.b0 == 10 || (a.b0 == 172 && 16 ≤ a.b1 && a.b1 < 32) || (a.b0 == 192 && a.b1 == 168) ||
      a.b0 == 127 || (a.b0 == 169 && a.b1 == 254)
  | none =>
    ip.length == 16 &&
      (ip == List.replicate 15 0 ++ [1] || (ip.getD 0 0 == 0xfe && ip.getD 1 0 / 64 == 2))

/-! ### Both IPv4 forms print as the dotted quad -/

@[simp] theorem to4_toIP (a : IPv4) : to4 a.toIP = some a := rfl

@[simp] theorem to4_netIPv4 (a : IPv4) : to4 (netIPv4 a) = some a := rfl

@[simp] theorem ipString_toIP (a : IPv4) : ipString a.toIP = a.toString := rfl

@[simp] theorem ipString_netIPv4 (a : IPv4) : ipString (netIPv4 a) = a.toString := rfl

/-! ### The dotted quad determines the address -/

theorem toString_data (a : IPv4) :
    a.toString.data = Nat.toDigits 10 a.b0.toNat ++ '.' :: (Nat.toDigits 10 a.b1.toNat ++
      '.' :: (Nat.toDigits 10 a.b2.toNat ++ '.' :: Nat.toDigits 10 a.b3.toNat)) := by
  simp [IPv4.toString, Nat.repr, List.asString]

theorem dot_not_mem_toDigits (n : Nat) : '.' ∉ Nat.toDigits 10 n := fun h =>
  absurd (toDigits_ten_digits n '.' h).1 (by decide)

/-- Splitting the dotted quad at its dots gives the four numerals back. -/
theorem toString_splitOn (a : IPv4) :
    a.toString.data.splitOn '.' = [Nat.toDigits 10 a.b0.toNat, Nat.toDigits 10 a.b1.toNat,
      Nat.toDigits 10 a.b2.toNat, Nat.toDigits 10 a.b3.toNat] := by
  have h : (['.'].intercalate [Nat.toDigits 10 a.b0.toNat, Nat.toDigits 10 a.b1.toNat,
      Nat.toDigits 10 a.b2.toNat, Nat.toDigits 10 a.b3.toNat]).splitOn '.' = _ :=
    List.splitOn_intercalate _ '.' (by simp [dot_not_mem_toDigits]) (by simp)
  rw [← h, toString_data]
  simp [List.intercalate]

theorem UInt8.eq_of_repr_eq {x y : UInt8} (h : Nat.toDigits 10 x.toNat = Nat.toDigits 10 y.toNat) :
    x = y :=
  UInt8.eq_of_val_eq (Fin.ext (toDigits_ten_injective h))

theorem IPv4.toString_injective {a b : IPv4} (h : a.toString = b.toString) : a = b := by
  have hs := congrArg (fun s : String => s.data.splitOn '.') h
  simp only [toString_splitOn, List.cons.injEq, and_true] at hs
  obtain ⟨h0, h1, h2, h3⟩ := hs
  cases a; cases b
  simp only [IPv4.mk.injEq]
  exact ⟨UInt8.eq_of_repr_eq h0, UInt8.eq_of_repr_eq h1, UInt8.eq_of_repr_eq h2,
    UInt8.eq_of_repr_eq h3⟩

theorem IPv4.toString_inj {a b : IPv4} : a.toString = b.toString ↔ a = b :=
  ⟨IPv4.toString_injective, congrArg _⟩

end Shawk.Go
