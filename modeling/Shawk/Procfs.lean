import Shawk.IP

/-!
# The procfs connection source

`ProcfsConnections` reads `/proc/net/tcp`, skips its header line, and turns every line with
at least ten fields whose two address fields decode into a `ConnectionStat`;
`decodeAddress` reads an address field `HEX:PORT` as little-endian address bytes and a hex
port.  `FilterByLocalListeningPorts` picks the listening ports out of the result.  The
file's text is a list of characters; reading it may fail with an errno.
-/

namespace Shawk.Go

/-- `syscall.Errno`. -/
structure Errno where
  code : Nat
deriving DecidableEq, Repr

/-- `syscall.ENOENT`: no such file or directory. -/
def ENOENT : Errno := ⟨2⟩

/-- `syscall.ESRCH`: no such process; what a read of an open `/proc/<pid>/stat` returns once
    the task is gone. -/
def ESRCH : Errno := ⟨3⟩

/-- `syscall.EACCES`: permission denied. -/
def EACCES : Errno := ⟨13⟩

end Shawk.Go

namespace Shawk.Netutil

open Shawk.Go

/-! ### TCP states (`linux.TCPState` of gosigar) -/

/-- `linux.TCPState`, the kernel's `tcp_states` numbering. -/
abbrev TCPState := UInt8

def TCP_ESTABLISHED : TCPState := 1
def TCP_SYN_SENT : TCPState := 2
def TCP_SYN_RECV : TCPState := 3
def TCP_LISTEN : TCPState := 10

/-! ### `decodeAddress` -/

/-- `Addr`: `<addr>:<port>`. -/
structure Addr where
  ip : String
  port : UInt32
deriving DecidableEq, Repr

/-- `ConnectionStat`. -/
structure ConnectionStat where
  laddr : Addr
  raddr : Addr
  status : TCPState
deriving DecidableEq, Repr

/-- The three errors of `decodeAddress`: "does not contain port, %s", "invalid port, %s",
    and "decode error, %s". -/
inductive DecodeAddressError
  | noPort (src : List Char)
  | invalidPort (src : List Char)
  | decode
deriving DecidableEq, Repr

/-- `decodeAddress`: split at `:` into exactly two parts, read the port with
    `ParseInt("0x"+t[1], 0, 64)`, decode the address hex, reverse its bytes (little
    endian), and keep the port as a `uint32`. -/
def decodeAddress (src : List Char) : Except DecodeAddressError Addr :=
  match src.splitOn ':' with
  | [addr, port] =>
    match parseInt ('0' :: 'x' :: port) 0 64 with
    | (p, none) =>
      match decodeHex addr with
      | some decoded => .ok ⟨ipString decoded.reverse, UInt32.ofNat (p % 4294967296).toNat⟩
      | none => .error .decode
    | (_, some _) => .error (.invalidPort src)
  | _ => .error (.noPort src)

/-! ### `ProcfsConnections` -/

/-- One line of `/proc/net/tcp` after the header, as the body of `ProcfsConnections`' loop:
    skipped (`none`) when it has fewer than ten fields or an address field does not decode.
    A state field that does not parse is only logged: the status is what `ParseUint(l[3],
    16, 8)` returned. -/
def parseTcpLine (line : List Char) : Option ConnectionStat :=
  let l := fields line
  if l.length < 10 then none
  else
    let status := parseUint (l.getD 3 []) 16 8
    match decodeAddress (l.getD 1 []), decodeAddress (l.getD 2 []) with
    | .ok la, .ok ra => some ⟨la, ra, status.1.toUInt8⟩
    | _, _ => none

/-- `ProcfsConnections`: read the file, split it at newlines, drop the header line, and parse
    each remaining line. -/
def procfsConnections (file : Except Errno (List Char)) : Except Errno (List ConnectionStat) :=
  file.map fun body => ((body.splitOn '\n').drop 1).filterMap parseTcpLine

/-! ### Listening ports -/

/-- The bind addresses that make a listener count: any IPv4, IPv4 loopback, any IPv6. -/
def isLocalListenAddr (ip : String) : Bool :=
  ip == "0.0.0.0" || ip == "127.0.0.1" || ip == "::"

/-- `FilterByLocalListeningPorts`: the ports, in decimal, of the listeners bound to one of
    the addresses above. -/
def filterByLocalListeningPorts (conns : List ConnectionStat) : List String :=
  (conns.filter fun c => c.status == TCP_LISTEN && isLocalListenAddr c.laddr.ip).map
    fun c => Nat.repr c.laddr.port.toNat

/-- `LocalListeningPorts`. -/
def localListeningPorts (file : Except Errno (List Char)) : Except Errno (List String) :=
  (procfsConnections file).map filterByLocalListeningPorts

end Shawk.Netutil
