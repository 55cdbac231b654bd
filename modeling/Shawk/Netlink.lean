import Shawk.Procfs

/-!
# The netlink connection source

`NetlinkConnections` dumps the kernel's IPv4 TCP sockets through a `NETLINK_INET_DIAG`
socket.  The request asks for `AF_INET` only, so every message carries an IPv4 address in
the first four bytes of its address fields, and `SrcIP()`/`DstIP()` return it in the 16-byte
form of `net.IPv4`.  A failure is always reported as a `NetlinkError`.
-/

namespace Shawk.Netutil

open Shawk.Go

/-- `linux.InetDiagMsg`, the fields the probe reads: the socket state, the ports (big-endian
    on the wire, here their values), the IPv4 addresses and the socket inode. -/
structure InetDiagMsg where
  state : UInt8
  srcPort : UInt16
  dstPort : UInt16
  src : IPv4
  dst : IPv4
  inode : UInt32
deriving DecidableEq, Repr

/-- `SrcIP()`. -/
def InetDiagMsg.srcIP (m : InetDiagMsg) : IP := netIPv4 m.src

/-- `DstIP()`. -/
def InetDiagMsg.dstIP (m : InetDiagMsg) : IP := netIPv4 m.dst

/-- `NetlinkError`. -/
structure NetlinkError where
  msg : String
deriving DecidableEq, Repr

/-- `NetlinkFilterByLocalListeningPorts`: the listeners bound to `0.0.0.0`, `127.0.0.1` or
    `::`, compared as `SrcIP().String()`. -/
def netlinkFilterByLocalListeningPorts (conns : List InetDiagMsg) : List InetDiagMsg :=
  conns.filter fun c => c.state == TCP_LISTEN && isLocalListenAddr (ipString c.srcIP)

/-- `NetlinkLocalListeningPorts`: the ports, in decimal, of every listener. -/
def netlinkLocalListeningPorts (msgs : Except NetlinkError (List InetDiagMsg)) :
    Except NetlinkError (List String) :=
  msgs.map fun msgs =>
    (msgs.filter fun d => d.state == TCP_LISTEN).map fun d => Nat.repr d.srcPort.toNat

@[simp] theorem ipString_srcIP (m : InetDiagMsg) : ipString m.srcIP = m.src.toString :=
  ipString_netIPv4 m.src

@[simp] theorem ipString_dstIP (m : InetDiagMsg) : ipString m.dstIP = m.dst.toString :=
  ipString_netIPv4 m.dst

end Shawk.Netutil
