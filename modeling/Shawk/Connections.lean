import Shawk.Netlink
import Shawk.UserEnts
import Shawk.HostFlow

/-!
# The flow builder: `GetHostFlows`

`GetHostFlowsByNetlink` joins the netlink dump with the inode map of `BuildUserEntries`: it
drops `LISTEN`, `SYN_SENT` and `SYN_RECV` sockets and those the address filter rejects,
classifies the rest as passive (local port among the listening ports) or active, attributes
a process, and inserts the flow.  `GetHostFlowsByProcfs` does the same over
`/proc/net/tcp`, with no filter and no process.  `GetHostFlows` falls back to procfs when
netlink fails with a `NetlinkError`.

Everything the probe reads from the host is one `Host` value: what netlink answers, the
text of `/proc/net/tcp`, the `/proc` tree over the scan, the probe's own PID, and the name
resolver.
-/

namespace Shawk.Netlink

open Shawk.Go Shawk.Netutil Shawk.Probe

/-- `GetHostFlowsOption`. -/
structure GetHostFlowsOption where
  numeric : Bool
  processes : Bool
  filter : String
deriving DecidableEq, Repr

/-- Modelled from the spec: `probe.FilterAll`, the `--filter all` value. -/
def FilterAll : String := "all"

/-- Modelled from the spec: `probe.FilterPublic`, the `--filter public` value. -/
def FilterPublic : String := "public"

/-- Modelled from the spec: `probe.FilterPrivate`, the `--filter private` value. -/
def FilterPrivate : String := "private"

/-- What the probe reads from its host. -/
structure Host where
  netlink : Except NetlinkError (List InetDiagMsg)
  procNetTcp : Except Errno (List Char)
  proc : ProcFs
  self : Int
  resolve : String → Option String

/-- The errors `GetHostFlows` passes on. -/
inductive HostFlowsError
  | netlink (e : NetlinkError)
  | userEnts (e : UserEntsError)
  | procfs (e : Errno)

/-- `xerrors.As(err, &netlinkErr)`. -/
def HostFlowsError.isNetlinkError : HostFlowsError → Bool
  | .netlink _ => true
  | _ => false

/-! ### One connection -/

/-- `contains`. -/
def contains (strs : List String) (s : String) : Bool :=
  strs.any (· == s)

/-- The state switch: `LISTEN`, `SYN_SENT` and `SYN_RECV` sockets are skipped. -/
def skipsState (state : TCPState) : Bool :=
  state == TCP_LISTEN || state == TCP_SYN_SENT || state == TCP_SYN_RECV

/-- The `opt.Filter` switch on the peer address. -/
def passesFilter (filter : String) (dst : IP) : Bool :=
  if filter = FilterAll then true
  else if filter = FilterPublic then !isPrivateIP dst
  else if filter = FilterPrivate then isPrivateIP dst
  else true

/-- `netutil.UserEntByLport`: a listener's entry by its port. -/
abbrev UserEntByLport := String → Option UserEnt

/-- `&probe.Process{Name: ent.Pname(), Pgid: ent.Pgrp()}`. -/
def UserEnt.toProcess (ent : UserEnt) : Process := ⟨ent.pname, ent.pgrp⟩

/-- `ent` of a connection: the map's entry for its inode, when processes are wanted and the
    inode is not 0. -/
def connEnt (userEnts : Option UserEnts) (conn : InetDiagMsg) : Option UserEnt :=
  match userEnts with
  | some ue => if conn.inode ≠ 0 then ue conn.inode else none
  | none => none

/-- The flow `GetHostFlowsByNetlink` inserts for a retained connection: passive when its
    local port is a listening port, with `ent` falling back to the listener's entry, and
    active otherwise. -/
def netlinkHostFlow (userEnts : Option UserEnts) (ports : List String)
    (lportEnt : UserEntByLport) (conn : InetDiagMsg) : HostFlow :=
  let ent := connEnt userEnts conn
  let lport := Nat.repr conn.srcPort.toNat
  let rport := Nat.repr conn.dstPort.toNat
  if contains ports lport then
    let ent := match ent with
      | none => lportEnt lport
      | some e => some e
    ⟨.passive, ⟨ipString conn.srcIP, lport⟩, ⟨ipString conn.dstIP, "many"⟩,
      ent.map UserEnt.toProcess, 0⟩
  else
    ⟨.active, ⟨ipString conn.srcIP, "many"⟩, ⟨ipString conn.dstIP, rport⟩,
      ent.map UserEnt.toProcess, 0⟩

/-- The body of the connection loop of `GetHostFlowsByNetlink`. -/
def netlinkFlowStep (opt : GetHostFlowsOption) (userEnts : Option UserEnts)
    (ports : List String) (lportEnt : UserEntByLport) (flows : HostFlows)
    (conn : InetDiagMsg) : HostFlows :=
  if skipsState conn.state then flows
  else if passesFilter opt.filter conn.dstIP = false then flows
  else flows.insert (netlinkHostFlow userEnts ports lportEnt conn)

/-! ### `GetHostFlowsByNetlink` -/

/-- The listening ports, in decimal. -/
def listeningPorts (lconns : List InetDiagMsg) : List String :=
  lconns.map fun l => Nat.repr l.srcPort.toNat

/-- `lportEnt`: for each listener in turn, `lportEnt[sport] = userEnts[lconn.Inode]` when
    processes are wanted. -/
def lportEntOf (userEnts : Option UserEnts) (lconns : List InetDiagMsg) : UserEntByLport :=
  lconns.foldl (fun m lconn =>
    match userEnts with
    | some ue => fun p => if p = Nat.repr lconn.srcPort.toNat then ue lconn.inode else m p
    | none => m) fun _ => none

/-- The flows `GetHostFlowsByNetlink` builds from the dump `conns` and the inode map. -/
def netlinkHostFlows (opt : GetHostFlowsOption) (userEnts : Option UserEnts)
    (conns : List InetDiagMsg) : HostFlows :=
  let lconns := netlinkFilterByLocalListeningPorts conns
  conns.foldl (netlinkFlowStep opt userEnts (listeningPorts lconns) (lportEntOf userEnts lconns))
    HostFlows.empty

/-- The inode map, built only when processes are wanted. -/
def userEntsOf (opt : GetHostFlowsOption) (host : Host) :
    Except HostFlowsError (Option UserEnts) :=
  if opt.processes then ((buildUserEntries host.proc host.self).map some).mapError .userEnts
  else .ok none

/-- `GetHostFlowsByNetlink`. -/
def getHostFlowsByNetlink (opt : GetHostFlowsOption) (host : Host) :
    Except HostFlowsError HostFlows := do
  let userEnts ← userEntsOf opt host
  let conns ← host.netlink.mapError .netlink
  let flows := netlinkHostFlows opt userEnts conns
  pure (if opt.numeric then flows else flows.setLookupedName host.resolve)

/-! ### `GetHostFlowsByProcfs` and `GetHostFlows` -/

/-- The flow `GetHostFlowsByProcfs` inserts for a retained connection. -/
def procfsHostFlow (ports : List String) (conn : ConnectionStat) : HostFlow :=
  let lport := Nat.repr conn.laddr.port.toNat
  let rport := Nat.repr conn.raddr.port.toNat
  if contains ports lport then
    ⟨.passive, ⟨conn.laddr.ip, lport⟩, ⟨conn.raddr.ip, "many"⟩, none, 0⟩
  else
    ⟨.active, ⟨conn.laddr.ip, "many"⟩, ⟨conn.raddr.ip, rport⟩, none, 0⟩

/-- The body of the connection loop of `GetHostFlowsByProcfs`. -/
def procfsFlowStep (ports : List String) (flows : HostFlows) (conn : ConnectionStat) :
    HostFlows :=
  if skipsState conn.status then flows else flows.insert (procfsHostFlow ports conn)

/-- The flows `GetHostFlowsByProcfs` builds from the parsed table. -/
def procfsHostFlows (conns : List ConnectionStat) : HostFlows :=
  conns.foldl (procfsFlowStep (filterByLocalListeningPorts conns)) HostFlows.empty

/-- `GetHostFlowsByProcfs`. -/
def getHostFlowsByProcfs (host : Host) : Except HostFlowsError HostFlows :=
  ((procfsConnections host.procNetTcp).map procfsHostFlows).mapError .procfs

/-- `GetHostFlows`: netlink, and procfs when netlink fails with a `NetlinkError`. -/
def getHostFlows (opt : GetHostFlowsOption) (host : Host) : Except HostFlowsError HostFlows :=
  match getHostFlowsByNetlink opt host with
  | .ok flows => .ok flows
  | .error e => if e.isNetlinkError then getHostFlowsByProcfs host else .error e

end Shawk.Netlink
