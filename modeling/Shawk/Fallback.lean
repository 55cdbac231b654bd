import Shawk.Connections
import Shawk.ProcfsRoundTrip
import Shawk.ProcScan

/-!
# The procfs fallback against the netlink path

When netlink fails with a `NetlinkError`, `GetHostFlows` builds the flows from
`/proc/net/tcp` instead.  Over a table the kernel writes, the fallback builds exactly the
flows `GetHostFlowsByNetlink` builds from the same sockets with processes off, numeric
names and the filter `all`: the fallback reads no option, so under the filters `public`
and `private` the two runs differ.

The proof is a step-by-step simulation: the parsed table is the socket list mapped to
`ConnectionStat`s (the round trip of `ProcfsRoundTrip`), the listening ports agree, and one
step of each connection loop inserts the same flow.

With processes wanted, `GetHostFlowsByNetlink` builds the inode map before it asks netlink,
and the error of a failed scan is no `NetlinkError`: no fallback is taken, so over a static
`/proc` the probe returns flows only when every PID directory reads without error
(`getHostFlows_processes_readable`).
-/

namespace Shawk.Netlink

open Shawk.Go Shawk.Netutil Shawk.Probe

/-! ### One step -/

theorem lportEntOf_none (lconns : List InetDiagMsg) : lportEntOf none lconns = fun _ => none :=
  List.foldl_fixed _

theorem filterByLocalListeningPorts_map_toConnectionStat (conns : List InetDiagMsg) :
    filterByLocalListeningPorts (conns.map InetDiagMsg.toConnectionStat) =
      listeningPorts (netlinkFilterByLocalListeningPorts conns) := by
  simp only [filterByLocalListeningPorts, listeningPorts, netlinkFilterByLocalListeningPorts,
    List.filter_map, List.map_map]
  rfl

theorem procfsHostFlow_toConnectionStat (ports : List String) (conn : InetDiagMsg) :
    procfsHostFlow ports conn.toConnectionStat =
      netlinkHostFlow none ports (fun _ => none) conn := by
  simp only [procfsHostFlow, netlinkHostFlow, connEnt, InetDiagMsg.toConnectionStat,
    ipString_srcIP, ipString_dstIP]
  rfl

/-- Under the filter `all` with processes off, one step of the procfs loop is one step of
    the netlink loop. -/
theorem procfsFlowStep_toConnectionStat {opt : GetHostFlowsOption}
    (hfilter : opt.filter = FilterAll) (ports : List String) (flows : HostFlows) (conn : InetDiagMsg) :
    procfsFlowStep ports flows conn.toConnectionStat =
      netlinkFlowStep opt none ports (fun _ => none) flows conn := by
  simp only [procfsFlowStep, netlinkFlowStep, passesFilter, hfilter, if_true,
    procfsHostFlow_toConnectionStat]
  rfl

/-! ### The whole loop -/

theorem procfsHostFlows_map_toConnectionStat {opt : GetHostFlowsOption}
    (hfilter : opt.filter = FilterAll) (conns : List InetDiagMsg) :
    procfsHostFlows (conns.map InetDiagMsg.toConnectionStat) = netlinkHostFlows opt none conns := by
  simp only [procfsHostFlows, netlinkHostFlows, filterByLocalListeningPorts_map_toConnectionStat,
    lportEntOf_none, List.foldl_map, procfsFlowStep_toConnectionStat hfilter]

theorem getHostFlowsByProcfs_procNetTcp {host : Host} {header : List Char}
    {rows : List (TcpLineLayout × InetDiagMsg)} {finalNewline : Bool}
    (hprocfs : host.procNetTcp = .ok (procNetTcp header rows finalNewline))
    (hheader : '\n' ∉ header) (hrows : ∀ r ∈ rows, r.1.Valid) :
    getHostFlowsByProcfs host =
      .ok (procfsHostFlows ((rows.map Prod.snd).map InetDiagMsg.toConnectionStat)) := by
  simp only [getHostFlowsByProcfs, hprocfs, procfsConnections, Except.map,
    lines_procNetTcp header rows finalNewline hheader hrows, filterMap_parseTcpLine rows hrows,
    List.map_map]
  rfl

/-- With netlink failing and `/proc/net/tcp` holding the kernel's rendering of a socket
    table, `GetHostFlows` with processes off and numeric names returns what
    `GetHostFlowsByNetlink` returns on the same table with the filter `all`, whatever the
    filter asked for. -/
theorem getHostFlows_fallback (opt : GetHostFlowsOption) (host : Host) (e : NetlinkError)
    (header : List Char) (rows : List (TcpLineLayout × InetDiagMsg)) (finalNewline : Bool)
    (hprocesses : opt.processes = false) (hnumeric : opt.numeric = true)
    (hnetlink : host.netlink = .error e)
    (hprocfs : host.procNetTcp = .ok (procNetTcp header rows finalNewline))
    (hheader : '\n' ∉ header) (hrows : ∀ r ∈ rows, r.1.Valid) :
    getHostFlows opt host =
      getHostFlowsByNetlink { opt with filter := FilterAll }
        { host with netlink := .ok (rows.map Prod.snd) } := by
  have hfail : getHostFlowsByNetlink opt host = .error (.netlink e) := by
    simp only [getHostFlowsByNetlink, userEntsOf, hprocesses, hnetlink]
    rfl
  simp only [getHostFlows, hfail, HostFlowsError.isNetlinkError, if_true,
    getHostFlowsByProcfs_procNetTcp hprocfs hheader hrows,
    @procfsHostFlows_map_toConnectionStat { opt with filter := FilterAll } rfl]
  simp only [getHostFlowsByNetlink, userEntsOf, hprocesses, hnumeric]
  rfl

/-- A `/proc` with nothing under it. -/
def emptyProcTree : ProcTree :=
  ⟨.ok [], fun _ => .error ENOENT, fun _ => .error ENOENT, fun _ => ([], some ENOENT),
    fun _ _ => .error ENOENT, fun _ => .error ENOENT, fun _ => .error ENOENT⟩

/-- A host whose netlink socket fails and whose `/proc/net/tcp` lists the one established
    connection from `10.0.0.1:5000` to `10.0.0.2:80`. -/
def fallbackHost : Host :=
  ⟨.error ⟨"netlink: operation not permitted"⟩,
    .ok (procNetTcp "  sl  local_address".data [(kernelLayout, establishedMsg)] true),
    fun _ => emptyProcTree, 1, fun _ => none⟩

/-- Processes off, numeric names, and the filter `public`. -/
def publicOpt : GetHostFlowsOption := ⟨true, false, FilterPublic⟩

theorem getHostFlows_fallback_public :
    (publicOpt.processes = false ∧ publicOpt.numeric = true ∧
      fallbackHost.netlink = .error ⟨"netlink: operation not permitted"⟩ ∧
      fallbackHost.procNetTcp =
        .ok (procNetTcp "  sl  local_address".data [(kernelLayout, establishedMsg)] true) ∧
      '\n' ∉ "  sl  local_address".data ∧
      ∀ r ∈ [(kernelLayout, establishedMsg)], r.1.Valid) ∧
    getHostFlows publicOpt fallbackHost =
      getHostFlowsByNetlink { publicOpt with filter := FilterAll }
        { fallbackHost with netlink := .ok ([(kernelLayout, establishedMsg)].map Prod.snd) } := by
  have hheader : '\n' ∉ "  sl  local_address".data := by decide
  have hrows : ∀ r ∈ [(kernelLayout, establishedMsg)], r.1.Valid := by
    simpa using kernelLayout_valid
  exact ⟨⟨rfl, rfl, rfl, rfl, hheader, hrows⟩,
    getHostFlows_fallback publicOpt fallbackHost _ _ _ true rfl rfl rfl rfl hheader hrows⟩

/-- The active flow of the established connection. -/
def establishedFlow : HostFlow :=
  ⟨.active, ⟨"10.0.0.1", "many"⟩, ⟨"10.0.0.2", "80"⟩, none, 1⟩

/-- Under the filter `public`, the fallback keeps the flow to the private peer `10.0.0.2`
    that `GetHostFlowsByNetlink` drops from the same table. -/
theorem getHostFlows_fallback_keeps_private_peer :
    (getHostFlows publicOpt fallbackHost).toOption.map (· establishedFlow.key) =
        some (some establishedFlow) ∧
      (getHostFlowsByNetlink publicOpt { fallbackHost with netlink := .ok [establishedMsg] }
        ).toOption.map (· establishedFlow.key) = some none := by
  decide

/-! ### A failed process scan -/

/-- With processes wanted, a failed `BuildUserEntries` is the error of `GetHostFlows`,
    whatever netlink and `/proc/net/tcp` would give. -/
theorem getHostFlows_userEnts_error {opt : GetHostFlowsOption} {host : Host} {e : UserEntsError}
    (hprocesses : opt.processes = true) (h : buildUserEntries host.proc host.self = .error e) :
    getHostFlows opt host = .error (.userEnts e) := by
  simp [getHostFlows, getHostFlowsByNetlink, userEntsOf, hprocesses, h, Except.map,
    Except.mapError, bind, Except.bind, HostFlowsError.isNetlinkError]

/-- With processes wanted over a static `/proc`, `GetHostFlows` returns flows only when the
    root reads and every PID directory the scan enters reads without error. -/
theorem getHostFlows_processes_readable {opt : GetHostFlowsOption} {host : Host}
    {tree : ProcTree} {flows : HostFlows} (hprocesses : opt.processes = true)
    (hproc : host.proc = fun _ => tree) (h : getHostFlows opt host = .ok flows) :
    ∃ dir, tree.root = .ok dir ∧
      ∀ d ∈ dir, ∀ pid, scannedPid host.self d = some pid → PidReadable tree d.name pid := by
  cases hb : buildUserEntries host.proc host.self with
  | error e => rw [getHostFlows_userEnts_error hprocesses hb] at h; cases h
  | ok ents =>
    rw [hproc] at hb
    obtain ⟨dir, hdir, -, hr⟩ := buildUserEntries_scan hb
    exact ⟨dir, hdir, hr⟩

/-- A `/proc` with the probe `1`, the process `4242` whose fd `3` links to the socket 77 and
    whose fd `4` is a pipe, the process `777` whose `fd` the probe may not open, and the file
    `uptime`. -/
def pidsTree : ProcTree where
  root := .ok [⟨"1", true⟩, ⟨"4242", true⟩, ⟨"777", true⟩, ⟨"uptime", false⟩]
  statFd _ := .ok true
  openFd name := if name = "777" then .error EACCES else .ok ()
  listFd _ := ([("3", .ok ()), ("4", .ok ())], none)
  readlink _ fd := .ok (utf8 (if fd = "3" then "socket:[77]" else "pipe:[9]").data)
  openStat _ := .ok ()
  readStat _ := .ok (utf8 "4242 (nc) S 1 4242".data)

/-- The connection of the socket 77. -/
def pidsDump : List InetDiagMsg := [⟨TCP_ESTABLISHED, 40000, 80, ⟨10, 0, 0, 1⟩, ⟨10, 0, 0, 2⟩, 77⟩]

/-- The probe `1` over `pidsTree`, with the dump `pidsDump`. -/
def pidsHost : Host := ⟨.ok pidsDump, .ok [], fun _ => pidsTree, 1, fun _ => none⟩

/-- The scan of `pidsTree` skips the probe, the pipe, the process it may not read and the file,
    and records the socket of `4242`. -/
theorem buildUserEntries_pidsTree :
    buildUserEntries (fun _ => pidsTree) 1 =
      .ok (setUserEnt (fun _ => none) 77 3 4242 ⟨"nc", 1, 4242⟩) := by
  have hroot : sortEntries [⟨"1", true⟩, ⟨"4242", true⟩, ⟨"777", true⟩, ⟨"uptime", false⟩] =
      [⟨"1", true⟩, ⟨"4242", true⟩, ⟨"777", true⟩, ⟨"uptime", false⟩] :=
    List.mergeSort_of_sorted (by simp only [String.lt_iff_toList_lt]; decide)
  have hfds : sortNames ["3", "4"] = ["3", "4"] :=
    List.mergeSort_of_sorted (by simp only [String.lt_iff_toList_lt]; decide)
  simp only [buildUserEntries, pidsTree, hroot, scanPids, scanPid, readDirFd, readDirResult,
    lstatNames, Except.map, hfds]
  rfl

theorem getHostFlows_processes_readable_pids :
    ((⟨true, true, FilterAll⟩ : GetHostFlowsOption).processes = true ∧
      pidsHost.proc = (fun _ => pidsTree) ∧
      getHostFlows ⟨true, true, FilterAll⟩ pidsHost = .ok (netlinkHostFlows ⟨true, true, FilterAll⟩
        (some (setUserEnt (fun _ => none) 77 3 4242 ⟨"nc", 1, 4242⟩)) pidsDump)) ∧
      ∃ dir, pidsTree.root = .ok dir ∧ ∀ d ∈ dir, ∀ pid, scannedPid 1 d = some pid →
        PidReadable pidsTree d.name pid := by
  have h : getHostFlows ⟨true, true, FilterAll⟩ pidsHost = .ok (netlinkHostFlows
      ⟨true, true, FilterAll⟩ (some (setUserEnt (fun _ => none) 77 3 4242 ⟨"nc", 1, 4242⟩))
      pidsDump) := by
    simp only [getHostFlows, getHostFlowsByNetlink, userEntsOf, pidsHost, if_true,
      buildUserEntries_pidsTree]
    rfl
  exact ⟨⟨rfl, rfl, h⟩, getHostFlows_processes_readable rfl rfl h⟩

end Shawk.Netlink
