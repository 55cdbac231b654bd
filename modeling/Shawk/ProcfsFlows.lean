import Shawk.Fallback
import Shawk.ProcfsLines

/-!
# What the procfs flow builder computes

`GetHostFlowsByProcfs` runs over whatever `/proc/net/tcp` holds, not only over tables the
kernel writes: a line with a 16-byte address reads as IPv6 (and `::` then counts as a local
bind address), a port may pass 65535, a status may be any byte.  Its flows carry no process,
so a flow is fixed by its key, and the loop of `Insert`s computes a function of the parsed
connections taken as a multiset: under every key of a retained connection, the flow of that
key counting the retained connections with it (`procfsHostFlows_eq_reference`).

Two consequences for the probe.  The order of the lines of `/proc/net/tcp` never matters
(`getHostFlowsByProcfs_perm_lines`), unlike the order of the netlink dump, which decides the
process of a flow.  And once netlink fails with a `NetlinkError`, `GetHostFlows` returns that
reference over the lines the parser accepts, whatever filter, name mode or process setting
was asked for (`getHostFlows_netlinkError`).  `GetHostFlows` fails only when the scan of
`/proc` fails, or when netlink fails and `/proc/net/tcp` cannot be read; it never passes a
`NetlinkError` on (`getHostFlows_eq_error_iff`).
-/

namespace Shawk.Probe

/-- The flow stored under `k` that counts `n` connections and names no process. -/
def FlowKey.toFlow (k : FlowKey) (n : Nat) : HostFlow := ⟨k.direction, k.local, k.peer, none, n⟩

@[simp] theorem FlowKey.toFlow_key (k : FlowKey) (n : Nat) : (k.toFlow n).key = k := rfl

end Shawk.Probe

namespace Shawk.Netlink

open Shawk.Go Shawk.Netutil Shawk.Probe

/-! ### The reference aggregation over parsed connections -/

/-- A parsed listener whose port is listened on locally: `LISTEN`, with a local address that
    reads `0.0.0.0`, `127.0.0.1` or `::`. -/
def isProcfsListener (c : ConnectionStat) : Bool :=
  c.status == TCP_LISTEN && isLocalListenAddr c.laddr.ip

/-- The listening ports of a parsed table, as numbers. -/
def procfsListenPorts (conns : List ConnectionStat) : List UInt32 :=
  (conns.filter isProcfsListener).map (·.laddr.port)

/-- A parsed connection that becomes a flow: its status is not `LISTEN`, `SYN_SENT` or
    `SYN_RECV`. -/
def procfsRetained (c : ConnectionStat) : Bool :=
  !(c.status == TCP_LISTEN || c.status == TCP_SYN_SENT || c.status == TCP_SYN_RECV)

/-- The key of a parsed connection: passive with its local port when that port is listened
    on, active with the peer port otherwise. -/
def procfsFlowKey (P : List UInt32) (c : ConnectionStat) : FlowKey :=
  if c.laddr.port ∈ P then
    ⟨.passive, ⟨c.laddr.ip, Nat.repr c.laddr.port.toNat⟩, ⟨c.raddr.ip, "many"⟩⟩
  else
    ⟨.active, ⟨c.laddr.ip, "many"⟩, ⟨c.raddr.ip, Nat.repr c.raddr.port.toNat⟩⟩

/-- Whether a parsed connection is retained with key `k`. -/
def procfsAggregatedInto (conns : List ConnectionStat) (k : FlowKey) (c : ConnectionStat) :
    Bool :=
  procfsRetained c && procfsFlowKey (procfsListenPorts conns) c == k

/-- The flows a parsed table should give: under every key of a retained connection, the flow
    of that key with no process, counting the retained connections with that key. -/
def procfsReference (conns : List ConnectionStat) : HostFlows := fun k =>
  let n := conns.countP (procfsAggregatedInto conns k)
  if n = 0 then none else some (k.toFlow n)

/-! ### One step of the loop -/

theorem repr_toNat_inj32 {p q : UInt32} : Nat.repr p.toNat = Nat.repr q.toNat ↔ p = q :=
  ⟨fun h => UInt32.toNat.inj (repr_injective h), fun h => h ▸ rfl⟩

/-- A local port is among the printed listening ports exactly when it is a listening port. -/
theorem contains_filterByLocalListeningPorts (conns : List ConnectionStat) (p : UInt32) :
    contains (filterByLocalListeningPorts conns) (Nat.repr p.toNat) =
      decide (p ∈ procfsListenPorts conns) := by
  rw [Bool.eq_iff_iff]
  simp only [contains, filterByLocalListeningPorts, procfsListenPorts, isProcfsListener,
    List.any_eq_true, List.mem_map, beq_iff_eq, decide_eq_true_eq, exists_eq_right,
    repr_toNat_inj32]
  exact Iff.rfl

theorem procfsHostFlow_eq (conns : List ConnectionStat) (c : ConnectionStat) :
    procfsHostFlow (filterByLocalListeningPorts conns) c =
      (procfsFlowKey (procfsListenPorts conns) c).toFlow 0 := by
  simp only [procfsHostFlow, procfsFlowKey, contains_filterByLocalListeningPorts,
    decide_eq_true_eq]
  split <;> rfl

theorem procfsRetained_eq (c : ConnectionStat) : procfsRetained c = !skipsState c.status := rfl

theorem procfsFlowStep_eq (ports : List String) :
    procfsFlowStep ports = insertKept procfsRetained (procfsHostFlow ports) := by
  funext flows c
  simp only [procfsFlowStep, insertKept, procfsRetained_eq]
  by_cases h : skipsState c.status <;> simp [h]

/-! ### The whole loop -/

/-- Under every key, the procfs loop stores the reference's flow. -/
theorem procfsHostFlows_apply (conns : List ConnectionStat) (k : FlowKey) :
    procfsHostFlows conns k = procfsReference conns k := by
  have hkept : keptWithKey procfsRetained (procfsHostFlow (filterByLocalListeningPorts conns)) k =
      procfsAggregatedInto conns k := by
    funext c
    simp only [keptWithKey, procfsAggregatedInto, procfsHostFlow_eq, FlowKey.toFlow_key]
  rw [procfsHostFlows, procfsFlowStep_eq, foldl_insertKept_empty, hkept, procfsReference]
  cases h : conns.find? (procfsAggregatedInto conns k) with
  | none =>
    have h0 : conns.countP (procfsAggregatedInto conns k) = 0 :=
      List.countP_eq_zero.mpr fun c hc => by simpa using List.find?_eq_none.mp h c hc
    simp [h0]
  | some c =>
    have hc := List.find?_some h
    have hpos : conns.countP (procfsAggregatedInto conns k) ≠ 0 :=
      (List.countP_pos_iff.mpr ⟨c, List.mem_of_find?_eq_some h, hc⟩).ne'
    have hkey : procfsFlowKey (procfsListenPorts conns) c = k := by
      simpa [procfsAggregatedInto] using ((Bool.and_eq_true _ _).mp hc).2
    simp only [Option.map_some', procfsHostFlow_eq, hkey, if_neg hpos, FlowKey.toFlow,
      Nat.zero_add]

/-- For every parsed table, the procfs flow builder returns exactly the reference: one flow per
    key of a retained connection, with no process, counting the retained connections with that
    key. -/
theorem procfsHostFlows_eq_reference (conns : List ConnectionStat) :
    procfsHostFlows conns = procfsReference conns :=
  funext (procfsHostFlows_apply conns)

/-! ### The order of the lines -/

theorem procfsReference_perm {conns conns' : List ConnectionStat} (h : conns.Perm conns') :
    procfsReference conns = procfsReference conns' := by
  have hP : ∀ p, p ∈ procfsListenPorts conns ↔ p ∈ procfsListenPorts conns' := fun _ =>
    ((h.filter isProcfsListener).map _).mem_iff
  have hagg : procfsAggregatedInto conns = procfsAggregatedInto conns' := by
    funext k c
    simp only [procfsAggregatedInto, procfsFlowKey, hP]
  funext k
  simp only [procfsReference, hagg, h.countP_eq]

/-- Two files whose lines after the first are the same up to order give the same flows: the
    header is never read and the order of the connection lines never matters. -/
theorem getHostFlowsByProcfs_perm_lines (host : Host) {body body' : List Char}
    (hperm : ((body.splitOn '\n').drop 1).Perm ((body'.splitOn '\n').drop 1)) :
    getHostFlowsByProcfs { host with procNetTcp := .ok body } =
      getHostFlowsByProcfs { host with procNetTcp := .ok body' } := by
  have hflows : procfsHostFlows (((body.splitOn '\n').drop 1).filterMap parseTcpLine) =
      procfsHostFlows (((body'.splitOn '\n').drop 1).filterMap parseTcpLine) := by
    funext k
    rw [procfsHostFlows_apply, procfsHostFlows_apply, procfsReference_perm (hperm.filterMap _)]
  simp only [getHostFlowsByProcfs, procfsConnections, Except.map, hflows]

/-- A listener on `0.0.0.0:22`, a connection it accepted from `10.0.0.3:51000`, and a client
    of `10.0.0.2:80`, in the kernel's layout. -/
def sshRows : List (TcpLineLayout × InetDiagMsg) :=
  [(kernelLayout, ⟨TCP_LISTEN, 22, 0, ⟨0, 0, 0, 0⟩, ⟨0, 0, 0, 0⟩, 3⟩),
    (kernelLayout, ⟨TCP_ESTABLISHED, 22, 51000, ⟨10, 0, 0, 1⟩, ⟨10, 0, 0, 3⟩, 9⟩),
    (kernelLayout, establishedMsg)]

/-- The kernel's file of the three sockets, and the same file with its lines reversed. -/
theorem getHostFlowsByProcfs_perm_lines_swap :
    (((procNetTcp "  sl  local_address".data sshRows true).splitOn '\n').drop 1).Perm
        (((procNetTcp "  sl  local_address".data sshRows.reverse true).splitOn '\n').drop 1) ∧
      getHostFlowsByProcfs { fallbackHost with
          procNetTcp := .ok (procNetTcp "  sl  local_address".data sshRows true) } =
        getHostFlowsByProcfs { fallbackHost with
          procNetTcp := .ok (procNetTcp "  sl  local_address".data sshRows.reverse true) } :=
  have hheader : '\n' ∉ "  sl  local_address".data := by decide
  have hrows : ∀ r ∈ sshRows, r.1.Valid := by simpa [sshRows] using kernelLayout_valid
  have h : (((procNetTcp "  sl  local_address".data sshRows true).splitOn '\n').drop 1).Perm
      (((procNetTcp "  sl  local_address".data sshRows.reverse true).splitOn '\n').drop 1) := by
    rw [lines_procNetTcp _ _ true hheader hrows,
      lines_procNetTcp _ _ true hheader fun r hr => hrows r (List.mem_reverse.mp hr)]
    exact ((List.reverse_perm sshRows).symm.map _).append_right _
  ⟨h, getHostFlowsByProcfs_perm_lines fallbackHost h⟩

/-! ### `GetHostFlows` once netlink fails -/

/-- Once netlink fails with a `NetlinkError`, and the inode map builds when processes are
    wanted, `GetHostFlows` returns the reference over the connections of the lines the parser
    accepts, whatever the filter, the name mode and the process setting; a failed read of
    `/proc/net/tcp` is its error. -/
theorem getHostFlows_netlinkError {opt : GetHostFlowsOption} {host : Host} {e : NetlinkError}
    (hnetlink : host.netlink = .error e)
    (hue : opt.processes = true → ∃ ents, buildUserEntries host.proc host.self = .ok ents) :
    (∀ err, host.procNetTcp = .error err → getHostFlows opt host = .error (.procfs err)) ∧
      ∀ body cs, host.procNetTcp = .ok body → ReadsLines ((body.splitOn '\n').drop 1) cs →
        getHostFlows opt host = .ok (procfsReference cs) := by
  have hfail : getHostFlowsByNetlink opt host = .error (.netlink e) := by
    cases hp : opt.processes
    · simp only [getHostFlowsByNetlink, userEntsOf, hp, hnetlink]; rfl
    · obtain ⟨ents, hents⟩ := hue hp
      simp only [getHostFlowsByNetlink, userEntsOf, hp, hents, hnetlink]; rfl
  have hfallback : getHostFlows opt host = getHostFlowsByProcfs host := by
    simp only [getHostFlows, hfail, HostFlowsError.isNetlinkError, if_true]
  refine ⟨fun err herr => ?_, fun body cs hbody hcs => ?_⟩
  · rw [hfallback, getHostFlowsByProcfs, herr]; rfl
  · rw [hfallback, getHostFlowsByProcfs, hbody, procfsConnections, Except.map,
      (filterMap_parseTcpLine_eq_iff _ cs).mpr hcs]
    exact congrArg Except.ok (funext (procfsHostFlows_apply cs))

/-- Processes wanted, names looked up, and the filter `private`. -/
def privateProcessesOpt : GetHostFlowsOption := ⟨false, true, FilterPrivate⟩

theorem getHostFlows_netlinkError_fallbackHost :
    fallbackHost.netlink = .error ⟨"netlink: operation not permitted"⟩ ∧
      (privateProcessesOpt.processes = true →
        ∃ ents, buildUserEntries fallbackHost.proc fallbackHost.self = .ok ents) ∧
      (∀ err, fallbackHost.procNetTcp = .error err →
        getHostFlows privateProcessesOpt fallbackHost = .error (.procfs err)) ∧
      ∀ body cs, fallbackHost.procNetTcp = .ok body →
        ReadsLines ((body.splitOn '\n').drop 1) cs →
        getHostFlows privateProcessesOpt fallbackHost = .ok (procfsReference cs) :=
  have hue : privateProcessesOpt.processes = true →
      ∃ ents, buildUserEntries fallbackHost.proc fallbackHost.self = .ok ents :=
    fun _ => ⟨fun _ => none, by
      simp [buildUserEntries, fallbackHost, emptyProcTree, sortEntries, scanPids, Except.map]⟩
  ⟨rfl, hue, getHostFlows_netlinkError rfl hue⟩

/-! ### When `GetHostFlows` fails -/

/-- The procfs path fails exactly when `/proc/net/tcp` cannot be read: the parser skips what
    it cannot read. -/
theorem getHostFlowsByProcfs_eq_error {host : Host} {e : HostFlowsError} :
    getHostFlowsByProcfs host = .error e ↔
      ∃ err, host.procNetTcp = .error err ∧ e = .procfs err := by
  unfold getHostFlowsByProcfs procfsConnections
  cases host.procNetTcp with
  | error err =>
    refine ⟨fun he => ⟨err, rfl, (Except.error.inj he).symm⟩, ?_⟩
    rintro ⟨_, he, rfl⟩
    cases he
    rfl
  | ok body => exact ⟨fun he => (nomatch he), fun ⟨_, he, _⟩ => nomatch he⟩

/-- The inode map fails exactly when processes are wanted and the scan fails. -/
theorem userEntsOf_eq_error {opt : GetHostFlowsOption} {host : Host} {u : HostFlowsError} :
    userEntsOf opt host = .error u ↔
      opt.processes = true ∧ ∃ u', buildUserEntries host.proc host.self = .error u' ∧
        u = .userEnts u' := by
  unfold userEntsOf
  cases opt.processes with
  | false => exact ⟨fun h => (nomatch h), fun ⟨h, _⟩ => nomatch h⟩
  | true =>
    cases buildUserEntries host.proc host.self with
    | error u' =>
      refine ⟨fun h => ⟨rfl, u', rfl, (Except.error.inj h).symm⟩, ?_⟩
      rintro ⟨-, _, hb, rfl⟩
      cases hb
      rfl
    | ok ents => exact ⟨fun h => (nomatch h), fun ⟨_, _, hb, _⟩ => nomatch hb⟩

/-- Once the inode map is built, `GetHostFlows` is the netlink flows, or the procfs fallback
    when netlink fails. -/
theorem getHostFlows_of_userEntsOf {opt : GetHostFlowsOption} {host : Host}
    {ue : Option UserEnts} (hue : userEntsOf opt host = .ok ue) :
    getHostFlows opt host = match host.netlink with
      | .ok conns => .ok (if opt.numeric then netlinkHostFlows opt ue conns
          else (netlinkHostFlows opt ue conns).setLookupedName host.resolve)
      | .error _ => getHostFlowsByProcfs host := by
  cases hn : host.netlink <;>
    simp only [getHostFlows, getHostFlowsByNetlink, hue, hn, bind, Except.bind, Except.mapError,
      pure, Except.pure, HostFlowsError.isNetlinkError, if_true]

/-- `GetHostFlows` fails in exactly two ways: processes are wanted and the scan of `/proc`
    fails, with the scan's error; or the inode map builds (or is not wanted), netlink fails
    and `/proc/net/tcp` cannot be read, with the read's error.  It never passes a
    `NetlinkError` on. -/
theorem getHostFlows_eq_error_iff {opt : GetHostFlowsOption} {host : Host} {e : HostFlowsError} :
    getHostFlows opt host = .error e ↔
      (opt.processes = true ∧ ∃ u, buildUserEntries host.proc host.self = .error u ∧
        e = .userEnts u) ∨
      ((opt.processes = true → ∃ ents, buildUserEntries host.proc host.self = .ok ents) ∧
        (∃ ne, host.netlink = .error ne) ∧
        ∃ err, host.procNetTcp = .error err ∧ e = .procfs err) := by
  rcases hue : userEntsOf opt host with u | ue
  · obtain ⟨hp, u', hb, rfl⟩ := userEntsOf_eq_error.mp hue
    have hg : getHostFlows opt host = .error (.userEnts u') := by
      simp only [getHostFlows, getHostFlowsByNetlink, hue, bind, Except.bind,
        HostFlowsError.isNetlinkError]
      rfl
    have hnok : ¬ ∃ ents, buildUserEntries host.proc host.self = .ok ents :=
      fun ⟨_, h⟩ => nomatch hb.symm.trans h
    rw [hg, or_iff_left fun h => hnok (h.1 hp)]
    refine ⟨fun h => ?_, fun ⟨_, u, hb', he⟩ => ?_⟩
    · cases h
      exact ⟨hp, u', hb, rfl⟩
    · cases hb.symm.trans hb'
      rw [he]
  · have hscan : ∀ u, opt.processes = true →
        buildUserEntries host.proc host.self = .error u → False := fun u hp hb =>
      nomatch hue.symm.trans (userEntsOf_eq_error.mpr ⟨hp, u, hb, rfl⟩)
    have hok : opt.processes = true → ∃ ents, buildUserEntries host.proc host.self = .ok ents :=
      fun hp => by
        cases hb : buildUserEntries host.proc host.self with
        | error u => exact (hscan u hp hb).elim
        | ok ents => exact ⟨ents, rfl⟩
    rw [getHostFlows_of_userEntsOf hue, or_iff_right fun ⟨hp, u, hb, _⟩ => hscan u hp hb,
      and_iff_right hok]
    cases hn : host.netlink with
    | ok conns => exact ⟨fun h => (nomatch h), fun ⟨⟨_, h⟩, _⟩ => nomatch h⟩
    | error ne =>
      rw [getHostFlowsByProcfs_eq_error]
      exact ⟨fun h => ⟨⟨ne, rfl⟩, h⟩, fun h => h.2⟩

end Shawk.Netlink
