import Shawk.Aggregation
import Shawk.Fallback

/-!
# The three listening-port lists

The probe derives the local listening ports three ways: `NetlinkLocalListeningPorts` from the
netlink dump, `LocalListeningPorts` from `/proc/net/tcp`, and the `P` of
`GetHostFlowsByNetlink` through `NetlinkFilterByLocalListeningPorts`.  Over every table the
kernel writes, `LocalListeningPorts` returns `P` port for port
(`localListeningPorts_procNetTcp`).

`NetlinkLocalListeningPorts` leaves out the bind-address test.  It returns every port of `P`
and also the ports of listeners bound to any other address, so it agrees with `P` as a set
exactly when the port of each listener is also the port of one bound to `0.0.0.0` or
`127.0.0.1` (`netlinkLocalListeningPorts_sets`).  A single listener on `10.0.0.1:8080` tells
the lists apart (`listeningPorts_bound_listener`).
-/

namespace Shawk.Netlink

open Shawk.Go Shawk.Netutil

/-! ### Membership -/

theorem mem_listeningPorts {conns : List InetDiagMsg} {x : String} :
    x ∈ listeningPorts (netlinkFilterByLocalListeningPorts conns) ↔
      ∃ c ∈ conns, c.state = TCP_LISTEN ∧ isLocalListenAddr (ipString c.srcIP) = true ∧
        Nat.repr c.srcPort.toNat = x := by
  simp only [listeningPorts, netlinkFilterByLocalListeningPorts, List.mem_map, List.mem_filter,
    Bool.and_eq_true, beq_iff_eq, and_assoc]

theorem netlinkLocalListeningPorts_ok (conns : List InetDiagMsg) :
    netlinkLocalListeningPorts (.ok conns) =
      .ok ((conns.filter fun d => d.state == TCP_LISTEN).map fun d => Nat.repr d.srcPort.toNat) :=
  rfl

theorem mem_listenerPorts {conns : List InetDiagMsg} {x : String} :
    x ∈ (conns.filter fun d => d.state == TCP_LISTEN).map (fun d => Nat.repr d.srcPort.toNat) ↔
      ∃ c ∈ conns, c.state = TCP_LISTEN ∧ Nat.repr c.srcPort.toNat = x := by
  simp only [List.mem_map, List.mem_filter, beq_iff_eq, and_assoc]

/-! ### The three lists -/

/-- `LocalListeningPorts` over a table the kernel writes returns the `P` of the same sockets,
    port for port. -/
theorem localListeningPorts_procNetTcp (header : List Char)
    (rows : List (TcpLineLayout × InetDiagMsg)) (finalNewline : Bool) (hheader : '\n' ∉ header)
    (hrows : ∀ r ∈ rows, r.1.Valid) :
    localListeningPorts (.ok (procNetTcp header rows finalNewline)) =
      .ok (listeningPorts (netlinkFilterByLocalListeningPorts (rows.map Prod.snd))) := by
  simp only [localListeningPorts, procfsConnections, Except.map,
    lines_procNetTcp header rows finalNewline hheader hrows, filterMap_parseTcpLine rows hrows]
  rw [← filterByLocalListeningPorts_map_toConnectionStat, List.map_map]
  rfl

/-- A listener bound to `10.0.0.1` on port 8080. -/
def boundListener : InetDiagMsg := ⟨TCP_LISTEN, 8080, 0, ⟨10, 0, 0, 1⟩, ⟨0, 0, 0, 0⟩, 0⟩

/-- Listeners on `0.0.0.0:22` and `10.0.0.1:8080` and an established connection, in the
    kernel's layout. -/
def listenerRows : List (TcpLineLayout × InetDiagMsg) :=
  [(kernelLayout, sampleListener), (kernelLayout, boundListener), (kernelLayout, establishedMsg)]

theorem localListeningPorts_procNetTcp_kernel :
    '\n' ∉ "  sl  local_address".data ∧ (∀ r ∈ listenerRows, r.1.Valid) ∧
      localListeningPorts (.ok (procNetTcp "  sl  local_address".data listenerRows true)) =
        .ok (listeningPorts (netlinkFilterByLocalListeningPorts (listenerRows.map Prod.snd))) ∧
      listeningPorts (netlinkFilterByLocalListeningPorts (listenerRows.map Prod.snd)) = ["22"] := by
  have hheader : '\n' ∉ "  sl  local_address".data := by decide
  have hrows : ∀ r ∈ listenerRows, r.1.Valid := by
    simpa [listenerRows] using kernelLayout_valid
  exact ⟨hheader, hrows, localListeningPorts_procNetTcp _ _ true hheader hrows, rfl⟩

/-- `NetlinkLocalListeningPorts` returns every port of `P`, and agrees with `P` as a set
    exactly when the port of each listener is also the port of a listener bound to
    `0.0.0.0`, `127.0.0.1` or `::`. -/
theorem netlinkLocalListeningPorts_sets (conns : List InetDiagMsg) :
    ∃ ports, netlinkLocalListeningPorts (.ok conns) = .ok ports ∧
      (∀ x ∈ listeningPorts (netlinkFilterByLocalListeningPorts conns), x ∈ ports) ∧
      ((∀ x, x ∈ ports ↔ x ∈ listeningPorts (netlinkFilterByLocalListeningPorts conns)) ↔
        ∀ c ∈ conns, c.state = TCP_LISTEN → ∃ c' ∈ conns, c'.state = TCP_LISTEN ∧
          isLocalListenAddr (ipString c'.srcIP) = true ∧ c'.srcPort = c.srcPort) := by
  have hsub : ∀ x ∈ listeningPorts (netlinkFilterByLocalListeningPorts conns),
      x ∈ (conns.filter fun d => d.state == TCP_LISTEN).map fun d => Nat.repr d.srcPort.toNat :=
    fun x hx => by
      obtain ⟨c, hc, hs, -, rfl⟩ := mem_listeningPorts.mp hx
      exact mem_listenerPorts.mpr ⟨c, hc, hs, rfl⟩
  refine ⟨_, netlinkLocalListeningPorts_ok conns, hsub, ⟨fun h c hc hs => ?_, fun h x => ?_⟩⟩
  · obtain ⟨c', hc', hs', hl, hp⟩ :=
      mem_listeningPorts.mp ((h _).mp (mem_listenerPorts.mpr ⟨c, hc, hs, rfl⟩))
    exact ⟨c', hc', hs', hl, repr_toNat_inj.mp hp⟩
  · refine ⟨fun hx => ?_, hsub x⟩
    obtain ⟨c, hc, hs, rfl⟩ := mem_listenerPorts.mp hx
    obtain ⟨c', hc', hs', hl, hp⟩ := h c hc hs
    exact mem_listeningPorts.mpr ⟨c', hc', hs', hl, by rw [hp]⟩

/-- The table with the one listener on `10.0.0.1:8080`: `NetlinkLocalListeningPorts` returns
    its port, while `LocalListeningPorts` over the kernel's `/proc/net/tcp` of the same table
    and `P` are empty. -/
theorem listeningPorts_bound_listener :
    netlinkLocalListeningPorts (.ok [boundListener]) = .ok ["8080"] ∧
      localListeningPorts (.ok (procNetTcp "  sl  local_address".data
        [(kernelLayout, boundListener)] true)) = .ok [] ∧
      listeningPorts (netlinkFilterByLocalListeningPorts [boundListener]) = [] :=
  ⟨rfl, rfl, rfl⟩

end Shawk.Netlink
