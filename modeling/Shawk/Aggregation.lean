import Shawk.Connections
import Mathlib.Algebra.BigOperators.Group.List

/-!
# What the netlink flow builder aggregates

The flow builder speaks in text: it compares `SrcIP().String()` with `"0.0.0.0"`, prints
ports with `%d` and looks them up with `contains`.  This module states what it computes in
terms of the messages themselves, following the spec (§4.1, §4.3): the listening ports `P`
are the ports of `LISTEN` sockets bound to `0.0.0.0` or `127.0.0.1`; the retained
connections `R` are those past the state and address filters; a connection's key is
passive or active by whether its local port is in `P`.  The flows built are exactly one per
key of `R`, each counting the connections of `R` with that key, and each carrying the
process of the first of them.  Since a key names its peer, the filters `public` and
`private` split the flows of `all` between them.
-/

namespace Shawk.Netlink

open Shawk.Go Shawk.Netutil Shawk.Probe

/-! ### The reference aggregation -/

/-- `0.0.0.0`. -/
def anyAddr : IPv4 := ⟨0, 0, 0, 0⟩

/-- `127.0.0.1`. -/
def loopbackAddr : IPv4 := ⟨127, 0, 0, 1⟩

/-- A listener whose port goes into `P`: `LISTEN`, bound to `0.0.0.0` or `127.0.0.1` (an
    IPv4 dump holds no `::`). -/
def isLocalListener (c : InetDiagMsg) : Bool :=
  c.state == TCP_LISTEN && (c.src == anyAddr || c.src == loopbackAddr)

/-- `P`, the listening ports. -/
def listenPorts (conns : List InetDiagMsg) : List UInt16 :=
  (conns.filter isLocalListener).map (·.srcPort)

/-- The address filter on the peer: `public` drops private peers, `private` drops the
    others, any other value keeps all. -/
def keepsPeer (filter : String) (dst : IPv4) : Bool :=
  if filter = "public" then !isPrivateIP dst.toIP
  else if filter = "private" then isPrivateIP dst.toIP
  else true

/-- Membership in `R`: not `LISTEN`, `SYN_SENT` or `SYN_RECV`, and kept by the filter. -/
def retained (filter : String) (c : InetDiagMsg) : Bool :=
  !(c.state == TCP_LISTEN || c.state == TCP_SYN_SENT || c.state == TCP_SYN_RECV) &&
    keepsPeer filter c.dst

/-- `key(c)`: passive with the local port and a `many` peer port when the local port is in
    `P`, active with a `many` local port and the peer port otherwise. -/
def flowKey (P : List UInt16) (c : InetDiagMsg) : FlowKey :=
  if c.srcPort ∈ P then
    ⟨.passive, ⟨c.src.toString, Nat.repr c.srcPort.toNat⟩, ⟨c.dst.toString, "many"⟩⟩
  else
    ⟨.active, ⟨c.src.toString, "many"⟩, ⟨c.dst.toString, Nat.repr c.dstPort.toNat⟩⟩

/-- Whether a connection is in `R` with key `k`. -/
def aggregatedInto (filter : String) (conns : List InetDiagMsg) (k : FlowKey)
    (c : InetDiagMsg) : Bool :=
  retained filter c && flowKey (listenPorts conns) c == k

/-- The reference aggregation: every key of `R`, with the number of connections of `R` that
    have it. -/
def referenceFlows (filter : String) (conns : List InetDiagMsg) :
    FlowKey → Option (FlowKey × Nat) := fun k =>
  let n := conns.countP (aggregatedInto filter conns k)
  if n = 0 then none else some (k, n)

/-- The keys and counts of a flow set. -/
def flowCounts (flows : HostFlows) : FlowKey → Option (FlowKey × Nat) :=
  fun k => (flows k).map fun f => (f.key, f.connections)

/-! ### From text back to addresses and ports -/

theorem toString_ne_colons (a : IPv4) : a.toString ≠ "::" := fun h => by
  have hdot : '.' ∈ a.toString.data := by simp [toString_data]
  rw [h] at hdot
  exact absurd hdot (by decide)

@[simp] theorem isLocalListenAddr_toString (a : IPv4) :
    isLocalListenAddr a.toString = (a == anyAddr || a == loopbackAddr) := by
  have hinj : ∀ b : IPv4, (a.toString == b.toString) = (a == b) := fun b => by
    rw [Bool.eq_iff_iff, beq_iff_eq, beq_iff_eq, IPv4.toString_inj]
  have hcolons : (a.toString == "::") = false := by simpa using toString_ne_colons a
  rw [isLocalListenAddr, show ("0.0.0.0" : String) = anyAddr.toString from rfl,
    show ("127.0.0.1" : String) = loopbackAddr.toString from rfl, hinj, hinj, hcolons,
    Bool.or_false]

theorem netlinkFilterByLocalListeningPorts_eq (conns : List InetDiagMsg) :
    netlinkFilterByLocalListeningPorts conns = conns.filter isLocalListener := by
  simp only [netlinkFilterByLocalListeningPorts, ipString_srcIP, isLocalListenAddr_toString]
  rfl

theorem repr_toNat_inj {p q : UInt16} : Nat.repr p.toNat = Nat.repr q.toNat ↔ p = q :=
  ⟨fun h => UInt16.toNat.inj (repr_injective h), fun h => h ▸ rfl⟩

/-- A local port is among the printed listening ports exactly when it is in `P`. -/
theorem contains_listeningPorts (conns : List InetDiagMsg) (p : UInt16) :
    contains (listeningPorts (netlinkFilterByLocalListeningPorts conns)) (Nat.repr p.toNat) =
      decide (p ∈ listenPorts conns) := by
  rw [Bool.eq_iff_iff]
  simp only [contains, listeningPorts, listenPorts, netlinkFilterByLocalListeningPorts_eq,
    List.any_eq_true, List.mem_map, beq_iff_eq, decide_eq_true_eq, exists_eq_right,
    repr_toNat_inj]

theorem isPrivateIP_netIPv4 (a : IPv4) : isPrivateIP (netIPv4 a) = isPrivateIP a.toIP := rfl

theorem passesFilter_dstIP (filter : String) (c : InetDiagMsg) :
    passesFilter filter c.dstIP = keepsPeer filter c.dst := by
  have hap : FilterAll ≠ "public" := by decide
  have har : FilterAll ≠ "private" := by decide
  simp only [passesFilter, keepsPeer, InetDiagMsg.dstIP, isPrivateIP_netIPv4, FilterPublic,
    FilterPrivate]
  by_cases ha : filter = FilterAll
  · subst ha; simp [hap, har]
  · simp only [ha, if_false]

/-! ### The loop of `GetHostFlowsByNetlink` -/

theorem netlinkFlowStep_eq (opt : GetHostFlowsOption) (userEnts : Option UserEnts)
    (ports : List String) (lportEnt : UserEntByLport) :
    netlinkFlowStep opt userEnts ports lportEnt =
      insertKept (retained opt.filter) (netlinkHostFlow userEnts ports lportEnt) := by
  funext flows c
  simp only [netlinkFlowStep, insertKept, retained, skipsState, passesFilter_dstIP]
  by_cases hs : (c.state == TCP_LISTEN || c.state == TCP_SYN_SENT || c.state == TCP_SYN_RECV)
  · simp [hs]
  · by_cases hf : keepsPeer opt.filter c.dst <;> simp [hs, hf]

theorem netlinkHostFlow_key (userEnts : Option UserEnts) (lportEnt : UserEntByLport)
    (conns : List InetDiagMsg) (c : InetDiagMsg) :
    (netlinkHostFlow userEnts (listeningPorts (netlinkFilterByLocalListeningPorts conns))
      lportEnt c).key = flowKey (listenPorts conns) c := by
  simp only [netlinkHostFlow, flowKey, contains_listeningPorts, ipString_srcIP, ipString_dstIP]
  split <;> simp_all [HostFlow.key]

theorem netlinkHostFlow_connections (userEnts : Option UserEnts) (ports : List String)
    (lportEnt : UserEntByLport) (c : InetDiagMsg) :
    (netlinkHostFlow userEnts ports lportEnt c).connections = 0 := by
  simp only [netlinkHostFlow]; split <;> rfl

/-- The flows built from a dump: under `k`, the flow of the first connection of `R` with key
    `k`, counting every connection of `R` with key `k`. -/
theorem netlinkHostFlows_apply (opt : GetHostFlowsOption) (userEnts : Option UserEnts)
    (conns : List InetDiagMsg) (k : FlowKey) :
    netlinkHostFlows opt userEnts conns k =
      (conns.find? (aggregatedInto opt.filter conns k)).map fun c =>
        { netlinkHostFlow userEnts (listeningPorts (netlinkFilterByLocalListeningPorts conns))
            (lportEntOf userEnts (netlinkFilterByLocalListeningPorts conns)) c with
          connections := conns.countP (aggregatedInto opt.filter conns k) } := by
  have hkept : keptWithKey (retained opt.filter) (netlinkHostFlow userEnts
      (listeningPorts (netlinkFilterByLocalListeningPorts conns))
      (lportEntOf userEnts (netlinkFilterByLocalListeningPorts conns))) k =
      aggregatedInto opt.filter conns k := by
    funext c
    simp only [keptWithKey, aggregatedInto, netlinkHostFlow_key]
  rw [netlinkHostFlows, netlinkFlowStep_eq, foldl_insertKept_empty, hkept]
  simp only [netlinkHostFlow_connections, Nat.zero_add]

/-- Keys and counts of the built flows are the reference aggregation, whatever the inode
    map. -/
theorem netlinkHostFlows_counts (opt : GetHostFlowsOption) (userEnts : Option UserEnts)
    (conns : List InetDiagMsg) :
    flowCounts (netlinkHostFlows opt userEnts conns) = referenceFlows opt.filter conns := by
  funext k
  simp only [flowCounts, referenceFlows, netlinkHostFlows_apply, Option.map_map]
  cases h : conns.find? (aggregatedInto opt.filter conns k) with
  | none =>
    have h0 : conns.countP (aggregatedInto opt.filter conns k) = 0 :=
      List.countP_eq_zero.mpr fun c hc => by simpa using List.find?_eq_none.mp h c hc
    simp [h0]
  | some c =>
    have hc := List.find?_some h
    have hpos : conns.countP (aggregatedInto opt.filter conns k) ≠ 0 :=
      (List.countP_pos_iff.mpr ⟨c, List.mem_of_find?_eq_some h, hc⟩).ne'
    have hkey : flowKey (listenPorts conns) c = k := by
      simpa [aggregatedInto] using (Bool.and_eq_true _ _).mp hc |>.2
    simp only [Option.map_some', Function.comp_apply, hpos, if_false, HostFlow.key] at hkey ⊢
    rw [← hkey, ← netlinkHostFlow_key userEnts
      (lportEntOf userEnts (netlinkFilterByLocalListeningPorts conns)) conns c]
    rfl

/-! ### The address filters split the flows -/

theorem flowKey_peer_addr (P : List UInt16) (c : InetDiagMsg) :
    (flowKey P c).peer.addr = c.dst.toString := by
  unfold flowKey; split <;> rfl

/-- A connection is retained under a filter when it is retained under `all` and the filter
    keeps its peer. -/
theorem retained_eq (filter : String) (c : InetDiagMsg) :
    retained filter c = (retained FilterAll c && keepsPeer filter c.dst) := by
  have hall : keepsPeer FilterAll c.dst = true := rfl
  simp only [retained, hall, Bool.and_true, Bool.and_assoc]

/-- All connections aggregated into one key have the peer that key names, so a filter keeps
    all of them or none. -/
theorem aggregatedInto_filter (filter : String) (conns : List InetDiagMsg) {k : FlowKey}
    {a : IPv4} (ha : k.peer.addr = a.toString) :
    aggregatedInto filter conns k =
      fun c => aggregatedInto FilterAll conns k c && keepsPeer filter a := by
  funext c
  simp only [aggregatedInto, retained_eq filter c]
  by_cases hk : flowKey (listenPorts conns) c = k
  · have hdst : c.dst = a :=
      IPv4.toString_injective ((flowKey_peer_addr _ c).symm.trans (hk ▸ ha))
    simp only [hk, hdst, beq_self_eq_true, Bool.and_true]
  · simp only [beq_eq_false_iff_ne.mpr hk, Bool.and_false, Bool.false_and]

theorem netlinkHostFlows_filter_congr {opt : GetHostFlowsOption} {f g : String}
    {userEnts : Option UserEnts} {conns : List InetDiagMsg} {k : FlowKey}
    (h : aggregatedInto f conns k = aggregatedInto g conns k) :
    netlinkHostFlows { opt with filter := f } userEnts conns k =
      netlinkHostFlows { opt with filter := g } userEnts conns k := by
  simp only [netlinkHostFlows_apply, h]

theorem netlinkHostFlows_eq_none {opt : GetHostFlowsOption} {userEnts : Option UserEnts}
    {conns : List InetDiagMsg} {k : FlowKey}
    (h : ∀ c, aggregatedInto opt.filter conns k c = false) :
    netlinkHostFlows opt userEnts conns k = none := by
  rw [netlinkHostFlows_apply, List.find?_eq_none.mpr fun c _ => by simp [h c]]
  rfl

/-- The filters `public` and `private` split the flows of `all`: under every key, the flow
    of `all` (its count and its process alike) is the flow of exactly one of them, and the
    other has none. -/
theorem netlinkHostFlows_public_private (opt : GetHostFlowsOption) (userEnts : Option UserEnts)
    (conns : List InetDiagMsg) (k : FlowKey) :
    netlinkHostFlows { opt with filter := FilterAll } userEnts conns k =
        (netlinkHostFlows { opt with filter := FilterPublic } userEnts conns k).orElse
          (fun _ => netlinkHostFlows { opt with filter := FilterPrivate } userEnts conns k) ∧
      (netlinkHostFlows { opt with filter := FilterPublic } userEnts conns k = none ∨
        netlinkHostFlows { opt with filter := FilterPrivate } userEnts conns k = none) := by
  by_cases ha : ∃ a : IPv4, k.peer.addr = a.toString
  · obtain ⟨a, ha⟩ := ha
    have hoff : ∀ filter, keepsPeer filter a = false →
        netlinkHostFlows { opt with filter := filter } userEnts conns k = none :=
      fun filter hf => netlinkHostFlows_eq_none fun c => by
        simp only [aggregatedInto_filter filter conns ha, hf, Bool.and_false]
    have hon : ∀ filter, keepsPeer filter a = true →
        netlinkHostFlows { opt with filter := filter } userEnts conns k =
          netlinkHostFlows { opt with filter := FilterAll } userEnts conns k := fun filter hf =>
      netlinkHostFlows_filter_congr (by
        rw [aggregatedInto_filter filter conns ha, hf]
        funext c
        rw [Bool.and_true])
    cases hp : isPrivateIP a.toIP
    · rw [hon FilterPublic (by simp [keepsPeer, FilterPublic, hp]),
        hoff FilterPrivate (by simp [keepsPeer, FilterPrivate, hp]), Option.orElse_none']
      exact ⟨rfl, .inr rfl⟩
    · rw [hoff FilterPublic (by simp [keepsPeer, FilterPublic, hp]),
        hon FilterPrivate (by simp [keepsPeer, FilterPrivate, hp]), Option.none_orElse']
      exact ⟨rfl, .inl rfl⟩
  · have hnone : ∀ filter, netlinkHostFlows { opt with filter := filter } userEnts conns k = none :=
      fun filter => netlinkHostFlows_eq_none fun c => by
        simp only [aggregatedInto, Bool.and_eq_false_iff, beq_eq_false_iff_ne]
        exact .inr fun hk => ha ⟨c.dst, hk ▸ flowKey_peer_addr _ c⟩
    rw [hnone, hnone, hnone]
    exact ⟨rfl, .inl rfl⟩

end Shawk.Netlink

namespace Shawk.Netlink

open Shawk.Go Shawk.Netutil Shawk.Probe

/-! ### Every flow is a key of `R` with its count -/

theorem repr_ne_many (n : Nat) : Nat.repr n ≠ "many" := fun h => by
  have hm : 'm' ∈ (Nat.repr n).data := by rw [h]; decide
  exact absurd (toDigits_ten_digits n 'm' hm).2 (by decide)

/-- A key has exactly one `many` side. -/
theorem flowKey_many (P : List UInt16) (c : InetDiagMsg) :
    (flowKey P c).local.port = "many" ↔ (flowKey P c).peer.port ≠ "many" := by
  unfold flowKey; split <;> simp [repr_ne_many]

theorem referenceFlows_eq_some {filter : String} {conns : List InetDiagMsg} {k k' : FlowKey}
    {n : Nat} (h : referenceFlows filter conns k = some (k', n)) :
    k' = k ∧ 1 ≤ n ∧ ∃ c ∈ conns, retained filter c ∧ flowKey (listenPorts conns) c = k := by
  simp only [referenceFlows] at h
  split at h
  · cases h
  · obtain ⟨rfl, rfl⟩ := Prod.mk.inj (Option.some.inj h)
    obtain ⟨c, hc, hagg⟩ := List.countP_pos_iff.mp (Nat.pos_of_ne_zero ‹_›)
    simp only [aggregatedInto, Bool.and_eq_true, beq_iff_eq] at hagg
    exact ⟨rfl, Nat.pos_of_ne_zero ‹_›, c, hc, hagg⟩

/-- Every built flow counts at least one connection and has exactly one `many` side. -/
theorem netlinkHostFlows_flow (opt : GetHostFlowsOption) (userEnts : Option UserEnts)
    (conns : List InetDiagMsg) {k : FlowKey} {f : HostFlow}
    (h : netlinkHostFlows opt userEnts conns k = some f) :
    1 ≤ f.connections ∧ (f.local.port = "many" ↔ f.peer.port ≠ "many") := by
  have hk : referenceFlows opt.filter conns k = some (f.key, f.connections) := by
    rw [← netlinkHostFlows_counts opt userEnts conns, flowCounts, h]; rfl
  obtain ⟨hkey, hpos, c, -, -, rfl⟩ := referenceFlows_eq_some hk
  refine ⟨hpos, ?_⟩
  have := flowKey_many (listenPorts conns) c
  rwa [← hkey] at this

/-- The counts of the built flows over the keys of `R` add up to the size of `R`. -/
theorem netlinkHostFlows_sum (opt : GetHostFlowsOption) (userEnts : Option UserEnts)
    (conns : List InetDiagMsg) :
    (((conns.filter (retained opt.filter)).map (flowKey (listenPorts conns))).dedup.map
        fun k => ((netlinkHostFlows opt userEnts conns k).map (·.connections)).getD 0).sum =
      (conns.filter (retained opt.filter)).length := by
  have hcount : ∀ k, ((netlinkHostFlows opt userEnts conns k).map (·.connections)).getD 0 =
      ((conns.filter (retained opt.filter)).map (flowKey (listenPorts conns))).count k := by
    intro k
    have hcnt : ((conns.filter (retained opt.filter)).map (flowKey (listenPorts conns))).count k =
        conns.countP (aggregatedInto opt.filter conns k) := by
      rw [List.count_eq_countP, List.countP_map, List.countP_filter]
      congr 1; funext c; simp [aggregatedInto, Bool.and_comm]
    have hk := congrFun (netlinkHostFlows_counts opt userEnts conns) k
    simp only [flowCounts, referenceFlows] at hk
    rw [hcnt]
    split at hk <;> rename_i hn <;> cases h : netlinkHostFlows opt userEnts conns k <;>
      rw [h] at hk
    · exact hn.symm
    · cases hk
    · cases hk
    · exact (Prod.mk.inj (Option.some.inj hk)).2
  simp only [hcount]
  rw [List.sum_map_count_dedup_eq_length, List.length_map]

/-- `GetHostFlowsByNetlink` in numeric mode returns the flows of the dump and the inode map. -/
theorem getHostFlowsByNetlink_numeric {opt : GetHostFlowsOption} {host : Host}
    {conns : List InetDiagMsg} (hnum : opt.numeric = true) (hconns : host.netlink = .ok conns) :
    getHostFlowsByNetlink opt host = (userEntsOf opt host).map fun ue => netlinkHostFlows opt ue conns := by
  simp only [getHostFlowsByNetlink, hconns, hnum, if_true]
  cases userEntsOf opt host <;> rfl

/-- In numeric mode, for every dump and every filter, `GetHostFlowsByNetlink` returns (unless
    building the inode map fails) exactly one flow per key of `R`, counting the connections
    of `R` with that key; so every flow has one `many` side and at least one connection, and
    the counts add up to the size of `R`. -/
theorem getHostFlowsByNetlink_aggregates (opt : GetHostFlowsOption) (host : Host)
    (conns : List InetDiagMsg) (hnum : opt.numeric = true) (hconns : host.netlink = .ok conns) :
    (getHostFlowsByNetlink opt host).map flowCounts =
        (userEntsOf opt host).map (fun _ => referenceFlows opt.filter conns) ∧
      ∀ flows, getHostFlowsByNetlink opt host = .ok flows →
        (∀ k f, flows k = some f →
          1 ≤ f.connections ∧ (f.local.port = "many" ↔ f.peer.port ≠ "many")) ∧
        (((conns.filter (retained opt.filter)).map (flowKey (listenPorts conns))).dedup.map
            fun k => ((flows k).map (·.connections)).getD 0).sum =
          (conns.filter (retained opt.filter)).length := by
  rw [getHostFlowsByNetlink_numeric hnum hconns]
  refine ⟨?_, fun flows hflows => ?_⟩
  · cases userEntsOf opt host <;> simp [Except.map, netlinkHostFlows_counts]
  · cases hue : userEntsOf opt host <;> rw [hue] at hflows <;> cases hflows
    exact ⟨fun k f h => netlinkHostFlows_flow opt _ conns h, netlinkHostFlows_sum opt _ conns⟩

end Shawk.Netlink

namespace Shawk.Netlink

open Shawk.Go Shawk.Netutil Shawk.Probe

/-! ### Sample dumps -/

/-- A client socket `10.0.0.1:port → 10.0.0.2:80` on inode `ino`. -/
def sampleClient (port : UInt16) (ino : UInt32) : InetDiagMsg :=
  ⟨TCP_ESTABLISHED, port, 80, ⟨10, 0, 0, 1⟩, ⟨10, 0, 0, 2⟩, ino⟩

/-- The key of the clients above. -/
def sampleKey : FlowKey := ⟨.active, ⟨"10.0.0.1", "many"⟩, ⟨"10.0.0.2", "80"⟩⟩

/-- Three processes: `curl` owning inode 1, `wget` owning inode 2 and `sshd` owning
    inode 3. -/
def sampleUserEnts : UserEnts := fun i =>
  if i = 1 then some ⟨1, 3, 100, "curl", 1, 100⟩
  else if i = 2 then some ⟨2, 4, 200, "wget", 1, 200⟩
  else if i = 3 then some ⟨3, 3, 300, "sshd", 1, 300⟩
  else none

/-- A listener on `0.0.0.0:22` with inode 3. -/
def sampleListener : InetDiagMsg := ⟨TCP_LISTEN, 22, 0, ⟨0, 0, 0, 0⟩, ⟨0, 0, 0, 0⟩, 3⟩

/-- A connection the listener accepted from `10.0.0.3:51000`, whose own inode is not in the
    map. -/
def sampleAccepted : InetDiagMsg := ⟨TCP_ESTABLISHED, 22, 51000, ⟨10, 0, 0, 1⟩, ⟨10, 0, 0, 3⟩, 9⟩

/-- The key of the accepted connection. -/
def passiveKey : FlowKey := ⟨.passive, ⟨"10.0.0.1", "22"⟩, ⟨"10.0.0.3", "many"⟩⟩

/-- A dump with a listener, two clients of one key and a connection the listener accepted. -/
def sampleDump : List InetDiagMsg :=
  [sampleListener, sampleClient 40000 1, sampleClient 40001 2, sampleAccepted]

/-- A host with nothing under `/proc`, whose netlink dump is `conns`, and whose resolver
    names `10.0.0.2`. -/
def sampleHost (conns : List InetDiagMsg) : Host where
  netlink := .ok conns
  procNetTcp := .ok []
  proc := fun _ => ⟨.ok [], fun _ => .error ENOENT, fun _ => .error ENOENT,
    fun _ => ([], some ENOENT), fun _ _ => .error ENOENT, fun _ => .error ENOENT,
    fun _ => .error ENOENT⟩
  self := 1
  resolve := fun a => if a = "10.0.0.2" then some "web" else none

theorem getHostFlowsByNetlink_aggregates_sample :
    ((⟨true, false, "all"⟩ : GetHostFlowsOption).numeric = true ∧
      (sampleHost sampleDump).netlink = .ok sampleDump) ∧
    ((getHostFlowsByNetlink ⟨true, false, "all"⟩ (sampleHost sampleDump)).map flowCounts =
        (userEntsOf ⟨true, false, "all"⟩ (sampleHost sampleDump)).map
          (fun _ => referenceFlows "all" sampleDump) ∧
      ∀ flows, getHostFlowsByNetlink ⟨true, false, "all"⟩ (sampleHost sampleDump) = .ok flows →
        (∀ k f, flows k = some f →
          1 ≤ f.connections ∧ (f.local.port = "many" ↔ f.peer.port ≠ "many")) ∧
        (((sampleDump.filter (retained "all")).map (flowKey (listenPorts sampleDump))).dedup.map
            fun k => ((flows k).map (·.connections)).getD 0).sum =
          (sampleDump.filter (retained "all")).length) ∧
    referenceFlows "all" sampleDump sampleKey = some (sampleKey, 2) ∧
    referenceFlows "all" sampleDump passiveKey = some (passiveKey, 1) :=
  ⟨⟨rfl, rfl⟩, getHostFlowsByNetlink_aggregates _ _ _ rfl rfl, by decide, by decide⟩

/-! ### Kernel order: counts do not depend on it, processes do -/

theorem listenPorts_perm {conns conns' : List InetDiagMsg} (h : conns.Perm conns') (p : UInt16) :
    p ∈ listenPorts conns ↔ p ∈ listenPorts conns' :=
  ((h.filter isLocalListener).map (·.srcPort)).mem_iff

theorem referenceFlows_perm (filter : String) {conns conns' : List InetDiagMsg}
    (h : conns.Perm conns') : referenceFlows filter conns = referenceFlows filter conns' := by
  have hkey : flowKey (listenPorts conns) = flowKey (listenPorts conns') := by
    funext c; simp only [flowKey, listenPorts_perm h]
  have hagg : aggregatedInto filter conns = aggregatedInto filter conns' := by
    funext k c; simp only [aggregatedInto, hkey]
  funext k
  simp only [referenceFlows, hagg, h.countP_eq]

/-- Reordering the dump changes neither the keys nor the counts of the flows. -/
theorem netlinkHostFlows_perm (opt : GetHostFlowsOption) (userEnts : Option UserEnts)
    {conns conns' : List InetDiagMsg} (h : conns.Perm conns') :
    flowCounts (netlinkHostFlows opt userEnts conns) =
      flowCounts (netlinkHostFlows opt userEnts conns') := by
  rw [netlinkHostFlows_counts, netlinkHostFlows_counts, referenceFlows_perm _ h]

/-- Name lookups rewrite the ends of each flow, whatever its count. -/
theorem flowCounts_setLookupedName (resolve : String → Option String) (flows : HostFlows) :
    flowCounts (flows.setLookupedName resolve) = fun k => (flowCounts flows k).map fun p =>
      (⟨p.1.direction, p.1.local.setLookupedName resolve, p.1.peer.setLookupedName resolve⟩,
        p.2) := by
  funext k
  simp only [flowCounts, HostFlows.setLookupedName, Option.map_map]
  rfl

/-- Reordering the dump changes neither the keys nor the counts of the flows, for every inode
    map; so `GetHostFlowsByNetlink`, name lookups included, returns flows with the same keys
    and counts, or the same error, for every order of the dump. -/
theorem getHostFlowsByNetlink_perm (opt : GetHostFlowsOption) (host : Host)
    {conns conns' : List InetDiagMsg} (hconns : host.netlink = .ok conns) (h : conns.Perm conns') :
    (∀ ue, flowCounts (netlinkHostFlows opt ue conns) =
      flowCounts (netlinkHostFlows opt ue conns')) ∧
    (getHostFlowsByNetlink opt host).map flowCounts =
      (getHostFlowsByNetlink opt { host with netlink := .ok conns' }).map flowCounts := by
  refine ⟨fun ue => netlinkHostFlows_perm opt ue h, ?_⟩
  have hue : userEntsOf opt { host with netlink := .ok conns' } = userEntsOf opt host := rfl
  simp only [getHostFlowsByNetlink, hconns, hue]
  cases userEntsOf opt host with
  | error e => rfl
  | ok ue =>
    cases opt.numeric <;>
      simp only [Except.map, Except.mapError, bind, Except.bind, pure, Except.pure, if_true,
        Bool.false_eq_true, if_false, flowCounts_setLookupedName, netlinkHostFlows_perm opt ue h]

theorem getHostFlowsByNetlink_perm_sample :
    ((sampleHost sampleDump).netlink = .ok sampleDump ∧ sampleDump.Perm sampleDump.reverse) ∧
      (∀ ue, flowCounts (netlinkHostFlows ⟨false, false, "all"⟩ ue sampleDump) =
        flowCounts (netlinkHostFlows ⟨false, false, "all"⟩ ue sampleDump.reverse)) ∧
      (getHostFlowsByNetlink ⟨false, false, "all"⟩ (sampleHost sampleDump)).map flowCounts =
        (getHostFlowsByNetlink ⟨false, false, "all"⟩
          { sampleHost sampleDump with netlink := .ok sampleDump.reverse }).map flowCounts :=
  ⟨⟨rfl, (List.reverse_perm _).symm⟩,
    getHostFlowsByNetlink_perm _ _ rfl (List.reverse_perm _).symm⟩

/-- Two clients of one key owned by different processes: the flow takes the process of
    whichever the kernel lists first. -/
theorem netlinkHostFlows_process_order :
    (netlinkHostFlows ⟨true, true, "all"⟩ (some sampleUserEnts)
        [sampleClient 40000 1, sampleClient 40001 2] sampleKey).map (·.process) ≠
      (netlinkHostFlows ⟨true, true, "all"⟩ (some sampleUserEnts)
        [sampleClient 40001 2, sampleClient 40000 1] sampleKey).map (·.process) := by
  decide

end Shawk.Netlink
