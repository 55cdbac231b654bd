import Shawk.Aggregation

/-!
# Process attribution of the netlink flows

A connection is attributed to the inode map's entry for its own inode, when that inode is
not 0 and is in the map.  A connection on a listening port that is not attributed so falls
back on `lportEnt`, which holds, for every listening port, the entry of the *last* listener
on it in kernel order, unattributed listeners included.  A flow keeps the process of the
first connection inserted under its key.  This module proves that every flow's process is
exactly that, and so always comes from an aggregated connection or a listener on its port.
-/

namespace Shawk.Netlink

open Shawk.Go Shawk.Netutil Shawk.Probe

/-- The map's entry for a connection's own inode, when that inode is not 0. -/
def ownEnt (ue : UserEnts) (c : InetDiagMsg) : Option UserEnt :=
  if c.inode ≠ 0 then ue c.inode else none

/-- The entry a connection is attributed to: the map's entry for its own nonzero inode, and
    otherwise, when its local port is a listening port, the entry of the last listener (in
    kernel order) on that port. -/
def attributedEnt (ue : UserEnts) (conns : List InetDiagMsg) (c : InetDiagMsg) :
    Option UserEnt :=
  match ownEnt ue c with
  | some e => some e
  | none =>
    if c.srcPort ∈ listenPorts conns then
      ((conns.filter isLocalListener).filter (·.srcPort == c.srcPort)).getLast?.bind
        fun l => ue l.inode
    else none

/-- `lportEnt` holds, for a port, the entry of the last listener on it. -/
theorem lportEntOf_apply (ue : UserEnts) (lconns : List InetDiagMsg) (p : String) :
    lportEntOf (some ue) lconns p =
      ((lconns.filter fun l => Nat.repr l.srcPort.toNat == p).getLast?).bind fun l => ue l.inode := by
  suffices h : ∀ m : UserEntByLport, lconns.foldl (fun m lconn =>
      fun q => if q = Nat.repr lconn.srcPort.toNat then ue lconn.inode else m q) m p =
      ((lconns.filter fun l => Nat.repr l.srcPort.toNat == p).getLast?).elim (m p)
        fun l => ue l.inode by
    rw [lportEntOf, h]
    cases (lconns.filter fun l => Nat.repr l.srcPort.toNat == p).getLast? <;> rfl
  induction lconns with
  | nil => intro m; rfl
  | cons l ls ih =>
    intro m
    rw [List.foldl_cons, ih, List.filter_cons]
    by_cases hl : Nat.repr l.srcPort.toNat = p
    · cases hlast : (ls.filter fun l => Nat.repr l.srcPort.toNat == p).getLast? <;>
        simp [hl, hlast, List.getLast?_cons]
    · have hne : p ≠ Nat.repr l.srcPort.toNat := Ne.symm hl
      simp [hl, hne]

theorem connEnt_some (ue : UserEnts) (c : InetDiagMsg) : connEnt (some ue) c = ownEnt ue c :=
  rfl

/-- The process of a connection's flow is its attribution. -/
theorem netlinkHostFlow_process (ue : UserEnts) (conns : List InetDiagMsg) (c : InetDiagMsg) :
    (netlinkHostFlow (some ue) (listeningPorts (netlinkFilterByLocalListeningPorts conns))
      (lportEntOf (some ue) (netlinkFilterByLocalListeningPorts conns)) c).process =
      (attributedEnt ue conns c).map UserEnt.toProcess := by
  have hport : (fun l : InetDiagMsg => Nat.repr l.srcPort.toNat == Nat.repr c.srcPort.toNat) =
      (·.srcPort == c.srcPort) := by
    funext l; rw [Bool.eq_iff_iff, beq_iff_eq, beq_iff_eq, repr_toNat_inj]
  have hlast : lportEntOf (some ue) (netlinkFilterByLocalListeningPorts conns)
      (Nat.repr c.srcPort.toNat) = ((conns.filter isLocalListener).filter
        (·.srcPort == c.srcPort)).getLast?.bind fun l => ue l.inode := by
    rw [lportEntOf_apply, netlinkFilterByLocalListeningPorts_eq, hport]
  simp only [netlinkHostFlow, attributedEnt, contains_listeningPorts, connEnt_some]
  by_cases hP : c.srcPort ∈ listenPorts conns
  · rw [if_pos (decide_eq_true hP), if_pos hP, hlast]
    cases ownEnt ue c <;> rfl
  · rw [if_neg (by simpa using hP), if_neg hP]
    cases ownEnt ue c <;> rfl

/-- An attribution is the entry of the connection's own inode or of a listener on its
    port. -/
theorem attributedEnt_some {ue : UserEnts} {conns : List InetDiagMsg} {c : InetDiagMsg}
    {e : UserEnt} (h : attributedEnt ue conns c = some e) :
    (c.inode ≠ 0 ∧ ue c.inode = some e) ∨
      (c.srcPort ∈ listenPorts conns ∧
        ∃ l ∈ conns, isLocalListener l ∧ l.srcPort = c.srcPort ∧ ue l.inode = some e) := by
  unfold attributedEnt at h
  split at h
  · rename_i e' he'
    obtain rfl := Option.some.inj h
    by_cases hi : c.inode ≠ 0
    · exact .inl ⟨hi, by simpa [ownEnt, hi] using he'⟩
    · simp [ownEnt, hi] at he'
  · split at h
    · obtain ⟨l, hl, hue⟩ := Option.bind_eq_some.mp h
      have hmem := List.mem_of_getLast?_eq_some hl
      simp only [List.mem_filter, beq_iff_eq] at hmem
      exact .inr ⟨‹_›, l, hmem.1.1, hmem.1.2, hmem.2, hue⟩
    · cases h

/-- Every flow carries the attribution of the first connection (in kernel order) of `R`
    with its key; so every process on a flow is `(Pgrp, Pname)` of the entry of a connection
    aggregated into it or, for a passive flow, of a listener on its local port. -/
theorem netlinkHostFlows_attribution (opt : GetHostFlowsOption) (ue : UserEnts)
    (conns : List InetDiagMsg) {k : FlowKey} {f : HostFlow}
    (h : netlinkHostFlows opt (some ue) conns k = some f) :
    ∃ c, conns.find? (aggregatedInto opt.filter conns k) = some c ∧
      f.process = (attributedEnt ue conns c).map UserEnt.toProcess ∧
      ∀ p, f.process = some p → ∃ e : UserEnt, p = UserEnt.toProcess e ∧
        ((∃ c ∈ conns, aggregatedInto opt.filter conns k c ∧ c.inode ≠ 0 ∧ ue c.inode = some e) ∨
          (k.direction = .passive ∧ ∃ l ∈ conns, isLocalListener l ∧
            Nat.repr l.srcPort.toNat = k.local.port ∧ ue l.inode = some e)) := by
  rw [netlinkHostFlows_apply] at h
  obtain ⟨c, hfind, rfl⟩ := Option.map_eq_some'.mp h
  have hproc := netlinkHostFlow_process ue conns c
  refine ⟨c, hfind, hproc, fun p hp => ?_⟩
  rw [hproc] at hp
  obtain ⟨e, he, rfl⟩ := Option.map_eq_some'.mp hp
  have hagg := List.find?_some hfind
  have hkey : flowKey (listenPorts conns) c = k := by
    simpa [aggregatedInto] using ((Bool.and_eq_true _ _).mp hagg).2
  refine ⟨e, rfl, ?_⟩
  rcases attributedEnt_some he with ⟨hi, hue⟩ | ⟨hP, l, hl, hlis, hport, hue⟩
  · exact .inl ⟨c, List.mem_of_find?_eq_some hfind, hagg, hi, hue⟩
  · subst hkey
    refine .inr ⟨by simp [flowKey, hP], l, hl, hlis, ?_, hue⟩
    simp [flowKey, hP, hport]

end Shawk.Netlink

namespace Shawk.Netlink

open Shawk.Go Shawk.Netutil Shawk.Probe

theorem netlinkHostFlows_attribution_sample :
    netlinkHostFlows ⟨true, true, "all"⟩ (some sampleUserEnts) sampleDump sampleKey =
        some ⟨.active, ⟨"10.0.0.1", "many"⟩, ⟨"10.0.0.2", "80"⟩, some ⟨"curl", 100⟩, 2⟩ ∧
      netlinkHostFlows ⟨true, true, "all"⟩ (some sampleUserEnts) sampleDump passiveKey =
        some ⟨.passive, ⟨"10.0.0.1", "22"⟩, ⟨"10.0.0.3", "many"⟩, some ⟨"sshd", 300⟩, 1⟩ ∧
      (∃ c, sampleDump.find? (aggregatedInto "all" sampleDump sampleKey) = some c ∧
        some ⟨"curl", 100⟩ = (attributedEnt sampleUserEnts sampleDump c).map UserEnt.toProcess) ∧
      ∃ c, sampleDump.find? (aggregatedInto "all" sampleDump passiveKey) = some c ∧
        some ⟨"sshd", 300⟩ = (attributedEnt sampleUserEnts sampleDump c).map UserEnt.toProcess ∧
        ∃ e : UserEnt, (⟨"sshd", 300⟩ : Process) = UserEnt.toProcess e ∧
          ((∃ c ∈ sampleDump, aggregatedInto "all" sampleDump passiveKey c ∧ c.inode ≠ 0 ∧
              sampleUserEnts c.inode = some e) ∨
            (passiveKey.direction = .passive ∧ ∃ l ∈ sampleDump, isLocalListener l ∧
              Nat.repr l.srcPort.toNat = passiveKey.local.port ∧ sampleUserEnts l.inode = some e)) :=
  have h₁ : netlinkHostFlows ⟨true, true, "all"⟩ (some sampleUserEnts) sampleDump sampleKey =
      some ⟨.active, ⟨"10.0.0.1", "many"⟩, ⟨"10.0.0.2", "80"⟩, some ⟨"curl", 100⟩, 2⟩ := by
    decide
  have h₂ : netlinkHostFlows ⟨true, true, "all"⟩ (some sampleUserEnts) sampleDump passiveKey =
      some ⟨.passive, ⟨"10.0.0.1", "22"⟩, ⟨"10.0.0.3", "many"⟩, some ⟨"sshd", 300⟩, 1⟩ := by
    decide
  ⟨h₁, h₂, (netlinkHostFlows_attribution _ _ _ h₁).imp fun _ hc => ⟨hc.1, hc.2.1⟩,
    (netlinkHostFlows_attribution _ _ _ h₂).imp fun _ hc => ⟨hc.1, hc.2.1, hc.2.2 _ rfl⟩⟩

/-- A first client with inode 0 and a second one owned by `wget`: the flow of both has no
    process. -/
theorem netlinkHostFlows_unattributed_first :
    netlinkHostFlows ⟨true, true, "all"⟩ (some sampleUserEnts)
        [sampleClient 40000 0, sampleClient 40001 2] sampleKey =
      some ⟨.active, ⟨"10.0.0.1", "many"⟩, ⟨"10.0.0.2", "80"⟩, none, 2⟩ ∧
    (sampleClient 40001 2).inode ≠ 0 ∧ sampleUserEnts (sampleClient 40001 2).inode ≠ none := by
  decide

end Shawk.Netlink
