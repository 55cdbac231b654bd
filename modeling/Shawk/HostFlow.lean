import Mathlib.Data.List.Basic

/-!
# Host flows (`probe`)

A host flow is one directional edge of the dependency graph seen on one host: the local and
the peer end, the process that owns the local end, and the number of kernel connections
collapsed into it.  `HostFlows` is the set the flow builder fills, keyed by direction and
ends; `Insert` counts a duplicate instead of adding it.

The `probe` package is not in the source.  Its types and `Insert` are modelled from the
spec (§3, §4.3).
-/

namespace Shawk.Probe

/-- Modelled from the spec: `probe.FlowActive`/`probe.FlowPassive`, the direction of a flow
    ("Direction. `{active, passive}`"). -/
inductive FlowDirection
  | active
  | passive
deriving DecidableEq, Repr

/-- Modelled from the spec: `probe.AddrPort`, "`(addr: IPv4 string, port: uint16 | "many")`",
    the port kept as the text the flow builder writes. -/
structure AddrPort where
  addr : String
  port : String
deriving DecidableEq, Repr

/-- Modelled from the spec: `probe.Process`, "`(pgid: int, name: string)`". -/
structure Process where
  name : String
  pgid : Int
deriving DecidableEq, Repr

/-- Modelled from the spec: `probe.HostFlow`, "`(direction, local: AddrPort, peer: AddrPort,
    process: Process?, connections: int)`". -/
structure HostFlow where
  direction : FlowDirection
  «local» : AddrPort
  peer : AddrPort
  process : Option Process
  connections : Nat
deriving DecidableEq, Repr

/-- The key a flow is stored under: "Unique per `(direction, local.addr, local.port,
    peer.addr, peer.port)` within one snapshot". -/
structure FlowKey where
  direction : FlowDirection
  «local» : AddrPort
  peer : AddrPort
deriving DecidableEq, Repr

/-- The key of a flow. -/
def HostFlow.key (f : HostFlow) : FlowKey := ⟨f.direction, f.local, f.peer⟩

/-- Modelled from the spec: `probe.HostFlows`, the flows of one snapshot by key. -/
abbrev HostFlows := FlowKey → Option HostFlow

/-- `probe.HostFlows{}`. -/
def HostFlows.empty : HostFlows := fun _ => none

/-- Modelled from the spec: `HostFlows.Insert` — "Insert into a set keyed by `(direction,
    local, peer)`. On duplicate, increment `connections`."  A flow not yet in the set is
    stored and counted once; a duplicate only increments the stored flow's count. -/
def HostFlows.insert (flows : HostFlows) (hf : HostFlow) : HostFlows := fun k =>
  if k = hf.key then
    let stored := (flows k).getD hf
    some { stored with connections := stored.connections + 1 }
  else flows k

/-- Modelled from the spec: `AddrPort.SetLookupedName` — "reverse-resolve ... addresses into
    hostnames ... failures leave the address as-is". -/
def AddrPort.setLookupedName (resolve : String → Option String) (a : AddrPort) : AddrPort :=
  { a with addr := (resolve a.addr).getD a.addr }

/-- Modelled from the spec: `HostFlow.SetLookupedName`, on both ends of the flow. -/
def HostFlow.setLookupedName (resolve : String → Option String) (f : HostFlow) : HostFlow :=
  { f with «local» := f.local.setLookupedName resolve, peer := f.peer.setLookupedName resolve }

/-- `for _, flow := range flows { flow.SetLookupedName() }`. -/
def HostFlows.setLookupedName (resolve : String → Option String) (flows : HostFlows) :
    HostFlows :=
  fun k => (flows k).map (HostFlow.setLookupedName resolve)

@[simp] theorem HostFlows.empty_apply (k : FlowKey) : HostFlows.empty k = none := rfl

@[simp] theorem HostFlows.insert_apply_key (flows : HostFlows) (hf : HostFlow) :
    flows.insert hf hf.key =
      some { (flows hf.key).getD hf with connections := ((flows hf.key).getD hf).connections + 1 } :=
  if_pos rfl

theorem HostFlows.insert_apply_of_ne (flows : HostFlows) (hf : HostFlow) {k : FlowKey}
    (h : k ≠ hf.key) : flows.insert hf k = flows k :=
  if_neg h

end Shawk.Probe

namespace Shawk.Probe

/-! ### Aggregation

A loop that inserts the flow of each element it keeps stores, under every key, the flow of
the first kept element with that key, counted once for every kept element with that key.
-/

section Aggregation

variable {α : Type} (keep : α → Bool) (flowOf : α → HostFlow)

/-- The loop body: insert the flow of a kept element. -/
def insertKept (flows : HostFlows) (c : α) : HostFlows :=
  if keep c then flows.insert (flowOf c) else flows

/-- Whether a kept element's flow has key `k`. -/
def keptWithKey (k : FlowKey) (c : α) : Bool := keep c && (flowOf c).key == k

theorem foldl_insertKept_apply (cs : List α) (init : HostFlows) (k : FlowKey) :
    cs.foldl (insertKept keep flowOf) init k =
      ((init k).orElse fun _ => (cs.find? (keptWithKey keep flowOf k)).map flowOf).map
        fun f => { f with connections := f.connections + cs.countP (keptWithKey keep flowOf k) } := by
  induction cs generalizing init with
  | nil => cases h : init k <;> simp [h]
  | cons c cs ih =>
    rw [List.foldl_cons, ih, List.find?_cons, List.countP_cons]
    by_cases hc : keptWithKey keep flowOf k c = true
    · obtain ⟨hkeep, hkey⟩ : keep c = true ∧ (flowOf c).key = k := by
        simpa [keptWithKey] using hc
      subst hkey
      cases h : init (flowOf c).key <;>
        simp [insertKept, hkeep, hc, h, HostFlows.insert, Nat.add_assoc, Nat.add_comm 1]
    · have hstep : insertKept keep flowOf init c k = init k := by
        by_cases hkeep : keep c = true
        · have hne : k ≠ (flowOf c).key := fun h => hc (by simp [keptWithKey, hkeep, h])
          simp only [insertKept, hkeep, if_true, HostFlows.insert_apply_of_ne _ _ hne]
        · simp only [insertKept, hkeep, Bool.false_eq_true, if_false]
      have hc' : keptWithKey keep flowOf k c = false := by simpa using hc
      simp [hstep, hc']

/-- From the empty set: the flow under `k` is the first kept element's with key `k`, counted
    for every kept element with key `k`. -/
theorem foldl_insertKept_empty (cs : List α) (k : FlowKey) :
    cs.foldl (insertKept keep flowOf) HostFlows.empty k =
      (cs.find? (keptWithKey keep flowOf k)).map fun c =>
        { flowOf c with connections :=
            (flowOf c).connections + cs.countP (keptWithKey keep flowOf k) } := by
  rw [foldl_insertKept_apply]
  simp [Option.map_map, Function.comp_def]

end Aggregation

end Shawk.Probe
