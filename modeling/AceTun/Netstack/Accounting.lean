import AceTun.Netstack.Routines
import AceTun.Transition

/-!
# The accounting of flows

`run` accepts flows, counts each and spawns a task for it, and the tasks count too. The counters add up in every state of
every interleaving (`flow_accounting`): no more flows are dropped than were accepted, no flow is dropped twice, and once
no task is in progress every fallback is also counted as blocked. What a single flow may count is said once for each
handler (`tcpRoutine_accounts`, `udpRoutine_accounts`).
-/

namespace AceTun

open RustStd Tasks

variable {R : RegexCrate}

/-! ## What one flow may count -/

namespace SharedOp

/-- The flow is accepted. -/
def isFlow : SharedOp → Bool
  | .count .tcpFlows => true
  | .count .udpFlows => true
  | _ => false

/-- The flow is dropped. -/
def isDrop : SharedOp → Bool
  | .count .blocked => true
  | .count .quicDropped => true
  | .count .groupDropped => true
  | _ => false

/-- The counter moves. -/
def counts (c : Counter) (op : SharedOp) : Bool := op == .count c

end SharedOp

/-- A flow is accepted once, dropped once at most, and falls back only if it is a TCP flow. -/
def Accounted (ops : List SharedOp) : Prop :=
  ops.countP SharedOp.isFlow ≤ 1 ∧ ops.countP SharedOp.isDrop ≤ ops.countP SharedOp.isFlow ∧
    ops.countP (SharedOp.counts .proxyFallbacks) ≤ ops.countP (SharedOp.counts .tcpFlows)

/-- Its fallback was counted as blocked. -/
def Balanced (ops : List SharedOp) : Prop :=
  ops.countP (SharedOp.counts .proxyFallbacks) ≤ ops.countP (SharedOp.counts .blocked)

instance (ops : List SharedOp) : Decidable (Accounted ops) := inferInstanceAs (Decidable (_ ∧ _ ∧ _))

instance (ops : List SharedOp) : Decidable (Balanced ops) := inferInstanceAs (Decidable (_ ≤ _))

/-- What a task does after `ops` keeps the account. -/
abbrev Accounts (ops : List SharedOp) (t : FlowRoutine R) : Prop := t.Safe Accounted Balanced ops

section Accounts

variable (base64 : Bytes → Str) (env : FlowEnv) (shared : Shared R) (dest : SocketAddr)

theorem failClosed_accounts : Accounts [.count .tcpFlows] (failClosedRoutine : FlowRoutine R) :=
  ⟨by decide, by decide, by decide, by decide, by decide⟩

theorem carryOutTcp_accounts (facts : FlowFacts) (decision : Decision) :
    Accounts [.count .tcpFlows] (carryOutTcpRoutine base64 env shared facts decision) := by
  cases decision with
  | block => exact ⟨by decide, by decide, by decide⟩
  | direct => exact ⟨by decide, by decide, by decide⟩
  | proxy id =>
    rw [carryOutTcpRoutine]
    cases shared.findProxyConfig id with
    | none => exact failClosed_accounts
    | some cfg =>
      refine ⟨by decide, ?_⟩
      cases proxyOutcome base64 env cfg (targetFor cfg facts.domain facts.dest) with
      | ok stream => exact ⟨by decide, by decide, by decide⟩
      | err e => exact failClosed_accounts
      | pending => exact ⟨by decide, by decide⟩
      | panic => exact ⟨by decide, by decide⟩

/-- **A TCP flow keeps the account**, wherever its task is. -/
theorem tcpRoutine_accounts : Accounts [.count .tcpFlows] (tcpRoutine base64 env dest : FlowRoutine R) := by
  refine ⟨by decide, by decide, fun shared => ?_⟩
  beta_reduce
  cases decide shared (factsOf env shared dest false) with
  | error p => exact ⟨by decide, by decide⟩
  | ok decision => exact ⟨by decide, carryOutTcp_accounts ..⟩

/-- A failed send and a learned name are in no account. -/
theorem account_snoc {op : SharedOp} (hop : op = .count .udpSendErrors ∨ ∃ s, op = .store s)
    {ops : List SharedOp} (h : Accounted ops ∧ Balanced ops) : Accounted (ops ++ [op]) ∧ Balanced (ops ++ [op]) := by
  rcases hop with rfl | ⟨s, rfl⟩
  · simpa [Accounted, Balanced, List.countP_append, SharedOp.isFlow, SharedOp.isDrop, SharedOp.counts] using h
  · simpa [Accounted, Balanced, List.countP_append, SharedOp.isFlow, SharedOp.isDrop, SharedOp.counts] using h

theorem store_accounts (stores : List Stored) {rest : FlowRoutine R}
    (hrest : ∀ ops, Accounted ops ∧ Balanced ops → Accounts ops rest) {ops : List SharedOp}
    (h : Accounted ops ∧ Balanced ops) : Accounts ops (storeRoutine stores rest) := by
  induction stores generalizing ops with
  | nil => exact hrest ops h
  | cons s stores ih => exact ⟨h.1, ih (account_snoc (.inr ⟨s, rfl⟩) h)⟩

theorem relay_accounts (isDns : Bool) : ∀ (events : List UdpEvent) (ops : List SharedOp), Accounted ops ∧ Balanced ops →
    Accounts ops (relayRoutine isDns events : FlowRoutine R)
  | [], _, h => h
  | .idle :: _, _, h => ⟨h.2, h⟩
  | .clientClosed :: _, _, h => ⟨h.2, h⟩
  | .serverFailed :: _, _, h => ⟨h.2, h⟩
  | .client _ none :: events, ops, h => ⟨h.2, relay_accounts isDns events ops h⟩
  | .client _ (some _) :: events, ops, h =>
    ⟨h.2, h.1, relay_accounts isDns events _ (account_snoc (.inl rfl) h)⟩
  | .server datagram now delays failed :: events, ops, h => by
    refine ⟨h.2, ?_⟩
    -- the datagram is sent on or not, after it was snooped or not
    cases failed with
    | some e =>
      have hrest : ∀ ops, Accounted ops ∧ Balanced ops → Accounts ops (.yield .done : FlowRoutine R) :=
        fun ops h => ⟨h.2, h⟩
      cases isDns with
      | false => exact hrest ops h
      | true => exact store_accounts _ hrest h
    | none =>
      have hrest : ∀ ops, Accounted ops ∧ Balanced ops →
          Accounts ops (.yield (relayRoutine isDns events) : FlowRoutine R) :=
        fun ops h => ⟨h.2, relay_accounts isDns events ops h⟩
      cases isDns with
      | false => exact hrest ops h
      | true => exact store_accounts _ hrest h

theorem udpCounter_accounts :
    Accounts [.count .udpFlows] (.act (.count (udpCounter shared dest)) .done : FlowRoutine R) := by
  unfold udpCounter
  split
  · exact ⟨by decide, by decide, by decide⟩
  · split
    · exact ⟨by decide, by decide, by decide⟩
    · exact ⟨by decide, by decide, by decide⟩

theorem carryOutUdp_accounts (facts : FlowFacts) (events : List UdpEvent) (decision : Decision) :
    Accounts [.count .udpFlows] (carryOutUdpRoutine env shared facts events decision) := by
  have hrelay : Accounts [.count .udpFlows] (carryOutUdpRoutine env shared facts events .direct) := by
    refine ⟨by decide, ?_⟩
    cases dialOutcome env (Flow.result env.connect) with
    | ok _ => exact relay_accounts _ events _ ⟨by decide, by decide⟩
    | _ => exact ⟨by decide, by decide⟩
  cases decision with
  | block => exact udpCounter_accounts shared facts.dest
  | direct => exact hrelay
  | proxy id => exact hrelay

/-- **A UDP flow keeps the account.** -/
theorem udpRoutine_accounts (events : List UdpEvent) :
    Accounts [.count .udpFlows] (udpRoutine env dest events : FlowRoutine R) := by
  refine ⟨by decide, by decide, fun shared => ?_⟩
  beta_reduce
  cases decide shared (factsOf env shared dest true) with
  | error p => exact ⟨by decide, by decide⟩
  | ok decision => exact ⟨by decide, carryOutUdp_accounts ..⟩

end Accounts

/-! ## The accept loop -/

/-- What the stack hands to the loop, with all that the flow will meet. -/
inductive IpStackStream where
  | tcp (env : FlowEnv) (dest : SocketAddr)
  | udp (env : FlowEnv) (dest : SocketAddr) (events : List UdpEvent)
  | unknownTransport
  | unknownNetwork

/-- Where `run` is. -/
inductive AcceptLoop (R : RegexCrate) where
  | stopped
  | waiting
  /-- The flow is counted, and its task is yet to be spawned. -/
  | spawning (task : FlowRoutine R)

/-- The loop and the tasks it spawned. -/
structure Netstack (R : RegexCrate) where
  loop : AcceptLoop R
  pool : Pool (Shared R) SharedOp

namespace Netstack

inductive Action where
  /-- `run` is called. -/
  | run
  | accept (stream : IpStackStream)
  | spawn
  /-- The shutdown fires, or accepting fails. -/
  | stop
  /-- The task of a flow takes a step. -/
  | advance (flow : Nat)
  /-- The task of a flow is dropped where it waits, or ends by a panic of a callback. -/
  | drop (flow : Nat)

variable (base64 : Bytes → Str)

/-- The counter of an accepted flow, and what its task runs. -/
def handler : IpStackStream → Option (Counter × FlowRoutine R)
  | .tcp env dest => some (.tcpFlows, tcpRoutine base64 env dest)
  | .udp env dest events => some (.udpFlows, udpRoutine env dest events)
  | .unknownTransport => none
  | .unknownNetwork => none

/-- One step of the loop or of a task. -/
def step (net : Netstack R) : Action → Option (Netstack R)
  | .run =>
    match net.loop with
    | .stopped => some { net with loop := .waiting }
    | _ => none
  | .accept stream =>
    match net.loop, handler base64 stream with
    | .waiting, none => some net
    | .waiting, some (c, task) =>
      some ⟨.spawning task, net.pool.perform SharedOp.apply net.pool.spawned (.count c)⟩
    | _, _ => none
  | .spawn =>
    match net.loop with
    | .spawning task => some ⟨.waiting, net.pool.spawn task⟩
    | _ => none
  | .stop =>
    match net.loop with
    | .waiting => some { net with loop := .stopped }
    | _ => none
  | .advance flow => (net.pool.advance SharedOp.apply flow).map fun pool => { net with pool }
  | .drop flow => (net.pool.drop flow).map fun pool => { net with pool }

def init (shared : Shared R) : Netstack R := ⟨.stopped, .init shared⟩

/-- How many flows were accepted. -/
def accepted (net : Netstack R) : Nat :=
  match net.loop with
  | .spawning _ => net.pool.spawned + 1
  | _ => net.pool.spawned

/-- A flow is accepted by this action. -/
def Action.accepts : Action → Bool
  | .accept (.tcp _ _) => true
  | .accept (.udp _ _ _) => true
  | _ => false

/-- The counters. -/
def stats (net : Netstack R) : Stats := net.pool.shared.stats

/-- What was done for a flow. -/
def ops (net : Netstack R) (flow : Nat) : List SharedOp := opsOf net.pool.log flow

end Netstack

/-! ## Every interleaving -/

namespace Netstack

open Transition

variable {base64 : Bytes → Str} {shared : Shared R} {net net' : Netstack R}

theorem handler_accounts {stream : IpStackStream} {c : Counter} {task : FlowRoutine R}
    (h : handler base64 stream = some (c, task)) :
    Accounts [.count c] task ∧ Accounts [.count c] (.done : FlowRoutine R) := by
  cases stream with
  | tcp env dest =>
    cases h
    exact ⟨tcpRoutine_accounts .., by decide, by decide⟩
  | udp env dest events =>
    cases h
    exact ⟨udpRoutine_accounts .., by decide, by decide⟩
  | unknownTransport => cases h
  | unknownNetwork => cases h

/-- The account of all flows. -/
structure Inv (shared : Shared R) (net : Netstack R) : Prop where
  pool : net.pool.Consistent SharedOp.apply shared Accounted Balanced
  /-- There is no task yet past the spawned ones. -/
  idle : ∀ i, net.pool.spawned ≤ i → net.pool.task i = .done
  /-- Nothing was done for flows that are not accepted. -/
  fresh : ∀ i, net.accepted ≤ i → net.ops i = []
  /-- A flow that was counted goes on from there. -/
  spawning : ∀ task, net.loop = .spawning task → Accounts (net.ops net.pool.spawned) task

theorem inv_init (shared : Shared R) : Inv shared (init shared) where
  pool := ⟨rfl, fun _ => ⟨by simp [init, Pool.init, Accounted], by simp [init, Pool.init, Balanced]⟩⟩
  idle _ _ := rfl
  fresh _ _ := rfl
  spawning _ h := by cases h

/-- A step of one task. -/
theorem Inv.onlyTask {pool : Pool (Shared R) SharedOp} {i : Nat} (h : Inv shared net)
    (hp : pool.Consistent SharedOp.apply shared Accounted Balanced)
    (hi : net.pool.task i ≠ .done ∧ Pool.OnlyTask i net.pool pool) : Inv shared { net with pool } := by
  have hlt : i < net.pool.spawned := by
    by_contra hge
    exact hi.1 (h.idle i (Nat.le_of_not_lt hge))
  have hspawned := hi.2.spawned
  have hge : net.pool.spawned ≤ net.accepted := by
    unfold accepted
    split <;> omega
  have hacc : accepted { net with pool } = net.accepted := by
    simp only [accepted, hspawned]
  refine ⟨hp, fun j hj => ?_, fun j hj => ?_, fun task ht => ?_⟩
  · rw [hspawned] at hj
    rw [hi.2.task j (by omega)]
    exact h.idle j hj
  · rw [hacc] at hj
    exact (hi.2.ops j (by omega)).trans (h.fresh j hj)
  · have hops : opsOf pool.log net.pool.spawned = net.ops net.pool.spawned := hi.2.ops _ (by omega)
    change Accounts (opsOf pool.log pool.spawned) task
    rw [hspawned, hops]
    exact h.spawning task ht

theorem Inv.accept (h : Inv shared net) (hl : net.loop = .waiting) {c : Counter} {task : FlowRoutine R}
    (ht : Accounts [.count c] task ∧ Accounts [.count c] (.done : FlowRoutine R)) :
    Inv shared ⟨.spawning task, net.pool.perform SharedOp.apply net.pool.spawned (.count c)⟩ := by
  have hnone : opsOf net.pool.log net.pool.spawned = [] := h.fresh _ (by simp [accepted, hl])
  have hops : opsOf (net.pool.log ++ [(net.pool.spawned, .count c)]) net.pool.spawned = [.count c] := by
    rw [opsOf_snoc, if_pos rfl, hnone, List.nil_append]
  -- the entry of the coming task is still empty
  have hidle : (net.pool.perform SharedOp.apply net.pool.spawned (.count c)).task net.pool.spawned = .done :=
    h.idle _ (Nat.le_refl _)
  have hpool : Pool.Consistent SharedOp.apply shared Accounted Balanced
      ((net.pool.perform SharedOp.apply net.pool.spawned (.count c)).setTask net.pool.spawned .done) :=
    h.pool.perform (by rw [hnone]; exact ht.2)
  rw [Pool.setTask_self hidle] at hpool
  refine ⟨hpool, h.idle, fun j hj => ?_, fun t hs => ?_⟩
  · have hj' : net.pool.spawned + 1 ≤ j := hj
    change opsOf (net.pool.log ++ [_]) j = []
    rw [opsOf_snoc, if_neg (by omega)]
    exact h.fresh j (by simp only [accepted, hl]; omega)
  · cases hs
    change Accounts (opsOf (net.pool.log ++ [(net.pool.spawned, .count c)]) net.pool.spawned) task
    rw [hops]
    exact ht.1

theorem Inv.spawn (h : Inv shared net) {task : FlowRoutine R} (hl : net.loop = .spawning task) :
    Inv shared ⟨.waiting, net.pool.spawn task⟩ where
  pool := h.pool.spawn (h.spawning task hl)
  idle i hi := by
    have hi' : net.pool.spawned + 1 ≤ i := hi
    exact (Function.update_of_ne (by omega) ..).trans (h.idle i (by omega))
  fresh i hi := h.fresh i (by rw [accepted, hl]; exact hi)
  spawning _ hs := by cases hs

/-- **The step lemma.** -/
theorem Inv.step {a : Action} (h : Inv shared net) (hs : step base64 net a = some net') : Inv shared net' := by
  obtain ⟨loop, pool⟩ := net
  cases a with
  | run =>
    cases loop with
    | stopped =>
      cases hs
      exact ⟨h.pool, h.idle, h.fresh, fun _ hs => by cases hs⟩
    | _ => cases hs
  | accept stream =>
    cases loop with
    | waiting =>
      cases hh : handler (R := R) base64 stream with
      | none =>
        simp only [Netstack.step, hh, Option.some.injEq] at hs
        exact hs ▸ h
      | some ct =>
        simp only [Netstack.step, hh, Option.some.injEq] at hs
        exact hs ▸ h.accept rfl (handler_accounts hh)
    | _ => cases hs
  | spawn =>
    cases loop with
    | spawning task =>
      cases hs
      exact h.spawn rfl
    | _ => cases hs
  | stop =>
    cases loop with
    | waiting =>
      cases hs
      exact ⟨h.pool, h.idle, h.fresh, fun _ hs => by cases hs⟩
    | _ => cases hs
  | advance i =>
    obtain ⟨pool', ha, rfl⟩ := Option.map_eq_some_iff.mp hs
    exact h.onlyTask (h.pool.advance ha) (Pool.onlyTask_advance ha)
  | drop i =>
    obtain ⟨pool', hd, rfl⟩ := Option.map_eq_some_iff.mp hs
    exact h.onlyTask (h.pool.drop hd) (Pool.onlyTask_drop hd)

/-! ## Adding up -/

/-- The counters are what the log says. -/
theorem get_replay (log : List (Nat × SharedOp)) (shared : Shared R) (c : Counter) :
    (log.foldl (fun s e => e.2.apply s) shared).stats.get c =
      shared.stats.get c + UInt64.ofNat (log.countP fun e => e.2.counts c) := by
  induction log generalizing shared with
  | nil => simp
  | cons e log ih =>
    rw [List.foldl_cons, ih, List.countP_cons]
    obtain ⟨i, op⟩ := e
    cases op with
    | count c' =>
      simp only [SharedOp.apply, Stats.get_add, SharedOp.counts, beq_iff_eq, SharedOp.count.injEq]
      split
      · rw [UInt64.ofNat_add, UInt64.add_assoc, UInt64.add_comm 1]
        rfl
      · simp
    | store s => simp [SharedOp.apply, SharedOp.counts]

/-- Operations of a kind are counted by its counters together, if each of them is counted once. -/
theorem countP_kind {kind : SharedOp → Bool} {counters : List Counter}
    (h : ∀ op, (kind op).toNat = (counters.map fun c => (op.counts c).toNat).sum) (log : List (Nat × SharedOp)) :
    (log.countP fun e => kind e.2) = (counters.map fun c => log.countP fun e => e.2.counts c).sum := by
  have htoNat : ∀ b : Bool, (if b = true then 1 else 0) = b.toNat := by
    intro b
    cases b <;> rfl
  induction log with
  | nil => simp
  | cons e log ih => simp only [List.countP_cons, htoNat, List.sum_map_add, ih, h]

theorem countP_isFlow (log : List (Nat × SharedOp)) :
    (log.countP fun e => e.2.isFlow) =
      (log.countP fun e => e.2.counts .tcpFlows) + log.countP fun e => e.2.counts .udpFlows := by
  refine (@countP_kind SharedOp.isFlow [.tcpFlows, .udpFlows] (fun op => ?_) log).trans (by simp)
  cases op with
  | count c => cases c <;> rfl
  | store s => rfl

theorem countP_isDrop (log : List (Nat × SharedOp)) :
    (log.countP fun e => e.2.isDrop) =
      (log.countP fun e => e.2.counts .blocked) + (log.countP fun e => e.2.counts .quicDropped) +
        log.countP fun e => e.2.counts .groupDropped := by
  refine (@countP_kind SharedOp.isDrop [.blocked, .quicDropped, .groupDropped] (fun op => ?_) log).trans
    (by simp [Nat.add_assoc])
  cases op with
  | count c => cases c <;> rfl
  | store s => rfl

theorem accepted_step {a : Action} (hs : step base64 net a = some net') :
    net'.accepted = net.accepted + a.accepts.toNat := by
  obtain ⟨loop, pool⟩ := net
  cases a with
  | run =>
    cases loop <;> cases hs
    rfl
  | accept stream => cases loop <;> cases stream <;> cases hs <;> rfl
  | spawn =>
    cases loop <;> cases hs
    rfl
  | stop =>
    cases loop <;> cases hs
    rfl
  | advance i =>
    obtain ⟨pool', ha, rfl⟩ := Option.map_eq_some_iff.mp hs
    simp only [accepted, (Pool.onlyTask_advance ha).2.spawned]
    rfl
  | drop i =>
    obtain ⟨pool', hd, rfl⟩ := Option.map_eq_some_iff.mp hs
    simp only [accepted, (Pool.onlyTask_drop hd).2.spawned]
    rfl

theorem accepted_exec {actions : List Action} (h : exec (step base64) net actions = some net') :
    net'.accepted = net.accepted + actions.countP Action.accepts := by
  induction actions generalizing net with
  | nil =>
    cases h
    rfl
  | cons a actions ih =>
    obtain ⟨u, hu, h⟩ := Option.bind_eq_some_iff.mp h
    rw [ih h, accepted_step hu, List.countP_cons]
    cases a.accepts <;> simp [Nat.add_assoc, Nat.add_comm]

/-- How often a counter was moved. -/
def total (net : Netstack R) (p : SharedOp → Bool) : Nat := net.pool.log.countP fun e => p e.2

section Totals

variable {p q : SharedOp → Bool}

/-- What holds for each flow holds in total. -/
theorem Inv.total_le (h : Inv shared net) (hle : ∀ i, (net.ops i).countP p ≤ (net.ops i).countP q) :
    net.total p ≤ net.total q := by
  unfold total
  rw [← sum_countP p h.fresh, ← sum_countP q h.fresh]
  exact Finset.sum_le_sum fun i _ => hle i

theorem Inv.total_le_accepted (h : Inv shared net) (hle : ∀ i, (net.ops i).countP p ≤ 1) :
    net.total p ≤ net.accepted := by
  unfold total
  rw [← sum_countP p h.fresh]
  calc ∑ i ∈ Finset.range net.accepted, (net.ops i).countP p
      ≤ ∑ i ∈ Finset.range net.accepted, 1 := Finset.sum_le_sum fun i _ => hle i
    _ = net.accepted := by simp

theorem Inv.get_toNat (h : Inv shared net) (hz : shared.stats = ⟨0, 0, 0, 0, 0, 0, 0⟩) {c : Counter}
    (hlt : net.total (SharedOp.counts c) < 2 ^ 64) : (net.stats.get c).toNat = net.total (SharedOp.counts c) := by
  have hget : net.stats.get c = UInt64.ofNat (net.total (SharedOp.counts c)) := by
    have hzero : shared.stats.get c = 0 := by
      rw [hz]
      cases c <;> rfl
    rw [stats, h.pool.shared_eq, get_replay, hzero, UInt64.zero_add]
    rfl
  rw [hget, UInt64.toNat_ofNat_of_lt' hlt]

end Totals

/-- **The accounting of flows.** -/
theorem flow_accounting (base64 : Bytes → Str) {shared : Shared R} (hz : shared.stats = ⟨0, 0, 0, 0, 0, 0, 0⟩)
    {actions : List Action} (hflows : actions.countP Action.accepts < 2 ^ 64) {net : Netstack R}
    (hrun : exec (step base64) (init shared) actions = some net) :
    net.stats.blocked.toNat + net.stats.quicDropped.toNat + net.stats.groupDropped.toNat ≤
        net.stats.tcpFlows.toNat + net.stats.udpFlows.toNat ∧
      net.stats.proxyFallbacks.toNat ≤ net.stats.tcpFlows.toNat ∧
      (∀ flow, (net.ops flow).countP SharedOp.isDrop ≤ 1) ∧
      ((∀ flow, net.pool.task flow = .done) → net.stats.proxyFallbacks.toNat ≤ net.stats.blocked.toNat) := by
  have h : Inv shared net := exec_invariant (fun _ _ _ h hs => h.step hs) (inv_init shared) hrun
  have hacc : ∀ i, Accounted (net.ops i) := fun i => (h.pool.safe i).now
  have hsettled : (∀ flow, net.pool.task flow = .done) → ∀ i, Balanced (net.ops i) := by
    intro hdone i
    have hsafe := h.pool.safe i
    rw [hdone i] at hsafe
    exact hsafe.2
  have hle := h.total_le_accepted fun i => (hacc i).1
  rw [accepted_exec hrun, show (init shared).accepted = 0 from rfl, Nat.zero_add] at hle
  have hdrops := h.total_le fun i => (hacc i).2.1
  have hfall := h.total_le fun i => (hacc i).2.2
  have hsplit : net.total SharedOp.isDrop = net.total (SharedOp.counts .blocked) +
      net.total (SharedOp.counts .quicDropped) + net.total (SharedOp.counts .groupDropped) := countP_isDrop ..
  have hflow : net.total SharedOp.isFlow =
      net.total (SharedOp.counts .tcpFlows) + net.total (SharedOp.counts .udpFlows) := countP_isFlow ..
  -- none of the counters has wrapped
  have hb := h.get_toNat hz (c := .blocked) (by omega)
  have hq := h.get_toNat hz (c := .quicDropped) (by omega)
  have hg := h.get_toNat hz (c := .groupDropped) (by omega)
  have ht := h.get_toNat hz (c := .tcpFlows) (by omega)
  have hu := h.get_toNat hz (c := .udpFlows) (by omega)
  have hf := h.get_toNat hz (c := .proxyFallbacks) (by omega)
  simp only [Stats.get] at hb hq hg ht hu hf
  rw [hb, hq, hg, ht, hu, hf]
  exact ⟨by omega, hfall, fun i => (hacc i).2.1.trans (hacc i).1, fun hdone => h.total_le (hsettled hdone)⟩

/-- A TCP flow whose proxy refuses it, up to the first of its two counters, and a multicast flow meanwhile. -/
def sampleRun : List Action :=
  [.run, .accept (.tcp sampleEnv ⟨.v4 (.new 192 0 2 1), 443⟩), .spawn, .advance 0, .advance 0,
    .accept (.udp sampleEnv ⟨.v4 (.new 224 0 0 251), 5353⟩ []), .advance 0, .advance 0, .spawn, .advance 1, .advance 0,
    .advance 1, .advance 1, .advance 1]

theorem flow_accounting_between_counters :
    ∃ set net, RuleSet.new backslashRegex proxyAllRules = .ok set ∧
      exec (step fun _ => []) (init (sampleShared set)) sampleRun = some net ∧ net.stats = ⟨1, 1, 0, 0, 1, 1, 0⟩ ∧
      net.stats.blocked.toNat + net.stats.quicDropped.toNat + net.stats.groupDropped.toNat ≤
        net.stats.tcpFlows.toNat + net.stats.udpFlows.toNat := by
  obtain ⟨set, hs⟩ : ∃ set, RuleSet.new backslashRegex proxyAllRules = .ok set := ⟨_, rfl⟩
  have hstats : (exec (step fun _ => []) (init (sampleShared set)) sampleRun).map stats =
      some ⟨1, 1, 0, 0, 1, 1, 0⟩ := by
    cases hs
    decide
  obtain ⟨net, hrun, hst⟩ := Option.map_eq_some_iff.mp hstats
  exact ⟨set, net, hs, hrun, hst, (flow_accounting _ rfl (by decide) hrun).1⟩

end Netstack

end AceTun
