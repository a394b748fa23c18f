import AceTun.Netstack.FailClosed

/-!
# Which check decided

`decide` makes four checks before it asks the rules, and `decidedBy` says which of them settled a flow. The four do not
look at the rules, at the name of the process or at the domain, and they never choose a proxy; a flow that none of them
settles is the rules' alone (`decide_overrides`).

A blocked flow is counted by the handler, which guesses the check from the destination. The guess is right in the cases
that `dropCounter_iff` lists: a TCP flow to a group address and several UDP flows on the QUIC port are counted as
something they are not.
-/

namespace AceTun

open RustStd AceTun.Flow

variable {R : RegexCrate}

/-! ## The checks -/

inductive Check where
  | own
  | loopback
  | group
  | quic
  /-- None of the checks, so the rules decide. -/
  | rules
  deriving DecidableEq, Repr

/-- The check of `decide` that settles the flow. -/
def decidedBy (shared : Shared R) (facts : FlowFacts) : Check :=
  if facts.pid = some shared.currentPid then .own
  else if facts.dest.ip.isLoopback && !shared.localhostViaProxy then .loopback
  else if isGroupAddress facts.dest.ip then .group
  else if facts.isUdp && facts.dest.port == shared.quicPort && shared.quicPolicy == .drop then .quic
  else .rules

/-- What each check decides. -/
def Check.decision (shared : Shared R) (facts : FlowFacts) : Check → Except Panic Decision
  | .own => .ok (if !facts.dest.ip.isLoopback && (shared.iface.indexFor facts.dest.ip).isNone then .block else .direct)
  | .loopback => .ok .direct
  | .group => .ok .block
  | .quic => .ok .block
  | .rules =>
    .ofMatch <$> shared.rules.evaluate facts.processName facts.dest.ip facts.dest.port facts.isUdp facts.domain

theorem decide_eq_decision (shared : Shared R) (facts : FlowFacts) :
    decide shared facts = (decidedBy shared facts).decision shared facts := by
  unfold decide decidedBy
  split
  · rw [Check.decision]
    split <;> rfl
  split
  · rfl
  split
  · rfl
  split
  · rfl
  · exact (map_eq_pure_bind _ _).symm

/-! ## The overrides -/

/-- One of the four conditions that take a flow from the rules. -/
def Overridden (shared : Shared R) (facts : FlowFacts) : Prop :=
  facts.pid = some shared.currentPid ∨
  (facts.dest.ip.isLoopback = true ∧ shared.localhostViaProxy = false) ∨
  isGroupAddress facts.dest.ip = true ∨
  (facts.isUdp = true ∧ facts.dest.port = shared.quicPort ∧ shared.quicPolicy = .drop)

theorem overridden_iff {shared : Shared R} {facts : FlowFacts} :
    Overridden shared facts ↔ decidedBy shared facts ≠ .rules := by
  unfold Overridden decidedBy
  by_cases h1 : facts.pid = some shared.currentPid
  · simp [h1]
  by_cases h2 : facts.dest.ip.isLoopback = true ∧ shared.localhostViaProxy = false
  · simp [h1, h2]
  by_cases h3 : isGroupAddress facts.dest.ip = true
  · simp [h1, h3]
    split <;> simp
  · have h2' : ¬ (facts.dest.ip.isLoopback && !shared.localhostViaProxy) = true := by simpa using h2
    rw [if_neg h1, if_neg h2', if_neg h3]
    simp [h1, h2, h3, and_assoc]

/-- The four checks do not look at the rules, and choose no proxy. -/
theorem Check.decision_override {c : Check} (hc : c ≠ .rules) (shared : Shared R) (rules : RuleSet R) (facts : FlowFacts)
    (processName : Str) (domain : Option Str) :
    ∃ d, c.decision shared facts = .ok d ∧
      c.decision { shared with rules } { facts with processName, domain } = .ok d ∧ ∀ id, d ≠ .proxy id := by
  cases c with
  | own => exact ⟨_, rfl, rfl, fun id => by split <;> simp⟩
  | loopback => exact ⟨_, rfl, rfl, by simp⟩
  | group => exact ⟨_, rfl, rfl, by simp⟩
  | quic => exact ⟨_, rfl, rfl, by simp⟩
  | rules => exact absurd rfl hc

/-- **The overrides do not depend on the rules, and only they bypass them.** -/
theorem decide_overrides (shared : Shared R) (facts : FlowFacts) :
    (Overridden shared facts → ∀ (rules : RuleSet R) processName domain, ∃ d, decide shared facts = .ok d ∧
      decide { shared with rules } { facts with processName, domain } = .ok d ∧ ∀ id, d ≠ .proxy id) ∧
    (¬ Overridden shared facts →
      decide shared facts =
        .ofMatch <$> shared.rules.evaluate facts.processName facts.dest.ip facts.dest.port facts.isUdp facts.domain ∧
      ∀ pid currentPid ifaceCell quicPort quicPolicy,
        ¬ Overridden { shared with currentPid, ifaceCell, quicPort, quicPolicy } { facts with pid } →
        decide { shared with currentPid, ifaceCell, quicPort, quicPolicy } { facts with pid } = decide shared facts) := by
  constructor
  · intro h rules processName domain
    simp only [decide_eq_decision]
    exact Check.decision_override (overridden_iff.mp h) ..
  · intro h
    have hr : decidedBy shared facts = .rules := not_not.mp (mt overridden_iff.mpr h)
    rw [decide_eq_decision, hr]
    refine ⟨rfl, ?_⟩
    intro pid currentPid ifaceCell quicPort quicPolicy h'
    rw [decide_eq_decision, not_not.mp (mt overridden_iff.mpr h')]
    rfl

/-! ## Counting a blocked flow -/

/-- The fields of `Stats`. -/
inductive Counter where
  | tcpFlows
  | udpFlows
  | blocked
  | quicDropped
  | proxyFallbacks
  | groupDropped
  | udpSendErrors
  deriving DecidableEq, Repr

namespace Stats

def get (st : Stats) : Counter → UInt64
  | .tcpFlows => st.tcpFlows
  | .udpFlows => st.udpFlows
  | .blocked => st.blocked
  | .quicDropped => st.quicDropped
  | .proxyFallbacks => st.proxyFallbacks
  | .groupDropped => st.groupDropped
  | .udpSendErrors => st.udpSendErrors

/-- `fetch_add(1)` on one of them. -/
def add (st : Stats) : Counter → Stats
  | .tcpFlows => { st with tcpFlows := st.tcpFlows + 1 }
  | .udpFlows => { st with udpFlows := st.udpFlows + 1 }
  | .blocked => { st with blocked := st.blocked + 1 }
  | .quicDropped => { st with quicDropped := st.quicDropped + 1 }
  | .proxyFallbacks => { st with proxyFallbacks := st.proxyFallbacks + 1 }
  | .groupDropped => { st with groupDropped := st.groupDropped + 1 }
  | .udpSendErrors => { st with udpSendErrors := st.udpSendErrors + 1 }

theorem get_add (st : Stats) (c c' : Counter) : (st.add c).get c' = st.get c' + if c = c' then 1 else 0 := by
  cases c <;> cases c' <;> simp [add, get]

theorem add_inj (st : Stats) {c c' : Counter} : st.add c = st.add c' ↔ c = c' := by
  refine ⟨fun h => ?_, congrArg _⟩
  have hget := congrArg (get · c) h
  simp only [get_add, if_true] at hget
  by_contra hne
  simp [Ne.symm hne] at hget

end Stats

/-- The counter that is documented for flows that the check blocks. -/
def Check.counter : Check → Counter
  | .group => .groupDropped
  | .quic => .quicDropped
  | _ => .blocked

/-- The counter that `handle_udp` takes for a flow to this destination. -/
def udpCounter (shared : Shared R) (dest : SocketAddr) : Counter :=
  if dest.port = shared.quicPort then .quicDropped
  else if isGroupAddress dest.ip then .groupDropped
  else .blocked

theorem countDropped_eq (shared : Shared R) (dest : SocketAddr) (st : Stats) :
    countDropped shared dest st = st.add (udpCounter shared dest) := by
  unfold countDropped udpCounter
  split
  · rfl
  · split <;> rfl

section Handlers

variable {env : FlowEnv} {shared : Shared R} {dest : SocketAddr}

theorem handleTcp_blocked (base64 : Bytes → Str) (h : decide shared (factsOf env shared dest false) = .ok .block) :
    (handleTcp base64 env dest ⟨shared, []⟩).2.shared.stats = shared.stats.add .blocked := by
  rw [handleTcp_run base64 env h, carryOutTcp_block]
  rfl

theorem handleUdp_blocked (events : List UdpEvent) (h : decide shared (factsOf env shared dest true) = .ok .block) :
    (handleUdp env dest events ⟨shared, []⟩).2.shared.stats = shared.stats.add (udpCounter shared dest) := by
  rw [handleUdp_run h, carryOutUdp, Async.bind_of_ok (count_run _ _), emit_run, ← countDropped_eq]
  rfl

end Handlers

/-- A blocked TCP flow is settled by the group check unless it is our own or has a host's address. -/
theorem tcp_counter_iff {shared : Shared R} {facts : FlowFacts} (hu : facts.isUdp = false)
    (h : decide shared facts = .ok .block) :
    .blocked = (decidedBy shared facts).counter ↔
      facts.pid = some shared.currentPid ∨ isGroupAddress facts.dest.ip = false := by
  rw [decide_eq_decision] at h
  unfold decidedBy at h ⊢
  by_cases hown : facts.pid = some shared.currentPid
  · simp [hown, Check.counter]
  · rw [if_neg hown] at h ⊢
    by_cases hl : (facts.dest.ip.isLoopback && !shared.localhostViaProxy) = true
    · simp [hl, Check.decision] at h
    · rw [if_neg hl]
      cases hg : isGroupAddress facts.dest.ip with
      | true => simp [hown, Check.counter]
      | false => simp [hu, Check.counter]

/-- What `handle_udp` guesses is right exactly in these cases. -/
theorem udp_counter_iff {shared : Shared R} {facts : FlowFacts} (hu : facts.isUdp = true)
    (h : decide shared facts = .ok .block) :
    udpCounter shared facts.dest = (decidedBy shared facts).counter ↔
      (facts.dest.port = shared.quicPort →
        facts.pid ≠ some shared.currentPid ∧ isGroupAddress facts.dest.ip = false ∧ shared.quicPolicy = .drop) ∧
      (isGroupAddress facts.dest.ip = true → facts.pid ≠ some shared.currentPid) := by
  rw [decide_eq_decision] at h
  unfold udpCounter
  unfold decidedBy at h ⊢
  by_cases hown : facts.pid = some shared.currentPid
  · cases hg : isGroupAddress facts.dest.ip <;> by_cases hq : facts.dest.port = shared.quicPort <;>
      simp [hown, hq, Check.counter]
  · rw [if_neg hown] at h ⊢
    by_cases hl : (facts.dest.ip.isLoopback && !shared.localhostViaProxy) = true
    · simp [hl, Check.decision] at h
    · rw [if_neg hl]
      cases hg : isGroupAddress facts.dest.ip <;> by_cases hq : facts.dest.port = shared.quicPort <;>
        cases hp : shared.quicPolicy <;> simp [hown, hu, hq, Check.counter]

/-- **When the counter names the check that blocked the flow.** -/
theorem dropCounter_iff (base64 : Bytes → Str) (env : FlowEnv) (shared : Shared R) (dest : SocketAddr)
    (events : List UdpEvent) :
    (decide shared (factsOf env shared dest false) = .ok .block →
      ((handleTcp base64 env dest ⟨shared, []⟩).2.shared.stats =
          shared.stats.add (decidedBy shared (factsOf env shared dest false)).counter ↔
        env.pid = some shared.currentPid ∨ isGroupAddress dest.ip = false)) ∧
    (decide shared (factsOf env shared dest true) = .ok .block →
      ((handleUdp env dest events ⟨shared, []⟩).2.shared.stats =
          shared.stats.add (decidedBy shared (factsOf env shared dest true)).counter ↔
        (dest.port = shared.quicPort →
          env.pid ≠ some shared.currentPid ∧ isGroupAddress dest.ip = false ∧ shared.quicPolicy = .drop) ∧
        (isGroupAddress dest.ip = true → env.pid ≠ some shared.currentPid))) := by
  constructor
  · intro h
    rw [handleTcp_blocked base64 h, Stats.add_inj]
    exact tcp_counter_iff rfl h
  · intro h
    rw [handleUdp_blocked events h, Stats.add_inj]
    exact udp_counter_iff rfl h

/-- Block everything. -/
def blockRules : List Rule := [{ Rule.new "*".toList with action := .block }]

/-- **Blocked flows that are counted as something else**: a TCP flow to a group address as a rule's, a group address on
the QUIC port as QUIC, and what a rule blocks on that port as QUIC although QUIC is allowed. -/
theorem dropCounter_misnames :
    ∃ set, RuleSet.new backslashRegex blockRules = .ok set ∧
      (decidedBy (sampleShared set) (factsOf sampleEnv (sampleShared set) ⟨.v4 (.new 224 0 0 251), 5353⟩ false) = .group ∧
        (handleTcp (fun _ => []) sampleEnv ⟨.v4 (.new 224 0 0 251), 5353⟩ ⟨sampleShared set, []⟩).2.shared.stats =
          ⟨0, 0, 1, 0, 0, 0, 0⟩) ∧
      (decidedBy (sampleShared set) (factsOf sampleEnv (sampleShared set) ⟨.v4 (.new 224 0 0 251), 443⟩ true) = .group ∧
        (handleUdp sampleEnv ⟨.v4 (.new 224 0 0 251), 443⟩ [] ⟨sampleShared set, []⟩).2.shared.stats =
          ⟨0, 0, 0, 1, 0, 0, 0⟩) ∧
      (decidedBy { sampleShared set with quicPolicy := .allow }
          (factsOf sampleEnv (sampleShared set) ⟨.v4 (.new 192 0 2 1), 443⟩ true) = .rules ∧
        (handleUdp sampleEnv ⟨.v4 (.new 192 0 2 1), 443⟩ []
          ⟨{ sampleShared set with quicPolicy := .allow }, []⟩).2.shared.stats = ⟨0, 0, 0, 1, 0, 0, 0⟩) :=
  ⟨_, rfl, ⟨by decide, by decide⟩, ⟨by decide, by decide⟩, by decide, by decide⟩

end AceTun
