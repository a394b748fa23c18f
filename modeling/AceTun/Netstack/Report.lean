import AceTun.Netstack.LoopGuard

/-!
# What the connection callback is told

A handler reports its decision before it carries it out. The report of a TCP flow is what then happens, down to the proxy
that is named in it. The report of a UDP flow says whether it is dropped; a flow that is reported as proxied is relayed
straight to its destination all the same, as UDP is never tunnelled (`reports_are_carried_out`).
-/

namespace AceTun

open RustStd AceTun.Flow

variable {R : RegexCrate}

/-- The text that a proxied flow is reported with. -/
def proxyText (cfg : ProxyConfig) : Str :=
  "Proxy ".toList ++ cfg.proxyType.debug ++ "://".toList ++ cfg.host ++ ":".toList ++ showNat cfg.port.toNat

/-- The report of a decided flow. -/
def reportOf (shared : Shared R) (facts : FlowFacts) (decision : Decision) : ConnectionInfo where
  processName := facts.processName
  pid := facts.pid.getD 0
  destIp := facts.dest.ip
  destPort := facts.dest.port
  action := (reportTexts shared decision).1
  proxyInfo := (reportTexts shared decision).2

/-- The action that stands for a decision. -/
def Decision.action : Decision → RuleAction
  | .direct => .direct
  | .block => .block
  | .proxy _ => .proxy

/-- The action that an effect carries out. -/
def Effect.action : Effect → Option RuleAction
  | .connection _ => none
  | .dial _ _ | .opened _ _ | .pin _ _ _ | .connect _ _ | .relay .direct | .send _ | .reply _ => some .direct
  | .dropStream => some .block
  | .connectViaProxy _ _ | .relay .proxy | .log _ | .shutdown => some .proxy

theorem reportTexts_action (shared : Shared R) (decision : Decision) :
    (reportTexts shared decision).1 = decision.action := by
  cases decision with
  | direct => rfl
  | block => rfl
  | proxy id =>
    simp only [reportTexts]
    cases shared.findProxyConfig id <;> rfl

theorem reportTexts_proxy {shared : Shared R} {id : UInt32} {cfg : ProxyConfig} (h : shared.findProxyConfig id = some cfg) :
    (reportTexts shared (.proxy id)).2 = proxyText cfg := by
  simp only [reportTexts, h]
  rfl

theorem reportEffects_of_cb {shared : Shared R} (h : shared.connCb = true) (facts : FlowFacts) (decision : Decision) :
    reportEffects shared facts decision = [.connection (reportOf shared facts decision)] := by
  rw [reportEffects, if_pos h]
  rfl

/-- After the report, an action is carried out and nothing else is done; the proxy that is called is the reported one. -/
structure CarriedOut (info : ConnectionInfo) (action : RuleAction) (rest : List Effect) : Prop where
  done : rest ≠ []
  only : ∀ e ∈ rest, e.action = some action
  proxy : ∀ cfg target, .connectViaProxy cfg target ∈ rest → info.proxyInfo = proxyText cfg

section Traces

variable {env : FlowEnv} {shared : Shared R} {dest : SocketAddr} {info : ConnectionInfo}

theorem dial_action {isUdp : Bool} {iface : PhysicalInterface} {e : Effect}
    (h : e ∈ dialEffects env dest isUdp iface) : e.action = some .direct := by
  rcases mem_dialEffects h with rfl | rfl | ⟨_, _, rfl⟩ | rfl
  all_goals rfl

/-- An action in which no proxy is called. -/
theorem CarriedOut.of_action {action : RuleAction} {rest : List Effect} (hd : rest ≠ [])
    (h : ∀ e ∈ rest, e.action = some action) (hp : action ≠ .proxy) : CarriedOut info action rest := by
  refine ⟨hd, h, fun cfg target hm => ?_⟩
  have := h _ hm
  cases this
  exact absurd rfl hp

theorem carriedOut_block : CarriedOut info .block [.dropStream] :=
  .of_action (by simp) (fun e he => by rw [List.mem_singleton.mp he]; rfl) (by simp)

/-- A dial and what comes of it. -/
theorem carriedOut_dial {isUdp : Bool} {iface : PhysicalInterface} {post : List Effect}
    (h : ∀ e ∈ post, e.action = some .direct) :
    CarriedOut info .direct (dialEffects env dest isUdp iface ++ post) := by
  refine .of_action (by simp [dialEffects]) (fun e he => ?_) (by simp)
  rcases List.mem_append.mp he with he | he
  · exact dial_action he
  · exact h e he

/-- A TCP flow does what its report says. -/
theorem tcpTrace_reported (base64 : Bytes → Str) (h : shared.connCb = true) {decision : Decision}
    (hd : tcpDecision env shared dest = .ok decision) :
    ∃ rest, tcpTrace base64 env shared dest =
        .connection (reportOf shared (factsOf env shared dest false) decision) :: rest ∧
      CarriedOut (reportOf shared (factsOf env shared dest false) decision) decision.action rest := by
  rcases tcpTrace_cases base64 env shared dest with ⟨p, hd', -⟩ | ⟨hd', ht⟩ | ⟨hd', ht⟩ | ⟨id, cfg, hd', htakes, ht⟩ |
    ⟨id, message, hd', -, ht⟩
  all_goals rw [hd] at hd'
  all_goals cases hd'
  all_goals simp only [reportEffects_of_cb h, List.singleton_append] at ht
  · exact ⟨_, ht, carriedOut_block⟩
  · refine ⟨_, ht, carriedOut_dial fun e he => ?_⟩
    split at he
    · rw [List.mem_singleton.mp he]
      rfl
    · cases he
  · refine ⟨_, ht, by simp, fun e he => ?_, fun cfg' target hm => ?_⟩
    · rcases List.mem_cons.mp he with rfl | he
      · rfl
      · rw [List.mem_singleton.mp he]
        rfl
    · obtain ⟨rfl, -⟩ : cfg' = cfg ∧ _ := by simpa using hm
      exact reportTexts_proxy htakes.1
  · refine ⟨_, ht, by simp [failEffects], fun e he => ?_, fun cfg target hm => ?_⟩
    · rcases List.mem_append.mp he with he | he
      · obtain ⟨cfg, -, rfl⟩ := List.mem_map.mp he
        rfl
      · rcases mem_failEffects he with ⟨_, rfl⟩ | rfl
        all_goals rfl
    · rcases List.mem_append.mp hm with hm | hm
      · obtain ⟨cfg', hc, he⟩ := List.mem_map.mp hm
        cases he
        exact reportTexts_proxy (Option.mem_toList.mp hc)
      · rcases mem_failEffects hm with ⟨_, hm⟩ | hm
        all_goals cases hm

/-- A UDP flow is dropped if its report says so, and dialled otherwise. -/
theorem handleUdp_reported (events : List UdpEvent) (h : shared.connCb = true) {decision : Decision}
    (hd : decide shared (factsOf env shared dest true) = .ok decision) :
    ∃ rest, (handleUdp env dest events ⟨shared, []⟩).2.trace =
        .connection (reportOf shared (factsOf env shared dest true) decision) :: rest ∧
      CarriedOut (reportOf shared (factsOf env shared dest true) decision)
        (if decision = .block then .block else .direct) rest := by
  rcases handleUdp_trace env shared dest events with ⟨p, hd', -⟩ | ⟨hd', ht⟩ | ⟨decision', post, hd', hb, ht, hpost⟩
  all_goals rw [hd] at hd'
  all_goals cases hd'
  all_goals simp only [reportEffects_of_cb h, List.singleton_append] at ht
  · exact ⟨_, ht, carriedOut_block⟩
  · rw [if_neg hb]
    refine ⟨_, ht, carriedOut_dial fun e he => ?_⟩
    rcases hpost e he with ⟨_, rfl⟩ | ⟨_, rfl⟩
    all_goals rfl

end Traces

/-- **The callback hears of every decided flow once, first, and truly**: a handler with a decision reports it before it
does anything, and then everything that it does carries out an action. For a TCP flow that is the reported action, and
the proxy that is called is the one in the report. For a UDP flow it is the reported one too, except that a flow reported
as proxied is sent straight out. -/
theorem reports_are_carried_out (base64 : Bytes → Str) (env : FlowEnv) (shared : Shared R) (dest : SocketAddr)
    (events : List UdpEvent) (h : shared.connCb = true) :
    (∀ decision, tcpDecision env shared dest = .ok decision →
      ∃ info rest, tcpTrace base64 env shared dest = .connection info :: rest ∧ info.action = decision.action ∧
        info.destIp = dest.ip ∧ info.destPort = dest.port ∧ info.pid = env.pid.getD 0 ∧
        CarriedOut info info.action rest) ∧
    ∀ decision, decide shared (factsOf env shared dest true) = .ok decision →
      ∃ info rest, (handleUdp env dest events ⟨shared, []⟩).2.trace = .connection info :: rest ∧
        info.action = decision.action ∧ info.destIp = dest.ip ∧ info.destPort = dest.port ∧ info.pid = env.pid.getD 0 ∧
        CarriedOut info (if info.action = .proxy then .direct else info.action) rest := by
  refine ⟨fun decision hd => ?_, fun decision hd => ?_⟩
  · obtain ⟨rest, ht, hdone⟩ := tcpTrace_reported base64 h hd
    have haction := reportTexts_action shared decision
    refine ⟨_, rest, ht, haction, rfl, rfl, rfl, ?_⟩
    rw [show (reportOf shared (factsOf env shared dest false) decision).action = decision.action from haction]
    exact hdone
  · obtain ⟨rest, ht, hdone⟩ := handleUdp_reported events h hd
    have haction := reportTexts_action shared decision
    refine ⟨_, rest, ht, haction, rfl, rfl, rfl, ?_⟩
    have hif : (if (reportOf shared (factsOf env shared dest true) decision).action = .proxy then RuleAction.direct
        else (reportOf shared (factsOf env shared dest true) decision).action) =
        if decision = .block then .block else .direct := by
      change (if (reportTexts shared decision).1 = .proxy then RuleAction.direct else (reportTexts shared decision).1) = _
      rw [haction]
      cases decision with
      | direct => rfl
      | block => rfl
      | proxy id => rfl
    rw [hif]
    exact hdone

/-- A UDP flow that is reported as proxied is dialled. -/
theorem reports_are_carried_out_sample :
    ∃ set, RuleSet.new backslashRegex proxyAllRules = .ok set ∧
      decide (sampleShared set) (factsOf sampleEnv (sampleShared set) ⟨.v4 (.new 192 0 2 1), 5000⟩ true) =
        .ok (.proxy 0) ∧
      ∃ info rest, (handleUdp sampleEnv ⟨.v4 (.new 192 0 2 1), 5000⟩ [] ⟨sampleShared set, []⟩).2.trace =
          .connection info :: rest ∧
        info.action = .proxy ∧ CarriedOut info .direct rest := by
  obtain ⟨set, hs⟩ : ∃ set, RuleSet.new backslashRegex proxyAllRules = .ok set := ⟨_, rfl⟩
  have hd : decide (sampleShared set) (factsOf sampleEnv (sampleShared set) ⟨.v4 (.new 192 0 2 1), 5000⟩ true) =
      .ok (.proxy 0) := by
    cases hs
    decide
  obtain ⟨info, rest, ht, haction, -, -, -, hdone⟩ :=
    (reports_are_carried_out (fun _ => []) sampleEnv (sampleShared set) ⟨.v4 (.new 192 0 2 1), 5000⟩ [] rfl).2 _ hd
  refine ⟨set, hs, hd, info, rest, ht, haction, ?_⟩
  rw [haction] at hdone
  exact hdone

end AceTun
