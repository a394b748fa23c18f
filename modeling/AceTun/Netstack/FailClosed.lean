import AceTun.Netstack.Trace
import AceTun.Rule.FirstMatch

/-!
# Proxied flows

Once a rule selects a proxy, the flow reaches that proxy or nothing: a TCP handler dials the destination only if it was
decided so, relays to the proxy only after the proxy took the flow, and otherwise closes it and counts it
(`handleTcp_failClosed`).

Which target the proxy is told depends on the gate of the name lookup: the cached name is used only if some rule has a
domain filter (`handleTcp_target_iff_domainRules`).
-/

namespace AceTun

open RustStd AceTun.Flow

variable {R : RegexCrate}

/-! ## What is in a trace -/

/-- Client bytes leave through this effect. -/
def Effect.forwards : Effect → Bool
  | .relay _ => true
  | .send _ => true
  | _ => false

theorem mem_reportEffects {shared : Shared R} {facts : FlowFacts} {decision : Decision} {e : Effect}
    (h : e ∈ reportEffects shared facts decision) : ∃ info, e = .connection info := by
  unfold reportEffects at h
  split at h
  · exact ⟨_, List.mem_singleton.mp h⟩
  · cases h

theorem mem_failEffects {shared : Shared R} {message : Str} {e : Effect} (h : e ∈ failEffects shared message) :
    (∃ m, e = .log m) ∨ e = .shutdown := by
  rcases List.mem_append.mp h with h | h
  · unfold logEffects at h
    split at h
    · exact .inl ⟨_, List.mem_singleton.mp h⟩
    · cases h
  · exact .inr (List.mem_singleton.mp h)

theorem mem_pinEffects {env : FlowEnv} {dest : SocketAddr} {iface : PhysicalInterface} {e : Effect}
    (h : e ∈ pinEffects env dest iface) : ∃ index ok, e = .pin index dest.ip ok := by
  unfold pinEffects at h
  split at h
  · cases h
  · exact ⟨_, _, List.mem_singleton.mp h⟩

/-- A dial is announced, and then a socket is opened, pinned and connected. -/
theorem mem_dialEffects {env : FlowEnv} {dest : SocketAddr} {isUdp : Bool} {iface : PhysicalInterface} {e : Effect}
    (h : e ∈ dialEffects env dest isUdp iface) :
    e = .dial dest isUdp ∨ e = .opened dest isUdp ∨ (∃ index ok, e = .pin index dest.ip ok) ∨
      e = .connect dest (pinnedTo env dest iface) := by
  unfold dialEffects at h
  rcases List.mem_cons.mp h with h | h
  · exact .inl h
  · cases hs : env.openSocket with
    | some e' => rw [hs] at h; cases h
    | none =>
      simp only [hs, List.cons_append, List.mem_cons, List.mem_append, List.not_mem_nil, or_false] at h
      rcases h with h | h | h
      · exact .inr (.inl h)
      · exact .inr (.inr (.inl (mem_pinEffects h)))
      · exact .inr (.inr (.inr h))

/-! ## Failing closed -/

section FailClosed

variable (base64 : Bytes → Str) (env : FlowEnv) (shared : Shared R) (dest : SocketAddr)

/-- How the TCP flow is decided. -/
def tcpDecision : Except Panic Decision := decide shared (factsOf env shared dest false)

/-- What its handler does. -/
def tcpTrace : List Effect := (handleTcp base64 env dest ⟨shared, []⟩).2.trace

/-- The target that the handler tells a proxy. -/
def tcpTarget (cfg : ProxyConfig) : Target := targetFor cfg (domainFor shared env.now dest.ip) dest

/-- The proxy with this id is configured, and `connect_via_proxy` succeeds on it. -/
def ProxyTakes (id : UInt32) (cfg : ProxyConfig) : Prop :=
  shared.findProxyConfig id = some cfg ∧
    ∃ stream, proxyOutcome base64 env cfg (tcpTarget env shared dest cfg) = .ok stream

/-- The call of `connect_via_proxy`, if the proxy is configured. -/
def triedEffects (id : UInt32) : List Effect :=
  (shared.findProxyConfig id).toList.map fun cfg => .connectViaProxy cfg (tcpTarget env shared dest cfg)

/-- What a proxied flow is promised. -/
structure FailsClosed : Prop where
  /-- The destination is dialled exactly for `Direct`. -/
  dials : ∀ d isUdp, .dial d isUdp ∈ tcpTrace base64 env shared dest ↔
    d = dest ∧ isUdp = false ∧ tcpDecision env shared dest = .ok .direct
  /-- A relay to the proxy begins after `connect_via_proxy` was called and succeeded. -/
  relays : ∀ pre post, tcpTrace base64 env shared dest = pre ++ .relay .proxy :: post →
    ∃ id cfg, tcpDecision env shared dest = .ok (.proxy id) ∧ ProxyTakes base64 env shared dest id cfg ∧
      .connectViaProxy cfg (tcpTarget env shared dest cfg) ∈ pre
  /-- A flow for a proxy that does not take it is shut down, forwards nothing and is counted twice. -/
  closes : ∀ id, tcpDecision env shared dest = .ok (.proxy id) → (∀ cfg, ¬ ProxyTakes base64 env shared dest id cfg) →
    .shutdown ∈ tcpTrace base64 env shared dest ∧ (∀ e ∈ tcpTrace base64 env shared dest, e.forwards = false) ∧
      (handleTcp base64 env dest ⟨shared, []⟩).2.shared.stats =
        { shared.stats with
          blocked := shared.stats.blocked + 1, proxyFallbacks := shared.stats.proxyFallbacks + 1 }

end FailClosed

section Proofs

variable {base64 : Bytes → Str} {env : FlowEnv} {shared : Shared R} {dest : SocketAddr}

/-- The effects and the counters of a proxied flow that is not taken. -/
theorem handleTcp_not_taken {id : UInt32} (hd : tcpDecision env shared dest = .ok (.proxy id))
    (hno : ∀ cfg, ¬ ProxyTakes base64 env shared dest id cfg) :
    ∃ message, (handleTcp base64 env dest ⟨shared, []⟩).2 =
      (FlowState.counted ⟨shared, reportEffects shared (factsOf env shared dest false) (.proxy id)⟩ countFallback).add
        (triedEffects env shared dest id ++ failEffects shared message) := by
  rw [handleTcp_run base64 env hd, carryOutTcp, triedEffects]
  cases hc : shared.findProxyConfig id with
  | none =>
    obtain ⟨message, h⟩ := handleProxied_missing base64 env shared (factsOf env shared dest false) _ hc
    exact ⟨message, h⟩
  | some cfg =>
    rcases proxyOutcome_ends base64 env cfg (tcpTarget env shared dest cfg) with ho | ⟨e, he⟩
    · exact absurd ⟨hc, ho⟩ (hno cfg)
    · obtain ⟨message, h⟩ := handleProxied_failed base64 env shared (factsOf env shared dest false) _ hc he
      exact ⟨message, h⟩

/-- **Every TCP handler does one of five things.** -/
theorem tcpTrace_cases (base64 : Bytes → Str) (env : FlowEnv) (shared : Shared R) (dest : SocketAddr) :
    (∃ p, tcpDecision env shared dest = .error p ∧ tcpTrace base64 env shared dest = []) ∨
    (tcpDecision env shared dest = .ok .block ∧
      tcpTrace base64 env shared dest = reportEffects shared (factsOf env shared dest false) .block ++ [.dropStream]) ∨
    (tcpDecision env shared dest = .ok .direct ∧
      tcpTrace base64 env shared dest = reportEffects shared (factsOf env shared dest false) .direct ++
        (dialEffects env dest false shared.iface ++ if tcpDialOutcome env = .ok () then [.relay .direct] else [])) ∨
    (∃ id cfg, tcpDecision env shared dest = .ok (.proxy id) ∧ ProxyTakes base64 env shared dest id cfg ∧
      tcpTrace base64 env shared dest = reportEffects shared (factsOf env shared dest false) (.proxy id) ++
        [.connectViaProxy cfg (tcpTarget env shared dest cfg), .relay .proxy]) ∨
    (∃ id message, tcpDecision env shared dest = .ok (.proxy id) ∧ (∀ cfg, ¬ ProxyTakes base64 env shared dest id cfg) ∧
      tcpTrace base64 env shared dest = reportEffects shared (factsOf env shared dest false) (.proxy id) ++
        (triedEffects env shared dest id ++ failEffects shared message)) := by
  cases hd : tcpDecision env shared dest with
  | error p => exact .inl ⟨p, rfl, by rw [tcpTrace, handleTcp_panic base64 env hd]⟩
  | ok decision =>
    have hrun := handleTcp_run base64 env hd
    refine .inr ?_
    cases decision with
    | block =>
      refine .inl ⟨rfl, ?_⟩
      rw [tcpTrace, hrun, carryOutTcp_block]
      rfl
    | direct =>
      refine .inr (.inl ⟨rfl, ?_⟩)
      rw [tcpTrace, hrun, carryOutTcp_direct]
      rfl
    | proxy id =>
      refine .inr (.inr ?_)
      by_cases htakes : ∃ cfg, ProxyTakes base64 env shared dest id cfg
      · obtain ⟨cfg, hc, stream, ho⟩ := htakes
        refine .inl ⟨id, cfg, rfl, ⟨hc, stream, ho⟩, ?_⟩
        have h := handleProxied_relayed base64 env shared (factsOf env shared dest false)
          ⟨shared, reportEffects shared (factsOf env shared dest false) (.proxy id)⟩ hc ho
        rw [tcpTrace, hrun, carryOutTcp, h]
        rfl
      · have hno : ∀ cfg, ¬ ProxyTakes base64 env shared dest id cfg := fun cfg h => htakes ⟨cfg, h⟩
        obtain ⟨message, h⟩ := handleTcp_not_taken hd hno
        refine .inr ⟨id, message, rfl, hno, ?_⟩
        rw [tcpTrace, h]
        rfl

/-- What can stand in the trace of a TCP handler, and for which decision. -/
theorem mem_tcpTrace {e : Effect} (h : e ∈ tcpTrace base64 env shared dest) :
    (∃ info, e = .connection info) ∨ e = .dropStream ∨
    (tcpDecision env shared dest = .ok .direct ∧
      (e ∈ dialEffects env dest false shared.iface ∨ e = .relay .direct)) ∨
    ∃ id, tcpDecision env shared dest = .ok (.proxy id) ∧
      ((∃ cfg target, e = .connectViaProxy cfg target) ∨
        (e = .relay .proxy ∧ ∃ cfg, ProxyTakes base64 env shared dest id cfg) ∨ (∃ m, e = .log m) ∨ e = .shutdown) := by
  rcases tcpTrace_cases base64 env shared dest with ⟨p, hd, ht⟩ | ⟨hd, ht⟩ | ⟨hd, ht⟩ | ⟨id, cfg, hd, htakes, ht⟩ |
    ⟨id, message, hd, -, ht⟩
  · rw [ht] at h
    cases h
  · rw [ht] at h
    rcases List.mem_append.mp h with h | h
    · exact .inl (mem_reportEffects h)
    · exact .inr (.inl (List.mem_singleton.mp h))
  · rw [ht] at h
    rcases List.mem_append.mp h with h | h
    · exact .inl (mem_reportEffects h)
    · refine .inr (.inr (.inl ⟨hd, ?_⟩))
      rcases List.mem_append.mp h with h | h
      · exact .inl h
      · split at h
        · exact .inr (List.mem_singleton.mp h)
        · cases h
  · rw [ht] at h
    rcases List.mem_append.mp h with h | h
    · exact .inl (mem_reportEffects h)
    · refine .inr (.inr (.inr ⟨id, hd, ?_⟩))
      rcases List.mem_cons.mp h with h | h
      · exact .inl ⟨_, _, h⟩
      · exact .inr (.inl ⟨List.mem_singleton.mp h, cfg, htakes⟩)
  · rw [ht] at h
    rcases List.mem_append.mp h with h | h
    · exact .inl (mem_reportEffects h)
    · refine .inr (.inr (.inr ⟨id, hd, ?_⟩))
      rcases List.mem_append.mp h with h | h
      · obtain ⟨cfg, -, rfl⟩ := List.mem_map.mp h
        exact .inl ⟨_, _, rfl⟩
      · exact .inr (.inr (mem_failEffects h))

/-- A dial stands in the trace of a direct flow, and nowhere else. -/
theorem dial_mem_tcpTrace (d : SocketAddr) (isUdp : Bool) :
    .dial d isUdp ∈ tcpTrace base64 env shared dest ↔
      d = dest ∧ isUdp = false ∧ tcpDecision env shared dest = .ok .direct := by
  constructor
  · intro h
    rcases mem_tcpTrace h with ⟨_, h⟩ | h | ⟨hd, h | h⟩ | ⟨_, _, ⟨_, _, h⟩ | ⟨h, _⟩ | ⟨_, h⟩ | h⟩
    on_goal 3 =>
      rcases mem_dialEffects h with h | h | ⟨_, _, h⟩ | h
      · cases h
        exact ⟨rfl, rfl, hd⟩
      · cases h
      · cases h
      · cases h
    all_goals cases h
  · rintro ⟨rfl, rfl, hd⟩
    rcases tcpTrace_cases base64 env shared d with ⟨p, hd', -⟩ | ⟨hd', -⟩ | ⟨-, ht⟩ | ⟨id, cfg, hd', -, -⟩ |
      ⟨id, message, hd', -, -⟩
    on_goal 3 =>
      rw [ht]
      exact List.mem_append_right _ (List.mem_append_left _ List.mem_cons_self)
    all_goals
      rw [hd] at hd'
      cases hd'

/-- A relay to a proxy needs a proxy that takes the flow. -/
theorem takes_of_relay_mem (h : .relay .proxy ∈ tcpTrace base64 env shared dest) :
    ∃ id, tcpDecision env shared dest = .ok (.proxy id) ∧ ∃ cfg, ProxyTakes base64 env shared dest id cfg := by
  rcases mem_tcpTrace h with ⟨_, h⟩ | h | ⟨_, h | h⟩ | ⟨id, hd, ⟨_, _, h⟩ | ⟨-, htakes⟩ | ⟨_, h⟩ | h⟩
  on_goal 6 => exact ⟨id, hd, htakes⟩
  on_goal 3 => rcases mem_dialEffects h with h | h | ⟨_, _, h⟩ | h
  all_goals cases h

/-- A relay to the proxy stands after the call that the proxy answered. -/
theorem relay_after_connect {pre post : List Effect}
    (h : tcpTrace base64 env shared dest = pre ++ .relay .proxy :: post) :
    ∃ id cfg, tcpDecision env shared dest = .ok (.proxy id) ∧ ProxyTakes base64 env shared dest id cfg ∧
      .connectViaProxy cfg (tcpTarget env shared dest cfg) ∈ pre := by
  obtain ⟨id, hd, cfg, htakes⟩ := takes_of_relay_mem (by rw [h]; simp)
  rcases tcpTrace_cases base64 env shared dest with ⟨p, hd', -⟩ | ⟨hd', -⟩ | ⟨hd', -⟩ | ⟨id', cfg', hd', htakes', ht⟩ |
    ⟨id', message, hd', hno, -⟩
  on_goal 4 =>
    refine ⟨id', cfg', hd', htakes', ?_⟩
    -- the relay is the last effect, and the call stands right before it
    have hnot : Effect.relay .proxy ∉ reportEffects shared (factsOf env shared dest false) (.proxy id') ++
        [.connectViaProxy cfg' (tcpTarget env shared dest cfg')] := by
      intro hm
      rcases List.mem_append.mp hm with hm | hm
      · obtain ⟨_, hm⟩ := mem_reportEffects hm
        cases hm
      · cases List.mem_singleton.mp hm
    rw [ht, List.append_cons] at h
    obtain ⟨hpre, -, -⟩ := (List.append_cons_inj_of_notMem hnot (by simp)).mp h
    rw [← hpre]
    simp
  all_goals
    rw [hd] at hd'
    cases hd'
  exact absurd htakes (hno cfg)

/-- A proxied flow that is not taken is shut down, forwards nothing and moves both counters. -/
theorem closes_not_taken {id : UInt32} (hd : tcpDecision env shared dest = .ok (.proxy id))
    (hno : ∀ cfg, ¬ ProxyTakes base64 env shared dest id cfg) :
    .shutdown ∈ tcpTrace base64 env shared dest ∧ (∀ e ∈ tcpTrace base64 env shared dest, e.forwards = false) ∧
      (handleTcp base64 env dest ⟨shared, []⟩).2.shared.stats =
        { shared.stats with
          blocked := shared.stats.blocked + 1, proxyFallbacks := shared.stats.proxyFallbacks + 1 } := by
  obtain ⟨message, h⟩ := handleTcp_not_taken hd hno
  refine ⟨?_, ?_, ?_⟩
  · rw [tcpTrace, h]
    simp [failEffects]
  · intro e he
    rcases mem_tcpTrace he with ⟨_, rfl⟩ | rfl | ⟨hd', -⟩ | ⟨id', hd', ⟨_, _, rfl⟩ | ⟨-, cfg, htakes⟩ | ⟨_, rfl⟩ | rfl⟩
    · rfl
    · rfl
    · rw [hd] at hd'
      cases hd'
    · rfl
    · rw [hd] at hd'
      cases hd'
      exact absurd htakes (hno cfg)
    · rfl
    · rfl
  · rw [h]
    rfl

end Proofs

/-- **Proxied flows fail closed.** For every state, flow and behaviour of the proxy: the destination is dialled exactly
for `Direct`; a relay to the proxy begins only after `connect_via_proxy` succeeded; and a flow whose proxy did not take
it is shut down, with nothing forwarded and both counters one higher. -/
theorem handleTcp_failClosed (base64 : Bytes → Str) (env : FlowEnv) (shared : Shared R) (dest : SocketAddr) :
    FailsClosed base64 env shared dest where
  dials := dial_mem_tcpTrace
  relays _ _ := relay_after_connect
  closes _ := closes_not_taken

/-! ## The name the proxy is told -/

/-- The target handed to `connect_via_proxy`. -/
def handedTarget (trace : List Effect) : Option Target :=
  trace.findSome? fun
    | .connectViaProxy _ target => some target
    | _ => none

section Target

variable {base64 : Bytes → Str} {env : FlowEnv} {shared : Shared R} {dest : SocketAddr}

theorem handedTarget_report (facts : FlowFacts) (decision : Decision) (rest : List Effect) :
    handedTarget (reportEffects shared facts decision ++ rest) = handedTarget rest := by
  unfold reportEffects
  split
  · rfl
  · rfl

/-- A flow that is decided for a configured proxy hands it the target. -/
theorem handedTarget_tcpTrace {id : UInt32} {cfg : ProxyConfig} (hd : tcpDecision env shared dest = .ok (.proxy id))
    (hc : shared.findProxyConfig id = some cfg) :
    handedTarget (tcpTrace base64 env shared dest) = some (tcpTarget env shared dest cfg) := by
  rcases tcpTrace_cases base64 env shared dest with ⟨p, hd', -⟩ | ⟨hd', -⟩ | ⟨hd', -⟩ | ⟨id', cfg', hd', htakes, ht⟩ |
    ⟨id', message, hd', -, ht⟩
  all_goals
    rw [hd] at hd'
    cases hd'
  · obtain rfl : cfg = cfg' := Option.some.inj (hc.symm.trans htakes.1)
    rw [ht, handedTarget_report]
    rfl
  · rw [ht, handedTarget_report, triedEffects, hc]
    rfl

/-- **When a known name reaches the proxy.** For a flow that is decided for a proxy which takes names, and whose
destination has a live name in the cache, the proxy is told that name exactly when some rule has a domain filter. -/
theorem handleTcp_target_iff_domainRules {rules : List Rule} (hr : RuleSet.new R rules = .ok shared.rules)
    {id : UInt32} {cfg : ProxyConfig} {d : Str} (hd : tcpDecision env shared dest = .ok (.proxy id))
    (hc : shared.findProxyConfig id = some cfg) (hsend : cfg.sendDomainToProxy = true)
    (hl : shared.dnsCache.lookup env.now dest.ip = some d) :
    handedTarget (tcpTrace base64 env shared dest) = some (.domain d dest.port) ↔
      ∃ rule ∈ rules, isMatchAll rule.domains = false := by
  rw [handedTarget_tcpTrace hd hc, ← RuleSet.needsDomainResolution_iff hr, tcpTarget, domainFor]
  cases shared.rules.needsDomainResolution with
  | true => simp [targetFor, hsend, hl]
  | false => simp [targetFor]

end Target

/-- An engine with one proxy and one cached name, where nothing has been counted. -/
def sampleShared (rules : RuleSet R) : Shared R where
  running := true
  ifaceCell := some ⟨some 12, some 12⟩
  rules
  proxyConfigs := [.http "127.0.0.1".toList 8080]
  dnsCache := (DnsCache.new DNS_CACHE_TTL).store 0 (.v4 (.new 192 0 2 1)) "intranet".toList
  localhostViaProxy := false
  quicPort := 443
  quicPolicy := .drop
  currentPid := 1
  stats := ⟨0, 0, 0, 0, 0, 0, 0⟩
  logCb := true
  connCb := true

/-- A flow of another process, on a system where every call succeeds but the proxy refuses connections. -/
def sampleEnv : FlowEnv where
  os := .linux
  pid := some 999
  processName _ := some "Chrome".toList
  now := 1
  openSocket := none
  bindInterface _ _ := none
  connect := .ok ()
  connectExpired := false
  upstream := .error ⟨.connectionRefused, "connection refused".toList⟩
  upstreamExpired := false
  relay := .ok ()

/-- Proxy what goes to one domain. -/
def intranetRules : List Rule := [{ Rule.new "*".toList with domains := "intranet".toList, action := .proxy }]

/-- Proxy everything. -/
def proxyAllRules : List Rule := [{ Rule.new "*".toList with action := .proxy }]

/-- With a domain filter, the cached name is told. -/
theorem target_is_name_with_filter :
    ∃ set, RuleSet.new backslashRegex intranetRules = .ok set ∧
      handedTarget (tcpTrace (fun _ => []) sampleEnv (sampleShared set) ⟨.v4 (.new 192 0 2 1), 443⟩) =
        some (.domain "intranet".toList 443) := by
  obtain ⟨set, hs⟩ : ∃ set, RuleSet.new backslashRegex intranetRules = .ok set := ⟨_, rfl⟩
  refine ⟨set, hs, ?_⟩
  have hd : tcpDecision sampleEnv (sampleShared set) ⟨.v4 (.new 192 0 2 1), 443⟩ = .ok (.proxy 0) := by
    cases hs
    decide
  have hiff := @handleTcp_target_iff_domainRules backslashRegex (fun _ => []) sampleEnv (sampleShared set) _ _ hs 0 _ _ hd
    rfl rfl rfl
  exact hiff.mpr ⟨_, List.mem_cons_self, by decide⟩

/-- **Without one, the proxy is told the address**, although the name is known. -/
theorem target_is_address_without_filter :
    ∃ set, RuleSet.new backslashRegex proxyAllRules = .ok set ∧
      tcpDecision sampleEnv (sampleShared set) ⟨.v4 (.new 192 0 2 1), 443⟩ = .ok (.proxy 0) ∧
      (sampleShared set).findProxyConfig 0 = some (.http "127.0.0.1".toList 8080) ∧
      (sampleShared set).dnsCache.lookup sampleEnv.now (.v4 (.new 192 0 2 1)) = some "intranet".toList ∧
      handedTarget (tcpTrace (fun _ => []) sampleEnv (sampleShared set) ⟨.v4 (.new 192 0 2 1), 443⟩) =
        some (.ip (.v4 (.new 192 0 2 1)) 443) :=
  ⟨_, rfl, by decide, by decide, by decide, by decide⟩

end AceTun
