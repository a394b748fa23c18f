import AceTun.Netstack.LoopGuard
import AceTun.Platform.Intercept

/-!
# Flows that come back to the tunnel

The sockets of the handlers are routed like any other: one that is bound to no interface and whose destination the table
sends into the tunnel comes back as a new flow. `Brings f g` says that the handler of `f` brings `g` into the tunnel that
way, by a direct socket or by the socket to a proxy. Whether `g` is then attributed to our own process is up to the
lookup of its owner.

A flow that is attributed to us brings another one only if its socket could be pinned and the system refused it, and then
it brings itself, over and over (`own_brings`, `brings_self`). So no flow comes back twice as long as those that come back
are attributed to us and pins succeed. A flow to a proxy that is not attributed to us may be sent to that same proxy, and
comes back for ever (`proxied_brings_self`).
-/

namespace AceTun

open RustStd AceTun.Flow

variable {R : RegexCrate}

/-- A flow out of the tunnel, with the shared state when it is handled and what its handler meets. -/
structure TunnelFlow (R : RegexCrate) where
  shared : Shared R
  env : FlowEnv
  dest : SocketAddr
  /-- What the relay of a UDP flow wakes up to; `none` for a TCP flow. -/
  udp : Option (List UdpEvent)

namespace TunnelFlow

/-- What its handler does. -/
def trace (base64 : Bytes → Str) (f : TunnelFlow R) : List Effect :=
  match f.udp with
  | none => tcpTrace base64 f.env f.shared f.dest
  | some events => (handleUdp f.env f.dest events ⟨f.shared, []⟩).2.trace

/-- It is attributed to our own process. -/
def Own (f : TunnelFlow R) : Prop := f.env.pid = some f.shared.currentPid

/-- The system accepts the pin of its socket, if there is an index to pin it to. -/
def PinsSucceed (f : TunnelFlow R) : Prop :=
  ∀ index, f.shared.iface.indexFor f.dest.ip = some index → f.env.bindInterface index f.dest.ip = none

end TunnelFlow

/-- Packets to this address leave through the tunnel if their socket is not bound; loopback stays on the machine. -/
def EntersTunnel (table : Table) (d : IpAddr) : Prop := d.isLoopback = false ∧ table.lookup d = some .tunnel

section Reentry

variable (base64 : Bytes → Str) (table : Table) (resolve : ProxyConfig → List SocketAddr)

/-- The handler of `f` opens a socket that is bound to no interface and comes back as `g`. The socket to a proxy is never
bound, and goes to one of the addresses of the proxy's host. -/
structure Brings (f g : TunnelFlow R) : Prop where
  enters : EntersTunnel table g.dest.ip
  socket : (.connect g.dest none ∈ f.trace base64 ∧ g.udp.isSome = f.udp.isSome) ∨
    ∃ cfg target, .connectViaProxy cfg target ∈ f.trace base64 ∧ g.dest ∈ resolve cfg ∧ g.udp = none

variable {base64 table resolve} {f g : TunnelFlow R}

theorem TunnelFlow.pinPolicy (f : TunnelFlow R) : PinPolicy f.env f.shared f.dest (f.trace base64) := by
  unfold TunnelFlow.trace
  split
  · exact handleTcp_pinPolicy ..
  · exact handleUdp_pinPolicy ..

/-! ## Our own flows -/

/-- A flow of our own that is not dropped is sent straight out. -/
theorem decide_own_direct (isUdp : Bool) (ho : f.Own)
    (hi : ¬ (f.dest.ip.isLoopback = false ∧ f.shared.iface.indexFor f.dest.ip = none)) :
    decide f.shared (factsOf f.env f.shared f.dest isUdp) = .ok .direct := by
  have hp : (factsOf f.env f.shared f.dest isUdp).pid = some f.shared.currentPid := ho
  unfold decide
  rw [if_pos hp, if_neg (by simpa [factsOf] using hi)]

/-- It is dialled and relayed, and nothing else is done for it. -/
theorem trace_own (base64 : Bytes → Str) (ho : f.Own)
    (hi : ¬ (f.dest.ip.isLoopback = false ∧ f.shared.iface.indexFor f.dest.ip = none)) :
    ∃ before after, f.trace base64 = before ++ dialEffects f.env f.dest f.udp.isSome f.shared.iface ++ after ∧
      (∀ e ∈ before, ∃ info, e = .connection info) ∧
      ∀ e ∈ after, e = .relay .direct ∨ (∃ d, e = .send d) ∨ ∃ d, e = .reply d := by
  unfold TunnelFlow.trace
  cases hu : f.udp with
  | none =>
    have hd := decide_own_direct false ho hi
    rcases tcpTrace_cases base64 f.env f.shared f.dest with ⟨p, hd', -⟩ | ⟨hd', -⟩ | ⟨-, ht⟩ | ⟨id, _, hd', -⟩ |
      ⟨id, _, hd', -⟩
    on_goal 3 =>
      refine ⟨_, _, by rw [ht, ← List.append_assoc]; rfl, fun e he => mem_reportEffects he, fun e he => .inl ?_⟩
      split at he
      · exact List.mem_singleton.mp he
      · cases he
    all_goals
      rw [tcpDecision, hd] at hd'
      cases hd'
  | some events =>
    have hd := decide_own_direct true ho hi
    rcases handleUdp_trace f.env f.shared f.dest events with ⟨p, hd', -⟩ | ⟨hd', -⟩ | ⟨decision, post, hd', -, ht, hpost⟩
    · rw [hd] at hd'
      cases hd'
    · rw [hd] at hd'
      cases hd'
    · exact ⟨_, post, ht, fun e he => mem_reportEffects he, fun e he => .inr (hpost e he)⟩

/-- No flow of our own is handed to a proxy. -/
theorem own_not_proxied (ho : f.Own) (cfg : ProxyConfig) (target : Target) :
    .connectViaProxy cfg target ∉ f.trace base64 := by
  intro hm
  by_cases hi : f.dest.ip.isLoopback = false ∧ f.shared.iface.indexFor f.dest.ip = none
  · exact ((f.pinPolicy.own ho hi.1 hi.2).2 _ hm).2 cfg target rfl
  · obtain ⟨before, after, ht, hb, ha⟩ := trace_own base64 ho hi
    rw [ht] at hm
    rcases List.mem_append.mp hm with hm | hm
    · rcases List.mem_append.mp hm with hm | hm
      · obtain ⟨info, hm⟩ := hb _ hm
        cases hm
      · rcases mem_dialEffects hm with hm | hm | ⟨_, _, hm⟩ | hm
        all_goals cases hm
    · rcases ha _ hm with hm | ⟨_, hm⟩ | ⟨_, hm⟩
      all_goals cases hm

/-- A flow of our own connects its destination unbound only if its socket could be opened. -/
theorem own_connect_opened (ho : f.Own)
    (hi : ¬ (f.dest.ip.isLoopback = false ∧ f.shared.iface.indexFor f.dest.ip = none)) {d : SocketAddr}
    {pinned : Option UInt32} (hm : .connect d pinned ∈ f.trace base64) : f.env.openSocket = none := by
  obtain ⟨before, after, ht, hbefore, hafter⟩ := trace_own base64 ho hi
  cases hopen : f.env.openSocket with
  | none => rfl
  | some e =>
    rw [ht] at hm
    simp only [dialEffects, hopen, List.mem_append, List.mem_singleton, reduceCtorEq, or_false] at hm
    rcases hm with hm | hm
    · obtain ⟨info, hm⟩ := hbefore _ hm
      cases hm
    · rcases hafter _ hm with hm | ⟨_, hm⟩ | ⟨_, hm⟩
      all_goals cases hm

/-- The system refuses the pin of this flow's socket, and the table sends it into the tunnel. -/
def PinRefused (table : Table) (f : TunnelFlow R) : Prop :=
  EntersTunnel table f.dest.ip ∧ f.env.openSocket = none ∧
    ∃ index, f.shared.iface.indexFor f.dest.ip = some index ∧ f.env.bindInterface index f.dest.ip ≠ none

/-- **A flow of our own that brings another one had its pin refused**, and the other one has its destination. -/
theorem own_brings (ho : f.Own) (h : Brings base64 table resolve f g) : g.dest = f.dest ∧ PinRefused table f := by
  rcases h.socket with ⟨hm, -⟩ | ⟨cfg, target, hm, -⟩
  · have hdest : g.dest = f.dest := f.pinPolicy.connects _ _ hm
    have henters : EntersTunnel table f.dest.ip := hdest ▸ h.enters
    rw [hdest] at hm
    cases hi : f.shared.iface.indexFor f.dest.ip with
    | none =>
      -- without an index the flow is dropped before a socket is opened
      have := ((f.pinPolicy.own ho henters.1 hi).2 _ hm).1
      cases this
    | some index =>
      have hnone := f.pinPolicy.pinned index hi henters.1 _ _ hm
      exact ⟨hdest, henters, own_connect_opened ho (by simp [hi]) hm, index, hi, fun hb => by simp [hb] at hnone⟩
  · exact absurd hm (own_not_proxied ho cfg target)

/-- A flow of our own whose pin is refused brings itself. -/
theorem brings_self (ho : f.Own) (h : PinRefused table f) : Brings base64 table resolve f f := by
  obtain ⟨henters, hopen, index, hi, hbind⟩ := h
  obtain ⟨before, after, ht, -, -⟩ := trace_own base64 ho (by simp [hi])
  have hpin : pinnedTo f.env f.dest f.shared.iface = none := by
    rw [pinnedTo_of_index hi henters.1, if_neg hbind]
  refine ⟨henters, .inl ⟨?_, rfl⟩⟩
  rw [ht]
  simp [dialEffects, hopen, hpin]

theorem not_brings_of_pins (ho : f.Own) (hp : f.PinsSucceed) : ¬ Brings base64 table resolve f g := by
  intro h
  obtain ⟨-, -, -, index, hi, hbind⟩ := own_brings ho h
  exact hbind (hp index hi)

/-- A flow to the address of the proxy that it is sent to brings itself. -/
theorem proxied_brings_self {cfg : ProxyConfig} {target : Target} (hudp : f.udp = none)
    (henters : EntersTunnel table f.dest.ip) (hm : .connectViaProxy cfg target ∈ f.trace base64)
    (hdest : f.dest ∈ resolve cfg) : Brings base64 table resolve f f :=
  ⟨henters, .inr ⟨cfg, target, hm, hdest, hudp⟩⟩

end Reentry

/-- A flow whose proxy is reached through the tunnel, and the flow that its socket comes back as. -/
example : ∃ set, RuleSet.new backslashRegex proxyAllRules = .ok set ∧
    [(⟨sampleShared set, sampleEnv, ⟨.v4 (.new 192 0 2 1), 443⟩, none⟩ : TunnelFlow backslashRegex),
      ⟨sampleShared set, { sampleEnv with pid := some 1 }, ⟨.v4 (.new 198 51 100 7), 8080⟩, none⟩].IsChain
      (Brings (fun _ => []) (fun _ => some .tunnel) fun _ => [⟨.v4 (.new 198 51 100 7), 8080⟩]) := by
  obtain ⟨set, hs⟩ : ∃ set, RuleSet.new backslashRegex proxyAllRules = .ok set := ⟨_, rfl⟩
  have htold : .connectViaProxy (.http "127.0.0.1".toList 8080) (.ip (.v4 (.new 192 0 2 1)) 443) ∈
      tcpTrace (fun _ => []) sampleEnv (sampleShared set) ⟨.v4 (.new 192 0 2 1), 443⟩ := by
    cases hs
    decide
  have henters : EntersTunnel (fun _ => some .tunnel) (.v4 (.new 198 51 100 7)) := ⟨by decide, by decide⟩
  exact ⟨set, hs, List.isChain_pair.mpr ⟨henters, .inr ⟨_, _, htold, List.mem_singleton_self _, rfl⟩⟩⟩

end AceTun
