import AceTun.Netstack.Handle

/-!
# The trace of a handler

Each step of a handler appends to the trace what it does. `handleTcp_run` says what a whole TCP handler does: from the
decision, the outcome of the dial and the outcome at the proxy, its effects and the counters it moves. A UDP handler
drops the flow or dials once (`handleUdp_trace`), and its relay loop opens nothing (`relayUdp_trace`).
-/

namespace AceTun

open RustStd AceTun.Flow

variable {R : RegexCrate}

/-- The state with more effects. -/
def FlowState.add (s : FlowState R) (effects : List Effect) : FlowState R := { s with trace := s.trace ++ effects }

/-- The state with its counters changed. -/
def FlowState.counted (s : FlowState R) (f : Stats → Stats) : FlowState R :=
  { s with shared := { s.shared with stats := f s.shared.stats } }

namespace FlowState

variable (s : FlowState R)

@[simp] theorem add_nil : s.add [] = s := by simp [add]

@[simp] theorem add_add (es es' : List Effect) : (s.add es).add es' = s.add (es ++ es') := by simp [add]

@[simp] theorem add_trace (es : List Effect) : (s.add es).trace = s.trace ++ es := rfl

theorem add_counted_add (es es' : List Effect) (f : Stats → Stats) :
    ((s.add es).counted f).add es' = (s.counted f).add (es ++ es') := by
  simp [add, counted]

@[simp] theorem counted_trace (f : Stats → Stats) : (s.counted f).trace = s.trace := rfl

end FlowState

theorem emit_run (e : Effect) (s : FlowState R) : emit e s = (.ok (), s.add [e]) := rfl

theorem get_run (s : FlowState R) : get s = (.ok s.shared, s) := rfl

theorem count_run (f : Stats → Stats) (s : FlowState R) : count f s = (.ok (), s.counted f) := rfl

/-! ## Dialling -/

section Dial

variable (env : FlowEnv) (dest : SocketAddr) (isUdp : Bool) (iface : PhysicalInterface) (s : FlowState R)

def pinEffects : List Effect :=
  match iface.indexFor dest.ip with
  | none => []
  | some index => [.pin index dest.ip (pinSocket env index dest.ip).isOk]

/-- The interface that the socket is pinned to when it is connected. -/
def pinnedTo : Option UInt32 :=
  match iface.indexFor dest.ip with
  | none => none
  | some index => if pinSocket env index dest.ip = .ok true then some index else none

def dialEffects : List Effect :=
  .dial dest isUdp ::
    match env.openSocket with
    | some _ => []
    | none => .opened dest isUdp :: pinEffects env dest iface ++ [.connect dest (pinnedTo env dest iface)]

/-- How a dial ends, by how the connect call does. -/
def dialOutcome (connected : Poll Unit) : Poll Unit :=
  match env.openSocket with
  | some e => .err e
  | none => connected

theorem pinFor_run : pinFor env dest iface s = (.ok (pinnedTo env dest iface), s.add (pinEffects env dest iface)) := by
  unfold pinFor pinnedTo pinEffects
  cases iface.indexFor dest.ip with
  | none => simp
  | some index => exact Async.bind_of_ok (emit_run _ s)

/-- Both dials, up to how long they wait for the connect call. -/
theorem dial_run (connected : Poll Unit) :
    (do
      emit (.dial dest isUdp)
      openFor env dest isUdp
      let pinned ← pinFor env dest iface
      emit (.connect dest pinned)
      Async.wait connected : Flow R Unit) s =
      (dialOutcome env connected, s.add (dialEffects env dest isUdp iface)) := by
  unfold dialOutcome dialEffects openFor
  rw [Async.bind_of_ok (emit_run _ s)]
  cases env.openSocket with
  | some e => exact Async.bind_of_err rfl
  | none =>
    rw [Async.bind_of_ok (emit_run _ _), Async.bind_of_ok (pinFor_run env dest iface _), Async.bind_of_ok (emit_run _ _)]
    simp [Async.wait]

theorem dialTcp_run :
    dialTcp env dest iface s =
      (dialOutcome env (timeout ⟨.timedOut, "outbound connect timed out".toList⟩ env.connectExpired (result env.connect)),
        s.add (dialEffects env dest false iface)) :=
  dial_run ..

theorem dialUdp_run :
    dialUdp env dest iface s = (dialOutcome env (result env.connect), s.add (dialEffects env dest true iface)) :=
  dial_run ..

end Dial

/-! ## Reporting and failing closed -/

def reportEffects (shared : Shared R) (facts : FlowFacts) (decision : Decision) : List Effect :=
  if shared.connCb then
    [.connection {
      processName := facts.processName
      pid := facts.pid.getD 0
      destIp := facts.dest.ip
      destPort := facts.dest.port
      action := (reportTexts shared decision).1
      proxyInfo := (reportTexts shared decision).2 }]
  else []

def logEffects (shared : Shared R) (message : Str) : List Effect := if shared.logCb then [.log message] else []

theorem report_run (shared : Shared R) (facts : FlowFacts) (decision : Decision) (s : FlowState R) :
    report shared facts decision s = (.ok (), s.add (reportEffects shared facts decision)) := by
  unfold report reportEffects
  cases shared.connCb with
  | false => simp
  | true => rfl

theorem log_run (message : Str) (s : FlowState R) :
    Flow.log message s = (.ok (), s.add (logEffects s.shared message)) := by
  unfold Flow.log logEffects
  cases s.shared.logCb with
  | false => simp
  | true => rfl

/-- Both counters of a flow that is closed because its proxy is not there. -/
def countFallback (st : Stats) : Stats :=
  { st with proxyFallbacks := st.proxyFallbacks + 1, blocked := st.blocked + 1 }

def failEffects (shared : Shared R) (message : Str) : List Effect := logEffects shared message ++ [.shutdown]

theorem failClosed_run (message : Str) (s : FlowState R) :
    failClosed message s = (.ok (), (s.counted countFallback).add (failEffects s.shared message)) := by
  unfold failClosed
  rw [Async.bind_of_ok (count_run _ s), Async.bind_of_ok (count_run _ _), Async.bind_of_ok (log_run _ _), emit_run]
  rw [FlowState.add_add]
  rfl

/-! ## Deciding -/

section Decided

variable {shared : Shared R} {facts : FlowFacts} (s : FlowState R)

theorem decided_run {decision : Decision} (h : decide shared facts = .ok decision) :
    Async.wait (decided shared facts) s = (.ok decision, s) := by
  rw [decided, h]
  rfl

theorem decided_panic {p : Panic} (h : decide shared facts = .error p) :
    Async.wait (decided shared facts) s = (.panic, s) := by
  rw [decided, h]
  rfl

end Decided

/-! ## TCP -/

section Tcp

variable (base64 : Bytes → Str) (env : FlowEnv) (shared : Shared R) (facts : FlowFacts) (s : FlowState R)

/-- How the dial of a TCP flow ends. -/
def tcpDialOutcome : Poll Unit :=
  dialOutcome env (timeout ⟨.timedOut, "outbound connect timed out".toList⟩ env.connectExpired (result env.connect))

theorem carryOutTcp_block :
    (carryOutTcp base64 env shared facts .block s).2 =
      (s.counted fun st => { st with blocked := st.blocked + 1 }).add [.dropStream] := by
  rw [carryOutTcp, Async.bind_of_ok (count_run _ s), emit_run]

/-- A direct flow is dialled, and relayed if that succeeds. -/
theorem carryOutTcp_direct :
    (carryOutTcp base64 env shared facts .direct s).2 =
      s.add (dialEffects env facts.dest false shared.iface ++
        if tcpDialOutcome env = .ok () then [.relay .direct] else []) := by
  have hdial : dialTcp env facts.dest shared.iface s =
      (tcpDialOutcome env, s.add (dialEffects env facts.dest false shared.iface)) := dialTcp_run ..
  rw [carryOutTcp]
  by_cases h : tcpDialOutcome env = .ok ()
  · rw [h] at hdial
    rw [Async.bind_of_ok hdial, Async.bind_of_ok (emit_run _ _), FlowState.add_add, if_pos h]
    rfl
  · rw [Async.bind_snd_of_ne_ok fun a ha => h (by rw [hdial] at ha; exact ha), hdial, if_neg h, List.append_nil]

theorem connectViaProxy_run (cfg : ProxyConfig) (target : Target) :
    connectViaProxy base64 env cfg target s =
      (proxyOutcome base64 env cfg target, s.add [.connectViaProxy cfg target]) := by
  rw [connectViaProxy, Async.bind_of_ok (emit_run _ s)]
  rfl

/-- A flow whose proxy is not configured is closed. -/
theorem handleProxied_missing {id : UInt32} (h : shared.findProxyConfig id = none) :
    ∃ message, (handleProxied base64 env shared facts id s).2 =
      (s.counted countFallback).add (failEffects s.shared message) := by
  unfold handleProxied
  rw [h]
  exact ⟨_, congrArg Prod.snd (failClosed_run _ s)⟩

/-- A flow that the proxy takes is relayed to it. -/
theorem handleProxied_relayed {id : UInt32} {cfg : ProxyConfig} {stream : TcpStream}
    (hc : shared.findProxyConfig id = some cfg)
    (ho : proxyOutcome base64 env cfg (targetFor cfg facts.domain facts.dest) = .ok stream) :
    (handleProxied base64 env shared facts id s).2 =
      s.add [.connectViaProxy cfg (targetFor cfg facts.domain facts.dest), .relay .proxy] := by
  have hrun := connectViaProxy_run base64 env s cfg (targetFor cfg facts.domain facts.dest)
  rw [ho] at hrun
  unfold handleProxied
  rw [hc]
  change ((Async.attempt _ >>= _) s).2 = _
  rw [Async.bind_of_ok (Async.attempt_of_ok hrun)]
  change ((emit _ >>= _) _).2 = _
  rw [Async.bind_of_ok (emit_run _ _), FlowState.add_add]
  rfl

/-- A flow that the proxy does not take is closed. -/
theorem handleProxied_failed {id : UInt32} {cfg : ProxyConfig} {e : IoError} (hc : shared.findProxyConfig id = some cfg)
    (ho : proxyOutcome base64 env cfg (targetFor cfg facts.domain facts.dest) = .err e) :
    ∃ message, (handleProxied base64 env shared facts id s).2 =
      (s.counted countFallback).add
        (.connectViaProxy cfg (targetFor cfg facts.domain facts.dest) :: failEffects s.shared message) := by
  have hrun := connectViaProxy_run base64 env s cfg (targetFor cfg facts.domain facts.dest)
  rw [ho] at hrun
  unfold handleProxied
  rw [hc]
  change ∃ message, ((Async.attempt _ >>= _) s).2 = _
  rw [Async.bind_of_ok (Async.attempt_of_err hrun)]
  exact ⟨_, (congrArg Prod.snd (failClosed_run _ _)).trans (FlowState.add_counted_add ..)⟩

variable {shared}

/-- If deciding panics, so does the handler, before it has done anything. -/
theorem handleTcp_panic {dest : SocketAddr} {p : Panic} (h : decide shared (factsOf env shared dest false) = .error p) :
    handleTcp base64 env dest ⟨shared, []⟩ = (.panic, ⟨shared, []⟩) :=
  (Async.bind_of_ok (get_run _)).trans (Async.bind_of_panic (decided_panic _ h))

/-- **A TCP handler** decides, reports and carries the decision out. -/
theorem handleTcp_run {dest : SocketAddr} {decision : Decision}
    (h : decide shared (factsOf env shared dest false) = .ok decision) :
    handleTcp base64 env dest ⟨shared, []⟩ =
      carryOutTcp base64 env shared (factsOf env shared dest false) decision
        ⟨shared, reportEffects shared (factsOf env shared dest false) decision⟩ := by
  refine (Async.bind_of_ok (get_run _)).trans ?_
  refine (Async.bind_of_ok (decided_run _ h)).trans ?_
  exact Async.bind_of_ok (report_run ..)

end Tcp

/-! ## UDP -/

section Udp

variable {env : FlowEnv} {shared : Shared R} {dest : SocketAddr} {events : List UdpEvent}

theorem handleUdp_panic {p : Panic} (h : decide shared (factsOf env shared dest true) = .error p) :
    handleUdp env dest events ⟨shared, []⟩ = (.panic, ⟨shared, []⟩) :=
  (Async.bind_of_ok (get_run _)).trans (Async.bind_of_panic (decided_panic _ h))

theorem handleUdp_run {decision : Decision} (h : decide shared (factsOf env shared dest true) = .ok decision) :
    handleUdp env dest events ⟨shared, []⟩ =
      carryOutUdp env shared (factsOf env shared dest true) events decision
        ⟨shared, reportEffects shared (factsOf env shared dest true) decision⟩ := by
  refine (Async.bind_of_ok (get_run _)).trans ?_
  refine (Async.bind_of_ok (decided_run _ h)).trans ?_
  exact Async.bind_of_ok (report_run ..)

/-- Snooping touches the cache only. -/
theorem snoop_trace (isDns : Bool) (now : Nat) (delays : List Nat) (payload : Bytes) (s : FlowState R) :
    (snoop isDns now delays payload s).2.trace = s.trace := by
  unfold snoop
  split
  · split <;> rfl
  · rfl

/-- Datagrams were sent and delivered, and nothing else was done. -/
def Relayed (s t : FlowState R) : Prop :=
  ∃ post, t.trace = s.trace ++ post ∧ ∀ e ∈ post, (∃ d, e = Effect.send d) ∨ ∃ d, e = Effect.reply d

section Relayed

variable {s t u : FlowState R}

theorem Relayed.of_eq (h : t.trace = s.trace) : Relayed s t := ⟨[], by simp [h], by simp⟩

theorem Relayed.trans (h : Relayed s t) (h' : Relayed t u) : Relayed s u := by
  obtain ⟨post, ht, hp⟩ := h
  obtain ⟨post', hu, hp'⟩ := h'
  refine ⟨post ++ post', by rw [hu, ht, List.append_assoc], fun e he => ?_⟩
  exact (List.mem_append.mp he).elim (hp e) (hp' e)

theorem relayed_add {e : Effect} (he : (∃ d, e = .send d) ∨ ∃ d, e = .reply d) : Relayed s (s.add [e]) :=
  ⟨[e], by simp, fun _ hx => List.mem_singleton.mp hx ▸ he⟩

end Relayed

/-- **The relay loop** sends and delivers datagrams and does nothing else. -/
theorem relayUdp_trace (isDns : Bool) : ∀ (events : List UdpEvent) (s : FlowState R),
    Relayed s (relayUdp isDns events s).2
  | [], s => .of_eq (by simp [relayUdp, Async.wait])
  | .idle :: _, s => .of_eq (by simp [relayUdp])
  | .clientClosed :: _, s => .of_eq (by simp [relayUdp])
  | .serverFailed :: _, s => .of_eq (by simp [relayUdp])
  | .client datagram none :: events, s => by
    rw [relayUdp, Async.bind_of_ok (emit_run _ s)]
    exact (relayed_add (.inl ⟨_, rfl⟩)).trans (relayUdp_trace isDns events _)
  | .client _ (some _) :: events, s => by
    rw [relayUdp, Async.bind_of_ok (count_run _ s)]
    exact (Relayed.of_eq rfl).trans (relayUdp_trace isDns events _)
  | .server datagram now delays failed :: events, s => by
    have hsnoop : Relayed s (snoop isDns now delays datagram s).2 := .of_eq (snoop_trace isDns now delays datagram s)
    change Relayed s ((snoop isDns now delays datagram >>= _) s).2
    by_cases hok : (snoop isDns now delays datagram s).1 = .ok ()
    · rw [Async.bind_of_ok (Prod.ext hok rfl)]
      cases failed with
      | some e => exact hsnoop
      | none =>
        change Relayed s ((emit _ >>= _) _).2
        rw [Async.bind_of_ok (emit_run _ _)]
        exact hsnoop.trans ((relayed_add (.inr ⟨_, rfl⟩)).trans (relayUdp_trace isDns events _))
    · rw [Async.bind_snd_of_ne_ok fun a ha => hok ha]
      exact hsnoop

/-- A UDP flow that is not blocked is dialled, and relayed if that succeeds. -/
theorem carryOutUdp_relayed {facts : FlowFacts} {decision : Decision} (h : decision ≠ .block) (s : FlowState R) :
    ∃ post, (carryOutUdp env shared facts events decision s).2.trace =
        s.trace ++ dialEffects env facts.dest true shared.iface ++ post ∧
      ∀ e ∈ post, (∃ d, e = Effect.send d) ∨ ∃ d, e = Effect.reply d := by
  have hcarry : carryOutUdp env shared facts events decision =
      (dialUdp env facts.dest shared.iface >>= fun _ => relayUdp (facts.dest.port == 53) events) := by
    cases decision with
    | block => exact absurd rfl h
    | direct => rfl
    | proxy id => rfl
  have hdial := dialUdp_run env facts.dest shared.iface s
  rw [hcarry]
  by_cases hok : dialOutcome env (result env.connect) = .ok ()
  · rw [hok] at hdial
    rw [Async.bind_of_ok hdial]
    exact relayUdp_trace _ events _
  · rw [Async.bind_snd_of_ne_ok fun a ha => hok (by rw [hdial] at ha; exact ha), hdial]
    exact ⟨[], by simp, by simp⟩

/-- **Every UDP handler does one of three things.** -/
theorem handleUdp_trace (env : FlowEnv) (shared : Shared R) (dest : SocketAddr) (events : List UdpEvent) :
    (∃ p, decide shared (factsOf env shared dest true) = .error p ∧
      (handleUdp env dest events ⟨shared, []⟩).2.trace = []) ∨
    (decide shared (factsOf env shared dest true) = .ok .block ∧
      (handleUdp env dest events ⟨shared, []⟩).2.trace =
        reportEffects shared (factsOf env shared dest true) .block ++ [.dropStream]) ∨
    ∃ decision post, decide shared (factsOf env shared dest true) = .ok decision ∧ decision ≠ .block ∧
      (handleUdp env dest events ⟨shared, []⟩).2.trace =
        reportEffects shared (factsOf env shared dest true) decision ++ dialEffects env dest true shared.iface ++ post ∧
      ∀ e ∈ post, (∃ d, e = Effect.send d) ∨ ∃ d, e = Effect.reply d := by
  cases hd : decide shared (factsOf env shared dest true) with
  | error p => exact .inl ⟨p, rfl, by rw [handleUdp_panic hd]⟩
  | ok decision =>
    refine .inr ?_
    rw [handleUdp_run hd]
    by_cases hb : decision = .block
    · subst hb
      refine .inl ⟨rfl, ?_⟩
      rw [carryOutUdp, Async.bind_of_ok (count_run _ _), emit_run]
      rfl
    · obtain ⟨post, ht, hpost⟩ := @carryOutUdp_relayed _ env shared events (factsOf env shared dest true) _ hb
        ⟨shared, reportEffects shared (factsOf env shared dest true) decision⟩
      exact .inr ⟨decision, post, rfl, hb, ht, hpost⟩

end Udp

end AceTun
