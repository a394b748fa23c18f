import AceTun.Dns.Sound
import AceTun.Netstack.Checks
import AceTun.Tasks

/-!
# The handlers, step by step

The tasks of all flows work on the shared state at the same time. `tcpRoutine` and `udpRoutine` are the handlers as
routines of single steps: one for each `fetch_add` and each `store` of the cache, with the points between where a task may
be dropped or end by a panic. Alone they do to the shared state what `handleTcp` and `handleUdp` do (`tcpRoutine_run`,
`udpRoutine_run`).
-/

namespace AceTun

open RustStd Tasks

variable {R : RegexCrate}

/-! ## What the tasks do to the shared state -/

inductive SharedOp where
  | count (c : Counter)
  | store (s : Stored)
  deriving DecidableEq, Repr

def SharedOp.apply : SharedOp → Shared R → Shared R
  | .count c, shared => { shared with stats := shared.stats.add c }
  | .store s, shared => { shared with dnsCache := shared.dnsCache.store s.time s.ip s.domain }

abbrev FlowRoutine (R : RegexCrate) : Type := Routine (Shared R) SharedOp

section Routines

/-- Both counters of a flow whose proxy is not there, and then the log and the shutdown. -/
def failClosedRoutine : FlowRoutine R :=
  .act (.count .proxyFallbacks) (.act (.count .blocked) (.yield .done))

/-- What is done with a decided TCP flow; a dial, a handshake and a relay wait. -/
def carryOutTcpRoutine (base64 : Bytes → Str) (env : FlowEnv) (shared : Shared R) (facts : FlowFacts) :
    Decision → FlowRoutine R
  | .block => .act (.count .blocked) .done
  | .direct => .yield .done
  | .proxy configId =>
    match shared.findProxyConfig configId with
    | none => failClosedRoutine
    | some cfg =>
      .yield <|
        match proxyOutcome base64 env cfg (targetFor cfg facts.domain facts.dest) with
        | .ok _ => .yield .done
        | .err _ => failClosedRoutine
        | .pending => .wait
        | .panic => .done

/-- `handle_tcp`: it ends if deciding panics, and may end in the callback that it reports to. -/
def tcpRoutine (base64 : Bytes → Str) (env : FlowEnv) (dest : SocketAddr) : FlowRoutine R :=
  .yield <| .read fun shared =>
    match decide shared (factsOf env shared dest false) with
    | .error _ => .done
    | .ok decision => .yield (carryOutTcpRoutine base64 env shared (factsOf env shared dest false) decision)

/-- `snoop_response`, which takes the lock for each answer and does not wait in between. -/
def storeRoutine : List Stored → FlowRoutine R → FlowRoutine R
  | [], rest => rest
  | s :: stores, rest => .act (.store s) (storeRoutine stores rest)

/-- The relay loop. -/
def relayRoutine (isDns : Bool) : List UdpEvent → FlowRoutine R
  | [] => .wait
  | .idle :: _ => .yield .done
  | .clientClosed :: _ => .yield .done
  | .serverFailed :: _ => .yield .done
  | .client _ none :: events => .yield (relayRoutine isDns events)
  | .client _ (some _) :: events => .yield (.act (.count .udpSendErrors) (relayRoutine isDns events))
  | .server datagram now delays failed :: events =>
    let rest : FlowRoutine R :=
      match failed with
      | some _ => .yield .done
      | none => .yield (relayRoutine isDns events)
    .yield (if isDns then storeRoutine (stamp now delays (answersOf datagram)) rest else rest)

/-- What is done with a decided UDP flow. -/
def carryOutUdpRoutine (env : FlowEnv) (shared : Shared R) (facts : FlowFacts) (events : List UdpEvent) :
    Decision → FlowRoutine R
  | .block => .act (.count (udpCounter shared facts.dest)) .done
  | _ =>
    .yield <|
      match dialOutcome env (Flow.result env.connect) with
      | .ok _ => relayRoutine (facts.dest.port == 53) events
      | .err _ => .done
      | .pending => .wait
      | .panic => .done

/-- `handle_udp`. -/
def udpRoutine (env : FlowEnv) (dest : SocketAddr) (events : List UdpEvent) : FlowRoutine R :=
  .yield <| .read fun shared =>
    match decide shared (factsOf env shared dest true) with
    | .error _ => .done
    | .ok decision => .yield (carryOutUdpRoutine env shared (factsOf env shared dest true) events decision)

end Routines

/-! ## Alone, a routine does what its handler does -/

theorem snoopResponse_eq (cache : DnsCache) (now : Nat) (delays : List Nat) (payload : Bytes) :
    cache.snoopResponse now delays payload = .ok (cache.storeAll (stamp now delays (answersOf payload))) := by
  obtain ⟨pairs, hp, -⟩ := parseDnsAnswers_returns payload
  rw [DnsCache.snoopResponse, hp, answersOf_eq hp]
  rfl

/-- The shared state after a lesson. -/
def Shared.learn (shared : Shared R) (stores : List Stored) : Shared R :=
  { shared with dnsCache := shared.dnsCache.storeAll stores }

theorem storeRoutine_run (stores : List Stored) (rest : FlowRoutine R) (shared : Shared R) :
    (storeRoutine stores rest).run SharedOp.apply shared = rest.run SharedOp.apply (shared.learn stores) := by
  induction stores generalizing shared with
  | nil => rfl
  | cons s stores ih => exact ih _

theorem snoop_run (isDns : Bool) (now : Nat) (delays : List Nat) (payload : Bytes) (s : FlowState R) :
    snoop isDns now delays payload s = (.ok (), { s with
      shared := if isDns then s.shared.learn (stamp now delays (answersOf payload)) else s.shared }) := by
  unfold snoop
  cases isDns with
  | false => rfl
  | true => simp [snoopResponse_eq, Shared.learn]

theorem relayRoutine_run (isDns : Bool) : ∀ (events : List UdpEvent) (s : FlowState R),
    (relayRoutine isDns events).run SharedOp.apply s.shared = (relayUdp isDns events s).2.shared
  | [], _ => rfl
  | .idle :: _, _ => rfl
  | .clientClosed :: _, _ => rfl
  | .serverFailed :: _, _ => rfl
  | .client datagram none :: events, s => by
    rw [relayUdp, Async.bind_of_ok (emit_run _ s), ← relayRoutine_run isDns events]
    rfl
  | .client _ (some _) :: events, s => by
    rw [relayUdp, Async.bind_of_ok (count_run _ s), ← relayRoutine_run isDns events]
    rfl
  | .server datagram now delays failed :: events, s => by
    change _ = ((snoop isDns now delays datagram >>= _) s).2.shared
    rw [Async.bind_of_ok (snoop_run isDns now delays datagram s)]
    cases failed with
    | some e =>
      cases isDns with
      | false => rfl
      | true => exact storeRoutine_run ..
    | none =>
      change _ = ((Flow.emit _ >>= _) _).2.shared
      rw [Async.bind_of_ok (emit_run _ _), ← relayRoutine_run isDns events]
      cases isDns with
      | false => rfl
      | true => exact storeRoutine_run ..

section Run

variable (base64 : Bytes → Str) (env : FlowEnv) (shared : Shared R) (dest : SocketAddr)

theorem carryOutTcpRoutine_run (facts : FlowFacts) (decision : Decision) (trace : List Effect) :
    (carryOutTcpRoutine base64 env shared facts decision).run SharedOp.apply shared =
      (carryOutTcp base64 env shared facts decision ⟨shared, trace⟩).2.shared := by
  cases decision with
  | block =>
    rw [carryOutTcp_block]
    rfl
  | direct =>
    rw [carryOutTcp_direct]
    rfl
  | proxy id =>
    rw [carryOutTcpRoutine, carryOutTcp]
    cases hc : shared.findProxyConfig id with
    | none =>
      obtain ⟨message, h⟩ := handleProxied_missing base64 env shared facts ⟨shared, trace⟩ hc
      rw [h]
      rfl
    | some cfg =>
      rcases proxyOutcome_ends base64 env cfg (targetFor cfg facts.domain facts.dest) with ⟨stream, ho⟩ | ⟨e, ho⟩
      · rw [handleProxied_relayed base64 env shared facts _ hc ho]
        simp only [ho]
        rfl
      · obtain ⟨message, h⟩ := handleProxied_failed base64 env shared facts ⟨shared, trace⟩ hc ho
        rw [h]
        simp only [ho]
        rfl

/-- **The TCP routine alone is `handle_tcp`.** -/
theorem tcpRoutine_run :
    (tcpRoutine base64 env dest).run SharedOp.apply shared = (handleTcp base64 env dest ⟨shared, []⟩).2.shared := by
  simp only [tcpRoutine, Routine.run]
  cases hd : decide shared (factsOf env shared dest false) with
  | error p =>
    rw [handleTcp_panic base64 env hd]
    rfl
  | ok decision =>
    rw [handleTcp_run base64 env hd]
    exact carryOutTcpRoutine_run ..

theorem carryOutUdpRoutine_run (facts : FlowFacts) (events : List UdpEvent) (decision : Decision) (trace : List Effect) :
    (carryOutUdpRoutine env shared facts events decision).run SharedOp.apply shared =
      (carryOutUdp env shared facts events decision ⟨shared, trace⟩).2.shared := by
  have hdial := dialUdp_run env facts.dest shared.iface ⟨shared, trace⟩
  have hrelay : (carryOutUdpRoutine env shared facts events .direct).run SharedOp.apply shared =
      ((dialUdp env facts.dest shared.iface >>= fun _ => relayUdp (facts.dest.port == 53) events)
        ⟨shared, trace⟩).2.shared := by
    simp only [carryOutUdpRoutine]
    cases ho : dialOutcome env (Flow.result env.connect) with
    | ok _ =>
      rw [ho] at hdial
      rw [Async.bind_of_ok hdial, ← relayRoutine_run]
      rfl
    | _ =>
      rw [Async.bind_snd_of_ne_ok (by simp [hdial, ho]), hdial]
      rfl
  cases decision with
  | block =>
    rw [carryOutUdp, Async.bind_of_ok (count_run _ _), emit_run]
    change { shared with stats := _ } = { shared with stats := countDropped shared facts.dest shared.stats }
    rw [countDropped_eq]
  | direct => exact hrelay
  | proxy id => exact hrelay

/-- **The UDP routine alone is `handle_udp`.** -/
theorem udpRoutine_run (events : List UdpEvent) :
    (udpRoutine env dest events).run SharedOp.apply shared = (handleUdp env dest events ⟨shared, []⟩).2.shared := by
  simp only [udpRoutine, Routine.run]
  cases hd : decide shared (factsOf env shared dest true) with
  | error p =>
    rw [handleUdp_panic hd]
    rfl
  | ok decision =>
    rw [handleUdp_run hd]
    exact carryOutUdpRoutine_run ..

end Run

end AceTun
