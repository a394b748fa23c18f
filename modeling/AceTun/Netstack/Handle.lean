import AceTun.Dial
import AceTun.Proxy.Connect

/-!
# Deciding and relaying a flow

`decide` chooses what happens to a flow, from the facts about it and the shared state; the order of its checks matters.
`handleTcp` and `handleUdp` gather the facts, report the decision and carry it out. Evaluating the rules may panic, and
then so does the handler's task. The name of a destination is looked up only if some rule has a domain filter, which
changes no decision (`decide_domainFor`).
-/

namespace AceTun

open RustStd AceTun.Flow

variable {R : RegexCrate}

/-! ## Decisions -/

inductive Decision where
  | direct
  | proxy (configId : UInt32)
  | block
  deriving DecidableEq, Repr

/-- What is known of a flow when it is decided. -/
structure FlowFacts where
  dest : SocketAddr
  isUdp : Bool
  pid : Option UInt32
  processName : Str
  domain : Option Str
  deriving DecidableEq, Repr

/-- Multicast or broadcast. -/
def isGroupAddress : IpAddr → Bool
  | .v4 v4 => v4.isMulticast || v4.isBroadcast
  | .v6 v6 => v6.isMulticast

/-- The decision that a matched rule stands for. -/
def Decision.ofMatch (m : RuleMatch) : Decision :=
  match m.action with
  | .direct => .direct
  | .block => .block
  | .proxy => .proxy m.proxyConfigId

def decide (shared : Shared R) (facts : FlowFacts) : Except Panic Decision :=
  if facts.pid = some shared.currentPid then
    -- our own flow: dropped when there is no interface to pin it to, as it would come back to the tunnel
    if !facts.dest.ip.isLoopback && (shared.iface.indexFor facts.dest.ip).isNone then .ok .block else .ok .direct
  else if facts.dest.ip.isLoopback && !shared.localhostViaProxy then .ok .direct
  else if isGroupAddress facts.dest.ip then .ok .block
  else if facts.isUdp && facts.dest.port == shared.quicPort && shared.quicPolicy == .drop then .ok .block
  else do
    let m ← shared.rules.evaluate facts.processName facts.dest.ip facts.dest.port facts.isUdp facts.domain
    pure (.ofMatch m)

/-! ## Facts -/

/-- `attribute`: the owner of a flow and its name, in lower case, or nothing and the empty name. -/
def attributeFlow (env : FlowEnv) : Option UInt32 × Str :=
  (env.pid, ((env.pid.bind env.processName).map toAsciiLowercase).getD [])

/-- The cached name, looked up only if some rule needs it. -/
def domainFor (shared : Shared R) (now : Nat) (dest : IpAddr) : Option Str :=
  if shared.rules.needsDomainResolution then shared.dnsCache.lookup now dest else none

/-- The facts that a handler decides with. -/
def factsOf (env : FlowEnv) (shared : Shared R) (dest : SocketAddr) (isUdp : Bool) : FlowFacts where
  dest
  isUdp
  pid := (attributeFlow env).1
  processName := (attributeFlow env).2
  domain := domainFor shared env.now dest.ip

/-! ## Reporting -/

/-- The `Debug` text of a proxy type. -/
def ProxyType.debug : ProxyType → Str
  | .http => "Http".toList
  | .socks5 => "Socks5".toList

/-- The action and the text that a decision is reported with. -/
def reportTexts (shared : Shared R) : Decision → RuleAction × Str
  | .direct => (.direct, "Direct".toList)
  | .block => (.block, "Blocked".toList)
  | .proxy id =>
    match shared.findProxyConfig id with
    | some c =>
      (.proxy, "Proxy ".toList ++ c.proxyType.debug ++ "://".toList ++ c.host ++ ":".toList ++ showNat c.port.toNat)
    | none => (.proxy, "Proxy (unconfigured)".toList)

def report (shared : Shared R) (facts : FlowFacts) (decision : Decision) : Flow R Unit :=
  if shared.connCb then
    emit (.connection {
      processName := facts.processName
      pid := facts.pid.getD 0
      destIp := facts.dest.ip
      destPort := facts.dest.port
      action := (reportTexts shared decision).1
      proxyInfo := (reportTexts shared decision).2 })
  else pure ()

/-! ## TCP -/

/-- The target of a proxied flow: the cached name if the proxy is to be told it, or else the address. -/
def targetFor (cfg : ProxyConfig) (domain : Option Str) (dest : SocketAddr) : Target :=
  match cfg.sendDomainToProxy, domain with
  | true, some d => .domain d dest.port
  | _, _ => .ip dest.ip dest.port

/-- `fail_closed`, with the counters and the log line before it. -/
def failClosed (message : Str) : Flow R Unit := do
  count fun st => { st with proxyFallbacks := st.proxyFallbacks + 1 }
  count fun st => { st with blocked := st.blocked + 1 }
  log message
  emit .shutdown

/-- A flow that a rule sends to a proxy. -/
def handleProxied (base64 : Bytes → Str) (env : FlowEnv) (shared : Shared R) (facts : FlowFacts) (configId : UInt32) :
    Flow R Unit :=
  match shared.findProxyConfig configId with
  | none =>
    failClosed ("proxy configuration ".toList ++ showNat configId.toNat ++ " missing for ".toList ++ facts.dest.toStr ++
      "; blocking proxied flow".toList)
  | some cfg => do
    match ← Async.attempt (connectViaProxy base64 env cfg (targetFor cfg facts.domain facts.dest)) with
    | .ok _ => do
      emit (.relay .proxy)
      Async.wait (result env.relay)
    | .error e =>
      failClosed ("proxy unavailable for ".toList ++ facts.dest.toStr ++ " (".toList ++ e.message ++
        "); blocking proxied flow".toList)

/-- What is done with a decided TCP flow. -/
def carryOutTcp (base64 : Bytes → Str) (env : FlowEnv) (shared : Shared R) (facts : FlowFacts) : Decision → Flow R Unit
  | .block => do
    count fun st => { st with blocked := st.blocked + 1 }
    emit .dropStream
  | .direct => do
    dialTcp env facts.dest shared.iface
    emit (.relay .direct)
    Async.wait (result env.relay)
  | .proxy configId => handleProxied base64 env shared facts configId

/-- The decision, or a panic of the task. -/
def decided (shared : Shared R) (facts : FlowFacts) : Poll Decision :=
  match decide shared facts with
  | .ok decision => .ok decision
  | .error _ => .panic

/-- `handle_tcp`. -/
def handleTcp (base64 : Bytes → Str) (env : FlowEnv) (dest : SocketAddr) : Flow R Unit := do
  let shared ← get
  let facts := factsOf env shared dest false
  let decision ← Async.wait (decided shared facts)
  report shared facts decision
  carryOutTcp base64 env shared facts decision

/-! ## UDP -/

/-- What the relay loop of a UDP flow wakes up to. -/
inductive UdpEvent where
  /-- One of the two idle timers fires. -/
  | idle
  /-- The intercepted stream is closed or fails. -/
  | clientClosed
  | client (datagram : Bytes) (failed : Option IoError)
  /-- The socket fails. -/
  | serverFailed
  /-- A datagram comes at a time; the clock goes on by a delay before each name that is learned from it. -/
  | server (datagram : Bytes) (now : Nat) (delays : List Nat) (failed : Option IoError)
  deriving DecidableEq, Repr

/-- Learn the names of an answer that comes from a DNS server. -/
def snoop (isDns : Bool) (now : Nat) (delays : List Nat) (payload : Bytes) : Flow R Unit := fun s =>
  if isDns then
    match s.shared.dnsCache.snoopResponse now delays payload with
    | .ok cache => (.ok (), { s with shared := { s.shared with dnsCache := cache } })
    | .error _ => (.panic, s)
  else (.ok (), s)

/-- The relay loop. A datagram that cannot be sent is lost; an answer that cannot be delivered ends the flow. -/
def relayUdp (isDns : Bool) : List UdpEvent → Flow R Unit
  | [] => Async.wait .pending
  | .idle :: _ => pure ()
  | .clientClosed :: _ => pure ()
  | .client datagram none :: events => do
    emit (.send datagram)
    relayUdp isDns events
  | .client _ (some _) :: events => do
    count fun st => { st with udpSendErrors := st.udpSendErrors + 1 }
    relayUdp isDns events
  | .serverFailed :: _ => pure ()
  | .server datagram now delays failed :: events => do
    snoop isDns now delays datagram
    match failed with
    | some _ => pure ()
    | none => do
      emit (.reply datagram)
      relayUdp isDns events

/-- The counter of a dropped UDP flow. -/
def countDropped (shared : Shared R) (dest : SocketAddr) : Stats → Stats := fun st =>
  if dest.port = shared.quicPort then { st with quicDropped := st.quicDropped + 1 }
  else if isGroupAddress dest.ip then { st with groupDropped := st.groupDropped + 1 }
  else { st with blocked := st.blocked + 1 }

/-- A UDP flow is never tunnelled: `Proxy` is relayed like `Direct`. -/
def carryOutUdp (env : FlowEnv) (shared : Shared R) (facts : FlowFacts) (events : List UdpEvent) : Decision → Flow R Unit
  | .block => do
    count (countDropped shared facts.dest)
    emit .dropStream
  | _ => do
    dialUdp env facts.dest shared.iface
    relayUdp (facts.dest.port == 53) events

/-- `handle_udp`. -/
def handleUdp (env : FlowEnv) (dest : SocketAddr) (events : List UdpEvent) : Flow R Unit := do
  let shared ← get
  let facts := factsOf env shared dest true
  let decision ← Async.wait (decided shared facts)
  report shared facts decision
  carryOutUdp env shared facts events decision

/-! ## The gate of the lookup -/

/-- The name of the facts matters only to the rules. -/
theorem decide_domain {shared : Shared R} (facts : FlowFacts) {domain domain' : Option Str}
    (h : shared.rules.evaluate facts.processName facts.dest.ip facts.dest.port facts.isUdp domain =
      shared.rules.evaluate facts.processName facts.dest.ip facts.dest.port facts.isUdp domain') :
    decide shared { facts with domain } = decide shared { facts with domain := domain' } := by
  simp only [decide, h]

/-- **Skipping the lookup changes no decision**, a panic included. -/
theorem decide_domainFor (shared : Shared R) (now : Nat) (facts : FlowFacts) :
    decide shared { facts with domain := domainFor shared now facts.dest.ip } =
      decide shared { facts with domain := shared.dnsCache.lookup now facts.dest.ip } := by
  unfold domainFor
  cases hn : shared.rules.needsDomainResolution with
  | true => rfl
  | false => exact decide_domain facts (RuleSet.evaluate_domain hn ..)

end AceTun
