import AceTun.Proxy.Http
import AceTun.State

/-!
# What a flow handler does, and what it meets

A handler runs over the shared state and leaves a trace of its effects (`FlowState`): the calls of the callbacks, the
sockets it opens and connects, and what it does with the intercepted stream. What the system answers is an input
(`FlowEnv`): who owns the flow, the clock, which socket calls fail, and how the peer behaves.
-/

namespace AceTun

open RustStd

inductive Os where
  | linux
  | macos
  | windows
  deriving DecidableEq, Repr

/-- What the connection callback is told. -/
structure ConnectionInfo where
  processName : Str
  pid : UInt32
  destIp : IpAddr
  destPort : UInt16
  action : RuleAction
  proxyInfo : Str
  deriving DecidableEq, Repr

/-- The far end of a relay. -/
inductive Upstream where
  | direct
  | proxy
  deriving DecidableEq, Repr

inductive Effect where
  | connection (info : ConnectionInfo)
  | log (message : Str)
  /-- `dial::tcp` or `dial::udp` is called. -/
  | dial (dest : SocketAddr) (isUdp : Bool)
  /-- A socket for a direct connection is open. -/
  | opened (dest : SocketAddr) (isUdp : Bool)
  /-- `pin_socket` was called on it, and did it succeed. -/
  | pin (index : UInt32) (dest : IpAddr) (ok : Bool)
  /-- It is connected, pinned to an interface or not. -/
  | connect (dest : SocketAddr) (pinned : Option UInt32)
  /-- `connect_via_proxy` is called; it opens a socket of its own to the proxy's address. -/
  | connectViaProxy (cfg : ProxyConfig) (target : Target)
  /-- `copy_bidirectional` between the intercepted stream and an upstream. -/
  | relay (upstream : Upstream)
  /-- A datagram of the client is sent upstream. -/
  | send (datagram : Bytes)
  /-- A datagram of the server is written to the intercepted stream. -/
  | reply (datagram : Bytes)
  /-- The intercepted stream is shut down. -/
  | shutdown
  /-- The intercepted stream is dropped. -/
  | dropStream
  deriving DecidableEq, Repr

/-- What the system answers to one handler. -/
structure FlowEnv where
  os : Os
  /-- `resolve_pid` of the flow. -/
  pid : Option UInt32
  /-- `process_name`. -/
  processName : UInt32 → Option Str
  /-- The clock at the lookup of the name. -/
  now : Nat
  /-- Opening the socket of a direct connection fails. -/
  openSocket : Option IoError
  /-- Setting the option that binds a socket to an interface fails. -/
  bindInterface : UInt32 → IpAddr → Option IoError
  connect : Except IoError Unit
  connectExpired : Bool
  /-- The connection to the proxy, by what the proxy will do on it. -/
  upstream : Except IoError TcpStream
  upstreamExpired : Bool
  relay : Except IoError Unit

structure FlowState (R : RegexCrate) where
  shared : Shared R
  trace : List Effect

variable {R : RegexCrate}

/-- A handler. -/
abbrev Flow (R : RegexCrate) (α : Type) : Type := Async (FlowState R) α

namespace Flow

def emit (e : Effect) : Flow R Unit := fun s => (.ok (), { s with trace := s.trace ++ [e] })

/-- `Shared::log`. -/
def log (message : Str) : Flow R Unit := fun s => if s.shared.logCb then emit (.log message) s else (.ok (), s)

/-- A `fetch_add` on a counter. -/
def count (f : Stats → Stats) : Flow R Unit := fun s =>
  (.ok (), { s with shared := { s.shared with stats := f s.shared.stats } })

def get : Flow R (Shared R) := fun s => (.ok s.shared, s)

/-- The outcome of a call that returns. -/
def result {α : Type} : Except IoError α → Poll α
  | .ok a => .ok a
  | .error e => .err e

end Flow

end AceTun
