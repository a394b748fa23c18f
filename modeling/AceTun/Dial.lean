import AceTun.Flow

/-!
# Outbound sockets pinned to the physical interface

`dialTcp` and `dialUdp` open a socket, pin it when an index is known for the address family, and connect it. A pin that
fails is not fatal.
-/

namespace AceTun

open RustStd AceTun.Flow

variable {R : RegexCrate}

/-- `pin_socket`: whether the socket is now bound. On Linux and macOS a loopback destination is left alone. -/
def pinSocket (env : FlowEnv) (index : UInt32) (dest : IpAddr) : Except IoError Bool :=
  if env.os ≠ .windows ∧ dest.isLoopback then .ok false
  else
    match env.bindInterface index dest with
    | none => .ok true
    | some e => .error e

/-- Open a socket for `dest`. -/
def openFor (env : FlowEnv) (dest : SocketAddr) (isUdp : Bool) : Flow R Unit :=
  match env.openSocket with
  | some e => Async.fail e
  | none => emit (.opened dest isUdp)

/-- Pin the open socket if there is an index for it; a failure is only logged. -/
def pinFor (env : FlowEnv) (dest : SocketAddr) (iface : PhysicalInterface) : Flow R (Option UInt32) :=
  match iface.indexFor dest.ip with
  | none => pure none
  | some index => do
    let outcome := pinSocket env index dest.ip
    emit (.pin index dest.ip outcome.isOk)
    pure (if outcome = .ok true then some index else none)

/-- `dial::tcp`. -/
def dialTcp (env : FlowEnv) (dest : SocketAddr) (iface : PhysicalInterface) : Flow R Unit := do
  emit (.dial dest false)
  openFor env dest false
  let pinned ← pinFor env dest iface
  emit (.connect dest pinned)
  Async.wait (timeout ⟨.timedOut, "outbound connect timed out".toList⟩ env.connectExpired (result env.connect))

/-- `dial::udp`. -/
def dialUdp (env : FlowEnv) (dest : SocketAddr) (iface : PhysicalInterface) : Flow R Unit := do
  emit (.dial dest true)
  openFor env dest true
  let pinned ← pinFor env dest iface
  emit (.connect dest pinned)
  Async.wait (result env.connect)

end AceTun
