import AceTun.RustStd.Net
import AceTun.Memo

/-!
# The cache of flow owners

Both Unix backends keep the PID they found for a flow by its local endpoint, for `CACHE_TTL`. `Instant` and `Duration`
are counted in nanoseconds.
-/

namespace AceTun

open RustStd

/-- `CACHE_TTL`: 250 milliseconds. -/
def CACHE_TTL : Nat := 250 * 1000000

/-- The arguments of `resolve_pid`: the endpoints of a flow, and its protocol. -/
structure FlowEnds where
  localAddr : SocketAddr
  remote : SocketAddr
  isUdp : Bool
  deriving DecidableEq, Repr

structure EndpointKey where
  ip : IpAddr
  port : UInt16
  isUdp : Bool
  deriving DecidableEq, Repr

/-- The key of a flow: its remote endpoint is not part of it. -/
def FlowEnds.key (flow : FlowEnds) : EndpointKey := ⟨flow.localAddr.ip, flow.localAddr.port, flow.isUdp⟩

/-- `endpoints`: the PID for a key, and when it was found. -/
abbrev Endpoints : Type := HashMap EndpointKey (UInt32 × Nat)

/-- The PID that is cached for a flow, if it was found less than `CACHE_TTL` ago. -/
def Endpoints.cached (endpoints : Endpoints) (flow : FlowEnds) (now : Nat) : Option UInt32 :=
  match endpoints.lookup flow.key with
  | some (pid, cachedAt) => if now - cachedAt < CACHE_TTL then some pid else none
  | none => none

/-- The cache is a memory with a time to live. -/
theorem Endpoints.cached_eq_hit (endpoints : Endpoints) (call : Memo.Call FlowEnds) :
    endpoints.cached call.arg call.now = Memo.hit FlowEnds.key CACHE_TTL endpoints call := by
  unfold Endpoints.cached Memo.hit
  cases endpoints.lookup call.arg.key <;> rfl

end AceTun
