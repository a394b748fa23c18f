import AceTun.Flow
import AceTun.Proxy.Conversation

/-!
# Connecting through the upstream proxy

`connectViaProxy` connects to the proxy and runs the handshake of its type, all within one timeout. Whatever the proxy
does, it ends with a stream or an error (`proxyOutcome_ends`).
-/

namespace AceTun

open RustStd AceTun.Flow

variable {R : RegexCrate} (base64 : Bytes → Str)

/-- The handshake on an open connection. -/
def handshake (cfg : ProxyConfig) (dest : Target) : Async TcpStream Unit :=
  match cfg.proxyType with
  | .http => httpConnect base64 cfg dest
  | .socks5 => socks5Connect cfg dest

/-- `connect_via_proxy_inner`, on the outcome of connecting to the proxy. -/
def connectViaProxyInner (cfg : ProxyConfig) (dest : Target) : (upstream : Except IoError TcpStream) → Poll TcpStream
  | .error e => .err e
  | .ok stream =>
    match handshake base64 cfg dest stream with
    | (.ok (), stream) => .ok stream
    | (.err e, _) => .err e
    | (.pending, _) => .pending
    | (.panic, _) => .panic

def connectTimedOut : IoError := ⟨.timedOut, "upstream proxy connect timed out".toList⟩

/-- How `connect_via_proxy` ends. -/
def proxyOutcome (env : FlowEnv) (cfg : ProxyConfig) (dest : Target) : Poll TcpStream :=
  timeout connectTimedOut env.upstreamExpired (connectViaProxyInner base64 cfg dest env.upstream)

/-- `connect_via_proxy`. -/
def connectViaProxy (env : FlowEnv) (cfg : ProxyConfig) (dest : Target) : Flow R TcpStream := do
  emit (.connectViaProxy cfg dest)
  Async.wait (proxyOutcome base64 env cfg dest)

theorem handshake_no_panic (cfg : ProxyConfig) (dest : Target) : Async.NoPanic (handshake base64 cfg dest) := by
  unfold handshake
  cases cfg.proxyType with
  | http => exact httpConnect_no_panic base64 cfg dest
  | socks5 => exact socks5Connect_no_panic cfg dest

theorem connectViaProxyInner_no_panic (cfg : ProxyConfig) (dest : Target) (upstream : Except IoError TcpStream) :
    connectViaProxyInner base64 cfg dest upstream ≠ .panic := by
  cases upstream with
  | error e => exact fun h => by cases h
  | ok stream =>
    have hno := handshake_no_panic base64 cfg dest stream
    rw [connectViaProxyInner]
    rcases h : handshake base64 cfg dest stream with ⟨_ | _ | _ | _, stream'⟩
    · simp
    · simp
    · simp
    · rw [h] at hno
      exact absurd rfl hno

/-- **The proxy cannot hang or crash the handler**: there is a stream, or an error. -/
theorem proxyOutcome_ends (env : FlowEnv) (cfg : ProxyConfig) (dest : Target) :
    (∃ stream, proxyOutcome base64 env cfg dest = .ok stream) ∨ ∃ e, proxyOutcome base64 env cfg dest = .err e :=
  timeout_ends (connectViaProxyInner_no_panic base64 cfg dest env.upstream)

end AceTun
