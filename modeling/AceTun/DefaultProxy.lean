import AceTun.Builder
import AceTun.Rule.Cidr
import AceTun.RustStd.SocketAddr

/-!
# The default proxy

An engine that no proxy was registered for sends its flows to an HTTP proxy at the address that `TunRedirect::builder`
was given as a text. On the way there the text is parsed, the address is printed as the host of a configuration, the
configuration is checked, numbered and found, and the host is parsed again when the proxy is dialed. What is dialed is
the address of the text, for every rule, with one difference: the scope of an IPv6 address is lost
(`default_proxy_is_dialed`).
-/

namespace AceTun

open RustStd

/-! ## Addresses with a scope -/

/-- A parsed socket address; one of IPv4 has no scope. -/
structure ScopedAddr where
  addr : SocketAddr
  scopeId : UInt32
  deriving DecidableEq

/-- `Parser::read_socket_addr_v6`, with the scope. -/
def readScopedAddrV6 (s : Str) : Option (ScopedAddr × Str) := do
  let s ← readGivenChar '[' s
  let (ip, s) ← readIpv6Addr s
  let (scope, s) := (readScopeId s).getD (0, s)
  let s ← readGivenChar ']' s
  let (port, s) ← readPort s
  some (⟨⟨.v6 ip, UInt16.ofNat port⟩, UInt32.ofNat scope⟩, s)

/-- `str::parse::<SocketAddr>`, with the scope. -/
def parseScopedAddr (s : Str) : Option ScopedAddr :=
  match ((readSocketAddrV4 s).map fun (addr, s) => (⟨addr, 0⟩, s)).or (readScopedAddrV6 s) with
  | some (addr, []) => some addr
  | _ => none

theorem readSocketAddrV6_eq (s : Str) : readSocketAddrV6 s = (readScopedAddrV6 s).map fun (a, s) => (a.addr, s) := by
  unfold readSocketAddrV6 readScopedAddrV6
  cases readGivenChar '[' s with
  | none => rfl
  | some s =>
    simp only [Option.bind_eq_bind, Option.bind_some]
    cases readIpv6Addr s with
    | none => rfl
    | some read =>
      obtain ⟨ip, s⟩ := read
      have hrest : ((readScopeId s).map Prod.snd).getD s = ((readScopeId s).getD (0, s)).2 := by
        cases readScopeId s <;> rfl
      simp only [Option.bind_some, hrest]
      cases readGivenChar ']' ((readScopeId s).getD (0, s)).2 with
      | none => rfl
      | some s =>
        simp only [Option.bind_some]
        cases readPort s <;> rfl

/-- The parser of the model leaves the scope out, and nothing else. -/
theorem parseSocketAddr_eq (s : Str) : parseSocketAddr s = (parseScopedAddr s).map ScopedAddr.addr := by
  unfold parseSocketAddr parseScopedAddr
  rw [readSocketAddrV6_eq]
  cases readSocketAddrV4 s with
  | none =>
    simp only [Option.map_none, Option.none_or]
    rcases readScopedAddrV6 s with _ | ⟨addr, _ | ⟨c, s⟩⟩
    · rfl
    · rfl
    · rfl
  | some read =>
    obtain ⟨addr, s⟩ := read
    cases s with
    | nil => rfl
    | cons c s => rfl

/-! ## From the text to the configuration -/

/-- `Error::InvalidAddress`. -/
structure InvalidAddress where
  input : Str

/-- `TunRedirect::builder`. -/
def TunRedirect.builder (proxyAddr : Str) : Except InvalidAddress TunRedirectBuilder :=
  match parseSocketAddr proxyAddr with
  | some addr => .ok (.new addr)
  | none => .error ⟨proxyAddr⟩

/-- What `TcpStream::connect((host, port))` connects to. It stands for what `ToSocketAddrs` documents of a pair of a host
and a port: a host that is an address is not looked up, and has no scope; any other host is looked up by the system. -/
def toSocketAddrs (lookup : Str → UInt16 → List ScopedAddr) (host : Str) (port : UInt16) : List ScopedAddr :=
  match parseIpv4Addr host with
  | some ip => [⟨⟨.v4 ip, port⟩, 0⟩]
  | none =>
    match parseIpv6Addr host with
    | some ip => [⟨⟨.v6 ip, port⟩, 0⟩]
    | none => lookup host port

/-- A printed address is dialed as it is. -/
theorem toSocketAddrs_toStr (lookup : Str → UInt16 → List ScopedAddr) (ip : IpAddr) (port : UInt16) :
    toSocketAddrs lookup ip.toStr port = [⟨⟨ip, port⟩, 0⟩] := by
  unfold toSocketAddrs
  cases ip with
  | v4 ip => rw [show parseIpv4Addr (IpAddr.v4 ip).toStr = some ip from parseIpv4Addr_iff.mpr rfl]
  | v6 ip =>
    -- a printed IPv6 address has a colon, and none of IPv4 has
    have hnone : parseIpv4Addr ip.toStr = none := by
      cases h : parseIpv4Addr ip.toStr with
      | none => rfl
      | some v4 =>
        have hcolon : ':' ∈ v4.toStr := parseIpv4Addr_iff.mp h ▸ colon_mem_of_parseIpv6Addr (parseIpv6Addr_toStr ip)
        exact absurd (Ipv4Addr.mem_toStr hcolon) (by decide)
    rw [show parseIpv4Addr (IpAddr.v6 ip).toStr = none from hnone,
      show parseIpv6Addr (IpAddr.v6 ip).toStr = some ip from parseIpv6Addr_toStr ip]

theorem trim_toStr_ne_nil (ip : IpAddr) : trim ip.toStr ≠ [] := by
  cases ip with
  | v4 ip =>
    change trim ip.toStr ≠ []
    rw [trim_toStr]
    intro h
    have hparse : parseIpv4Addr [] = some ip := parseIpv4Addr_iff.mpr h.symm
    cases hparse
  | v6 ip =>
    change trim ip.toStr ≠ []
    rw [trim_ipv6_toStr]
    intro h
    have hparse := parseIpv6Addr_toStr ip
    rw [h] at hparse
    cases hparse

namespace TunRedirectBuilder

variable {R : RegexCrate} {currentPid : UInt32} {builder : TunRedirectBuilder}

theorem proxies_of_none (h : builder.proxyConfigs = []) :
    builder.proxies = [.http builder.proxyAddr.ip.toStr builder.proxyAddr.port] := by
  rw [proxies, h]
  rfl

theorem validate_default (addr : SocketAddr) (id : UInt32) :
    { ProxyConfig.http addr.ip.toStr addr.port with configId := id }.validate =
      if addr.port = 0 then .error (.config "proxy port must not be zero".toList) else .ok () :=
  if_neg (trim_toStr_ne_nil addr.ip)

/-- The default proxy fails its check exactly if its port is 0. -/
theorem assignIds_of_none (h : builder.proxyConfigs = []) :
    assignIds 0 builder.proxies =
      if builder.proxyAddr.port = 0 then .error (.config "proxy port must not be zero".toList)
      else .ok (numbered 0 builder.proxies) := by
  rw [proxies_of_none h, assignIds, validate_default]
  by_cases hport : builder.proxyAddr.port = 0
  · rw [if_pos hport, if_pos hport]
    rfl
  · rw [if_neg hport, if_neg hport]
    rfl

theorem build_error_iff (h : builder.proxyConfigs = []) :
    (∃ e, builder.build R currentPid = .ok (.error e)) ↔ builder.proxyAddr.port = 0 := by
  unfold build
  rw [assignIds_of_none h]
  by_cases hport : builder.proxyAddr.port = 0
  · rw [if_pos hport]
    exact iff_of_true ⟨_, rfl⟩ hport
  · rw [if_neg hport]
    refine iff_of_false ?_ hport
    rintro ⟨e, he⟩
    cases hr : RuleSet.new R builder.rules with
    | error p => simp [hr] at he
    | ok rules => simp [hr] at he

end TunRedirectBuilder

/-- **What an engine without registered proxies dials.** For every text that is accepted as an address: the engine is
refused exactly if the port is 0, and otherwise every rule that selects a proxy finds the one that is dialed, by HTTP and
without credentials, at that address with no scope, and no name is looked up. -/
theorem default_proxy_is_dialed {R : RegexCrate} (currentPid : UInt32) {input : Str} {start builder : TunRedirectBuilder}
    (h : TunRedirect.builder input = .ok start) (haddr : builder.proxyAddr = start.proxyAddr)
    (hnone : builder.proxyConfigs = []) :
    ∃ given, parseScopedAddr input = some given ∧
      ((∃ e, builder.build R currentPid = .ok (.error e)) ↔ given.addr.port = 0) ∧
      ∀ engine, builder.build R currentPid = .ok (.ok engine) → ∀ id, ∃ cfg,
        engine.shared.findProxyConfig id = some cfg ∧ cfg.proxyType = .http ∧ cfg.credentials = none ∧
          ∀ lookup, toSocketAddrs lookup cfg.host cfg.port = [{ given with scopeId := 0 }] := by
  obtain ⟨given, hparse, hgiven⟩ : ∃ given, parseScopedAddr input = some given ∧ start.proxyAddr = given.addr := by
    unfold TunRedirect.builder at h
    rw [parseSocketAddr_eq] at h
    cases hp : parseScopedAddr input with
    | none => simp [hp] at h
    | some given =>
      rw [hp] at h
      cases h
      exact ⟨given, rfl, rfl⟩
  have heq : builder.proxyAddr = given.addr := haddr.trans hgiven
  refine ⟨given, hparse, heq ▸ TunRedirectBuilder.build_error_iff hnone, fun engine hbuild id => ?_⟩
  -- there is one proxy, and every number finds it
  have hfind := findProxyConfig_built hbuild id
  rw [TunRedirectBuilder.proxies_of_none hnone, heq] at hfind
  refine ⟨{ ProxyConfig.http given.addr.ip.toStr given.addr.port with configId := 1 }, ?_, rfl, rfl, fun lookup => ?_⟩
  · rw [hfind]
    by_cases hid : (1 : UInt32) = id
    · simp [numbered, hid]
    · simp [numbered, hid]
  · exact toSocketAddrs_toStr lookup given.addr.ip given.addr.port

/-- The text of a link-local address with a scope is accepted, and the scope is not dialed. -/
theorem default_proxy_is_dialed_sample :
    ∃ start engine cfg, TunRedirect.builder "[fe80::1%3]:8080".toList = .ok start ∧
      start.build backslashRegex 1 = .ok (.ok engine) ∧ engine.shared.findProxyConfig 0 = some cfg ∧
      parseScopedAddr "[fe80::1%3]:8080".toList = some ⟨⟨.v6 (.new 0xfe80 0 0 0 0 0 0 1), 8080⟩, 3⟩ ∧
      toSocketAddrs (fun _ _ => []) cfg.host cfg.port = [⟨⟨.v6 (.new 0xfe80 0 0 0 0 0 0 1), 8080⟩, 0⟩] := by
  have hgiven : parseScopedAddr "[fe80::1%3]:8080".toList = some ⟨⟨.v6 (.new 0xfe80 0 0 0 0 0 0 1), 8080⟩, 3⟩ := by
    decide +kernel
  have hstart : TunRedirect.builder "[fe80::1%3]:8080".toList =
      .ok (.new ⟨.v6 (.new 0xfe80 0 0 0 0 0 0 1), 8080⟩) := by
    rw [TunRedirect.builder, parseSocketAddr_eq, hgiven]
    rfl
  obtain ⟨engine, hbuild⟩ : ∃ engine,
      (TunRedirectBuilder.new ⟨.v6 (.new 0xfe80 0 0 0 0 0 0 1), 8080⟩).build backslashRegex 1 = .ok (.ok engine) :=
    ⟨_, rfl⟩
  obtain ⟨given, hg, -, hdial⟩ := default_proxy_is_dialed (R := backslashRegex) 1 hstart rfl rfl
  obtain ⟨cfg, hfind, -, -, hconn⟩ := hdial engine hbuild 0
  obtain rfl := Option.some.inj (hgiven.symm.trans hg)
  exact ⟨_, engine, cfg, hstart, hbuild, hfind, hgiven, hconn _⟩

end AceTun
