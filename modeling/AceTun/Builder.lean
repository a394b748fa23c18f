import AceTun.Netstack.Handle
import AceTun.Rule.FirstMatch

/-!
# Building an engine

`TunRedirectBuilder.build` numbers the registered proxies from 1, checks each of them and compiles the rules. A rule
names a proxy by its number, or by 0 if it does not name one. `Shared::find_proxy_config` is to be the inverse of that
numbering, and it is exactly for the numbers that were given out (`names_iff`): for any other it falls back to the first
proxy, so a rule that names a proxy which was never registered is not blocked (`unregistered_proxy_is_first`).
-/

namespace AceTun

open RustStd

structure TunRedirectBuilder where
  proxyAddr : SocketAddr
  rules : List Rule
  proxyConfigs : List ProxyConfig
  quicPort : UInt16
  quicPolicy : QuicPolicy
  ipv6 : Bool
  localhostViaProxy : Bool
  /-- Whether a log sink was registered. -/
  logCb : Bool
  /-- Whether a connection sink was registered. -/
  connCb : Bool

/-- A built engine that was never started; what its calls do to it is the business of `Engine`. -/
structure TunRedirect (R : RegexCrate) where
  shared : Shared R
  ipv6 : Bool

/-- Number the configurations, the first of them `i + 1`, and check each. -/
def assignIds : (i : Nat) → List ProxyConfig → Except Error (List ProxyConfig)
  | _, [] => .ok []
  | i, cfg :: cfgs => do
    let cfg := { cfg with configId := UInt32.ofNat (i + 1) }
    cfg.validate
    let rest ← assignIds (i + 1) cfgs
    pure (cfg :: rest)

namespace TunRedirectBuilder

def DEFAULT_QUIC_PORT : UInt16 := 443

def new (proxyAddr : SocketAddr) : TunRedirectBuilder where
  proxyAddr
  rules := []
  proxyConfigs := []
  quicPort := DEFAULT_QUIC_PORT
  quicPolicy := .drop
  ipv6 := true
  localhostViaProxy := false
  logCb := false
  connCb := false

/-- The proxies of the engine: those registered, or an HTTP proxy at the builder's address. -/
def proxies (builder : TunRedirectBuilder) : List ProxyConfig :=
  if builder.proxyConfigs.isEmpty then [.http builder.proxyAddr.ip.toStr builder.proxyAddr.port]
  else builder.proxyConfigs

/-- `build`, in the process `currentPid`. -/
def build (R : RegexCrate) (currentPid : UInt32) (builder : TunRedirectBuilder) :
    Except Panic (Except Error (TunRedirect R)) :=
  match assignIds 0 builder.proxies with
  | .error e => .ok (.error e)
  | .ok proxyConfigs => do
    let rules ← RuleSet.new R builder.rules
    pure (.ok {
      shared := {
        running := false
        ifaceCell := none
        rules
        proxyConfigs
        dnsCache := .new DNS_CACHE_TTL
        localhostViaProxy := builder.localhostViaProxy
        quicPort := builder.quicPort
        quicPolicy := builder.quicPolicy
        currentPid
        stats := ⟨0, 0, 0, 0, 0, 0, 0⟩
        logCb := builder.logCb
        connCb := builder.connCb }
      ipv6 := builder.ipv6 })

/-- The proxy that a rule means by `id`: the first for 0, and the `id`-th otherwise, if there is one. -/
def named (builder : TunRedirectBuilder) (id : UInt32) : Option ProxyConfig :=
  let number := if id = 0 then 1 else id
  builder.proxies[number.toNat - 1]?.map fun cfg => { cfg with configId := number }

theorem proxies_ne_nil (builder : TunRedirectBuilder) : builder.proxies ≠ [] := by
  unfold proxies
  split
  · simp
  · next h => simpa using h

end TunRedirectBuilder

/-! ## The numbers -/

/-- The configurations with their numbers, as far as 32 bits go. -/
def numbered (i : Nat) (cfgs : List ProxyConfig) : List ProxyConfig :=
  cfgs.mapIdx fun k cfg => { cfg with configId := UInt32.ofNat (i + k + 1) }

theorem assignIds_eq {i : Nat} {cfgs out : List ProxyConfig} (h : assignIds i cfgs = .ok out) :
    out = numbered i cfgs := by
  induction cfgs generalizing i out with
  | nil =>
    cases h
    rfl
  | cons cfg cfgs ih =>
    obtain ⟨-, -, h⟩ := except_bind_eq_ok.mp h
    obtain ⟨rest, hrest, h⟩ := except_bind_eq_ok.mp h
    cases h
    have hnext : ∀ k, i + 1 + k + 1 = i + (k + 1) + 1 := by omega
    rw [ih hrest]
    simp [numbered, List.mapIdx_cons, hnext]

section Numbered

variable {cfgs : List ProxyConfig} {k : Nat}

theorem length_numbered : (numbered 0 cfgs).length = cfgs.length := List.length_mapIdx

theorem configId_numbered (hk : k < (numbered 0 cfgs).length) :
    (numbered 0 cfgs)[k].configId = UInt32.ofNat (k + 1) := by
  simp [numbered]

/-- Among the first `2 ^ 32` configurations a number is given out once. -/
theorem find_numbered (hk : k < 2 ^ 32) (hn : k < cfgs.length) :
    (numbered 0 cfgs).find? (·.configId == UInt32.ofNat (k + 1)) = (numbered 0 cfgs)[k]? := by
  have hlen : k < (numbered 0 cfgs).length := by rwa [length_numbered]
  rw [List.getElem?_eq_getElem hlen, List.find?_eq_some_iff_getElem]
  refine ⟨by rw [configId_numbered hlen, beq_self_eq_true], k, hlen, rfl, fun j hj => ?_⟩
  rw [configId_numbered (Nat.lt_trans hj hlen), Bool.not_eq_true', beq_eq_false_iff_ne]
  intro he
  have hmod := congrArg UInt32.toNat he
  rw [UInt32.toNat_ofNat', UInt32.toNat_ofNat'] at hmod
  omega

theorem find_unnumbered {id : UInt32} (hid : ∀ k < cfgs.length, UInt32.ofNat (k + 1) ≠ id) :
    (numbered 0 cfgs).find? (·.configId == id) = none := by
  rw [List.find?_eq_none]
  intro cfg hcfg he
  obtain ⟨k, hk, rfl⟩ := List.mem_iff_getElem.mp hcfg
  rw [configId_numbered hk, beq_iff_eq] at he
  exact hid k (length_numbered ▸ hk) he

end Numbered

/-! ## The proxy that a rule names -/

section Build

variable {R : RegexCrate} {currentPid : UInt32} {builder : TunRedirectBuilder} {engine : TunRedirect R}

theorem build_proxyConfigs (h : builder.build R currentPid = .ok (.ok engine)) :
    engine.shared.proxyConfigs = numbered 0 builder.proxies := by
  unfold TunRedirectBuilder.build at h
  cases hn : assignIds 0 builder.proxies with
  | error e => rw [hn] at h; cases h
  | ok out =>
    rw [hn] at h
    obtain ⟨rules, -, h⟩ := except_bind_eq_ok.mp h
    cases h
    exact assignIds_eq hn

/-- The proxy that a rule means by `id` is the one that is found for it; where there is none, the flow is blocked. -/
def Names (builder : TunRedirectBuilder) (shared : Shared R) (id : UInt32) : Prop :=
  shared.findProxyConfig id = builder.named id ∧
    (builder.named id = none → ∀ base64 env facts, handleProxied base64 env shared facts id =
      failClosed ("proxy configuration ".toList ++ showNat id.toNat ++ " missing for ".toList ++ facts.dest.toStr ++
        "; blocking proxied flow".toList))

theorem named_of_ne_zero {id : UInt32} (h0 : id ≠ 0) :
    builder.named id = (numbered 0 builder.proxies)[id.toNat - 1]? := by
  have hpos : id.toNat ≠ 0 := fun he => h0 (UInt32.toNat_inj.mp he)
  have hid : 0 + (id.toNat - 1) + 1 = id.toNat := by omega
  simp only [TunRedirectBuilder.named, h0, ↓reduceIte, numbered, List.getElem?_mapIdx, hid, UInt32.ofNat_toNat]

theorem named_zero : builder.named 0 = (numbered 0 builder.proxies)[0]? := by
  simp [TunRedirectBuilder.named, numbered]

theorem findProxyConfig_built (h : builder.build R currentPid = .ok (.ok engine)) (id : UInt32) :
    engine.shared.findProxyConfig id =
      ((numbered 0 builder.proxies).find? (·.configId == id)).or (numbered 0 builder.proxies)[0]? := by
  rw [Shared.findProxyConfig, build_proxyConfigs h, List.head?_eq_getElem?]

/-- A number that was given out finds its proxy. -/
theorem find_given (h : builder.build R currentPid = .ok (.ok engine)) {id : UInt32} (h0 : id ≠ 0)
    (hle : id.toNat ≤ builder.proxies.length) :
    engine.shared.findProxyConfig id = builder.named id ∧ builder.named id ≠ none := by
  have hpos : id.toNat ≠ 0 := fun he => h0 (UInt32.toNat_inj.mp he)
  have hlt : id.toNat < 2 ^ 32 := id.toNat_lt
  have hn : id.toNat - 1 < builder.proxies.length := by omega
  have hfind := find_numbered (by omega) hn
  rw [Nat.sub_add_cancel (by omega), UInt32.ofNat_toNat] at hfind
  have hget : (numbered 0 builder.proxies)[id.toNat - 1]? ≠ none := by
    rw [ne_eq, List.getElem?_eq_none_iff, length_numbered]
    omega
  rw [findProxyConfig_built h, hfind, named_of_ne_zero h0]
  refine ⟨?_, hget⟩
  obtain ⟨cfg, hcfg⟩ := Option.ne_none_iff_exists'.mp hget
  rw [hcfg, Option.some_or]

/-- A number that was not finds the first proxy. -/
theorem find_ungiven (h : builder.build R currentPid = .ok (.ok engine)) {id : UInt32}
    (hgt : builder.proxies.length < id.toNat) :
    engine.shared.findProxyConfig id = (numbered 0 builder.proxies)[0]? ∧ builder.named id = none := by
  have h0 : id ≠ 0 := by
    rintro rfl
    exact absurd hgt (Nat.not_lt_zero _)
  have hlt : id.toNat < 2 ^ 32 := id.toNat_lt
  constructor
  · rw [findProxyConfig_built h, find_unnumbered, Option.none_or]
    rintro k hk rfl
    rw [UInt32.toNat_ofNat'] at hgt hlt
    omega
  · rw [named_of_ne_zero h0, List.getElem?_eq_none_iff, length_numbered]
    omega

/-- No number is 0 until 32 bits are used up; then one is, and it is found. -/
theorem find_zero (h : builder.build R currentPid = .ok (.ok engine)) :
    engine.shared.findProxyConfig 0 = builder.named 0 ↔ builder.proxies.length < 2 ^ 32 := by
  rw [findProxyConfig_built h, named_zero]
  by_cases hlen : builder.proxies.length < 2 ^ 32
  · rw [find_unnumbered, Option.none_or]
    · exact iff_of_true rfl hlen
    · intro k hk he
      have hmod := congrArg UInt32.toNat he
      rw [UInt32.toNat_ofNat', UInt32.toNat_zero] at hmod
      omega
  · refine iff_of_false (fun he => ?_) hlen
    have hn : 2 ^ 32 - 1 < (numbered 0 builder.proxies).length := by rw [length_numbered]; omega
    have h0 : 0 < (numbered 0 builder.proxies).length := by omega
    have hlast : 2 ^ 32 - 1 < builder.proxies.length := by omega
    have hfind := find_numbered (by omega) hlast
    rw [List.getElem?_eq_getElem hn] at hfind
    have hzero : UInt32.ofNat (2 ^ 32 - 1 + 1) = 0 := rfl
    rw [hzero] at hfind
    rw [hfind, Option.some_or, List.getElem?_eq_getElem h0] at he
    have hids := congrArg ProxyConfig.configId (Option.some.inj he)
    rw [configId_numbered, configId_numbered] at hids
    exact absurd hids (by decide)

/-- **A rule finds the proxy it names exactly when its number was given out**, or it names none and 32 bits are enough
for all of them. -/
theorem names_iff (h : builder.build R currentPid = .ok (.ok engine)) (id : UInt32) :
    Names builder engine.shared id ↔
      id.toNat ≤ builder.proxies.length ∧ (id = 0 → builder.proxies.length < 2 ^ 32) := by
  have hne : (numbered 0 builder.proxies)[0]? ≠ none := by
    rw [ne_eq, List.getElem?_eq_none_iff, length_numbered]
    have := List.length_pos_iff.mpr builder.proxies_ne_nil
    omega
  by_cases h0 : id = 0
  · subst h0
    have hzero := find_zero h
    have hsome : builder.named 0 ≠ none := named_zero ▸ hne
    constructor
    · rintro ⟨hfind, -⟩
      exact ⟨Nat.zero_le _, fun _ => hzero.mp hfind⟩
    · rintro ⟨-, hlen⟩
      exact ⟨hzero.mpr (hlen rfl), fun hn => absurd hn hsome⟩
  · by_cases hle : id.toNat ≤ builder.proxies.length
    · obtain ⟨hfind, hsome⟩ := find_given h h0 hle
      exact iff_of_true ⟨hfind, fun hn => absurd hn hsome⟩ ⟨hle, fun he => absurd he h0⟩
    · obtain ⟨hfind, hnone⟩ := find_ungiven h (Nat.lt_of_not_le hle)
      refine iff_of_false (fun hnames => ?_) fun hc => hle hc.1
      rw [Names, hfind, hnone] at hnames
      exact hne hnames.1

end Build

/-- Two proxies, and a rule for the second. -/
def sampleBuilder : TunRedirectBuilder :=
  { TunRedirectBuilder.new ⟨.v4 (.new 127 0 0 1), 1⟩ with
    proxyConfigs := [.http "127.0.0.1".toList 8080, .socks5 "127.0.0.1".toList 1080] }

/-- The second proxy is found by its number. -/
theorem registered_proxy_is_named :
    ∃ engine, sampleBuilder.build backslashRegex 1 = .ok (.ok engine) ∧ Names sampleBuilder engine.shared 2 := by
  obtain ⟨engine, h⟩ : ∃ engine, sampleBuilder.build backslashRegex 1 = .ok (.ok engine) := ⟨_, rfl⟩
  exact ⟨engine, h, (names_iff h 2).mpr (by decide)⟩

/-- **The number of no proxy finds the first**, where nothing should be found and the flow be blocked. -/
theorem unregistered_proxy_is_first :
    ∃ engine, sampleBuilder.build backslashRegex 1 = .ok (.ok engine) ∧ sampleBuilder.named 7 = none ∧
      engine.shared.findProxyConfig 7 = some { ProxyConfig.http "127.0.0.1".toList 8080 with configId := 1 } :=
  ⟨_, rfl, by decide, by decide⟩

end AceTun
