import AceTun.Rule.Pattern

/-!
# Rules and their evaluation

A `Rule` pairs filters with an action; `RuleSet.new` compiles a list of rules, and `RuleSet.evaluate` runs a connection
through it, holding the first fully wildcard rule back as the fallback. Compiling a process list and matching a process
name cut a text at a byte offset, so both may panic.

`R : RegexCrate` stands for the `regex` crate.
-/

namespace AceTun

open RustStd

/-- What to do with a matched connection. -/
inductive RuleAction where
  | proxy
  | direct
  | block
  deriving DecidableEq, Repr

inductive RuleProtocol where
  | tcp
  | udp
  | both
  deriving DecidableEq, Repr

def RuleProtocol.matches : RuleProtocol → (isUdp : Bool) → Bool
  | .both, _ => true
  | .tcp, isUdp => !isUdp
  | .udp, isUdp => isUdp

structure Rule where
  processNames : Str
  hosts : Str
  ports : Str
  domains : Str
  exceptHosts : Option Str
  protocol : RuleProtocol
  action : RuleAction
  proxyConfigId : UInt32
  deriving DecidableEq, Repr

/-- A rule for a list of processes; every other filter matches everything. -/
def Rule.new (processNames : Str) : Rule where
  processNames
  hosts := "*".toList
  ports := "*".toList
  domains := "*".toList
  exceptHosts := none
  protocol := .both
  action := .direct
  proxyConfigId := 0

/-- The part of the `regex` crate that the engine calls. -/
structure RegexCrate where
  Regex : Type
  /-- `Regex::new`, without the error. -/
  new : Str → Option Regex
  isMatch : Regex → Str → Bool
  escape : Str → Str

section Compile

variable (R : RegexCrate)

/-- The regex text of one character of a glob. -/
def globPiece (c : Char) : Str :=
  if c = '*' then ".*".toList else if c = '?' then ".".toList else R.escape [c]

/-- A case-insensitive glob, as an anchored regex. -/
def compileGlob (glob : Str) : Option R.Regex :=
  R.new ("(?i)^".toList ++ glob.flatMap (globPiece R) ++ "$".toList)

def compileGlobList (list : Str) : List R.Regex :=
  if isMatchAll list then [] else (splitList list).filterMap (compileGlob R)

def compileProcessList (list : Str) : Except Panic (List R.Regex) :=
  if isMatchAll list then .ok []
  else do
    let tokens ← (splitList list).mapM stripExeSuffix
    pure (tokens.filterMap (compileGlob R))

structure CompiledRule where
  processMatchers : List R.Regex
  processWildcard : Bool
  hosts : Str
  hostsAll : Bool
  ports : Str
  portsAll : Bool
  domainMatchers : List R.Regex
  domainsAll : Bool
  exceptHosts : Option Str
  protocol : RuleProtocol
  action : RuleAction
  proxyConfigId : UInt32

def Rule.compile (rule : Rule) : Except Panic (CompiledRule R) := do
  let processMatchers ← compileProcessList R rule.processNames
  pure {
    processMatchers
    processWildcard := isMatchAll rule.processNames
    hosts := rule.hosts
    hostsAll := isMatchAll rule.hosts
    ports := rule.ports
    portsAll := isMatchAll rule.ports
    domainMatchers := compileGlobList R rule.domains
    domainsAll := isMatchAll rule.domains
    exceptHosts := rule.exceptHosts
    protocol := rule.protocol
    action := rule.action
    proxyConfigId := rule.proxyConfigId }

end Compile

structure RuleMatch where
  action : RuleAction
  proxyConfigId : UInt32
  deriving DecidableEq, Repr

/-- The compiled rules, with whether some rule has a domain filter. -/
structure RuleSet (R : RegexCrate) where
  rules : List (CompiledRule R)
  hasDomainRules : Bool
  hasDomainRules_eq : hasDomainRules = rules.any (! ·.domainsAll)

variable {R : RegexCrate}

namespace CompiledRule

def asMatch (rule : CompiledRule R) : RuleMatch := ⟨rule.action, rule.proxyConfigId⟩

def matchesProcess (rule : CompiledRule R) (processName : Str) : Except Panic Bool :=
  if rule.processWildcard then .ok true
  else do
    let name ← stripExeSuffix processName
    pure (rule.processMatchers.any (R.isMatch · name))

def matchesDomain (rule : CompiledRule R) : (domain : Option Str) → Bool
  | some d => rule.domainMatchers.any (R.isMatch · d)
  | none => false

def matchesTarget (rule : CompiledRule R) (dest : IpAddr) (destPort : UInt16) (domain : Option Str) : Bool :=
  if rule.exceptHosts.any (matchIpList · dest) then false
  else
    (rule.hostsAll || matchIpList rule.hosts dest) && (rule.portsAll || matchPortList rule.ports destPort) &&
      (rule.domainsAll || rule.matchesDomain domain)

/-- Some filter other than the process list is set. -/
def filtered (rule : CompiledRule R) : Bool :=
  !rule.hostsAll || !rule.portsAll || !rule.domainsAll || rule.exceptHosts.isSome

end CompiledRule

namespace RuleSet

def new (R : RegexCrate) (rules : List Rule) : Except Panic (RuleSet R) := do
  let compiled ← rules.mapM (Rule.compile R)
  pure ⟨compiled, compiled.any (! ·.domainsAll), rfl⟩

def needsDomainResolution (set : RuleSet R) : Bool := set.hasDomainRules

section Evaluate

variable (processName : Str) (dest : IpAddr) (destPort : UInt16) (isUdp : Bool) (domain : Option Str)

/-- The loop of `evaluate`: the rules that are left, and the fallback so far. -/
def evaluateLoop : List (CompiledRule R) → (fallback : Option (CompiledRule R)) → Except Panic RuleMatch
  | [], some rule => .ok rule.asMatch
  | [], none => .ok ⟨.direct, 0⟩
  | rule :: rules, fallback =>
    if !rule.protocol.matches isUdp then evaluateLoop rules fallback
    else if rule.processWildcard then
      if rule.filtered then
        if rule.matchesTarget dest destPort domain then .ok rule.asMatch else evaluateLoop rules fallback
      -- a fully wildcard rule is held back
      else evaluateLoop rules (if fallback.isNone then some rule else fallback)
    else do
      let named ← rule.matchesProcess processName
      if named && rule.matchesTarget dest destPort domain then .ok rule.asMatch else evaluateLoop rules fallback

def evaluate (set : RuleSet R) : Except Panic RuleMatch :=
  evaluateLoop processName dest destPort isUdp domain set.rules none

end Evaluate

end RuleSet

/-! ## Compiled rules and their sources -/

/-- What a mapped list holds, and what it comes from. -/
theorem mapM_mem {α β ε : Type} {f : α → Except ε β} {l : List α} {l' : List β} (h : l.mapM f = .ok l') :
    (∀ b ∈ l', ∃ a ∈ l, f a = .ok b) ∧ ∀ a ∈ l, ∃ b ∈ l', f a = .ok b := by
  induction l generalizing l' with
  | nil =>
    cases h
    simp
  | cons a l ih =>
    obtain ⟨b, bs, hb, hbs, rfl⟩ := mapM_cons_eq_ok.mp h
    obtain ⟨h1, h2⟩ := ih hbs
    constructor
    · intro x hx
      rcases List.mem_cons.mp hx with rfl | hx
      · exact ⟨a, List.mem_cons_self, hb⟩
      · obtain ⟨y, hy, hxy⟩ := h1 x hx
        exact ⟨y, List.mem_cons_of_mem _ hy, hxy⟩
    · intro x hx
      rcases List.mem_cons.mp hx with rfl | hx
      · exact ⟨b, List.mem_cons_self, hb⟩
      · obtain ⟨y, hy, hxy⟩ := h2 x hx
        exact ⟨y, List.mem_cons_of_mem _ hy, hxy⟩

theorem RuleSet.new_rules {rules : List Rule} {set : RuleSet R} (h : RuleSet.new R rules = .ok set) :
    rules.mapM (Rule.compile R) = .ok set.rules := by
  obtain ⟨compiled, hc, h⟩ := except_bind_eq_ok.mp h
  cases h
  exact hc

theorem Rule.compile_domainsAll {rule : Rule} {compiled : CompiledRule R} (h : rule.compile R = .ok compiled) :
    compiled.domainsAll = isMatchAll rule.domains := by
  obtain ⟨matchers, -, h⟩ := except_bind_eq_ok.mp h
  cases h
  rfl

/-- Names are looked up exactly when some rule has a domain filter. -/
theorem RuleSet.needsDomainResolution_iff {rules : List Rule} {set : RuleSet R} (h : RuleSet.new R rules = .ok set) :
    set.needsDomainResolution = true ↔ ∃ rule ∈ rules, isMatchAll rule.domains = false := by
  obtain ⟨hof, hto⟩ := mapM_mem (RuleSet.new_rules h)
  rw [needsDomainResolution, set.hasDomainRules_eq, List.any_eq_true]
  constructor
  · rintro ⟨compiled, hmem, hall⟩
    obtain ⟨rule, hr, hc⟩ := hof compiled hmem
    exact ⟨rule, hr, by simpa [Rule.compile_domainsAll hc] using hall⟩
  · rintro ⟨rule, hmem, hall⟩
    obtain ⟨compiled, hr, hc⟩ := hto rule hmem
    exact ⟨compiled, hr, by simpa [Rule.compile_domainsAll hc] using hall⟩

/-! ## Rules without a domain filter -/

theorem CompiledRule.matchesTarget_domain {rule : CompiledRule R} (h : rule.domainsAll = true) (dest : IpAddr)
    (destPort : UInt16) (domain domain' : Option Str) :
    rule.matchesTarget dest destPort domain = rule.matchesTarget dest destPort domain' := by
  simp [matchesTarget, h]

/-- Where no rule that is left has a domain filter, the loop does not look at the name. -/
theorem RuleSet.evaluateLoop_domain {rules : List (CompiledRule R)} (h : ∀ rule ∈ rules, rule.domainsAll = true)
    (processName : Str) (dest : IpAddr) (destPort : UInt16) (isUdp : Bool) (domain domain' : Option Str)
    (fallback : Option (CompiledRule R)) :
    evaluateLoop processName dest destPort isUdp domain rules fallback =
      evaluateLoop processName dest destPort isUdp domain' rules fallback := by
  induction rules generalizing fallback with
  | nil => cases fallback <;> rfl
  | cons rule rules ih =>
    have hrest := ih fun x hx => h x (List.mem_cons_of_mem _ hx)
    have htarget := CompiledRule.matchesTarget_domain (h rule List.mem_cons_self) dest destPort domain domain'
    simp only [evaluateLoop, htarget, hrest]

/-- Names that are not looked up could not have mattered. -/
theorem RuleSet.evaluate_domain {set : RuleSet R} (h : set.needsDomainResolution = false) (processName : Str)
    (dest : IpAddr) (destPort : UInt16) (isUdp : Bool) (domain domain' : Option Str) :
    set.evaluate processName dest destPort isUdp domain = set.evaluate processName dest destPort isUdp domain' := by
  refine evaluateLoop_domain (fun rule hmem => ?_) ..
  rw [needsDomainResolution, set.hasDomainRules_eq, List.any_eq_false] at h
  simpa using h rule hmem

end AceTun
