import Mathlib.Data.List.Forall2
import AceTun.Rule.FirstMatch
import AceTun.Rule.Glob
import AceTun.Rule.Tokens

/-!
# Lists of tokens

A filter is read twice: once as a whole, where an empty text, `*` and `ANY` stand for everything (`isMatchAll`), and once
token by token (`splitList`). The two readings do not agree on every spelling.

Two spellings with the same tokens are interchangeable in every rule and for every flow exactly when both or neither of
them is read as everything (`sameTokens_iff`); so `*` and `*;` are not. An exception list removes exactly what its tokens
match unless it is blank: that is read as everything too, and takes every destination from the rule (`except_iff`).
-/

namespace AceTun

open RustStd

variable {R : RegexCrate}

/-! ## Rules that behave alike -/

theorem CompiledRule.matchesTarget_eq (rule : CompiledRule R) (dest : IpAddr) (destPort : UInt16) (domain : Option Str) :
    rule.matchesTarget dest destPort domain =
      (!rule.exceptHosts.any (matchIpList · dest) &&
        ((rule.hostsAll || matchIpList rule.hosts dest) && (rule.portsAll || matchPortList rule.ports destPort) &&
          (rule.domainsAll || rule.matchesDomain domain))) := by
  unfold matchesTarget
  cases rule.exceptHosts.any (matchIpList · dest) <;> rfl

/-- What the evaluation sees of two rules is the same. -/
structure CompiledRule.Alike (rule rule' : CompiledRule R) : Prop where
  asMatch : rule.asMatch = rule'.asMatch
  protocol : rule.protocol = rule'.protocol
  processWildcard : rule.processWildcard = rule'.processWildcard
  filtered : rule.filtered = rule'.filtered
  process : ∀ name, rule.matchesProcess name = rule'.matchesProcess name
  target : ∀ dest destPort domain, rule.matchesTarget dest destPort domain = rule'.matchesTarget dest destPort domain

theorem CompiledRule.Alike.refl (rule : CompiledRule R) : rule.Alike rule :=
  ⟨rfl, rfl, rfl, rfl, fun _ => rfl, fun _ _ _ => rfl⟩

section Evaluate

variable {processName : Str} {dest : IpAddr} {destPort : UInt16} {isUdp : Bool} {domain : Option Str}

theorem evaluateLoop_alike {rules rules' : List (CompiledRule R)} (h : List.Forall₂ CompiledRule.Alike rules rules')
    {fallback fallback' : Option (CompiledRule R)}
    (hf : fallback.map CompiledRule.asMatch = fallback'.map CompiledRule.asMatch) :
    RuleSet.evaluateLoop processName dest destPort isUdp domain rules fallback =
      RuleSet.evaluateLoop processName dest destPort isUdp domain rules' fallback' := by
  induction h generalizing fallback fallback' with
  | nil =>
    cases fallback with
    | none =>
      cases fallback' with
      | none => rfl
      | some _ => cases hf
    | some rule =>
      cases fallback' with
      | none => cases hf
      | some rule' => exact congrArg Except.ok (Option.some.inj hf)
  | @cons rule rule' rules rules' ha _ ih =>
    have hheld : (if fallback.isNone then some rule else fallback).map CompiledRule.asMatch =
        (if fallback'.isNone then some rule' else fallback').map CompiledRule.asMatch := by
      cases fallback with
      | none =>
        cases fallback' with
        | none => exact congrArg some ha.asMatch
        | some _ => cases hf
      | some rule =>
        cases fallback' with
        | none => cases hf
        | some rule' => exact hf
    simp only [RuleSet.evaluateLoop, ha.asMatch, ha.protocol, ha.processWildcard, ha.filtered, ha.process, ha.target,
      ih hf, ih hheld]

/-- The compiled rule, with the matchers of its process list. -/
def Rule.compiledWith (rule : Rule) (processMatchers : List R.Regex) : CompiledRule R where
  processMatchers
  processWildcard := isMatchAll rule.processNames
  hosts := rule.hosts
  hostsAll := isMatchAll rule.hosts
  ports := rule.ports
  portsAll := isMatchAll rule.ports
  domainMatchers := compileGlobList R rule.domains
  domainsAll := isMatchAll rule.domains
  exceptHosts := rule.exceptHosts
  protocol := rule.protocol
  action := rule.action
  proxyConfigId := rule.proxyConfigId

theorem Rule.compile_of_ok {rule : Rule} {matchers : List R.Regex}
    (h : compileProcessList R rule.processNames = .ok matchers) : rule.compile R = .ok (rule.compiledWith matchers) := by
  rw [Rule.compile, h]
  rfl

theorem Rule.compile_of_error {rule : Rule} {p : Panic} (h : compileProcessList R rule.processNames = .error p) :
    rule.compile R = .error p := by
  rw [Rule.compile, h]
  rfl

/-- Two rules compile to rules that behave alike, or both panic. -/
def CompilesAlike (R : RegexCrate) (rule rule' : Rule) : Prop :=
  (∃ p, rule.compile R = .error p ∧ rule'.compile R = .error p) ∨
    ∃ compiled compiled', rule.compile R = .ok compiled ∧ rule'.compile R = .ok compiled' ∧ compiled.Alike compiled'

/-- Rules of one process list. -/
theorem compilesAlike_of_processNames {rule rule' : Rule} (hp : rule.processNames = rule'.processNames)
    (h : ∀ matchers : List R.Regex, (rule.compiledWith matchers).Alike (rule'.compiledWith matchers)) :
    CompilesAlike R rule rule' := by
  cases hm : compileProcessList R rule.processNames with
  | error p => exact .inl ⟨p, Rule.compile_of_error hm, Rule.compile_of_error (hp ▸ hm)⟩
  | ok matchers => exact .inr ⟨_, _, Rule.compile_of_ok hm, Rule.compile_of_ok (hp ▸ hm), h matchers⟩

/-- **A rule may be replaced by one that compiles alike**, anywhere in a list. -/
theorem evaluateRules_replace {rule rule' : Rule} (h : CompilesAlike R rule rule') (pre post : List Rule) :
    evaluateRules R (pre ++ rule :: post) processName dest destPort isUdp domain =
      evaluateRules R (pre ++ rule' :: post) processName dest destPort isUdp domain := by
  unfold evaluateRules RuleSet.new
  rw [List.mapM_append, List.mapM_append, List.mapM_cons, List.mapM_cons]
  cases pre.mapM (Rule.compile R) with
  | error p => rfl
  | ok front =>
    rcases h with ⟨p, hr, hr'⟩ | ⟨compiled, compiled', hr, hr', ha⟩
    · rw [hr, hr']
    · rw [hr, hr']
      cases post.mapM (Rule.compile R) with
      | error p => rfl
      | ok back =>
        have hrefl : ∀ l : List (CompiledRule R), List.Forall₂ CompiledRule.Alike l l :=
          fun l => List.forall₂_same.mpr fun rule _ => .refl rule
        exact evaluateLoop_alike (List.rel_append (hrefl front) (.cons ha (hrefl back))) rfl

end Evaluate

/-! ## The lists of a rule -/

inductive ListField where
  | processNames
  | hosts
  | ports
  | domains
  | exceptHosts
  deriving DecidableEq, Repr

/-- The rule with one of its lists replaced. -/
def Rule.withList (rule : Rule) : ListField → Str → Rule
  | .processNames, list => { rule with processNames := list }
  | .hosts, list => { rule with hosts := list }
  | .ports, list => { rule with ports := list }
  | .domains, list => { rule with domains := list }
  | .exceptHosts, list => { rule with exceptHosts := some list }

def SameTokens (list list' : Str) : Prop := ∀ t, t ∈ splitList list ↔ t ∈ splitList list'

theorem any_of_same_mem {α : Type} {l l' : List α} (h : ∀ a, a ∈ l ↔ a ∈ l') (p : α → Bool) : l.any p = l'.any p := by
  rw [Bool.eq_iff_iff, List.any_eq_true, List.any_eq_true]
  simp only [h]

section SameTokens

variable {list list' : Str}

theorem matchIpList_congr (h : SameTokens list list') (hall : isMatchAll list = isMatchAll list') (dest : IpAddr) :
    matchIpList list dest = matchIpList list' dest := by
  rw [matchIpList, matchIpList, hall, any_of_same_mem h]

theorem matchPortList_congr (h : SameTokens list list') (hall : isMatchAll list = isMatchAll list') (port : UInt16) :
    matchPortList list port = matchPortList list' port := by
  rw [matchPortList, matchPortList, hall, any_of_same_mem h]

theorem mem_filterMap_congr {α β : Type} {l l' : List α} (h : ∀ a, a ∈ l ↔ a ∈ l') (f : α → Option β) (b : β) :
    b ∈ l.filterMap f ↔ b ∈ l'.filterMap f := by
  simp only [List.mem_filterMap, h]

theorem compileGlobList_congr (h : SameTokens list list') (hall : isMatchAll list = isMatchAll list') (s : Str) :
    (compileGlobList R list).any (R.isMatch · s) = (compileGlobList R list').any (R.isMatch · s) := by
  unfold compileGlobList
  rw [hall]
  split
  · rfl
  · exact any_of_same_mem (mem_filterMap_congr h _) _

/-- Process lists of the same tokens panic alike, or match alike. -/
theorem compileProcessList_congr (h : SameTokens list list') (hall : isMatchAll list = isMatchAll list') :
    (∃ p, compileProcessList R list = .error p ∧ compileProcessList R list' = .error p) ∨
      ∃ matchers matchers', compileProcessList R list = .ok matchers ∧ compileProcessList R list' = .ok matchers' ∧
        ∀ s, matchers.any (R.isMatch · s) = matchers'.any (R.isMatch · s) := by
  unfold compileProcessList
  rw [hall]
  split
  · exact .inr ⟨[], [], rfl, rfl, fun _ => rfl⟩
  · rcases ReturnsIff.mapM stripExeSuffix_returnsIff (splitList list) with ⟨hw, tokens, ht⟩ | ⟨hw, he⟩
    · rcases ReturnsIff.mapM stripExeSuffix_returnsIff (splitList list') with ⟨-, tokens', ht'⟩ | ⟨hw', -⟩
      · -- both lists are cut to the same tokens
        have hmem : ∀ t, t ∈ tokens ↔ t ∈ tokens' := by
          obtain ⟨hof, hto⟩ := mapM_mem ht
          obtain ⟨hof', hto'⟩ := mapM_mem ht'
          intro t
          constructor
          · intro hm
            obtain ⟨a, ha, hs⟩ := hof t hm
            obtain ⟨b, hb, hs'⟩ := hto' a ((h a).mp ha)
            rw [hs] at hs'
            cases hs'
            exact hb
          · intro hm
            obtain ⟨a, ha, hs⟩ := hof' t hm
            obtain ⟨b, hb, hs'⟩ := hto a ((h a).mpr ha)
            rw [hs] at hs'
            cases hs'
            exact hb
        rw [ht, ht']
        exact .inr ⟨_, _, rfl, rfl, fun s => any_of_same_mem (mem_filterMap_congr hmem _) _⟩
      · exact absurd (fun t hm => hw t ((h t).mpr hm)) hw'
    · rcases ReturnsIff.mapM stripExeSuffix_returnsIff (splitList list') with ⟨hw', -⟩ | ⟨-, he'⟩
      · exact absurd (fun t hm => hw' t ((h t).mp hm)) hw
      · rw [he, he']
        exact .inl ⟨_, rfl, rfl⟩

theorem matchIpList_of_star (h : "*".toList ∈ splitList list) (dest : IpAddr) : matchIpList list dest = true := by
  rw [matchIpList, Bool.or_eq_true]
  exact .inr (List.any_eq_true.mpr ⟨_, h, rfl⟩)

/-- Lists of the same tokens are interchangeable if both are read in the same way as a whole. -/
theorem compilesAlike_withList {field : ListField} (h : SameTokens list list')
    (hall : isMatchAll list = isMatchAll list' ∨ field = .exceptHosts ∧ "*".toList ∈ splitList list) (rule : Rule) :
    CompilesAlike R (rule.withList field list) (rule.withList field list') := by
  cases field with
  | processNames =>
    have hall := hall.resolve_right (by simp)
    rcases @compileProcessList_congr R _ _ h hall with ⟨p, he, he'⟩ | ⟨matchers, matchers', hm, hm', hany⟩
    · exact .inl ⟨p, Rule.compile_of_error he, Rule.compile_of_error he'⟩
    · refine .inr ⟨_, _, Rule.compile_of_ok hm, Rule.compile_of_ok hm', rfl, rfl, hall, rfl, fun name => ?_,
        fun _ _ _ => rfl⟩
      simp [CompiledRule.matchesProcess, Rule.compiledWith, Rule.withList, hall, hany]
  | hosts =>
    have hall := hall.resolve_right (by simp)
    refine compilesAlike_of_processNames rfl fun matchers => ⟨rfl, rfl, rfl, ?_, fun _ => rfl, fun dest _ _ => ?_⟩
    · simp only [CompiledRule.filtered, Rule.compiledWith, Rule.withList, hall]
    · have hmatch := matchIpList_congr h hall dest
      simp only [CompiledRule.matchesTarget_eq, CompiledRule.matchesDomain, Rule.compiledWith, Rule.withList, hall,
        hmatch]
  | ports =>
    have hall := hall.resolve_right (by simp)
    refine compilesAlike_of_processNames rfl fun matchers => ⟨rfl, rfl, rfl, ?_, fun _ => rfl, fun _ destPort _ => ?_⟩
    · simp only [CompiledRule.filtered, Rule.compiledWith, Rule.withList, hall]
    · have hmatch := matchPortList_congr h hall destPort
      simp only [CompiledRule.matchesTarget_eq, CompiledRule.matchesDomain, Rule.compiledWith, Rule.withList, hall,
        hmatch]
  | domains =>
    have hall := hall.resolve_right (by simp)
    refine compilesAlike_of_processNames rfl fun matchers => ⟨rfl, rfl, rfl, ?_, fun _ => rfl, fun _ _ domain => ?_⟩
    · simp only [CompiledRule.filtered, Rule.compiledWith, Rule.withList, hall]
    · have hmatch := @compileGlobList_congr R _ _ h hall
      cases domain <;>
        simp only [CompiledRule.matchesTarget_eq, CompiledRule.matchesDomain, Rule.compiledWith, Rule.withList, hall,
        hmatch]
  | exceptHosts =>
    have hexcept : ∀ dest, matchIpList list dest = matchIpList list' dest := by
      intro dest
      rcases hall with hall | ⟨-, hstar⟩
      · exact matchIpList_congr h hall dest
      · rw [matchIpList_of_star hstar, matchIpList_of_star ((h _).mp hstar)]
    refine compilesAlike_of_processNames rfl fun matchers => ⟨rfl, rfl, rfl, rfl, fun _ => rfl, fun dest _ _ => ?_⟩
    simp only [CompiledRule.matchesTarget_eq, CompiledRule.matchesDomain, Rule.compiledWith, Rule.withList,
      Option.any_some, hexcept dest]

end SameTokens

/-! ## Spellings that differ -/

/-- A rule for everything. -/
def blockAllRule : Rule := { Rule.new "*".toList with action := .block }

/-- A rule for every process and one address. -/
def proxyHostRule : Rule := { Rule.new "*".toList with hosts := "1.2.3.4".toList, action := .proxy }

/-- The address of `proxyHostRule`. -/
def sampleHost : IpAddr := .v4 (.new 1 2 3 4)

/-- What a list of rules decides for a nameless flow to that address. -/
def decideSample (R : RegexCrate) (rules : List Rule) : Except Panic RuleMatch :=
  evaluateRules R rules [] sampleHost 0 false none

theorem decideSample_ok {rules : List Rule} {compiled : List (CompiledRule R)}
    (h : rules.mapM (Rule.compile R) = .ok compiled) :
    decideSample R rules = .ok (firstMatch [] sampleHost 0 false none compiled) := by
  unfold decideSample evaluateRules RuleSet.new
  rw [h]
  exact evaluateLoop_ok (.inl (.inl (by decide)))

theorem isMatchAll_star : isMatchAll ['*'] = true := by decide

theorem proxyHostRule_compiles : ∃ compiled, proxyHostRule.compile R = .ok compiled ∧
    compiled.specific [] sampleHost 0 false none = true ∧ compiled.asMatch = ⟨.proxy, 0⟩ := by
  refine ⟨_, @Rule.compile_of_ok R proxyHostRule [] (if_pos (by decide)), ?_, rfl⟩
  have hhost : matchIpList ['1', '.', '2', '.', '3', '.', '4'] sampleHost = true := by decide
  have hnot : isMatchAll ['1', '.', '2', '.', '3', '.', '4'] = false := by decide
  simp [CompiledRule.specific, CompiledRule.fullyWildcard, CompiledRule.namesProcess, CompiledRule.matchesTarget_eq,
    Rule.compiledWith, proxyHostRule, Rule.new, RuleProtocol.matches, isMatchAll_star, hnot, hhost]

theorem blockAllRule_fullyWildcard {field : ListField} (hf : field ≠ .exceptHosts) (list : Str) :
    (blockAllRule.withList field list).fullyWildcard = isMatchAll list := by
  cases field with
  | exceptHosts => exact absurd rfl hf
  | _ => simp [Rule.fullyWildcard, Rule.withList, blockAllRule, Rule.new, isMatchAll_star]

/-- A compiled rule that blocks, of either protocol. -/
theorem blockAllRule_compiled {field : ListField} {list : Str} {compiled : CompiledRule R}
    (h : (blockAllRule.withList field list).compile R = .ok compiled) :
    compiled.asMatch = ⟨.block, 0⟩ ∧ compiled.protocol = .both ∧
      compiled.fullyWildcard = (blockAllRule.withList field list).fullyWildcard := by
  have hwild := Rule.compile_fullyWildcard h
  obtain ⟨matchers, -, h⟩ := except_bind_eq_ok.mp h
  cases h
  exact ⟨by cases field <;> rfl, by cases field <;> rfl, hwild⟩

/-- Of a rule that is the fallback with one list and not with the other, some context tells the two apart. -/
theorem differ_of_isMatchAll {field : ListField} (hf : field ≠ .exceptHosts) {list list' : Str}
    (hall : isMatchAll list = true) (hnot : isMatchAll list' = false) :
    ∃ post, decideSample R (blockAllRule.withList field list :: post) ≠
      decideSample R (blockAllRule.withList field list' :: post) := by
  have hwhole : (blockAllRule.withList field list).NamesWhole := by
    refine .inl ?_
    cases field with
    | processNames => exact hall
    | _ => exact isMatchAll_star
  obtain ⟨-, compiled, hc⟩ := (Rule.compile_returnsIff (R := R) _).resolve_right fun h => h.1 hwhole
  obtain ⟨hmatch, hproto, hwild⟩ := blockAllRule_compiled hc
  rw [blockAllRule_fullyWildcard hf, hall] at hwild
  have hspec : compiled.specific [] sampleHost 0 false none = false := by simp [CompiledRule.specific, hwild]
  have hback : compiled.fallback false = true := by simp [CompiledRule.fallback, hwild, hproto, RuleProtocol.matches]
  have halone : decideSample R [blockAllRule.withList field list] = .ok ⟨.block, 0⟩ := by
    rw [decideSample_ok (by rw [List.mapM_cons, hc]; rfl)]
    simp [firstMatch, hspec, hback, hmatch]
  cases hc' : (blockAllRule.withList field list').compile R with
  | error p =>
    refine ⟨[], ?_⟩
    rw [halone, decideSample, evaluateRules, RuleSet.new, List.mapM_cons, hc']
    exact fun h => by cases h
  | ok compiled' =>
    obtain ⟨hmatch', hproto', hwild'⟩ := blockAllRule_compiled hc'
    rw [blockAllRule_fullyWildcard hf, hnot] at hwild'
    cases hs : compiled'.specific [] sampleHost 0 false none with
    | false =>
      -- it does not match, so nothing does
      refine ⟨[], ?_⟩
      have hback' : compiled'.fallback false = false := by simp [CompiledRule.fallback, hwild']
      rw [halone, decideSample_ok (by rw [List.mapM_cons, hc']; rfl)]
      simp [firstMatch, hs, hback']
    | true =>
      -- it matches at once, while the fallback lets the next rule go first
      obtain ⟨next, hn, hns, hnm⟩ := @proxyHostRule_compiles R
      refine ⟨[proxyHostRule], ?_⟩
      rw [decideSample_ok (by rw [List.mapM_cons, hc, List.mapM_cons, hn]; rfl),
        decideSample_ok (by rw [List.mapM_cons, hc', List.mapM_cons, hn]; rfl)]
      simp [firstMatch, hspec, hs, hns, hnm, hmatch']

/-- An exception list that is read as everything, and one of the same tokens that is not. -/
theorem differ_of_except {list list' : Str} (h : SameTokens list list') (hall : isMatchAll list = true)
    (hnot : isMatchAll list' = false) (hstar : "*".toList ∉ splitList list) :
    decideSample R [blockAllRule.withList .exceptHosts list] ≠
      decideSample R [blockAllRule.withList .exceptHosts list'] := by
  have hlist : matchIpList list sampleHost = true := by simp [matchIpList, hall]
  have hlist' : matchIpList list' sampleHost = false := by
    rw [matchIpList, hnot, Bool.false_or, List.any_eq_false]
    intro t ht
    rcases splitList_of_isMatchAll hall t ((h t).mpr ht) with rfl | hany
    · exact absurd ((h _).mpr ht) hstar
    · rw [sampleHost, matchIpPattern_any hany]
      exact Bool.false_ne_true
  have hcompile : ∀ l, (blockAllRule.withList .exceptHosts l).compile R =
      .ok ((blockAllRule.withList .exceptHosts l).compiledWith []) := fun l => Rule.compile_of_ok (if_pos isMatchAll_star)
  rw [decideSample_ok (by rw [List.mapM_cons, hcompile]; rfl), decideSample_ok (by rw [List.mapM_cons, hcompile]; rfl)]
  simp [firstMatch, CompiledRule.specific, CompiledRule.fallback, CompiledRule.fullyWildcard,
    CompiledRule.namesProcess, CompiledRule.matchesTarget_eq, Rule.compiledWith, Rule.withList, blockAllRule, Rule.new,
    RuleProtocol.matches, CompiledRule.asMatch, isMatchAll_star, hlist, hlist']

/-- **When a list means its set of tokens**: two spellings of the same tokens are interchangeable in every rule and for
every flow exactly when both or neither is read as everything. Exception lists with a token `*` exclude everything in
either reading. -/
theorem sameTokens_iff (R : RegexCrate) (field : ListField) {list list' : Str} (h : SameTokens list list') :
    (∀ pre (rule : Rule) post processName dest destPort isUdp domain,
      evaluateRules R (pre ++ rule.withList field list :: post) processName dest destPort isUdp domain =
        evaluateRules R (pre ++ rule.withList field list' :: post) processName dest destPort isUdp domain) ↔
      isMatchAll list = isMatchAll list' ∨ field = .exceptHosts ∧ "*".toList ∈ splitList list := by
  constructor
  · intro heq
    by_contra hno
    obtain ⟨hne, hstar⟩ := not_or.mp hno
    have hsample : ∀ post, decideSample R (blockAllRule.withList field list :: post) =
        decideSample R (blockAllRule.withList field list' :: post) := fun post => heq [] blockAllRule post ..
    by_cases hf : field = .exceptHosts
    · subst hf
      have hstar : "*".toList ∉ splitList list := fun hm => hstar ⟨rfl, hm⟩
      cases hall : isMatchAll list with
      | true =>
        have hnot : isMatchAll list' = false := by simpa [hall] using hne
        exact differ_of_except h hall hnot hstar (hsample [])
      | false =>
        have hall' : isMatchAll list' = true := by simpa [hall] using hne
        exact differ_of_except (fun t => (h t).symm) hall' hall (fun hm => hstar ((h _).mpr hm)) (hsample []).symm
    · cases hall : isMatchAll list with
      | true =>
        have hnot : isMatchAll list' = false := by simpa [hall] using hne
        obtain ⟨post, hpost⟩ := @differ_of_isMatchAll R _ hf _ _ hall hnot
        exact hpost (hsample post)
      | false =>
        have hall' : isMatchAll list' = true := by simpa [hall] using hne
        obtain ⟨post, hpost⟩ := @differ_of_isMatchAll R _ hf _ _ hall' hall
        exact hpost (hsample post).symm
  · intro hall pre rule post processName dest destPort isUdp domain
    exact evaluateRules_replace (compilesAlike_withList h hall rule) pre post

/-- Two spellings of a list of ports. -/
theorem sameTokens_ports :
    SameTokens "80;443".toList " 80 , 443;".toList ∧
      evaluateRules backslashRegex [blockAllRule.withList .ports "80;443".toList, proxyHostRule] [] sampleHost 443 false
          none =
        evaluateRules backslashRegex [blockAllRule.withList .ports " 80 , 443;".toList, proxyHostRule] [] sampleHost 443
          false none := by
  have h : SameTokens "80;443".toList " 80 , 443;".toList := fun t => by
    rw [show splitList "80;443".toList = splitList " 80 , 443;".toList by decide]
  have hall := (sameTokens_iff backslashRegex .ports h).mpr (.inl (by decide))
  exact ⟨h, hall [] blockAllRule [proxyHostRule] ..⟩

/-- **A trailing separator changes the meaning of `*`**: a rule for everything is held back as the fallback, and with
`*;` it comes first. -/
theorem star_with_separator_comes_first :
    SameTokens "*".toList "*;".toList ∧
      evaluateRules backslashRegex [blockAllRule.withList .processNames "*".toList, proxyHostRule] "chrome".toList
        sampleHost 443 false none = .ok ⟨.proxy, 0⟩ ∧
      evaluateRules backslashRegex [blockAllRule.withList .processNames "*;".toList, proxyHostRule] "chrome".toList
        sampleHost 443 false none = .ok ⟨.block, 0⟩ :=
  ⟨fun t => by rw [show splitList "*".toList = splitList "*;".toList by decide], by decide, by decide⟩

/-! ## Exceptions -/

/-- `Rule::except`. -/
def Rule.except (rule : Rule) (hosts : Str) : Rule := { rule with exceptHosts := some hosts }

section Except

variable {rule : Rule} {compiled plain : CompiledRule R} {list : Str}

/-- An exception list is tried before the rest of the rule. -/
theorem matchesTarget_except (hc : (rule.except list).compile R = .ok compiled)
    (hp : Rule.compile R { rule with exceptHosts := none } = .ok plain) (dest : IpAddr) (destPort : UInt16)
    (domain : Option Str) :
    compiled.matchesTarget dest destPort domain =
      (!matchIpList list dest && plain.matchesTarget dest destPort domain) := by
  obtain ⟨matchers, hm, hc⟩ := except_bind_eq_ok.mp hc
  obtain ⟨matchers', hm', hp⟩ := except_bind_eq_ok.mp hp
  cases hc
  cases hp
  simp [CompiledRule.matchesTarget_eq, CompiledRule.matchesDomain, Rule.except]

/-- **When an exception list removes what its tokens match, and nothing else**: unless it is blank and the rule without
it matches. -/
theorem except_iff (hstar : trim list ≠ "*".toList) (hany : eqIgnoreAsciiCase (trim list) "ANY".toList = false)
    (hc : (rule.except list).compile R = .ok compiled)
    (hp : Rule.compile R { rule with exceptHosts := none } = .ok plain) (dest : IpAddr) (destPort : UInt16)
    (domain : Option Str) :
    ((compiled.matchesTarget dest destPort domain = true ↔
        plain.matchesTarget dest destPort domain = true ∧ ∀ t ∈ splitList list, matchIpPattern t dest = false) ↔
      (trim list ≠ [] ∨ plain.matchesTarget dest destPort domain = false)) := by
  rw [matchesTarget_except hc hp, Bool.and_eq_true, Bool.not_eq_true']
  have hall : isMatchAll list = (trim list).isEmpty := by
    simp only [isMatchAll, hany, Bool.or_false, Bool.or_eq_left_iff_imp, beq_iff_eq]
    exact fun h => absurd h hstar
  by_cases hblank : trim list = []
  · -- every destination is excluded, and no token names one
    have hlist : matchIpList list dest = true := by simp [matchIpList, hall, hblank]
    rw [splitList_of_trim hblank]
    simp [hlist, hblank]
  · have hlist : matchIpList list dest = (splitList list).any (matchIpPattern · dest) := by
      simp [matchIpList, hall, hblank]
    rw [hlist, List.any_eq_false]
    simp [hblank, and_comm]

end Except

/-- Loopback is carved out of a rule for everything. -/
theorem except_loopback :
    ∃ compiled plain : CompiledRule backslashRegex,
      (blockAllRule.except "127.0.0.1".toList).compile backslashRegex = .ok compiled ∧
      Rule.compile backslashRegex { blockAllRule with exceptHosts := none } = .ok plain ∧
      (compiled.matchesTarget (.v4 (.new 127 0 0 1)) 443 none = true ↔
        plain.matchesTarget (.v4 (.new 127 0 0 1)) 443 none = true ∧
          ∀ t ∈ splitList "127.0.0.1".toList, matchIpPattern t (.v4 (.new 127 0 0 1)) = false) := by
  obtain ⟨compiled, hc⟩ : ∃ compiled, (blockAllRule.except "127.0.0.1".toList).compile backslashRegex = .ok compiled :=
    ⟨_, rfl⟩
  obtain ⟨plain, hp⟩ : ∃ plain, Rule.compile backslashRegex { blockAllRule with exceptHosts := none } = .ok plain :=
    ⟨_, rfl⟩
  exact ⟨compiled, plain, hc, hp, (except_iff (by decide) (by decide) hc hp _ _ _).mpr (.inl (by decide))⟩

/-- **An empty exception list excludes every destination.** -/
theorem except_blank_excludes_all :
    ∃ compiled plain : CompiledRule backslashRegex,
      (blockAllRule.except []).compile backslashRegex = .ok compiled ∧
      Rule.compile backslashRegex { blockAllRule with exceptHosts := none } = .ok plain ∧ splitList [] = [] ∧
      plain.matchesTarget sampleHost 443 none = true ∧ compiled.matchesTarget sampleHost 443 none = false :=
  ⟨_, _, rfl, rfl, by decide, by decide, by decide⟩

end AceTun
