import AceTun.Rule.Glob

/-!
# First match

What the documentation promises of `evaluate`: the first specific rule wins, the fully wildcard rules are the fallback,
and without any the connection goes direct (`firstMatch`). The loop computes it unless it reaches a rule with a process
list while the process name cannot be cut (`evaluateLoop_ok`, `evaluateLoop_panic`); compiling the rules cuts their
process names in the same way (`RuleSet.new_returnsIff`). `evaluate_iff_firstMatch` puts the two together. The fallback
rules may stand anywhere (`evaluateLoop_eq_split`).
-/

namespace AceTun

open RustStd

variable {R : RegexCrate}

namespace CompiledRule

/-- Every process, every host, port and domain, and no exceptions. -/
def fullyWildcard (rule : CompiledRule R) : Bool :=
  rule.processWildcard && rule.hostsAll && rule.portsAll && rule.domainsAll && rule.exceptHosts.isNone

/-- The process list is a wildcard, or matches the name. -/
def namesProcess (rule : CompiledRule R) (processName : Str) : Bool :=
  rule.processWildcard || rule.processMatchers.any (R.isMatch · (withoutExe processName))

theorem fullyWildcard_eq (rule : CompiledRule R) : rule.fullyWildcard = (rule.processWildcard && !rule.filtered) := by
  unfold fullyWildcard filtered
  cases rule.exceptHosts <;> simp [Bool.and_assoc]

end CompiledRule

section FirstMatch

variable (processName : Str) (dest : IpAddr) (destPort : UInt16) (isUdp : Bool) (domain : Option Str)

/-- A specific rule that matches. -/
def CompiledRule.specific (rule : CompiledRule R) : Bool :=
  !rule.fullyWildcard && rule.protocol.matches isUdp && rule.namesProcess processName &&
    rule.matchesTarget dest destPort domain

/-- A fallback rule that applies. -/
def CompiledRule.fallback (rule : CompiledRule R) : Bool := rule.fullyWildcard && rule.protocol.matches isUdp

/-- **The promised result**: the first specific rule that matches, or else the first fallback rule, or else direct. -/
def firstMatch (rules : List (CompiledRule R)) : RuleMatch :=
  match rules.find? (·.specific processName dest destPort isUdp domain) with
  | some rule => rule.asMatch
  | none =>
    match rules.find? (·.fallback isUdp) with
    | some rule => rule.asMatch
    | none => ⟨.direct, 0⟩

/-- A rule for every process that matches, so that no later rule counts. -/
def CompiledRule.winsUnnamed (rule : CompiledRule R) : Bool :=
  rule.protocol.matches isUdp && rule.processWildcard && rule.filtered && rule.matchesTarget dest destPort domain

/-- A rule that is matched against the process name. -/
def CompiledRule.looksAtName (rule : CompiledRule R) : Bool := rule.protocol.matches isUdp && !rule.processWildcard

/-- The rules that are reached whatever the name is do not look at it. -/
def NameUnused (rules : List (CompiledRule R)) : Prop :=
  ∀ rule ∈ rules.takeWhile (! ·.winsUnnamed dest destPort isUdp domain), rule.looksAtName isUdp = false

end FirstMatch

section Loop

variable {processName : Str} {dest : IpAddr} {destPort : UInt16} {isUdp : Bool} {domain : Option Str}

/-- What is left to match, with a fallback already held. -/
def matchFrom (processName : Str) (dest : IpAddr) (destPort : UInt16) (isUdp : Bool) (domain : Option Str)
    (rules : List (CompiledRule R)) (fallback : Option (CompiledRule R)) : RuleMatch :=
  match rules.find? (·.specific processName dest destPort isUdp domain) with
  | some rule => rule.asMatch
  | none =>
    match fallback.or (rules.find? (·.fallback isUdp)) with
    | some rule => rule.asMatch
    | none => ⟨.direct, 0⟩

/-- One turn of the loop: a rule wins at once, is held back, is matched against the name, or is skipped. -/
theorem evaluateLoop_cons (rule : CompiledRule R) (rules : List (CompiledRule R)) (fallback : Option (CompiledRule R)) :
    RuleSet.evaluateLoop processName dest destPort isUdp domain (rule :: rules) fallback =
      if rule.winsUnnamed dest destPort isUdp domain then .ok rule.asMatch
      else if rule.fallback isUdp then
        RuleSet.evaluateLoop processName dest destPort isUdp domain rules (fallback.or (some rule))
      else if rule.looksAtName isUdp then do
        let name ← stripExeSuffix processName
        if rule.processMatchers.any (R.isMatch · name) && rule.matchesTarget dest destPort domain then .ok rule.asMatch
        else RuleSet.evaluateLoop processName dest destPort isUdp domain rules fallback
      else RuleSet.evaluateLoop processName dest destPort isUdp domain rules fallback := by
  rw [RuleSet.evaluateLoop]
  unfold CompiledRule.winsUnnamed CompiledRule.fallback CompiledRule.looksAtName CompiledRule.matchesProcess
  rw [rule.fullyWildcard_eq]
  cases rule.protocol.matches isUdp with
  | false => simp
  | true =>
    cases rule.processWildcard with
    | true => cases rule.filtered <;> cases fallback <;> simp
    | false => simp

/-- Each kind of rule, as the promise sees it. -/
theorem specific_of_winsUnnamed {rule : CompiledRule R} (h : rule.winsUnnamed dest destPort isUdp domain = true) :
    rule.specific processName dest destPort isUdp domain = true := by
  simp only [CompiledRule.winsUnnamed, Bool.and_eq_true] at h
  simp [CompiledRule.specific, CompiledRule.namesProcess, rule.fullyWildcard_eq, h]

theorem not_specific_of_fallback {rule : CompiledRule R} (h : rule.fallback isUdp = true) :
    rule.specific processName dest destPort isUdp domain = false := by
  simp only [CompiledRule.fallback, Bool.and_eq_true] at h
  simp [CompiledRule.specific, h]

theorem specific_of_looksAtName {rule : CompiledRule R} (h : rule.looksAtName isUdp = true) :
    rule.specific processName dest destPort isUdp domain =
      (rule.processMatchers.any (R.isMatch · (withoutExe processName)) && rule.matchesTarget dest destPort domain) := by
  simp only [CompiledRule.looksAtName, Bool.and_eq_true, Bool.not_eq_true'] at h
  simp [CompiledRule.specific, CompiledRule.namesProcess, rule.fullyWildcard_eq, h]

theorem not_specific_of_skipped {rule : CompiledRule R} (hw : rule.winsUnnamed dest destPort isUdp domain = false)
    (hf : rule.fallback isUdp = false) (hl : rule.looksAtName isUdp = false) :
    rule.specific processName dest destPort isUdp domain = false := by
  revert hw hf hl
  unfold CompiledRule.winsUnnamed CompiledRule.fallback CompiledRule.looksAtName CompiledRule.specific
    CompiledRule.namesProcess
  rw [rule.fullyWildcard_eq]
  cases rule.protocol.matches isUdp <;> cases rule.processWildcard <;> cases rule.filtered <;> simp

theorem nameUnused_cons {rule : CompiledRule R} {rules : List (CompiledRule R)}
    (hw : rule.winsUnnamed dest destPort isUdp domain = false) :
    NameUnused dest destPort isUdp domain (rule :: rules) ↔
      rule.looksAtName isUdp = false ∧ NameUnused dest destPort isUdp domain rules := by
  simp [NameUnused, hw]

/-- **The loop keeps the promise** if the name can be cut, or no rule that is reached looks at it. -/
theorem evaluateLoop_ok {rules : List (CompiledRule R)} {fallback : Option (CompiledRule R)}
    (h : EndsWhole processName ∨ NameUnused dest destPort isUdp domain rules) :
    RuleSet.evaluateLoop processName dest destPort isUdp domain rules fallback =
      .ok (matchFrom processName dest destPort isUdp domain rules fallback) := by
  induction rules generalizing fallback with
  | nil => cases fallback <;> rfl
  | cons rule rules ih =>
    rw [evaluateLoop_cons]
    by_cases hw : rule.winsUnnamed dest destPort isUdp domain = true
    · rw [if_pos hw, matchFrom, List.find?_cons_of_pos (specific_of_winsUnnamed hw)]
    rw [if_neg hw]
    rw [Bool.not_eq_true] at hw
    have h' : EndsWhole processName ∨ NameUnused dest destPort isUdp domain rules :=
      h.imp_right fun h => ((nameUnused_cons hw).mp h).2
    by_cases hf : rule.fallback isUdp = true
    · rw [if_pos hf, ih h']
      simp only [matchFrom, List.find?_cons, not_specific_of_fallback hf, hf]
      cases fallback <;> rfl
    rw [if_neg hf]
    rw [Bool.not_eq_true] at hf
    by_cases hl : rule.looksAtName isUdp = true
    · -- the name is looked at, so it can be cut
      have hname : EndsWhole processName := h.resolve_right fun h => by
        rw [nameUnused_cons hw, hl] at h
        exact absurd h.1 (by decide)
      rw [if_pos hl, stripExeSuffix_ok hname, ih h']
      simp only [bind, Except.bind, matchFrom, List.find?_cons, hf, specific_of_looksAtName hl]
      cases rule.processMatchers.any (R.isMatch · (withoutExe processName)) && rule.matchesTarget dest destPort domain
      · rfl
      · rfl
    · rw [if_neg hl, ih h']
      rw [Bool.not_eq_true] at hl
      simp only [matchFrom, List.find?_cons, not_specific_of_skipped hw hf hl, hf]

/-- In every other case it panics. -/
theorem evaluateLoop_panic (hname : ¬ EndsWhole processName) {rules : List (CompiledRule R)}
    {fallback : Option (CompiledRule R)} (h : ¬ NameUnused dest destPort isUdp domain rules) :
    RuleSet.evaluateLoop processName dest destPort isUdp domain rules fallback = .error .notCharBoundary := by
  induction rules generalizing fallback with
  | nil => exact absurd (by simp [NameUnused]) h
  | cons rule rules ih =>
    by_cases hw : rule.winsUnnamed dest destPort isUdp domain = true
    · exact absurd (by simp [NameUnused, hw]) h
    rw [evaluateLoop_cons, if_neg hw]
    rw [Bool.not_eq_true] at hw
    by_cases hl : rule.looksAtName isUdp = true
    · have hf : ¬ rule.fallback isUdp = true := by
        simp only [CompiledRule.looksAtName, Bool.and_eq_true, Bool.not_eq_true'] at hl
        simp [CompiledRule.fallback, rule.fullyWildcard_eq, hl]
      rw [if_neg hf, if_pos hl, stripExeSuffix_panic hname]
      rfl
    · rw [Bool.not_eq_true] at hl
      have h' : ¬ NameUnused dest destPort isUdp domain rules := fun h' => h ((nameUnused_cons hw).mpr ⟨hl, h'⟩)
      rw [ih h', ih h', hl]
      split
      · rfl
      · rfl

/-- **Where the fallback rules stand does not matter**, not even for a panic. -/
theorem evaluateLoop_eq_split {rules : List (CompiledRule R)} {fallback : Option (CompiledRule R)} :
    RuleSet.evaluateLoop processName dest destPort isUdp domain rules fallback =
      RuleSet.evaluateLoop processName dest destPort isUdp domain (rules.filter (! ·.fullyWildcard))
        (fallback.or ((rules.filter (·.fullyWildcard)).find? (·.protocol.matches isUdp))) := by
  induction rules generalizing fallback with
  | nil => cases fallback <;> rfl
  | cons rule rules ih =>
    cases hfull : rule.fullyWildcard with
    | true =>
      have hwild := hfull
      rw [rule.fullyWildcard_eq, Bool.and_eq_true, Bool.not_eq_true'] at hwild
      have hw : rule.winsUnnamed dest destPort isUdp domain = false := by simp [CompiledRule.winsUnnamed, hwild]
      have hl : rule.looksAtName isUdp = false := by simp [CompiledRule.looksAtName, hwild]
      have hf : rule.fallback isUdp = rule.protocol.matches isUdp := by simp [CompiledRule.fallback, hfull]
      rw [evaluateLoop_cons, hw, hl, hf, List.filter_cons_of_neg (by simp [hfull]), List.filter_cons_of_pos hfull,
        List.find?_cons]
      cases rule.protocol.matches isUdp with
      | true =>
        simp only [Bool.false_eq_true, ↓reduceIte]
        rw [ih, Option.or_assoc]
        rfl
      | false =>
        simp only [Bool.false_eq_true, ↓reduceIte]
        exact ih
    | false =>
      have hf : rule.fallback isUdp = false := by simp [CompiledRule.fallback, hfull]
      rw [List.filter_cons_of_pos (by simp [hfull]), List.filter_cons_of_neg (by simp [hfull]), evaluateLoop_cons,
        evaluateLoop_cons, hf, ← ih]
      rfl

end Loop

/-! ## Rule sets -/

/-- `Rule`, as the configuration has it: every process, host, port and domain, and no exceptions. -/
def Rule.fullyWildcard (rule : Rule) : Bool :=
  isMatchAll rule.processNames && isMatchAll rule.hosts && isMatchAll rule.ports && isMatchAll rule.domains &&
    rule.exceptHosts.isNone

/-- Two lists with the same fully wildcard rules in the same order, and the same other rules in the same order. -/
structure SameClasses (rules rules' : List Rule) : Prop where
  wildcard : rules.filter (·.fullyWildcard) = rules'.filter (·.fullyWildcard)
  others : rules.filter (! ·.fullyWildcard) = rules'.filter (! ·.fullyWildcard)

theorem Rule.compile_fullyWildcard {rule : Rule} {compiled : CompiledRule R} (h : rule.compile R = .ok compiled) :
    compiled.fullyWildcard = rule.fullyWildcard := by
  obtain ⟨matchers, -, h⟩ := except_bind_eq_ok.mp h
  cases h
  rfl

/-- Compiling commutes with a selection that it respects. -/
theorem mapM_filter {α β ε : Type} {f : α → Except ε β} {p : α → Bool} {q : β → Bool}
    (hpq : ∀ a b, f a = .ok b → q b = p a) {l : List α} {l' : List β} (h : l.mapM f = .ok l') :
    (l.filter p).mapM f = .ok (l'.filter q) := by
  induction l generalizing l' with
  | nil =>
    cases h
    rfl
  | cons a l ih =>
    obtain ⟨b, bs, hb, hbs, rfl⟩ := mapM_cons_eq_ok.mp h
    rw [List.filter_cons, List.filter_cons, hpq a b hb]
    split
    · exact mapM_cons_eq_ok.mpr ⟨b, bs.filter q, hb, ih hbs, rfl⟩
    · exact ih hbs

theorem SameClasses.mem {rules rules' : List Rule} (h : SameClasses rules rules') {rule : Rule} (hm : rule ∈ rules) :
    rule ∈ rules' := by
  by_cases hw : rule.fullyWildcard = true
  · have hf : rule ∈ rules.filter (·.fullyWildcard) := List.mem_filter.mpr ⟨hm, hw⟩
    rw [h.wildcard] at hf
    exact (List.mem_filter.mp hf).1
  · have hf : rule ∈ rules.filter (! ·.fullyWildcard) := List.mem_filter.mpr ⟨hm, by simpa using hw⟩
    rw [h.others] at hf
    exact (List.mem_filter.mp hf).1

theorem SameClasses.symm {rules rules' : List Rule} (h : SameClasses rules rules') : SameClasses rules' rules :=
  ⟨h.wildcard.symm, h.others.symm⟩

/-- Moving fully wildcard rules changes no result. -/
theorem evaluate_of_sameClasses {rules rules' : List Rule} {set set' : RuleSet R} (hs : RuleSet.new R rules = .ok set)
    (hs' : RuleSet.new R rules' = .ok set') (h : SameClasses rules rules') (processName : Str) (dest : IpAddr)
    (destPort : UInt16) (isUdp : Bool) (domain : Option Str) :
    set'.evaluate processName dest destPort isUdp domain = set.evaluate processName dest destPort isUdp domain := by
  have hcompile : ∀ (rule : Rule) (compiled : CompiledRule R), rule.compile R = .ok compiled →
      compiled.fullyWildcard = rule.fullyWildcard := fun _ _ => Rule.compile_fullyWildcard
  have hcompile' : ∀ (rule : Rule) (compiled : CompiledRule R), rule.compile R = .ok compiled →
      (!compiled.fullyWildcard) = !rule.fullyWildcard := fun _ _ h => congrArg _ (Rule.compile_fullyWildcard h)
  have hwild := mapM_filter hcompile (RuleSet.new_rules hs)
  have hother := mapM_filter hcompile' (RuleSet.new_rules hs)
  rw [h.wildcard, mapM_filter hcompile (RuleSet.new_rules hs')] at hwild
  rw [h.others, mapM_filter hcompile' (RuleSet.new_rules hs')] at hother
  unfold RuleSet.evaluate
  rw [evaluateLoop_eq_split, Except.ok.inj hwild, Except.ok.inj hother, ← evaluateLoop_eq_split]

/-! ## Compiling process names -/

/-- The computation returns exactly when `p` holds; otherwise it panics on a cut inside a character. -/
def ReturnsIff {α : Type} (p : Prop) (x : Except Panic α) : Prop :=
  (p ∧ ∃ a, x = .ok a) ∨ (¬ p ∧ x = .error .notCharBoundary)

section ReturnsIff

variable {α β : Type}

theorem ReturnsIff.map {p : Prop} {x : Except Panic α} (h : ReturnsIff p x) (f : α → β) :
    ReturnsIff p (x >>= fun a => pure (f a)) := by
  rcases h with ⟨hp, a, rfl⟩ | ⟨hp, rfl⟩
  · exact .inl ⟨hp, f a, rfl⟩
  · exact .inr ⟨hp, rfl⟩

/-- A mapped list returns exactly when every element does. -/
theorem ReturnsIff.mapM {p : α → Prop} {f : α → Except Panic β} (h : ∀ a, ReturnsIff (p a) (f a)) (l : List α) :
    ReturnsIff (∀ a ∈ l, p a) (l.mapM f) := by
  induction l with
  | nil => exact .inl ⟨by simp, [], rfl⟩
  | cons a l ih =>
    rw [List.mapM_cons]
    rcases h a with ⟨hp, b, hb⟩ | ⟨hp, hb⟩
    · rcases ih with ⟨hps, bs, hbs⟩ | ⟨hps, hbs⟩
      · exact .inl ⟨List.forall_mem_cons.mpr ⟨hp, hps⟩, b :: bs, by rw [hb, hbs]; rfl⟩
      · exact .inr ⟨fun hall => hps (List.forall_mem_cons.mp hall).2, by rw [hb, hbs]; rfl⟩
    · exact .inr ⟨fun hall => hp (List.forall_mem_cons.mp hall).1, by rw [hb]; rfl⟩

end ReturnsIff

theorem stripExeSuffix_returnsIff (t : Str) : ReturnsIff (EndsWhole t) (stripExeSuffix t) := by
  by_cases h : EndsWhole t
  · exact .inl ⟨h, _, stripExeSuffix_ok h⟩
  · exact .inr ⟨h, stripExeSuffix_panic h⟩

/-- Every process name of the rule can be cut, or the rule is for every process. -/
def Rule.NamesWhole (rule : Rule) : Prop :=
  isMatchAll rule.processNames = true ∨ ∀ token ∈ splitList rule.processNames, EndsWhole token

theorem Rule.compile_returnsIff (rule : Rule) : ReturnsIff rule.NamesWhole (rule.compile R) := by
  unfold Rule.compile compileProcessList Rule.NamesWhole
  by_cases h : isMatchAll rule.processNames = true
  · rw [if_pos h]
    exact .inl ⟨.inl h, _, rfl⟩
  · rw [if_neg h, or_iff_right h]
    exact ((ReturnsIff.mapM stripExeSuffix_returnsIff _).map _).map _

theorem RuleSet.new_returnsIff (rules : List Rule) :
    ReturnsIff (∀ rule ∈ rules, rule.NamesWhole) (RuleSet.new R rules) :=
  (ReturnsIff.mapM Rule.compile_returnsIff rules).map _

/-- Building a rule set and evaluating it. -/
def evaluateRules (R : RegexCrate) (rules : List Rule) (processName : Str) (dest : IpAddr) (destPort : UInt16)
    (isUdp : Bool) (domain : Option Str) : Except Panic RuleMatch := do
  let set ← RuleSet.new R rules
  set.evaluate processName dest destPort isUdp domain

/-- Moving fully wildcard rules changes no outcome, not even a panic. -/
theorem evaluateRules_of_sameClasses {rules rules' : List Rule} (h : SameClasses rules rules') (processName : Str)
    (dest : IpAddr) (destPort : UInt16) (isUdp : Bool) (domain : Option Str) :
    evaluateRules R rules' processName dest destPort isUdp domain =
      evaluateRules R rules processName dest destPort isUdp domain := by
  unfold evaluateRules
  rcases @RuleSet.new_returnsIff R rules with ⟨hw, set, hs⟩ | ⟨hw, hs⟩
  · rcases @RuleSet.new_returnsIff R rules' with ⟨-, set', hs'⟩ | ⟨hw', -⟩
    · rw [hs, hs']
      exact evaluate_of_sameClasses hs hs' h processName dest destPort isUdp domain
    · exact absurd (fun rule hm => hw rule (h.symm.mem hm)) hw'
  · rcases @RuleSet.new_returnsIff R rules' with ⟨hw', -⟩ | ⟨-, hs'⟩
    · exact absurd (fun rule hm => hw' rule (h.mem hm)) hw
    · rw [hs, hs']

/-- **When `evaluate` keeps its promise.** For every list of rules and every connection, the rule set can be built and
its result is the promised one exactly when each process name of the rules is shorter than four bytes or its last four
are whole characters, and so is the process name of the connection, unless no rule that is reached looks at it. Moving
fully wildcard rules to other places never changes the outcome. -/
theorem evaluate_iff_firstMatch (rules : List Rule) (processName : Str) (dest : IpAddr) (destPort : UInt16)
    (isUdp : Bool) (domain : Option Str) :
    ((∃ set, RuleSet.new R rules = .ok set ∧
        set.evaluate processName dest destPort isUdp domain =
          .ok (firstMatch processName dest destPort isUdp domain set.rules)) ↔
      (∀ rule ∈ rules, rule.NamesWhole) ∧
        (EndsWhole processName ∨
          ∀ set, RuleSet.new R rules = .ok set → NameUnused dest destPort isUdp domain set.rules)) ∧
    ∀ rules', SameClasses rules rules' →
      evaluateRules R rules' processName dest destPort isUdp domain =
        evaluateRules R rules processName dest destPort isUdp domain := by
  refine ⟨⟨?_, ?_⟩, fun rules' hc => evaluateRules_of_sameClasses hc processName dest destPort isUdp domain⟩
  · rintro ⟨set, hs, h⟩
    constructor
    · rcases @RuleSet.new_returnsIff R rules with ⟨hw, -⟩ | ⟨-, he⟩
      · exact hw
      · rw [hs] at he
        cases he
    · by_contra hno
      obtain ⟨hname, hused⟩ := not_or.mp hno
      have hused' : ¬ NameUnused dest destPort isUdp domain set.rules := fun hu => hused fun set' hs' => by
        rw [hs] at hs'
        cases hs'
        exact hu
      unfold RuleSet.evaluate at h
      rw [evaluateLoop_panic hname hused'] at h
      cases h
  · rintro ⟨hw, hname⟩
    rcases @RuleSet.new_returnsIff R rules with ⟨-, set, hs⟩ | ⟨hw', -⟩
    · exact ⟨set, hs, evaluateLoop_ok (hname.imp_right fun hu => hu set hs)⟩
    · exact absurd hw hw'

/-- Proxy one program, and block the rest. -/
def chromeRules : List Rule :=
  [{ Rule.new "*".toList with action := .block },
    { Rule.new "chrome.exe".toList with action := .proxy, proxyConfigId := 7 }]

/-- The rule for the program wins over the fallback before it. -/
theorem evaluate_chrome :
    ∃ set, RuleSet.new backslashRegex chromeRules = .ok set ∧
      set.evaluate "Chrome.EXE".toList (.v4 (.new 1 2 3 4)) 443 false none = .ok ⟨.proxy, 7⟩ := by
  have hname : EndsWhole "Chrome.EXE".toList := .inr ⟨"Chrome".toList, ".EXE".toList, by decide, by decide⟩
  have hrules : ∀ rule ∈ chromeRules, rule.NamesWhole := by
    intro rule hm
    rcases List.mem_cons.mp hm with rfl | hm
    · exact .inl (by decide)
    · rw [List.mem_singleton.mp hm]
      refine .inr fun token ht => .inr ⟨"chrome".toList, ".exe".toList, ?_, by decide⟩
      exact List.mem_singleton.mp ht
  obtain ⟨set, hs, h⟩ := (@evaluate_iff_firstMatch backslashRegex chromeRules "Chrome.EXE".toList (.v4 (.new 1 2 3 4)) 443
    false none).1.mpr ⟨hrules, .inl hname⟩
  refine ⟨set, hs, h.trans ?_⟩
  cases hs
  decide

/-- **A program whose name ends inside a character**: the promised result is the fallback, and `evaluate` panics. -/
theorem evaluate_panics_on_wide_name :
    ∃ set, RuleSet.new backslashRegex chromeRules = .ok set ∧
      firstMatch "微信".toList (.v4 (.new 1 2 3 4)) 443 false none set.rules = ⟨.block, 0⟩ ∧
      set.evaluate "微信".toList (.v4 (.new 1 2 3 4)) 443 false none = .error .notCharBoundary :=
  ⟨_, rfl, by decide, by decide⟩

end AceTun
