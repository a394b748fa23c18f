import AceTun.Rule.Lists

/-!
# The `.exe` suffix

Process names and the tokens of process lists are compared without a trailing `.exe`. The cut is made at a byte offset,
so rules and flows whose names end inside a character at that place panic, and no others (`evaluateRules_returns_iff`).

Within ASCII, the suffix is irrelevant on both sides (`exeSuffix_irrelevant`). It is not quite the case that a token
matches what its glob matches, with or without the suffix: a wildcard that would take a part of the suffix finds it cut
off (`matchesProcess_iff`).
-/

namespace AceTun

open RustStd

variable {R : RegexCrate}

/-! ## Cutting names -/

/-- **When rules can be built and evaluated**: the same cuts that decide this are the only ones that panic. -/
theorem evaluateRules_returns_iff (rules : List Rule) (processName : Str) (dest : IpAddr) (destPort : UInt16)
    (isUdp : Bool) (domain : Option Str) :
    ((∃ m, evaluateRules R rules processName dest destPort isUdp domain = .ok m) ↔
      (∀ rule ∈ rules, rule.NamesWhole) ∧
        (EndsWhole processName ∨
          ∀ set, RuleSet.new R rules = .ok set → NameUnused dest destPort isUdp domain set.rules)) ∧
    ∀ token, (∃ s, stripExeSuffix token = .ok s) ↔ EndsWhole token := by
  constructor
  · unfold evaluateRules
    rcases @RuleSet.new_returnsIff R rules with ⟨hw, set, hs⟩ | ⟨hw, hs⟩
    · have hunused : (∀ set', RuleSet.new R rules = .ok set' → NameUnused dest destPort isUdp domain set'.rules) ↔
          NameUnused dest destPort isUdp domain set.rules := by
        refine ⟨fun h => h set hs, fun h set' hs' => ?_⟩
        rw [hs] at hs'
        cases hs'
        exact h
      rw [hunused, and_iff_right hw, hs]
      by_cases hname : EndsWhole processName ∨ NameUnused dest destPort isUdp domain set.rules
      · exact iff_of_true ⟨_, evaluateLoop_ok hname⟩ hname
      · obtain ⟨hcut, hused⟩ := not_or.mp hname
        refine iff_of_false ?_ hname
        rintro ⟨m, hm⟩
        cases (evaluateLoop_panic hcut hused).symm.trans hm
    · rw [hs]
      refine iff_of_false ?_ fun h => hw h.1
      rintro ⟨m, hm⟩
      cases hm
  · intro token
    rcases stripExeSuffix_returnsIff token with ⟨hp, hs⟩ | ⟨hp, he⟩
    · exact iff_of_true hs hp
    · refine iff_of_false ?_ hp
      rintro ⟨s, hs⟩
      rw [he] at hs
      cases hs

/-- **A rule for a program whose name ends inside a character cannot be built.** -/
theorem ruleSet_panics_on_wide_token :
    stripExeSuffix "微信".toList = .error .notCharBoundary ∧
      RuleSet.new backslashRegex [Rule.new "chrome;微信".toList] = .error .notCharBoundary :=
  ⟨by decide, rfl⟩

/-! ## ASCII -/

def IsAscii (s : Str) : Prop := ∀ c ∈ s, c.toNat < 128

/-- `.exe`, in any case. -/
def IsExe (e : Str) : Prop := eqIgnoreAsciiCase e ".exe".toList = true

/-- The text does not end in `.exe` of any case. -/
def NoExe (t : Str) : Prop := ∀ a e, IsExe e → t ≠ a ++ e

section Ascii

variable {s t e : Str}

theorem isAscii_of_all (h : s.all (fun c => Nat.blt c.toNat 128) = true) : IsAscii s :=
  fun c hc => Nat.blt_eq.mp (List.all_eq_true.mp h c hc)

theorem IsAscii.append (hs : IsAscii s) (ht : IsAscii t) : IsAscii (s ++ t) :=
  fun c hc => (List.mem_append.mp hc).elim (hs c) (ht c)

theorem byteLen_of_isAscii (h : IsAscii s) : byteLen s = s.length := by
  induction s with
  | nil => rfl
  | cons c s ih =>
    have hc : c.val.toNat < 128 := h c List.mem_cons_self
    have hsize : c.utf8Size = 1 := by
      simp only [Char.utf8Size, UInt32.le_iff_toNat_le]
      exact if_pos (Nat.le_of_lt_succ hc)
    rw [byteLen_cons, hsize, ih fun d hd => h d (List.mem_cons_of_mem _ hd), List.length_cons, Nat.add_comm]

/-- The cut always falls between characters. -/
theorem endsWhole_of_isAscii (h : IsAscii s) : EndsWhole s := by
  by_cases hlen : s.length < 4
  · exact .inl (by rwa [byteLen_of_isAscii h])
  · refine .inr ⟨s.take (s.length - 4), s.drop (s.length - 4), (List.take_append_drop ..).symm, ?_⟩
    rw [byteLen_of_isAscii fun c hc => h c (List.mem_of_mem_drop hc), List.length_drop]
    omega

theorem toLower_of_isWhitespace {c : Char} (h : isWhitespace c = true) : c.toLower = c := by
  unfold Char.toLower
  rw [dif_neg]
  intro hc
  simp only [ge_iff_le, UInt32.le_iff_toNat_le] at hc
  simp [isWhitespace] at h hc
  omega

theorem toLower_of_isSeparator {c : Char} (h : isSeparator c = true) : c.toLower = c := by
  rw [isSeparator, Bool.or_eq_true, beq_iff_eq, beq_iff_eq] at h
  rcases h with rfl | rfl
  · decide
  · decide

theorem isExe_iff : IsExe e ↔ toAsciiLowercase e = ".exe".toList := beq_iff_eq

/-- The lower cases of the characters of the suffix. -/
theorem IsExe.mem (h : IsExe e) {c : Char} (hc : c ∈ e) : c.toLower ∈ ".exe".toList := by
  rw [← isExe_iff.mp h]
  exact List.mem_map_of_mem hc

theorem IsExe.length (h : IsExe e) : e.length = 4 := (eqIgnoreAsciiCase_size h).2

/-- A kind of characters without letters that is not in the suffix. -/
theorem IsExe.not_of_fixed (h : IsExe e) {p : Char → Bool} (hp : ∀ c, p c = true → c.toLower = c)
    (hexe : ".exe".toList.all (! p ·) = true) : ∀ c ∈ e, p c = false := by
  intro c hc
  by_contra hpc
  rw [Bool.not_eq_false] at hpc
  have hm := h.mem hc
  rw [hp c hpc] at hm
  have := List.all_eq_true.mp hexe c hm
  rw [hpc] at this
  cases this

theorem IsExe.whole (h : IsExe e) : ∀ c ∈ e, isSeparator c = false :=
  h.not_of_fixed (fun _ => toLower_of_isSeparator) (by decide)

theorem IsExe.not_blank (h : IsExe e) : ∀ c ∈ e, isWhitespace c = false :=
  h.not_of_fixed (fun _ => toLower_of_isWhitespace) (by decide)

theorem withoutExe_append_exe (a : Str) (h : IsExe e) : withoutExe (a ++ e) = a := by
  have hbytes : byteLen e = 4 := (eqIgnoreAsciiCase_size h).1
  rw [withoutExe_append hbytes]
  exact if_pos h

/-- A text ends in the suffix, or is left as it is. -/
theorem withoutExe_cases (t : Str) : (∃ e, IsExe e ∧ t = withoutExe t ++ e) ∨ (NoExe t ∧ withoutExe t = t) := by
  by_cases h : ∃ a e, IsExe e ∧ t = a ++ e
  · obtain ⟨a, e, he, rfl⟩ := h
    exact .inl ⟨e, he, by rw [withoutExe_append_exe a he]⟩
  · have hno : NoExe t := fun a e he ht => h ⟨a, e, he, ht⟩
    refine .inr ⟨hno, ?_⟩
    unfold withoutExe
    rw [if_neg]
    intro he
    exact hno _ _ he (List.take_append_drop ..).symm

theorem withoutExe_of_noExe (h : NoExe t) : withoutExe t = t := by
  rcases withoutExe_cases t with ⟨e, he, ht⟩ | ⟨-, ht⟩
  · exact absurd ht (h _ e he)
  · exact ht

/-- The suffix was cut exactly when something changed. -/
theorem withoutExe_ne_iff : withoutExe t ≠ t ↔ ¬ NoExe t := by
  rcases withoutExe_cases t with ⟨e, he, ht⟩ | ⟨hno, ht⟩
  · refine iff_of_true (fun heq => ?_) fun hno => hno _ e he ht
    have hlen := congrArg List.length (heq ▸ ht)
    rw [List.length_append, he.length] at hlen
    omega
  · exact iff_of_false (fun h => h ht) fun h => h hno

/-- A token with the suffix is a token. -/
theorem IsToken.append_exe (ht : IsToken t) (he : IsExe e) : IsToken (t ++ e) := by
  refine ⟨fun h => ht.nonempty (List.append_eq_nil_iff.mp h).1, ?_, whole_append ht.whole he.whole⟩
  cases t with
  | nil => exact absurd rfl ht.nonempty
  | cons a t =>
    have hne : e ≠ [] := by
      rintro rfl
      exact absurd he.length (by decide)
    refine trim_eq_self (b := e.getLast hne) (t := a :: t ++ e.dropLast) (isWhitespace_head ht.trimmed)
      (he.not_blank _ (List.getLast_mem hne)) ?_
    rw [List.append_assoc, List.dropLast_append_getLast]
    rfl

end Ascii

/-! ## The suffix is irrelevant -/

section Irrelevant

variable {t e before after : Str}

theorem stripExeSuffix_of_isAscii (h : IsAscii t) : stripExeSuffix t = .ok (withoutExe t) :=
  stripExeSuffix_ok (endsWhole_of_isAscii h)

/-- Names that are cut alike are evaluated alike. -/
theorem evaluateLoop_of_strip {name name' : Str} (h : stripExeSuffix name = stripExeSuffix name') (dest : IpAddr)
    (destPort : UInt16) (isUdp : Bool) (domain : Option Str) (rules : List (CompiledRule R))
    (fallback : Option (CompiledRule R)) :
    RuleSet.evaluateLoop name dest destPort isUdp domain rules fallback =
      RuleSet.evaluateLoop name' dest destPort isUdp domain rules fallback := by
  induction rules generalizing fallback with
  | nil => cases fallback <;> rfl
  | cons rule rules ih => simp only [RuleSet.evaluateLoop, CompiledRule.matchesProcess, h, ih]

theorem isExe_isAscii (h : IsExe e) : IsAscii e := by
  have hlarge : ∀ c : Char, Nat.ble 128 c.toNat = true → c.toLower = c := by
    intro c hc
    unfold Char.toLower
    rw [dif_neg]
    intro hup
    simp only [ge_iff_le, UInt32.le_iff_toNat_le] at hup
    simp at hc hup
    omega
  intro c hc
  by_contra hge
  have := h.not_of_fixed hlarge (by decide) c hc
  rw [Nat.ble_eq_true_of_le (Nat.le_of_not_lt hge)] at this
  cases this

theorem stripExeSuffix_append (ht : IsAscii t) (hno : NoExe t) (he : IsExe e) :
    stripExeSuffix (t ++ e) = stripExeSuffix t := by
  rw [stripExeSuffix_of_isAscii ht, stripExeSuffix_of_isAscii (ht.append (isExe_isAscii he)),
    withoutExe_append_exe t he, withoutExe_of_noExe hno]

/-- A list with a token that ends in the suffix is not read as everything. -/
theorem isMatchAll_append_exe (hb : OpensToken before) (ha : ClosesToken after) (ht : IsToken t) (he : IsExe e) :
    isMatchAll (before ++ (t ++ e) ++ after) = false := by
  obtain ⟨pre, post, hsplit⟩ := splitList_around hb ha
  by_contra hall
  rw [Bool.not_eq_false] at hall
  have hlen : 5 ≤ (t ++ e).length := by
    have := List.length_pos_of_ne_nil ht.nonempty
    rw [List.length_append, he.length]
    omega
  rcases splitList_of_isMatchAll hall (t ++ e) (by rw [hsplit _ (ht.append_exe he)]; simp) with h | h
  · rw [h] at hlen
    exact absurd hlen (by decide)
  · rw [(eqIgnoreAsciiCase_size h).2] at hlen
    exact absurd hlen (by decide)

/-- The list compiles to the same matchers with the suffix on a token. -/
theorem compileProcessList_append_exe (hb : OpensToken before) (ha : ClosesToken after) (ht : IsToken t)
    (hascii : IsAscii t) (hno : NoExe t) (he : IsExe e) (hall : isMatchAll (before ++ t ++ after) = false) :
    compileProcessList R (before ++ (t ++ e) ++ after) = compileProcessList R (before ++ t ++ after) := by
  obtain ⟨pre, post, hsplit⟩ := splitList_around hb ha
  unfold compileProcessList
  rw [isMatchAll_append_exe hb ha ht he, hall, hsplit t ht, hsplit _ (ht.append_exe he), List.mapM_append,
    List.mapM_append, List.mapM_cons, List.mapM_cons, stripExeSuffix_append hascii hno he]

end Irrelevant

/-- **The suffix is irrelevant on both sides**: on the name of a process, and on a token of a process list that is not
read as everything. -/
theorem exeSuffix_irrelevant (R : RegexCrate) (dest : IpAddr) (destPort : UInt16) (isUdp : Bool) (domain : Option Str) :
    (∀ rules name e, IsAscii name → NoExe name → IsExe e →
      evaluateRules R rules (name ++ e) dest destPort isUdp domain =
        evaluateRules R rules name dest destPort isUdp domain) ∧
    ∀ pre (rule : Rule) post before t after e name, OpensToken before → IsToken t → ClosesToken after → IsAscii t →
      NoExe t → IsExe e → isMatchAll (before ++ t ++ after) = false →
      evaluateRules R (pre ++ { rule with processNames := before ++ (t ++ e) ++ after } :: post) name dest destPort isUdp
          domain =
        evaluateRules R (pre ++ { rule with processNames := before ++ t ++ after } :: post) name dest destPort isUdp
          domain := by
  constructor
  · intro rules name e hascii hno he
    unfold evaluateRules RuleSet.evaluate
    simp only [evaluateLoop_of_strip (stripExeSuffix_append hascii hno he)]
  · intro pre rule post before t after e name hb ht ha hascii hno he hall
    have hlist := @compileProcessList_append_exe R _ _ _ _ hb ha ht hascii hno he hall
    have hcompile : Rule.compile R { rule with processNames := before ++ (t ++ e) ++ after } =
        Rule.compile R { rule with processNames := before ++ t ++ after } := by
      simp only [Rule.compile, hlist, isMatchAll_append_exe hb ha ht he, hall]
    unfold evaluateRules RuleSet.new
    rw [List.mapM_append, List.mapM_append, List.mapM_cons, List.mapM_cons, hcompile]

/-- A rule for one program among others, without the suffix and with it. -/
theorem exeSuffix_irrelevant_sample :
    evaluateRules backslashRegex chromeRules ("Chrome".toList ++ ".EXE".toList) (.v4 (.new 1 2 3 4)) 443 false none =
        evaluateRules backslashRegex chromeRules "Chrome".toList (.v4 (.new 1 2 3 4)) 443 false none ∧
      evaluateRules backslashRegex [{ Rule.new [] with processNames := "curl; chrome.Exe".toList }] "chrome".toList
          (.v4 (.new 1 2 3 4)) 443 false none =
        evaluateRules backslashRegex [{ Rule.new [] with processNames := "curl; chrome".toList }] "chrome".toList
          (.v4 (.new 1 2 3 4)) 443 false none := by
  have hno : ∀ t, withoutExe t = t → NoExe t := fun t ht => by
    by_contra hno
    exact withoutExe_ne_iff.mpr hno ht
  have hopens : OpensToken "curl; ".toList :=
    ⟨"curl;".toList, [' '], rfl, fun c hc => by rw [List.mem_singleton.mp hc]; decide, .inr ⟨"curl".toList, ';', rfl, rfl⟩⟩
  have hcloses : ClosesToken [] := ⟨[], [], rfl, (fun c hc => by cases hc), .inl rfl⟩
  have htoken : IsToken "chrome".toList := by
    refine ⟨by decide, by decide, fun c hc => ?_⟩
    have hall : "chrome".toList.all (! isSeparator ·) = true := by decide
    simpa using List.all_eq_true.mp hall c hc
  obtain ⟨hname, hlist⟩ := exeSuffix_irrelevant backslashRegex (.v4 (.new 1 2 3 4)) 443 false none
  exact ⟨hname chromeRules _ _ (isAscii_of_all (by decide)) (hno _ (by decide)) (isExe_iff.mpr (by decide)),
    hlist [] (Rule.new []) [] "curl; ".toList "chrome".toList [] ".Exe".toList "chrome".toList hopens htoken hcloses
      (isAscii_of_all (by decide)) (hno _ (by decide)) (isExe_iff.mpr (by decide)) (by decide)⟩

/-! ## Globs and the suffix -/

section Globs

variable {fold : Char → Char → Prop} {t e s n : Str}

/-- A last character that is no wildcard takes the last character. -/
theorem globMatches_snoc {c : Char} (hs : c ≠ '*') (hq : c ≠ '?') :
    GlobMatches fold (t ++ [c]) s ↔ ∃ s' d, s = s' ++ [d] ∧ fold c d ∧ GlobMatches fold t s' := by
  induction t generalizing s with
  | nil =>
    rw [List.nil_append, globMatches_char_iff hs hq]
    constructor
    · rintro ⟨d, rest, rfl, hf, h⟩
      rw [globMatches_nil_iff.mp h]
      exact ⟨[], d, rfl, hf, .nil⟩
    · rintro ⟨s', d, rfl, hf, h⟩
      rw [globMatches_nil_iff.mp h]
      exact ⟨d, [], rfl, hf, .nil⟩
  | cons x t ih =>
    rw [List.cons_append]
    by_cases hxs : x = '*'
    · subst hxs
      simp only [globMatches_star_iff, ih]
      constructor
      · rintro ⟨taken, rest, rfl, s', d, rfl, hf, h⟩
        exact ⟨taken ++ s', d, by simp, hf, taken, s', rfl, h⟩
      · rintro ⟨s', d, rfl, hf, taken, rest, rfl, h⟩
        exact ⟨taken, rest ++ [d], by simp, rest, d, rfl, hf, h⟩
    · by_cases hxq : x = '?'
      · subst hxq
        simp only [globMatches_question_iff, ih]
        constructor
        · rintro ⟨a, rest, rfl, s', d, rfl, hf, h⟩
          exact ⟨a :: s', d, rfl, hf, a, s', rfl, h⟩
        · rintro ⟨s', d, rfl, hf, a, rest, rfl, h⟩
          exact ⟨a, rest ++ [d], rfl, rest, d, rfl, hf, h⟩
      · simp only [globMatches_char_iff hxs hxq, ih]
        constructor
        · rintro ⟨a, rest, rfl, ha, s', d, rfl, hf, h⟩
          exact ⟨a :: s', d, rfl, hf, a, s', rfl, ha, h⟩
        · rintro ⟨s', d, rfl, hf, a, rest, rfl, ha, h⟩
          exact ⟨a, rest ++ [d], rfl, ha, rest, d, rfl, hf, h⟩

/-- The same for several characters. -/
theorem globMatches_append (he : ∀ c ∈ e, c ≠ '*' ∧ c ≠ '?') :
    GlobMatches fold (t ++ e) s ↔ ∃ s' e', s = s' ++ e' ∧ List.Forall₂ fold e e' ∧ GlobMatches fold t s' := by
  induction e generalizing t with
  | nil => simp
  | cons c e ih =>
    obtain ⟨⟨hs, hq⟩, he⟩ := List.forall_mem_cons.mp he
    rw [List.append_cons, ih he]
    simp only [globMatches_snoc hs hq]
    constructor
    · rintro ⟨_, e', rfl, hf, s', d, rfl, hd, h⟩
      exact ⟨s', d :: e', by simp, .cons hd hf, h⟩
    · rintro ⟨s', _, rfl, hf, h⟩
      cases hf with
      | @cons _ d _ e' hd hf => exact ⟨s' ++ [d], e', by simp, hf, s', d, rfl, hd, h⟩

theorem forall₂_fold_iff (hfold : ∀ c d : Char, c.toNat < 128 → d.toNat < 128 → (fold c d ↔ c.toLower = d.toLower))
    (he : IsAscii e) (hs : IsAscii s) : List.Forall₂ fold e s ↔ toAsciiLowercase e = toAsciiLowercase s := by
  unfold toAsciiLowercase
  induction e generalizing s with
  | nil => cases s <;> simp
  | cons c e ih =>
    obtain ⟨hc, he⟩ := List.forall_mem_cons.mp he
    cases s with
    | nil => simp
    | cons d s =>
      obtain ⟨hd, hs⟩ := List.forall_mem_cons.mp hs
      rw [List.forall₂_cons, hfold c d hc hd, ih he hs, List.map_cons, List.map_cons, List.cons.injEq]

variable (hfold : ∀ c d : Char, c.toNat < 128 → d.toNat < 128 → (fold c d ↔ c.toLower = d.toLower))

include hfold

/-- A glob that ends in the suffix matches texts that end in it. -/
theorem globMatches_exe (he : IsExe e) (hs : IsAscii s) :
    GlobMatches fold (t ++ e) s ↔ ∃ s' e', s = s' ++ e' ∧ IsExe e' ∧ GlobMatches fold t s' := by
  have hplain : ∀ c ∈ e, c ≠ '*' ∧ c ≠ '?' := by
    have hno := he.not_of_fixed (p := fun c => c == '*' || c == '?')
      (fun c hc => by
        rcases (Bool.or_eq_true _ _).mp hc with hc | hc
        · rw [beq_iff_eq.mp hc]
          decide
        · rw [beq_iff_eq.mp hc]
          decide)
      (by decide)
    intro c hc
    simpa using hno c hc
  rw [globMatches_append hplain]
  constructor
  · rintro ⟨s', e', rfl, hf, h⟩
    have he' := (forall₂_fold_iff hfold (isExe_isAscii he) fun c hc => hs c (List.mem_append_right _ hc)).mp hf
    exact ⟨s', e', rfl, isExe_iff.mpr (he'.symm.trans (isExe_iff.mp he)), h⟩
  · rintro ⟨s', e', rfl, he', h⟩
    refine ⟨s', e', rfl, (forall₂_fold_iff hfold (isExe_isAscii he) (isExe_isAscii he')).mpr ?_, h⟩
    exact (isExe_iff.mp he).trans (isExe_iff.mp he').symm

/-- The suffix on both sides can be cut. -/
theorem globMatches_exe_exe {e' : Str} (he : IsExe e) (hn : IsAscii n) (he' : IsExe e') :
    GlobMatches fold (t ++ e) (n ++ e') ↔ GlobMatches fold t n := by
  rw [globMatches_exe hfold he (hn.append (isExe_isAscii he'))]
  constructor
  · rintro ⟨s', e'', hs, he'', h⟩
    have hcut : n = s' := List.append_inj_left' hs (he'.length.trans he''.length.symm)
    exact hcut ▸ h
  · intro h
    exact ⟨n, e', rfl, he', h⟩

/-- The suffix on the glob alone matches nothing. -/
theorem not_globMatches_exe (he : IsExe e) (hn : IsAscii n) (hno : NoExe n) : ¬ GlobMatches fold (t ++ e) n := by
  rw [globMatches_exe hfold he hn]
  rintro ⟨s', e', hs, he', -⟩
  exact hno s' e' he' hs

end Globs

/-! ## What a token matches -/

/-- The token's glob matches the name, or one of them with `.exe` after it matches the other. -/
def GlobMatchesExe (fold : Char → Char → Prop) (t n : Str) : Prop :=
  GlobMatches fold t n ∨ GlobMatches fold t (n ++ ".exe".toList) ∨ GlobMatches fold (t ++ ".exe".toList) n

/-- A match that needs a suffix which is cut off: the name's own, one after the name where the token has none, or the
token's where the name has another. -/
def NeedsSuffix (fold : Char → Char → Prop) (t n : Str) : Prop :=
  (withoutExe n ≠ n ∧ GlobMatches fold (withoutExe t) n) ∨
  (withoutExe t = t ∧ GlobMatches fold t (n ++ ".exe".toList)) ∨
  (withoutExe t ≠ t ∧ withoutExe n ≠ n ∧ GlobMatches fold t (withoutExe n))

section Token

variable {fold : Char → Char → Prop} {t n : Str}

/-- The code's reading of a match is one of the three, and what it loses needs a suffix. -/
theorem globMatchesExe_iff
    (hfold : ∀ c d : Char, c.toNat < 128 → d.toNat < 128 → (fold c d ↔ c.toLower = d.toLower)) (hn : IsAscii n) :
    GlobMatchesExe fold t n ↔ GlobMatches fold (withoutExe t) (withoutExe n) ∨ NeedsSuffix fold t n := by
  have hexe : IsExe ".exe".toList := isExe_iff.mpr (by decide)
  have hascii : ∀ {f}, n = withoutExe n ++ f → IsAscii (withoutExe n) :=
    fun hnf c hc => hn c (hnf ▸ List.mem_append_left _ hc)
  have hname : ∀ {f}, IsExe f → n = withoutExe n ++ f →
      (GlobMatches fold (t ++ ".exe".toList) n ↔ GlobMatches fold t (withoutExe n)) := by
    intro f hf hnf
    conv_lhs => rw [hnf]
    exact globMatches_exe_exe hfold hexe (hascii hnf) hf
  unfold GlobMatchesExe NeedsSuffix
  rcases withoutExe_cases t with ⟨e, he, ht⟩ | ⟨-, ht⟩
  · have htne : withoutExe t ≠ t := withoutExe_ne_iff.mpr fun hno => hno _ e he ht
    have htoken : GlobMatches fold t (n ++ ".exe".toList) ↔ GlobMatches fold (withoutExe t) n := by
      conv_lhs => rw [ht]
      exact globMatches_exe_exe hfold he hn hexe
    rcases withoutExe_cases n with ⟨f, hf, hnf⟩ | ⟨hno, hnn⟩
    · -- both end in the suffix
      have hnne : withoutExe n ≠ n := withoutExe_ne_iff.mpr fun hno => hno _ f hf hnf
      have hboth : GlobMatches fold t n ↔ GlobMatches fold (withoutExe t) (withoutExe n) := by
        conv_lhs => rw [ht, hnf]
        exact globMatches_exe_exe hfold he (hascii hnf) hf
      simp only [hboth, htoken, hname hf hnf, htne, hnne, ne_eq, not_false_eq_true, true_and, false_and, false_or]
    · -- only the token does, so nothing but a name with the suffix added is matched
      have hplain : ¬ GlobMatches fold t n := ht ▸ not_globMatches_exe hfold he hn hno
      have hadded : ¬ GlobMatches fold (t ++ ".exe".toList) n := not_globMatches_exe hfold hexe hn hno
      simp only [hplain, htoken, hadded, htne, hnn, ne_eq, not_true_eq_false, not_false_eq_true, true_and, false_and,
        false_or, or_false]
  · rw [ht]
    rcases withoutExe_cases n with ⟨f, hf, hnf⟩ | ⟨hno, hnn⟩
    · have hnne : withoutExe n ≠ n := withoutExe_ne_iff.mpr fun hno => hno _ f hf hnf
      simp only [hname hf hnf, ne_eq, hnne, not_false_eq_true, true_and, not_true_eq_false, false_and, or_false]
      exact or_assoc.symm.trans or_comm
    · have hadded : ¬ GlobMatches fold (t ++ ".exe".toList) n := not_globMatches_exe hfold hexe hn hno
      simp only [hadded, hnn, ne_eq, not_true_eq_false, true_and, false_and, false_or, or_false]

/-- What the rule of one token matches. -/
theorem matchesProcess_token (hR : R.Documented fold) (ht : IsToken t) (hta : IsAscii t)
    (hany : eqIgnoreAsciiCase t "ANY".toList = false) (hna : IsAscii n) (hlf : '\n' ∉ n) {regex : R.Regex}
    (hg : compileGlob R (withoutExe t) = some regex) {rule : Rule} {compiled : CompiledRule R}
    (hc : Rule.compile R { rule with processNames := t } = .ok compiled) :
    compiled.matchesProcess n = .ok true ↔ GlobMatches fold (withoutExe t) (withoutExe n) := by
  have hsplit : splitList t = [t] := by
    have := @IsToken.splitList t [] [] ht (by simp [Blank]) (by simp [Blank])
    simpa using this
  obtain ⟨matchers, hm, hc⟩ := except_bind_eq_ok.mp hc
  cases hc
  unfold CompiledRule.matchesProcess
  dsimp only at hm ⊢
  by_cases hall : isMatchAll t = true
  · -- the only such token is the star
    have hstar : t = "*".toList :=
      (splitList_of_isMatchAll hall t (by rw [hsplit]; exact List.mem_singleton_self t)).resolve_right
        (Bool.eq_false_iff.mp hany)
    rw [if_pos hall, hstar]
    refine iff_of_true rfl ?_
    have h : GlobMatches fold ['*'] (withoutExe n ++ []) := .star (withoutExe n) .nil
    rwa [List.append_nil] at h
  · rw [compileProcessList, if_neg hall, hsplit, List.mapM_cons, List.mapM_nil, stripExeSuffix_of_isAscii hta] at hm
    have hmatchers : matchers = [regex] := by
      have hm' : [withoutExe t].filterMap (compileGlob R) = matchers := Except.ok.inj hm
      rw [← hm', List.filterMap_cons, hg]
      rfl
    have hnone : (withoutExe n).count '\n' = 0 := by
      rw [List.count_eq_zero]
      intro hmem
      rcases withoutExe_cases n with ⟨f, -, hf⟩ | ⟨-, hn⟩
      · exact hlf (hf ▸ List.mem_append_left f hmem)
      · exact hlf (hn ▸ hmem)
    rw [if_neg hall, stripExeSuffix_of_isAscii hna, hmatchers]
    change Except.ok _ = Except.ok true ↔ _
    rw [Except.ok.injEq, List.any_cons, List.any_nil, Bool.or_false, compileGlob_isMatch hR hg, hnone]
    exact and_iff_left (Nat.zero_le _)

/-- **When a token matches what its glob matches, with or without the suffix**: nothing is invented, and a match is lost
exactly if it needs a suffix that is cut off. -/
theorem matchesProcess_iff (hR : R.Documented fold) {list : Str} (ht : t ∈ splitList list) (hta : IsAscii t)
    (hany : eqIgnoreAsciiCase t "ANY".toList = false) (hna : IsAscii n) (hlf : '\n' ∉ n) {regex : R.Regex}
    (hg : compileGlob R (withoutExe t) = some regex) {rule : Rule} {compiled : CompiledRule R}
    (hc : Rule.compile R { rule with processNames := t } = .ok compiled) :
    (compiled.matchesProcess n = .ok true ↔ GlobMatchesExe fold t n) ↔
      (NeedsSuffix fold t n → GlobMatches fold (withoutExe t) (withoutExe n)) := by
  rw [matchesProcess_token hR (exists_token ht).1 hta hany hna hlf hg hc, globMatchesExe_iff hR.fold_ascii hna]
  constructor
  · exact fun h hneeds => h.mpr (.inr hneeds)
  · exact fun h => ⟨.inl, fun h' => h'.elim id h⟩

end Token

/-- A Windows name in a rule, and the same program elsewhere. -/
theorem matchesProcess_chrome :
    ∃ regex compiled, compileGlob backslashRegex (withoutExe "chrome.exe".toList) = some regex ∧
      Rule.compile backslashRegex (Rule.new "chrome.exe".toList) = .ok compiled ∧
      (compiled.matchesProcess "chrome".toList = .ok true ↔
        GlobMatchesExe asciiFold "chrome.exe".toList "chrome".toList) := by
  obtain ⟨regex, hg⟩ : ∃ regex, compileGlob backslashRegex (withoutExe "chrome.exe".toList) = some regex := ⟨_, rfl⟩
  obtain ⟨compiled, hc⟩ : ∃ compiled, Rule.compile backslashRegex (Rule.new "chrome.exe".toList) = .ok compiled :=
    ⟨_, rfl⟩
  refine ⟨regex, compiled, hg, hc, ?_⟩
  refine (@matchesProcess_iff backslashRegex asciiFold "chrome.exe".toList "chrome".toList backslashRegex_documented
    "chrome.exe".toList (by decide) (isAscii_of_all (by decide)) (by decide) (isAscii_of_all (by decide)) (by decide) regex
    hg (Rule.new "chrome.exe".toList) compiled hc).mpr fun _ => ?_
  exact globMatches_self (fun c => beq_self_eq_true c.toLower) (by decide)

/-- **A wildcard for a part of the suffix**: the glob `chrome.ex?` matches `chrome.exe`, and the rule does not. -/
theorem matchesProcess_loses_wildcard :
    ∃ compiled, Rule.compile backslashRegex (Rule.new "chrome.ex?".toList) = .ok compiled ∧
      GlobMatches asciiFold "chrome.ex?".toList "chrome.exe".toList ∧
      compiled.matchesProcess "chrome.exe".toList = .ok false := by
  obtain ⟨regex, hg, hmatch⟩ : ∃ regex, compileGlob backslashRegex "chrome.ex?".toList = some regex ∧
      backslashRegex.isMatch regex "chrome.exe".toList = true := ⟨_, rfl, by decide⟩
  exact ⟨_, rfl, ((compileGlob_isMatch backslashRegex_documented hg _).mp hmatch).1, by decide⟩

end AceTun
