import AceTun.Netstack.FailClosed
import AceTun.Rule.FirstMatch
import AceTun.Rule.Glob

/-!
# Short process names

Linux and macOS know a process by a name that the kernel cuts off: `/proc/<pid>/comm` holds 15 bytes of it, and the field
that macOS fills has 16. A rule is matched against that name. One whose tokens all need more characters, wildcards
aside, matches no process at all: every flow is decided as if the rule were not in the list
(**`rules_out_of_reach_are_unused`**).
-/

namespace AceTun

open RustStd

/-! ## The names of processes -/

/-- `process_name` on Linux, by the contents of `/proc/<pid>/comm` and the file name that `/proc/<pid>/exe` links to. -/
def Linux.processName (comm : Option Bytes) (exe : Option Str) : Option Str := do
  let comm ← comm
  let comm ← fromUtf8 comm
  if trim comm ≠ [] then some (trim comm) else exe

/-- `process_name` on macOS, by the field that `proc_pidinfo` fills: the name ends with the field or before a zero. -/
def Macos.processName (comm : Option (Vector UInt8 16)) : Option Str := do
  let comm ← comm
  let name ← fromUtf8 (comm.toList.takeWhile (· ≠ 0))
  if trim name = [] then none else some (trim name)

theorem length_le_asBytes (s : Str) : s.length ≤ (asBytes s).length := by
  induction s with
  | nil => exact Nat.le_refl _
  | cons c s ih =>
    have hpos : 0 < (String.utf8EncodeChar c).length := by
      rw [String.length_utf8EncodeChar]
      exact c.utf8Size_pos
    rw [asBytes_cons, List.length_append, List.length_cons]
    omega

theorem length_trim_le (s : Str) : (trim s).length ≤ s.length := by
  obtain ⟨w, w', -, -, hs⟩ := exists_trim s
  have hlen := congrArg List.length hs
  simp only [List.length_append] at hlen
  omega

/-- A system whose kernel keeps at most `n` bytes of a name, each of them in a process that has one. -/
inductive ShortNames (env : FlowEnv) : Nat → Prop where
  | linux (comm : UInt32 → Option Bytes) (exe : UInt32 → Option Str)
      (henv : ∀ pid, env.processName pid = Linux.processName (comm pid) (exe pid))
      (hcomm : ∀ pid bytes, comm pid = some bytes → ∃ name, bytes = name ++ [10] ∧ name.length ≤ 15)
      (hnamed : ∀ pid bytes text, comm pid = some bytes → fromUtf8 bytes = some text → trim text ≠ []) :
      ShortNames env 15
  | macos (comm : UInt32 → Option (Vector UInt8 16))
      (henv : ∀ pid, env.processName pid = Macos.processName (comm pid)) : ShortNames env 16

theorem length_macos_processName {comm : Option (Vector UInt8 16)} {name : Str} (h : Macos.processName comm = some name) :
    name.length ≤ 16 := by
  obtain ⟨field, -, h⟩ := Option.bind_eq_some_iff.mp h
  obtain ⟨text, htext, h⟩ := Option.bind_eq_some_iff.mp h
  rw [Option.ite_none_left_eq_some] at h
  obtain ⟨-, h⟩ := h
  cases h
  have hfield : (field.toList.takeWhile (· ≠ 0)).length ≤ 16 := by
    refine ((List.takeWhile_sublist _).length_le).trans ?_
    rw [Vector.length_toList]
  have hbytes := length_le_asBytes text
  rw [asBytes_of_fromUtf8 htext] at hbytes
  exact (length_trim_le text).trans (hbytes.trans hfield)

/-- A text whose bytes end with a line feed ends with a line feed. -/
theorem text_before_lineFeed {text : Str} {bytes : Bytes} (h : asBytes text = bytes ++ [10]) :
    ∃ front, asBytes front = bytes ∧ text = front ++ ['\n'] := by
  rcases List.eq_nil_or_concat text with rfl | ⟨front, c, rfl⟩
  · simp at h
  · rw [List.concat_eq_append, asBytes_append] at h
    have hlast : (10 : UInt8) ∈ String.utf8EncodeChar c := by
      have hne : asBytes [c] ≠ [] := by simp
      have hget : (asBytes [c]).getLast? = some 10 := by
        rw [← List.getLast?_append_of_ne_nil (asBytes front) hne, h, List.getLast?_concat]
      simpa using List.mem_of_getLast? hget
    obtain rfl : c = '\n' := (mem_encode_ascii (a := '\n') (by decide)).mp hlast
    exact ⟨front, List.append_inj_left' h rfl, List.concat_eq_append⟩

/-- The line feed at the end of the file is not part of the name. -/
theorem length_linux_processName {comm : Bytes} {exe : Option Str} {name : Str} {n : Nat}
    (hlen : comm.length ≤ n) (hnamed : ∀ text, fromUtf8 (comm ++ [10]) = some text → trim text ≠ [])
    (h : Linux.processName (some (comm ++ [10])) exe = some name) : name.length ≤ n := by
  obtain ⟨text, htext, h⟩ := Option.bind_eq_some_iff.mp h
  rw [if_pos (hnamed text htext)] at h
  cases h
  obtain ⟨front, hfront, rfl⟩ := text_before_lineFeed (asBytes_of_fromUtf8 htext)
  have hblank : Blank ['\n'] := by
    intro c hc
    rw [List.mem_singleton.mp hc]
    decide
  have htrim : trim (front ++ ['\n']) = trim front := trim_append (w := []) (by simp [Blank]) hblank front
  have hbytes := length_le_asBytes front
  rw [hfront] at hbytes
  rw [htrim]
  exact (length_trim_le front).trans (hbytes.trans hlen)

/-! ## Rules that no name is long enough for -/

/-- How many characters a text has at least that matches a glob. -/
def globDemand (glob : Str) : Nat := glob.countP (· ≠ '*')

theorem GlobMatches.demand_le {fold : Char → Char → Prop} {glob s : Str} (h : GlobMatches fold glob s) :
    globDemand glob ≤ s.length := by
  induction h with
  | nil => exact Nat.le_refl _
  | star taken h ih =>
    rw [globDemand, List.countP_cons_of_neg (by simp), List.length_append]
    exact ih.trans (Nat.le_add_left _ _)
  | question d h ih =>
    rw [globDemand, List.countP_cons_of_pos (by simp), List.length_cons]
    exact Nat.succ_le_succ ih
  | char hs hq hf h ih =>
    rw [globDemand, List.countP_cons_of_pos (by simpa using hs), List.length_cons]
    exact Nat.succ_le_succ ih

/-- Every token of the rule needs more than `n` characters. -/
def Rule.outOfReach (n : Nat) (rule : Rule) : Bool :=
  !isMatchAll rule.processNames && (splitList rule.processNames).all fun t => n < globDemand (withoutExe t)

section Reach

variable {R : RegexCrate} {fold : Char → Char → Prop} {n : Nat}

theorem stripExeSuffix_eq_ok {t t' : Str} (h : stripExeSuffix t = .ok t') : t' = withoutExe t := by
  by_cases hw : EndsWhole t
  · rw [stripExeSuffix_ok hw] at h
    cases h
    rfl
  · rw [stripExeSuffix_panic hw] at h
    cases h

theorem length_withoutExe_le (t : Str) : (withoutExe t).length ≤ t.length := by
  unfold withoutExe
  split
  · exact List.length_take_le' _ _
  · exact Nat.le_refl _

/-- A rule that is out of reach matches no short name. -/
theorem matchesProcess_outOfReach (hR : R.Documented fold) {rule : Rule} {compiled : CompiledRule R}
    (hc : rule.compile R = .ok compiled) (hout : rule.outOfReach n = true) {name : Str} (hname : name.length ≤ n) :
    compiled.processWildcard = false ∧ ∀ named, compiled.matchesProcess name = .ok named → named = false := by
  simp only [Rule.outOfReach, Bool.and_eq_true, Bool.not_eq_true', List.all_eq_true, decide_eq_true_eq] at hout
  obtain ⟨hall, hlong⟩ := hout
  obtain ⟨matchers, hmatchers, hc⟩ := except_bind_eq_ok.mp hc
  cases hc
  refine ⟨hall, fun named h => ?_⟩
  rw [CompiledRule.matchesProcess, if_neg (by simp [hall])] at h
  obtain ⟨short, hshort, h⟩ := except_bind_eq_ok.mp h
  cases h
  rw [compileProcessList, if_neg (by simp [hall])] at hmatchers
  obtain ⟨tokens, htokens, hmatchers⟩ := except_bind_eq_ok.mp hmatchers
  cases hmatchers
  rw [List.any_eq_false]
  intro regex hregex hmatch
  obtain ⟨token, htoken, hglob⟩ := List.mem_filterMap.mp hregex
  obtain ⟨t, ht, hstrip⟩ := (mapM_mem htokens).1 token htoken
  have hdemand := ((compileGlob_isMatch hR hglob short).mp hmatch).1.demand_le
  have hneed := hlong t ht
  have hle := length_withoutExe_le name
  rw [stripExeSuffix_eq_ok hstrip, stripExeSuffix_eq_ok hshort] at hdemand
  omega

/-- A part of a list is mapped if the list is. -/
theorem mapM_filter_isOk {α β ε : Type} {f : α → Except ε β} (p : α → Bool) {l : List α} {l' : List β}
    (h : l.mapM f = .ok l') : ∃ l'', (l.filter p).mapM f = .ok l'' := by
  induction l generalizing l' with
  | nil => exact ⟨[], rfl⟩
  | cons a l ih =>
    obtain ⟨b, bs, hb, hbs, rfl⟩ := mapM_cons_eq_ok.mp h
    obtain ⟨cs, hcs⟩ := ih hbs
    rw [List.filter_cons]
    split
    · exact ⟨b :: cs, mapM_cons_eq_ok.mpr ⟨b, cs, hb, hcs, rfl⟩⟩
    · exact ⟨cs, hcs⟩

variable {name : Str} {dest : IpAddr} {destPort : UInt16} {isUdp : Bool} {domain : Option Str} {m : RuleMatch}

/-- A rule that is out of reach is passed over. -/
theorem evaluateLoop_outOfReach (hR : R.Documented fold) (hname : name.length ≤ n) {rule : Rule}
    {compiled : CompiledRule R} (hc : rule.compile R = .ok compiled) (hout : rule.outOfReach n = true)
    {rules : List (CompiledRule R)} {fallback : Option (CompiledRule R)}
    (h : RuleSet.evaluateLoop name dest destPort isUdp domain (compiled :: rules) fallback = .ok m) :
    RuleSet.evaluateLoop name dest destPort isUdp domain rules fallback = .ok m := by
  obtain ⟨hwild, hnamed⟩ := matchesProcess_outOfReach hR hc hout hname
  rw [RuleSet.evaluateLoop] at h
  by_cases hp : compiled.protocol.matches isUdp = true
  · rw [if_neg (by simp [hp]), if_neg (by simp [hwild])] at h
    obtain ⟨named, hn, h⟩ := except_bind_eq_ok.mp h
    rw [hnamed named hn] at h
    exact h
  · rw [if_pos (by simp [hp])] at h
    exact h

/-- The loop over the rules that are within reach. -/
theorem evaluateLoop_filter (hR : R.Documented fold) (hname : name.length ≤ n) {rules : List Rule}
    {compiled kept : List (CompiledRule R)} (hc : rules.mapM (Rule.compile R) = .ok compiled)
    (hk : (rules.filter (!·.outOfReach n)).mapM (Rule.compile R) = .ok kept) {fallback : Option (CompiledRule R)}
    (h : RuleSet.evaluateLoop name dest destPort isUdp domain compiled fallback = .ok m) :
    RuleSet.evaluateLoop name dest destPort isUdp domain kept fallback = .ok m := by
  induction rules generalizing compiled kept fallback with
  | nil =>
    cases hc
    cases hk
    exact h
  | cons rule rules ih =>
    obtain ⟨c, cs, hrule, hrules, rfl⟩ := mapM_cons_eq_ok.mp hc
    cases hout : rule.outOfReach n with
    | true =>
      rw [List.filter_cons_of_neg (by simp [hout])] at hk
      exact ih hrules hk (evaluateLoop_outOfReach hR hname hrule hout h)
    | false =>
      rw [List.filter_cons_of_pos (by simp [hout])] at hk
      obtain ⟨c', ks, hrule', hks, rfl⟩ := mapM_cons_eq_ok.mp hk
      cases hrule.symm.trans hrule'
      rw [evaluateLoop_cons] at h ⊢
      by_cases hw : c.winsUnnamed dest destPort isUdp domain = true
      · rw [if_pos hw] at h ⊢
        exact h
      rw [if_neg hw] at h ⊢
      by_cases hf : c.fallback isUdp = true
      · rw [if_pos hf] at h ⊢
        exact ih hrules hks h
      rw [if_neg hf] at h ⊢
      by_cases hl : c.looksAtName isUdp = true
      · rw [if_pos hl] at h ⊢
        obtain ⟨short, hshort, h⟩ := except_bind_eq_ok.mp h
        refine except_bind_eq_ok.mpr ⟨short, hshort, ?_⟩
        by_cases hm : (c.processMatchers.any (R.isMatch · short) && c.matchesTarget dest destPort domain) = true
        · rw [if_pos hm] at h ⊢
          exact h
        · rw [if_neg hm] at h ⊢
          exact ih hrules hks h
      · rw [if_neg hl] at h ⊢
        exact ih hrules hks h

/-- What the rules decide of a short name, those within reach decide. -/
theorem evaluate_filter (hR : R.Documented fold) (hname : name.length ≤ n) {rules : List Rule} {set : RuleSet R}
    (hset : RuleSet.new R rules = .ok set) :
    ∃ kept, RuleSet.new R (rules.filter (!·.outOfReach n)) = .ok kept ∧ ∀ dest destPort isUdp domain m,
      set.evaluate name dest destPort isUdp domain = .ok m → kept.evaluate name dest destPort isUdp domain = .ok m := by
  have hc := RuleSet.new_rules hset
  obtain ⟨ks, hks⟩ := mapM_filter_isOk (!·.outOfReach n) hc
  refine ⟨⟨ks, _, rfl⟩, except_bind_eq_ok.mpr ⟨ks, hks, rfl⟩, fun dest destPort isUdp domain m h => ?_⟩
  exact evaluateLoop_filter hR hname hc hks h

end Reach

/-! ## Flows -/

/-- A flow is attributed to a short name. -/
theorem length_attributeFlow {env : FlowEnv} {n : Nat} (h : ShortNames env n) : (attributeFlow env).2.length ≤ n := by
  have hname : ∀ pid name, env.processName pid = some name → name.length ≤ n := by
    intro pid name hname
    cases h with
    | linux comm exe henv hcomm hnamed =>
      rw [henv] at hname
      cases hc : comm pid with
      | none =>
        rw [hc] at hname
        cases hname
      | some bytes =>
        obtain ⟨front, rfl, hlen⟩ := hcomm pid bytes hc
        rw [hc] at hname
        exact length_linux_processName hlen (hnamed pid _ · hc) hname
    | macos comm henv =>
      rw [henv] at hname
      exact length_macos_processName hname
  unfold attributeFlow
  cases hpid : env.pid with
  | none => exact Nat.zero_le n
  | some pid =>
    rw [Option.bind_some]
    cases hn : env.processName pid with
    | none => exact Nat.zero_le n
    | some name =>
      rw [Option.map_some, Option.getD_some, toAsciiLowercase, List.length_map]
      exact hname pid name hn

/-- The rules matter to a decision only by what they evaluate to. -/
theorem decide_of_evaluate {R : RegexCrate} {shared : Shared R} {kept : RuleSet R} {facts : FlowFacts} {d : Decision}
    (h : ∀ m, shared.rules.evaluate facts.processName facts.dest.ip facts.dest.port facts.isUdp facts.domain = .ok m →
      kept.evaluate facts.processName facts.dest.ip facts.dest.port facts.isUdp facts.domain = .ok m)
    (hd : decide shared facts = .ok d) : decide { shared with rules := kept } facts = .ok d := by
  unfold decide at hd ⊢
  split at hd
  · next hown => exact (if_pos hown).trans hd
  · next hown =>
    refine (if_neg hown).trans ?_
    split at hd
    · next hloop => exact (if_pos hloop).trans hd
    · next hloop =>
      refine (if_neg hloop).trans ?_
      split at hd
      · next hgroup => exact (if_pos hgroup).trans hd
      · next hgroup =>
        refine (if_neg hgroup).trans ?_
        split at hd
        · next hquic => exact (if_pos hquic).trans hd
        · next hquic =>
          obtain ⟨m, hm, hd⟩ := except_bind_eq_ok.mp hd
          exact (if_neg hquic).trans (except_bind_eq_ok.mpr ⟨m, h m hm, hd⟩)

/-- Rules that the flow's name is too short for decide nothing. -/
theorem decide_filter {R : RegexCrate} {fold : Char → Char → Prop} (hR : R.Documented fold) {env : FlowEnv} {n : Nat}
    (hname : (attributeFlow env).2.length ≤ n) {rules : List Rule} {shared : Shared R}
    (hrules : RuleSet.new R rules = .ok shared.rules) :
    ∃ kept, RuleSet.new R (rules.filter (!·.outOfReach n)) = .ok kept ∧
      ∀ dest isUdp d, decide shared (factsOf env shared dest isUdp) = .ok d →
        decide { shared with rules := kept } (factsOf env { shared with rules := kept } dest isUdp) = .ok d := by
  obtain ⟨kept, hkept, heval⟩ := evaluate_filter hR hname hrules
  refine ⟨kept, hkept, fun dest isUdp d hd => ?_⟩
  -- whether names are looked up may change with the rules, but decides nothing
  have hlookup := decide_domainFor shared env.now (factsOf env shared dest isUdp)
  have hlookup' := decide_domainFor { shared with rules := kept } env.now (factsOf env shared dest isUdp)
  refine hlookup'.trans (decide_of_evaluate (fun m => heval _ _ _ _ m) ?_)
  exact hlookup.symm.trans hd

/-- **Rules that no process name is long enough for are not there.** On a system that cuts names off after `n` bytes,
every flow that is decided is decided as it is without the rules whose tokens all need more characters. -/
theorem rules_out_of_reach_are_unused {R : RegexCrate} {fold : Char → Char → Prop} (hR : R.Documented fold)
    {env : FlowEnv} {n : Nat} (hnames : ShortNames env n) {rules : List Rule} {shared : Shared R}
    (hrules : RuleSet.new R rules = .ok shared.rules) :
    ∃ kept, RuleSet.new R (rules.filter (!·.outOfReach n)) = .ok kept ∧
      ∀ dest isUdp d, decide shared (factsOf env shared dest isUdp) = .ok d →
        decide { shared with rules := kept } (factsOf env { shared with rules := kept } dest isUdp) = .ok d :=
  decide_filter hR (length_attributeFlow hnames) hrules

/-- The helper of a browser, as macOS names it. -/
def helperComm : Vector UInt8 16 := ⟨(asBytes "Google Chrome He".toList).toArray, by decide⟩

/-- One rule, for the helper by its whole name. -/
def helperRules : List Rule := [{ Rule.new "Google Chrome Helper".toList with action := .proxy }]

/-- A flow of that process. -/
def helperEnv : FlowEnv := { sampleEnv with processName := fun _ => Macos.processName (some helperComm) }

/-- The rule for the helper does not apply to the helper. -/
theorem rules_out_of_reach_are_unused_sample :
    (attributeFlow helperEnv).2 = "google chrome he".toList ∧
      ∃ set, RuleSet.new backslashRegex helperRules = .ok set ∧
        decide (sampleShared set) (factsOf helperEnv (sampleShared set) ⟨.v4 (.new 192 0 2 1), 443⟩ false) = .ok .direct ∧
        ∃ kept, RuleSet.new backslashRegex [] = .ok kept ∧
          decide { sampleShared set with rules := kept }
            (factsOf helperEnv { sampleShared set with rules := kept } ⟨.v4 (.new 192 0 2 1), 443⟩ false) =
              .ok .direct := by
  have hnames : ShortNames helperEnv 16 := .macos (fun _ => some helperComm) fun _ => rfl
  obtain ⟨set, hset⟩ : ∃ set, RuleSet.new backslashRegex helperRules = .ok set := ⟨_, rfl⟩
  have hdecided : decide (sampleShared set) (factsOf helperEnv (sampleShared set) ⟨.v4 (.new 192 0 2 1), 443⟩ false) =
      .ok .direct := by
    cases hset
    decide +kernel
  obtain ⟨kept, hkept, hsame⟩ := rules_out_of_reach_are_unused backslashRegex_documented hnames
    (show RuleSet.new backslashRegex helperRules = .ok (sampleShared set).rules from hset)
  have hnone : helperRules.filter (!·.outOfReach 16) = [] := by decide +kernel
  rw [hnone] at hkept
  exact ⟨by decide +kernel, set, hset, hdecided, kept, hkept, hsame _ _ _ hdecided⟩

end AceTun
