import AceTun.RegexSyntax
import AceTun.Rule.Engine

/-!
# Globs and their regexes

`GlobMatches` is what a glob means: `*` takes any characters, `?` takes one, and every other character takes one that is
equal to it up to case. `compile_glob` translates a glob to a regex in which both wildcards are a `.`, and in the `regex`
crate that is any character except the line feed. So the regex is the glob wherever no wildcard has to take a line feed
(`compileGlob_iff`).

What is assumed of the crate is `RegexCrate.Documented`; `backslashRegex` is a crate of that kind.
-/

namespace AceTun

open RustStd RegexSyntax

/-! ## What a glob means -/

section Globs

variable (fold : Char → Char → Prop)

/-- The text can be split along the glob. -/
inductive GlobMatches : (glob s : Str) → Prop
  | nil : GlobMatches [] []
  | star {glob rest : Str} (taken : Str) : GlobMatches glob rest → GlobMatches ('*' :: glob) (taken ++ rest)
  | question {glob s : Str} (d : Char) : GlobMatches glob s → GlobMatches ('?' :: glob) (d :: s)
  | char {c d : Char} {glob s : Str} :
    c ≠ '*' → c ≠ '?' → fold c d → GlobMatches glob s → GlobMatches (c :: glob) (d :: s)

variable {fold} {glob s : Str}

theorem globMatches_nil_iff : GlobMatches fold [] s ↔ s = [] := by
  constructor
  · intro h
    cases h
    rfl
  · rintro rfl
    exact .nil

theorem globMatches_star_iff :
    GlobMatches fold ('*' :: glob) s ↔ ∃ taken rest, s = taken ++ rest ∧ GlobMatches fold glob rest := by
  constructor
  · intro h
    cases h with
    | star taken h => exact ⟨taken, _, rfl, h⟩
    | char hs _ _ _ => exact absurd rfl hs
  · rintro ⟨taken, rest, rfl, h⟩
    exact .star taken h

theorem globMatches_question_iff :
    GlobMatches fold ('?' :: glob) s ↔ ∃ d rest, s = d :: rest ∧ GlobMatches fold glob rest := by
  constructor
  · intro h
    cases h with
    | question d h => exact ⟨d, _, rfl, h⟩
    | char _ hq _ _ => exact absurd rfl hq
  · rintro ⟨d, rest, rfl, h⟩
    exact .question d h

theorem globMatches_char_iff {c : Char} (hs : c ≠ '*') (hq : c ≠ '?') :
    GlobMatches fold (c :: glob) s ↔ ∃ d rest, s = d :: rest ∧ fold c d ∧ GlobMatches fold glob rest := by
  constructor
  · intro h
    cases h with
    | star _ _ => exact absurd rfl hs
    | question _ _ => exact absurd rfl hq
    | char _ _ hf h => exact ⟨_, _, rfl, hf, h⟩
  · rintro ⟨d, rest, rfl, hf, h⟩
    exact .char hs hq hf h

/-- A text without wildcards matches itself. -/
theorem globMatches_self (hrefl : ∀ c, fold c c) (h : glob.all (fun c => c != '*' && c != '?') = true) :
    GlobMatches fold glob glob := by
  induction glob with
  | nil => exact .nil
  | cons c glob ih =>
    simp only [List.all_cons, Bool.and_eq_true, bne_iff_ne] at h
    exact .char h.1.1 h.1.2 (hrefl c) (ih h.2)

end Globs

/-! ## The crate -/

/-- What the `regex` crate documents of the patterns that are built here. -/
structure RegexCrate.Documented (R : RegexCrate) (fold : Char → Char → Prop) : Prop where
  /-- An anchored pattern matches the texts that its items match as a whole. -/
  isMatch_iff : ∀ items regex, R.new (anchored R.escape items) = some regex →
    ∀ s, R.isMatch regex s = true ↔ Matches fold items s
  /-- Only the line feed folds with the line feed. -/
  fold_lineFeed : ∀ c d, fold c d → (c = '\n' ↔ d = '\n')
  /-- Among ASCII characters, folding is equality of the lower cases. -/
  fold_ascii : ∀ c d : Char, c.toNat < 128 → d.toNat < 128 → (fold c d ↔ c.toLower = d.toLower)

/-- The items that the characters of a glob are translated to. -/
def globItem (c : Char) : Item :=
  if c = '*' then .many .dot else if c = '?' then .one .dot else .one (.literal c)

theorem globPiece_eq (R : RegexCrate) (c : Char) : globPiece R c = (globItem c).text R.escape := by
  unfold globPiece globItem
  split
  · rfl
  · split <;> rfl

theorem compileGlob_eq (R : RegexCrate) (glob : Str) :
    compileGlob R glob = R.new (anchored R.escape (glob.map globItem)) := by
  have hpieces : glob.flatMap (globPiece R) = (glob.map globItem).flatMap (Item.text R.escape) := by
    rw [List.flatMap_map]
    exact List.flatMap_congr fun c _ => globPiece_eq R c
  unfold compileGlob anchored
  rw [hpieces]

/-! ## Line feeds -/

section LineFeeds

variable {fold : Char → Char → Prop} (hfold : ∀ c d, fold c d → (c = '\n' ↔ d = '\n')) {glob s : Str}

include hfold

theorem count_cons_of_fold {c d : Char} (hf : fold c d) (g t : Str) :
    (c :: g).count '\n' + t.count '\n' = (d :: t).count '\n' + g.count '\n' := by
  have hiff := hfold c d hf
  simp only [List.count_cons, beq_iff_eq, hiff]
  omega

/-- The line feeds of a glob stand for themselves, and its wildcards may take more. -/
theorem GlobMatches.count_le (h : GlobMatches fold glob s) : glob.count '\n' ≤ s.count '\n' := by
  induction h with
  | nil => exact Nat.le_refl _
  | star taken _ ih =>
    rw [List.count_append, List.count_cons_of_ne (by decide)]
    omega
  | question d _ ih =>
    rw [List.count_cons_of_ne (by decide)]
    exact Nat.le_trans ih (List.count_le_count_cons ..)
  | @char c d g t _ _ hf _ ih =>
    have := count_cons_of_fold hfold hf g t
    omega

/-- **The translated glob matches what the glob matches without a wildcard for a line feed.** -/
theorem matches_globItems_iff :
    Matches fold (glob.map globItem) s ↔ GlobMatches fold glob s ∧ s.count '\n' ≤ glob.count '\n' := by
  induction glob generalizing s with
  | nil =>
    rw [List.map_nil, matches_nil_iff, globMatches_nil_iff]
    exact ⟨fun h => ⟨h, by simp [h]⟩, fun h => h.1⟩
  | cons c glob ih =>
    rw [List.map_cons]
    by_cases hs : c = '*'
    · subst hs
      rw [show globItem '*' = .many .dot from rfl, matches_many_iff, globMatches_star_iff,
        List.count_cons_of_ne (by decide)]
      constructor
      · rintro ⟨taken, rest, rfl, ht, h⟩
        obtain ⟨hg, hc⟩ := ih.mp h
        have hnone : taken.count '\n' = 0 := List.count_eq_zero.mpr fun hm => ht _ hm rfl
        exact ⟨⟨taken, rest, rfl, hg⟩, by rw [List.count_append]; omega⟩
      · rintro ⟨⟨taken, rest, rfl, hg⟩, hc⟩
        -- the rest has the line feeds of the glob already, so none is left for the star
        have hrest := hg.count_le hfold
        rw [List.count_append] at hc
        refine ⟨taken, rest, rfl, fun d hd hlf => ?_, ih.mpr ⟨hg, by omega⟩⟩
        have := List.count_pos_iff.mpr (hlf ▸ hd)
        omega
    · by_cases hq : c = '?'
      · subst hq
        rw [show globItem '?' = .one .dot from rfl, matches_one_iff, globMatches_question_iff,
          List.count_cons_of_ne (by decide)]
        constructor
        · rintro ⟨d, rest, rfl, hd, h⟩
          obtain ⟨hg, hc⟩ := ih.mp h
          exact ⟨⟨d, rest, rfl, hg⟩, by rwa [List.count_cons_of_ne hd]⟩
        · rintro ⟨⟨d, rest, rfl, hg⟩, hc⟩
          have hrest := hg.count_le hfold
          have hd : d ≠ '\n' := by
            rintro rfl
            rw [List.count_cons_self] at hc
            omega
          rw [List.count_cons_of_ne hd] at hc
          exact ⟨d, rest, rfl, hd, ih.mpr ⟨hg, hc⟩⟩
      · rw [show globItem c = .one (.literal c) by simp [globItem, hs, hq], matches_one_iff, globMatches_char_iff hs hq]
        constructor
        · rintro ⟨d, rest, rfl, hf, h⟩
          obtain ⟨hg, hc⟩ := ih.mp h
          have hcons := count_cons_of_fold hfold hf glob rest
          exact ⟨⟨d, rest, rfl, hf, hg⟩, by omega⟩
        · rintro ⟨⟨d, rest, rfl, hf, hg⟩, hc⟩
          have hcons := count_cons_of_fold hfold hf glob rest
          exact ⟨d, rest, rfl, hf, ih.mpr ⟨hg, by omega⟩⟩

end LineFeeds

/-! ## The compiled glob -/

section Compiled

variable {R : RegexCrate} {fold : Char → Char → Prop} {glob : Str} {regex : R.Regex}

/-- What a compiled glob matches. -/
theorem compileGlob_isMatch (hR : R.Documented fold) (hc : compileGlob R glob = some regex) (s : Str) :
    R.isMatch regex s = true ↔ GlobMatches fold glob s ∧ s.count '\n' ≤ glob.count '\n' := by
  rw [compileGlob_eq] at hc
  rw [hR.isMatch_iff _ _ hc, matches_globItems_iff hR.fold_lineFeed]

/-- **When a compiled glob is the glob**: unless the text matches with more line feeds than the glob has. -/
theorem compileGlob_iff (hR : R.Documented fold) (hc : compileGlob R glob = some regex) (s : Str) :
    (R.isMatch regex s = true ↔ GlobMatches fold glob s) ↔
      (GlobMatches fold glob s → s.count '\n' ≤ glob.count '\n') := by
  rw [compileGlob_isMatch hR hc]
  exact and_iff_left_iff_imp

end Compiled

/-! ## A crate -/

/-- A crate that escapes every character and folds ASCII letters. -/
def backslashRegex : RegexCrate where
  Regex := List Item
  new pattern := parse (pattern.drop 5).dropLast
  isMatch := RegexSyntax.isMatch fun c d => c.toLower == d.toLower
  escape := backslash

/-- The folding of that crate. -/
def asciiFold (c d : Char) : Prop := (c.toLower == d.toLower) = true

instance (c d : Char) : Decidable (asciiFold c d) := inferInstanceAs (Decidable (_ = true))

theorem toLower_eq_lineFeed {c : Char} : c.toLower = '\n' ↔ c = '\n' := by
  constructor
  · intro h
    unfold Char.toLower at h
    split at h
    · next hc =>
      have hval : (c.val + 32).toNat = 10 := congrArg (fun d : Char => d.val.toNat) h
      simp only [ge_iff_le, UInt32.le_iff_toNat_le] at hc
      simp at hc hval
      omega
    · exact h
  · rintro rfl
    decide

theorem backslashRegex_new (items : List Item) : backslashRegex.new (anchored backslash items) = some items := by
  have hcut : ((anchored backslash items).drop 5).dropLast = items.flatMap (Item.text backslash) := by
    unfold anchored
    rw [List.append_assoc, List.drop_left' (by decide)]
    exact List.dropLast_concat
  exact (congrArg parse hcut).trans (parse_text items)

theorem backslashRegex_documented : backslashRegex.Documented asciiFold where
  isMatch_iff items regex h s := by
    cases (backslashRegex_new items).symm.trans h
    exact RegexSyntax.isMatch_iff
  fold_lineFeed c d h := by
    have h' : c.toLower = d.toLower := beq_iff_eq.mp h
    rw [← toLower_eq_lineFeed (c := c), h', toLower_eq_lineFeed]
  fold_ascii c d _ _ := beq_iff_eq

/-- A glob for the hosts of a domain, on one of them. -/
theorem compileGlob_plain_host :
    ∃ regex, compileGlob backslashRegex "*.example.com".toList = some regex ∧
      (backslashRegex.isMatch regex "www.Example.com".toList = true ↔
        GlobMatches asciiFold "*.example.com".toList "www.Example.com".toList) := by
  obtain ⟨regex, hc⟩ : ∃ regex, compileGlob backslashRegex "*.example.com".toList = some regex := ⟨_, rfl⟩
  exact ⟨regex, hc, (compileGlob_iff backslashRegex_documented hc _).mpr fun _ => by decide⟩

/-- **A star does not take a line feed**: the glob matches a name with one before `.example.com`, its regex does not. -/
theorem compileGlob_misses_lineFeed :
    ∃ regex, compileGlob backslashRegex "*.example.com".toList = some regex ∧
      GlobMatches asciiFold "*.example.com".toList "a\nb.example.com".toList ∧
      backslashRegex.isMatch regex "a\nb.example.com".toList = false := by
  refine ⟨_, rfl, ?_, by decide⟩
  exact .star "a\nb".toList (globMatches_self (fun c => beq_self_eq_true c.toLower) (by decide))

end AceTun
