import AceTun.RustStd.Text

/-!
# A part of the language of the `regex` crate

Patterns that are a sequence of `.`, of literal characters and of repetitions of either, between `(?i)^` and `$`
(`anchored`), and which texts they match as a whole (`Matches`), up to a relation `fold` that stands for case folding.
`isMatch` decides that, and `parse` reads back patterns whose literals all have a backslash.
-/

namespace RegexSyntax

open RustStd

inductive Atom where
  | dot
  | literal (c : Char)
  deriving DecidableEq, Repr

inductive Item where
  | one (a : Atom)
  /-- The atom with a `*`. -/
  | many (a : Atom)
  deriving DecidableEq, Repr

/-! ## Texts -/

section Text

variable (escape : Str → Str)

def Atom.text : Atom → Str
  | .dot => ".".toList
  | .literal c => escape [c]

def Item.text : Item → Str
  | .one a => a.text escape
  | .many a => a.text escape ++ "*".toList

/-- The whole pattern. -/
def anchored (items : List Item) : Str := "(?i)^".toList ++ items.flatMap (Item.text escape) ++ "$".toList

end Text

/-! ## Meaning -/

section Matches

variable (fold : Char → Char → Prop)

/-- `.` is any character except the line feed. -/
def Atom.Accepts : Atom → Char → Prop
  | .dot, d => d ≠ '\n'
  | .literal c, d => fold c d

/-- The whole text is matched. -/
inductive Matches : List Item → Str → Prop
  | nil : Matches [] []
  | one {a : Atom} {d : Char} {items : List Item} {s : Str} :
    a.Accepts fold d → Matches items s → Matches (.one a :: items) (d :: s)
  | skip {a : Atom} {items : List Item} {s : Str} : Matches items s → Matches (.many a :: items) s
  | more {a : Atom} {d : Char} {items : List Item} {s : Str} :
    a.Accepts fold d → Matches (.many a :: items) s → Matches (.many a :: items) (d :: s)

end Matches

section Inversion

variable {fold : Char → Char → Prop} {a : Atom} {items : List Item} {s : Str}

theorem matches_nil_iff : Matches fold [] s ↔ s = [] :=
  ⟨fun h => by cases h; rfl, fun h => h ▸ .nil⟩

theorem matches_one_iff :
    Matches fold (.one a :: items) s ↔ ∃ d rest, s = d :: rest ∧ a.Accepts fold d ∧ Matches fold items rest := by
  constructor
  · intro h
    cases h with
    | one ha h => exact ⟨_, _, rfl, ha, h⟩
  · rintro ⟨d, rest, rfl, ha, h⟩
    exact .one ha h

theorem matches_many_append {taken : Str} (ht : ∀ d ∈ taken, a.Accepts fold d) (h : Matches fold items s) :
    Matches fold (.many a :: items) (taken ++ s) := by
  induction taken with
  | nil => exact .skip h
  | cons d taken ih =>
    exact .more (ht d List.mem_cons_self) (ih fun x hx => ht x (List.mem_cons_of_mem _ hx))

/-- A repetition takes some characters that its atom accepts. -/
theorem matches_many_iff :
    Matches fold (.many a :: items) s ↔
      ∃ taken rest, s = taken ++ rest ∧ (∀ d ∈ taken, a.Accepts fold d) ∧ Matches fold items rest := by
  constructor
  · intro h
    induction s with
    | nil =>
      cases h with
      | skip h => exact ⟨[], [], rfl, by simp, h⟩
    | cons d s ih =>
      cases h with
      | skip h => exact ⟨[], d :: s, rfl, by simp, h⟩
      | more ha h =>
        obtain ⟨taken, rest, rfl, ht, hr⟩ := ih h
        exact ⟨d :: taken, rest, rfl, List.forall_mem_cons.mpr ⟨ha, ht⟩, hr⟩
  · rintro ⟨taken, rest, rfl, ht, h⟩
    exact matches_many_append ht h

end Inversion

/-! ## Matching -/

section Matcher

def Atom.accepts (fold : Char → Char → Bool) : Atom → Char → Bool
  | .dot, d => d != '\n'
  | .literal c, d => fold c d

/-- Take characters that meet `p`, and go on with the rest. -/
def takeMany (p : Char → Bool) (next : Str → Bool) : Str → Bool
  | [] => next []
  | d :: s => next (d :: s) || (p d && takeMany p next s)

def isMatch (fold : Char → Char → Bool) : List Item → Str → Bool
  | [], s => s.isEmpty
  | .one _ :: _, [] => false
  | .one a :: items, d :: s => a.accepts fold d && isMatch fold items s
  | .many a :: items, s => takeMany (a.accepts fold) (isMatch fold items) s

variable {fold : Char → Char → Bool}

theorem Atom.accepts_iff {a : Atom} {d : Char} : a.accepts fold d = true ↔ a.Accepts (fold · · = true) d := by
  cases a <;> simp [accepts, Accepts]

theorem takeMany_iff {p : Char → Bool} {next : Str → Bool} {s : Str} :
    takeMany p next s = true ↔ ∃ taken rest, s = taken ++ rest ∧ (∀ d ∈ taken, p d = true) ∧ next rest = true := by
  induction s with
  | nil => simp [takeMany]
  | cons d s ih =>
    rw [takeMany, Bool.or_eq_true, Bool.and_eq_true, ih]
    constructor
    · rintro (h | ⟨hd, taken, rest, rfl, ht, h⟩)
      · exact ⟨[], d :: s, rfl, by simp, h⟩
      · exact ⟨d :: taken, rest, rfl, List.forall_mem_cons.mpr ⟨hd, ht⟩, h⟩
    · rintro ⟨taken, rest, hs, ht, h⟩
      cases taken with
      | nil => exact .inl (hs ▸ h)
      | cons c taken =>
        obtain ⟨rfl, rfl⟩ := List.cons.inj hs
        obtain ⟨hd, ht⟩ := List.forall_mem_cons.mp ht
        exact .inr ⟨hd, taken, rest, rfl, ht, h⟩

/-- **The matcher is right.** -/
theorem isMatch_iff {items : List Item} {s : Str} : isMatch fold items s = true ↔ Matches (fold · · = true) items s := by
  induction items generalizing s with
  | nil => simp [isMatch, matches_nil_iff]
  | cons item items ih =>
    cases item with
    | one a =>
      rw [matches_one_iff]
      cases s with
      | nil => simp [isMatch]
      | cons d s => simp [isMatch, Atom.accepts_iff, ih]
    | many a => simp only [isMatch, takeMany_iff, matches_many_iff, Atom.accepts_iff, ih]

end Matcher

/-! ## Reading a pattern -/

/-- Escape every character. -/
def backslash (s : Str) : Str := s.flatMap fun c => ['\\', c]

/-- The items of a pattern whose literals all have a backslash. -/
def parse : Str → Option (List Item)
  | [] => some []
  | '.' :: '*' :: rest => (.many .dot :: ·) <$> parse rest
  | '.' :: rest => (.one .dot :: ·) <$> parse rest
  | '\\' :: c :: '*' :: rest => (.many (.literal c) :: ·) <$> parse rest
  | '\\' :: c :: rest => (.one (.literal c) :: ·) <$> parse rest
  | _ => none

/-- No item begins with a `*`. -/
theorem text_ne_star (items : List Item) (rest : Str) : items.flatMap (Item.text backslash) ≠ '*' :: rest := by
  intro h
  cases items with
  | nil => cases h
  | cons item items =>
    cases item with
    | one a => cases a <;> cases h
    | many a => cases a <;> cases h

theorem parse_text (items : List Item) : parse (items.flatMap (Item.text backslash)) = some items := by
  induction items with
  | nil => rfl
  | cons item items ih =>
    rw [List.flatMap_cons]
    cases item with
    | one a =>
      cases a with
      | dot =>
        change parse ('.' :: items.flatMap (Item.text backslash)) = _
        rw [parse, ih]
        · rfl
        · exact text_ne_star items
      | literal c =>
        change parse ('\\' :: c :: items.flatMap (Item.text backslash)) = _
        rw [parse, ih]
        · rfl
        · exact text_ne_star items
    | many a =>
      cases a with
      | dot =>
        change parse ('.' :: '*' :: items.flatMap (Item.text backslash)) = _
        rw [parse, ih]
        rfl
      | literal c =>
        change parse ('\\' :: c :: '*' :: items.flatMap (Item.text backslash)) = _
        rw [parse, ih]
        rfl

end RegexSyntax
