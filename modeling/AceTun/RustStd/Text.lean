import Mathlib.Algebra.Group.Nat.Defs
import Mathlib.Data.List.TakeWhile
import AceTun.RustStd.Utf8

/-!
# The string methods of the standard library

The `str` methods the program calls, on `Str`: trimming and splitting (`trim`, `splitWhitespace`, `lines`,
`splitOnce`; `str::split` is `List.splitOnP`), ASCII case folding, and the parser and printer of unsigned integers.
-/

namespace RustStd

/-! ## Characters -/

/-- `char::is_whitespace`: the Unicode property `White_Space`. -/
def isWhitespace (c : Char) : Bool :=
  let n := c.toNat
  (9 ≤ n && n ≤ 13) || n == 0x20 || n == 0x85 || n == 0xA0 || n == 0x1680 || (0x2000 ≤ n && n ≤ 0x200A) ||
    n == 0x2028 || n == 0x2029 || n == 0x202F || n == 0x205F || n == 0x3000

/-- `char::to_digit`, for a radix of at most 16. -/
def toDigit (radix : Nat) (c : Char) : Option Nat :=
  let n := c.toNat
  let d? :=
    if 48 ≤ n ∧ n ≤ 57 then some (n - 48)
    else if 97 ≤ n ∧ n ≤ 102 then some (n - 87)
    else if 65 ≤ n ∧ n ≤ 70 then some (n - 55)
    else none
  d?.filter (· < radix)

/-! ## Trimming and splitting -/

/-- `str::trim_start`. -/
def trimStart (s : Str) : Str := s.dropWhile isWhitespace

/-- `str::trim`. -/
def trim (s : Str) : Str := (trimStart (trimStart s).reverse).reverse

/-- `str::split_whitespace`. -/
def splitWhitespace (s : Str) : List Str := (s.splitOnP isWhitespace).filter (· ≠ [])

/-- `str::split_inclusive`: every piece keeps the character it was cut after. -/
def splitInclusive (p : Char → Bool) : Str → List Str
  | [] => []
  | c :: cs =>
    if p c then [c] :: splitInclusive p cs
    else
      match splitInclusive p cs with
      | [] => [[c]]
      | w :: ws => (c :: w) :: ws

/-- `str::strip_suffix` for one character. -/
def stripSuffix (c : Char) (s : Str) : Option Str :=
  if s.getLast? = some c then some s.dropLast else none

/-- `str::strip_prefix`. -/
def stripPrefix (pre s : Str) : Option Str := if pre.isPrefixOf s then some (s.drop pre.length) else none

/-- A line without its end: the `\n`, and a `\r` right before it. -/
def stripLineEnd (piece : Str) : Str :=
  match stripSuffix '\n' piece with
  | none => piece
  | some line => (stripSuffix '\r' line).getD line

/-- `str::lines`. -/
def lines (s : Str) : List Str := (splitInclusive (· == '\n') s).map stripLineEnd

theorem splitInclusive_append {p : Char → Bool} {s : Str} (hs : ∀ c ∈ s, p c = false) {c : Char} (hc : p c = true)
    (t : Str) : splitInclusive p (s ++ c :: t) = (s ++ [c]) :: splitInclusive p t := by
  induction s with
  | nil => rw [List.nil_append, splitInclusive, if_pos hc]; rfl
  | cons d s ih =>
    have hd : ¬ p d = true := by rw [hs d List.mem_cons_self]; exact Bool.false_ne_true
    rw [List.cons_append, splitInclusive, if_neg hd, ih fun e he => hs e (List.mem_cons_of_mem d he)]
    rfl

theorem stripSuffix_append (c : Char) (s : Str) : stripSuffix c (s ++ [c]) = some s := by
  simp [stripSuffix]

/-- A text up to its first line break is its first line. -/
theorem lines_crlf {s : Str} (hs : '\n' ∉ s) (t : Str) : lines (s ++ '\r' :: '\n' :: t) = s :: lines t := by
  have hpiece : s ++ '\r' :: '\n' :: t = (s ++ ['\r']) ++ '\n' :: t := by simp
  have hno : ∀ c ∈ s ++ ['\r'], (c == '\n') = false := by
    intro c hc
    rw [beq_eq_false_iff_ne]
    rintro rfl
    rcases List.mem_append.mp hc with hc | hc
    · exact hs hc
    · exact absurd hc (by decide)
  rw [lines, hpiece, splitInclusive_append hno rfl, List.map_cons, stripLineEnd, stripSuffix_append]
  dsimp only
  rw [stripSuffix_append]
  rfl

/-- `str::split_once` at a character. -/
def splitOnce (sep : Char) : Str → Option (Str × Str)
  | [] => none
  | c :: cs => if c = sep then some ([], cs) else (splitOnce sep cs).map (fun p => (c :: p.1, p.2))

/-- `str::starts_with`. -/
def startsWith (pre s : Str) : Bool := pre.isPrefixOf s

theorem splitOnce_eq_none {sep : Char} {s : Str} (h : sep ∉ s) : splitOnce sep s = none := by
  induction s with
  | nil => rfl
  | cons c s ih =>
    obtain ⟨hne, hs⟩ := not_or.mp (mt List.mem_cons.mpr h)
    rw [splitOnce, if_neg (Ne.symm hne), ih hs]
    rfl

theorem splitOnce_append {sep : Char} {s : Str} (h : sep ∉ s) (t : Str) :
    splitOnce sep (s ++ sep :: t) = some (s, t) := by
  induction s with
  | nil => rw [List.nil_append, splitOnce, if_pos rfl]
  | cons c s ih =>
    obtain ⟨hne, hs⟩ := not_or.mp (mt List.mem_cons.mpr h)
    rw [List.cons_append, splitOnce, if_neg (Ne.symm hne), ih hs]
    rfl

/-! ## ASCII case -/

/-- `str::to_ascii_lowercase`. -/
def toAsciiLowercase (s : Str) : Str := s.map Char.toLower

/-- `str::eq_ignore_ascii_case`. -/
def eqIgnoreAsciiCase (s t : Str) : Bool := toAsciiLowercase s == toAsciiLowercase t

/-! ## Integers -/

/-- The value of a string of digits. -/
def digitsValue (radix : Nat) (s : Str) : Nat :=
  s.foldl (fun n c => radix * n + (toDigit radix c).getD 0) 0

/-- `str::parse` at an unsigned type of `w` bits: an optional `+`, then at least one digit, leading zeros allowed. -/
def parseUnsigned (w : Nat) (s : Str) : Option Nat :=
  let digits := match s with
    | '+' :: rest => rest
    | _ => s
  if digits ≠ [] ∧ digits.all (fun c => (toDigit 10 c).isSome) ∧ digitsValue 10 digits < 2 ^ w then
    some (digitsValue 10 digits)
  else none

/-- `to_string` of an unsigned integer. -/
def showNat (n : Nat) : Str := Nat.toDigits 10 n

/-- Pieces joined by a character: each but the first has it before it. -/
theorem intercalate_singleton_cons (sep : Char) (l : Str) (ls : List Str) :
    [sep].intercalate (l :: ls) = l ++ ls.flatMap (sep :: ·) := by
  induction ls generalizing l with
  | nil => simp
  | cons l' ls ih =>
    rw [List.intercalate_cons_cons, ih, List.flatMap_cons]
    simp

/-! ## What trimming leaves -/

/-- There is nothing but white space. -/
def Blank (s : Str) : Prop := ∀ c ∈ s, isWhitespace c = true

theorem trimStart_append {w : Str} (hw : Blank w) (s : Str) : trimStart (w ++ s) = trimStart s := by
  rw [trimStart, List.dropWhile_append_of_pos hw]
  rfl

theorem exists_trimStart (s : Str) : ∃ w, Blank w ∧ s = w ++ trimStart s :=
  ⟨s.takeWhile isWhitespace, fun _ hc => List.mem_takeWhile_imp hc, List.takeWhile_append_dropWhile.symm⟩

/-- A text is its trimmed part with white space around it. -/
theorem exists_trim (s : Str) : ∃ w w', Blank w ∧ Blank w' ∧ s = w ++ trim s ++ w' := by
  obtain ⟨w, hw, hs⟩ := exists_trimStart s
  obtain ⟨w', hw', hs'⟩ := exists_trimStart (trimStart s).reverse
  refine ⟨w, w'.reverse, hw, fun c hc => hw' c (List.mem_reverse.mp hc), ?_⟩
  have htail : trimStart s = trim s ++ w'.reverse := by
    rw [trim, ← List.reverse_append, ← hs', List.reverse_reverse]
  rw [List.append_assoc, ← htail]
  exact hs

/-- White space around a text does not matter. -/
theorem trim_append {w w' : Str} (hw : Blank w) (hw' : Blank w') (s : Str) : trim (w ++ s ++ w') = trim s := by
  have hend : ∀ t, trimStart (t ++ w').reverse = trimStart t.reverse := by
    intro t
    rw [List.reverse_append, trimStart_append fun c hc => hw' c (List.mem_reverse.mp hc)]
  unfold trim
  rw [List.append_assoc, trimStart_append hw]
  by_cases hs : trimStart s = []
  · obtain ⟨v, hv, hsv⟩ := exists_trimStart s
    rw [hs, List.append_nil] at hsv
    have hnil : trimStart w' = [] := List.dropWhile_eq_nil_iff.mpr hw'
    rw [hsv, trimStart_append hv, hnil, ← hsv, hs]
  · have hkeep : trimStart (s ++ w') = trimStart s ++ w' := by
      unfold trimStart at hs ⊢
      rw [List.dropWhile_append, if_neg (by simpa using hs)]
    rw [hkeep, hend]

theorem trim_trim (s : Str) : trim (trim s) = trim s := by
  obtain ⟨w, w', hw, hw', hs⟩ := exists_trim s
  have h := trim_append hw hw' (trim s)
  rw [← hs] at h
  exact h.symm

/-- A text that was trimmed does not begin with white space. -/
theorem isWhitespace_head {c : Char} {s : Str} (h : trim (c :: s) = c :: s) : isWhitespace c = false := by
  by_contra hc
  rw [Bool.not_eq_false] at hc
  have hs : trim (c :: s) = trim s := by
    have := @trim_append [c] [] (by simpa [Blank] using hc) (by simp [Blank]) s
    simpa using this
  obtain ⟨w, w', -, -, hw⟩ := exists_trim s
  have hlen := congrArg List.length hw
  have hlen' := congrArg List.length (hs.symm.trans h)
  simp only [List.length_append, List.length_cons] at hlen hlen'
  omega

/-- A text that neither begins nor ends with white space is trimmed. -/
theorem trim_eq_self {a b : Char} {s t : Str} (ha : isWhitespace a = false) (hb : isWhitespace b = false)
    (h : a :: s = t ++ [b]) : trim (a :: s) = a :: s := by
  have hstart : trimStart (a :: s) = a :: s := List.dropWhile_cons_of_neg (by simp [ha])
  rw [trim, hstart, h, List.reverse_append, List.reverse_singleton, List.singleton_append, trimStart,
    List.dropWhile_cons_of_neg (by simp [hb])]
  simp

theorem not_mem_of_blank {w : Str} (hw : Blank w) {c : Char} (hc : isWhitespace c = false) : c ∉ w := by
  intro h
  have hblank := hw c h
  rw [hc] at hblank
  cases hblank

/-- Trimming takes white space only. -/
theorem mem_trim {s : Str} {c : Char} (hc : isWhitespace c = false) (h : c ∈ s) : c ∈ trim s := by
  obtain ⟨w, w', hw, hw', hs⟩ := exists_trim s
  rw [hs, List.mem_append, List.mem_append] at h
  rcases h with (h | h) | h
  · exact absurd h (not_mem_of_blank hw hc)
  · exact h
  · exact absurd h (not_mem_of_blank hw' hc)

theorem trim_of_no_whitespace {s : Str} (h : ∀ c ∈ s, isWhitespace c = false) : trim s = s := by
  obtain ⟨w, w', hw, hw', hs⟩ := exists_trim s
  have hnil : ∀ {v}, Blank v → (∀ c ∈ v, c ∈ s) → v = [] := fun hv hmem =>
    List.eq_nil_iff_forall_not_mem.mpr fun c hc => not_mem_of_blank hv (h c (hmem c hc)) hc
  have h1 := hnil hw fun c hc => by rw [hs]; simp [hc]
  have h2 := hnil hw' fun c hc => by rw [hs]; simp [hc]
  rw [h1, h2, List.nil_append, List.append_nil] at hs
  exact hs.symm

theorem isDigit_of_mem_showNat {n : Nat} {c : Char} (h : c ∈ showNat n) : c.isDigit = true :=
  Nat.isDigit_of_mem_toDigits (by decide) (by decide) h

example : lines "a\r\nb\rc\n".toList = ["a".toList, "b\rc".toList] := by decide
example : parseUnsigned 8 "+007".toList = some 7 ∧ parseUnsigned 8 "256".toList = none := by decide

end RustStd
