import AceTun.Rule.Pattern

/-!
# Tokens

Where the tokens of a list stand in its text: between separators, with white space around them that is not part of them
(`exists_token`). Replacing one token by another replaces it among the tokens (`splitList_around`). A list that is read
as everything has no token but `*` or the keyword `ANY` (`splitList_of_isMatchAll`).
-/

namespace AceTun

open RustStd

/-! ## Tokens and the text around them -/

def isSeparator (c : Char) : Bool := c == ';' || c == ','

/-- A text that is one token. -/
structure IsToken (t : Str) : Prop where
  nonempty : t ≠ []
  trimmed : trim t = t
  whole : ∀ c ∈ t, isSeparator c = false

theorem splitList_nil : splitList [] = [] := by decide

theorem splitList_append (x y : Str) {c : Char} (hc : isSeparator c = true) :
    splitList (x ++ c :: y) = splitList x ++ splitList y := by
  have hsplit := List.splitOnP_append_cons x y hc
  unfold isSeparator at hsplit
  simp only [splitList, hsplit, List.map_append, List.filter_append]

theorem splitList_piece {piece : Str} (h : ∀ c ∈ piece, isSeparator c = false) :
    splitList piece = if trim piece = [] then [] else [trim piece] := by
  have hsplit := List.splitOnP_eq_singleton h
  unfold isSeparator at hsplit
  simp only [splitList, hsplit, List.map_cons, List.map_nil, List.filter_cons, List.filter_nil]
  cases trim piece <;> simp

theorem blank_whole {w : Str} (h : Blank w) : ∀ c ∈ w, isSeparator c = false := by
  intro c hc
  by_contra hsep
  rw [Bool.not_eq_false, isSeparator, Bool.or_eq_true, beq_iff_eq, beq_iff_eq] at hsep
  have hw := h c hc
  rcases hsep with rfl | rfl
  · exact absurd hw (by decide)
  · exact absurd hw (by decide)

theorem whole_append {x y : Str} (hx : ∀ c ∈ x, isSeparator c = false) (hy : ∀ c ∈ y, isSeparator c = false) :
    ∀ c ∈ x ++ y, isSeparator c = false :=
  fun c hc => (List.mem_append.mp hc).elim (hx c) (hy c)

/-- White space around a token is not part of it. -/
theorem IsToken.splitList {t w w' : Str} (h : IsToken t) (hw : Blank w) (hw' : Blank w') :
    splitList (w ++ t ++ w') = [t] := by
  have hwhole := whole_append (whole_append (blank_whole hw) h.whole) (blank_whole hw')
  rw [splitList_piece hwhole, trim_append hw hw', h.trimmed,
    if_neg h.nonempty]

/-- A token may begin after this text. -/
def OpensToken (before : Str) : Prop :=
  ∃ front w, before = front ++ w ∧ Blank w ∧ (front = [] ∨ ∃ x c, isSeparator c = true ∧ front = x ++ [c])

/-- A token may end before this text. -/
def ClosesToken (after : Str) : Prop :=
  ∃ w back, after = w ++ back ∧ Blank w ∧ (back = [] ∨ ∃ c y, isSeparator c = true ∧ back = c :: y)

/-- The tokens of a list, around one of them. -/
theorem splitList_around {before after : Str} (hb : OpensToken before) (ha : ClosesToken after) :
    ∃ pre post, ∀ t, IsToken t → splitList (before ++ t ++ after) = pre ++ t :: post := by
  obtain ⟨front, w, rfl, hw, hfront⟩ := hb
  obtain ⟨w', back, rfl, hw', hback⟩ := ha
  refine ⟨splitList front, splitList back, fun t ht => ?_⟩
  have hmid := ht.splitList hw hw'
  have hend : splitList (w ++ t ++ w' ++ back) = t :: splitList back := by
    rcases hback with rfl | ⟨c, y, hc, rfl⟩
    · rw [List.append_nil, hmid, splitList_nil]
    · rw [splitList_append _ _ hc, hmid, ← List.nil_append (c :: y), splitList_append _ _ hc, splitList_nil]
      rfl
  have hassoc : front ++ w ++ t ++ (w' ++ back) = front ++ (w ++ t ++ w' ++ back) := by
    simp only [List.append_assoc]
  rw [hassoc]
  rcases hfront with rfl | ⟨x, c, hc, rfl⟩
  · exact hend
  · rw [List.append_assoc, List.singleton_append, splitList_append _ _ hc, hend, splitList_append _ _ hc, splitList_nil,
      List.append_nil]

/-- A list is cut at its first separator. -/
theorem exists_piece (list : Str) : ∃ piece rest, list = piece ++ rest ∧ (∀ c ∈ piece, isSeparator c = false) ∧
    (rest = [] ∨ ∃ c y, isSeparator c = true ∧ rest = c :: y) := by
  refine ⟨list.takeWhile (! isSeparator ·), list.dropWhile (! isSeparator ·), List.takeWhile_append_dropWhile.symm,
    fun c hc => ?_, ?_⟩
  · simpa using List.mem_takeWhile_imp hc
  · cases hd : list.dropWhile (! isSeparator ·) with
    | nil => exact .inl rfl
    | cons c y =>
      have hhead := List.head?_dropWhile_not (! isSeparator ·) list
      rw [hd] at hhead
      exact .inr ⟨c, y, by simpa using hhead, rfl⟩

/-- The token of a piece has only white space around it there. -/
theorem exists_token_piece {piece t : Str} (hwhole : ∀ c ∈ piece, isSeparator c = false) (h : t ∈ splitList piece) :
    IsToken t ∧ ∃ w w', Blank w ∧ Blank w' ∧ piece = w ++ t ++ w' := by
  rw [splitList_piece hwhole] at h
  split at h
  · cases h
  · next hne =>
    rw [List.mem_singleton.mp h]
    obtain ⟨w, w', hw, hw', hp⟩ := exists_trim piece
    refine ⟨⟨hne, trim_trim piece, fun c hc => hwhole c ?_⟩, w, w', hw, hw', hp⟩
    rw [hp]
    simp [hc]

/-- **Every token of a list stands somewhere in it**, between separators and white space. -/
theorem exists_token {list t : Str} (h : t ∈ splitList list) :
    IsToken t ∧ ∃ before after, list = before ++ t ++ after ∧ OpensToken before ∧ ClosesToken after := by
  -- cut at the first separator: the token is in the piece before it or in the rest
  induction hn : list.length using Nat.strong_induction_on generalizing list with
  | _ n ih =>
    obtain ⟨piece, rest, rfl, hwhole, hrest⟩ := exists_piece list
    have hpiece : t ∈ splitList piece → IsToken t ∧ ∃ before after, piece ++ rest = before ++ t ++ after ∧
        OpensToken before ∧ ClosesToken after := by
      intro ht
      obtain ⟨htoken, w, w', hw, hw', hp⟩ := exists_token_piece hwhole ht
      refine ⟨htoken, w, w' ++ rest, ?_, ⟨[], w, rfl, hw, .inl rfl⟩, ⟨w', rest, rfl, hw', hrest⟩⟩
      rw [← List.append_assoc, ← hp]
    rcases hrest with rfl | ⟨c, y, hc, rfl⟩
    · exact hpiece (by simpa using h)
    · rw [splitList_append _ _ hc, List.mem_append] at h
      rcases h with h | h
      · exact hpiece h
      · obtain ⟨ht, before, after, rfl, ⟨front, w, rfl, hw, hfront⟩, ha⟩ := ih y.length (by simp [← hn]; omega) h rfl
        refine ⟨ht, piece ++ c :: (front ++ w), after, by simp, ⟨piece ++ c :: front, w, by simp, hw, .inr ?_⟩, ha⟩
        rcases hfront with rfl | ⟨x, c', hc', rfl⟩
        · exact ⟨piece, c, hc, rfl⟩
        · exact ⟨piece ++ c :: x, c', hc', by simp⟩

/-! ## Lists that are read as everything -/

section MatchAll

variable {list : Str}

theorem not_mem_of_any {t : Str} (h : eqIgnoreAsciiCase t "ANY".toList = true) {c : Char}
    (hc : c.toLower ∉ "any".toList) : c ∉ t := by
  have hlower : t.map Char.toLower = "any".toList := by simpa [eqIgnoreAsciiCase, toAsciiLowercase] using h
  intro hm
  exact hc (hlower ▸ List.mem_map_of_mem hm)

/-- The tokens of a list that is read as everything. -/
theorem splitList_of_isMatchAll (h : isMatchAll list = true) :
    ∀ t ∈ splitList list, t = "*".toList ∨ eqIgnoreAsciiCase t "ANY".toList = true := by
  obtain ⟨w, w', hw, hw', hlist⟩ := exists_trim list
  rw [isMatchAll, Bool.or_eq_true, Bool.or_eq_true, beq_iff_eq] at h
  have hwhole : ∀ c ∈ trim list, isSeparator c = false := by
    intro c hc
    rcases h with (h | h) | h
    · rw [List.isEmpty_iff.mp h] at hc
      cases hc
    · rw [h] at hc
      rw [List.mem_singleton.mp hc]
      decide
    · by_contra hsep
      rw [Bool.not_eq_false, isSeparator, Bool.or_eq_true, beq_iff_eq, beq_iff_eq] at hsep
      rcases hsep with rfl | rfl
      · exact not_mem_of_any h (by decide) hc
      · exact not_mem_of_any h (by decide) hc
  have hall : ∀ c ∈ list, isSeparator c = false := by
    rw [hlist]
    exact whole_append (whole_append (blank_whole hw) hwhole) (blank_whole hw')
  intro t ht
  rw [splitList_piece hall] at ht
  split at ht
  · cases ht
  · next hne =>
    rw [List.mem_singleton.mp ht]
    rcases h with (h | h) | h
    · exact absurd (List.isEmpty_iff.mp h) hne
    · exact .inl h
    · exact .inr h

/-- The keyword is not an address. -/
theorem matchIpPattern_any {t : Str} (h : eqIgnoreAsciiCase t "ANY".toList = true) (ip : Ipv4Addr) :
    matchIpPattern t (.v4 ip) = false := by
  have hstar : (t == "*".toList) = false := by
    rw [beq_eq_false_iff_ne]
    rintro rfl
    exact absurd h (by decide)
  have hdot : t.splitOn '.' = [t] := List.splitOnP_eq_singleton fun c hc => by
    rw [beq_eq_false_iff_ne]
    rintro rfl
    exact not_mem_of_any h (by decide) hc
  simp only [matchIpPattern, hstar, matchIpv4Pattern, splitOnce_eq_none (not_mem_of_any h (c := '-') (by decide)), hdot]
  simp

theorem splitList_of_trim {list : Str} (h : trim list = []) : splitList list = [] := by
  obtain ⟨w, w', hw, hw', hlist⟩ := exists_trim list
  have hwhole : ∀ c ∈ list, isSeparator c = false := by
    rw [hlist, h, List.append_nil]
    exact whole_append (blank_whole hw) (blank_whole hw')
  rw [splitList_piece hwhole, if_pos h]

end MatchAll

end AceTun
