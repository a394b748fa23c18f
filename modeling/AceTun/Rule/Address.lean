import AceTun.RustStd.Decimal
import AceTun.Rule.Pattern

/-!
# Exact addresses and ranges of one address

An exact address and the range from an address to itself take different paths through the matcher. For IPv6 the two
agree. For IPv4 the exact path reads each octet as an integer (`matchIpv4Pattern_exact`), and the range trims its bounds
and reads them as addresses (`matchIpv4Pattern_range`). They part on the other spellings of an address: with zeros or
a plus sign before an octet, and with white space around it (`exact_eq_range_iff`).
-/

namespace AceTun

open RustStd

/-- The dotted decimal form of an address, with zeros and one plus sign allowed before each octet. -/
def SpellsIpv4 (s : Str) (ip : Ipv4Addr) : Prop :=
  ∃ b0 b1 b2 b3 p q r t, ip = .new b0 b1 b2 b3 ∧ s = p ++ '.' :: (q ++ '.' :: (r ++ '.' :: t)) ∧
    SpellsNat p b0.toNat ∧ SpellsNat q b1.toNat ∧ SpellsNat r b2.toNat ∧ SpellsNat t b3.toNat

/-- A text with white space around it. -/
def Around (s t : Str) : Prop := ∃ w w', Blank w ∧ Blank w' ∧ s = w ++ t ++ w'

/-- Another spelling of an address than its printed form. -/
def Respells (s : Str) (ip : Ipv4Addr) : Prop := s ≠ ip.toStr ∧ (SpellsIpv4 s ip ∨ Around s ip.toStr)

/-! ## The characters of an address -/

theorem mem_spellsNat {s : Str} {n : Nat} (h : SpellsNat s n) {c : Char} (hc : c ∈ s) : c.isDigit = true ∨ c = '+' := by
  obtain ⟨sign, k, hsign, rfl⟩ := h
  rcases List.mem_append.mp hc with hc | hc
  · rcases hsign with rfl | rfl
    · cases hc
    · exact Or.inr (List.mem_singleton.mp hc)
  · exact Or.inl (isDigit_of_mem_zeros hc)

theorem mem_spellsIpv4 {s : Str} {ip : Ipv4Addr} (h : SpellsIpv4 s ip) {c : Char} (hc : c ∈ s) :
    c.isDigit = true ∨ c = '+' ∨ c = '.' := by
  obtain ⟨b0, b1, b2, b3, p, q, r, t, -, rfl, hp, hq, hr, ht⟩ := h
  simp only [List.mem_append, List.mem_cons] at hc
  rcases hc with hc | rfl | hc | rfl | hc | rfl | hc
  · exact (mem_spellsNat hp hc).imp_right Or.inl
  · exact Or.inr (Or.inr rfl)
  · exact (mem_spellsNat hq hc).imp_right Or.inl
  · exact Or.inr (Or.inr rfl)
  · exact (mem_spellsNat hr hc).imp_right Or.inl
  · exact Or.inr (Or.inr rfl)
  · exact (mem_spellsNat ht hc).imp_right Or.inl

theorem spellsNat_showNat (n : Nat) : SpellsNat (showNat n) n := ⟨[], 0, Or.inl rfl, rfl⟩

theorem spellsIpv4_toStr (ip : Ipv4Addr) : SpellsIpv4 ip.toStr ip := by
  obtain ⟨a, b, c, d, rfl⟩ := ip.exists_new
  exact ⟨a, b, c, d, _, _, _, _, rfl, Ipv4Addr.toStr_new a b c d, spellsNat_showNat _, spellsNat_showNat _,
    spellsNat_showNat _, spellsNat_showNat _⟩

/-- There is no white space in an address. -/
theorem isWhitespace_spellsIpv4 {s : Str} {ip : Ipv4Addr} (h : SpellsIpv4 s ip) {c : Char} (hc : c ∈ s) :
    isWhitespace c = false := by
  rcases mem_spellsIpv4 h hc with hd | rfl | rfl
  · obtain ⟨h1, h2⟩ := isDigit_iff.mp hd
    simp only [isWhitespace, Bool.or_eq_false_iff, Bool.and_eq_false_iff, beq_eq_false_iff_ne, decide_eq_false_iff_not]
    omega
  · rfl
  · rfl

theorem trim_toStr (ip : Ipv4Addr) : trim ip.toStr = ip.toStr :=
  trim_of_no_whitespace fun _ => isWhitespace_spellsIpv4 (spellsIpv4_toStr ip)

theorem trim_eq_toStr {s : Str} {ip : Ipv4Addr} : trim s = ip.toStr ↔ Around s ip.toStr := by
  constructor
  · intro h
    obtain ⟨w, w', hw, hw', hs⟩ := exists_trim s
    exact ⟨w, w', hw, hw', h ▸ hs⟩
  · rintro ⟨w, w', hw, hw', rfl⟩
    rw [trim_append hw hw', trim_toStr]

/-! ## The two paths -/

theorem ne_star {s : Str} (h : '*' ∉ s) : (s == "*".toList) = false :=
  beq_false_of_ne fun hs => h (by rw [hs]; exact List.mem_singleton_self '*')

/-- A part without a wildcard is compared as an integer. -/
theorem part_iff {p : Str} (hstar : '*' ∉ p) (b : UInt8) :
    (p == "*".toList || parseUnsigned 8 p == some b.toNat) = true ↔ SpellsNat p b.toNat := by
  rw [ne_star hstar, Bool.false_or, beq_iff_eq, parseUnsigned_iff]
  exact and_iff_right b.toNat_lt

theorem splitOn_dots {p q r t : Str} (hp : '.' ∉ p) (hq : '.' ∉ q) (hr : '.' ∉ r) (ht : '.' ∉ t) :
    (p ++ '.' :: (q ++ '.' :: (r ++ '.' :: t))).splitOn '.' = [p, q, r, t] := by
  have h := @List.splitOn_intercalate _ [p, q, r, t] _ _ '.' (by simp [hp, hq, hr, ht]) (by simp)
  simpa [List.intercalate] using h

theorem join_dots {a p q r t : Str} (h : a.splitOn '.' = [p, q, r, t]) :
    a = p ++ '.' :: (q ++ '.' :: (r ++ '.' :: t)) := by
  have hjoin := @List.intercalate_splitOn _ a _ _ '.'
  rw [h] at hjoin
  simpa [List.intercalate] using hjoin.symm

/-- **The exact path** reads the octets as integers. -/
theorem matchIpv4Pattern_exact {a : Str} (hstar : '*' ∉ a) (hdash : '-' ∉ a) (ip : Ipv4Addr) :
    matchIpv4Pattern a ip = true ↔ SpellsIpv4 a ip := by
  unfold matchIpv4Pattern
  split
  · next hcolon =>
    refine ⟨fun h => (by cases h), fun h => ?_⟩
    rcases mem_spellsIpv4 h (List.contains_iff_mem.mp hcolon) with h | h | h <;> cases h
  · rw [splitOnce_eq_none hdash]
    dsimp only
    rw [Bool.and_eq_true, beq_iff_eq, List.length_eq_four]
    constructor
    · rintro ⟨⟨p, q, r, t, hparts⟩, h⟩
      obtain ⟨b0, b1, b2, b3, rfl⟩ := ip.exists_new
      have ha := join_dots hparts
      have hstars : '*' ∉ p ∧ '*' ∉ q ∧ '*' ∉ r ∧ '*' ∉ t := by simpa [ha] using hstar
      obtain ⟨hp, hq, hr, ht⟩ := hstars
      simp only [hparts, Ipv4Addr.new, Vector.toList_mk, List.zip_cons_cons, List.zip_nil_right, List.all_cons,
        List.all_nil, Bool.and_eq_true, Bool.and_true, part_iff hp, part_iff hq, part_iff hr, part_iff ht] at h
      exact ⟨b0, b1, b2, b3, p, q, r, t, rfl, ha, h⟩
    · rintro ⟨b0, b1, b2, b3, p, q, r, t, rfl, rfl, h⟩
      have hdot : ∀ {s n}, SpellsNat s n → '.' ∉ s := fun h hmem => by
        rcases mem_spellsNat h hmem with h | h <;> cases h
      have hstars : '*' ∉ p ∧ '*' ∉ q ∧ '*' ∉ r ∧ '*' ∉ t := by simpa using hstar
      obtain ⟨hp, hq, hr, ht⟩ := hstars
      rw [splitOn_dots (hdot h.1) (hdot h.2.1) (hdot h.2.2.1) (hdot h.2.2.2)]
      refine ⟨⟨p, q, r, t, rfl⟩, ?_⟩
      simpa only [Ipv4Addr.new, Vector.toList_mk, List.zip_cons_cons, List.zip_nil_right, List.all_cons, List.all_nil,
        Bool.and_eq_true, Bool.and_true, part_iff hp, part_iff hq, part_iff hr, part_iff ht] using h

/-- **The range** reads its bounds as addresses, after trimming. -/
theorem matchIpv4Pattern_range {a : Str} (hdash : '-' ∉ a) (ip : Ipv4Addr) :
    matchIpv4Pattern (a ++ '-' :: a) ip = true ↔ trim a = ip.toStr := by
  unfold matchIpv4Pattern
  rw [splitOnce_append hdash]
  dsimp only
  split
  · next hcolon =>
    refine ⟨fun h => (by cases h), fun h => ?_⟩
    have hmem : ':' ∈ a := by simpa using hcolon
    have hstr : ':' ∈ ip.toStr := h ▸ mem_trim (by decide) hmem
    rcases mem_spellsIpv4 (spellsIpv4_toStr ip) hstr with h | h | h <;> cases h
  · cases hparse : parseIpv4Addr (trim a) with
    | none =>
      refine ⟨fun h => (by cases h), fun h => ?_⟩
      rw [← parseIpv4Addr_iff, hparse] at h
      cases h
    | some s =>
      rw [← parseIpv4Addr_iff, hparse, Option.some.injEq, ← Ipv4Addr.toU32_inj]
      simp only [Bool.and_eq_true, decide_eq_true_eq]
      exact Nat.le_antisymm_iff.symm

/-- **For IPv6 the two paths agree.** -/
theorem matchIpv6Pattern_range {a : Str} (hstar : '*' ∉ a) (hdash : '-' ∉ a) (hslash : '/' ∉ a) (ip : Ipv6Addr) :
    matchIpv6Pattern (a ++ '-' :: a) ip = matchIpv6Pattern a ip := by
  have hcolon : (a ++ '-' :: a).contains ':' = a.contains ':' := by
    rw [Bool.eq_iff_iff]
    simp
  unfold matchIpv6Pattern
  rw [ne_star hstar, ne_star (by simpa using hstar), hcolon, splitOnce_eq_none hslash,
    splitOnce_eq_none (show '/' ∉ a ++ '-' :: a by simpa using hslash), splitOnce_eq_none hdash, splitOnce_append hdash]
  dsimp only
  cases hparse : parseIpv6Addr (trim a) with
  | none => rfl
  | some s =>
    have hbounds : (s.toU128 ≤ ip.toU128 && ip.toU128 ≤ s.toU128) = (some s == some ip) := by
      rw [Bool.eq_iff_iff, beq_iff_eq, Option.some.injEq, ← Ipv6Addr.toU128_inj]
      simp only [Bool.and_eq_true, decide_eq_true_eq]
      exact Nat.le_antisymm_iff.symm
    dsimp only
    rw [hbounds]

/-- **Exact addresses and ranges of one address agree but on the other spellings of an IPv4 address.** -/
theorem exact_eq_range_iff (a : Str) (ip : IpAddr) (hstar : '*' ∉ a) (hdash : '-' ∉ a) (hslash : '/' ∉ a) :
    matchIpPattern a ip = matchIpPattern (a ++ '-' :: a) ip ↔ ∀ v4, ip = .v4 v4 → ¬ Respells a v4 := by
  simp only [matchIpPattern, ne_star hstar, ne_star (show '*' ∉ a ++ '-' :: a by simpa using hstar)]
  cases ip with
  | v6 v6 =>
    refine iff_of_true (matchIpv6Pattern_range hstar hdash hslash v6).symm fun v4 h => ?_
    cases h
  | v4 v4 =>
    simp only [IpAddr.v4.injEq, forall_eq']
    have hexact := matchIpv4Pattern_exact hstar hdash v4
    have hrange := matchIpv4Pattern_range hdash v4
    simp only [Bool.false_eq_true, if_false]
    rw [Bool.eq_iff_iff, hexact, hrange, Respells, ← trim_eq_toStr]
    constructor
    · rintro h ⟨hne, hs | hs⟩
      · have htrim : trim a = a := trim_of_no_whitespace fun _ => isWhitespace_spellsIpv4 hs
        exact hne (htrim.symm.trans (h.mp hs))
      · have htrim : trim a = a := trim_of_no_whitespace fun _ => isWhitespace_spellsIpv4 (h.mpr hs)
        exact hne (htrim.symm.trans hs)
    · intro h
      by_cases ha : a = v4.toStr
      · rw [ha]
        exact iff_of_true (spellsIpv4_toStr v4) (trim_toStr v4)
      · exact iff_of_false (fun hs => h ⟨ha, Or.inl hs⟩) fun hs => h ⟨ha, Or.inr hs⟩

theorem exact_eq_range_printed :
    matchIpPattern "10.0.0.1".toList (.v4 (.new 10 0 0 1)) =
      matchIpPattern ("10.0.0.1".toList ++ '-' :: "10.0.0.1".toList) (.v4 (.new 10 0 0 1)) := by
  refine (exact_eq_range_iff _ _ (by decide) (by decide) (by decide)).mpr ?_
  rintro v4 ⟨⟩ ⟨hne, -⟩
  exact hne (by decide)

/-- A zero before an octet is read over by the exact path and refused by the range; white space around the address the
other way round. -/
theorem exact_ne_range_respelled :
    (matchIpPattern "010.0.0.1".toList (.v4 (.new 10 0 0 1)) = true ∧
      matchIpPattern "010.0.0.1-010.0.0.1".toList (.v4 (.new 10 0 0 1)) = false) ∧
    (matchIpPattern " 10.0.0.1".toList (.v4 (.new 10 0 0 1)) = false ∧
      matchIpPattern " 10.0.0.1- 10.0.0.1".toList (.v4 (.new 10 0 0 1)) = true) := by
  decide

end AceTun
