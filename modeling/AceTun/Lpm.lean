import Mathlib.Logic.Basic

/-!
# Longest-prefix match

A routing table maps prefixes, as lists of symbols, to next hops. `lookup` takes the longest prefix of an address that
the table has. Whether the table has one that is longer than `k` is `LongerThan`: if it has, the longest one decides
(`LongerThan.exists_longest`), and if it has not, an entry of length `k` decides (`lookup_of_not_longer`).

A table may get entries of its own beside those that it had (`Overlay`). They decide where an address goes exactly if one
of them is longer than every match from before (`Captured`).
-/

namespace Lpm

variable {α ι : Type}

/-- The match among the prefixes of at most a length. -/
def upTo (t : List α → Option ι) (addr : List α) : Nat → Option ι
  | 0 => t []
  | n + 1 => (t (addr.take (n + 1))).or (upTo t addr n)

def lookup (t : List α → Option ι) (addr : List α) : Option ι := upTo t addr addr.length

/-- The table has a match for an address that is longer than a length. -/
def LongerThan (t : List α → Option ι) (addr : List α) (k : Nat) : Prop :=
  ∃ n, k < n ∧ n ≤ addr.length ∧ (t (addr.take n)).isSome

instance (t : List α → Option ι) (addr : List α) (k : Nat) : Decidable (LongerThan t addr k) :=
  decidable_of_iff ((List.range (addr.length + 1)).any fun n => k < n && (t (addr.take n)).isSome) <| by
    rw [List.any_eq_true]
    refine exists_congr fun n => ?_
    rw [List.mem_range, Nat.lt_succ_iff, Bool.and_eq_true, decide_eq_true_iff, and_left_comm]

variable {t t' : List α → Option ι} {addr : List α} {k n : Nat}

theorem upTo_eq_of_none (hk : k ≤ n) (h : ∀ m, k < m → m ≤ n → t (addr.take m) = none) :
    upTo t addr n = upTo t addr k := by
  induction n with
  | zero => rw [Nat.le_zero.mp hk]
  | succ n ih =>
    rcases Nat.lt_or_eq_of_le hk with hlt | rfl
    · rw [upTo, h (n + 1) hlt (Nat.le_refl _), Option.none_or]
      exact ih (Nat.le_of_lt_succ hlt) fun m hm hle => h m hm (Nat.le_succ_of_le hle)
    · rfl

/-- Without a longer match, an entry decides. -/
theorem lookup_of_not_longer {i : ι} (h : ¬ LongerThan t addr k) (hk : k ≤ addr.length) (hi : t (addr.take k) = some i) :
    lookup t addr = some i := by
  have hnone : ∀ m, k < m → m ≤ addr.length → t (addr.take m) = none := fun m hm hle =>
    Option.not_isSome_iff_eq_none.mp fun hs => h ⟨m, hm, hle, hs⟩
  rw [lookup, upTo_eq_of_none hk hnone]
  cases k with
  | zero => exact hi
  | succ k => rw [upTo, hi, Option.some_or]

/-- What is found is an entry. -/
theorem exists_of_upTo {i : ι} (h : upTo t addr n = some i) : ∃ m ≤ n, t (addr.take m) = some i := by
  induction n with
  | zero => exact ⟨0, Nat.le_refl _, h⟩
  | succ n ih =>
    rcases Option.or_eq_some_iff.mp h with h | ⟨-, h⟩
    · exact ⟨n + 1, Nat.le_refl _, h⟩
    · obtain ⟨m, hm, ht⟩ := ih h
      exact ⟨m, Nat.le_succ_of_le hm, ht⟩

/-- Of the matches longer than `k`, one is the longest. -/
theorem LongerThan.exists_longest (h : LongerThan t addr k) :
    ∃ n i, k < n ∧ n ≤ addr.length ∧ t (addr.take n) = some i ∧ ¬ LongerThan t addr n := by
  induction hd : addr.length - k using Nat.strongRecOn generalizing k with
  | ind d ih =>
    obtain ⟨n, hk, hn, hs⟩ := h
    by_cases hlonger : LongerThan t addr n
    · obtain ⟨m, i, hm, h⟩ := ih (addr.length - n) (by omega) hlonger rfl
      exact ⟨m, i, Nat.lt_trans hk hm, h⟩
    · obtain ⟨i, hi⟩ := Option.isSome_iff_exists.mp hs
      exact ⟨n, i, hk, hn, hi, hlonger⟩

/-- Only the prefixes of the address matter. -/
theorem lookup_ext (h : ∀ m ≤ addr.length, t' (addr.take m) = t (addr.take m)) : lookup t' addr = lookup t addr := by
  have hupTo : ∀ n ≤ addr.length, upTo t' addr n = upTo t addr n := by
    intro n
    induction n with
    | zero => exact fun hn => h 0 hn
    | succ n ih =>
      intro hn
      rw [upTo, upTo, h (n + 1) hn, ih (Nat.le_of_succ_le hn)]
  exact hupTo _ (Nat.le_refl _)

/-! ## Entries of its own -/

/-- One of these prefixes, at least `k` long, is longer than every match of the table. -/
def Captured (own : List α → Bool) (t : List α → Option ι) (addr : List α) (k : Nat) : Prop :=
  ∃ n, k ≤ n ∧ n ≤ addr.length ∧ own (addr.take n) = true ∧ ∀ m, n ≤ m → m ≤ addr.length → t (addr.take m) = none

instance (own : List α → Bool) (t : List α → Option ι) (addr : List α) (k : Nat) : Decidable (Captured own t addr k) :=
  decidable_of_iff ((List.range (addr.length + 1)).any fun n => k ≤ n && own (addr.take n) &&
    (List.range (addr.length + 1)).all fun m => m < n || (t (addr.take m)).isNone) <| by
    simp only [List.any_eq_true, List.all_eq_true, List.mem_range, Nat.lt_succ_iff, Bool.and_eq_true, Bool.or_eq_true,
      decide_eq_true_iff, Option.isNone_iff_eq_none]
    constructor
    · rintro ⟨n, hn, ⟨hk, hown⟩, hfree⟩
      exact ⟨n, hk, hn, hown, fun m hm hle => (hfree m hle).resolve_left (Nat.not_lt.mpr hm)⟩
    · rintro ⟨n, hk, hn, hown, hfree⟩
      exact ⟨n, hn, ⟨hk, hown⟩, fun m hle => (Nat.lt_or_ge m n).imp_right fun hm => hfree m hm hle⟩

/-- Beyond the length `k`, `t'` is `t` with entries of its own, which lead to `i`. -/
structure Overlay (own : List α → Bool) (i : ι) (t t' : List α → Option ι) (addr : List α) (k : Nat) : Prop where
  added : ∀ m, k ≤ m → m ≤ addr.length → own (addr.take m) = true → t' (addr.take m) = (t (addr.take m)).or (some i)
  rest : ∀ m, k < m → m ≤ addr.length → own (addr.take m) = false → t' (addr.take m) = t (addr.take m)

namespace Overlay

variable {own : List α → Bool} {i : ι}

theorem lookup_of_captured (h : Overlay own i t t' addr k) (hc : Captured own t addr k) : lookup t' addr = some i := by
  obtain ⟨n, hk, hn, hown, hfree⟩ := hc
  by_cases hlonger : LongerThan t' addr n
  · -- the longest match is one of its own
    obtain ⟨m, j, hm, hle, hj, hlongest⟩ := hlonger.exists_longest
    cases hom : own (addr.take m) with
    | true =>
      refine lookup_of_not_longer hlongest hle ?_
      rw [h.added m (by omega) hle hom, hfree m (by omega) hle, Option.none_or]
    | false =>
      rw [h.rest m (by omega) hle hom, hfree m (by omega) hle] at hj
      cases hj
  · refine lookup_of_not_longer hlonger hn ?_
    rw [h.added n hk hn hown, hfree n (Nat.le_refl _) hn, Option.none_or]

/-- An entry of its own is no longer than a match, if none captures the address. -/
theorem longerThan_of_own (hc : ¬ Captured own t addr k) {m : Nat} (hk : k ≤ m) (hm : m ≤ addr.length)
    (hown : own (addr.take m) = true) : ∃ n, m ≤ n ∧ n ≤ addr.length ∧ (t (addr.take n)).isSome := by
  refine Classical.byContradiction fun hnone => hc ⟨m, hk, hm, hown, fun n hle hn => ?_⟩
  exact Option.not_isSome_iff_eq_none.mp fun hs => hnone ⟨n, hle, hn, hs⟩

theorem not_longerThan (h : Overlay own i t t' addr k) (hc : ¬ Captured own t addr k) {n : Nat} (hk : k ≤ n)
    (hn : ¬ LongerThan t addr n) : ¬ LongerThan t' addr n := by
  rintro ⟨m, hm, hle, hs⟩
  cases hown : own (addr.take m) with
  | true =>
    obtain ⟨l, hl, hlen, hs'⟩ := longerThan_of_own hc (by omega) hle hown
    exact hn ⟨l, by omega, hlen, hs'⟩
  | false =>
    rw [h.rest m (by omega) hle hown] at hs
    exact hn ⟨m, hm, hle, hs⟩

theorem lookup_of_not_captured (h : Overlay own i t t' addr k) (hc : ¬ Captured own t addr k)
    (hl : LongerThan t addr k) : lookup t' addr = lookup t addr := by
  obtain ⟨n, j, hk, hn, hj, hlongest⟩ := hl.exists_longest
  have hj' : t' (addr.take n) = some j := by
    cases hown : own (addr.take n) with
    | true => rw [h.added n (Nat.le_of_lt hk) hn hown, hj, Option.some_or]
    | false => rw [h.rest n hk hn hown, hj]
  rw [lookup_of_not_longer hlongest hn hj,
    lookup_of_not_longer (h.not_longerThan hc (Nat.le_of_lt hk) hlongest) hn hj']

end Overlay

/-- **Where an address goes** in a table with entries of its own beside all others. -/
theorem lookup_overlay {own : List α → Bool} {i : ι}
    (hadded : ∀ m ≤ addr.length, own (addr.take m) = true → t' (addr.take m) = (t (addr.take m)).or (some i))
    (hrest : ∀ m ≤ addr.length, own (addr.take m) = false → t' (addr.take m) = t (addr.take m)) :
    lookup t' addr = if Captured own t addr 0 then some i else lookup t addr := by
  have h : Overlay own i t t' addr 0 := ⟨fun m _ => hadded m, fun m _ => hrest m⟩
  split
  · next hc => exact h.lookup_of_captured hc
  · next hc =>
    by_cases hl : LongerThan t addr 0
    · exact h.lookup_of_not_captured hc hl
    · -- an entry of its own can only be where the table has its only match
      refine lookup_ext fun m hm => ?_
      cases hown : own (addr.take m) with
      | false => exact hrest m hm hown
      | true =>
        obtain ⟨n, hmn, hn, hs⟩ := Overlay.longerThan_of_own hc (Nat.zero_le m) hm hown
        obtain rfl : n = 0 := Nat.eq_zero_of_not_pos fun hpos => hl ⟨n, hpos, hn, hs⟩
        obtain rfl : m = 0 := Nat.le_zero.mp hmn
        obtain ⟨j, hj⟩ := Option.isSome_iff_exists.mp hs
        rw [hadded 0 hm hown, hj, Option.some_or]

end Lpm
