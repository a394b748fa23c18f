import AceTun.Transition
import Mathlib.Data.List.Infix

/-!
# Dialogues

Two parties talk over two lossless channels. A party is what it has said by what it has heard so far, and hearing more
it takes nothing back (`Party`). What is said arrives in order and in pieces of any size, at any time (`step`). So the
parties only ever come closer to a talk in which everything said is heard (`Talk.Final`): if one order of deliveries ends
in such a talk, every order can be continued to it and none ends elsewhere (`settles`). It is enough to follow one
order, and whole messages (`Held.answer`).
-/

namespace Dialogue

open Transition

variable {α : Type}

/-- A party, by what it has said once it has heard something. -/
structure Party (α : Type) where
  said : List α → List α
  mono : ∀ {heard more : List α}, heard <+: more → said heard <+: said more

/-- What each party has heard. -/
structure Talk (α : Type) where
  left : List α
  right : List α

/-- Nothing is heard yet. -/
def Talk.start : Talk α := ⟨[], []⟩

/-- How much is heard. -/
def Talk.size (t : Talk α) : Nat := t.left.length + t.right.length

/-- A party has now heard the first `n` letters said to it. -/
inductive Delivery where
  | toLeft (n : Nat)
  | toRight (n : Nat)

variable (a b : Party α)

def step (t : Talk α) : Delivery → Option (Talk α)
  | .toLeft n =>
    if t.left.length < n ∧ n ≤ (b.said t.right).length then some { t with left := (b.said t.right).take n } else none
  | .toRight n =>
    if t.right.length < n ∧ n ≤ (a.said t.left).length then some { t with right := (a.said t.left).take n } else none

/-- The talks that some order of deliveries leads to. -/
def Held (t : Talk α) : Prop := ∃ ds, exec (step a b) .start ds = some t

/-- Everything said is heard. -/
structure Talk.Final (t : Talk α) : Prop where
  left : b.said t.right = t.left
  right : a.said t.left = t.right

/-- What is heard was said. -/
structure Talk.Sound (t : Talk α) : Prop where
  left : t.left <+: b.said t.right
  right : t.right <+: a.said t.left

/-- In the second talk as much is heard as in the first. -/
structure Talk.Before (t u : Talk α) : Prop where
  left : t.left <+: u.left
  right : t.right <+: u.right

variable {a b} {t u : Talk α} {d : Delivery} {ds : List Delivery}

/-- What a delivery does. -/
theorem step_cases (h : step a b t d = some u) :
    (∃ n, d = .toLeft n ∧ t.left.length < n ∧ n ≤ (b.said t.right).length ∧
      u = { t with left := (b.said t.right).take n }) ∨
    ∃ n, d = .toRight n ∧ t.right.length < n ∧ n ≤ (a.said t.left).length ∧
      u = { t with right := (a.said t.left).take n } := by
  cases d with
  | toLeft n =>
    rw [step, Option.ite_none_right_eq_some, Option.some.injEq] at h
    exact .inl ⟨n, rfl, h.1.1, h.1.2, h.2.symm⟩
  | toRight n =>
    rw [step, Option.ite_none_right_eq_some, Option.some.injEq] at h
    exact .inr ⟨n, rfl, h.1.1, h.1.2, h.2.symm⟩

/-- A longer front part goes on from a shorter one. -/
theorem isPrefix_take {xs ys : List α} {n : Nat} (h : xs <+: ys) (hn : xs.length ≤ n) : xs <+: ys.take n :=
  List.prefix_take_iff.mpr ⟨h, hn⟩

theorem sound_step (hs : t.Sound a b) (h : step a b t d = some u) : u.Sound a b := by
  obtain ⟨n, -, hlt, -, rfl⟩ | ⟨n, -, hlt, -, rfl⟩ := step_cases h
  · have hmore : t.left <+: (b.said t.right).take n := isPrefix_take hs.left hlt.le
    exact ⟨List.take_prefix n _, hs.right.trans (a.mono hmore)⟩
  · have hmore : t.right <+: (a.said t.left).take n := isPrefix_take hs.right hlt.le
    exact ⟨hs.left.trans (b.mono hmore), List.take_prefix n _⟩

/-- No delivery goes past a talk in which everything is heard. -/
theorem before_step {f : Talk α} (hf : f.Final a b) (hb : t.Before f) (h : step a b t d = some u) : u.Before f := by
  obtain ⟨n, -, -, -, rfl⟩ | ⟨n, -, -, -, rfl⟩ := step_cases h
  · exact ⟨(List.take_prefix n _).trans (hf.left ▸ b.mono hb.right), hb.right⟩
  · exact ⟨hb.left, (List.take_prefix n _).trans (hf.right ▸ a.mono hb.left)⟩

theorem size_step (h : step a b t d = some u) : t.size < u.size := by
  obtain ⟨n, -, hlt, hle, rfl⟩ | ⟨n, -, hlt, hle, rfl⟩ := step_cases h
  · simp only [Talk.size, List.length_take]
    omega
  · simp only [Talk.size, List.length_take]
    omega

theorem Held.sound (h : Held a b t) : t.Sound a b := by
  obtain ⟨ds, h⟩ := h
  exact exec_invariant (fun _ _ _ hs h => sound_step hs h) ⟨List.nil_prefix, List.nil_prefix⟩ h

theorem Held.before {f : Talk α} (h : Held a b t) (hf : f.Final a b) : t.Before f := by
  obtain ⟨ds, h⟩ := h
  exact exec_invariant (I := fun t => t.Before f) (fun _ _ _ hb h => before_step hf hb h)
    ⟨List.nil_prefix, List.nil_prefix⟩ h

theorem Held.step (h : Held a b t) (hstep : step a b t d = some u) : Held a b u := by
  obtain ⟨ds, h⟩ := h
  exact ⟨ds ++ [d], exec_append h (by rw [exec, hstep]; rfl)⟩

/-- Each party hears all that the other has said by now, the right one first. -/
theorem Held.answer (h : Held a b t) {l r : List α} (hr : a.said t.left = r) (hl : b.said r = l) : Held a b ⟨l, r⟩ := by
  have hright : Held a b { t with right := r } := by
    have hs := h.sound.right
    rw [hr] at hs
    rcases hs.length_le.eq_or_lt with he | hlt
    · rw [← hs.eq_of_length he]
      exact h
    · refine h.step (d := .toRight r.length) ?_
      rw [Dialogue.step, hr, if_pos ⟨hlt, le_rfl⟩, List.take_length]
  have hs := hright.sound.left
  rw [hl] at hs
  rcases hs.length_le.eq_or_lt with he | hlt
  · have heq : t.left = l := hs.eq_of_length he
    rw [← heq]
    exact hright
  · refine hright.step (d := .toLeft l.length) ?_
    rw [Dialogue.step, hl, if_pos ⟨hlt, le_rfl⟩, List.take_length]

/-- A talk is final unless something can be delivered. -/
theorem final_of_stuck (hs : t.Sound a b) (h : ∀ d, step a b t d = none) : t.Final a b := by
  refine ⟨by_contra fun hne => ?_, by_contra fun hne => ?_⟩
  · have hlt := hs.left.length_le.lt_of_ne fun he => hne (hs.left.eq_of_length he).symm
    have hstep := h (.toLeft (b.said t.right).length)
    rw [step, if_pos ⟨hlt, le_rfl⟩] at hstep
    cases hstep
  · have hlt := hs.right.length_le.lt_of_ne fun he => hne (hs.right.eq_of_length he).symm
    have hstep := h (.toRight (a.said t.left).length)
    rw [step, if_pos ⟨hlt, le_rfl⟩] at hstep
    cases hstep

theorem Talk.Before.antisymm (h : t.Before u) (h' : u.Before t) : t = u := by
  obtain ⟨l, r⟩ := t
  obtain ⟨l', r'⟩ := u
  obtain rfl : l = l' := h.left.eq_of_length_le h'.left.length_le
  obtain rfl : r = r' := h.right.eq_of_length_le h'.right.length_le
  rfl

/-- Parties that can be held to a final talk can be held to no other. -/
theorem Held.eq_of_final (ht : Held a b t) (hu : Held a b u) (hft : t.Final a b) (hfu : u.Final a b) : t = u :=
  (ht.before hfu).antisymm (hu.before hft)

theorem Talk.Before.size_le (h : t.Before u) : t.size ≤ u.size :=
  Nat.add_le_add h.left.length_le h.right.length_le

/-- As long as the talk is not the final one, deliveries lead on to it. -/
theorem exists_run_to {f : Talk α} (hheld : Held a b f) (hf : f.Final a b) (ht : Held a b t) :
    ∃ ds, exec (step a b) t ds = some f := by
  generalize hn : f.size - t.size = n
  induction n using Nat.strongRecOn generalizing t with
  | ind n ih =>
    by_cases hstuck : ∀ d, step a b t d = none
    · exact ⟨[], by rw [ht.eq_of_final hheld (final_of_stuck ht.sound hstuck) hf, exec]⟩
    · push Not at hstuck
      obtain ⟨d, hd⟩ := hstuck
      obtain ⟨u, hu⟩ := Option.ne_none_iff_exists'.mp hd
      have hheld' : Held a b u := ht.step hu
      have hlt := size_step hu
      have hle := (hheld'.before hf).size_le
      obtain ⟨ds, hds⟩ := ih (f.size - u.size) (by omega) hheld' rfl
      exact ⟨d :: ds, by rw [exec, hu]; exact hds⟩

/-- **One order of deliveries decides all.** If one ends in a final talk, every other is a part of one that ends there,
is no longer than what is heard there, and stops nowhere else. -/
theorem settles {f : Talk α} (hheld : Held a b f) (hf : f.Final a b) (h : exec (step a b) .start ds = some t) :
    t.Before f ∧ (∃ rest, exec (step a b) t rest = some f) ∧ ds.length ≤ f.size ∧
      ((∀ d, step a b t d = none) → t = f) := by
  have ht : Held a b t := ⟨ds, h⟩
  refine ⟨ht.before hf, exists_run_to hheld hf ht, ?_, fun hstuck => ?_⟩
  · have hlen := length_le_gain (I := fun _ => True) (fun t => (t.size : Int))
      (fun s e u _ hstep => ⟨trivial, Int.ofNat_lt.mpr (size_step hstep)⟩) trivial h
    have hle := (ht.before hf).size_le
    simp only [Talk.size, Talk.start, List.length_nil] at hlen hle ⊢
    omega
  · exact ht.eq_of_final hheld (final_of_stuck ht.sound hstuck) hf

end Dialogue
