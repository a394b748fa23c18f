import Mathlib.Logic.Function.Basic

/-!
# Transition systems and exclusive flags

A system is a partial step function `step : σ → α → Option σ`. `exec` runs a list of actions; `Reaches step ok s₀ s` says
that some run from `s₀` ends in `s` and each of its steps met `ok` in the state it was taken from. Facts about such runs
follow from `Reaches.invariant`, and concrete runs are found by executing them (`reaches_of_exec`). Steps that gain
something are bounded by it (`length_le_gain`), and if one that lowers a rank is enabled short of a goal, the goal is
reached (`Reaches.exists_goal`). `tally`
counts the steps of a run that show an event; one that spends the state is shown once (`tally_le_one`).

`Refines step spec inv view` says that a system does, seen through `view`, only what a specification allows: each of its
steps is a run of the specification, so each of its runs is one too (`Refines.run`).

`Exclusive flag holds` is the invariant of a Boolean that stands for a resource with one holder at a time: the flag is
set exactly while there is a holder, and there is never a second one. A holder acquires the resource when the flag is
not set, passes it on, or releases it (`Exclusive.acquire`, `Exclusive.handOver`, `Exclusive.release`).
-/

namespace Transition

section Runs

variable {σ α : Type}

/-- Run the actions in turn, if each is enabled. -/
def exec (step : σ → α → Option σ) : σ → List α → Option σ
  | s, [] => some s
  | s, a :: as => (step s a).bind fun t => exec step t as

/-- The states that are reached by steps that meet `ok`. -/
inductive Reaches (step : σ → α → Option σ) (ok : σ → α → Prop) (s₀ : σ) : σ → Prop
  | refl : Reaches step ok s₀ s₀
  | tail {s t : σ} {a : α} : Reaches step ok s₀ s → ok s a → step s a = some t → Reaches step ok s₀ t

variable {step : σ → α → Option σ} {ok : σ → α → Prop} {s₀ s t : σ}

/-- **The invariant rule.** -/
theorem Reaches.invariant {I : σ → Prop} (hinit : I s₀)
    (hstep : ∀ s a t, I s → ok s a → step s a = some t → I t) (h : Reaches step ok s₀ s) : I s := by
  induction h with
  | refl => exact hinit
  | tail _ hok hs ih => exact hstep _ _ _ ih hok hs

/-- Take a step only if it meets `ok`. -/
def guarded (step : σ → α → Option σ) (ok : σ → α → Prop) [∀ s a, Decidable (ok s a)] (s : σ) (a : α) : Option σ :=
  if ok s a then step s a else none

theorem guarded_eq_some [∀ s a, Decidable (ok s a)] {a : α} :
    guarded step ok s a = some t ↔ ok s a ∧ step s a = some t := by
  unfold guarded
  split <;> simp [*]

/-- **The invariant rule**, for a run that is given by its actions. -/
theorem exec_invariant {I : σ → Prop} (hstep : ∀ s a t, I s → step s a = some t → I t) {as : List α} (hs : I s)
    (h : exec step s as = some t) : I t := by
  induction as generalizing s with
  | nil =>
    cases h
    exact hs
  | cons a as ih =>
    obtain ⟨u, hu, h⟩ := Option.bind_eq_some_iff.mp h
    exact ih (hstep _ _ _ hs hu) h

/-- The same, if every action of the run is of a kind. -/
theorem exec_invariant_of_mem {I : σ → Prop} {as : List α} (hstep : ∀ s a t, a ∈ as → I s → step s a = some t → I t)
    (hs : I s) (h : exec step s as = some t) : I t := by
  induction as generalizing s with
  | nil =>
    cases h
    exact hs
  | cons a as ih =>
    obtain ⟨u, hu, h⟩ := Option.bind_eq_some_iff.mp h
    exact ih (fun s b t hb => hstep s b t (List.mem_cons_of_mem a hb)) (hstep _ _ _ List.mem_cons_self hs hu) h

/-- A run is no longer than what its steps gain. -/
theorem length_le_gain {I : σ → Prop} (gain : σ → Int)
    (hstep : ∀ s a t, I s → step s a = some t → I t ∧ gain s < gain t) {as : List α} (hs : I s)
    (h : exec step s as = some t) : gain s + as.length ≤ gain t := by
  induction as generalizing s with
  | nil =>
    cases h
    simp
  | cons a as ih =>
    obtain ⟨u, hu, h⟩ := Option.bind_eq_some_iff.mp h
    obtain ⟨hI, hlt⟩ := hstep _ _ _ hs hu
    have hrest := ih hI h
    rw [List.length_cons]
    omega

/-- **The progress rule.** If some step that meets `ok` is enabled in every state short of a goal, and such steps lower a
rank, then the goal is reached by them. -/
theorem Reaches.exists_goal {I goal : σ → Prop} (rank : σ → Nat)
    (hstep : ∀ s a t, I s → ok s a → step s a = some t → I t ∧ rank t < rank s)
    (hprogress : ∀ s, I s → ¬ goal s → ∃ a, ok s a ∧ (step s a).isSome) (h : Reaches step ok s₀ s) (hs : I s) :
    ∃ t, Reaches step ok s₀ t ∧ goal t := by
  generalize hn : rank s = n
  induction n using Nat.strongRecOn generalizing s with
  | ind n ih =>
    by_cases hgoal : goal s
    · exact ⟨s, h, hgoal⟩
    · obtain ⟨a, hok, hsome⟩ := hprogress s hs hgoal
      obtain ⟨t, ht⟩ := Option.isSome_iff_exists.mp hsome
      obtain ⟨hI, hlt⟩ := hstep s a t hs hok ht
      exact ih (rank t) (hn ▸ hlt) (h.tail hok ht) hI rfl

/-- A run that is executed with its condition checked. -/
theorem reaches_of_exec [∀ s a, Decidable (ok s a)] {as : List α} (h : exec (guarded step ok) s₀ as = some t) :
    Reaches step ok s₀ t := by
  refine exec_invariant (fun s a t hs hstep => ?_) .refl h
  obtain ⟨hok, hstep⟩ := guarded_eq_some.mp hstep
  exact hs.tail hok hstep

end Runs

section Events

variable {σ α : Type} {step : σ → α → Option σ} {event : σ → σ → Bool} {I spent : σ → Prop} {s : σ}

/-- How many steps of a run show an event. -/
def tally (step : σ → α → Option σ) (event : σ → σ → Bool) : σ → List α → Nat
  | _, [] => 0
  | s, a :: as =>
    match step s a with
    | none => 0
    | some t => (event s t).toNat + tally step event t as

theorem tally_eq_zero (hstep : ∀ s a t, I s → step s a = some t → I t)
    (hspent : ∀ s a t, I s → spent s → step s a = some t → event s t = false ∧ spent t) (hI : I s) (hs : spent s)
    (as : List α) : tally step event s as = 0 := by
  induction as generalizing s with
  | nil => rfl
  | cons a as ih =>
    rw [tally]
    cases hu : step s a with
    | none => rfl
    | some u =>
      obtain ⟨he, hu'⟩ := hspent s a u hI hs hu
      simp only [he, Bool.toNat_false, Nat.zero_add]
      exact ih (hstep s a u hI hu) hu'

/-- **An event that spends the state is shown once.** -/
theorem tally_le_one (hstep : ∀ s a t, I s → step s a = some t → I t)
    (hspent : ∀ s a t, I s → spent s → step s a = some t → event s t = false ∧ spent t)
    (hevent : ∀ s a t, I s → step s a = some t → event s t = true → spent t) (hI : I s) (as : List α) :
    tally step event s as ≤ 1 := by
  induction as generalizing s with
  | nil => exact Nat.zero_le 1
  | cons a as ih =>
    rw [tally]
    cases hu : step s a with
    | none => exact Nat.zero_le 1
    | some u =>
      have hIu := hstep s a u hI hu
      cases he : event s u with
      | false => simpa [he] using ih hIu
      | true =>
        have hrest := tally_eq_zero hstep hspent hIu (hevent s a u hI hu he) as
        simp [he, hrest]

end Events

section Refinement

variable {σ α τ β : Type} {step : σ → α → Option σ} {spec : τ → β → Option τ} {inv : σ → Prop} {view : σ → τ} {s t : σ}

/-- On the states that `inv` holds of, a step of the system is a run of the specification. -/
structure Refines (step : σ → α → Option σ) (spec : τ → β → Option τ) (inv : σ → Prop) (view : σ → τ) : Prop where
  keeps : ∀ s a t, inv s → step s a = some t → inv t
  simulates : ∀ s a t, inv s → step s a = some t → ∃ bs, exec spec (view s) bs = some (view t)

theorem exec_append {u : τ} {as bs : List β} {v w : τ} (h : exec spec u as = some v) (h' : exec spec v bs = some w) :
    exec spec u (as ++ bs) = some w := by
  induction as generalizing u with
  | nil =>
    cases h
    exact h'
  | cons a as ih =>
    obtain ⟨x, hx, h⟩ := Option.bind_eq_some_iff.mp h
    exact Option.bind_eq_some_iff.mpr ⟨x, hx, ih h⟩

/-- **A run of the system is a run of the specification.** -/
theorem Refines.run (h : Refines step spec inv view) {as : List α} (hs : inv s) (hrun : exec step s as = some t) :
    inv t ∧ ∃ bs, exec spec (view s) bs = some (view t) := by
  induction as generalizing s with
  | nil =>
    cases hrun
    exact ⟨hs, [], rfl⟩
  | cons a as ih =>
    obtain ⟨u, hu, hrun⟩ := Option.bind_eq_some_iff.mp hrun
    obtain ⟨ht, bs, hbs⟩ := ih (h.keeps s a u hs hu) hrun
    obtain ⟨cs, hcs⟩ := h.simulates s a u hs hu
    exact ⟨ht, cs ++ bs, exec_append hcs hbs⟩

end Refinement

section Exclusive

variable {H : Type} {flag : Bool} {holds holds' : H → Prop}

/-- The flag is set exactly while there is a holder, and there is one holder at most. -/
def Exclusive (flag : Bool) (holds : H → Prop) : Prop := ∃ o : Option H, flag = o.isSome ∧ ∀ h, holds h ↔ o = some h

theorem Exclusive.unset (h : ∀ h, ¬ holds h) : Exclusive false holds := ⟨none, rfl, fun x => by simp [h x]⟩

theorem Exclusive.flag_of_holds {x : H} (h : Exclusive flag holds) (hx : holds x) : flag = true := by
  obtain ⟨o, rfl, ho⟩ := h
  rw [(ho x).mp hx, Option.isSome_some]

theorem Exclusive.exists_of_flag (h : Exclusive true holds) : ∃ x, holds x := by
  obtain ⟨o, hf, ho⟩ := h
  obtain ⟨x, rfl⟩ := Option.isSome_iff_exists.mp hf.symm
  exact ⟨x, (ho x).mpr rfl⟩

theorem Exclusive.unique {x y : H} (h : Exclusive flag holds) (hx : holds x) (hy : holds y) : x = y := by
  obtain ⟨o, -, ho⟩ := h
  exact Option.some.inj (((ho x).mp hx).symm.trans ((ho y).mp hy))

/-- Only one party comes into question. It takes the resource, lets it go, or goes on as before. -/
theorem Exclusive.change {flag' : Bool} {x : H} (h : Exclusive flag holds) (hx : flag = true → holds x)
    (hx' : holds' x ↔ flag' = true) (hother : ∀ y, y ≠ x → (holds' y ↔ holds y)) : Exclusive flag' holds' := by
  have hnone : ∀ y, y ≠ x → ¬ holds' y := fun y hne hy => by
    have hold : holds y := (hother y hne).mp hy
    exact hne (h.unique hold (hx (h.flag_of_holds hold)))
  cases flag' with
  | false =>
    refine .unset fun y hy => ?_
    by_cases he : y = x
    · subst he
      cases hx'.mp hy
    · exact hnone y he hy
  | true =>
    refine ⟨some x, rfl, fun y => ?_⟩
    rw [Option.some.injEq, eq_comm]
    exact ⟨fun hy => by_contra fun he => hnone y he hy, fun he => he ▸ hx'.mpr rfl⟩

/-- Nothing changes for the holders. -/
theorem Exclusive.keep (h : Exclusive flag holds) (hk : ∀ x, holds' x ↔ holds x) : Exclusive flag holds' := by
  obtain ⟨o, hf, ho⟩ := h
  exact ⟨o, hf, fun x => (hk x).trans (ho x)⟩

/-- The flag was not set, so the new holder is the only one. -/
theorem Exclusive.acquire (h : Exclusive false holds) (new : H) (ha : ∀ x, holds' x ↔ x = new ∨ holds x) :
    Exclusive true holds' := by
  refine ⟨some new, rfl, fun x => ?_⟩
  have hno : ¬ holds x := fun hx => absurd (h.flag_of_holds hx) (by simp)
  rw [ha x, or_iff_left hno, Option.some.injEq, eq_comm]

/-- The holder passes the resource on. -/
theorem Exclusive.handOver (h : Exclusive flag holds) {old : H} (hold : holds old) (new : H)
    (hh : ∀ x, holds' x ↔ x = new ∨ (holds x ∧ x ≠ old)) : Exclusive flag holds' := by
  refine ⟨some new, h.flag_of_holds hold, fun x => ?_⟩
  have hno : ¬ (holds x ∧ x ≠ old) := fun hx => hx.2 (h.unique hx.1 hold)
  rw [hh x, or_iff_left hno, Option.some.injEq, eq_comm]

/-- The holder lets go. -/
theorem Exclusive.release (h : Exclusive flag holds) {old : H} (hold : holds old)
    (hr : ∀ x, holds' x ↔ holds x ∧ x ≠ old) : Exclusive false holds' :=
  .unset fun x hx => ((hr x).mp hx).2 (h.unique ((hr x).mp hx).1 hold)

end Exclusive

end Transition
