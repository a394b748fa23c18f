import AceTun.Transition

/-!
# Programs that call a system

A `Program` makes calls to a system and goes on with what they return. It runs beside others that change the system too,
and it may be stopped for good between any two calls: a `Process` is a program with the system, and every state that
`step` reaches is one it may be left in.

`Keeps good track Q k p` is the rule for a program. Knowing `k`, it makes only calls that are allowed then, whatever
they return (`track` says what is known afterwards), and `Q` holds where it ends. `Keeps.exec` carries over to
every run what each call keeps between the system and what the others alone would have made of it.
-/

namespace Calls

open Transition

inductive Program (ι : Type) (ρ : ι → Type) (α : Type) where
  | done (a : α)
  | call (i : ι) (next : ρ i → Program ι ρ α)

namespace Program

variable {ι : Type} {ρ : ι → Type} {α β : Type}

def bind (p : Program ι ρ α) (f : α → Program ι ρ β) : Program ι ρ β :=
  match p with
  | .done a => f a
  | .call i next => .call i fun r => (next r).bind f

instance : Monad (Program ι ρ) where
  pure := .done
  bind := bind

/-- One call. -/
def perform (i : ι) : Program ι ρ (ρ i) := .call i .done

/-- What the program comes to if it is alone and is not stopped. -/
def run {σ : Type} (perform : (i : ι) → σ → ρ i × σ) : Program ι ρ α → σ → α × σ
  | .done a, s => (a, s)
  | .call i next, s => (next (perform i s).1).run perform (perform i s).2

section Run

variable {σ : Type} {perform : (i : ι) → σ → ρ i × σ} {s : σ}

@[simp]
theorem run_bind (p : Program ι ρ α) (f : α → Program ι ρ β) :
    (p >>= f).run perform s = (f (p.run perform s).1).run perform (p.run perform s).2 := by
  change (p.bind f).run perform s = _
  induction p generalizing s with
  | done a => rfl
  | call i next ih => exact ih _

end Run

end Program

/-! ## Runs beside others -/

/-- The program makes its next call, which the system decides by `w`, or one of the others does something. -/
inductive Move (ω ε : Type) where
  | own (w : ω)
  | other (e : ε)

structure Process (ι : Type) (ρ : ι → Type) (α σ : Type) where
  program : Program ι ρ α
  system : σ

section Runs

variable {ι : Type} {ρ : ι → Type} {α σ τ ω ε : Type}

def Process.step (perform : (i : ι) → ω → σ → ρ i × σ) (change : ε → σ → σ) (p : Process ι ρ α σ) :
    Move ω ε → Option (Process ι ρ α σ)
  | .own w =>
    match p.program with
    | .done _ => none
    | .call i next => some ⟨next (perform i w p.system).1, (perform i w p.system).2⟩
  | .other e => some { p with system := change e p.system }

/-- What the others alone make of a system. -/
def afterOthers (change : ε → τ → τ) : List (Move ω ε) → τ → τ
  | [], t => t
  | .own _ :: moves, t => afterOthers change moves t
  | .other e :: moves, t => afterOthers change moves (change e t)

end Runs

/-! ## The rule for a program -/

section Keeps

variable {ι : Type} {ρ : ι → Type} {α β κ σ τ ω ε : Type}

def Keeps (good : κ → ι → Prop) (track : (i : ι) → ρ i → κ → κ) (Q : κ → α → Prop) : κ → Program ι ρ α → Prop
  | k, .done a => Q k a
  | k, .call i next => good k i ∧ ∀ r, Keeps good track Q (track i r k) (next r)

variable {good : κ → ι → Prop} {track : (i : ι) → ρ i → κ → κ} {Q : κ → α → Prop} {k : κ}

theorem Keeps.bind {Q' : κ → β → Prop} {p : Program ι ρ α} {f : α → Program ι ρ β} (h : Keeps good track Q k p)
    (hf : ∀ k a, Q k a → Keeps good track Q' k (f a)) : Keeps good track Q' k (p >>= f) := by
  change Keeps good track Q' k (p.bind f)
  induction p generalizing k with
  | done a => exact hf k a h
  | call i next ih => exact ⟨h.1, fun r => ih r (h.2 r)⟩

theorem keeps_perform {i : ι} {Q : κ → ρ i → Prop} (hi : good k i) (h : ∀ r, Q (track i r k) r) :
    Keeps good track Q k (.perform i) :=
  ⟨hi, h⟩

/-- **What calls keep, runs keep**: `R` relates what is known, the system, and what it would be without the program. -/
theorem Keeps.exec {perform : (i : ι) → ω → σ → ρ i × σ} {change : ε → σ → σ} {g : ε → τ → τ}
    {R : κ → σ → τ → Prop}
    (hown : ∀ k i w s t, R k s t → good k i → R (track i (perform i w s).1 k) (perform i w s).2 t)
    (hother : ∀ k e s t, R k s t → R k (change e s) (g e t)) {p q : Process ι ρ α σ} {t : τ}
    {moves : List (Move ω ε)} (hp : Keeps good track Q k p.program) (hR : R k p.system t)
    (h : exec (Process.step perform change) p moves = some q) :
    ∃ k, Keeps good track Q k q.program ∧ R k q.system (afterOthers g moves t) := by
  induction moves generalizing k p t with
  | nil =>
    cases h
    exact ⟨k, hp, hR⟩
  | cons move moves ih =>
    obtain ⟨u, hu, h⟩ := Option.bind_eq_some_iff.mp h
    cases move with
    | own w =>
      obtain ⟨program, system⟩ := p
      cases program with
      | done a => cases hu
      | call i next =>
        cases hu
        exact ih (hp.2 _) (hown k i w system t hR hp.1) h
    | other e =>
      cases hu
      exact ih (p := ⟨p.program, change e p.system⟩) hp (hother k e _ t hR) h

end Keeps

end Calls
