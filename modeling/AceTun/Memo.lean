import AceTun.RustStd.HashMap

/-!
# Functions remembered for a time

`call` answers from a map that keeps values by key: a value that is fresh answers at once, otherwise the function is asked
and its value, if it has one, is kept. The key may say less than the argument, so a call may be answered with the value of
another one. Which one is said by the calls alone (`kept`), and the answers are those of the function exactly if no call
is made while the kept one has another value (`run_call_eq_iff`, with `Steady`). A program whose steps are such calls on
a part of its state answers as they do (`run_eq_run`).
-/

namespace Memo

open RustStd

variable {κ α β : Type} [DecidableEq κ]

/-- A call: its argument, and the clock at it. -/
structure Call (α : Type) where
  arg : α
  now : Nat

variable (key : α → κ) (ttl : Nat)

/-- The value that is kept for a call, if it is fresh. -/
def hit (m : HashMap κ (β × Nat)) (c : Call α) : Option β :=
  match m.lookup (key c.arg) with
  | some (b, time) => if c.now - time < ttl then some b else none
  | none => none

variable (f : α → Option β)

def call (m : HashMap κ (β × Nat)) (c : Call α) : Option β × HashMap κ (β × Nat) :=
  match hit key ttl m c with
  | some b => (some b, m)
  | none =>
    match f c.arg with
    | some b => (some b, m.insert (key c.arg) (b, c.now))
    | none => (none, m)

/-- What the calls are answered in turn. -/
def run {σ : Type} (step : σ → Call α → Option β × σ) : σ → List (Call α) → List (Option β)
  | _, [] => []
  | s, c :: cs => (step s c).1 :: run step (step s c).2 cs

/-- The call whose value is kept for a key after the calls `past`, the latest of which comes first: one with a value
that found none fresh. -/
def kept : (past : List (Call α)) → κ → Option (Call α)
  | [], _ => none
  | c :: past, k =>
    if key c.arg = k ∧ (f c.arg).isSome ∧ ∀ d ∈ kept past k, ttl ≤ c.now - d.now then some c else kept past k

/-- A call that comes while the one kept for its key is fresh has its value. -/
def Steady : (past calls : List (Call α)) → Prop
  | _, [] => True
  | past, c :: cs =>
    (∀ d ∈ kept key ttl f past (key c.arg), c.now - d.now < ttl → f d.arg = f c.arg) ∧ Steady (c :: past) cs

/-- The map holds the values of the calls that are kept. -/
def Keeps (m : HashMap κ (β × Nat)) (past : List (Call α)) : Prop :=
  ∀ k, m.lookup k = (kept key ttl f past k).bind fun d => (f d.arg).map (·, d.now)

variable {key ttl f} {m : HashMap κ (β × Nat)} {past calls : List (Call α)} {c d : Call α} {k : κ}

theorem isSome_of_kept (h : kept key ttl f past k = some d) : (f d.arg).isSome := by
  induction past with
  | nil => cases h
  | cons c past ih =>
    rw [kept] at h
    split at h
    · rename_i hc
      cases h
      exact hc.2.1
    · exact ih h

theorem keeps_empty : Keeps key ttl f ∅ [] := fun _ => rfl

/-- What a call finds is the value of the call kept for it, if it is fresh. -/
theorem hit_eq (h : Keeps key ttl f m past) :
    hit key ttl m c =
      (kept key ttl f past (key c.arg)).bind fun d => if c.now - d.now < ttl then f d.arg else none := by
  rw [hit, h]
  rcases kept key ttl f past (key c.arg) with _ | d
  · rfl
  · rcases hb : f d.arg with _ | b
    · simp [hb]
    · simp [hb]

theorem hit_eq_some (h : Keeps key ttl f m past) {b : β} :
    hit key ttl m c = some b ↔
      ∃ d, kept key ttl f past (key c.arg) = some d ∧ c.now - d.now < ttl ∧ f d.arg = some b := by
  rw [hit_eq h]
  simp only [Option.bind_eq_some_iff, Option.ite_none_right_eq_some]

theorem hit_eq_none (h : Keeps key ttl f m past) :
    hit key ttl m c = none ↔ ∀ d ∈ kept key ttl f past (key c.arg), ttl ≤ c.now - d.now := by
  rw [hit_eq h]
  rcases hk : kept key ttl f past (key c.arg) with _ | d
  · simp
  · -- the call that is kept has a value
    obtain ⟨b, hb⟩ := Option.isSome_iff_exists.mp (isSome_of_kept hk)
    simp [hb]

/-- **One call** keeps what it should. -/
theorem keeps_call (h : Keeps key ttl f m past) (c : Call α) : Keeps key ttl f (call key ttl f m c).2 (c :: past) := by
  intro k
  rw [call, kept]
  rcases hh : hit key ttl m c with _ | b
  · have hfresh := (hit_eq_none h).mp hh
    rcases hf : f c.arg with _ | b
    · simp [h k]
    · by_cases hk : key c.arg = k
      · subst hk
        rw [if_pos ⟨rfl, rfl, hfresh⟩]
        simp [hf]
      · simp [hk, AList.lookup_insert_ne (Ne.symm hk), h k]
  · obtain ⟨d, hd, hlt, -⟩ := (hit_eq_some h).mp hh
    rw [if_neg]
    · exact h k
    · rintro ⟨rfl, -, hle⟩
      exact absurd (hle d hd) (by omega)

theorem call_eq_iff (h : Keeps key ttl f m past) :
    (call key ttl f m c).1 = f c.arg ↔
      ∀ d ∈ kept key ttl f past (key c.arg), c.now - d.now < ttl → f d.arg = f c.arg := by
  rw [call]
  rcases hh : hit key ttl m c with _ | b
  · have hfresh := (hit_eq_none h).mp hh
    refine iff_of_true ?_ fun d hd hlt => absurd (hfresh d hd) (by omega)
    cases hf : f c.arg <;> rfl
  · obtain ⟨d, hd, hlt, hb⟩ := (hit_eq_some h).mp hh
    simp [hd, hlt, hb]

/-- **The answers are those of the function** exactly if the calls are steady. -/
theorem run_call_eq_iff (h : Keeps key ttl f m past) :
    run (call key ttl f) m calls = calls.map (fun c => f c.arg) ↔ Steady key ttl f past calls := by
  induction calls generalizing m past with
  | nil => exact iff_of_true rfl trivial
  | cons c cs ih =>
    rw [run, List.map_cons, List.cons.injEq, Steady, ih (keeps_call h c), call_eq_iff h]

/-- A state whose steps are calls on its map, as long as `inv` holds of it. -/
theorem run_eq_run {σ : Type} {step : σ → Call α → Option β × σ} (view : σ → HashMap κ (β × Nat)) (inv : σ → Prop)
    (hstep : ∀ s c, inv s → inv (step s c).2 ∧ ((step s c).1, view (step s c).2) = call key ttl f (view s) c)
    {s : σ} (hs : inv s) : run step s calls = run (call key ttl f) (view s) calls := by
  induction calls generalizing s with
  | nil => rfl
  | cons c cs ih =>
    obtain ⟨hinv, heq⟩ := hstep s c hs
    rw [run, run, ih hinv, ← heq]

end Memo
