import Mathlib.Algebra.BigOperators.Group.Finset.Piecewise
import Mathlib.Algebra.Order.BigOperators.Group.Finset
import AceTun.Transition

/-!
# Concurrent tasks over a shared state

A `Routine σ ω` is what a task runs: it reads a shared state `σ` and acts on it by operations `ω`, one operation in one
step. A `Pool` holds the tasks that were spawned and a log of who did what; its tasks advance in any order, and one that
waits may be dropped.

`Safe inv post ops t` is the rule for one task: having done `ops`, whatever it meets, what it has done keeps `inv`, and
it meets `post` wherever the task can end. `Consistent.advance`, `Consistent.drop` and `Consistent.spawn` carry this
over to every interleaving, and `sum_countP` adds up what the single tasks did. `Only good t` is the simpler rule that
each operation is a good one by itself (`Only.advance`). And a task may always run alone: some order of steps lets it do
what `alone` says before anyone else acts (`exec_alone`).
-/

namespace Tasks

variable {σ ω : Type}

inductive Routine (σ ω : Type) where
  | done
  /-- Waits for what does not come: the task can only be dropped. -/
  | wait
  /-- A point where the task may be dropped instead of going on. -/
  | yield (next : Routine σ ω)
  | read (next : σ → Routine σ ω)
  | act (op : ω) (next : Routine σ ω)

namespace Routine

/-- The state after the task has run alone. -/
def run (apply : ω → σ → σ) : Routine σ ω → σ → σ
  | .done, s => s
  | .wait, s => s
  | .yield next, s => next.run apply s
  | .read next, s => (next s).run apply s
  | .act op next, s => next.run apply (apply op s)

/-- What the task does when it runs alone, in order. -/
def alone (apply : ω → σ → σ) : Routine σ ω → σ → List ω
  | .done, _ => []
  | .wait, _ => []
  | .yield next, s => next.alone apply s
  | .read next, s => (next s).alone apply s
  | .act op next, s => op :: next.alone apply (apply op s)

/-- What the task may still do keeps `inv`, and where it may end `post` holds of all it did. -/
def Safe (inv post : List ω → Prop) (ops : List ω) : Routine σ ω → Prop
  | .done => inv ops ∧ post ops
  | .wait => inv ops ∧ post ops
  | .yield next => post ops ∧ Safe inv post ops next
  | .read next => inv ops ∧ ∀ s, Safe inv post ops (next s)
  | .act op next => inv ops ∧ Safe inv post (ops ++ [op]) next

/-- Every operation of the task is a good one, whatever it reads. -/
def Only (good : ω → Prop) : Routine σ ω → Prop
  | .done => True
  | .wait => True
  | .yield next => Only good next
  | .read next => ∀ s, Only good (next s)
  | .act op next => good op ∧ Only good next

theorem Only.mono {good good' : ω → Prop} (hg : ∀ op, good op → good' op) {t : Routine σ ω} (h : Only good t) :
    Only good' t := by
  induction t with
  | done => trivial
  | wait => trivial
  | yield next ih => exact ih h
  | read next ih => exact fun s => ih s (h s)
  | act op next ih => exact ⟨hg op h.1, ih h.2⟩

section Safe

variable {inv post : List ω → Prop} {ops : List ω}

theorem Safe.now : {t : Routine σ ω} → Safe inv post ops t → inv ops
  | .done, h => h.1
  | .wait, h => h.1
  | .yield _, h => Safe.now h.2
  | .read _, h => h.1
  | .act _ _, h => h.1

end Safe

end Routine

open Routine

/-! ## The log -/

/-- What was done for one task, oldest first. -/
def opsOf (log : List (Nat × ω)) (i : Nat) : List ω := (log.filter (·.1 == i)).map (·.2)

section Log

variable (log : List (Nat × ω)) (i j : Nat) (op : ω)

@[simp] theorem opsOf_nil : opsOf ([] : List (Nat × ω)) i = [] := rfl

theorem opsOf_cons : opsOf ((i, op) :: log) j = if i = j then op :: opsOf log j else opsOf log j := by
  simp only [opsOf, List.filter_cons, beq_iff_eq]
  split <;> rfl

theorem opsOf_snoc : opsOf (log ++ [(i, op)]) j = if i = j then opsOf log j ++ [op] else opsOf log j := by
  simp only [opsOf, List.filter_append, List.filter_cons, beq_iff_eq, List.filter_nil]
  split <;> simp

variable {log}

/-- **What all did is what each did, added up.** -/
theorem sum_countP (p : ω → Bool) {n : Nat} (h : ∀ i, n ≤ i → opsOf log i = []) :
    ∑ i ∈ Finset.range n, (opsOf log i).countP p = log.countP fun e => p e.2 := by
  induction log with
  | nil => simp
  | cons e log ih =>
    obtain ⟨k, op⟩ := e
    have hk : k < n := by
      by_contra hk
      have := h k (Nat.le_of_not_lt hk)
      rw [opsOf_cons, if_pos rfl] at this
      cases this
    have hrest : ∀ i, n ≤ i → opsOf log i = [] := by
      intro i hi
      have := h i hi
      rwa [opsOf_cons, if_neg (by omega)] at this
    have hcount : ∀ i, (opsOf ((k, op) :: log) i).countP p =
        (opsOf log i).countP p + if k = i then (if p op then 1 else 0) else 0 := by
      intro i
      rw [opsOf_cons]
      split <;> simp [List.countP_cons]
    simp [hcount, Finset.sum_add_distrib, ih hrest, List.countP_cons, hk]

end Log

/-! ## The pool -/

structure Pool (σ ω : Type) where
  shared : σ
  /-- How many tasks were spawned; they are numbered from 0. -/
  spawned : Nat
  task : Nat → Routine σ ω
  /-- The operations so far, oldest first, each with the number of the task it was done for. -/
  log : List (Nat × ω)

namespace Pool

def init (s : σ) : Pool σ ω := ⟨s, 0, fun _ => .done, []⟩

/-- An operation is done for task `i`. -/
def perform (apply : ω → σ → σ) (pool : Pool σ ω) (i : Nat) (op : ω) : Pool σ ω :=
  { pool with shared := apply op pool.shared, log := pool.log ++ [(i, op)] }

def setTask (pool : Pool σ ω) (i : Nat) (t : Routine σ ω) : Pool σ ω :=
  { pool with task := Function.update pool.task i t }

def spawn (pool : Pool σ ω) (t : Routine σ ω) : Pool σ ω :=
  { pool.setTask pool.spawned t with spawned := pool.spawned + 1 }

/-- Task `i` takes one step. -/
def advance (apply : ω → σ → σ) (pool : Pool σ ω) (i : Nat) : Option (Pool σ ω) :=
  match pool.task i with
  | .done => none
  | .wait => none
  | .yield next => some (pool.setTask i next)
  | .read next => some (pool.setTask i (next pool.shared))
  | .act op next => some ((pool.perform apply i op).setTask i next)

/-- Task `i` is dropped where it waits. -/
def drop (pool : Pool σ ω) (i : Nat) : Option (Pool σ ω) :=
  match pool.task i with
  | .wait => some (pool.setTask i .done)
  | .yield _ => some (pool.setTask i .done)
  | _ => none

/-- The log explains the shared state, and every task is safe after what it did. -/
structure Consistent (apply : ω → σ → σ) (s₀ : σ) (inv post : List ω → Prop) (pool : Pool σ ω) : Prop where
  shared_eq : pool.shared = pool.log.foldl (fun s e => apply e.2 s) s₀
  safe : ∀ i, Safe inv post (opsOf pool.log i) (pool.task i)

/-- Only task `i` is another, and only for it something was done. -/
structure OnlyTask (i : Nat) (pool pool' : Pool σ ω) : Prop where
  spawned : pool'.spawned = pool.spawned
  task : ∀ j, j ≠ i → pool'.task j = pool.task j
  ops : ∀ j, j ≠ i → opsOf pool'.log j = opsOf pool.log j

section Steps

variable {apply : ω → σ → σ} {s₀ : σ} {inv post : List ω → Prop} {pool pool' : Pool σ ω} {i : Nat} {t : Routine σ ω}

theorem setTask_self (h : pool.task i = t) : pool.setTask i t = pool := by simp [setTask, ← h]

theorem onlyTask_setTask : OnlyTask i pool (pool.setTask i t) :=
  ⟨rfl, fun _ hj => Function.update_of_ne hj .., fun _ _ => rfl⟩

theorem onlyTask_perform {op : ω} : OnlyTask i pool (pool.perform apply i op) :=
  ⟨rfl, fun _ _ => rfl, fun j hj => by rw [perform, opsOf_snoc, if_neg (Ne.symm hj)]⟩

theorem OnlyTask.trans {pool'' : Pool σ ω} (h : OnlyTask i pool pool') (h' : OnlyTask i pool' pool'') :
    OnlyTask i pool pool'' :=
  ⟨h'.spawned.trans h.spawned, fun j hj => (h'.task j hj).trans (h.task j hj),
    fun j hj => (h'.ops j hj).trans (h.ops j hj)⟩

theorem onlyTask_advance (h : pool.advance apply i = some pool') : pool.task i ≠ .done ∧ OnlyTask i pool pool' := by
  unfold advance at h
  cases ht : pool.task i with
  | done => simp [ht] at h
  | wait => simp [ht] at h
  | yield next =>
    simp only [ht, Option.some.injEq] at h
    exact ⟨by simp, h ▸ onlyTask_setTask⟩
  | read next =>
    simp only [ht, Option.some.injEq] at h
    exact ⟨by simp, h ▸ onlyTask_setTask⟩
  | act op next =>
    simp only [ht, Option.some.injEq] at h
    exact ⟨by simp, h ▸ onlyTask_perform.trans onlyTask_setTask⟩

theorem onlyTask_drop (h : pool.drop i = some pool') : pool.task i ≠ .done ∧ OnlyTask i pool pool' := by
  unfold drop at h
  cases ht : pool.task i with
  | wait =>
    simp only [ht, Option.some.injEq] at h
    exact ⟨by simp, h ▸ onlyTask_setTask⟩
  | yield next =>
    simp only [ht, Option.some.injEq] at h
    exact ⟨by simp, h ▸ onlyTask_setTask⟩
  | _ => simp [ht] at h

/-- A step only adds to the log. -/
theorem log_advance (h : pool.advance apply i = some pool') : pool.log <+: pool'.log := by
  unfold advance at h
  cases ht : pool.task i with
  | done => simp [ht] at h
  | wait => simp [ht] at h
  | yield next =>
    simp only [ht, Option.some.injEq] at h
    exact h ▸ List.prefix_rfl
  | read next =>
    simp only [ht, Option.some.injEq] at h
    exact h ▸ List.prefix_rfl
  | act op next =>
    simp only [ht, Option.some.injEq] at h
    exact h ▸ List.prefix_append ..

theorem log_drop (h : pool.drop i = some pool') : pool'.log = pool.log := by
  unfold drop at h
  cases ht : pool.task i with
  | wait =>
    simp only [ht, Option.some.injEq] at h
    exact h ▸ rfl
  | yield next =>
    simp only [ht, Option.some.injEq] at h
    exact h ▸ rfl
  | _ => simp [ht] at h

theorem Consistent.setTask (h : Consistent apply s₀ inv post pool) (ht : Safe inv post (opsOf pool.log i) t) :
    Consistent apply s₀ inv post (pool.setTask i t) := by
  refine ⟨h.shared_eq, fun j => ?_⟩
  change Safe inv post (opsOf pool.log j) (Function.update pool.task i t j)
  by_cases hj : j = i
  · subst hj
    rwa [Function.update_self]
  · rw [Function.update_of_ne hj]
    exact h.safe j

theorem Consistent.spawn (h : Consistent apply s₀ inv post pool) (ht : Safe inv post (opsOf pool.log pool.spawned) t) :
    Consistent apply s₀ inv post (pool.spawn t) :=
  ⟨(h.setTask ht).shared_eq, (h.setTask ht).safe⟩

/-- An operation that is done for a task, which then goes on from there. -/
theorem Consistent.perform {op : ω} (h : Consistent apply s₀ inv post pool)
    (ht : Safe inv post (opsOf pool.log i ++ [op]) t) :
    Consistent apply s₀ inv post ((pool.perform apply i op).setTask i t) := by
  constructor
  · simp [Pool.setTask, Pool.perform, h.shared_eq]
  · intro j
    change Safe inv post (opsOf (pool.log ++ [(i, op)]) j) (Function.update pool.task i t j)
    rw [opsOf_snoc]
    by_cases hj : j = i
    · subst hj
      rw [if_pos rfl, Function.update_self]
      exact ht
    · rw [if_neg (Ne.symm hj), Function.update_of_ne hj]
      exact h.safe j

/-- **Whatever task advances, all stay safe.** -/
theorem Consistent.advance (h : Consistent apply s₀ inv post pool) (ha : pool.advance apply i = some pool') :
    Consistent apply s₀ inv post pool' := by
  have hsafe := h.safe i
  unfold Pool.advance at ha
  cases ht : pool.task i with
  | done => simp [ht] at ha
  | wait => simp [ht] at ha
  | yield next =>
    simp only [ht, Option.some.injEq] at ha hsafe
    exact ha ▸ h.setTask hsafe.2
  | read next =>
    simp only [ht, Option.some.injEq] at ha hsafe
    exact ha ▸ h.setTask (hsafe.2 _)
  | act op next =>
    simp only [ht, Option.some.injEq] at ha hsafe
    exact ha ▸ h.perform hsafe.2

theorem Consistent.drop (h : Consistent apply s₀ inv post pool) (hd : pool.drop i = some pool') :
    Consistent apply s₀ inv post pool' := by
  have hsafe := h.safe i
  unfold Pool.drop at hd
  cases ht : pool.task i with
  | wait =>
    simp only [ht, Option.some.injEq] at hd hsafe
    exact hd ▸ h.setTask hsafe
  | yield next =>
    simp only [ht, Option.some.injEq] at hd hsafe
    exact hd ▸ h.setTask ⟨hsafe.2.now, hsafe.1⟩
  | _ => simp [ht] at hd

/-- Task `i` does only what is good for it, and so did everyone so far. -/
structure Only (good : Nat → ω → Prop) (pool : Pool σ ω) : Prop where
  task : ∀ i, (pool.task i).Only (good i)
  log : ∀ e ∈ pool.log, good e.1 e.2

section Only

variable {good good' : Nat → ω → Prop}

theorem Only.mono (hg : ∀ i op, good i op → good' i op) (h : pool.Only good) : pool.Only good' :=
  ⟨fun i => (h.task i).mono (hg i), fun e he => hg _ _ (h.log e he)⟩

theorem Only.setTask (h : pool.Only good) (ht : t.Only (good i)) : (pool.setTask i t).Only good := by
  refine ⟨fun j => ?_, h.log⟩
  change (Function.update pool.task i t j).Only (good j)
  by_cases hj : j = i
  · subst hj
    rwa [Function.update_self]
  · rw [Function.update_of_ne hj]
    exact h.task j

theorem Only.perform {op : ω} (h : pool.Only good) (hop : good i op) : (pool.perform apply i op).Only good := by
  refine ⟨h.task, fun e he => ?_⟩
  rcases List.mem_append.mp he with he | he
  · exact h.log e he
  · rw [List.mem_singleton.mp he]
    exact hop

theorem Only.advance (h : pool.Only good) (ha : pool.advance apply i = some pool') : pool'.Only good := by
  have htask := h.task i
  unfold Pool.advance at ha
  cases ht : pool.task i with
  | done => simp [ht] at ha
  | wait => simp [ht] at ha
  | yield next =>
    simp only [ht, Option.some.injEq] at ha htask
    exact ha ▸ h.setTask htask
  | read next =>
    simp only [ht, Option.some.injEq] at ha htask
    exact ha ▸ h.setTask (htask _)
  | act op next =>
    simp only [ht, Option.some.injEq] at ha htask
    exact ha ▸ (h.perform htask.1).setTask htask.2

theorem Only.drop (h : pool.Only good) (hd : pool.drop i = some pool') : pool'.Only good := by
  unfold Pool.drop at hd
  cases ht : pool.task i with
  | wait =>
    simp only [ht, Option.some.injEq] at hd
    exact hd ▸ h.setTask trivial
  | yield next =>
    simp only [ht, Option.some.injEq] at hd
    exact hd ▸ h.setTask trivial
  | _ => simp [ht] at hd

end Only

/-- **A task may run alone.** -/
theorem exec_alone (apply : ω → σ → σ) (ht : pool.task i = t) :
    ∃ n pool', Transition.exec (Pool.advance apply) pool (List.replicate n i) = some pool' ∧
      pool'.log = pool.log ++ (t.alone apply pool.shared).map (i, ·) := by
  induction t generalizing pool with
  | done => exact ⟨0, pool, rfl, by simp [alone]⟩
  | wait => exact ⟨0, pool, rfl, by simp [alone]⟩
  | yield next ih =>
    obtain ⟨n, pool', hrun, hlog⟩ := @ih (pool.setTask i next) (Function.update_self ..)
    exact ⟨n + 1, pool', Option.bind_eq_some_iff.mpr ⟨_, by rw [Pool.advance, ht], hrun⟩, hlog⟩
  | read next ih =>
    obtain ⟨n, pool', hrun, hlog⟩ := @ih _ (pool.setTask i (next pool.shared)) (Function.update_self ..)
    exact ⟨n + 1, pool', Option.bind_eq_some_iff.mpr ⟨_, by rw [Pool.advance, ht], hrun⟩, hlog⟩
  | act op next ih =>
    obtain ⟨n, pool', hrun, hlog⟩ :=
      @ih ((pool.perform apply i op).setTask i next) (Function.update_self ..)
    refine ⟨n + 1, pool', Option.bind_eq_some_iff.mpr ⟨_, by rw [Pool.advance, ht], hrun⟩, ?_⟩
    rw [hlog]
    simp [alone, Pool.perform, Pool.setTask]

end Steps

end Pool

end Tasks
