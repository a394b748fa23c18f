import AceTun.RustStd.Stream

/-!
# Channels and file descriptors of the runtime

The source calls the runtime and does not define it. The definitions here stand for what `tokio` documents of it.

A `Channel` is `mpsc::channel`, a bounded queue between a sender and a receiver that keeps the order of what is sent:
`blocking_send` waits while the queue is full and fails once the receiver is gone, `poll_recv` waits while the queue is
empty and ends once the sender is gone too. The bound is a field, so no operation can exceed it.

A `Registration` is what `AsyncFd` knows of a file descriptor: whether it may be ready, a tick that counts the events of
the descriptor, and whether a task waits for the next one. `poll_read_ready` grants the readiness or leaves a waker that
the next event wakes, and `try_io` clears the readiness on `WouldBlock`, unless there is a newer event
(`Registration.clear`), which is what keeps an event from getting lost between an empty read and the clearing.

The runtime may also turn a task away that has used up its budget, which wakes it again at once. That is left out: it
delays a poll, and changes nothing of what a poll finds.
-/

namespace Tokio

/-! ## Channels -/

/-- `mpsc::channel(capacity)` with one sender. -/
structure Channel (α : Type) (capacity : Nat) where
  queue : List α
  /-- The sender is not dropped. -/
  sender : Bool
  /-- The receiver is not dropped. -/
  receiver : Bool
  bounded : queue.length ≤ capacity
  deriving DecidableEq

/-- What a send comes to. -/
inductive Sent (α : Type) (capacity : Nat) where
  | sent (c : Channel α capacity)
  | full
  | closed

/-- What a receive comes to. -/
inductive Received (α : Type) (capacity : Nat) where
  | value (a : α) (c : Channel α capacity)
  | empty
  | ended

namespace Channel

variable {α : Type} {capacity : Nat} {c d : Channel α capacity} {a : α}

/-- A new channel. -/
def new : Channel α capacity := ⟨[], true, true, Nat.zero_le _⟩

/-- One attempt of `send`; the caller waits on `full`. -/
def send (c : Channel α capacity) (a : α) : Sent α capacity :=
  if c.receiver = false then .closed
  else if h : c.queue.length < capacity then
    .sent { c with queue := c.queue ++ [a], bounded := by rw [List.length_append]; exact h }
  else .full

/-- `poll_recv`. -/
def recv (c : Channel α capacity) : Received α capacity :=
  match c.queue.head? with
  | some a => .value a { c with queue := c.queue.tail, bounded := Nat.le_trans (List.tail_sublist _).length_le c.bounded }
  | none => if c.sender then .empty else .ended

/-- Drop the sender. -/
def dropSender (c : Channel α capacity) : Channel α capacity := { c with sender := false }

/-- Drop the receiver, and what is queued with it. -/
def dropReceiver (c : Channel α capacity) : Channel α capacity :=
  { c with queue := [], receiver := false, bounded := Nat.zero_le _ }

theorem of_send_sent (h : c.send a = .sent d) :
    d.queue = c.queue ++ [a] ∧ d.sender = c.sender ∧ d.receiver = true ∧ c.receiver = true := by
  unfold send at h
  split at h
  · cases h
  · rename_i hr
    split at h
    · cases h
      exact ⟨rfl, rfl, by simpa using hr, by simpa using hr⟩
    · cases h

theorem send_closed : c.send a = .closed ↔ c.receiver = false := by
  unfold send
  split
  · simp [*]
  · split <;> simp [*]

theorem send_full : c.send a = .full ↔ c.receiver = true ∧ c.queue.length = capacity := by
  have := c.bounded
  unfold send
  split
  · simp [*]
  · rename_i hr
    split
    · simp only [reduceCtorEq, false_iff]
      omega
    · simp only [Bool.not_eq_false] at hr
      simp only [hr, true_and, true_iff]
      omega

theorem of_recv_value (h : c.recv = .value a d) :
    c.queue = a :: d.queue ∧ d.sender = c.sender ∧ d.receiver = c.receiver := by
  unfold recv at h
  split at h
  · rename_i b hb
    cases h
    exact ⟨(List.cons_head?_tail hb).symm, rfl, rfl⟩
  · split at h <;> cases h

theorem recv_empty : c.recv = .empty ↔ c.queue = [] ∧ c.sender = true := by
  rw [← List.head?_eq_none_iff]
  unfold recv
  split
  · simp [*]
  · split <;> simp [*]

theorem recv_ended : c.recv = .ended ↔ c.queue = [] ∧ c.sender = false := by
  rw [← List.head?_eq_none_iff]
  unfold recv
  split
  · simp [*]
  · split <;> simp [*]

end Channel

/-! ## File descriptors -/

/-- The registration of a file descriptor with the reactor, for one direction. -/
structure Registration where
  ready : Bool
  /-- The number of events so far. -/
  tick : Nat
  /-- A task has left its waker. -/
  waiting : Bool
  deriving DecidableEq, Repr

namespace Registration

/-- A new registration: nothing is known to be ready. -/
def new : Registration := ⟨false, 0, false⟩

/-- `poll_read_ready`: the tick of the readiness that it found, or a waker left. -/
def pollReady (r : Registration) : Option Nat × Registration :=
  if r.ready then (some r.tick, r) else (none, { r with waiting := true })

/-- `clear_ready`, by a caller that found the readiness of `tick`. -/
def clear (r : Registration) (tick : Nat) : Registration := if r.tick = tick then { r with ready := false } else r

/-- The reactor learns of an event; it wakes the task that waits. -/
def notify (r : Registration) : Registration := ⟨true, r.tick + 1, false⟩

end Registration

end Tokio
