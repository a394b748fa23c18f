import AceTun.Transition
import AceTun.RustStd.Stream

/-!
# What a packet device owes

The backends differ in how packets get from the system to `poll_read`, but the device is the same everywhere: one IP
packet per read. `Contract` is that device without a backend. Datagrams arrive in an order; a read takes the next one
off the device and puts the packet in it into the caller's buffer, whole, or drops it if the buffer has no room for it
(`readOf`). Only a device that is closed loses datagrams otherwise.

So every datagram is read exactly once and in order, or is still on the device (`Contract.kept_of_exec`).
-/

namespace AceTun.TunDevice

open RustStd Transition

/-- The length of the largest IP packet. -/
def MAX_PACKET : Nat := 65535

/-- The `io::Error`s of the device: its own ones, and what the system reports. -/
inductive Fault where
  | invalidInput (message : Str)
  | invalidData (message : Str)
  | os (e : IoError)
  deriving DecidableEq, Repr

/-- What `poll_read` comes to. -/
inductive PollRead where
  /-- `Ready(Ok(()))`, after these bytes were put into the buffer. -/
  | ready (bytes : Bytes)
  | failed (e : Fault)
  /-- `Pending`; with `woken`, the task has asked to be polled again. -/
  | pending (woken : Bool)
  deriving DecidableEq, Repr

/-- A datagram that `poll_read` took off the device, the room in the caller's buffer and what the call came to. -/
structure Reading where
  datagram : Bytes
  room : Nat
  result : PollRead
  deriving DecidableEq, Repr

/-- The packet in a datagram. -/
abbrev Framing : Type := Bytes → Except Fault Bytes

/-- What a read owes to the datagram that it takes. -/
def readOf (framing : Framing) (datagram : Bytes) (room : Nat) : PollRead :=
  match framing datagram with
  | .error e => .failed e
  | .ok packet => if packet.length ≤ room then .ready packet else .pending true

/-- A device, with its history. -/
structure Contract where
  arrived : List Bytes
  pending : List Bytes
  readings : List Reading
  lost : List Bytes
  closed : Bool
  deriving DecidableEq, Repr

namespace Contract

/-- A new device. -/
def new : Contract := ⟨[], [], [], [], false⟩

inductive Event where
  | arrive (datagram : Bytes)
  /-- A read into a buffer with this much room. -/
  | read (room : Nat)
  | close
  /-- A closed device lets go of a datagram. -/
  | lose

variable {framing : Framing} {c d : Contract}

/-- What may happen to a device. -/
def step (framing : Framing) (c : Contract) : Event → Option Contract
  | .arrive datagram => some { c with arrived := c.arrived ++ [datagram], pending := c.pending ++ [datagram] }
  | .read room =>
    match c.pending with
    | [] => none
    | datagram :: rest =>
      if c.closed then none
      else some { c with
        pending := rest, readings := c.readings ++ [⟨datagram, room, readOf framing datagram room⟩] }
  | .close => some { c with closed := true }
  | .lose =>
    match c.pending with
    | [] => none
    | datagram :: rest => if c.closed then some { c with pending := rest, lost := c.lost ++ [datagram] } else none

/-- Every datagram was read once and in order, or was lost when the device was closed, or is still to be read. -/
structure Kept (framing : Framing) (c : Contract) : Prop where
  conserved : c.arrived = c.readings.map Reading.datagram ++ c.lost ++ c.pending
  lost_closed : c.closed = false → c.lost = []
  faithful : ∀ r ∈ c.readings, r.result = readOf framing r.datagram r.room

theorem kept_new : Kept framing new := ⟨rfl, fun _ => rfl, fun _ h => nomatch h⟩

theorem Kept.step {e : Event} (h : Kept framing c) (hs : c.step framing e = some d) : Kept framing d := by
  cases e with
  | arrive datagram =>
    cases hs
    exact ⟨by simp [h.conserved], h.lost_closed, h.faithful⟩
  | read room =>
    simp only [Contract.step] at hs
    split at hs
    · cases hs
    · rename_i datagram rest hp
      split at hs
      · cases hs
      · rename_i hc
        cases hs
        -- nothing is lost yet, so the datagram that is read comes right after those read before it
        have hl := h.lost_closed (by simpa using hc)
        refine ⟨by simp [h.conserved, hl, hp], h.lost_closed, fun r hr => ?_⟩
        rcases List.mem_append.mp hr with hr | hr
        · exact h.faithful r hr
        · rw [List.mem_singleton.mp hr]
  | close =>
    cases hs
    exact ⟨h.conserved, (fun hc => nomatch hc), h.faithful⟩
  | lose =>
    simp only [Contract.step] at hs
    split at hs
    · cases hs
    · rename_i datagram rest hp
      split at hs
      · rename_i hc
        cases hs
        exact ⟨by simp [h.conserved, hp], fun ho => absurd hc (by simpa using ho), h.faithful⟩
      · cases hs

/-- **A device reads every datagram once and in order.** -/
theorem kept_of_exec {events : List Event} (h : exec (Contract.step framing) new events = some c) : Kept framing c :=
  exec_invariant (fun _ _ _ hc hs => hc.step hs) kept_new h

/-- What was read stays read. -/
theorem readings_step {e : Event} (hs : c.step framing e = some d) : c.readings <+: d.readings := by
  cases e with
  | arrive datagram =>
    cases hs
    exact List.prefix_rfl
  | read room =>
    simp only [step] at hs
    split at hs
    · cases hs
    · split at hs
      · cases hs
      · cases hs
        exact List.prefix_append ..
  | close =>
    cases hs
    exact List.prefix_rfl
  | lose =>
    simp only [step] at hs
    split at hs
    · cases hs
    · split at hs
      · cases hs
        exact List.prefix_rfl
      · cases hs

/-- A closed device may let go of all that is next. -/
theorem exec_lose (hc : c.closed = true) (ds : List Bytes) {rest : List Bytes} (hp : c.pending = ds ++ rest) :
    exec (Contract.step framing) c (ds.map fun _ => Event.lose) =
      some { c with pending := rest, lost := c.lost ++ ds } := by
  induction ds generalizing c with
  | nil =>
    obtain ⟨arrived, pending, readings, lost, closed⟩ := c
    cases hp
    simp [exec]
  | cons d ds ih =>
    have hstep : c.step framing .lose = some { c with pending := ds ++ rest, lost := c.lost ++ [d] } := by
      simp [Contract.step, hp, hc]
    rw [List.map_cons, exec, hstep, Option.bind_some]
    refine (ih (c := { c with pending := ds ++ rest, lost := c.lost ++ [d] }) hc rfl).trans ?_
    simp

end Contract

end AceTun.TunDevice
