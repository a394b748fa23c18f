import AceTun.Device.Contract
import AceTun.Platform.Netcfg
import AceTun.Tokio

/-!
# The packet device on Linux and macOS

The device is a file descriptor of which each `read` takes one datagram, registered with the runtime's reactor. A
`poll_read` asks whether the descriptor may be ready, reads into a scratch buffer, and copies the packet out of it; if
there was nothing to read it clears the readiness and asks again. `Device` is the kernel's queue, the reactor and the
task that polls. A step is an arrival, the reactor's handling of an event, or the task's next operation on state that it
shares with the reactor, so that runs are the interleavings of all three.

- both systems are packet devices (`refines`): no datagram is read in part, twice or with bytes of an earlier one;
- readiness is never cleared behind the back of an event (`Inv.step`), so no datagram is slept through, and a queued one
  is read after six steps of the reactor and the task at the latest, in whatever order they are taken (`rank_step`).
-/

namespace AceTun.TunDevice

open RustStd Transition Tokio

/-! ## What is done with a datagram -/

/-- What the two systems do differently: how a datagram carries its packet, and what `poll_read` makes of the first
`received` bytes of the scratch buffer. What is in the buffer behind them does not matter. -/
structure Backend where
  framing : Framing
  bufferLen : Nat
  onReceived : (packet : Bytes) → (received room : Nat) → PollRead
  faithful : ∀ datagram rest room, onReceived (datagram ++ rest) datagram.length room = readOf framing datagram room

namespace Linux

/-- The device is opened with `IFF_NO_PI`: its packets are bare. -/
def framing : Framing := .ok

def onReceived (packet : Bytes) (received room : Nat) : PollRead :=
  if received > room then .pending true else .ready (packet.take received)

theorem onReceived_faithful (datagram rest : Bytes) (room : Nat) :
    onReceived (datagram ++ rest) datagram.length room = readOf framing datagram room := by
  simp only [onReceived, readOf, framing, List.take_left]
  split <;> split <;> first | rfl | omega

def backend : Backend := ⟨framing, MAX_PACKET, onReceived, onReceived_faithful⟩

end Linux

namespace Macos

def AF_HEADER_LEN : Nat := 4

def shortRead : Fault := .invalidData "utun read shorter than its AF header".toList

/-- A datagram is the header and the packet. -/
def framing : Framing := fun datagram =>
  if datagram.length < AF_HEADER_LEN then .error shortRead else .ok (datagram.drop AF_HEADER_LEN)

def onReceived (packet : Bytes) (received room : Nat) : PollRead :=
  if received < AF_HEADER_LEN then .failed shortRead
  else
    let packet := (packet.take received).drop AF_HEADER_LEN
    if packet.length > room then .pending true else .ready packet

theorem onReceived_faithful (datagram rest : Bytes) (room : Nat) :
    onReceived (datagram ++ rest) datagram.length room = readOf framing datagram room := by
  simp only [onReceived, readOf, framing, List.take_left]
  split
  · rfl
  · dsimp only
    split <;> split <;> first | rfl | omega

def backend : Backend := ⟨framing, AF_HEADER_LEN + MAX_PACKET, onReceived, onReceived_faithful⟩

end Macos

/-- The backend of each system. -/
def backend : Unix → Backend
  | .linux => Linux.backend
  | .macos => Macos.backend

/-! ## The kernel, the reactor and the task -/

/-- A scratch buffer. -/
abbrev Scratch (n : Nat) : Type := { bytes : Bytes // bytes.length = n }

namespace Scratch

variable {n : Nat}

/-- `vec![0u8; n]`. -/
def zeroed (n : Nat) : Scratch n := ⟨List.replicate n 0, List.length_replicate⟩

/-- `read` copies as much of a datagram into the buffer as fits, and says how much it was. -/
def read (buf : Scratch n) (datagram : Bytes) : Nat × Scratch n :=
  (min datagram.length n,
    ⟨datagram.take (min datagram.length n) ++ buf.1.drop (min datagram.length n), by
      rw [List.length_append, List.length_take, List.length_drop, buf.2]
      omega⟩)

theorem read_of_le {buf : Scratch n} {datagram : Bytes} (h : datagram.length ≤ n) :
    (buf.read datagram).1 = datagram.length ∧ ∃ rest, (buf.read datagram).2.1 = datagram ++ rest := by
  simp [read, Nat.min_eq_left h]

end Scratch

namespace Fd

/-- Where a `poll_read` is. -/
inductive Pc where
  /-- No call is under way. -/
  | idle
  /-- Before `poll_read_ready`. -/
  | asking (room : Nat)
  /-- Before the `read`, with the tick of the readiness that it was granted on. -/
  | reading (room tick : Nat)
  /-- The `read` said `WouldBlock`; before `try_io` clears the readiness. -/
  | clearing (room tick : Nat)
  deriving DecidableEq, Repr

structure Device (b : Backend) where
  /-- The datagrams that the kernel holds. -/
  queue : List Bytes
  /-- The kernel has an event that the reactor has not handled. -/
  event : Bool
  fd : Registration
  packet : Scratch b.bufferLen
  pc : Pc
  /-- The task runs, or will be polled. -/
  awake : Bool
  arrived : List Bytes
  readings : List Reading

inductive Action where
  | arrive (datagram : Bytes)
  /-- The reactor handles an event. -/
  | react
  /-- The task calls `poll_read`. -/
  | poll (room : Nat)
  /-- The call goes on. -/
  | go
  /-- The call returns the error of the registration or of the `read`. -/
  | fail
  deriving DecidableEq, Repr

/-- The steps of the reactor and of the task that do not come from outside. -/
def Action.inner : Action → Bool
  | .react | .poll _ | .go => true
  | .arrive _ | .fail => false

namespace Device

/-- `TunDevice::new`, in a task that runs. -/
def new (b : Backend) : Device b := ⟨[], false, .new, .zeroed b.bufferLen, .idle, true, [], []⟩

variable {b : Backend}

/-- The kernel copies a datagram into the scratch buffer, and `poll_read` returns. A task that gets a result runs on. -/
def receive (s : Device b) (room : Nat) (datagram : Bytes) (rest : List Bytes) : Device b :=
  let (received, packet) := s.packet.read datagram
  let result := b.onReceived packet.1 received room
  { s with
    queue := rest, packet, pc := .idle, awake := s.awake || result != .pending false
    readings := s.readings ++ [⟨datagram, room, result⟩] }

/-- The next operation of a `poll_read`. -/
def go (s : Device b) : Option (Device b) :=
  match s.pc with
  | .idle => none
  | .asking room =>
    match s.fd.pollReady with
    | (some tick, fd) => some { s with fd, pc := .reading room tick }
    | (none, fd) => some { s with fd, pc := .idle }
  | .reading room tick =>
    match s.queue with
    | [] => some { s with pc := .clearing room tick }
    | datagram :: rest => some (s.receive room datagram rest)
  | .clearing room tick => some { s with fd := s.fd.clear tick, pc := .asking room }

/-- What can happen next. An IP packet has no more than `MAX_PACKET` bytes, so no datagram is longer than the buffer. -/
def step (s : Device b) : Action → Option (Device b)
  | .arrive datagram =>
    if datagram.length ≤ b.bufferLen then
      some { s with queue := s.queue ++ [datagram], event := true, arrived := s.arrived ++ [datagram] }
    else none
  | .react =>
    if s.event then some { s with event := false, fd := s.fd.notify, awake := s.awake || s.fd.waiting } else none
  | .poll room => if s.pc = .idle ∧ s.awake = true then some { s with pc := .asking room, awake := false } else none
  | .go => s.go
  | .fail =>
    match s.pc with
    | .asking _ | .reading _ _ => some { s with pc := .idle, awake := true }
    | .idle | .clearing _ _ => none

/-- The descriptor as a packet device. -/
def view (s : Device b) : Contract := ⟨s.arrived, s.queue, s.readings, [], false⟩

variable {s t : Device b}

theorem of_fail (h : s.step .fail = some t) : s.pc ≠ .idle ∧ t = { s with pc := .idle, awake := true } := by
  simp only [step] at h
  cases hpc : s.pc with
  | idle => simp [hpc] at h
  | asking room => simpa [hpc, eq_comm] using h
  | reading room tick => simpa [hpc, eq_comm] using h
  | clearing room tick => simp [hpc] at h

/-! ## The invariant -/

/-- What holds of every device that is reached. -/
structure Inv (s : Device b) : Prop where
  fits : ∀ datagram ∈ s.queue, datagram.length ≤ b.bufferLen
  /-- A queued datagram is announced, to the reactor or to the task. -/
  announced : s.queue ≠ [] → s.event = true ∨ s.fd.ready = true
  /-- The task does not know of events to come. -/
  tick_le : ∀ room tick, s.pc = .reading room tick ∨ s.pc = .clearing room tick → tick ≤ s.fd.tick
  /-- The readiness that is about to be cleared does not stand for a queued datagram. -/
  stale : ∀ room, s.pc = .clearing room s.fd.tick → s.queue ≠ [] → s.event = true
  /-- A task that sleeps has left its waker. -/
  asleep : s.pc = .idle → s.awake = false → s.fd.waiting = true ∧ s.fd.ready = false
  /-- A task is woken only when it sleeps. -/
  calling : s.pc ≠ .idle → s.awake = false
  /-- Only a task that sleeps leaves its waker. -/
  waker : s.fd.waiting = true → s.pc = .idle ∧ s.awake = false

/-- A task that holds no tick has nothing to clear. -/
theorem inv_of_no_tick (hf : ∀ datagram ∈ s.queue, datagram.length ≤ b.bufferLen)
    (ha : s.queue ≠ [] → s.event = true ∨ s.fd.ready = true)
    (hpc : ∀ room tick, s.pc ≠ .reading room tick ∧ s.pc ≠ .clearing room tick)
    (hs : s.pc = .idle → s.awake = false → s.fd.waiting = true ∧ s.fd.ready = false)
    (hc : s.pc ≠ .idle → s.awake = false) (hw : s.fd.waiting = true → s.pc = .idle ∧ s.awake = false) : Inv s where
  fits := hf
  announced := ha
  tick_le := fun room tick hp => hp.elim (absurd · (hpc room tick).1) (absurd · (hpc room tick).2)
  stale := fun room hp => absurd hp (hpc room s.fd.tick).2
  asleep := hs
  calling := hc
  waker := hw

theorem inv_new : Inv (new b) :=
  inv_of_no_tick (fun _ h => nomatch h) (fun h => absurd rfl h) (by simp [new])
    (fun _ h => nomatch h) (fun h => absurd rfl h) (fun h => nomatch h)

/-- A task that runs has no waker left. -/
theorem Inv.not_waiting (h : Inv s) (hpc : s.pc ≠ .idle) : s.fd.waiting = false := by
  cases hw : s.fd.waiting with
  | false => rfl
  | true => exact absurd (h.waker hw).1 hpc

/-- The scratch buffer holds the datagram and what was behind it, and the call returns what the device owes. -/
theorem receive_eq {room : Nat} {datagram : Bytes} {rest : List Bytes} (h : Inv s) (hq : s.queue = datagram :: rest) :
    s.receive room datagram rest =
      { s with
        queue := rest, packet := (s.packet.read datagram).2, pc := .idle, awake := true
        readings := s.readings ++ [⟨datagram, room, readOf b.framing datagram room⟩] } := by
  obtain ⟨hlen, behind, hbytes⟩ := s.packet.read_of_le (h.fits datagram (by simp [hq]))
  have hne : readOf b.framing datagram room ≠ .pending false := by
    unfold readOf
    split
    · simp
    · split <;> simp
  simp [receive, hlen, hbytes, b.faithful, hne]

theorem Inv.go (h : Inv s) (hs : s.go = some t) : Inv t := by
  simp only [Device.go] at hs
  split at hs
  · cases hs
  · rename_i room hpc
    cases hr : s.fd.ready with
    | true =>
      simp only [Registration.pollReady, hr, if_true] at hs
      cases hs
      have hbusy : s.pc ≠ .idle := by simp [hpc]
      refine ⟨h.fits, h.announced, ?_, (fun _ hc => nomatch hc), (fun hc => nomatch hc), fun _ => h.calling hbusy,
        fun hw => absurd hw (by simp [h.not_waiting hbusy])⟩
      rintro room tick (hp | hp)
      · cases hp
        exact Nat.le_refl _
      · cases hp
    | false =>
      simp only [Registration.pollReady, hr, Bool.false_eq_true, if_false] at hs
      cases hs
      have hbusy : s.pc ≠ .idle := by simp [hpc]
      refine inv_of_no_tick h.fits (fun hq => ?_) (by simp) (fun _ _ => ⟨rfl, rfl⟩) (fun hc => absurd rfl hc)
        fun _ => ⟨rfl, h.calling hbusy⟩
      have := h.announced hq
      rwa [hr] at this
  · rename_i room tick hpc
    have hbusy : s.pc ≠ .idle := by simp [hpc]
    split at hs
    · rename_i hq
      cases hs
      refine ⟨h.fits, h.announced, ?_, fun _ _ hne => absurd hq hne, (fun hc => nomatch hc), fun _ => h.calling hbusy,
        fun hw => absurd hw (by simp [h.not_waiting hbusy])⟩
      rintro room tick (hp | hp)
      · cases hp
      · cases hp
        exact h.tick_le room tick (.inl hpc)
    · rename_i datagram rest hq
      rw [receive_eq h hq] at hs
      cases hs
      exact inv_of_no_tick (fun d hd => h.fits d (by simp [hq, hd])) (fun _ => h.announced (by simp [hq])) (by simp)
        (fun _ ha => nomatch ha) (fun hc => absurd rfl hc) fun hw => absurd hw (by simp [h.not_waiting hbusy])
  · rename_i room tick hpc
    cases hs
    have hbusy : s.pc ≠ .idle := by simp [hpc]
    have hwaiting : (s.fd.clear tick).waiting = false := by
      rw [Registration.clear]
      split <;> exact h.not_waiting hbusy
    refine inv_of_no_tick h.fits (fun hq => ?_) (by simp) (fun hc => nomatch hc) (fun _ => h.calling hbusy)
      fun hw => absurd hw (by simp [hwaiting])
    -- either an event came after the readiness that is cleared, and it is kept, or nothing new is queued
    unfold Registration.clear
    split
    · rename_i ht
      exact .inl (h.stale room (ht ▸ hpc) hq)
    · exact h.announced hq

theorem Inv.step {a : Action} (h : Inv s) (hs : s.step a = some t) : Inv t := by
  cases a with
  | arrive datagram =>
    simp only [Device.step] at hs
    split at hs
    · rename_i hfit
      cases hs
      refine ⟨fun d hd => ?_, fun _ => .inl rfl, h.tick_le, fun _ _ _ => rfl, h.asleep, h.calling, h.waker⟩
      rcases List.mem_append.mp hd with hd | hd
      · exact h.fits d hd
      · rw [List.mem_singleton.mp hd]
        exact hfit
    · cases hs
  | react =>
    simp only [Device.step] at hs
    split at hs
    · cases hs
      refine ⟨h.fits, fun _ => .inr rfl, fun room tick hp => ?_, fun room hp => ?_, fun hp ha => ?_, fun hp => ?_,
        fun hw => nomatch hw⟩
      · exact (h.tick_le room tick hp).trans (Nat.le_succ _)
      · have := h.tick_le room _ (.inr hp)
        exact absurd this (by simp [Registration.notify])
      · -- whoever sleeps has left a waker, and is woken
        rw [Bool.or_eq_false_iff] at ha
        have := (h.asleep hp ha.1).1
        rw [ha.2] at this
        exact nomatch this
      · exact Bool.or_eq_false_iff.mpr ⟨h.calling hp, h.not_waiting hp⟩
    · cases hs
  | poll room =>
    simp only [Device.step] at hs
    split at hs
    · rename_i hidle
      cases hs
      refine inv_of_no_tick h.fits h.announced (by simp) (fun hc => nomatch hc) (fun _ => rfl) fun hw => ?_
      have := (h.waker hw).2
      rw [hidle.2] at this
      exact nomatch this
    · cases hs
  | go => exact h.go hs
  | fail =>
    obtain ⟨hbusy, rfl⟩ := of_fail hs
    exact inv_of_no_tick h.fits h.announced (by simp) (fun _ ha => nomatch ha) (fun hc => absurd rfl hc)
      fun hw => absurd (h.waker hw).1 hbusy

theorem inv_of_exec {actions : List Action} (h : exec step (new b) actions = some s) : Inv s :=
  exec_invariant (fun _ _ _ hs ht => hs.step ht) inv_new h

/-! ## The descriptor is a packet device -/

/-- One step is none or one of the device. -/
theorem simulates {a : Action} (h : Inv s) (hs : s.step a = some t) :
    ∃ events, exec (Contract.step b.framing) s.view events = some t.view := by
  cases a with
  | arrive datagram =>
    simp only [step] at hs
    split at hs
    · cases hs
      exact ⟨[.arrive datagram], rfl⟩
    · cases hs
  | react =>
    simp only [step] at hs
    split at hs
    · cases hs
      exact ⟨[], rfl⟩
    · cases hs
  | poll room =>
    simp only [step] at hs
    split at hs
    · cases hs
      exact ⟨[], rfl⟩
    · cases hs
  | go =>
    simp only [step, go] at hs
    split at hs
    · cases hs
    · split at hs
      · cases hs
        exact ⟨[], rfl⟩
      · cases hs
        exact ⟨[], rfl⟩
    · rename_i room tick hpc
      split at hs
      · cases hs
        exact ⟨[], rfl⟩
      · rename_i datagram rest hq
        rw [receive_eq h hq] at hs
        cases hs
        exact ⟨[.read room], by simp [exec, Contract.step, view, hq]⟩
    · cases hs
      exact ⟨[], rfl⟩
  | fail =>
    obtain ⟨-, rfl⟩ := of_fail hs
    exact ⟨[], rfl⟩

/-- **The descriptor refines the packet device.** -/
theorem refines (b : Backend) : Refines (step : Device b → Action → _) (Contract.step b.framing) Inv view :=
  ⟨fun _ _ _ h hs => h.step hs, fun _ _ _ h hs => simulates h hs⟩

/-- **One packet per read, whole, once and in order, on both systems**: a datagram that arrived was read or is queued,
and a read returns the packet of its own datagram and nothing of what the scratch buffer held before. -/
theorem unix_reads_each_packet_once (u : Unix) (actions : List Action) {s : Device (backend u)}
    (h : exec step (new (backend u)) actions = some s) :
    (∃ events, exec (Contract.step (backend u).framing) .new events = some s.view) ∧
      s.arrived = s.readings.map Reading.datagram ++ s.queue ∧
      ∀ r ∈ s.readings, r.result =
        match u with
        | .linux => if r.datagram.length ≤ r.room then .ready r.datagram else .pending true
        | .macos =>
          if r.datagram.length < 4 then .failed Macos.shortRead
          else if r.datagram.length - 4 ≤ r.room then .ready (r.datagram.drop 4) else .pending true := by
  obtain ⟨-, events, hrun⟩ := (refines (backend u)).run inv_new h
  have hkept : s.view.Kept (backend u).framing := Contract.kept_of_exec hrun
  refine ⟨⟨events, hrun⟩, by simpa [view] using hkept.conserved, fun r hr => ?_⟩
  rw [hkept.faithful r hr]
  cases u with
  | linux => rfl
  | macos =>
    by_cases hl : r.datagram.length < 4
    · simp [backend, Macos.backend, readOf, Macos.framing, Macos.AF_HEADER_LEN, hl]
    · simp [backend, Macos.backend, readOf, Macos.framing, Macos.AF_HEADER_LEN, hl]

/-- Two datagrams, the second shorter than the first and than its buffer, and a third that is too long. -/
theorem unix_reads_each_packet_once_sample :
    ∃ s, exec step (new (backend .macos))
        [.arrive [0, 0, 0, 2, 69, 1, 2], .arrive [0, 0, 0, 2, 70], .react, .arrive [0, 0, 0, 30, 96, 96], .poll 3, .go, .go,
          .poll 3, .go, .go, .poll 1, .go, .go] = some s ∧
      s.readings.map Reading.result = [.ready [69, 1, 2], .ready [70], .pending true] ∧
      s.arrived = s.readings.map Reading.datagram ++ s.queue :=
  ⟨_, rfl, rfl, (unix_reads_each_packet_once .macos
    [.arrive [0, 0, 0, 2, 69, 1, 2], .arrive [0, 0, 0, 2, 70], .react, .arrive [0, 0, 0, 30, 96, 96], .poll 3, .go, .go,
      .poll 3, .go, .go, .poll 1, .go, .go] rfl).2.1⟩

/-! ## Progress -/

/-- How many steps of the reactor and the task there can be until a queued datagram is read. -/
def rank (s : Device b) : Nat :=
  match s.pc with
  | .idle => if s.fd.ready then 3 + s.event.toNat else if s.awake then 6 else 4
  | .asking _ => if s.fd.ready then 2 + s.event.toNat else 5
  | .reading _ _ => 1 + s.event.toNat
  | .clearing _ tick => if (s.fd.clear tick).ready then 3 + s.event.toNat else 6

theorem rank_bounds (s : Device b) : 0 < s.rank ∧ s.rank ≤ 6 := by
  have := s.event.toNat_le
  unfold rank
  split
  · split
    · omega
    · split <;> omega
  · split <;> omega
  · omega
  · split <;> omega

/-- A step adds to the readings or leaves them. -/
theorem readings_step {a : Action} (h : Inv s) (hs : s.step a = some t) : s.readings <+: t.readings := by
  obtain ⟨events, hrun⟩ := simulates h hs
  exact exec_invariant (I := fun c : Contract => s.readings <+: c.readings)
    (fun c e d hc hd => hc.trans (Contract.readings_step hd)) List.prefix_rfl hrun

/-- Nor does a run take any back. -/
theorem readings_exec {actions : List Action} (h : Inv s) (hs : exec step s actions = some t) :
    s.readings <+: t.readings :=
  (exec_invariant (I := fun u => Inv u ∧ s.readings <+: u.readings)
    (fun _ _ _ hu hv => ⟨hu.1.step hv, hu.2.trans (readings_step hu.1 hv)⟩) ⟨h, List.prefix_rfl⟩ hs).2

section Reads

variable {datagram : Bytes} {rest : List Bytes} (h : Inv s) (hq : s.queue = datagram :: rest)

include h hq

/-- A task that sleeps on a datagram has an event to wake it. -/
theorem event_of_asleep (hpc : s.pc = .idle) (ha : s.awake = false) : s.event = true := by
  simpa [(h.asleep hpc ha).2] using h.announced (by simp [hq])

/-- The reactor or the task can go on. -/
theorem inner_enabled : ∃ a t, Action.inner a = true ∧ s.step a = some t := by
  cases hpc : s.pc with
  | idle =>
    cases ha : s.awake with
    | true => exact ⟨.poll 0, _, rfl, by simp [step, hpc, ha]; rfl⟩
    | false => exact ⟨.react, _, rfl, by simp [step, event_of_asleep h hq hpc ha]; rfl⟩
  | asking room => cases hr : s.fd.ready <;> exact ⟨.go, _, rfl, by simp [step, go, hpc, Registration.pollReady, hr]; rfl⟩
  | reading room tick => exact ⟨.go, _, rfl, by simp [step, go, hpc, hq]; rfl⟩
  | clearing room tick => exact ⟨.go, _, rfl, by simp [step, go, hpc]; rfl⟩

/-- **Each of their steps** reads the datagram, or brings them closer to it. -/
theorem rank_step {a : Action} (ha : a.inner = true) (hs : s.step a = some t) :
    (∃ r, t.readings = s.readings ++ [r] ∧ r.datagram = datagram) ∨
      t.queue = s.queue ∧ t.readings = s.readings ∧ t.rank < s.rank := by
  cases a with
  | arrive datagram => cases ha
  | fail => cases ha
  | react =>
    simp only [step, Option.ite_none_right_eq_some, Option.some.injEq] at hs
    obtain ⟨he, rfl⟩ := hs
    refine .inr ⟨rfl, rfl, ?_⟩
    cases hpc : s.pc with
    | idle =>
      simp only [rank, hpc, he, Registration.notify, if_true, Bool.toNat_false, Bool.toNat_true]
      split
      · omega
      · split <;> omega
    | asking room =>
      simp only [rank, hpc, he, Registration.notify, if_true, Bool.toNat_false, Bool.toNat_true]
      split <;> omega
    | reading room tick => simp [rank, hpc, he]
    | clearing room tick =>
      -- the event is newer than the readiness that is cleared
      have hready : (s.fd.notify.clear tick).ready = true := by
        have := h.tick_le room tick (.inr hpc)
        rw [Registration.clear, if_neg (by simp only [Registration.notify]; omega)]
        rfl
      simp only [rank, hpc, he, hready, if_true, Bool.toNat_false, Bool.toNat_true]
      split <;> omega
  | poll room =>
    simp only [step, Option.ite_none_right_eq_some, Option.some.injEq] at hs
    obtain ⟨⟨hpc, hawake⟩, rfl⟩ := hs
    refine .inr ⟨rfl, rfl, ?_⟩
    simp only [rank, hpc, hawake, if_true]
    split <;> omega
  | go =>
    simp only [step, go] at hs
    cases hpc : s.pc with
    | idle => simp [hpc] at hs
    | asking room =>
      have hawake := h.calling (by simp [hpc])
      cases hr : s.fd.ready with
      | true =>
        simp only [hpc, Registration.pollReady, hr, if_true, Option.some.injEq] at hs
        subst hs
        exact .inr ⟨rfl, rfl, by simp [rank, hpc, hr]⟩
      | false =>
        simp only [hpc, Registration.pollReady, hr, Bool.false_eq_true, if_false, Option.some.injEq] at hs
        subst hs
        exact .inr ⟨rfl, rfl, by simp [rank, hpc, hr, hawake]⟩
    | reading room tick =>
      simp only [hpc, hq, Option.some.injEq] at hs
      rw [receive_eq h hq] at hs
      subst hs
      exact .inl ⟨_, rfl, rfl⟩
    | clearing room tick =>
      simp only [hpc, Option.some.injEq] at hs
      subst hs
      refine .inr ⟨rfl, rfl, ?_⟩
      simp only [rank, hpc]
      split <;> omega

end Reads

/-- **Their steps in any order**: the datagram is read, or they have come closer to it by each of them. -/
theorem rank_exec {datagram : Bytes} {rest : List Bytes} (h : Inv s) (hq : s.queue = datagram :: rest)
    {actions : List Action} (ha : ∀ a ∈ actions, a.inner = true) (hs : exec step s actions = some t) :
    (∃ r, s.readings ++ [r] <+: t.readings ∧ r.datagram = datagram) ∨
      t.queue = s.queue ∧ t.readings = s.readings ∧ actions.length + t.rank ≤ s.rank := by
  induction actions generalizing s with
  | nil =>
    cases hs
    exact .inr ⟨rfl, rfl, by simp⟩
  | cons a actions ih =>
    obtain ⟨u, hu, hs⟩ := Option.bind_eq_some_iff.mp hs
    have hactions : ∀ x ∈ actions, x.inner = true := fun x hx => ha x (List.mem_cons_of_mem _ hx)
    rcases rank_step h hq (ha a List.mem_cons_self) hu with ⟨r, hread, hr⟩ | ⟨hqueue, hread, hrank⟩
    · exact .inl ⟨r, hread ▸ readings_exec (h.step hu) hs, hr⟩
    · rcases ih (h.step hu) (hqueue.trans hq) hactions hs with ⟨r, hr⟩ | ⟨hqueue', hread', hrank'⟩
      · exact .inl ⟨r, hread ▸ hr⟩
      · exact .inr ⟨hqueue'.trans hqueue, hread'.trans hread, by rw [List.length_cons]; omega⟩

/-- **No datagram is slept through**, in any interleaving of the kernel, the reactor and the task: while the task sleeps,
a queued datagram has an event that the reactor has yet to handle and that wakes the task. From wherever they are and in
whatever order they go on, the reactor and the task have read it after six steps, and until then one of them can take
the next. -/
theorem unix_wakes_for_datagrams (u : Unix) (actions : List Action) {s : Device (backend u)}
    (h : exec step (new (backend u)) actions = some s) (datagram : Bytes) (rest : List Bytes)
    (hq : s.queue = datagram :: rest) :
    (s.pc = .idle → s.awake = false →
      ∃ t, s.step .react = some t ∧ t.awake = true ∧ t.fd.ready = true) ∧
      ∀ inner t, (∀ a ∈ inner, Action.inner a = true) → exec step s inner = some t →
        (∃ r, s.readings ++ [r] <+: t.readings ∧ r.datagram = datagram) ∨
          inner.length < 6 ∧ t.readings = s.readings ∧ ∃ a v, Action.inner a = true ∧ t.step a = some v := by
  have hinv := inv_of_exec h
  refine ⟨fun hpc ha => ?_, fun inner t hinner ht => ?_⟩
  · obtain ⟨hw, -⟩ := hinv.asleep hpc ha
    have he := event_of_asleep hinv hq hpc ha
    exact ⟨{ s with event := false, fd := s.fd.notify, awake := true }, by simp [step, he, ha, hw], rfl, rfl⟩
  · rcases rank_exec hinv hq hinner ht with hread | ⟨hqueue, hread, hrank⟩
    · exact .inl hread
    · have hinv' : Inv t := exec_invariant (fun _ _ _ hv hw => hv.step hw) hinv ht
      have hs := s.rank_bounds
      have ht := t.rank_bounds
      exact .inr ⟨by omega, hread, inner_enabled hinv' (hqueue.trans hq)⟩

/-- A datagram arrives after the task found nothing to read and before it clears the readiness. -/
theorem unix_wakes_for_datagrams_sample :
    ∃ s, exec step (new (backend .linux))
        [.arrive [69], .react, .poll 4, .go, .go, .poll 4, .go, .go, .arrive [70], .go, .go] = some s ∧
      s.pc = .idle ∧ s.awake = false ∧ ∃ t, s.step .react = some t ∧ t.awake = true ∧ t.fd.ready = true :=
  ⟨_, rfl, rfl, rfl, (unix_wakes_for_datagrams .linux
    [.arrive [69], .react, .poll 4, .go, .go, .poll 4, .go, .go, .arrive [70], .go, .go] rfl [70] [] rfl).1 rfl rfl⟩

end Device

end Fd

end AceTun.TunDevice
