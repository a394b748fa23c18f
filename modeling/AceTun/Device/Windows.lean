import AceTun.Device.Contract
import AceTun.Tokio

/-!
# The packet device on Windows

A thread waits for packets in WinTun's receive ring and forwards them over a bounded channel, and `poll_read` takes them
out of the channel. `Pump` is the ring, the thread, the channel and the task that polls, with a step for each thing that
can happen next, in any order: a packet arrives, the session is shut down, the thread makes its next call, the task polls
with some room in its buffer, the device is dropped.

- the pump is a packet device (`refines`): no order of these steps loses, repeats or reorders a packet;
- a task that waits is woken for every packet and for the end (`Inv`), and after the end nothing is read (`Ended.step`);
- when the thread cannot go on (`blocked_iff`), and how soon it is gone after a teardown (`rank_step`).
-/

namespace AceTun.TunDevice.Windows

open RustStd Transition Tokio

/-- How many packets may sit between the reader thread and the netstack. -/
def READ_QUEUE_DEPTH : Nat := 1024

/-- WinTun's packets are bare. -/
def framing : Framing := .ok

/-- The channel between the reader thread and the device. -/
abbrev Rx : Type := Channel Bytes READ_QUEUE_DEPTH

/-- Where the reader thread is. -/
inductive Reader where
  /-- In `receive_blocking`. -/
  | receiving
  /-- In `blocking_send`, with a packet that is copied out of the ring. -/
  | sending (packet : Bytes)
  | ended
  deriving DecidableEq, Repr

/-- What the thread has in hand. -/
def Reader.hand : Reader → List Bytes
  | .receiving => []
  | .sending packet => [packet]
  | .ended => []

/-- How many calls the thread can still make after a teardown. -/
def Reader.rank : Reader → Nat
  | .receiving => 2
  | .sending _ => 1
  | .ended => 0

theorem Reader.rank_le (r : Reader) : r.rank ≤ 2 := by
  cases r <;> simp [rank]

/-- `poll_read`, with `room` in the buffer. -/
def pollRead (rx : Rx) (room : Nat) : PollRead × Rx :=
  match rx.recv with
  | .value packet rx => if packet.length > room then (.pending true, rx) else (.ready packet, rx)
  | .ended => (.ready [], rx)
  | .empty => (.pending false, rx)

/-- The ring, the thread, the channel and the task that polls the device, with their history. -/
structure Pump where
  /-- What is in the receive ring; the driver has dropped what did not fit. -/
  ring : List Bytes
  /-- The session is shut down, or its adapter is gone. -/
  stopped : Bool
  reader : Reader
  rx : Rx
  /-- The task waits to be woken by the channel. -/
  parked : Bool
  arrived : List Bytes
  readings : List Reading
  lost : List Bytes

inductive Action where
  | arrive (packet : Bytes)
  | stop
  /-- `receive_blocking` returns a packet. -/
  | receive
  /-- `receive_blocking` returns an error. -/
  | receiveFails
  /-- `blocking_send` returns. -/
  | forward
  | poll (room : Nat)
  /-- The device is dropped. -/
  | drop
  deriving DecidableEq, Repr

/-- The steps of the reader thread. -/
def Action.ofReader : Action → Bool
  | .receive | .receiveFails | .forward => true
  | .arrive _ | .stop | .poll _ | .drop => false

namespace Pump

/-- `TunDevice::new`: an open session and a running thread. -/
def new : Pump := ⟨[], false, .receiving, .new, false, [], [], []⟩

/-- The thread returns; its sender is dropped, which wakes the task. -/
def endReader (s : Pump) : Pump := { s with reader := .ended, rx := s.rx.dropSender, parked := false }

/-- What can happen next. -/
def step (s : Pump) : Action → Option Pump
  | .arrive packet => some { s with ring := s.ring ++ [packet], arrived := s.arrived ++ [packet] }
  | .stop => some { s with stopped := true }
  | .receive =>
    match s.reader, s.ring with
    | .receiving, packet :: ring => some { s with ring, reader := .sending packet }
    | _, _ => none
  | .receiveFails => if s.reader = .receiving ∧ s.stopped = true then some s.endReader else none
  | .forward =>
    match s.reader with
    | .sending packet =>
      match s.rx.send packet with
      | .sent rx => some { s with rx, reader := .receiving, parked := false }
      | .full => none
      | .closed => some { s.endReader with lost := s.lost ++ [packet] }
    | _ => none
  | .poll room =>
    if s.parked = true ∨ s.rx.receiver = false then none
    else
      let (result, rx) := pollRead s.rx room
      some { s with
        rx
        parked := result == .pending false
        readings := s.readings ++ (s.rx.queue.head?.map fun packet => ⟨packet, room, result⟩).toList }
  | .drop =>
    if s.rx.receiver = false then none
    else some { s with rx := s.rx.dropReceiver, parked := false, lost := s.lost ++ s.rx.queue }

/-- The pump as a packet device. -/
def view (s : Pump) : Contract where
  arrived := s.arrived
  pending := s.rx.queue ++ s.reader.hand ++ s.ring
  readings := s.readings
  lost := s.lost
  closed := !s.rx.receiver

end Pump

/-! ## One poll -/

theorem readOf_ne_parked (packet : Bytes) (room : Nat) : readOf framing packet room ≠ .pending false := by
  simp only [readOf, framing]
  split <;> simp

/-- A poll that finds a packet takes it as the device owes it; the other polls find the end, or wait. -/
theorem pollRead_cases (rx : Rx) (room : Nat) :
    (∃ packet rest, rx.queue = packet :: rest ∧
      pollRead rx room = (readOf framing packet room, (pollRead rx room).2) ∧ (pollRead rx room).2.queue = rest) ∨
    (rx.queue = [] ∧ rx.sender = false ∧ pollRead rx room = (.ready [], rx)) ∨
    (rx.queue = [] ∧ rx.sender = true ∧ pollRead rx room = (.pending false, rx)) := by
  cases hr : rx.recv with
  | value packet rx' =>
    obtain ⟨hq, -⟩ := Channel.of_recv_value hr
    have hp : pollRead rx room = (readOf framing packet room, rx') := by
      simp only [pollRead, hr, readOf, framing]
      split <;> split <;> first | rfl | omega
    refine .inl ⟨packet, rx'.queue, hq, ?_, ?_⟩
    · rw [hp]
    · rw [hp]
  | ended =>
    obtain ⟨hq, hs⟩ := Channel.recv_ended.mp hr
    exact .inr (.inl ⟨hq, hs, by simp only [pollRead, hr]⟩)
  | empty =>
    obtain ⟨hq, hs⟩ := Channel.recv_empty.mp hr
    exact .inr (.inr ⟨hq, hs, by simp only [pollRead, hr]⟩)

/-- A poll leaves both ends of the channel as they are. -/
theorem pollRead_ends (rx : Rx) (room : Nat) :
    (pollRead rx room).2.sender = rx.sender ∧ (pollRead rx room).2.receiver = rx.receiver := by
  cases hr : rx.recv with
  | value packet rx' =>
    obtain ⟨-, hs, ht⟩ := Channel.of_recv_value hr
    simp only [pollRead, hr]
    split
    · exact ⟨hs, ht⟩
    · exact ⟨hs, ht⟩
  | ended => simp [pollRead, hr]
  | empty => simp [pollRead, hr]

namespace Pump

variable {s t : Pump}

/-! ## Wake-ups -/

/-- What holds of every pump that is reached: the sender is the thread's, a dropped channel is empty, and a task is only
parked on an open channel with nothing in it. -/
structure Inv (s : Pump) : Prop where
  sender : s.rx.sender = false ↔ s.reader = .ended
  dropped : s.rx.receiver = false → s.rx.queue = []
  parked : s.parked = true → s.rx.receiver = true ∧ s.rx.queue = [] ∧ s.reader ≠ .ended

theorem inv_new : Inv new := ⟨by decide, fun _ => rfl, fun h => nomatch h⟩

theorem Inv.endReader (h : Inv s) : Inv s.endReader :=
  ⟨⟨fun _ => rfl, fun _ => rfl⟩, h.dropped, fun hp => nomatch hp⟩

theorem Inv.step {a : Action} (h : Inv s) (hs : s.step a = some t) : Inv t := by
  cases a with
  | arrive packet =>
    cases hs
    exact ⟨h.sender, h.dropped, h.parked⟩
  | stop =>
    cases hs
    exact ⟨h.sender, h.dropped, h.parked⟩
  | receive =>
    simp only [Pump.step] at hs
    split at hs
    · rename_i packet ring hr _
      cases hs
      have hne : s.reader ≠ .ended := by simp [hr]
      refine ⟨?_, h.dropped, fun hp => ?_⟩
      · simp only [reduceCtorEq, iff_false]
        exact fun hf => hne (h.sender.mp hf)
      · obtain ⟨h1, h2, -⟩ := h.parked hp
        exact ⟨h1, h2, by simp⟩
    · cases hs
  | receiveFails =>
    simp only [Pump.step] at hs
    split at hs
    · cases hs
      exact h.endReader
    · cases hs
  | forward =>
    simp only [Pump.step] at hs
    split at hs
    · rename_i packet hr
      have hne : s.reader ≠ .ended := by simp [hr]
      split at hs
      · rename_i rx hsend
        obtain ⟨-, hsnd, hrcv, -⟩ := Channel.of_send_sent hsend
        cases hs
        refine ⟨?_, fun hf => ?_, fun hp => nomatch hp⟩
        · simp only [reduceCtorEq, iff_false, hsnd]
          exact fun hf => hne (h.sender.mp hf)
        · rw [hrcv] at hf
          exact nomatch hf
      · cases hs
      · cases hs
        exact ⟨h.endReader.sender, h.endReader.dropped, h.endReader.parked⟩
    · cases hs
  | poll room =>
    simp only [Pump.step] at hs
    split at hs
    · cases hs
    · rename_i hopen
      rw [not_or, Bool.not_eq_true, Bool.not_eq_false] at hopen
      cases hs
      obtain ⟨hsnd, hrcv⟩ := pollRead_ends s.rx room
      refine ⟨by rw [hsnd]; exact h.sender, fun hf => ?_, fun hp => ?_⟩
      · rw [hrcv, hopen.2] at hf
        exact nomatch hf
      · -- only a poll that found the channel open and empty leaves the task parked
        simp only [beq_iff_eq] at hp
        rcases pollRead_cases s.rx room with ⟨packet, rest, hq, hpoll, -⟩ | ⟨hq, -, hpoll⟩ | ⟨hq, hs, hpoll⟩
        · rw [hpoll] at hp
          exact absurd hp (readOf_ne_parked packet room)
        · rw [hpoll] at hp
          exact nomatch hp
        · rw [hpoll]
          refine ⟨hopen.2, hq, fun he => ?_⟩
          rw [h.sender.mpr he] at hs
          exact nomatch hs
  | drop =>
    simp only [Pump.step] at hs
    split at hs
    · cases hs
    · cases hs
      exact ⟨h.sender, fun _ => rfl, fun hp => nomatch hp⟩

theorem inv_of_exec {actions : List Action} (h : exec step new actions = some s) : Inv s :=
  exec_invariant (fun _ _ _ hs ht => hs.step ht) inv_new h

/-! ## The pump is a packet device -/

/-- One step of the pump is none, one or, when the device is dropped, several of the device. -/
theorem simulates {a : Action} (h : Inv s) (hs : s.step a = some t) :
    ∃ events, exec (Contract.step framing) s.view events = some t.view := by
  cases a with
  | arrive packet =>
    cases hs
    exact ⟨[.arrive packet], by simp [exec, Contract.step, view]⟩
  | stop =>
    cases hs
    exact ⟨[], rfl⟩
  | receive =>
    simp only [Pump.step] at hs
    split at hs
    · rename_i packet ring hr hring
      cases hs
      exact ⟨[], by simp [exec, view, hr, hring, Reader.hand]⟩
    · cases hs
  | receiveFails =>
    simp only [Pump.step] at hs
    split at hs
    · rename_i hr
      cases hs
      exact ⟨[], by simp [exec, view, hr.1, Reader.hand, endReader, Channel.dropSender]⟩
    · cases hs
  | forward =>
    simp only [Pump.step] at hs
    split at hs
    · rename_i packet hr
      split at hs
      · rename_i rx hsend
        obtain ⟨hq, -, hrcv, hrcv'⟩ := Channel.of_send_sent hsend
        cases hs
        exact ⟨[], by simp [exec, view, hr, Reader.hand, hq, hrcv, hrcv']⟩
      · cases hs
      · rename_i hclosed
        have hrcv := Channel.send_closed.mp hclosed
        cases hs
        -- the receiver is gone and its queue with it, so what the thread has in hand is next to be lost
        refine ⟨[.lose], ?_⟩
        simp [exec, Contract.step, view, hr, Reader.hand, h.dropped hrcv, hrcv, endReader, Channel.dropSender]
    · cases hs
  | poll room =>
    simp only [Pump.step] at hs
    split at hs
    · cases hs
    · rename_i hopen
      rw [not_or, Bool.not_eq_true, Bool.not_eq_false] at hopen
      cases hs
      obtain ⟨-, hrcv⟩ := pollRead_ends s.rx room
      rcases pollRead_cases s.rx room with ⟨packet, rest, hq, hpoll, hrest⟩ | ⟨hq, -, hpoll⟩ | ⟨hq, -, hpoll⟩
      · refine ⟨[.read room], ?_⟩
        have hres : (pollRead s.rx room).1 = readOf framing packet room := by rw [hpoll]
        simp [exec, Contract.step, view, hq, hopen.2, hrcv, hrest, hres]
      · exact ⟨[], by simp [exec, view, hq, hpoll]⟩
      · exact ⟨[], by simp [exec, view, hq, hpoll]⟩
  | drop =>
    simp only [Pump.step] at hs
    split at hs
    · cases hs
    · cases hs
      refine ⟨.close :: s.rx.queue.map fun _ => .lose, ?_⟩
      have hlose := @Contract.exec_lose framing { s.view with closed := true } rfl s.rx.queue (s.reader.hand ++ s.ring)
        (by simp [view])
      rw [exec, Contract.step, Option.bind_some, hlose]
      simp [view, Channel.dropReceiver]

/-- **The pump refines the packet device.** -/
theorem refines : Refines step (Contract.step framing) Inv view :=
  ⟨fun _ _ _ h hs => h.step hs, fun _ _ _ h hs => simulates h hs⟩

/-- A packet is read whole, one is dropped by a read without room for it, and one is lost with the device. -/
def sampleRun : List Action :=
  [.poll 4, .arrive [69, 0], .arrive [69, 1, 1], .receive, .arrive [96], .forward, .receive, .poll 4, .forward, .receive,
    .forward, .poll 2, .arrive [69, 2], .receive, .drop, .forward, .arrive [69, 3]]

/-- **One packet per read, whole, once and in order**, whatever the order of the steps: until the device is dropped, a
packet that arrived was read, or is in the channel, in the thread's hand or in the ring. -/
theorem pump_reads_each_packet_once (actions : List Action) (h : exec step new actions = some s) :
    (∃ events, exec (Contract.step framing) .new events = some s.view) ∧
      s.arrived = s.readings.map Reading.datagram ++ s.lost ++ (s.rx.queue ++ s.reader.hand ++ s.ring) ∧
      (s.rx.receiver = true → s.lost = []) ∧
      ∀ r ∈ s.readings, r.result = if r.datagram.length ≤ r.room then .ready r.datagram else .pending true := by
  obtain ⟨-, events, hrun⟩ := refines.run inv_new h
  have hkept : s.view.Kept framing := Contract.kept_of_exec hrun
  exact ⟨⟨events, hrun⟩, hkept.conserved, fun hr => hkept.lost_closed (by simp [view, hr]), hkept.faithful⟩

theorem pump_reads_each_packet_once_sample :
    ∃ s, exec step new sampleRun = some s ∧
      s.readings = [⟨[69, 0], 4, .ready [69, 0]⟩, ⟨[69, 1, 1], 2, .pending true⟩] ∧ s.lost = [[96], [69, 2]] ∧
      s.arrived = s.readings.map Reading.datagram ++ s.lost ++ (s.rx.queue ++ s.reader.hand ++ s.ring) :=
  ⟨_, rfl, rfl, rfl, (pump_reads_each_packet_once sampleRun rfl).2.1⟩

/-! ## The end of the device -/

/-- The thread is gone and all it forwarded is read. -/
structure Ended (s : Pump) : Prop where
  reader : s.reader = .ended
  queue : s.rx.queue = []

/-- What has ended stays so, and nothing is read any more. -/
theorem Ended.step {a : Action} (h : Ended s) (hs : s.step a = some t) : Ended t ∧ t.readings = s.readings := by
  cases a with
  | arrive packet =>
    cases hs
    exact ⟨⟨h.reader, h.queue⟩, rfl⟩
  | stop =>
    cases hs
    exact ⟨⟨h.reader, h.queue⟩, rfl⟩
  | receive => simp [Pump.step, h.reader] at hs
  | receiveFails => simp [Pump.step, h.reader] at hs
  | forward => simp [Pump.step, h.reader] at hs
  | poll room =>
    simp only [Pump.step] at hs
    split at hs
    · cases hs
    · cases hs
      rcases pollRead_cases s.rx room with ⟨packet, rest, hq, -⟩ | ⟨hq, -, hpoll⟩ | ⟨hq, -, hpoll⟩
      · rw [h.queue] at hq
        exact nomatch hq
      · exact ⟨⟨h.reader, by rw [hpoll]; exact hq⟩, by simp [hq]⟩
      · exact ⟨⟨h.reader, by rw [hpoll]; exact hq⟩, by simp [hq]⟩
  | drop =>
    simp only [Pump.step] at hs
    split at hs
    · cases hs
    · cases hs
      exact ⟨⟨h.reader, rfl⟩, rfl⟩

theorem Ended.exec {actions : List Action} (h : Ended s) (hs : exec Pump.step s actions = some t) :
    Ended t ∧ t.readings = s.readings :=
  exec_invariant (I := fun u => Ended u ∧ u.readings = s.readings)
    (fun _ _ _ hu hv => ⟨(hu.1.step hv).1, (hu.1.step hv).2.trans hu.2⟩) ⟨h, rfl⟩ hs

/-- A poll reports the end of the device when it has ended; an empty packet would look the same. -/
theorem pollRead_eq_end (h : Inv s) (room : Nat) :
    (pollRead s.rx room).1 = .ready [] ↔ s.rx.queue.head? = some [] ∨ Ended s := by
  rcases pollRead_cases s.rx room with ⟨packet, rest, hq, hpoll, -⟩ | ⟨hq, hs, hpoll⟩ | ⟨hq, hs, hpoll⟩
  · have hne : ¬ Ended s := fun he => by simp [he.queue] at hq
    rw [hpoll, or_iff_left hne, hq]
    simp only [readOf, framing, List.head?_cons, Option.some.injEq]
    split
    · exact PollRead.ready.injEq packet [] ▸ Iff.rfl
    · rename_i hroom
      simp only [reduceCtorEq, false_iff]
      intro he
      simp [he] at hroom
  · rw [hpoll]
    exact ⟨fun _ => .inr ⟨h.sender.mp hs, hq⟩, fun _ => rfl⟩
  · rw [hpoll, hq]
    have hne : ¬ Ended s := fun he => by simp [h.sender.mpr he.reader] at hs
    simp [hne]

/-- **No packet is slept through, and the end is the end**: a task waits only while there is nothing to read and the
thread runs; a poll reports the end only when the thread is gone and all it forwarded is read; and from then on every
poll does, and nothing is read. -/
theorem pump_wakes_for_packets_and_end (actions : List Action) (h : exec step new actions = some s) :
    (s.parked = true → s.rx.queue = [] ∧ s.reader ≠ .ended) ∧
      (∀ room, (pollRead s.rx room).1 = .ready [] ↔ s.rx.queue.head? = some [] ∨ Ended s) ∧
      (Ended s → ∀ more t, exec step s more = some t →
        t.readings = s.readings ∧ ∀ room, (pollRead t.rx room).1 = .ready []) := by
  have hinv := inv_of_exec h
  refine ⟨fun hp => (hinv.parked hp).2, pollRead_eq_end hinv, fun he more t ht => ?_⟩
  obtain ⟨hend, hread⟩ := he.exec ht
  have hinv' : Inv t := exec_invariant (fun _ _ _ hu hv => hu.step hv) hinv ht
  exact ⟨hread, fun room => (pollRead_eq_end hinv' room).mpr (.inr hend)⟩

/-- The session is shut down while the task waits; the thread ends and the task is told. -/
theorem pump_wakes_for_packets_and_end_sample :
    ∃ s, exec step new [.arrive [69], .receive, .poll 4, .forward, .poll 4, .poll 4, .stop, .receiveFails] = some s ∧
      s.parked = false ∧ s.readings = [⟨[69], 4, .ready [69]⟩] ∧
      ∀ more t, exec step s more = some t → t.readings = s.readings ∧ ∀ room, (pollRead t.rx room).1 = .ready [] :=
  ⟨_, rfl, rfl, rfl, (pump_wakes_for_packets_and_end
    [.arrive [69], .receive, .poll 4, .forward, .poll 4, .poll 4, .stop, .receiveFails] rfl).2.2 ⟨rfl, rfl⟩⟩

/-! ## The end of the thread -/

/-- When the thread is in a call that does not return: nothing has arrived and the session is up, or the channel is full
and nobody polls the device. -/
theorem blocked_iff (s : Pump) :
    (∀ a, a.ofReader = true → s.step a = none) ↔
      s.reader = .ended ∨ (s.reader = .receiving ∧ s.ring = [] ∧ s.stopped = false) ∨
        ∃ packet, s.reader = .sending packet ∧ s.rx.receiver = true ∧ s.rx.queue.length = READ_QUEUE_DEPTH := by
  cases hr : s.reader with
  | receiving =>
    refine ⟨fun h => .inr (.inl ⟨rfl, ?_, ?_⟩), fun h a ha => ?_⟩
    · have := h .receive rfl
      cases hring : s.ring with
      | nil => rfl
      | cons packet ring => simp [step, hr, hring] at this
    · have := h .receiveFails rfl
      simpa [step, hr] using this
    · simp only [reduceCtorEq, true_and, false_or, false_and, exists_false, or_false] at h
      cases a <;> simp [Action.ofReader] at ha <;> simp [step, hr, h.1, h.2]
  | sending packet =>
    refine ⟨fun h => .inr (.inr ⟨packet, rfl, ?_⟩), fun h a ha => ?_⟩
    · have := h .forward rfl
      cases hsend : s.rx.send packet with
      | sent rx => simp [step, hr, hsend] at this
      | full => exact Channel.send_full.mp hsend
      | closed => simp [step, hr, hsend] at this
    · simp only [reduceCtorEq, false_and, false_or, Reader.sending.injEq, exists_eq_left'] at h
      have hfull : s.rx.send packet = .full := Channel.send_full.mpr h
      cases a <;> simp [Action.ofReader] at ha <;> simp [step, hr, hfull]
  | ended =>
    refine ⟨fun _ => .inl rfl, fun _ a ha => ?_⟩
    cases a <;> simp [Action.ofReader] at ha <;> simp [step, hr]

/-- The session is shut down and the device is dropped. -/
structure TornDown (s : Pump) : Prop where
  stopped : s.stopped = true
  receiver : s.rx.receiver = false

/-- After a teardown, a call of the thread brings it closer to its end, and nothing else moves it. -/
theorem TornDown.step {a : Action} (h : TornDown s) (hs : s.step a = some t) :
    TornDown t ∧ a.ofReader.toNat + t.reader.rank ≤ s.reader.rank := by
  cases a with
  | arrive packet =>
    cases hs
    exact ⟨⟨h.stopped, h.receiver⟩, by simp [Action.ofReader]⟩
  | stop =>
    cases hs
    exact ⟨⟨rfl, h.receiver⟩, by simp [Action.ofReader]⟩
  | receive =>
    simp only [Pump.step] at hs
    split at hs
    · rename_i packet ring hr _
      cases hs
      exact ⟨⟨h.stopped, h.receiver⟩, by simp [Action.ofReader, hr, Reader.rank]⟩
    · cases hs
  | receiveFails =>
    simp only [Pump.step] at hs
    split at hs
    · rename_i hr
      cases hs
      exact ⟨⟨h.stopped, h.receiver⟩, by simp [Action.ofReader, hr.1, Reader.rank, endReader]⟩
    · cases hs
  | forward =>
    simp only [Pump.step] at hs
    split at hs
    · rename_i packet hr
      rw [Channel.send_closed.mpr h.receiver] at hs
      cases hs
      exact ⟨⟨h.stopped, h.receiver⟩, by simp [Action.ofReader, hr, Reader.rank, endReader]⟩
    · cases hs
  | poll room => simp [Pump.step, h.receiver] at hs
  | drop => simp [Pump.step, h.receiver] at hs

theorem TornDown.exec {actions : List Action} (h : TornDown s) (hs : exec Pump.step s actions = some t) :
    actions.countP Action.ofReader + t.reader.rank ≤ s.reader.rank := by
  induction actions generalizing s with
  | nil =>
    cases hs
    simp
  | cons a actions ih =>
    obtain ⟨u, hu, hs⟩ := Option.bind_eq_some_iff.mp hs
    obtain ⟨hdown, hrank⟩ := h.step hu
    have := ih hdown hs
    rw [List.countP_cons]
    cases ha : a.ofReader with
    | false =>
      simp only [ha, Bool.toNat_false] at hrank
      simp only [Bool.false_eq_true, if_false]
      omega
    | true =>
      simp only [ha, Bool.toNat_true] at hrank
      simp only [if_true]
      omega

/-- **Joining the thread**: it is stuck only while the session is up and nothing arrives, or behind a full channel of a
device that is not dropped. Once the session is shut down and the device is dropped it always has a next call until it
is gone, and it makes no more than two. -/
theorem reader_ends_after_teardown (s : Pump) :
    ((∀ a, a.ofReader = true → s.step a = none) ↔
      s.reader = .ended ∨ (s.reader = .receiving ∧ s.ring = [] ∧ s.stopped = false) ∨
        ∃ packet, s.reader = .sending packet ∧ s.rx.receiver = true ∧ s.rx.queue.length = READ_QUEUE_DEPTH) ∧
      (s.stopped = true ∧ s.rx.receiver = false → ∀ actions t, exec step s actions = some t →
        actions.countP Action.ofReader ≤ 2 ∧
          ((∀ a, a.ofReader = true → t.step a = none) ↔ t.reader = .ended)) := by
  refine ⟨blocked_iff s, fun ⟨hs, hr⟩ actions t ht => ?_⟩
  have hdown : TornDown s := ⟨hs, hr⟩
  have hdown' : TornDown t := exec_invariant (fun _ _ _ hu hv => (hu.step hv).1) hdown ht
  refine ⟨?_, ?_⟩
  · have := hdown.exec ht
    have := s.reader.rank_le
    omega
  · rw [blocked_iff]
    simp [hdown'.stopped, hdown'.receiver]

/-- The session is shut down and the device is dropped while the thread has a packet in hand: it is gone after one call. -/
theorem reader_ends_after_teardown_sample :
    ∃ s t, exec step new [.arrive [69], .receive, .stop, .drop] = some s ∧ s.reader = .sending [69] ∧
      exec step s [.forward] = some t ∧ ∀ a, a.ofReader = true → t.step a = none := by
  obtain ⟨s, t, hs, hreader, hdown, ht, hended⟩ :
      ∃ s t, exec step new [.arrive [69], .receive, .stop, .drop] = some s ∧ s.reader = .sending [69] ∧
        (s.stopped = true ∧ s.rx.receiver = false) ∧ exec step s [.forward] = some t ∧ t.reader = .ended :=
    ⟨_, _, rfl, rfl, ⟨rfl, rfl⟩, rfl, rfl⟩
  exact ⟨s, t, hs, hreader, ht, ((reader_ends_after_teardown s).2 hdown _ t ht).2.mpr hended⟩

end Pump

end AceTun.TunDevice.Windows
