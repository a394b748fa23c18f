import AceTun.Netstack.Routines
import AceTun.Transition

/-!
# The life of a UDP relay

The loop of `handle_udp` waits for a datagram of the client or of the server, each with a timer of its own, and starts
both timers anew whenever one came. `Relay` is the loop on a clock: what arrives on either side and when, when the task
is polled, and which of the two branches the `select!` polls first. The events that it wakes up to are those of
`relayUdp`.

- a relay always ends (`Relay.rank_step`, `relayUdp_returns`), and what came before is handled in order;
- it ends by a timer only after 30 seconds without a datagram in either direction (`Relay.Inv`);
- if the task is polled on time, it then has handled all that came (`Relay.Punctual`).
-/

namespace AceTun

open RustStd Transition AceTun.Flow

variable {R : RegexCrate}

/-- `UDP_IDLE_TIMEOUT`: 30 seconds. -/
def UDP_IDLE_TIMEOUT : Nat := 30 * 1000000000

/-- The loop is left on this event. -/
def UdpEvent.ends : UdpEvent → Bool
  | .idle => true
  | .clientClosed => true
  | .client _ _ => false
  | .serverFailed => true
  | .server _ _ _ failed => failed.isSome

/-- What a read of the intercepted stream gives: bytes, with how sending them on goes, or an error. -/
inductive ClientArrival where
  | read (bytes : Bytes) (failed : Option IoError)
  | error
  deriving DecidableEq, Repr

/-- A read of nothing is the end of the stream, as an error is. -/
def ClientArrival.event : ClientArrival → UdpEvent
  | .read [] _ => .clientClosed
  | .read bytes failed => .client bytes failed
  | .error => .clientClosed

/-- What comes from the socket: a datagram, with how writing it to the client goes, or an error. -/
inductive ServerArrival where
  | recv (bytes : Bytes) (failed : Option IoError)
  | error
  deriving DecidableEq, Repr

def ServerArrival.event (now : Nat) (delays : List Nat) : ServerArrival → UdpEvent
  | .recv bytes failed => .server bytes now delays failed
  | .error => .serverFailed

/-- A relay loop before its next `select!`, with what is still to arrive on both sides and when. -/
structure Relay where
  /-- When the timers were started. -/
  since : Nat
  client : List (Nat × ClientArrival)
  server : List (Nat × ServerArrival)
  /-- What the loop woke up to, oldest first. -/
  events : List (Nat × UdpEvent)
  ended : Bool
  deriving DecidableEq, Repr

/-- How late the task is polled, which branch comes first, and how long the steps of the branch that runs take: what it
learns, name by name, and then its write. -/
structure Polled where
  delay : Nat
  clientFirst : Bool
  busy : List Nat
  deriving DecidableEq, Repr

/-- What a branch of the `select!` is ready with. -/
inductive Woken where
  | idle
  | client (arrival : ClientArrival) (rest : List (Nat × ClientArrival))
  | server (arrival : ServerArrival) (rest : List (Nat × ServerArrival))

namespace Relay

def init (start : Nat) (client : List (Nat × ClientArrival)) (server : List (Nat × ServerArrival)) : Relay :=
  ⟨start, client, server, [], false⟩

/-- When the timers fire. -/
def deadline (s : Relay) : Nat := s.since + UDP_IDLE_TIMEOUT

/-- The next arrival of a side is due then, or nothing comes before the timer fires. -/
def due {α : Type} (deadline : Nat) (arrivals : List (Nat × α)) : Nat := arrivals.head?.elim deadline Prod.fst

/-- When the first of the two branches gets ready. -/
def wake (s : Relay) : Nat := max s.since (min s.deadline (min (due s.deadline s.client) (due s.deadline s.server)))

/-- `timeout(UDP_IDLE_TIMEOUT, ..)` polls what it guards before its timer. -/
def pollGuarded {α : Type} (ready : α → List (Nat × α) → Woken) (deadline t : Nat) : List (Nat × α) → Option Woken
  | (time, arrival) :: rest =>
    if time ≤ t then some (ready arrival rest) else if deadline ≤ t then some .idle else none
  | [] => if deadline ≤ t then some .idle else none

/-- The branch that reads the intercepted stream. -/
def pollClient (s : Relay) (t : Nat) : Option Woken := pollGuarded .client s.deadline t s.client

/-- The branch that receives from the socket. -/
def pollServer (s : Relay) (t : Nat) : Option Woken := pollGuarded .server s.deadline t s.server

/-- The loop is left on the event, or goes around once its write is done. -/
def settle (s : Relay) (p : Polled) (t : Nat) (event : UdpEvent) : Relay :=
  { s with
    since := if event.ends then s.since else t + p.busy.sum
    events := s.events ++ [(t, event)]
    ended := event.ends }

/-- The body of the loop, at a time. -/
def handle (s : Relay) (p : Polled) (t : Nat) : Woken → Relay
  | .idle => s.settle p t .idle
  | .client arrival rest => { s with client := rest }.settle p t arrival.event
  | .server arrival rest => { s with server := rest }.settle p t (arrival.event t p.busy)

/-- The `select!`. -/
def select (s : Relay) (p : Polled) (t : Nat) : Option Woken :=
  if p.clientFirst then (s.pollClient t).or (s.pollServer t) else (s.pollServer t).or (s.pollClient t)

/-- One turn of the loop. -/
def step (s : Relay) (p : Polled) : Option Relay :=
  if s.ended then none else (s.select p (s.wake + p.delay)).map (s.handle p (s.wake + p.delay))

variable {s t : Relay} {p : Polled}

/-! ## One turn -/

/-- What a poll finds: an arrival, or the timer. -/
theorem of_pollGuarded {α : Type} {ready : α → List (Nat × α) → Woken} {deadline now : Nat} {arrivals : List (Nat × α)}
    {w : Woken} (h : pollGuarded ready deadline now arrivals = some w) :
    (w = .idle ∧ deadline ≤ now) ∨ ∃ time arrival rest, w = ready arrival rest ∧ arrivals = (time, arrival) :: rest := by
  unfold pollGuarded at h
  split at h
  · rename_i time arrival rest
    split at h
    · cases h
      exact .inr ⟨time, arrival, rest, rfl, rfl⟩
    · split at h
      · cases h
        exact .inl ⟨rfl, by assumption⟩
      · cases h
  · split at h
    · cases h
      exact .inl ⟨rfl, by assumption⟩
    · cases h

theorem pollGuarded_isSome {α : Type} {ready : α → List (Nat × α) → Woken} {deadline now : Nat}
    {arrivals : List (Nat × α)} (h : due deadline arrivals ≤ now ∨ deadline ≤ now) :
    (pollGuarded ready deadline now arrivals).isSome := by
  unfold pollGuarded
  split
  · split
    · rfl
    · rename_i hlate
      rw [if_pos (h.resolve_left hlate)]
      rfl
  · have hd : deadline ≤ now := h.elim id id
    rw [if_pos hd]
    rfl

/-- **What one turn does**: the timer fires, or the next arrival of one side is handled. -/
theorem step_cases (h : s.step p = some t) :
    s.ended = false ∧
      ((s.deadline ≤ s.wake + p.delay ∧ t = s.handle p (s.wake + p.delay) .idle) ∨
        (∃ time arrival rest, s.client = (time, arrival) :: rest ∧
          t = s.handle p (s.wake + p.delay) (.client arrival rest)) ∨
        ∃ time arrival rest, s.server = (time, arrival) :: rest ∧
          t = s.handle p (s.wake + p.delay) (.server arrival rest)) := by
  unfold step at h
  split at h
  · cases h
  · rename_i he
    refine ⟨by simpa using he, ?_⟩
    obtain ⟨w, hw, rfl⟩ := Option.map_eq_some_iff.mp h
    have hw : s.pollClient (s.wake + p.delay) = some w ∨ s.pollServer (s.wake + p.delay) = some w := by
      unfold select at hw
      split at hw
      · exact (Option.or_eq_some_iff.mp hw).imp id And.right
      · exact (Option.or_eq_some_iff.mp hw).symm.imp And.right id
    rcases hw with hw | hw
    · rcases of_pollGuarded hw with ⟨rfl, hd⟩ | ⟨time, arrival, rest, rfl, hc⟩
      · exact .inl ⟨hd, rfl⟩
      · exact .inr (.inl ⟨time, arrival, rest, hc, rfl⟩)
    · rcases of_pollGuarded hw with ⟨rfl, hd⟩ | ⟨time, arrival, rest, rfl, hc⟩
      · exact .inl ⟨hd, rfl⟩
      · exact .inr (.inr ⟨time, arrival, rest, hc, rfl⟩)

/-- A relay that has not ended has a next turn, however it is polled. -/
theorem step_isSome (h : s.ended = false) (p : Polled) : (s.step p).isSome := by
  unfold step
  rw [if_neg (by simp [h]), Option.isSome_map]
  -- at the time of the wake, an arrival is due or the timers are
  have hready : (s.pollClient (s.wake + p.delay)).isSome ∨ (s.pollServer (s.wake + p.delay)).isSome := by
    have hwake : min s.deadline (min (due s.deadline s.client) (due s.deadline s.server)) ≤ s.wake + p.delay :=
      (Nat.le_max_right _ _).trans (Nat.le_add_right _ _)
    rcases Nat.le_total s.deadline (s.wake + p.delay) with hd | hd
    · exact .inl (pollGuarded_isSome (.inr hd))
    · rcases Nat.le_total (due s.deadline s.client) (due s.deadline s.server) with hle | hle
      · exact .inl (pollGuarded_isSome (by omega))
      · exact .inr (pollGuarded_isSome (by omega))
  unfold select
  split
  · rw [Option.isSome_or]
    simpa using hready
  · rw [Option.isSome_or]
    simpa using hready.symm

/-- How many turns are left at most. -/
def rank (s : Relay) : Nat := s.client.length + s.server.length + (!s.ended).toNat

theorem rank_step (h : s.step p = some t) : t.rank < s.rank := by
  obtain ⟨he, ⟨-, rfl⟩ | ⟨time, arrival, rest, hc, rfl⟩ | ⟨time, arrival, rest, hc, rfl⟩⟩ := step_cases h
  · simp [rank, handle, settle, UdpEvent.ends, he]
  · have := Bool.toNat_le (!arrival.event.ends)
    simp only [rank, handle, settle, he, hc, List.length_cons, Bool.not_false, Bool.toNat_true]
    omega
  · have := Bool.toNat_le (!(arrival.event (s.wake + p.delay) p.busy).ends)
    simp only [rank, handle, settle, he, hc, List.length_cons, Bool.not_false, Bool.toNat_true]
    omega

end Relay

/-! ## What the relay loop makes of it -/

/-- A relay that wakes up to a last event returns. -/
theorem relayUdp_returns (isDns : Bool) {last : UdpEvent} (hlast : last.ends = true) : ∀ (events : List UdpEvent)
    (st : FlowState R), (∀ e ∈ events, e.ends = false) → (relayUdp isDns (events ++ [last]) st).1 = .ok ()
  | [], st, _ => by
    cases last with
    | idle => rfl
    | clientClosed => rfl
    | client bytes failed => cases hlast
    | serverFailed => rfl
    | server bytes now delays failed =>
      obtain ⟨e, rfl⟩ := Option.isSome_iff_exists.mp hlast
      change ((snoop isDns now delays bytes >>= _) st).1 = .ok ()
      rw [Async.bind_of_ok (snoop_run isDns now delays bytes st)]
      rfl
  | event :: events, st, h => by
    have hrest : ∀ e ∈ events, e.ends = false := fun e he => h e (List.mem_cons_of_mem _ he)
    have hevent := h event List.mem_cons_self
    cases event with
    | idle => cases hevent
    | clientClosed => cases hevent
    | client bytes failed =>
      cases failed with
      | none =>
        rw [List.cons_append, relayUdp, Async.bind_of_ok (emit_run _ st)]
        exact relayUdp_returns isDns hlast events _ hrest
      | some e =>
        rw [List.cons_append, relayUdp, Async.bind_of_ok (count_run _ st)]
        exact relayUdp_returns isDns hlast events _ hrest
    | serverFailed => cases hevent
    | server bytes now delays failed =>
      obtain rfl : failed = none := by simpa [UdpEvent.ends] using hevent
      change ((snoop isDns now delays bytes >>= _) st).1 = .ok ()
      rw [Async.bind_of_ok (snoop_run isDns now delays bytes st)]
      change ((Flow.emit _ >>= _) _).1 = .ok ()
      rw [Async.bind_of_ok (emit_run _ _)]
      exact relayUdp_returns isDns hlast events _ hrest

namespace Relay

variable {s t : Relay} {p : Polled}

/-! ## Every run -/

/-- What the loop saw of the client. -/
def clientEvents (events : List (Nat × UdpEvent)) : List UdpEvent :=
  events.filterMap fun e =>
    match e.2 with
    | .client bytes failed => some (.client bytes failed)
    | .clientClosed => some .clientClosed
    | _ => none

/-- What the loop saw of the server. -/
def serverEvents (events : List (Nat × UdpEvent)) : List ServerArrival :=
  events.filterMap fun e =>
    match e.2 with
    | .server bytes _ _ failed => some (.recv bytes failed)
    | .serverFailed => some .error
    | _ => none

@[simp]
theorem clientEvents_idle (events : List (Nat × UdpEvent)) (now : Nat) :
    clientEvents (events ++ [(now, .idle)]) = clientEvents events := by
  simp [clientEvents]

@[simp]
theorem serverEvents_idle (events : List (Nat × UdpEvent)) (now : Nat) :
    serverEvents (events ++ [(now, .idle)]) = serverEvents events := by
  simp [serverEvents]

@[simp]
theorem clientEvents_client (events : List (Nat × UdpEvent)) (now : Nat) (arrival : ClientArrival) :
    clientEvents (events ++ [(now, arrival.event)]) = clientEvents events ++ [arrival.event] := by
  rcases arrival with ⟨_ | ⟨b, bytes⟩, failed⟩ | _ <;> simp [clientEvents, ClientArrival.event]

@[simp]
theorem serverEvents_client (events : List (Nat × UdpEvent)) (now : Nat) (arrival : ClientArrival) :
    serverEvents (events ++ [(now, arrival.event)]) = serverEvents events := by
  rcases arrival with ⟨_ | ⟨b, bytes⟩, failed⟩ | _ <;> simp [serverEvents, ClientArrival.event]

@[simp]
theorem clientEvents_server (events : List (Nat × UdpEvent)) (now time : Nat) (delays : List Nat)
    (arrival : ServerArrival) : clientEvents (events ++ [(now, arrival.event time delays)]) = clientEvents events := by
  cases arrival <;> simp [clientEvents, ServerArrival.event]

@[simp]
theorem serverEvents_server (events : List (Nat × UdpEvent)) (now time : Nat) (delays : List Nat)
    (arrival : ServerArrival) :
    serverEvents (events ++ [(now, arrival.event time delays)]) = serverEvents events ++ [arrival] := by
  cases arrival <;> simp [serverEvents, ServerArrival.event]

/-- Of what arrives, this was handled in order, and the rest is still to come. -/
def Handled {α β : Type} (arrivals rest : List (Nat × α)) (event : α → β) (events : List β) : Prop :=
  ∃ handled, arrivals = handled ++ rest ∧ events = handled.map fun a => event a.2

theorem Handled.snoc {α β : Type} {arrivals rest : List (Nat × α)} {event : α → β} {events : List β} {a : Nat × α}
    (h : Handled arrivals (a :: rest) event events) : Handled arrivals rest event (events ++ [event a.2]) := by
  obtain ⟨handled, rfl, rfl⟩ := h
  exact ⟨handled ++ [a], by simp, by simp⟩

theorem Handled.sorted {α β : Type} {arrivals rest : List (Nat × α)} {event : α → β} {events : List β}
    (h : Handled arrivals rest event events) (hs : arrivals.Pairwise fun a b => a.1 ≤ b.1) {deadline now : Nat}
    (hdue : now ≤ due deadline rest) : ∀ a ∈ rest, now ≤ a.1 := by
  obtain ⟨handled, rfl, -⟩ := h
  have hrest := (List.pairwise_append.mp hs).2.1
  cases rest with
  | nil => simp
  | cons b rest =>
    have hb : now ≤ b.1 := hdue
    intro a ha
    rcases List.mem_cons.mp ha with rfl | ha
    · exact hb
    · exact hb.trans (List.rel_of_pairwise_cons hrest ha)

/-- What holds of every relay that is reached. -/
structure Inv (start : Nat) (client : List (Nat × ClientArrival)) (server : List (Nat × ServerArrival)) (s : Relay) :
    Prop where
  client : Handled client s.client (fun a => a.event) (clientEvents s.events)
  server : Handled server s.server id (serverEvents s.events)
  /-- Only the last event ends the loop. -/
  running : s.ended = false → ∀ e ∈ s.events, e.2.ends = false
  ended : s.ended = true → ∃ before last, s.events = before ++ [last] ∧ last.2.ends = true ∧
    ∀ e ∈ before, e.2.ends = false
  started : start ≤ s.since
  /-- The timers were started after the last datagram. -/
  past : ∀ e ∈ s.events, e.2.ends = false → e.1 ≤ s.since
  idle : ∀ now, (now, .idle) ∈ s.events → s.deadline ≤ now

theorem inv_init (start : Nat) (client : List (Nat × ClientArrival)) (server : List (Nat × ServerArrival)) :
    Inv start client server (init start client server) where
  client := ⟨[], rfl, rfl⟩
  server := ⟨[], rfl, rfl⟩
  running := fun _ _ h => nomatch h
  ended := fun h => nomatch h
  started := Nat.le_refl _
  past := fun _ h => nomatch h
  idle := fun _ h => nomatch h

section Step

variable {start now : Nat} {client : List (Nat × ClientArrival)} {server : List (Nat × ServerArrival)} {e : UdpEvent}

/-- An event is noted in order. -/
theorem Inv.settle (h : Inv start client server s) (hr : s.ended = false) (hnow : s.since ≤ now)
    (hidle : e = .idle → s.deadline ≤ now) {client' : List (Nat × ClientArrival)} {server' : List (Nat × ServerArrival)}
    (hc : Handled client client' (fun a => a.event) (clientEvents (s.events ++ [(now, e)])))
    (hs : Handled server server' id (serverEvents (s.events ++ [(now, e)]))) :
    Inv start client server (Relay.settle { s with client := client', server := server' } p now e) := by
  have hrun := h.running hr
  have hle : s.since ≤ (Relay.settle { s with client := client', server := server' } p now e).since := by
    unfold Relay.settle
    dsimp only
    split
    · exact Nat.le_refl _
    · omega
  refine ⟨hc, hs, fun hends x hx => ?_, fun hends => ⟨s.events, (now, e), rfl, hends, hrun⟩, h.started.trans hle,
    fun x hx hx' => ?_, fun k hk => ?_⟩
  · rcases List.mem_append.mp hx with hx | hx
    · exact hrun x hx
    · rw [List.mem_singleton.mp hx]
      exact hends
  · rcases List.mem_append.mp hx with hx | hx
    · exact (h.past x hx hx').trans hle
    · rw [List.mem_singleton.mp hx] at hx' ⊢
      simp only [Relay.settle, hx']
      exact Nat.le_add_right _ _
  · rcases List.mem_append.mp hk with hk | hk
    · have := hrun _ hk
      cases this
    · cases List.mem_singleton.mp hk
      exact hidle rfl

theorem Inv.step (h : Inv start client server s) (hs : s.step p = some t) : Inv start client server t := by
  have hnow : s.since ≤ s.wake + p.delay := (Nat.le_max_left _ _).trans (Nat.le_add_right _ _)
  have hclient := h.client
  have hserver := h.server
  obtain ⟨hr, ⟨hd, rfl⟩ | ⟨time, arrival, rest, hc, rfl⟩ | ⟨time, arrival, rest, hc, rfl⟩⟩ := step_cases hs
  · exact h.settle hr hnow (fun _ => hd) (by simpa using hclient) (by simpa using hserver)
  · rw [hc] at hclient
    refine h.settle hr hnow (fun hi => ?_) (by simpa using hclient.snoc) (by simpa using hserver)
    rcases arrival with ⟨_ | ⟨b, bytes⟩, failed⟩ | _ <;> cases hi
  · rw [hc] at hserver
    refine h.settle hr hnow (fun hi => ?_) (by simpa using hclient) (by simpa using hserver.snoc)
    cases arrival <;> cases hi

/-- The timer of an idle relay fires 30 seconds after everything else, or later. -/
theorem Inv.silence (h : Inv start client server s) (hidle : (now, .idle) ∈ s.events) :
    start + UDP_IDLE_TIMEOUT ≤ now ∧ ∀ x ∈ s.events, x ≠ (now, .idle) → x.1 + UDP_IDLE_TIMEOUT ≤ now := by
  have hdeadline : s.since + UDP_IDLE_TIMEOUT ≤ now := h.idle now hidle
  refine ⟨by have := h.started; omega, fun x hx hne => ?_⟩
  have hends : s.ended = true := by
    by_contra hr
    have := h.running (by simpa using hr) _ hidle
    cases this
  -- the timer is the last event, and the others left the loop running
  obtain ⟨before, last, hevents, -, hbefore⟩ := h.ended hends
  have hlast : last = (now, .idle) := by
    rw [hevents] at hidle
    rcases List.mem_append.mp hidle with hi | hi
    · have := hbefore _ hi
      cases this
    · exact (List.mem_singleton.mp hi).symm
  have hx' : x ∈ before := by
    rw [hevents] at hx
    rcases List.mem_append.mp hx with hx | hx
    · exact hx
    · exact absurd ((List.mem_singleton.mp hx).trans hlast) hne
  have := h.past x hx (hbefore x hx')
  omega

end Step

/-- The timer fired on time, and nothing was due by then. -/
def Punctual (s : Relay) : Prop :=
  ∀ now, (now, .idle) ∈ s.events → now ≤ due s.deadline s.client ∧ now ≤ due s.deadline s.server

theorem punctual_step (hr : ∀ now, (now, .idle) ∉ s.events) (hp : p.delay = 0) (h : s.step p = some t) :
    t.Punctual := by
  intro now hnow
  obtain ⟨-, ⟨hd, rfl⟩ | ⟨time, arrival, rest, hc, rfl⟩ | ⟨time, arrival, rest, hc, rfl⟩⟩ := step_cases h
  · rcases List.mem_append.mp hnow with hnow | hnow
    · exact absurd hnow (hr now)
    · cases List.mem_singleton.mp hnow
      have hpos : 0 < UDP_IDLE_TIMEOUT := by decide
      have hsince : s.since < s.deadline := Nat.lt_add_of_pos_right hpos
      rw [hp, Nat.add_zero, wake] at hd ⊢
      change _ ≤ due s.deadline s.client ∧ _ ≤ due s.deadline s.server
      omega
  · rcases List.mem_append.mp hnow with hnow | hnow
    · exact absurd hnow (hr now)
    · rcases arrival with ⟨_ | ⟨b, bytes⟩, failed⟩ | _ <;> cases List.mem_singleton.mp hnow
  · rcases List.mem_append.mp hnow with hnow | hnow
    · exact absurd hnow (hr now)
    · cases arrival <;> cases List.mem_singleton.mp hnow

end Relay

/-- **A UDP relay lives until both sides are silent for 30 seconds.** Whatever arrives, whenever the task is polled and
whichever branch is polled first: the loop goes on until it is left and is left after no more turns than there are
arrivals and one; the relay then returns; what came from either side was handled in order. If a timer ends it, then
30 seconds after the start and after every datagram, and all that came by then was handled if the task is polled on
time. -/
theorem udp_relay_ends_after_silence (isDns : Bool) (st : FlowState R) (start : Nat)
    (client : List (Nat × ClientArrival)) (server : List (Nat × ServerArrival)) (polls : List Polled) (s : Relay)
    (h : exec Relay.step (Relay.init start client server) polls = some s) :
    (s.ended = false → ∀ p, (s.step p).isSome) ∧ polls.length ≤ client.length + server.length + 1 ∧
      (s.ended = true → (relayUdp isDns (s.events.map Prod.snd) st).1 = .ok ()) ∧
      Relay.Handled client s.client (fun a => a.event) (Relay.clientEvents s.events) ∧
      Relay.Handled server s.server id (Relay.serverEvents s.events) ∧
      ∀ now, (now, .idle) ∈ s.events →
        start + UDP_IDLE_TIMEOUT ≤ now ∧
        (∀ x ∈ s.events, x ≠ (now, .idle) → x.1 + UDP_IDLE_TIMEOUT ≤ now) ∧
        ((∀ p ∈ polls, p.delay = 0) → (client.Pairwise fun a b => a.1 ≤ b.1) →
          (server.Pairwise fun a b => a.1 ≤ b.1) → (∀ a ∈ s.client, now ≤ a.1) ∧ ∀ a ∈ s.server, now ≤ a.1) := by
  have hinv : Relay.Inv start client server s :=
    exec_invariant (fun _ _ _ hi hs => hi.step hs) (Relay.inv_init start client server) h
  refine ⟨fun hr p => Relay.step_isSome hr p, ?_, fun hends => ?_, hinv.client, hinv.server, fun now hidle => ?_⟩
  · have hgain : ∀ s p t, True → Relay.step s p = some t → True ∧ -(s.rank : Int) < -(t.rank : Int) :=
      fun _ _ _ _ hs => ⟨trivial, Int.neg_lt_neg (Int.ofNat_lt.mpr (Relay.rank_step hs))⟩
    have hlen := length_le_gain (fun s => -(s.rank : Int)) hgain trivial h
    have hinit : (Relay.init start client server).rank = client.length + server.length + 1 := rfl
    omega
  · obtain ⟨before, last, hevents, hlast, hbefore⟩ := hinv.ended hends
    rw [hevents, List.map_append]
    refine relayUdp_returns isDns hlast _ st fun e he => ?_
    obtain ⟨x, hx, rfl⟩ := List.mem_map.mp he
    exact hbefore x hx
  · obtain ⟨hstart, hsilent⟩ := hinv.silence hidle
    refine ⟨hstart, hsilent, fun hp hc hs => ?_⟩
    have hpunctual : s.Punctual :=
      (exec_invariant_of_mem (I := fun s => Relay.Inv start client server s ∧ s.Punctual)
        (fun u p t hmem hu ht => ⟨hu.1.step ht, Relay.punctual_step (fun now hi => ?_) (hp p hmem) ht⟩)
        ⟨Relay.inv_init start client server, fun _ hi => nomatch hi⟩ h).2
    · exact ⟨hinv.client.sorted hc (hpunctual now hidle).1, hinv.server.sorted hs (hpunctual now hidle).2⟩
    · have := hu.1.running (Relay.step_cases ht).1 _ hi
      cases this

/-- A relay that sees a datagram of each side and then nothing. -/
theorem udp_relay_ends_after_silence_sample :
    ∃ s set, exec Relay.step (Relay.init 5 [(7, .read [1] none)] [(9, .recv [2] none), (40000000000, .error)])
        (List.replicate 3 ⟨0, false, []⟩) = some s ∧
      RuleSet.new backslashRegex proxyAllRules = .ok set ∧
      s.events = [(7, .client [1] none), (9, .server [2] 9 [] none), (30000000009, .idle)] ∧
      (relayUdp false (s.events.map Prod.snd) ⟨sampleShared set, []⟩).1 = .ok () ∧
      ∀ a ∈ s.server, 30000000009 ≤ a.1 := by
  obtain ⟨set, hset⟩ : ∃ set, RuleSet.new backslashRegex proxyAllRules = .ok set := ⟨_, rfl⟩
  have hs : exec Relay.step (Relay.init 5 [(7, .read [1] none)] [(9, .recv [2] none), (40000000000, .error)])
      (List.replicate 3 ⟨0, false, []⟩) = some ⟨9, [], [(40000000000, .error)],
        [(7, .client [1] none), (9, .server [2] 9 [] none), (30000000009, .idle)], true⟩ := by
    decide
  obtain ⟨-, -, hok, -, -, hidle⟩ := udp_relay_ends_after_silence false ⟨sampleShared set, []⟩ _ _ _ _ _ hs
  refine ⟨_, set, hs, hset, rfl, hok rfl, ?_⟩
  exact ((hidle 30000000009 (by simp)).2.2 (by simp) (by simp) (by simp)).2

end AceTun
