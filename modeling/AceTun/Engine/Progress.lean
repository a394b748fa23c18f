import AceTun.Engine.Posts
import Mathlib.Algebra.BigOperators.Group.Finset.Basic

/-!
# The engine comes to rest

`start`, `stop` and the drop of the engine wait for each other: a `stop` for its watchdog, the watchdog for the netstack,
the netstack for the shutdown signal. `Engine.rank` counts what every party has left to do. Each step lowers it, except
that a new call adds what it may do (`rank_step`), so a run is not longer than its calls allow. And short of rest, some
party can go on without a new call (`exists_proceeds`). At rest every call has returned, and no device is open but that
of the `RunState` in the mutex (`engine_comes_to_rest`).
-/

namespace AceTun

open RustStd Transition

/-! ## What is left to do -/

def StartPc.rank : StartPc → Nat
  | .entered => 28
  | .claimed => 27
  | .discovered _ => 26
  | .creating _ => 25
  | .configuring _ => 19
  | .installing todo => 2 * todo.length + 6
  | .publishing => 1
  | .unwinding _ => 2
  | .failed _ => 1
  | .returned _ => 0

def StopPc.rank : StopPc → Nat
  | .entered => 5
  | .taken _ => 4
  | .cleared _ => 3
  | .awaiting _ => 2
  | .fallback _ => 1
  | .unwinding _ => 1
  | .cancelled => 0
  | .returned _ => 0

def Call.rank : Call → Nat
  | .unmade => 0
  | .start pc => pc.rank
  | .stop pc => pc.rank

/-- An adapter that is not being taken down may yet be: its routes, the session twice, and the device. -/
def Custody.rank : Custody → Nat
  | .absent => 0
  | .building tun => tun.routes.length + 4
  | .slot tun => tun.routes.length + 4
  | .tearing _ todo => todo.length + 1
  | .gone => 0

def Watchdog.rank : Watchdog → Nat
  | .unborn => 0
  | .awaiting => 3
  | .tearing => 2
  | .joining => 1
  | .finished => 0
  | .failed => 0

def Tunnel.rank (t : Tunnel) : Nat := t.custody.rank + t.watchdog.rank + (!t.netstackEnded).toNat

def DropPc.rank : DropPc → Nat
  | .alive => 7
  | .entered => 6
  | .taken _ => 5
  | .cleared _ => 4
  | .signalled _ => 3
  | .tearing _ => 2
  | .aborting _ => 1
  | .dropped => 0

/-- What all parties have left to do. -/
def Engine.rank (s : Engine) : Nat :=
  ∑ c ∈ Finset.range s.made, (s.call c).rank + ∑ r ∈ Finset.range s.made, (s.tunnel r).rank + s.dropping.rank

/-- A sum of ranks, when one of the parts is changed. -/
theorem sum_rank_update {α : Type} (rank : α → Nat) (f : Nat → α) (b : α) {n i : Nat} (hi : i < n) :
    ∑ x ∈ Finset.range n, rank (Function.update f i b x) + rank (f i) = ∑ x ∈ Finset.range n, rank (f x) + rank b := by
  have hmem : i ∈ Finset.range n := Finset.mem_range.mpr hi
  have hcomp : ∀ x, rank (Function.update f i b x) = Function.update (fun x => rank (f x)) i (rank b) x := by
    intro x
    by_cases hx : x = i
    · simp [hx]
    · simp [hx]
  simp only [hcomp]
  rw [Finset.sum_update_of_mem hmem, ← Finset.sum_sdiff (Finset.singleton_subset_iff.mpr hmem), Finset.sum_singleton]
  omega

section Rank

variable {os : Os} {ipv6 : Bool} {s s' : Engine} {a : Action} {c r : CallId} {k : Call} {t : Tunnel} {d : DropPc}
  {tun : TunAdapter}

theorem rank_setCall (hc : c < s.made) : (s.setCall c k).rank + (s.call c).rank = s.rank + k.rank := by
  have hsum := sum_rank_update Call.rank s.call k hc
  simp only [Engine.rank, Engine.setCall] at hsum ⊢
  omega

theorem rank_setTunnel (hr : r < s.made) : (s.setTunnel r t).rank + (s.tunnel r).rank = s.rank + t.rank := by
  have hsum := sum_rank_update Tunnel.rank s.tunnel t hr
  simp only [Engine.rank, Engine.setTunnel] at hsum ⊢
  omega

theorem rank_setDrop : { s with dropping := d }.rank + s.dropping.rank = s.rank + d.rank := by
  simp only [Engine.rank]
  omega

/-- A new call has its steps to do, and the netstack it may leave behind has to end. -/
theorem rank_enter (ht : s.tunnel s.made = .blank) (hk : s.call s.made = .unmade) :
    (s.enter k).rank = s.rank + k.rank + 1 := by
  have hlt : s.made < s.made + 1 := Nat.lt_succ_self _
  have hsum := sum_rank_update Call.rank s.call k hlt
  have hblank : Tunnel.blank.rank = 1 := rfl
  have hunmade : Call.unmade.rank = 0 := rfl
  rw [Finset.sum_range_succ (fun x => (s.call x).rank), hk, hunmade] at hsum
  simp only [Engine.rank, Engine.enter, Engine.setCall] at hsum ⊢
  rw [Finset.sum_range_succ (fun x => (s.tunnel x).rank), ht, hblank]
  omega

/-- A call goes on, and changes a tunnel. -/
theorem rank_move (hc : c < s.made) (hr : r < s.made)
    (hk : k.rank + t.rank < (s.call c).rank + (s.tunnel r).rank) : ((s.setTunnel r t).setCall c k).rank < s.rank := by
  have hcall := rank_setCall (s := s.setTunnel r t) (k := k) hc
  have htunnel := rank_setTunnel (t := t) hr
  rw [Engine.setTunnel_call] at hcall
  omega

theorem rank_tunnel (hr : r < s.made) (ht : t.rank < (s.tunnel r).rank) : (s.setTunnel r t).rank < s.rank := by
  have := rank_setTunnel (t := t) hr
  omega

/-- The drop of the engine goes on, and changes a tunnel. -/
theorem rank_drop (hr : r < s.made) (hd : d.rank + t.rank < s.dropping.rank + (s.tunnel r).rank) :
    { s.setTunnel r t with dropping := d }.rank < s.rank := by
  have hdrop : { s.setTunnel r t with dropping := d }.rank + s.dropping.rank = (s.setTunnel r t).rank + d.rank :=
    rank_setDrop
  have htunnel := rank_setTunnel (t := t) hr
  omega

theorem length_drop_le (os : Os) (tun : TunAdapter) : (tun.drop os).length ≤ tun.routes.length + 1 := by
  cases os <;> simp [TunAdapter.drop, TunAdapter.removeRoutes, TunAdapter.shutdownSession]

theorem length_tearDown_le (os : Os) (tun : TunAdapter) : (tun.tearDown os).length ≤ tun.routes.length + 2 := by
  cases os <;> simp [TunAdapter.tearDown, TunAdapter.drop, TunAdapter.removeRoutes, TunAdapter.shutdownSession]

theorem length_abandon_le (os : Os) (tun : TunAdapter) : (tun.abandon os).length ≤ tun.routes.length + 1 := by
  cases os with
  | linux => exact length_drop_le .linux tun
  | macos => exact length_drop_le .macos tun
  | windows => exact Nat.zero_le _

theorem length_routePlan_le (os : Os) (ipv6 : Bool) (iface : PhysicalInterface) :
    (routePlan os ipv6 iface).length ≤ 6 := by
  obtain ⟨v4, v6⟩ := iface
  cases os <;> cases ipv6 <;> cases v4 <;> cases v6 <;> simp [routePlan, multicastRoutes, splitDefault]

end Rank

section Made

variable {os : Os} {ipv6 : Bool} {s s' : Engine} {a : Action} {c r : CallId} {k : Call} {d : DropPc}

theorem Sane.lt_of_call (hs : Sane s) (hc : s.call c = k) (hk : k ≠ .unmade) : c < s.made := by
  by_contra hge
  exact hk (hc.symm.trans (hs.unmade c (Nat.le_of_not_lt hge)))

theorem Sane.lt_of_born (hs : Sane s) (hw : (s.tunnel r).watchdog ≠ .unborn) : r < s.made := by
  by_contra hge
  have hcall := hs.unmade r (Nat.le_of_not_lt hge)
  exact hw (hs.unborn r (by rw [hcall]; rfl))

theorem Sane.lt_of_owned (hs : Sane s) (hc : s.call c = k) (hk : k.owned c = some r) : r < s.made :=
  hs.lt_of_born (hs.born (holds_of_owned hc hk))

theorem Sane.lt_of_dropping (hs : Sane s) (hd : s.dropping = d) (hr : d.owned = some r) : r < s.made := by
  have hx : s.holds (stateRole r) .drop := by
    change s.dropping.owned = some r
    rw [hd, hr]
  exact hs.lt_of_born (hs.born hx)

/-- Only the tunnels of calls that were made are more than blank. -/
structure Counted (s : Engine) : Prop where
  fresh : ∀ r, s.made ≤ r → s.tunnel r = .blank
  made : ∀ c < s.made, s.call c ≠ .unmade

theorem Counted.step (h : Counted s) (hp : Posted os ipv6 s) (hstep : Step os ipv6 s a s') : Counted s' := by
  have hs := hp.tidy.sane
  have hset : ∀ {r : CallId} {t : Tunnel}, r < s.made → ∀ x, s.made ≤ x → (s.setTunnel r t).tunnel x = .blank :=
    fun hr => Engine.forall_setTunnel_at (P := fun x t => s.made ≤ x → t = .blank) h.fresh
      fun hle => absurd hr (Nat.not_lt.mpr hle)
  have hcall : ∀ {c : CallId} {k : Call}, k ≠ .unmade → ∀ x < s.made, (s.setCall c k).call x ≠ .unmade :=
    fun hk => Engine.forall_setCall (P := fun x k => x < s.made → k ≠ .unmade) h.made fun _ => hk
  have hnew : ∀ {k : Call}, k ≠ .unmade → Counted (s.enter k) := fun hk =>
    ⟨fun r hr => h.fresh r (Nat.le_of_succ_le hr), fun c hc => by
      change (s.setCall s.made _).call c ≠ .unmade
      rw [Engine.setCall_call]
      split
      · exact hk
      · next hne => exact h.made c (Nat.lt_of_le_of_ne (Nat.le_of_lt_succ hc) hne)⟩
  cases hstep with
  | beginStart _ => exact hnew (by simp)
  | beginStop _ => exact hnew (by simp)
  | cancelCall hc hb =>
    have hborn := (hp.tidy.stands _).at_custody hb
    exact ⟨hset (hs.lt_of_born hborn), h.made⟩
  | cancelDone hc hb =>
    have hborn := (hp.tidy.stands _).at_custody hb
    exact ⟨hset (hs.lt_of_born hborn), hcall (by simp)⟩
  | unwind hc hb => exact ⟨hset (hs.lt_of_call hc (by simp)), h.made⟩
  | fallbackCall hc hb => exact ⟨hset (hs.lt_of_owned hc rfl), h.made⟩
  | watchdogCall hw hb => exact ⟨hset (hs.lt_of_born fun hu => by simp [hu] at hw), h.made⟩
  | watchdogFails hw => exact ⟨hset (hs.lt_of_born fun hu => by simp [hu] at hw), h.made⟩
  | _ =>
    first
    | exact ⟨h.fresh, h.made⟩
    | exact ⟨h.fresh, hcall (by simp)⟩
    | exact ⟨hset (hs.lt_of_call (by assumption) (by simp)), hcall (by simp)⟩
    | exact ⟨hset (hs.lt_of_owned (by assumption) rfl), hcall (by simp)⟩
    | exact ⟨hset (hs.lt_of_dropping (by assumption) rfl), h.made⟩
    | exact ⟨hset (hs.lt_of_born (by simp [*])), h.made⟩

end Made

namespace Tunnel

variable {t : Tunnel} {tun : TunAdapter} {party : Party} {call : Undo} {todo : List Undo}

/-- Whoever takes the adapter has less to do than was expected. -/
theorem rank_tear (party : Party) (hc : t.custody = .building tun ∨ t.custody = .slot tun)
    (hl : todo.length ≤ tun.routes.length + 2) : (t.tear party todo).rank < t.rank := by
  rcases hc with hc | hc
  · simp only [rank, tear, hc, Custody.rank]
    omega
  · simp only [rank, tear, hc, Custody.rank]
    omega

theorem rank_undo (hc : t.custody = .tearing party (call :: todo)) : (t.undo party call todo).rank < t.rank := by
  simp only [rank, undo, hc, Custody.rank, List.length_cons]
  omega

theorem rank_close (hc : t.custody = .tearing party []) : t.close.rank < t.rank := by
  simp only [rank, close, hc, Custody.rank, List.length_nil]
  omega

end Tunnel

section Lowers

variable {s : Engine} {c r : CallId} {k k' : Call} {t : Tunnel} {d d' : DropPc} {tun : TunAdapter} {todo : List Undo}

/-- A call goes on. -/
theorem rank_call (hs : Sane s) (hc : s.call c = k) (hk : k ≠ .unmade) (hlt : k'.rank < k.rank) :
    (s.setCall c k').rank < s.rank := by
  have hcall := rank_setCall (k := k') (hs.lt_of_call hc hk)
  rw [hc] at hcall
  omega

/-- A `start` fails and drops its adapter. -/
theorem rank_unwind (hs : Sane s) {e : Error} (hc : s.call c = k) (hk : k ≠ .unmade) (hlt : 2 < k.rank)
    (hb : (s.tunnel c).custody = .building tun) (hl : todo.length ≤ tun.routes.length + 1) :
    (s.unwind c todo e).rank < s.rank := by
  have hmade := hs.lt_of_call hc hk
  have htear := Tunnel.rank_tear .start (.inl hb) (Nat.le_succ_of_le hl)
  exact rank_move hmade hmade (Nat.add_lt_add (hc ▸ hlt) htear)

/-- A call goes on with the tunnel whose `RunState` it owns. -/
theorem rank_owned (hs : Sane s) (hc : s.call c = k) (hk : k ≠ .unmade) (ho : k.owned c = some r)
    (hlt : k'.rank < k.rank) (ht : t.rank ≤ (s.tunnel r).rank) : ((s.setTunnel r t).setCall c k').rank < s.rank :=
  rank_move (hs.lt_of_call hc hk) (hs.lt_of_owned hc ho) (Nat.add_lt_add_of_lt_of_le (hc ▸ hlt) ht)

/-- The drop of the engine goes on. -/
theorem rank_dropping (hd : s.dropping = d) (hlt : d'.rank < d.rank) : { s with dropping := d' }.rank < s.rank := by
  have hdrop := rank_setDrop (s := s) (d := d')
  rw [hd] at hdrop
  omega

end Lowers

/-- **A step that begins no call lowers the rank.** -/
theorem rank_step {os : Os} {ipv6 : Bool} {s s' : Engine} {a : Action} (h : Posted os ipv6 s)
    (hstep : step os ipv6 s a = some s') (hstart : a ≠ .beginStart) (hstop : a ≠ .beginStop) : s'.rank < s.rank := by
  have hs := h.tidy.sane
  have hinv := step_inv hstep
  cases hinv with
  | beginStart _ => exact absurd rfl hstart
  | beginStop _ => exact absurd rfl hstop
  | beginDrop hd _ => exact rank_dropping hd (by simp [DropPc.rank])
  -- start
  | refuse hc hf => exact rank_call hs hc (by simp) (by simp [Call.rank, StartPc.rank])
  | claim hc hf => exact rank_call (s := s) hs hc (by simp) (by simp [Call.rank, StartPc.rank])
  | discoverNone hc he => exact rank_call hs hc (by simp) (by simp [Call.rank, StartPc.rank])
  | discover hc he => exact rank_call hs hc (by simp) (by simp [Call.rank, StartPc.rank])
  | setIface hc => exact rank_call (s := s) hs hc (by simp) (by simp [Call.rank, StartPc.rank])
  | createFails hc => exact rank_call hs hc (by simp) (by simp [Call.rank, StartPc.rank])
  | @create c iface hc =>
    have hlt := hs.lt_of_call hc (by simp)
    refine rank_move hlt hlt ?_
    have hnew : (Tunnel.create iface).rank = 5 := rfl
    rw [hc, hnew]
    simp only [Call.rank, StartPc.rank]
    omega
  | configureFails hc hb => exact rank_unwind hs hc (by simp) (by simp [Call.rank, StartPc.rank]) hb (length_abandon_le ..)
  | configure hc hb =>
    refine rank_call hs hc (by simp) ?_
    have hplan := length_routePlan_le os ipv6 ‹PhysicalInterface›
    simp only [Call.rank, StartPc.rank]
    omega
  | addRouteFails hc hb => exact rank_unwind hs hc (by simp) (by simp [Call.rank, StartPc.rank]) hb (length_abandon_le ..)
  | @addRoute c route todo tun hc hb =>
    have hlt := hs.lt_of_call hc (by simp)
    refine rank_move hlt hlt ?_
    rw [hc]
    simp only [Call.rank, StartPc.rank, Tunnel.rank, Tunnel.install, hb, Custody.rank, TunAdapter.push,
      List.length_append, List.length_cons, List.length_nil]
    omega
  | deviceFails hc hb => exact rank_unwind hs hc (by simp) (by simp [Call.rank, StartPc.rank]) hb (length_drop_le ..)
  | @spawn c tun hc hb =>
    have hlt := hs.lt_of_call hc (by simp)
    have hunborn := (h.tidy.stands c).unborn_of_building hb
    refine rank_move hlt hlt ?_
    rw [hc]
    simp only [Call.rank, StartPc.rank, Tunnel.rank, Tunnel.spawn, hb, hunborn, Custody.rank, Watchdog.rank,
      List.length_nil]
    omega
  | publish hc => exact rank_call (s := s) hs hc (by simp) (by simp [Call.rank, StartPc.rank])
  | unwind hc hb => exact rank_tunnel (hs.lt_of_call hc (by simp)) (Tunnel.rank_undo hb)
  | unwound hc hb =>
    have hlt := hs.lt_of_call hc (by simp)
    exact rank_move hlt hlt (Nat.add_lt_add (by simp [hc, Call.rank, StartPc.rank]) (Tunnel.rank_close hb))
  | reset hc => exact rank_call (s := s) hs hc (by simp) (by simp [Call.rank, StartPc.rank])
  -- stop
  | notRunning hc hr => exact rank_call hs hc (by simp) (by simp [Call.rank, StopPc.rank])
  | take hc hr => exact rank_call (s := s) hs hc (by simp) (by simp [Call.rank, StopPc.rank])
  | clear hc => exact rank_call (s := s) hs hc (by simp) (by simp [Call.rank, StopPc.rank])
  | signal hc => exact rank_owned hs hc (by simp) rfl (by simp [Call.rank, StopPc.rank]) (Nat.le_refl _)
  | joined hc hw => exact rank_owned hs hc (by simp) rfl (by simp [Call.rank, StopPc.rank]) (Nat.le_refl _)
  | cancel hc hw => exact rank_owned hs hc (by simp) rfl (by simp [Call.rank, StopPc.rank]) (Nat.le_refl _)
  | fallback hc hw hb =>
    have htear := Tunnel.rank_tear .stop (.inr hb) (length_tearDown_le os _)
    exact rank_owned hs hc (by simp) rfl (by simp [Call.rank, StopPc.rank]) htear.le
  | fallbackCall hc hb => exact rank_tunnel (hs.lt_of_owned hc rfl) (Tunnel.rank_undo hb)
  | fallbackDone hc hb => exact rank_owned hs hc (by simp) rfl (by simp [Call.rank, StopPc.rank]) (Tunnel.rank_close hb).le
  | cancelLast hc hw hb =>
    have htear := Tunnel.rank_tear .stop (.inr hb) (Nat.le_succ_of_le (length_drop_le os _))
    exact rank_owned hs hc (by simp) rfl (by simp [Call.rank, StopPc.rank]) htear.le
  | cancelCall hc hb => exact rank_tunnel (hs.lt_of_born ((h.tidy.stands _).at_custody hb)) (Tunnel.rank_undo hb)
  | cancelDone hc hb =>
    have hborn := (h.tidy.stands _).at_custody hb
    exact rank_move (hs.lt_of_call hc (by simp)) (hs.lt_of_born hborn)
      (Nat.add_lt_add (by simp [hc, Call.rank, StopPc.rank]) (Tunnel.rank_close hb))
  -- drop
  | dropIdle hd hr => exact rank_dropping hd (by simp [DropPc.rank])
  | dropTake hd hr => exact rank_dropping hd (by simp [DropPc.rank])
  | dropClear hd => exact rank_dropping hd (by simp [DropPc.rank])
  | dropSignal hd =>
    exact rank_drop (hs.lt_of_dropping hd rfl) (Nat.add_lt_add_of_lt_of_le (by simp [hd, DropPc.rank]) (Nat.le_refl _))
  | dropTear hd hb =>
    have htear := Tunnel.rank_tear .drop (.inr hb) (length_tearDown_le os _)
    exact rank_drop (hs.lt_of_dropping hd rfl) (Nat.add_lt_add (by simp [hd, DropPc.rank]) htear)
  | dropEmpty hd hb => exact rank_dropping hd (by simp [DropPc.rank])
  | dropCall hd hb => exact rank_tunnel (hs.lt_of_dropping hd rfl) (Tunnel.rank_undo hb)
  | dropTorn hd hb =>
    exact rank_drop (hs.lt_of_dropping hd rfl) (Nat.add_lt_add (by simp [hd, DropPc.rank]) (Tunnel.rank_close hb))
  | abort hd =>
    exact rank_drop (hs.lt_of_dropping hd rfl) (Nat.add_lt_add_of_lt_of_le (by simp [hd, DropPc.rank]) (Nat.le_refl _))
  -- the tasks
  | @netstackEnds r hw =>
    have hopen : (s.tunnel r).netstackEnded = false := by
      by_contra hne
      simp [step, hne] at hstep
    refine rank_tunnel (hs.lt_of_born hw) ?_
    simp [Tunnel.rank, hopen]
  | @watchdogTakes r tun hw hn hb =>
    have htear := Tunnel.rank_tear .watchdog (.inr hb) (length_tearDown_le os tun)
    refine rank_tunnel (hs.lt_of_born (by simp [hw])) ?_
    simp only [Tunnel.rank, Tunnel.tear, hw, Watchdog.rank] at htear ⊢
    omega
  | watchdogEmpty hw hn hb =>
    exact rank_tunnel (hs.lt_of_born (by simp [hw])) (by simp [Tunnel.rank, hw, Watchdog.rank])
  | watchdogCall hw hb =>
    exact rank_tunnel (hs.lt_of_born fun hu => by simp [hu] at hw) (Tunnel.rank_undo hb)
  | watchdogTorn hw hb =>
    have hclose := Tunnel.rank_close hb
    refine rank_tunnel (hs.lt_of_born (by simp [hw])) ?_
    simp only [Tunnel.rank, Tunnel.close, hw, Watchdog.rank] at hclose ⊢
    omega
  | watchdogDropped hw hb => exact rank_tunnel (hs.lt_of_born (by simp [hw])) (Tunnel.rank_close hb)
  | watchdogJoins hw => exact rank_tunnel (hs.lt_of_born (by simp [hw])) (by simp [Tunnel.rank, hw, Watchdog.rank])
  | watchdogFails hw =>
    refine rank_tunnel (hs.lt_of_born fun hu => by simp [hu] at hw) ?_
    rcases hw with hw | ⟨hw, -⟩
    · simp [Tunnel.rank, hw, Watchdog.rank]
    · simp [Tunnel.rank, hw, Watchdog.rank]
  | @watchdogFailsLast r tun hw hh hb =>
    have htear := Tunnel.rank_tear .watchdog (.inr hb) (Nat.le_succ_of_le (length_drop_le os tun))
    refine rank_tunnel (hs.lt_of_born (by simp [hw])) ?_
    simp only [Tunnel.rank, Tunnel.tear, hw, Watchdog.rank] at htear ⊢
    omega

/-! ## Somebody can go on -/

/-- No call begins, no `stop` is cancelled and no watchdog fails, and a netstack ends once its shutdown is signalled. -/
def Proceeds (s : Engine) : Action → Prop
  | .start _ _ => True
  | .stop _ => True
  | .drop => True
  | .watchdog _ => True
  | .netstackEnds r => (s.tunnel r).shutdown = true
  | _ => False

/-- Nothing is left to do. -/
structure Engine.AtRest (s : Engine) : Prop where
  calls : ∀ c < s.made, (s.call c).finished = true
  drop : s.dropping = .alive ∨ s.dropping = .dropped
  devices : ∀ r, s.Live r ∨ (s.tunnel r).device.installed ≠ [] → s.running = some r ∧ s.dropping = .alive

section Proceeds

variable {os : Os} {ipv6 : Bool} {s : Engine} {c r : CallId}

/-- Some party can go on. -/
def Engine.CanProceed (os : Os) (ipv6 : Bool) (s : Engine) : Prop :=
  ∃ a, Proceeds s a ∧ (step os ipv6 s a).isSome = true

theorem advance_isSome {t : Tunnel} {party : Party} {todo : List Undo} (h : t.custody = .tearing party todo) :
    (t.advance party).isSome = true := by
  unfold Tunnel.advance
  rw [h]
  cases todo with
  | nil => simp
  | cons call todo => simp

/-- The party that takes the adapter down at a post. -/
def Post.party : Post → Option Party
  | .building => none
  | .unwinding => some .start
  | .stopping => some .stop
  | .dropping => some .drop

theorem Post.exists_tearing {post : Post} {party : Party} {custody : Custody} (hp : post.party = some party)
    (hc : custody.post = some post) : ∃ todo, custody = .tearing party todo := by
  unfold Custody.post at hc
  split at hc
  · cases hc
    cases hp
  · cases hc
    cases hp
    exact ⟨_, rfl⟩
  · cases hc
    cases hp
    exact ⟨_, rfl⟩
  · cases hc
    cases hp
    exact ⟨_, rfl⟩
  · cases hc

/-- Whoever takes an adapter down can make the next call. -/
theorem Posted.advance_isSome (h : Posted os ipv6 s) {post : Post} {party : Party} {x : Holder}
    (hx : s.holds (postRole post r) x) (hp : post.party = some party) :
    ((s.tunnel r).advance party).isSome = true := by
  obtain ⟨todo, ht⟩ := Post.exists_tearing hp (h.manned.custody_of_holds hx)
  exact AceTun.advance_isSome ht

theorem start_proceeds (h : Posted os ipv6 s) {pc : StartPc} (hc : s.call c = .start pc)
    (hf : (s.call c).finished = false) : s.CanProceed os ipv6 := by
  have hinstalls := h.tidy.installs c
  rw [hc] at hf hinstalls
  cases pc with
  | entered =>
    refine ⟨.start c .compareExchange, trivial, ?_⟩
    simp only [step, hc, startStep]
    split <;> rfl
  | claimed => exact ⟨.start c (.discover .empty), trivial, by simp [step, hc, startStep]⟩
  | discovered iface => exact ⟨.start c .setIface, trivial, by simp [step, hc, startStep]⟩
  | creating iface => exact ⟨.start c (.create (.ok ())), trivial, by simp [step, hc, startStep]⟩
  | configuring iface =>
    obtain ⟨-, hb⟩ := hinstalls
    exact ⟨.start c (.configure (.ok ())), trivial, by simp [step, hc, startStep, hb]⟩
  | installing todo =>
    obtain ⟨tun, hb, -⟩ := hinstalls
    cases todo with
    | nil => exact ⟨.start c (.device (.ok ())), trivial, by simp [step, hc, startStep, hb]⟩
    | cons route todo => exact ⟨.start c (.addRoute (.ok ())), trivial, by simp [step, hc, startStep, hb]⟩
  | publishing => exact ⟨.start c .publish, trivial, by simp [step, hc, startStep]⟩
  | unwinding e =>
    have hx : s.holds (postRole .unwinding c) (.call c) := by
      change (s.call c).post c = _
      rw [hc]
      rfl
    exact ⟨.start c .unwind, trivial, by simpa [step, hc, startStep] using h.advance_isSome hx rfl⟩
  | failed e => exact ⟨.start c .reset, trivial, by simp [step, hc, startStep]⟩
  | returned result => cases hf

/-- A watchdog whose shutdown was signalled goes on, or its netstack does. -/
theorem watchdog_proceeds (h : Posted os ipv6 s) (hborn : (s.tunnel r).watchdog ≠ .unborn)
    (hshut : (s.tunnel r).shutdown = true) :
    s.CanProceed os ipv6 ∨ (s.tunnel r).watchdog = .finished ∨ (s.tunnel r).watchdog = .failed := by
  cases hw : (s.tunnel r).watchdog with
  | unborn => exact absurd hw hborn
  | awaiting =>
    left
    cases hn : (s.tunnel r).netstackEnded with
    | false => exact ⟨.netstackEnds r, hshut, by simp [step, hw, hn]⟩
    | true =>
      refine ⟨.watchdog r, trivial, ?_⟩
      simp only [step, Tunnel.watchdogStep, hw, hn, if_true, Option.isSome_map]
      split <;> rfl
  | tearing =>
    obtain ⟨todo, ht⟩ := (h.guarded r).tearing hw
    exact .inl ⟨.watchdog r, trivial, by simpa [step, Tunnel.watchdogStep, hw] using AceTun.advance_isSome ht⟩
  | joining => exact .inl ⟨.watchdog r, trivial, by simp [step, Tunnel.watchdogStep, hw]⟩
  | finished => exact .inr (.inl rfl)
  | failed => exact .inr (.inr rfl)

theorem stop_proceeds (h : Posted os ipv6 s) {pc : StopPc} (hc : s.call c = .stop pc)
    (hf : (s.call c).finished = false) : s.CanProceed os ipv6 := by
  rw [hc] at hf
  have hpost : ∀ {r}, (s.call c).post c = some (.stopping, r) → ((s.tunnel r).advance .stop).isSome = true := by
    intro r hp
    have hx : s.holds (postRole .stopping r) (.call c) := hp
    exact h.advance_isSome hx rfl
  cases pc with
  | entered =>
    refine ⟨.stop c, trivial, ?_⟩
    simp only [step, hc, stopStep]
    split <;> rfl
  | taken r => exact ⟨.stop c, trivial, by simp [step, hc, stopStep]⟩
  | cleared r => exact ⟨.stop c, trivial, by simp [step, hc, stopStep]⟩
  | awaiting r =>
    have hborn := h.tidy.sane.born (holds_of_owned hc rfl)
    rcases watchdog_proceeds h hborn (h.signalled.late r (.call c) (.inl hc)) with hgo | hw | hw
    · exact hgo
    · exact ⟨.stop c, trivial, by simp [step, hc, stopStep, hw]⟩
    · refine ⟨.stop c, trivial, ?_⟩
      simp only [step, hc, stopStep, hw]
      split <;> rfl
  | fallback r => exact ⟨.stop c, trivial, by simpa [step, hc, stopStep] using hpost (by rw [hc]; rfl)⟩
  | unwinding r => exact ⟨.stop c, trivial, by simpa [step, hc, stopStep] using hpost (by rw [hc]; rfl)⟩
  | cancelled => cases hf
  | returned result => cases hf

theorem drop_proceeds (h : Posted os ipv6 s) (ha : s.dropping ≠ .alive) (hd : s.dropping ≠ .dropped) :
    s.CanProceed os ipv6 := by
  refine ⟨.drop, trivial, ?_⟩
  cases hp : s.dropping with
  | alive => exact absurd hp ha
  | entered =>
    simp only [step, hp, dropStep]
    split <;> rfl
  | taken r => simp [step, hp, dropStep]
  | cleared r => simp [step, hp, dropStep]
  | signalled r =>
    simp only [step, hp, dropStep]
    split <;> rfl
  | tearing r =>
    have hx : s.holds (postRole .dropping r) .drop := by
      change s.dropping.post = _
      rw [hp]
      rfl
    simpa [step, hp, dropStep] using h.advance_isSome hx rfl
  | aborting r => simp [step, hp, dropStep]
  | dropped => exact absurd hp hd

/-- Nobody is at a post once all calls are finished and the drop of the engine is not at work. -/
theorem Posted.post_eq_none (h : Posted os ipv6 s) (hcalls : ∀ c < s.made, (s.call c).finished = true)
    (hdrop : s.dropping = .alive ∨ s.dropping = .dropped) : (s.tunnel r).custody.post = none := by
  cases hc : (s.tunnel r).custody.post with
  | none => rfl
  | some post =>
    obtain ⟨x, hx⟩ := h.manned.exists_of_custody hc
    cases x with
    | published => exact absurd hx id
    | drop =>
      change s.dropping.post = _ at hx
      rcases hdrop with hd | hd
      · rw [hd] at hx
        cases hx
      · rw [hd] at hx
        cases hx
    | call c =>
      change (s.call c).post c = _ at hx
      by_cases hlt : c < s.made
      · have hf := hcalls c hlt
        unfold Call.post at hx
        split at hx <;> simp_all [Call.finished]
      · rw [h.tidy.sane.unmade c (Nat.le_of_not_lt hlt)] at hx
        cases hx

/-- A `RunState` that exists is in the mutex then. -/
theorem Posted.running_of_held (h : Posted os ipv6 s) (hcalls : ∀ c < s.made, (s.call c).finished = true)
    (hdrop : s.dropping = .alive ∨ s.dropping = .dropped) (hh : (s.tunnel r).held = true) : s.running = some r := by
  have hstate := h.tidy.sane.states r
  rw [hh] at hstate
  obtain ⟨x, hx⟩ := hstate.exists_of_flag
  cases x with
  | published => exact hx
  | drop =>
    change s.dropping.owned = _ at hx
    rcases hdrop with hd | hd
    · rw [hd] at hx
      cases hx
    · rw [hd] at hx
      cases hx
  | call c =>
    change (s.call c).owned c = _ at hx
    by_cases hlt : c < s.made
    · have hf := hcalls c hlt
      unfold Call.owned at hx
      split at hx <;> simp_all [Call.finished]
    · rw [h.tidy.sane.unmade c (Nat.le_of_not_lt hlt)] at hx
      cases hx

/-- A device that is open without a `RunState` in the mutex is on its way to be closed. -/
theorem device_proceeds (h : Posted os ipv6 s) (hcalls : ∀ c < s.made, (s.call c).finished = true)
    (hdrop : s.dropping = .alive ∨ s.dropping = .dropped) (hlive : s.Live r) (hr : s.running ≠ some r) :
    s.CanProceed os ipv6 := by
  have hopen : (s.tunnel r).custody.live = true := (h.wf r).opened.symm.trans hlive
  have hpost := h.post_eq_none (r := r) hcalls hdrop
  have hheld : (s.tunnel r).held = false := Bool.eq_false_iff.mpr fun hh => hr (h.running_of_held hcalls hdrop hh)
  cases hc : (s.tunnel r).custody with
  | absent => simp [hc, Custody.live] at hopen
  | gone => simp [hc, Custody.live] at hopen
  | building tun => simp [hc, Custody.post] at hpost
  | slot tun =>
    have hborn := (h.tidy.stands r).born_of_slot hc
    rcases watchdog_proceeds h hborn ((h.guarded r).released hborn hheld) with hgo | hw | hw
    · exact hgo
    · have hstands := (h.tidy.stands r).at_custody hc
      simp [Custody.Stands, hw] at hstands
    · cases hheld.symm.trans ((h.guarded r).failed hw tun hc)
  | tearing party todo =>
    cases party with
    | start => simp [hc, Custody.post] at hpost
    | stop => simp [hc, Custody.post] at hpost
    | drop => simp [hc, Custody.post] at hpost
    | watchdog =>
      have hnext := AceTun.advance_isSome hc
      refine ⟨.watchdog r, trivial, ?_⟩
      rcases (h.tidy.stands r).at_custody hc with hw | ⟨hw, -⟩
      · simpa [step, Tunnel.watchdogStep, hw] using hnext
      · simpa [step, Tunnel.watchdogStep, hw] using hnext

/-- **Short of rest, some party can go on.** -/
theorem exists_proceeds (h : Posted os ipv6 s) (hn : Counted s) (hrest : ¬ s.AtRest) : s.CanProceed os ipv6 := by
  by_cases hcalls : ∀ c < s.made, (s.call c).finished = true
  · by_cases hdrop : s.dropping = .alive ∨ s.dropping = .dropped
    · by_contra hstuck
      refine hrest ⟨hcalls, hdrop, fun r hr => ?_⟩
      have hlive : s.Live r := hr.elim id (h.wf r).opened_of_installed
      have hr : s.running = some r := by_contra fun hr => hstuck (device_proceeds h hcalls hdrop hlive hr)
      refine ⟨hr, hdrop.resolve_right fun hd => ?_⟩
      have hempty := h.retired.mutex (by rw [hd]; rfl)
      cases hr.symm.trans hempty
    · obtain ⟨ha, hd⟩ := not_or.mp hdrop
      exact drop_proceeds h ha hd
  · simp only [not_forall, Bool.not_eq_true] at hcalls
    obtain ⟨c, hlt, hf⟩ := hcalls
    cases hc : s.call c with
    | unmade => exact absurd hc (hn.made c hlt)
    | start pc => exact start_proceeds h hc hf
    | stop pc => exact stop_proceeds h hc hf

end Proceeds

/-! ## Rest -/

/-- The steps that the calls made so far have allowed, but for those that are left. -/
def Engine.gain (s : Engine) : Int := 30 * s.made + 7 - s.rank

theorem gain_step {os : Os} {ipv6 : Bool} {s s' : Engine} {a : Action} (h : Posted os ipv6 s) (hn : Counted s)
    (hstep : step os ipv6 s a = some s') : s.gain < s'.gain := by
  have hmade := made_le_of_step (step_inv hstep)
  have hnew := h.tidy.sane.unmade _ le_rfl
  have hblank := hn.fresh _ le_rfl
  unfold Engine.gain
  by_cases hstart : a = .beginStart
  · subst hstart
    cases step_inv hstep
    have hrank := rank_enter (k := .start .entered) hblank hnew
    change _ < 30 * ((s.made + 1 : Nat) : Int) + 7 - _
    rw [hrank]
    simp only [Call.rank, StartPc.rank]
    omega
  · by_cases hstop : a = .beginStop
    · subst hstop
      cases step_inv hstep
      have hrank := rank_enter (k := .stop .entered) hblank hnew
      change _ < 30 * ((s.made + 1 : Nat) : Int) + 7 - _
      rw [hrank]
      simp only [Call.rank, StopPc.rank]
      omega
    · have hlt := rank_step h hstep hstart hstop
      omega

/-- **The engine comes to rest.** In every run, whatever the system answers while a tunnel is set up, and whichever calls
are cancelled or watchdogs fail on the way: there are at most thirty steps for each call, and seven for the drop of the
engine; short of rest some party can go on, if a netstack ends once its shutdown is signalled; and by such steps the
engine comes to rest, with all calls returned, and no device open and no route installed but those of a tunnel whose
`RunState` is in the mutex of an engine that was not dropped. Of the routes this holds as far as `delete_route` does what
it is asked to, as `Device.effect` assumes. -/
theorem engine_comes_to_rest {os : Os} {ipv6 : Bool} {actions : List Action} {s : Engine}
    (h : exec (step os ipv6) .init actions = some s) :
    actions.length ≤ 30 * s.made + 7 ∧
    (¬ s.AtRest → ∃ a, Proceeds s a ∧ (step os ipv6 s a).isSome = true) ∧
    ∃ s', Reaches (step os ipv6) Proceeds s s' ∧ s'.AtRest := by
  have hkeeps : ∀ s a s', Posted os ipv6 s ∧ Counted s → step os ipv6 s a = some s' → Posted os ipv6 s' ∧ Counted s' :=
    fun _ _ _ hs hstep => ⟨hs.1.step (step_inv hstep), hs.2.step hs.1 (step_inv hstep)⟩
  have hinit : Posted os ipv6 .init ∧ Counted .init := ⟨.init, fun _ _ => rfl, fun _ hc => absurd hc (Nat.not_lt_zero _)⟩
  have hs := exec_invariant hkeeps hinit h
  refine ⟨?_, exists_proceeds hs.1 hs.2, ?_⟩
  · have hgain := length_le_gain Engine.gain
      (fun s a s' hs hstep => ⟨hkeeps s a s' hs hstep, gain_step hs.1 hs.2 hstep⟩) hinit h
    have hzero : Engine.init.gain = 0 := rfl
    rw [hzero, Engine.gain] at hgain
    omega
  · refine Reaches.exists_goal Engine.rank (fun s a s' hs hok hstep => ⟨hkeeps s a s' hs hstep, ?_⟩)
      (fun s hs hrest => exists_proceeds hs.1 hs.2 hrest) .refl hs
    exact rank_step hs.1 hstep (by rintro rfl; exact hok) (by rintro rfl; exact hok)

/-- A `stop` that waits for its watchdog is cancelled, and the watchdog has nobody to wait for it. -/
theorem engine_comes_to_rest_sample :
    ∃ s s', exec (step .windows false) .init
        (startRun 0 wifi ++ .beginStop :: List.replicate 3 (.stop 1) ++ [.cancelStop 1]) = some s ∧ s.Live 0 ∧
      Reaches (step .windows false) Proceeds s s' ∧ s'.AtRest := by
  obtain ⟨s, hs⟩ : ∃ s, exec (step .windows false) .init
      (startRun 0 wifi ++ .beginStop :: List.replicate 3 (.stop 1) ++ [.cancelStop 1]) = some s := ⟨_, rfl⟩
  have hlive : s.Live 0 := by
    cases hs
    decide
  obtain ⟨s', hreach, hrest⟩ := (engine_comes_to_rest hs).2.2
  exact ⟨s, s', hs, hlive, hreach, hrest⟩

end AceTun
