import AceTun.Engine.OneTunnel

/-!
# Teardown

An adapter is taken down by the watchdog, by a `stop` whose watchdog failed, by `Drop for TunRedirect`, or by whoever
drops its slot last. They race for the slot, and each of them makes more calls than it needs: the drop that ends a
teardown removes the routes again. The calls about one adapter are its log, and `Whole` says what a finished log is:
the device is opened, the routes are added, then deleted, and only then come the calls that end the session. In every
run the log of a started adapter is the beginning of such a log (`Custody.Told`), so a route is deleted once, and before
the session ends (`Whole.nodup_deletedRoutes`, `Whole.before_end`).

Who may be at work is said by `Custody.Stands`, for the watchdog, and `Busy`, for the others. As a `RunState` has one
owner, a `stop` that waits for its watchdog shares the slot with nobody else, and it returns once the adapter is gone
(`gone_of_joined`). All of it together is `teardown_happens_once`.
-/

namespace AceTun

open RustStd Transition

/-! ## Logs -/

namespace OsCall

/-- The handle that is recorded. -/
def added : OsCall → Option RouteHandle
  | .addRoute route => some route
  | _ => none

/-- The handle that is passed to `delete_route`. -/
def deleted : OsCall → Option RouteHandle
  | .undo (.deleteRoute route) => some route
  | _ => none

/-- The session is shut down, or the adapter is closed. -/
def ends : OsCall → Bool
  | .undo .shutdownSession => true
  | .close => true
  | _ => false

/-- Such a call is about no route. -/
theorem none_of_ends {call : OsCall} (h : call.ends = true) : call.added = none ∧ call.deleted = none := by
  unfold ends at h
  split at h
  · exact ⟨rfl, rfl⟩
  · exact ⟨rfl, rfl⟩
  · cases h

end OsCall

def addedRoutes (log : List OsCall) : List RouteHandle := log.filterMap OsCall.added

def deletedRoutes (log : List OsCall) : List RouteHandle := log.filterMap OsCall.deleted

/-- The order in which `remove_routes` deletes. -/
def removalOrder (os : Os) (routes : List RouteHandle) : List RouteHandle :=
  match os with
  | .windows => routes
  | _ => routes.reverse

theorem removalOrder_perm (os : Os) (routes : List RouteHandle) : (removalOrder os routes).Perm routes := by
  cases os with
  | linux => exact List.reverse_perm routes
  | macos => exact List.reverse_perm routes
  | windows => exact List.Perm.refl routes

/-- The log of an adapter with these routes. -/
def opening (routes : List RouteHandle) : List OsCall := .openDevice :: routes.map .addRoute

/-- The log of an adapter that was taken down, up to the end of the session. -/
def cleared (os : Os) (routes : List RouteHandle) : List OsCall :=
  opening routes ++ (removalOrder os routes).map fun route => .undo (.deleteRoute route)

/-- A finished log: the session ends after everything else. -/
def Whole (os : Os) (routes : List RouteHandle) (log : List OsCall) : Prop :=
  ∃ last : List OsCall, log = cleared os routes ++ last ∧ ∀ call ∈ last, call.ends = true

section Logs

variable {os : Os} {routes : List RouteHandle} {log rest before after : List OsCall} {call : OsCall}

@[simp] theorem addedRoutes_append : addedRoutes (log ++ rest) = addedRoutes log ++ addedRoutes rest :=
  List.filterMap_append

@[simp] theorem deletedRoutes_append : deletedRoutes (log ++ rest) = deletedRoutes log ++ deletedRoutes rest :=
  List.filterMap_append

@[simp] theorem addedRoutes_opening : addedRoutes (opening routes) = routes := by
  rw [addedRoutes, opening, List.filterMap_cons_none rfl, List.filterMap_map]
  exact List.filterMap_some

@[simp] theorem deletedRoutes_opening : deletedRoutes (opening routes) = [] := by
  simp [deletedRoutes, opening, OsCall.deleted]

@[simp] theorem addedRoutes_cleared : addedRoutes (cleared os routes) = routes := by
  rw [cleared, addedRoutes_append, addedRoutes_opening]
  simp [addedRoutes, OsCall.added]

@[simp] theorem deletedRoutes_cleared : deletedRoutes (cleared os routes) = removalOrder os routes := by
  rw [cleared, deletedRoutes_append, deletedRoutes_opening, List.nil_append, deletedRoutes, List.filterMap_map]
  exact List.filterMap_some

theorem not_ends_of_mem_cleared (h : call ∈ cleared os routes) : call.ends = false := by
  simp only [cleared, opening, List.mem_append, List.mem_cons, List.mem_map] at h
  rcases h with (rfl | ⟨_, -, rfl⟩) | ⟨_, -, rfl⟩
  · rfl
  · rfl
  · rfl

/-- The calls that end the session are about no route. -/
theorem routes_of_ends (h : ∀ call ∈ log, call.ends = true) : addedRoutes log = [] ∧ deletedRoutes log = [] :=
  ⟨List.filterMap_eq_nil_iff.mpr fun call hc => (OsCall.none_of_ends (h call hc)).1,
    List.filterMap_eq_nil_iff.mpr fun call hc => (OsCall.none_of_ends (h call hc)).2⟩

namespace Whole

theorem deletedRoutes_eq (h : Whole os routes log) : deletedRoutes log = removalOrder os routes := by
  obtain ⟨last, rfl, hlast⟩ := h
  simp [(routes_of_ends hlast).2]

theorem addedRoutes_eq (h : Whole os routes log) : addedRoutes log = routes := by
  obtain ⟨last, rfl, hlast⟩ := h
  simp [(routes_of_ends hlast).1]

/-- **Deleted once**, by any part of the teardown. -/
theorem nodup_deletedRoutes (h : Whole os routes (log ++ rest)) (hn : routes.Nodup) : (deletedRoutes log).Nodup := by
  have hall : (deletedRoutes (log ++ rest)).Nodup := by
    rw [h.deletedRoutes_eq]
    exact (removalOrder_perm os routes).nodup_iff.mpr hn
  rw [deletedRoutes_append] at hall
  exact hall.of_append_left

/-- **Deleted before the session ends.** -/
theorem before_end (h : Whole os routes (before ++ call :: after)) (hc : call.ends = true) : Whole os routes before := by
  obtain ⟨last, he, hlast⟩ := h
  rcases List.append_eq_append_iff.mp he with ⟨mid, hmid, hcall⟩ | ⟨mid, hmid, hcall⟩
  · cases mid with
    | nil => exact ⟨[], by simpa using hmid.symm, by simp⟩
    | cons first mid =>
      -- the call would come before a deletion
      have hmem : call ∈ cleared os routes := by
        cases hcall
        simp [hmid]
      rw [not_ends_of_mem_cleared hmem] at hc
      cases hc
  · exact ⟨mid, hmid, fun x hx => hlast x (hcall ▸ List.mem_append_left _ hx)⟩

end Whole

/-- The deletions with shutdowns of the session after them finish the log. -/
theorem whole_of_shutdowns (n : Nat) {todo : List Undo}
    (h : todo = (removalOrder os routes).map .deleteRoute ++ List.replicate n .shutdownSession) :
    Whole os routes (opening routes ++ todo.map .undo ++ [.close]) := by
  refine ⟨List.replicate n (.undo .shutdownSession) ++ [.close], by simp [h, cleared], fun call hc => ?_⟩
  rcases List.mem_append.mp hc with hc | hc
  · rw [List.eq_of_mem_replicate hc]
    rfl
  · rw [List.mem_singleton.mp hc]
    rfl

theorem whole_drop (os : Os) (tun : TunAdapter) :
    Whole os tun.routes (opening tun.routes ++ (tun.drop os).map .undo ++ [.close]) := by
  cases os with
  | linux => exact whole_of_shutdowns 0 (List.append_nil _).symm
  | macos => exact whole_of_shutdowns 0 (List.append_nil _).symm
  | windows => exact whole_of_shutdowns 1 rfl

/-- The drop at the end of a teardown finds no routes. -/
theorem whole_tearDown (os : Os) (tun : TunAdapter) :
    Whole os tun.routes (opening tun.routes ++ (tun.tearDown os).map .undo ++ [.close]) := by
  cases os with
  | linux => exact whole_of_shutdowns 0 (List.append_nil _)
  | macos => exact whole_of_shutdowns 0 (List.append_nil _)
  | windows => exact whole_of_shutdowns 2 (List.append_assoc ..)

end Logs

/-! ## What the log of a tunnel says -/

/-- The log agrees with where the adapter is. A failed start may leave routes to the device, so the log of an adapter
that is gone is finished only if its tasks were spawned. -/
def Custody.Told (os : Os) (plan : List RouteHandle) (log : List OsCall) (born : Prop) : Custody → Prop
  | .absent => True
  | .building tun => log = opening tun.routes
  | .slot tun => tun.routes = plan ∧ log = opening plan
  | .tearing party todo => party ≠ .start → Whole os plan (log ++ todo.map .undo ++ [.close])
  | .gone => born → Whole os plan log

namespace Tunnel

variable {os : Os} {ipv6 : Bool} {t : Tunnel} {tun : TunAdapter}

/-- The routes of the tunnel. -/
def plan (os : Os) (ipv6 : Bool) (t : Tunnel) : List RouteHandle := routePlan os ipv6 t.iface

def Told (os : Os) (ipv6 : Bool) (t : Tunnel) : Prop :=
  t.custody.Told os (t.plan os ipv6) t.device.log (t.watchdog ≠ .unborn)

namespace Told

theorem at_custody (h : t.Told os ipv6) {custody : Custody} (hc : t.custody = custody) :
    custody.Told os (t.plan os ipv6) t.device.log (t.watchdog ≠ .unborn) := hc ▸ h

theorem install (h : t.Told os ipv6) (hc : t.custody = .building tun) (route : RouteHandle) :
    (t.install tun route).Told os ipv6 := by
  have hlog : t.device.log = opening tun.routes := h.at_custody hc
  change t.device.log ++ [.addRoute route] = opening (tun.routes ++ [route])
  simp [hlog, opening]

theorem giveUp (todo : List Undo) : (t.tear .start todo).Told os ipv6 := fun h => absurd rfl h

theorem spawn (h : t.Told os ipv6) (hc : t.custody = .building tun) (hplan : tun.routes = t.plan os ipv6) :
    (t.spawn tun).Told os ipv6 := by
  have hlog : t.device.log = opening tun.routes := h.at_custody hc
  exact ⟨hplan, hplan ▸ hlog⟩

/-- The adapter is taken out of its slot. -/
theorem tear (h : t.Told os ipv6) (hc : t.custody = .slot tun) {party : Party} {todo : List Undo}
    (hall : Whole os tun.routes (opening tun.routes ++ todo.map .undo ++ [.close])) :
    (t.tear party todo).Told os ipv6 := by
  obtain ⟨hplan, hlog⟩ : tun.routes = t.plan os ipv6 ∧ t.device.log = opening (t.plan os ipv6) := h.at_custody hc
  intro _
  change Whole os (t.plan os ipv6) (t.device.log ++ todo.map .undo ++ [.close])
  rw [hlog, ← hplan]
  exact hall

/-- A call of the teardown goes from what is left to the log. -/
theorem undo (h : t.Told os ipv6) {party : Party} {call : Undo} {todo : List Undo}
    (hc : t.custody = .tearing party (call :: todo)) : (t.undo party call todo).Told os ipv6 := by
  intro hp
  have hall : Whole os (t.plan os ipv6) (t.device.log ++ (call :: todo).map .undo ++ [.close]) := h.at_custody hc hp
  change Whole os (t.plan os ipv6) (t.device.log ++ [.undo call] ++ todo.map .undo ++ [.close])
  simpa using hall

theorem close (h : t.Told os ipv6) {party : Party} (hc : t.custody = .tearing party [])
    (hp : party = .start → t.watchdog = .unborn) : t.close.Told os ipv6 := by
  intro hborn
  have hall : Whole os (t.plan os ipv6) (t.device.log ++ [] ++ [.close]) :=
    h.at_custody hc fun he => hborn (hp he)
  rw [List.append_nil] at hall
  exact hall

/-- The watchdog goes on. -/
theorem watchdog (h : t.Told os ipv6) (hw : t.watchdog ≠ .unborn) (w : Watchdog) :
    Told os ipv6 { t with watchdog := w } := by
  unfold Told
  cases hc : t.custody with
  | absent => trivial
  | building tun => exact h.at_custody hc
  | slot tun => exact h.at_custody hc
  | tearing party todo => exact h.at_custody hc
  | gone => exact fun _ => h.at_custody hc hw

end Told

end Tunnel

/-- A `start` that installs routes has the rest of the plan left. -/
def Call.Installs (os : Os) (ipv6 : Bool) (t : Tunnel) : Call → Prop
  | .start (.configuring iface) => t.iface = iface ∧ t.custody = .building ⟨[]⟩
  | .start (.installing todo) => ∃ tun, t.custody = .building tun ∧ tun.routes ++ todo = t.plan os ipv6
  | _ => True

def Engine.Installs (os : Os) (ipv6 : Bool) (s : Engine) : Prop := ∀ c, (s.call c).Installs os ipv6 (s.tunnel c)

section Installs

variable {os : Os} {ipv6 : Bool} {s s' : Engine} {a : Action} {c r : CallId} {k : Call} {t t' : Tunnel}

/-- An adapter that left its `start` is no longer installed. -/
theorem Call.Installs.move (h : k.Installs os ipv6 t) (hc : ∀ tun, t.custody ≠ .building tun) :
    k.Installs os ipv6 t' := by
  unfold Installs at h ⊢
  split at h
  · exact absurd h.2 (hc _)
  · obtain ⟨tun, ht, -⟩ := h
    exact absurd ht (hc tun)
  · trivial

namespace Engine.Installs

theorem setCall (h : s.Installs os ipv6) (hk : k.Installs os ipv6 (s.tunnel c)) : (s.setCall c k).Installs os ipv6 :=
  forall_setCall (P := fun x k => k.Installs os ipv6 (s.tunnel x)) h hk

theorem setTunnel (h : s.Installs os ipv6) (ht : (s.call r).Installs os ipv6 t) : (s.setTunnel r t).Installs os ipv6 :=
  forall_setTunnel_at (P := fun x t => (s.call x).Installs os ipv6 t) h ht

/-- A `start` goes on, and its tunnel with it. -/
theorem advance (h : s.Installs os ipv6) (hk : k.Installs os ipv6 t) :
    ((s.setTunnel c t).setCall c k).Installs os ipv6 := by
  intro x
  rw [setCall_call, setCall_tunnel, setTunnel_tunnel]
  split
  · exact hk
  · exact h x

theorem step (h : s.Installs os ipv6) (hstep : Step os ipv6 s a s') : s'.Installs os ipv6 := by
  cases hstep with
  | create hc => exact h.advance ⟨rfl, rfl⟩
  | @configure c iface tun hc ht =>
    have hold := h c
    rw [hc] at hold
    obtain ⟨hiface, hnone⟩ := hold
    exact h.setCall ⟨⟨[]⟩, hnone, by rw [Tunnel.plan, hiface, List.nil_append]⟩
  | @addRoute c route todo tun hc ht =>
    have hold := h c
    rw [hc] at hold
    obtain ⟨tun', ht', hplan⟩ := hold
    cases ht.symm.trans ht'
    refine h.advance ⟨tun.push route, rfl, ?_⟩
    rw [TunAdapter.push, List.append_assoc]
    exact hplan
  | unwind hc ht => exact h.setTunnel (by rw [hc]; trivial)
  | _ =>
    first
    | exact h
    | exact h.advance trivial
    | exact h.setCall trivial
    | exact h.setTunnel (h _)
    | exact h.setTunnel ((h _).move (by simp [*]))
    | exact setCall (h.setTunnel (h _)) trivial
    | exact setCall (h.setTunnel ((h _).move (by simp [*]))) trivial

end Engine.Installs

end Installs

section Told

variable {os : Os} {ipv6 : Bool} {s s' : Engine} {a : Action}

theorem told_step (hs : Sane s) (hi : s.Installs os ipv6) (ht : ∀ r, (s.tunnel r).Told os ipv6)
    (h : Step os ipv6 s a s') : ∀ r, (s'.tunnel r).Told os ipv6 := by
  cases h with
  | create hc => exact Engine.forall_setTunnel (P := Tunnel.Told os ipv6) ht rfl
  | configureFails hc hb => exact Engine.forall_setTunnel (P := Tunnel.Told os ipv6) ht (.giveUp _)
  | addRouteFails hc hb => exact Engine.forall_setTunnel (P := Tunnel.Told os ipv6) ht (.giveUp _)
  | deviceFails hc hb => exact Engine.forall_setTunnel (P := Tunnel.Told os ipv6) ht (.giveUp _)
  | addRoute hc hb => exact Engine.forall_setTunnel ht ((ht _).install hb _)
  | @spawn c tun hc hb =>
    have hold := hi c
    rw [hc] at hold
    obtain ⟨tun', hb', hplan⟩ := hold
    cases hb.symm.trans hb'
    exact Engine.forall_setTunnel ht ((ht _).spawn hb (by rw [← hplan, List.append_nil]))
  | @unwound c e hc hb =>
    have hunborn : (s.tunnel c).watchdog = .unborn := hs.unborn c (by rw [hc]; rfl)
    exact Engine.forall_setTunnel ht ((ht _).close hb fun _ => hunborn)
  | fallback hc hw hb => exact Engine.forall_setTunnel ht ((ht _).tear hb (whole_tearDown os _))
  | cancelLast hc hw hb =>
    exact Engine.forall_setTunnel (P := Tunnel.Told os ipv6) ht ((ht _).tear hb (whole_drop os _))
  | dropTear hd hb => exact Engine.forall_setTunnel ht ((ht _).tear hb (whole_tearDown os _))
  | watchdogTakes hw hn hb =>
    exact Engine.forall_setTunnel ht (((ht _).tear hb (whole_tearDown os _)).watchdog (by simp [Tunnel.tear, hw]) _)
  | watchdogFailsLast hw hh hb =>
    exact Engine.forall_setTunnel ht (((ht _).tear hb (whole_drop os _)).watchdog (by simp [Tunnel.tear, hw]) _)
  | watchdogTorn hw hb =>
    exact Engine.forall_setTunnel ht (((ht _).close hb (by simp)).watchdog (by simp [Tunnel.close, hw]) _)
  | fallbackDone hc hb => exact Engine.forall_setTunnel (P := Tunnel.Told os ipv6) ht ((ht _).close hb (by simp))
  | cancelDone hc hb => exact Engine.forall_setTunnel ht ((ht _).close hb (by simp))
  | dropTorn hd hb => exact Engine.forall_setTunnel ht ((ht _).close hb (by simp))
  | watchdogDropped hw hb => exact Engine.forall_setTunnel ht ((ht _).close hb (by simp))
  | watchdogEmpty hw hn hb => exact Engine.forall_setTunnel ht ((ht _).watchdog (by simp [hw]) _)
  | watchdogJoins hw => exact Engine.forall_setTunnel ht ((ht _).watchdog (by simp [hw]) _)
  | @watchdogFails r hw =>
    have hborn : (s.tunnel r).watchdog ≠ .unborn := fun hu => by simp [hu] at hw
    exact Engine.forall_setTunnel ht ((ht _).watchdog hborn _)
  | _ =>
    -- the adapter stays where it is, or a call of its teardown is made
    first
    | exact ht
    | exact Engine.forall_setTunnel (P := Tunnel.Told os ipv6) ht (ht _)
    | exact Engine.forall_setTunnel ht ((ht _).undo (by assumption))

end Told

/-! ## Who is at work -/

def Custody.inSlot : Custody → Bool
  | .slot _ => true
  | _ => false

/-- Where the watchdog may be, by where the adapter is. -/
def Custody.Stands (watchdog : Watchdog) (held : Bool) : Custody → Prop
  | .absent => watchdog = .unborn
  | .building _ => watchdog = .unborn
  | .slot _ => watchdog = .awaiting ∨ watchdog = .failed
  | .tearing .start _ => watchdog = .unborn
  -- a watchdog that fails drops the adapter only if there is no `RunState`
  | .tearing .watchdog _ => watchdog = .tearing ∨ (watchdog = .failed ∧ held = false)
  | .tearing .stop _ => watchdog ≠ .unborn
  | .tearing .drop _ => watchdog ≠ .unborn
  | .gone => True

def Tunnel.Stands (t : Tunnel) : Prop := t.custody.Stands t.watchdog t.held

namespace Tunnel.Stands

variable {t : Tunnel}

theorem at_custody (h : t.Stands) {custody : Custody} (hc : t.custody = custody) :
    custody.Stands t.watchdog t.held := hc ▸ h

/-- The calls that are left do not matter. -/
theorem undo (h : t.Stands) {party : Party} {call : Undo} {todo : List Undo}
    (hc : t.custody = .tearing party (call :: todo)) : (t.undo party call todo).Stands := by
  have hold := h.at_custody hc
  cases party with
  | start => exact hold
  | watchdog => exact hold
  | stop => exact hold
  | drop => exact hold

/-- The `RunState` is dropped. -/
theorem release (h : t.Stands) : Stands { t with held := false } := by
  unfold Stands
  cases hc : t.custody with
  | tearing party todo =>
    have hold := h.at_custody hc
    cases party with
    | start => exact hold
    | watchdog => exact hold.imp_right fun hf => ⟨hf.1, rfl⟩
    | stop => exact hold
    | drop => exact hold
  | absent => exact h.at_custody hc
  | building tun => exact h.at_custody hc
  | slot tun => exact h.at_custody hc
  | gone => trivial

/-- The watchdog goes on to a place where the slot is empty, or fails. -/
theorem watchdog (h : t.Stands) (hw : t.watchdog = .awaiting ∨ t.watchdog = .joining) {w : Watchdog} (hw' : w ≠ .unborn)
    (hslot : (∀ tun, t.custody ≠ .slot tun) ∨ w = .failed) : Stands { t with watchdog := w } := by
  have hborn : t.watchdog ≠ .unborn := by rcases hw with hw | hw <;> simp [hw]
  unfold Stands
  cases hc : t.custody with
  | absent => exact absurd (h.at_custody hc) hborn
  | building tun => exact absurd (h.at_custody hc) hborn
  | slot tun => exact hslot.elim (fun hn => absurd hc (hn tun)) .inr
  | gone => trivial
  | tearing party todo =>
    have hold := h.at_custody hc
    cases party with
    | start => exact absurd hold hborn
    | watchdog => rcases hw with hw | hw <;> simp [Custody.Stands, hw] at hold
    | stop => exact hw'
    | drop => exact hw'

theorem unborn_of_building (h : t.Stands) {tun : TunAdapter} (hc : t.custody = .building tun) : t.watchdog = .unborn :=
  h.at_custody hc

theorem born_of_slot (h : t.Stands) {tun : TunAdapter} (hc : t.custody = .slot tun) : t.watchdog ≠ .unborn := by
  rcases h.at_custody hc with hw | hw <;> simp [hw]

theorem born_of_inSlot (h : t.Stands) (hc : t.custody.inSlot = true) : t.watchdog ≠ .unborn := by
  cases ht : t.custody with
  | slot tun => exact h.born_of_slot ht
  | _ => simp [ht, Custody.inSlot] at hc

end Tunnel.Stands

theorem stands_step {os : Os} {ipv6 : Bool} {s s' : Engine} {a : Action} (hs : ∀ r, (s.tunnel r).Stands)
    (h : Step os ipv6 s a s') : ∀ r, (s'.tunnel r).Stands := by
  cases h with
  | create hc => exact Engine.forall_setTunnel (P := Tunnel.Stands) hs rfl
  | configureFails hc hb => exact Engine.forall_setTunnel (P := Tunnel.Stands) hs ((hs _).unborn_of_building hb)
  | addRouteFails hc hb => exact Engine.forall_setTunnel (P := Tunnel.Stands) hs ((hs _).unborn_of_building hb)
  | deviceFails hc hb => exact Engine.forall_setTunnel (P := Tunnel.Stands) hs ((hs _).unborn_of_building hb)
  | addRoute hc hb => exact Engine.forall_setTunnel (P := Tunnel.Stands) hs ((hs _).unborn_of_building hb)
  | spawn hc hb => exact Engine.forall_setTunnel (P := Tunnel.Stands) hs (.inl rfl)
  | joined hc hw => exact Engine.forall_setTunnel hs (hs _).release
  | cancel hc hw => exact Engine.forall_setTunnel hs (hs _).release
  | abort hd => exact Engine.forall_setTunnel hs (hs _).release
  | fallback hc hw hb => exact Engine.forall_setTunnel (P := Tunnel.Stands) hs ((hs _).born_of_slot hb)
  | cancelLast hc hw hb => exact Engine.forall_setTunnel (P := Tunnel.Stands) hs ((hs _).born_of_slot hb)
  | dropTear hd hb => exact Engine.forall_setTunnel (P := Tunnel.Stands) hs ((hs _).born_of_slot hb)
  | watchdogTakes hw hn hb => exact Engine.forall_setTunnel (P := Tunnel.Stands) hs (.inl rfl)
  | watchdogFailsLast hw hh hb => exact Engine.forall_setTunnel (P := Tunnel.Stands) hs (.inr ⟨rfl, hh⟩)
  | watchdogEmpty hw hn hb => exact Engine.forall_setTunnel hs ((hs _).watchdog (.inl hw) (by simp) (.inl hb))
  | @watchdogJoins r hw =>
    have hempty : ∀ tun, (s.tunnel r).custody ≠ .slot tun := fun tun hc => by
      have hold := (hs r).at_custody hc
      simp [Custody.Stands, hw] at hold
    exact Engine.forall_setTunnel hs ((hs _).watchdog (.inr hw) (by simp) (.inl hempty))
  | watchdogFails hw =>
    exact Engine.forall_setTunnel hs ((hs _).watchdog (hw.symm.imp_left And.left) (by simp) (.inr rfl))
  | _ =>
    -- the adapter stays where it is, a call of its teardown is made, or it is closed
    first
    | exact hs
    | exact Engine.forall_setTunnel (P := Tunnel.Stands) hs (hs _)
    | exact Engine.forall_setTunnel hs ((hs _).undo (by assumption))
    | exact Engine.forall_setTunnel (P := Tunnel.Stands) hs trivial

/-- A party that is at work on the adapter of a tunnel. -/
def Engine.Tears (s : Engine) (r : CallId) (held : Bool) : Party → Prop
  | .stop => held = false ∨ ∃ c, s.call c = .stop (.fallback r)
  | .drop => s.dropping = .tearing r
  | _ => True

theorem Engine.Tears.release {s : Engine} {r : CallId} {held : Bool} {party : Party} (h : s.Tears r held party) :
    s.Tears r false party := by
  cases party with
  | start => trivial
  | watchdog => trivial
  | stop => exact .inl rfl
  | drop => exact h

/-- Whoever took an adapter out of its slot is at work on it. -/
def Busy (s : Engine) : Prop :=
  ∀ r party todo, (s.tunnel r).custody = .tearing party todo → s.Tears r (s.tunnel r).held party

namespace Busy

variable {os : Os} {ipv6 : Bool} {s s' : Engine} {a : Action} {c r : CallId} {k : Call} {t : Tunnel} {d : DropPc}

theorem setCall (h : Busy s)
    (hc : ∀ r todo, (s.tunnel r).custody = .tearing .stop todo → s.call c ≠ .stop (.fallback r)) :
    Busy (s.setCall c k) := by
  intro r party todo ht
  have hold := h r party todo ht
  cases party with
  | start => trivial
  | watchdog => trivial
  | drop => exact hold
  | stop =>
    refine hold.imp_right ?_
    rintro ⟨x, hx⟩
    have hne : x ≠ c := fun he => hc r todo ht (he ▸ hx)
    exact ⟨x, by rw [Engine.setCall_call, if_neg hne, hx]⟩

theorem setTunnel (h : Busy s) (ht : ∀ party todo, t.custody = .tearing party todo → s.Tears r t.held party) :
    Busy (s.setTunnel r t) :=
  Engine.forall_setTunnel_at
    (P := fun x t => ∀ party todo, t.custody = .tearing party todo → s.Tears x t.held party) h ht

theorem setDrop (h : Busy s) (hd : ∀ r todo, (s.tunnel r).custody = .tearing .drop todo → s.dropping ≠ .tearing r) :
    Busy { s with dropping := d } := by
  intro r party todo ht
  have hold := h r party todo ht
  cases party with
  | start => trivial
  | watchdog => trivial
  | stop => exact hold
  | drop => exact absurd hold (hd r todo ht)

/-- A call of the teardown is made. -/
theorem undo (h : Busy s) {party : Party} {call : Undo} {todo : List Undo}
    (hc : (s.tunnel r).custody = .tearing party (call :: todo)) :
    Busy (s.setTunnel r ((s.tunnel r).undo party call todo)) :=
  h.setTunnel fun _ _ he => by
    cases he
    exact h r party _ hc

/-- The adapter is closed, and its party may go. -/
theorem close (h : Busy s) (ht : t.custody = .gone) : Busy (s.setTunnel r t) :=
  h.setTunnel fun _ _ he => by cases ht.symm.trans he

theorem release (h : Busy s) : Busy (s.setTunnel r { s.tunnel r with held := false }) :=
  h.setTunnel fun party todo he => (h r party todo he).release

/-- The tunnel that is closed is not one that is taken down. -/
theorem ne_of_closed (ht : t.custody = .gone) {party : Party} {todo : List Undo} {x : CallId}
    (hx : ((s.setTunnel r t).tunnel x).custody = .tearing party todo) : x ≠ r := by
  rintro rfl
  rw [Engine.setTunnel_tunnel, if_pos rfl, ht] at hx
  cases hx

theorem step (h : Busy s) (hs : Sane s) (hstep : Step os ipv6 s a s') : Busy s' := by
  have hnew : s.call s.made = .unmade := hs.unmade _ le_rfl
  cases hstep with
  | create hc => exact setCall (h.setTunnel fun _ _ he => by cases he) fun _ _ _ => by simp [hc]
  | configureFails hc hb => exact setCall (h.setTunnel fun _ _ he => by cases he; trivial) fun _ _ _ => by simp [hc]
  | addRouteFails hc hb => exact setCall (h.setTunnel fun _ _ he => by cases he; trivial) fun _ _ _ => by simp [hc]
  | deviceFails hc hb => exact setCall (h.setTunnel fun _ _ he => by cases he; trivial) fun _ _ _ => by simp [hc]
  | addRoute hc hb => exact setCall (h.setTunnel fun _ _ he => by cases he) fun _ _ _ => by simp [hc]
  | spawn hc hb => exact setCall (h.setTunnel fun _ _ he => by cases he) fun _ _ _ => by simp [hc]
  | joined hc hw => exact setCall h.release fun _ _ _ => by simp [hc]
  | cancel hc hw => exact setCall h.release fun _ _ _ => by simp [hc]
  | @fallback c r tun hc hw hb =>
    have hcall : Busy (s.setCall c (.stop (.fallback r))) := h.setCall fun _ _ _ => by simp [hc]
    refine hcall.setTunnel fun party todo he => ?_
    cases he
    exact .inr ⟨c, by rw [Engine.setCall_call, if_pos rfl]⟩
  | @fallbackDone c r hc hb =>
    refine setCall (h.close rfl) fun x todo hx he => ?_
    have hne : x ≠ r := ne_of_closed rfl hx
    cases hc.symm.trans he
    exact hne rfl
  | cancelLast hc hw hb =>
    exact setCall (h.setTunnel fun _ _ he => by cases he; exact .inl rfl) fun _ _ _ => by simp [hc]
  | @dropTear r tun hd hb =>
    have hdrop : Busy { s with dropping := .tearing r } := h.setDrop fun _ _ _ => by simp [hd]
    refine hdrop.setTunnel fun party todo he => ?_
    cases he
    rfl
  | @dropTorn r hd hb =>
    refine setDrop (h.close rfl) fun x todo hx he => ?_
    have hne : x ≠ r := ne_of_closed rfl hx
    cases hd.symm.trans he
    exact hne rfl
  | abort hd => exact setDrop h.release fun _ _ _ => by simp [hd]
  | dropSignal hd => exact setDrop (h.setTunnel (h _)) fun _ _ _ => by simp [hd]
  | watchdogTakes hw hn hb => exact h.setTunnel fun _ _ he => by cases he; trivial
  | watchdogFailsLast hw hh hb => exact h.setTunnel fun _ _ he => by cases he; trivial
  | _ =>
    first
    | exact h
    | exact h.undo (by assumption)
    | exact h.close rfl
    | exact h.setTunnel (h _)
    | exact h.setCall fun _ _ _ => by simp [*]
    | exact h.setDrop fun _ _ _ => by simp [*]
    | exact setCall (h.setTunnel (h _)) fun _ _ _ => by simp [*]
    | exact setCall (h.close rfl) fun _ _ _ => by simp [*]

end Busy

/-! ## Out of the slot -/

/-- The step takes the adapter of the tunnel out of its slot. -/
def Engine.takes (r : CallId) (s s' : Engine) : Bool :=
  (s.tunnel r).custody.inSlot && !(s'.tunnel r).custody.inSlot

/-- The tasks of the tunnel were spawned, and its adapter is out of its slot. -/
def Engine.Spent (s : Engine) (r : CallId) : Prop :=
  (s.tunnel r).watchdog ≠ .unborn ∧ (s.tunnel r).custody.inSlot = false

section Slot

variable {os : Os} {ipv6 : Bool} {s s' : Engine} {a : Action} {r : CallId}

/-- A watchdog that was spawned stays so. -/
theorem born_step (hs : Sane s) (h : Step os ipv6 s a s') :
    ∀ r, (s.tunnel r).watchdog ≠ .unborn → (s'.tunnel r).watchdog ≠ .unborn := by
  have hset : ∀ {r : CallId} {t : Tunnel}, ((s.tunnel r).watchdog ≠ .unborn → t.watchdog ≠ .unborn) →
      ∀ x, (s.tunnel x).watchdog ≠ .unborn → ((s.setTunnel r t).tunnel x).watchdog ≠ .unborn :=
    fun ht => Engine.forall_setTunnel_at (P := fun x t => (s.tunnel x).watchdog ≠ .unborn → t.watchdog ≠ .unborn)
      (fun _ hx => hx) ht
  cases h with
  | @create c iface hc => exact hset fun hborn => absurd (hs.unborn c (by rw [hc]; rfl)) hborn
  | _ =>
    first
    | exact fun _ hx => hx
    | exact hset fun hx => hx
    | exact hset fun _ hu => by cases hu

/-- Only a `start` puts an adapter into its slot, before its tasks are spawned. -/
theorem inSlot_step (hs : Sane s) (h : Step os ipv6 s a s') :
    ∀ r, (s.tunnel r).watchdog ≠ .unborn → (s'.tunnel r).custody.inSlot = true → (s.tunnel r).custody.inSlot = true := by
  have hset : ∀ {r : CallId} {t : Tunnel},
      ((s.tunnel r).watchdog ≠ .unborn → t.custody.inSlot = true → (s.tunnel r).custody.inSlot = true) →
      ∀ x, (s.tunnel x).watchdog ≠ .unborn → ((s.setTunnel r t).tunnel x).custody.inSlot = true →
        (s.tunnel x).custody.inSlot = true :=
    fun ht => Engine.forall_setTunnel_at (P := fun x t => (s.tunnel x).watchdog ≠ .unborn → t.custody.inSlot = true →
      (s.tunnel x).custody.inSlot = true) (fun _ _ hx => hx) ht
  cases h with
  | @spawn c tun hc hb => exact hset fun hborn _ => absurd (hs.unborn c (by rw [hc]; rfl)) hborn
  | _ =>
    first
    | exact fun _ _ hx => hx
    | exact hset fun _ hx => hx
    | exact hset fun _ hx => by cases hx

theorem spent_step (hs : Sane s) (h : Step os ipv6 s a s') (hr : s.Spent r) : s'.Spent r := by
  refine ⟨born_step hs h r hr.1, Bool.eq_false_iff.mpr fun hin => ?_⟩
  have hback : (s.tunnel r).custody.inSlot = true := inSlot_step hs h r hr.1 hin
  cases hr.2.symm.trans hback

end Slot

/-- The call that changed is the one that was set. -/
theorem Engine.of_setCall_eq {s : Engine} {c x : CallId} {k k' : Call} (h : (s.setCall x k).call c = k')
    (hc : s.call c ≠ k') : c = x ∧ k = k' := by
  rw [setCall_call] at h
  split at h
  · next he => exact ⟨he, h⟩
  · exact absurd h hc

/-- **What teardown keeps.** -/
structure Tidy (os : Os) (ipv6 : Bool) (s : Engine) : Prop where
  sane : Sane s
  installs : s.Installs os ipv6
  told : ∀ r, (s.tunnel r).Told os ipv6
  stands : ∀ r, (s.tunnel r).Stands
  busy : Busy s
  born : ∀ c, (s.call c).spawned = true → (s.tunnel c).watchdog ≠ .unborn

namespace Tidy

variable {os : Os} {ipv6 : Bool} {s s' : Engine} {a : Action} {c r : CallId}

theorem init : Tidy os ipv6 .init where
  sane := Sane.init
  installs _ := trivial
  told _ := trivial
  stands _ := rfl
  busy _ _ _ h := by cases h
  born _ h := by cases h

theorem step_born (h : Tidy os ipv6 s) (hstep : Step os ipv6 s a s') :
    ∀ c, (s'.call c).spawned = true → (s'.tunnel c).watchdog ≠ .unborn := by
  have hold : ∀ c, (s.call c).spawned = true → (s'.tunnel c).watchdog ≠ .unborn :=
    fun c hc => born_step h.sane hstep c (h.born c hc)
  cases hstep with
  | @spawn c tun hc hb =>
    refine Engine.forall_setCall (s := s.setTunnel c ((s.tunnel c).spawn tun))
      (P := fun x k => k.spawned = true → ((s.setTunnel c ((s.tunnel c).spawn tun)).tunnel x).watchdog ≠ .unborn) hold ?_
    intro _ hu
    rw [Engine.setTunnel_tunnel, if_pos rfl] at hu
    cases hu
  | @publish c hc =>
    refine Engine.forall_setCall (P := fun x k => k.spawned = true → (s.tunnel x).watchdog ≠ .unborn) hold ?_
    exact fun _ => hold c (by rw [hc]; rfl)
  | _ =>
    first
    | exact hold
    | exact Engine.forall_setCall (P := fun x k => k.spawned = true → (Engine.tunnel _ x).watchdog ≠ .unborn) hold
        fun hk => by cases hk

theorem step (h : Tidy os ipv6 s) (hstep : Step os ipv6 s a s') : Tidy os ipv6 s' where
  sane := h.sane.step hstep
  installs := h.installs.step hstep
  told := told_step h.sane h.installs h.told hstep
  stands := stands_step h.stands hstep
  busy := h.busy.step h.sane hstep
  born := h.step_born hstep

/-- The log of a started adapter is the beginning of a finished one, and all its routes are added. -/
theorem whole (h : Tidy os ipv6 s) (hr : (s.tunnel r).watchdog ≠ .unborn) :
    addedRoutes (s.tunnel r).device.log = (s.tunnel r).plan os ipv6 ∧
      ∃ rest, Whole os ((s.tunnel r).plan os ipv6) ((s.tunnel r).device.log ++ rest) := by
  have hundo : ∀ todo : List Undo, addedRoutes (todo.map .undo ++ [.close]) = [] := fun todo => by
    simp [addedRoutes, OsCall.added]
  cases hc : (s.tunnel r).custody with
  | absent => exact absurd ((h.stands r).at_custody hc) hr
  | building tun => exact absurd ((h.stands r).at_custody hc) hr
  | slot tun =>
    obtain ⟨hplan, hlog⟩ := (h.told r).at_custody hc
    have hall := whole_tearDown os tun
    rw [hplan, ← hlog, List.append_assoc] at hall
    exact ⟨by rw [hlog, addedRoutes_opening], _, hall⟩
  | gone =>
    have hall := (h.told r).at_custody hc hr
    exact ⟨hall.addedRoutes_eq, [], by rwa [List.append_nil]⟩
  | tearing party todo =>
    have hparty : party ≠ .start := by
      rintro rfl
      exact hr ((h.stands r).at_custody hc)
    have hall := (h.told r).at_custody hc hparty
    rw [List.append_assoc] at hall
    have hadd := hall.addedRoutes_eq
    rw [addedRoutes_append, hundo, List.append_nil] at hadd
    exact ⟨hadd, _, hall⟩

/-- A `stop` whose watchdog is done shares the adapter with nobody: it is gone. -/
theorem gone_of_joined (h : Tidy os ipv6 s) (hc : s.call c = .stop (.awaiting r))
    (hw : (s.tunnel r).watchdog = .finished ∨
      ((s.tunnel r).watchdog = .failed ∧ ∀ tun, (s.tunnel r).custody ≠ .slot tun)) : (s.tunnel r).custody = .gone := by
  have howner : s.holds (stateRole r) (.call c) := holds_of_owned hc rfl
  have hheld : (s.tunnel r).held = true := (h.sane.states r).flag_of_holds howner
  have hborn : (s.tunnel r).watchdog ≠ .unborn := h.sane.born howner
  cases hcus : (s.tunnel r).custody with
  | gone => rfl
  | absent => exact absurd ((h.stands r).at_custody hcus) hborn
  | building tun => exact absurd ((h.stands r).at_custody hcus) hborn
  | slot tun =>
    rcases hw with hw | ⟨-, hempty⟩
    · have hstands := (h.stands r).at_custody hcus
      simp [Custody.Stands, hw] at hstands
    · exact absurd hcus (hempty tun)
  | tearing party todo =>
    have hstands := (h.stands r).at_custody hcus
    have hbusy := h.busy r party todo hcus
    cases party with
    | start => exact absurd hstands hborn
    | watchdog => rcases hw with hw | ⟨hw, -⟩ <;> simp [Custody.Stands, hw, hheld] at hstands
    | stop =>
      -- the owner of the `RunState` is unique, and it is not at its fallback
      rcases hbusy with hfree | ⟨x, hx⟩
      · cases hheld.symm.trans hfree
      · cases (h.sane.states r).unique howner (holds_of_owned hx rfl)
        cases hc.symm.trans hx
    | drop =>
      have hdrop : s.holds (stateRole r) .drop := by
        change s.dropping.owned = some r
        rw [show s.dropping = .tearing r from hbusy]
        rfl
      cases (h.sane.states r).unique howner hdrop

/-- **A `stop` returns once the adapter is gone.** -/
theorem gone_of_returned (h : Tidy os ipv6 s) (hstep : Step os ipv6 s a s') (hc : s.call c ≠ .stop (.returned (.ok ())))
    (hc' : s'.call c = .stop (.returned (.ok ()))) :
    ∃ r, (s.call c).owned c = some r ∧ (s'.tunnel r).custody = .gone := by
  cases hstep with
  | @joined x r hx hw =>
    obtain ⟨rfl, -⟩ := Engine.of_setCall_eq hc' hc
    refine ⟨r, by rw [hx]; rfl, ?_⟩
    rw [Engine.setCall_tunnel, Engine.setTunnel_tunnel, if_pos rfl]
    exact h.gone_of_joined hx hw
  | @fallbackDone x r hx ht =>
    obtain ⟨rfl, -⟩ := Engine.of_setCall_eq hc' hc
    refine ⟨r, by rw [hx]; rfl, ?_⟩
    rw [Engine.setCall_tunnel, Engine.setTunnel_tunnel, if_pos rfl]
    rfl
  | _ =>
    first
    | exact absurd hc' hc
    | cases (Engine.of_setCall_eq hc' hc).2

end Tidy

/-- **An adapter is taken out of its slot at most once.** -/
theorem tally_takes_le_one (os : Os) (ipv6 : Bool) (r : CallId) (actions : List Action) :
    tally (step os ipv6) (Engine.takes r) .init actions ≤ 1 := by
  have htidy : ∀ s a s', Tidy os ipv6 s → step os ipv6 s a = some s' → Tidy os ipv6 s' :=
    fun s a s' h hstep => h.step (step_inv hstep)
  have hspent : ∀ s a s', Tidy os ipv6 s → s.Spent r → step os ipv6 s a = some s' →
      Engine.takes r s s' = false ∧ s'.Spent r :=
    fun s a s' h hs hstep => ⟨by rw [Engine.takes, hs.2, Bool.false_and], spent_step h.sane (step_inv hstep) hs⟩
  have htakes : ∀ s a s', Tidy os ipv6 s → step os ipv6 s a = some s' → Engine.takes r s s' = true → s'.Spent r := by
    intro s a s' h hstep ht
    obtain ⟨hin, hout⟩ := Bool.and_eq_true_iff.mp ht
    have hborn : (s.tunnel r).watchdog ≠ .unborn := (h.stands r).born_of_inSlot hin
    exact ⟨born_step h.sane (step_inv hstep) r hborn, by simpa using hout⟩
  exact tally_le_one htidy hspent htakes Tidy.init actions

/-- **Teardown happens once.** In every run, the adapter of a `start` that succeeded is taken out of its slot at most
once, no route is deleted twice, and the session is shut down and the adapter closed only after all recorded routes were
deleted in their order. When a `stop` returns `Ok`, the slot is empty and each recorded route was deleted once. -/
theorem teardown_happens_once {os : Os} {ipv6 : Bool} {actions : List Action} {s : Engine}
    (h : exec (step os ipv6) .init actions = some s) :
    (∀ r, (s.call r).spawned = true →
      tally (step os ipv6) (Engine.takes r) .init actions ≤ 1 ∧
      (∀ tun, (s.tunnel r).custody = .slot tun → addedRoutes (s.tunnel r).device.log = tun.routes) ∧
      (deletedRoutes (s.tunnel r).device.log).Nodup ∧
      ∀ before call after, (s.tunnel r).device.log = before ++ call :: after → call.ends = true →
        deletedRoutes before = removalOrder os (addedRoutes (s.tunnel r).device.log)) ∧
    ∀ a s' c, step os ipv6 s a = some s' → s.call c ≠ .stop (.returned (.ok ())) →
      s'.call c = .stop (.returned (.ok ())) →
      ∃ r, (s.call c).owned c = some r ∧ (s'.tunnel r).custody.inSlot = false ∧
        ∀ route ∈ addedRoutes (s'.tunnel r).device.log, (deletedRoutes (s'.tunnel r).device.log).count route = 1 := by
  have hinv : Tidy os ipv6 s := exec_invariant (fun _ _ _ hs hstep => hs.step (step_inv hstep)) Tidy.init h
  refine ⟨fun r hr => ?_, fun a s' c hstep hc hc' => ?_⟩
  · obtain ⟨hadd, rest, hall⟩ := hinv.whole (hinv.born r hr)
    refine ⟨tally_takes_le_one os ipv6 r actions, fun tun ht => ?_, ?_, fun before call after hlog hend => ?_⟩
    · exact hadd.trans ((hinv.told r).at_custody ht).1.symm
    · exact hall.nodup_deletedRoutes (nodup_routePlan ..)
    · rw [hlog, List.append_assoc] at hall
      rw [hadd]
      exact (hall.before_end hend).deletedRoutes_eq
  · obtain ⟨r, howned, hgone⟩ := hinv.gone_of_returned (step_inv hstep) hc hc'
    have hinv' : Tidy os ipv6 s' := hinv.step (step_inv hstep)
    have hborn : (s'.tunnel r).watchdog ≠ .unborn :=
      born_step hinv.sane (step_inv hstep) r (hinv.sane.born (holds_of_owned rfl howned))
    have hall : Whole os ((s'.tunnel r).plan os ipv6) (s'.tunnel r).device.log := (hinv'.told r).at_custody hgone hborn
    refine ⟨r, howned, by rw [hgone]; rfl, fun route hroute => ?_⟩
    rw [hall.addedRoutes_eq] at hroute
    rw [hall.deletedRoutes_eq, (removalOrder_perm os _).count_eq]
    exact List.count_eq_one_of_mem (nodup_routePlan ..) hroute

/-- A `stop` waits for the watchdog, which deletes both routes, shuts the session down twice and closes the device. -/
theorem teardown_of_stop :
    ∃ s s', exec (step .windows false) .init
        (startRun 0 wifi ++ .beginStop :: List.replicate 3 (.stop 1) ++ teardownRun 0) = some s ∧
      (deletedRoutes (s.tunnel 0).device.log).length = 2 ∧ (deletedRoutes (s.tunnel 0).device.log).Nodup ∧
      step .windows false s (.stop 1) = some s' ∧ s'.call 1 = .stop (.returned (.ok ())) ∧
      ∃ r, (s.call 1).owned 1 = some r ∧ (s'.tunnel r).custody.inSlot = false := by
  obtain ⟨s, hs⟩ : ∃ s, exec (step .windows false) .init
      (startRun 0 wifi ++ .beginStop :: List.replicate 3 (.stop 1) ++ teardownRun 0) = some s := ⟨_, rfl⟩
  obtain ⟨s', hs'⟩ : ∃ s', step .windows false s (.stop 1) = some s' := by
    cases hs
    exact ⟨_, rfl⟩
  have hstart : (s.call 0).spawned = true ∧ s.call 1 ≠ .stop (.returned (.ok ())) ∧
      (deletedRoutes (s.tunnel 0).device.log).length = 2 := by
    cases hs
    decide
  have hret : s'.call 1 = .stop (.returned (.ok ())) := by
    cases hs
    cases hs'
    rfl
  have honce := teardown_happens_once hs
  obtain ⟨r, howned, hempty, -⟩ := honce.2 (.stop 1) s' 1 hs' hstart.2.1 hret
  exact ⟨s, s', hs, hstart.2.2, (honce.1 0 hstart.1).2.2.1, hs', hret, r, howned, hempty⟩

end AceTun
