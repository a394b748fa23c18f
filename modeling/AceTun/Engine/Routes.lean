import AceTun.Engine.Ownership

/-!
# Routes

In every run the routes that the system has of an adapter are accounted for: they are recorded by the adapter, or they
are among the calls that are left to take it down, or they go with the device (`Accords`). So an adapter that is closed
has none (`Tunnel.Wf.opened_of_installed`).
-/

namespace AceTun

open RustStd Transition

/-- The adapter's handle is open. -/
def Custody.live : Custody → Bool
  | .absent => false
  | .gone => false
  | _ => true

/-- The route will be deleted, or goes with the device. -/
def Custody.Accounts (route : RouteHandle) : Custody → Prop
  | .building tun => route ∈ tun.routes
  | .slot tun => route ∈ tun.routes
  | .tearing _ todo => .deleteRoute route ∈ todo ∨ route.via = .tunnel
  | _ => False

/-- What the system has of an adapter agrees with where the adapter is. -/
structure Accords (os : Os) (d : Device) (custody : Custody) : Prop where
  opened : d.opened = custody.live
  accounted : ∀ route ∈ d.installed, custody.Accounts route
  /-- A failed `create` leaves its routes to the device, on Windows. -/
  tunnelled : os = .windows → ∀ tun, custody = .building tun → ∀ route ∈ tun.routes, route.via = .tunnel

def Tunnel.Wf (os : Os) (t : Tunnel) : Prop := Accords os t.device t.custody

namespace Tunnel.Wf

variable {os : Os} {t : Tunnel} {tun : TunAdapter}

theorem opened_of (h : t.Wf os) {custody : Custody} (hc : t.custody = custody) (hl : custody.live = true) :
    t.device.opened = true := by
  rw [h.opened, hc, hl]

theorem accounted_of (h : t.Wf os) {custody : Custody} (hc : t.custody = custody) {route : RouteHandle}
    (hr : route ∈ t.device.installed) : custody.Accounts route := hc ▸ h.accounted route hr

theorem create (os : Os) (iface : PhysicalInterface) : (Tunnel.create iface).Wf os where
  opened := rfl
  accounted route h := by cases h
  tunnelled _ tun h route hr := by
    cases h
    cases hr

theorem install (h : t.Wf os) (hc : t.custody = .building tun) {route : RouteHandle}
    (hr : os = .windows → route.via = .tunnel) : (t.install tun route).Wf os where
  opened := h.opened_of hc rfl
  accounted x hx := by
    rcases List.mem_append.mp hx with hx | hx
    · exact List.mem_append_left _ (h.accounted_of hc hx)
    · exact List.mem_append_right _ hx
  tunnelled hw tun' he x hx := by
    cases he
    rcases List.mem_append.mp hx with hx | hx
    · exact h.tunnelled hw tun hc x hx
    · rw [List.mem_singleton.mp hx]
      exact hr hw

theorem spawn (h : t.Wf os) (hc : t.custody = .building tun) : (t.spawn tun).Wf os where
  opened := h.opened_of hc rfl
  accounted _ hx := h.accounted_of hc hx
  tunnelled _ tun he := by cases he

/-- A start that fails gives its adapter up. -/
theorem giveUp (h : t.Wf os) (hc : t.custody = .building tun) {todo : List Undo}
    (hall : ∀ route ∈ tun.routes, .deleteRoute route ∈ todo ∨ os = .windows) : (t.tear .start todo).Wf os where
  opened := h.opened_of hc rfl
  accounted x hx := (hall x (h.accounted_of hc hx)).imp_right fun hw => h.tunnelled hw tun hc x (h.accounted_of hc hx)
  tunnelled _ tun he := by cases he

/-- An adapter is taken out of its slot. -/
theorem tear (h : t.Wf os) (hc : t.custody = .slot tun) {party : Party} {todo : List Undo}
    (hall : ∀ route ∈ tun.routes, .deleteRoute route ∈ todo) : (t.tear party todo).Wf os where
  opened := h.opened_of hc rfl
  accounted x hx := .inl (hall x (h.accounted_of hc hx))
  tunnelled _ tun he := by cases he

theorem undo (h : t.Wf os) {party : Party} {call : Undo} {todo : List Undo}
    (hc : t.custody = .tearing party (call :: todo)) : (t.undo party call todo).Wf os where
  opened := (Device.perform_undo_opened ..).trans (h.opened_of hc rfl)
  accounted x hx := by
    obtain ⟨hx, hne⟩ := Device.mem_perform_undo _ hx
    exact (h.accounted_of hc hx).imp_left fun hd => (List.mem_cons.mp hd).resolve_left fun he => hne he.symm
  tunnelled _ tun he := by cases he

/-- **A closed adapter has no routes.** -/
theorem close (h : t.Wf os) {party : Party} (hc : t.custody = .tearing party []) : t.close.Wf os where
  opened := rfl
  accounted x hx := by
    obtain ⟨hx, hv⟩ := List.mem_filter.mp hx
    rcases h.accounted_of hc hx with hd | ht
    · cases hd
    · simp [ht] at hv
  tunnelled _ tun he := by cases he

theorem opened_of_installed (h : t.Wf os) (hi : t.device.installed ≠ []) : t.device.opened = true := by
  obtain ⟨route, hm⟩ := List.exists_mem_of_ne_nil _ hi
  cases hc : t.custody with
  | absent => cases h.accounted_of hc hm
  | gone => cases h.accounted_of hc hm
  | building tun => exact h.opened_of hc rfl
  | slot tun => exact h.opened_of hc rfl
  | tearing party todo => exact h.opened_of hc rfl

end Tunnel.Wf

/-- On Windows, the routes that a start has left to install lead into the tunnel. -/
def Planned (os : Os) (s : Engine) : Prop :=
  ∀ c todo, s.call c = .start (.installing todo) → os = .windows → ∀ route ∈ todo, route.via = .tunnel

theorem Planned.setCall {os : Os} {s : Engine} (h : Planned os s) {c : CallId} {k : Call}
    (hk : ∀ todo, k = .start (.installing todo) → os = .windows → ∀ route ∈ todo, route.via = .tunnel) :
    Planned os (s.setCall c k) :=
  Engine.forall_setCall
    (P := fun _ k => ∀ todo, k = .start (.installing todo) → os = .windows → ∀ route ∈ todo, route.via = .tunnel) h hk

section Routes

variable {os : Os} {ipv6 : Bool} {s s' : Engine} {a : Action}

theorem Planned.step (hp : Planned os s) (h : Step os ipv6 s a s') : Planned os s' := by
  cases h with
  | configure hc ht =>
    refine Planned.setCall hp fun todo he hw route hr => ?_
    cases he
    subst hw
    exact via_routePlan_windows hr
  | addRoute hc ht =>
    refine Planned.setCall hp fun todo he hw route hr => ?_
    cases he
    exact hp _ _ hc hw route (List.mem_cons_of_mem _ hr)
  | _ =>
    first
    | exact hp
    | exact Planned.setCall hp fun _ he => by cases he

theorem wf_step (hp : Planned os s) (hs : ∀ r, (s.tunnel r).Wf os) (h : Step os ipv6 s a s') :
    ∀ r, (s'.tunnel r).Wf os := by
  cases h with
  | create hc => exact Engine.forall_setTunnel hs (.create os _)
  | configureFails hc ht => exact Engine.forall_setTunnel hs ((hs _).giveUp ht fun _ => TunAdapter.mem_abandon)
  | addRouteFails hc ht => exact Engine.forall_setTunnel hs ((hs _).giveUp ht fun _ => TunAdapter.mem_abandon)
  | addRoute hc ht =>
    exact Engine.forall_setTunnel hs ((hs _).install ht fun hw => hp _ _ hc hw _ List.mem_cons_self)
  | deviceFails hc ht =>
    exact Engine.forall_setTunnel hs ((hs _).giveUp ht fun _ hr => .inl (TunAdapter.deleteRoute_mem_drop hr))
  | spawn hc ht => exact Engine.forall_setTunnel hs ((hs _).spawn ht)
  | unwind hc ht => exact Engine.forall_setTunnel hs ((hs _).undo ht)
  | unwound hc ht => exact Engine.forall_setTunnel hs ((hs _).close ht)
  | fallback hc hw ht =>
    exact Engine.forall_setTunnel hs ((hs _).tear ht fun _ => TunAdapter.deleteRoute_mem_tearDown)
  | fallbackCall hc ht => exact Engine.forall_setTunnel hs ((hs _).undo ht)
  | fallbackDone hc ht => exact Engine.forall_setTunnel (P := Tunnel.Wf os) hs ((hs _).close ht)
  | cancelLast hc hw ht =>
    exact Engine.forall_setTunnel (P := Tunnel.Wf os) hs ((hs _).tear ht fun _ => TunAdapter.deleteRoute_mem_drop)
  | cancelCall hc ht => exact Engine.forall_setTunnel hs ((hs _).undo ht)
  | cancelDone hc ht => exact Engine.forall_setTunnel hs ((hs _).close ht)
  | dropTear hd ht =>
    exact Engine.forall_setTunnel hs ((hs _).tear ht fun _ => TunAdapter.deleteRoute_mem_tearDown)
  | dropCall hd ht => exact Engine.forall_setTunnel hs ((hs _).undo ht)
  | dropTorn hd ht => exact Engine.forall_setTunnel hs ((hs _).close ht)
  | watchdogTakes hw hn ht =>
    exact Engine.forall_setTunnel (P := Tunnel.Wf os) hs ((hs _).tear ht fun _ => TunAdapter.deleteRoute_mem_tearDown)
  | watchdogCall hw ht => exact Engine.forall_setTunnel hs ((hs _).undo ht)
  | watchdogTorn hw ht => exact Engine.forall_setTunnel (P := Tunnel.Wf os) hs ((hs _).close ht)
  | watchdogDropped hw ht => exact Engine.forall_setTunnel hs ((hs _).close ht)
  | watchdogFailsLast hw hh ht =>
    exact Engine.forall_setTunnel (P := Tunnel.Wf os) hs ((hs _).tear ht fun _ => TunAdapter.deleteRoute_mem_drop)
  | _ =>
    -- the other steps leave the adapter where it is
    first
    | exact hs
    | exact Engine.forall_setTunnel (P := Tunnel.Wf os) hs (hs _)

end Routes

/-- **Routes are accounted for in every run.** -/
theorem wf_of_reaches {os : Os} {ipv6 : Bool} {ok : Engine → Action → Prop} {s : Engine}
    (h : Reaches (step os ipv6) ok .init s) : ∀ r, (s.tunnel r).Wf os := by
  have hinv : Planned os s ∧ ∀ r, (s.tunnel r).Wf os := by
    refine h.invariant (I := fun s => Planned os s ∧ ∀ r, (s.tunnel r).Wf os) ⟨?_, fun r => ?_⟩ ?_
    · intro c todo hc
      cases hc
    · exact ⟨rfl, by simp [Engine.init, Tunnel.blank, Device.blank], by simp [Engine.init, Tunnel.blank]⟩
    · rintro s a s' ⟨hp, hs⟩ - hstep
      exact ⟨hp.step (step_inv hstep), wf_step hp hs (step_inv hstep)⟩
  exact hinv.2

end AceTun
