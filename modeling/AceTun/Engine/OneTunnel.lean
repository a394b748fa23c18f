import AceTun.Engine.Routes

/-!
# One tunnel at a time

Two tunnels must not have routes at once, and the physical interface must be looked for while there are none of our
own. Both hold in every run in which a `start` wins its `compare_exchange` only after the adapters of the earlier ones
are closed (`one_tunnel_of_startsAfterTeardown`). `stop` does not see to that: it clears the flag before it waits for
the teardown, and a `start` in between finds the flag clear and the routes in place (`start_during_teardown`).
-/

namespace AceTun

open RustStd Transition

namespace Engine

variable (s : Engine) (r : CallId)

/-- The adapter of the tunnel is open. -/
def Live : Prop := (s.tunnel r).device.opened = true

/-- It is open, and has routes. -/
def Routed : Prop := s.Live r ∧ (s.tunnel r).device.installed ≠ []

instance : Decidable (s.Live r) := inferInstanceAs (Decidable (_ = true))

instance : Decidable (s.Routed r) := inferInstanceAs (Decidable (s.Live r ∧ _ ≠ []))

end Engine

def Action.isCompareExchange : Action → Bool
  | .start _ .compareExchange => true
  | _ => false

/-- A `start` that finds the flag clear finds the adapters of the earlier ones closed. -/
def StartsAfterTeardown (s : Engine) (a : Action) : Prop :=
  a.isCompareExchange = true → s.cells.running = false → ∀ r < s.made, (s.tunnel r).device.opened = false

instance (s : Engine) (a : Action) : Decidable (StartsAfterTeardown s a) :=
  inferInstanceAs (Decidable (_ → _ → ∀ r < s.made, (s.tunnel r).device.opened = false))

/-- A `start` between its `compare_exchange` and the opening of the device. -/
def Call.beforeOpen : Call → Bool
  | .start .claimed => true
  | .start (.discovered _) => true
  | .start (.creating _) => true
  | _ => false

theorem Call.claims_of_beforeOpen {k : Call} (h : k.beforeOpen = true) : k.claims = true := by
  unfold beforeOpen at h
  split at h
  · rfl
  · rfl
  · rfl
  · cases h

/-! ## What a step changes -/

section Views

variable {os : Os} {ipv6 : Bool} {s s' : Engine} {a : Action}

theorem live_setTunnel {r : CallId} {t : Tunnel} (ht : t.device.opened = true → s.Live r) :
    ∀ x, (s.setTunnel r t).Live x → s.Live x :=
  Engine.forall_setTunnel_at (P := fun x t => t.device.opened = true → s.Live x) (fun _ hx => hx) ht

/-- Only `create` opens an adapter. -/
theorem live_of_step (h : Step os ipv6 s a s') (ha : ∀ c, a ≠ .start c (.create (.ok ()))) :
    ∀ x, s'.Live x → s.Live x := by
  cases h with
  | create hc => exact absurd rfl (ha _)
  | _ =>
    first
    | exact fun _ hx => hx
    | exact live_setTunnel fun ht => ht
    | exact live_setTunnel fun ht => (Device.perform_undo_opened ..).symm.trans ht
    | exact live_setTunnel fun ht => by cases ht

theorem beforeOpen_setCall {c : CallId} {k : Call} (hk : k.beforeOpen = true → (s.call c).beforeOpen = true) :
    ∀ x, ((s.setCall c k).call x).beforeOpen = true → (s.call x).beforeOpen = true :=
  Engine.forall_setCall (P := fun x k => k.beforeOpen = true → (s.call x).beforeOpen = true) (fun _ hx => hx) hk

/-- Only a `compare_exchange` brings a call to where the device is not open yet. -/
theorem beforeOpen_of_step (h : Step os ipv6 s a s') (ha : a.isCompareExchange = false) :
    ∀ x, (s'.call x).beforeOpen = true → (s.call x).beforeOpen = true := by
  cases h with
  | claim hc hf => cases ha
  | discover hc _ => exact beforeOpen_setCall fun _ => by rw [hc]; rfl
  | setIface hc =>
    refine beforeOpen_setCall fun _ => ?_
    change (s.call _).beforeOpen = true
    rw [hc]
    rfl
  | _ =>
    first
    | exact fun _ hx => hx
    | exact beforeOpen_setCall fun hk => by cases hk

theorem made_le_of_step (h : Step os ipv6 s a s') : s.made ≤ s'.made := by
  cases h with
  | beginStart hd => exact Nat.le_succ _
  | beginStop hd => exact Nat.le_succ _
  | _ => exact Nat.le_refl _

end Views

/-! ## The invariant -/

/-- At most one adapter is open, and none while a `start` has yet to open its own. -/
structure Sole (s : Engine) : Prop where
  made : ∀ r, s.Live r → r < s.made
  one : ∀ a b, s.Live a → s.Live b → a = b
  clear : ∀ c, (s.call c).beforeOpen = true → ∀ r, ¬ s.Live r

section Steps

variable {os : Os} {ipv6 : Bool} {s s' : Engine} {a : Action}

/-- The device is opened: it is the only one, as none was open before. -/
theorem Sole.create (ho : Sole s) (hs : Sane s) {c : CallId} {iface : PhysicalInterface}
    (hc : s.call c = .start (.creating iface)) :
    Sole ((s.setTunnel c (.create iface)).setCall c (.start (.configuring iface))) := by
  have hnone : ∀ r, ¬ s.Live r := ho.clear c (by rw [hc]; rfl)
  have hlive : ∀ r, ((s.setTunnel c (.create iface)).setCall c (.start (.configuring iface))).Live r → r = c := by
    intro r hr
    by_contra hne
    unfold Engine.Live at hr
    rw [Engine.setCall_tunnel, Engine.setTunnel_tunnel, if_neg hne] at hr
    exact hnone r hr
  have hmade : c < s.made := by
    by_contra hge
    rw [hs.unmade c (Nat.le_of_not_lt hge)] at hc
    cases hc
  refine ⟨fun r hr => hlive r hr ▸ hmade, fun a b ha hb => (hlive a ha).trans (hlive b hb).symm, ?_⟩
  intro x hx
  -- another call that is still before its device would keep the flag set as well
  exfalso
  rw [Engine.setCall_call] at hx
  split at hx
  · cases hx
  · next hne => exact hne (hs.claims_unique (by rw [hc]; rfl) (Call.claims_of_beforeOpen hx))

/-- The flag is claimed: the adapters of the earlier starts are closed. -/
theorem Sole.claim (ho : Sole s) (hok : StartsAfterTeardown s (.start c .compareExchange))
    (hf : s.cells.running = false) : Sole ((s.setFlag true).setCall c (.start .claimed)) := by
  have hnone : ∀ r, ¬ s.Live r := by
    intro r hr
    have hcl := hok rfl hf r (ho.made r hr)
    exact absurd (hcl.symm.trans hr) (by simp)
  exact ⟨ho.made, ho.one, fun _ _ => hnone⟩

theorem Sole.step (ho : Sole s) (hs : Sane s) (hok : StartsAfterTeardown s a) (h : Step os ipv6 s a s') : Sole s' := by
  by_cases hcreate : ∃ c, a = .start c (.create (.ok ()))
  · obtain ⟨c, rfl⟩ := hcreate
    cases h with
    | create hc => exact ho.create hs hc
  have hlive := live_of_step h fun c he => hcreate ⟨c, he⟩
  by_cases hcas : a.isCompareExchange = true
  · cases h with
    | claim hc hf => exact ho.claim hok hf
    | refuse hc hf => exact ⟨ho.made, ho.one, fun x hx => ho.clear x (beforeOpen_setCall (fun hk => by cases hk) x hx)⟩
    | _ => cases hcas
  · have hbefore := beforeOpen_of_step h (by simpa using hcas)
    exact ⟨fun r hr => Nat.lt_of_lt_of_le (ho.made r (hlive r hr)) (made_le_of_step h),
      fun a b ha hb => ho.one a b (hlive a ha) (hlive b hb),
      fun c hc r hr => ho.clear c (hbefore c hc) r (hlive r hr)⟩

end Steps

theorem Sole.init : Sole .init where
  made r hr := by cases hr
  one a b ha := by cases ha
  clear c hc := by cases hc

/-- **One tunnel at a time.** In every run in which each `start` that wins its `compare_exchange` finds the adapters of
the earlier starts closed, in every state: at most one open adapter has routes, and if a `start` looks for the physical
interface next, no adapter has any. -/
theorem one_tunnel_of_startsAfterTeardown {os : Os} {ipv6 : Bool} {s : Engine}
    (h : Reaches (step os ipv6) StartsAfterTeardown .init s) :
    (∀ a b, s.Routed a → s.Routed b → a = b) ∧
      ∀ c iface s', step os ipv6 s (.start c (.discover iface)) = some s' → ∀ r, (s.tunnel r).device.installed = [] := by
  have hsole : Sane s ∧ Sole s := by
    refine h.invariant (I := fun s => Sane s ∧ Sole s) ⟨Sane.init, Sole.init⟩ ?_
    rintro s a s' ⟨hs, ho⟩ hok hstep
    exact ⟨hs.step (step_inv hstep), ho.step hs hok (step_inv hstep)⟩
  refine ⟨fun a b ha hb => hsole.2.one a b ha.1 hb.1, fun c iface s' hstep r => ?_⟩
  have hclaimed : (s.call c).beforeOpen = true := by
    cases step_inv hstep with
    | discoverNone hc _ => rw [hc]; rfl
    | discover hc _ => rw [hc]; rfl
  by_contra hne
  exact hsole.2.clear c hclaimed r ((wf_of_reaches h r).opened_of_installed hne)

/-! ## A start during a teardown -/

/-- A `start` that succeeds on Windows without IPv6, with two routes to install. -/
def startRun (c : CallId) (iface : PhysicalInterface) : List Action :=
  .beginStart :: List.map (.start c)
    [.compareExchange, .discover iface, .setIface, .create (.ok ()), .configure (.ok ()), .addRoute (.ok ()),
      .addRoute (.ok ()), .device (.ok ()), .publish]

/-- The netstack of a tunnel ends, and its watchdog takes the adapter down: two routes, the session twice, and the
device. -/
def teardownRun (r : CallId) : List Action := .netstackEnds r :: List.replicate 7 (.watchdog r)

/-- A `stop` that waits for the teardown. -/
def stopRun (c r : CallId) : List Action := .beginStop :: List.replicate 3 (.stop c) ++ teardownRun r ++ [.stop c]

/-- The interface of the examples. -/
def wifi : PhysicalInterface := ⟨some 12, none⟩

/-- After a `stop` that returned, the next `start` looks for the interface while nothing is installed. -/
theorem one_tunnel_after_stop :
    ∃ s, exec (guarded (step .windows false) StartsAfterTeardown) .init
        (startRun 0 wifi ++ stopRun 1 0 ++ [.beginStart, .start 2 .compareExchange]) = some s ∧
      (step .windows false s (.start 2 (.discover wifi))).isSome = true ∧
      (∀ a b, s.Routed a → s.Routed b → a = b) ∧ ∀ r, (s.tunnel r).device.installed = [] := by
  obtain ⟨s, hs⟩ : ∃ s, exec (guarded (step .windows false) StartsAfterTeardown) .init
      (startRun 0 wifi ++ stopRun 1 0 ++ [.beginStart, .start 2 .compareExchange]) = some s := ⟨_, rfl⟩
  have hnext : (step .windows false s (.start 2 (.discover wifi))).isSome = true := by
    cases hs
    decide
  obtain ⟨s', hs'⟩ := Option.isSome_iff_exists.mp hnext
  have hone := one_tunnel_of_startsAfterTeardown (reaches_of_exec hs)
  exact ⟨s, hs, hnext, hone.1, hone.2 2 wifi s' hs'⟩

/-- **A start during a teardown.** The `stop` of the first tunnel is suspended at its await. A second `start` finds the
flag clear, looks for the interface while both routes of the first tunnel are installed, and goes on to a second adapter
with routes. -/
theorem start_during_teardown :
    ∃ s s', exec (step .windows false) .init
        (startRun 0 wifi ++ [.beginStop, .stop 1, .stop 1, .stop 1, .beginStart, .start 2 .compareExchange]) = some s ∧
      s.call 1 = .stop (.awaiting 0) ∧
      (s.tunnel 0).device.installed.length = 2 ∧
      exec (step .windows false) s
        [.start 2 (.discover wifi), .start 2 .setIface, .start 2 (.create (.ok ())), .start 2 (.configure (.ok ())),
          .start 2 (.addRoute (.ok ()))] = some s' ∧
      s'.Routed 0 ∧ s'.Routed 2 := by
  refine ⟨_, _, rfl, rfl, by decide, rfl, ?_, ?_⟩
  · decide
  · decide

end AceTun
