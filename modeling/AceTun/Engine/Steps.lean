import AceTun.Engine.Lifecycle

/-!
# The steps of the engine

`Step` lists every transition of the engine, each with what it needs and the state it leads to, and `step_inv` says that
`step` makes no other. The facts about runs are proved from this list.
-/

namespace AceTun

open RustStd

namespace Engine

variable (s : Engine) (c r : CallId) (k : Call) (t : Tunnel) (flag : Bool)

@[simp] theorem setCall_tunnel : (s.setCall c k).tunnel = s.tunnel := rfl

@[simp] theorem setTunnel_call : (s.setTunnel r t).call = s.call := rfl

@[simp] theorem setTunnel_dropping : (s.setTunnel r t).dropping = s.dropping := rfl

@[simp] theorem setFlag_call : (s.setFlag flag).call = s.call := rfl

@[simp] theorem setFlag_dropping : (s.setFlag flag).dropping = s.dropping := rfl

theorem setCall_call (c' : CallId) : (s.setCall c k).call c' = if c' = c then k else s.call c' :=
  Function.update_apply ..

theorem setTunnel_tunnel (r' : CallId) : (s.setTunnel r t).tunnel r' = if r' = r then t else s.tunnel r' :=
  Function.update_apply ..

variable {s c r k t}

/-- What holds at every call still does when one is changed to another of which it holds. -/
theorem forall_setCall {P : CallId → Call → Prop} (h : ∀ x, P x (s.call x)) (hk : P c k) :
    ∀ x, P x ((s.setCall c k).call x) := by
  intro x
  rw [setCall_call]
  split
  · next he => exact he ▸ hk
  · exact h x

theorem forall_setTunnel_at {P : CallId → Tunnel → Prop} (h : ∀ x, P x (s.tunnel x)) (ht : P r t) :
    ∀ x, P x ((s.setTunnel r t).tunnel x) := by
  intro x
  rw [setTunnel_tunnel]
  split
  · next he => exact he ▸ ht
  · exact h x

theorem forall_setTunnel {P : Tunnel → Prop} (h : ∀ x, P (s.tunnel x)) (ht : P t) :
    ∀ x, P ((s.setTunnel r t).tunnel x) :=
  forall_setTunnel_at (P := fun _ => P) h ht

end Engine

namespace Tunnel

/-- The next call of a teardown: one that undoes something, or the closing of the device. -/
theorem advance_eq_some {party : Party} {t t' : Tunnel} {last : Bool} (h : t.advance party = some (t', last)) :
    (∃ call todo, t.custody = .tearing party (call :: todo) ∧ last = false ∧ t' = t.undo party call todo) ∨
    (t.custody = .tearing party [] ∧ last = true ∧ t' = t.close) := by
  unfold advance at h
  split at h
  · next p hc =>
    split at h
    · next hp =>
      cases h
      exact .inr ⟨by rw [hc, hp], rfl, rfl⟩
    · cases h
  · next p call todo hc =>
    split at h
    · next hp =>
      cases h
      exact .inl ⟨call, todo, by rw [hc, hp], rfl, rfl⟩
    · cases h
  · cases h

end Tunnel

/-- **Every transition of the engine.** -/
inductive Step (os : Os) (ipv6 : Bool) (s : Engine) : Action → Engine → Prop
  | beginStart : s.dropping = .alive → Step os ipv6 s .beginStart (s.enter (.start .entered))
  | beginStop : s.dropping = .alive → Step os ipv6 s .beginStop (s.enter (.stop .entered))
  | beginDrop : s.dropping = .alive → (∀ c < s.made, (s.call c).finished = true) →
      Step os ipv6 s .beginDrop { s with dropping := .entered }
  -- start
  | refuse {c} : s.call c = .start .entered → s.cells.running = true →
      Step os ipv6 s (.start c .compareExchange) (s.setCall c (.start (.returned (.error .alreadyRunning))))
  | claim {c} : s.call c = .start .entered → s.cells.running = false →
      Step os ipv6 s (.start c .compareExchange) ((s.setFlag true).setCall c (.start .claimed))
  | discoverNone {c iface} : s.call c = .start .claimed → iface.isEmpty = true →
      Step os ipv6 s (.start c (.discover iface)) (s.setCall c (.start (.failed notConnected)))
  | discover {c iface} : s.call c = .start .claimed → iface.isEmpty = false →
      Step os ipv6 s (.start c (.discover iface)) (s.setCall c (.start (.discovered iface)))
  | setIface {c iface} : s.call c = .start (.discovered iface) →
      Step os ipv6 s (.start c .setIface)
        ({ s with cells := s.cells.setIface iface }.setCall c (.start (.creating iface)))
  | createFails {c iface e} : s.call c = .start (.creating iface) →
      Step os ipv6 s (.start c (.create (.error e))) (s.setCall c (.start (.failed e)))
  | create {c iface} : s.call c = .start (.creating iface) →
      Step os ipv6 s (.start c (.create (.ok ())))
        ((s.setTunnel c (.create iface)).setCall c (.start (.configuring iface)))
  | configureFails {c iface tun e} : s.call c = .start (.configuring iface) → (s.tunnel c).custody = .building tun →
      Step os ipv6 s (.start c (.configure (.error e))) (s.unwind c (tun.abandon os) e)
  | configure {c iface tun} : s.call c = .start (.configuring iface) → (s.tunnel c).custody = .building tun →
      Step os ipv6 s (.start c (.configure (.ok ()))) (s.setCall c (.start (.installing (routePlan os ipv6 iface))))
  | addRouteFails {c route todo tun e} : s.call c = .start (.installing (route :: todo)) →
      (s.tunnel c).custody = .building tun →
      Step os ipv6 s (.start c (.addRoute (.error e))) (s.unwind c (tun.abandon os) (routeError route e))
  | addRoute {c route todo tun} : s.call c = .start (.installing (route :: todo)) →
      (s.tunnel c).custody = .building tun →
      Step os ipv6 s (.start c (.addRoute (.ok ())))
        ((s.setTunnel c ((s.tunnel c).install tun route)).setCall c (.start (.installing todo)))
  | deviceFails {c tun e} : s.call c = .start (.installing []) → (s.tunnel c).custody = .building tun →
      Step os ipv6 s (.start c (.device (.error e))) (s.unwind c (tun.drop os) (.io e))
  | spawn {c tun} : s.call c = .start (.installing []) → (s.tunnel c).custody = .building tun →
      Step os ipv6 s (.start c (.device (.ok ())))
        ((s.setTunnel c ((s.tunnel c).spawn tun)).setCall c (.start .publishing))
  | publish {c} : s.call c = .start .publishing →
      Step os ipv6 s (.start c .publish) ({ s with running := some c }.setCall c (.start (.returned (.ok ()))))
  | unwind {c e call todo} : s.call c = .start (.unwinding e) → (s.tunnel c).custody = .tearing .start (call :: todo) →
      Step os ipv6 s (.start c .unwind) (s.setTunnel c ((s.tunnel c).undo .start call todo))
  | unwound {c e} : s.call c = .start (.unwinding e) → (s.tunnel c).custody = .tearing .start [] →
      Step os ipv6 s (.start c .unwind) ((s.setTunnel c (s.tunnel c).close).setCall c (.start (.failed e)))
  | reset {c e} : s.call c = .start (.failed e) →
      Step os ipv6 s (.start c .reset) ((s.setFlag false).setCall c (.start (.returned (.error e))))
  -- stop
  | notRunning {c} : s.call c = .stop .entered → s.running = none →
      Step os ipv6 s (.stop c) (s.setCall c (.stop (.returned (.error .notRunning))))
  | take {c r} : s.call c = .stop .entered → s.running = some r →
      Step os ipv6 s (.stop c) ({ s with running := none }.setCall c (.stop (.taken r)))
  | clear {c r} : s.call c = .stop (.taken r) →
      Step os ipv6 s (.stop c) ((s.setFlag false).setCall c (.stop (.cleared r)))
  | signal {c r} : s.call c = .stop (.cleared r) →
      Step os ipv6 s (.stop c)
        ((s.setTunnel r { s.tunnel r with shutdown := true }).setCall c (.stop (.awaiting r)))
  | joined {c r} : s.call c = .stop (.awaiting r) →
      (s.tunnel r).watchdog = .finished ∨ ((s.tunnel r).watchdog = .failed ∧ ∀ tun, (s.tunnel r).custody ≠ .slot tun) →
      Step os ipv6 s (.stop c)
        ((s.setTunnel r { s.tunnel r with held := false }).setCall c (.stop (.returned (.ok ()))))
  | fallback {c r tun} : s.call c = .stop (.awaiting r) → (s.tunnel r).watchdog = .failed →
      (s.tunnel r).custody = .slot tun →
      Step os ipv6 s (.stop c)
        ((s.setTunnel r ((s.tunnel r).tear .stop (tun.tearDown os))).setCall c (.stop (.fallback r)))
  | fallbackCall {c r call todo} : s.call c = .stop (.fallback r) → (s.tunnel r).custody = .tearing .stop (call :: todo) →
      Step os ipv6 s (.stop c) (s.setTunnel r ((s.tunnel r).undo .stop call todo))
  | fallbackDone {c r} : s.call c = .stop (.fallback r) → (s.tunnel r).custody = .tearing .stop [] →
      Step os ipv6 s (.stop c)
        ((s.setTunnel r { (s.tunnel r).close with held := false }).setCall c (.stop (.returned (.ok ()))))
  | cancel {c r} : s.call c = .stop (.awaiting r) →
      (s.tunnel r).watchdog ≠ .failed ∨ (∀ tun, (s.tunnel r).custody ≠ .slot tun) →
      Step os ipv6 s (.cancelStop c) ((s.setTunnel r { s.tunnel r with held := false }).setCall c (.stop .cancelled))
  | cancelLast {c r tun} : s.call c = .stop (.awaiting r) → (s.tunnel r).watchdog = .failed →
      (s.tunnel r).custody = .slot tun →
      Step os ipv6 s (.cancelStop c)
        ((s.setTunnel r { (s.tunnel r).tear .stop (tun.drop os) with held := false }).setCall c (.stop (.unwinding r)))
  | cancelCall {c r call todo} : s.call c = .stop (.unwinding r) → (s.tunnel r).custody = .tearing .stop (call :: todo) →
      Step os ipv6 s (.stop c) (s.setTunnel r ((s.tunnel r).undo .stop call todo))
  | cancelDone {c r} : s.call c = .stop (.unwinding r) → (s.tunnel r).custody = .tearing .stop [] →
      Step os ipv6 s (.stop c) ((s.setTunnel r (s.tunnel r).close).setCall c (.stop .cancelled))
  -- drop
  | dropIdle : s.dropping = .entered → s.running = none → Step os ipv6 s .drop { s with dropping := .dropped }
  | dropTake {r} : s.dropping = .entered → s.running = some r →
      Step os ipv6 s .drop { s with running := none, dropping := .taken r }
  | dropClear {r} : s.dropping = .taken r → Step os ipv6 s .drop { s.setFlag false with dropping := .cleared r }
  | dropSignal {r} : s.dropping = .cleared r →
      Step os ipv6 s .drop { s.setTunnel r { s.tunnel r with shutdown := true } with dropping := .signalled r }
  | dropTear {r tun} : s.dropping = .signalled r → (s.tunnel r).custody = .slot tun →
      Step os ipv6 s .drop { s.setTunnel r ((s.tunnel r).tear .drop (tun.tearDown os)) with dropping := .tearing r }
  | dropEmpty {r} : s.dropping = .signalled r → (∀ tun, (s.tunnel r).custody ≠ .slot tun) →
      Step os ipv6 s .drop { s with dropping := .aborting r }
  | dropCall {r call todo} : s.dropping = .tearing r → (s.tunnel r).custody = .tearing .drop (call :: todo) →
      Step os ipv6 s .drop (s.setTunnel r ((s.tunnel r).undo .drop call todo))
  | dropTorn {r} : s.dropping = .tearing r → (s.tunnel r).custody = .tearing .drop [] →
      Step os ipv6 s .drop { s.setTunnel r (s.tunnel r).close with dropping := .aborting r }
  | abort {r} : s.dropping = .aborting r →
      Step os ipv6 s .drop { s.setTunnel r { s.tunnel r with held := false } with dropping := .dropped }
  -- the tasks
  | netstackEnds {r} : (s.tunnel r).watchdog ≠ .unborn →
      Step os ipv6 s (.netstackEnds r) (s.setTunnel r { s.tunnel r with netstackEnded := true })
  | watchdogTakes {r tun} : (s.tunnel r).watchdog = .awaiting → (s.tunnel r).netstackEnded = true →
      (s.tunnel r).custody = .slot tun →
      Step os ipv6 s (.watchdog r)
        (s.setTunnel r { (s.tunnel r).tear .watchdog (tun.tearDown os) with watchdog := .tearing })
  | watchdogEmpty {r} : (s.tunnel r).watchdog = .awaiting → (s.tunnel r).netstackEnded = true →
      (∀ tun, (s.tunnel r).custody ≠ .slot tun) →
      Step os ipv6 s (.watchdog r) (s.setTunnel r { s.tunnel r with watchdog := .joining })
  | watchdogCall {r call todo} : (s.tunnel r).watchdog = .tearing ∨ (s.tunnel r).watchdog = .failed →
      (s.tunnel r).custody = .tearing .watchdog (call :: todo) →
      Step os ipv6 s (.watchdog r) (s.setTunnel r ((s.tunnel r).undo .watchdog call todo))
  | watchdogTorn {r} : (s.tunnel r).watchdog = .tearing → (s.tunnel r).custody = .tearing .watchdog [] →
      Step os ipv6 s (.watchdog r) (s.setTunnel r { (s.tunnel r).close with watchdog := .joining })
  | watchdogDropped {r} : (s.tunnel r).watchdog = .failed → (s.tunnel r).custody = .tearing .watchdog [] →
      Step os ipv6 s (.watchdog r) (s.setTunnel r (s.tunnel r).close)
  | watchdogJoins {r} : (s.tunnel r).watchdog = .joining →
      Step os ipv6 s (.watchdog r) (s.setTunnel r { s.tunnel r with watchdog := .finished })
  | watchdogFails {r} :
      (s.tunnel r).watchdog = .joining ∨
        ((s.tunnel r).watchdog = .awaiting ∧ ((s.tunnel r).held = true ∨ ∀ tun, (s.tunnel r).custody ≠ .slot tun)) →
      Step os ipv6 s (.watchdogFails r) (s.setTunnel r { s.tunnel r with watchdog := .failed })
  | watchdogFailsLast {r tun} : (s.tunnel r).watchdog = .awaiting → (s.tunnel r).held = false →
      (s.tunnel r).custody = .slot tun →
      Step os ipv6 s (.watchdogFails r)
        (s.setTunnel r { (s.tunnel r).tear .watchdog (tun.drop os) with watchdog := .failed })

section Inversion

variable {os : Os} {ipv6 : Bool} {s s' : Engine}

theorem startStep_inv {c : CallId} {pc : StartPc} {event : StartEvent} (hc : s.call c = .start pc)
    (h : startStep os ipv6 s c pc event = some s') : Step os ipv6 s (.start c event) s' := by
  unfold startStep at h
  split at h
  · -- compareExchange
    split at h
    · next hf =>
      cases h
      exact .refuse hc hf
    · next hf =>
      cases h
      exact .claim hc (by simpa using hf)
  · -- discover
    cases h
    split
    · next he => exact .discoverNone hc he
    · next he => exact .discover hc (by simpa using he)
  · cases h
    exact .setIface hc
  · cases h
    exact .createFails hc
  · cases h
    exact .create hc
  · -- configure
    split at h
    · next ht =>
      cases h
      exact .configureFails hc ht
    · next ht =>
      cases h
      exact .configure hc ht
    · cases h
  · -- addRoute
    split at h
    · next ht =>
      cases h
      exact .addRouteFails hc ht
    · next ht =>
      cases h
      exact .addRoute hc ht
    · cases h
  · -- device
    split at h
    · next ht =>
      cases h
      exact .deviceFails hc ht
    · next ht =>
      cases h
      exact .spawn hc ht
    · cases h
  · cases h
    exact .publish hc
  · -- unwind
    obtain ⟨⟨t, last⟩, ha, rfl⟩ := Option.map_eq_some_iff.mp h
    rcases Tunnel.advance_eq_some ha with ⟨_, _, ht, rfl, rfl⟩ | ⟨ht, rfl, rfl⟩
    · exact .unwind hc ht
    · exact .unwound hc ht
  · cases h
    exact .reset hc
  · cases h

theorem stopStep_inv {c : CallId} {pc : StopPc} (hc : s.call c = .stop pc) (h : stopStep os s c pc = some s') :
    Step os ipv6 s (.stop c) s' := by
  unfold stopStep at h
  split at h
  · -- entered
    split at h
    · next hr =>
      cases h
      exact .notRunning hc hr
    · next hr =>
      cases h
      exact .take hc hr
  · cases h
    exact .clear hc
  · cases h
    exact .signal hc
  · -- awaiting
    split at h
    · next hw =>
      cases h
      exact .joined hc (.inl hw)
    · next hw =>
      split at h
      · next ht =>
        cases h
        exact .fallback hc hw ht
      · next ht =>
        cases h
        exact .joined hc (.inr ⟨hw, ht⟩)
    · cases h
  · -- fallback
    obtain ⟨⟨t, last⟩, ha, rfl⟩ := Option.map_eq_some_iff.mp h
    rcases Tunnel.advance_eq_some ha with ⟨_, _, ht, rfl, rfl⟩ | ⟨ht, rfl, rfl⟩
    · exact .fallbackCall hc ht
    · exact .fallbackDone hc ht
  · -- unwinding
    obtain ⟨⟨t, last⟩, ha, rfl⟩ := Option.map_eq_some_iff.mp h
    rcases Tunnel.advance_eq_some ha with ⟨_, _, ht, rfl, rfl⟩ | ⟨ht, rfl, rfl⟩
    · exact .cancelCall hc ht
    · exact .cancelDone hc ht
  · cases h
  · cases h

theorem cancelStop_inv {c : CallId} {pc : StopPc} (hc : s.call c = .stop pc) (h : cancelStop os s c pc = some s') :
    Step os ipv6 s (.cancelStop c) s' := by
  unfold cancelStop at h
  split at h
  · next r =>
    split at h
    · next hw ht =>
      cases h
      exact .cancelLast hc hw ht
    · next hne =>
      cases h
      refine .cancel hc ?_
      by_cases hw : (s.tunnel r).watchdog = .failed
      · exact .inr fun tun ht => hne tun hw ht
      · exact .inl hw
  · cases h

theorem dropStep_inv (h : dropStep os s s.dropping = some s') : Step os ipv6 s .drop s' := by
  unfold dropStep at h
  split at h
  · next hd =>
    split at h
    · next hr =>
      cases h
      exact .dropIdle hd hr
    · next hr =>
      cases h
      exact .dropTake hd hr
  · next hd =>
    cases h
    exact .dropClear hd
  · next hd =>
    cases h
    exact .dropSignal hd
  · next hd =>
    split at h
    · next ht =>
      cases h
      exact .dropTear hd ht
    · next ht =>
      cases h
      exact .dropEmpty hd ht
  · next hd =>
    obtain ⟨⟨t, last⟩, ha, rfl⟩ := Option.map_eq_some_iff.mp h
    rcases Tunnel.advance_eq_some ha with ⟨_, _, ht, rfl, rfl⟩ | ⟨ht, rfl, rfl⟩
    · exact .dropCall hd ht
    · exact .dropTorn hd ht
  · next hd =>
    cases h
    exact .abort hd
  · cases h
  · cases h

theorem watchdogStep_inv {r : CallId} {t : Tunnel} (h : (s.tunnel r).watchdogStep os = some t) :
    Step os ipv6 s (.watchdog r) (s.setTunnel r t) := by
  unfold Tunnel.watchdogStep at h
  split at h
  · next hw =>
    split at h
    · next hn =>
      split at h
      · next hc =>
        cases h
        exact .watchdogTakes hw hn hc
      · next hc =>
        cases h
        exact .watchdogEmpty hw hn hc
    · cases h
  · next hw =>
    obtain ⟨⟨u, last⟩, ha, rfl⟩ := Option.map_eq_some_iff.mp h
    rcases Tunnel.advance_eq_some ha with ⟨_, _, ht, rfl, rfl⟩ | ⟨ht, rfl, rfl⟩
    · exact .watchdogCall (.inl hw) ht
    · exact .watchdogTorn hw ht
  · next hw =>
    cases h
    exact .watchdogJoins hw
  · next hw =>
    obtain ⟨⟨u, last⟩, ha, rfl⟩ := Option.map_eq_some_iff.mp h
    rcases Tunnel.advance_eq_some ha with ⟨_, _, ht, rfl, rfl⟩ | ⟨ht, rfl, rfl⟩
    · exact .watchdogCall (.inr hw) ht
    · exact .watchdogDropped hw ht
  · cases h
  · cases h

theorem watchdogFail_inv {r : CallId} {t : Tunnel} (h : (s.tunnel r).watchdogFail os = some t) :
    Step os ipv6 s (.watchdogFails r) (s.setTunnel r t) := by
  unfold Tunnel.watchdogFail at h
  split at h
  · next hw =>
    split at h
    · next tun hh hc =>
      cases h
      exact .watchdogFailsLast hw hh hc
    · next hne =>
      cases h
      refine .watchdogFails (.inr ⟨hw, ?_⟩)
      cases hh : (s.tunnel r).held with
      | true => exact .inl rfl
      | false => exact .inr fun tun hc => hne tun hh hc
  · next hw =>
    cases h
    exact .watchdogFails (.inl hw)
  · cases h

/-- **The engine makes no other step.** -/
theorem step_inv {a : Action} (h : step os ipv6 s a = some s') : Step os ipv6 s a s' := by
  cases a with
  | beginStart =>
    obtain ⟨hd, h⟩ := Option.ite_none_right_eq_some.mp h
    cases h
    exact .beginStart hd
  | beginStop =>
    obtain ⟨hd, h⟩ := Option.ite_none_right_eq_some.mp h
    cases h
    exact .beginStop hd
  | beginDrop =>
    obtain ⟨⟨hd, hf⟩, h⟩ := Option.ite_none_right_eq_some.mp h
    cases h
    exact .beginDrop hd hf
  | start c event =>
    simp only [step] at h
    split at h
    · next hc => exact startStep_inv hc h
    · cases h
  | stop c =>
    simp only [step] at h
    split at h
    · next hc => exact stopStep_inv hc h
    · cases h
  | cancelStop c =>
    simp only [step] at h
    split at h
    · next hc => exact cancelStop_inv hc h
    · cases h
  | drop => exact dropStep_inv h
  | netstackEnds r =>
    obtain ⟨⟨hw, -⟩, h⟩ := Option.ite_none_right_eq_some.mp h
    cases h
    exact .netstackEnds hw
  | watchdog r =>
    obtain ⟨t, ht, rfl⟩ := Option.map_eq_some_iff.mp h
    exact watchdogStep_inv ht
  | watchdogFails r =>
    obtain ⟨t, ht, rfl⟩ := Option.map_eq_some_iff.mp h
    exact watchdogFail_inv ht

end Inversion

end AceTun
