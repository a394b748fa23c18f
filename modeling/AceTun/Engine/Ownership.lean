import AceTun.Engine.Steps

/-!
# Who holds what

The running flag is kept set by one party at a time: a `start` from its `compare_exchange` on, then the mutex that the
`RunState` is stored in, then the `stop` or the drop that takes it out, until that one clears the flag. In the same way
each `RunState` has one owner from the moment the tasks are spawned until it is dropped. Both are instances of
`Transition.Exclusive`, and both hold in every state of every run (`Sane.step`).
-/

namespace AceTun

open RustStd Transition

inductive Holder where
  | call (c : CallId)
  | published
  | drop
  deriving DecidableEq

/-- What it is to hold something: in which states a call does, which content of the mutex, which states of a drop. -/
structure Role where
  call : CallId → Call → Prop
  running : Option CallId → Prop
  dropping : DropPc → Prop

def Engine.holds (m : Role) (s : Engine) : Holder → Prop
  | .call c => m.call c (s.call c)
  | .published => m.running s.running
  | .drop => m.dropping s.dropping

/-! ## Passing a role on -/

section Passing

variable {m : Role} {flag : Bool} {s : Engine} {c : CallId} {k : Call} {d : DropPc}

theorem holds_setCall (x : Holder) :
    (s.setCall c k).holds m x ↔ (x = .call c ∧ m.call c k) ∨ (s.holds m x ∧ x ≠ .call c) := by
  cases x with
  | call c' =>
    by_cases hc : c' = c
    · subst hc
      simp [Engine.holds, Engine.setCall]
    · simp [Engine.holds, Engine.setCall, hc]
  | published => simp [Engine.holds, Engine.setCall]
  | drop => simp [Engine.holds, Engine.setCall]

theorem holds_keep_call (h : Exclusive flag (s.holds m)) (hk : m.call c k ↔ m.call c (s.call c)) :
    Exclusive flag ((s.setCall c k).holds m) := by
  refine h.keep fun x => ?_
  rw [holds_setCall, hk]
  by_cases hx : x = .call c
  · subst hx
    simp [Engine.holds]
  · simp [hx]

theorem holds_acquire_call (h : Exclusive false (s.holds m)) (hk : m.call c k) :
    Exclusive true ((s.setCall c k).holds m) := by
  refine h.acquire (.call c) fun x => ?_
  rw [holds_setCall]
  by_cases hx : x = .call c <;> simp [hx, hk]

theorem holds_release_call (h : Exclusive flag (s.holds m)) (hc : m.call c (s.call c)) (hk : ¬ m.call c k) :
    Exclusive false ((s.setCall c k).holds m) := by
  refine @Exclusive.release _ _ _ _ h (.call c) hc fun x => ?_
  rw [holds_setCall]
  simp [hk]

/-- A call stores what it holds in the mutex, which was empty. -/
theorem holds_publish (h : Exclusive flag (s.holds m)) (hc : m.call c (s.call c)) (hk : ¬ m.call c k) {r : CallId}
    (hr : m.running (some r)) : Exclusive flag (({ s with running := some r }.setCall c k).holds m) := by
  refine @Exclusive.handOver _ _ _ _ h (.call c) hc .published fun x => ?_
  rw [holds_setCall]
  cases x with
  | call c' => simp [hk, Engine.holds]
  | published => simp [Engine.holds, hr]
  | drop => simp [Engine.holds]

/-- A call takes it out again. -/
theorem holds_take (h : Exclusive flag (s.holds m)) (hr : m.running s.running) (hn : ¬ m.running none)
    (hk : m.call c k) :
    Exclusive flag (({ s with running := none }.setCall c k).holds m) := by
  refine @Exclusive.handOver _ _ _ _ h .published hr (.call c) fun x => ?_
  rw [holds_setCall]
  cases x with
  | call c' =>
    by_cases hx : c' = c
    · simp [hx, hk]
    · simp [hx, Engine.holds]
  | published => simp [Engine.holds, hn]
  | drop => simp [Engine.holds]

theorem holds_keep_running (h : Exclusive flag (s.holds m)) {o : Option CallId}
    (ho : m.running o ↔ m.running s.running) : Exclusive flag ({ s with running := o }.holds m) := by
  refine h.keep fun x => ?_
  cases x with
  | call c => rfl
  | published => exact ho
  | drop => rfl

theorem holds_keep_drop (h : Exclusive flag (s.holds m)) (hd : m.dropping d ↔ m.dropping s.dropping) :
    Exclusive flag ({ s with dropping := d }.holds m) := by
  refine h.keep fun x => ?_
  cases x with
  | call c => rfl
  | published => rfl
  | drop => exact hd

theorem holds_release_drop (h : Exclusive flag (s.holds m)) (hs : m.dropping s.dropping) (hd : ¬ m.dropping d) :
    Exclusive false ({ s with dropping := d }.holds m) := by
  refine @Exclusive.release _ _ _ _ h .drop hs fun x => ?_
  cases x with
  | call c => simp [Engine.holds]
  | published => simp [Engine.holds]
  | drop => simp [Engine.holds, hd]

theorem holds_drop_take (h : Exclusive flag (s.holds m)) (hr : m.running s.running) (hn : ¬ m.running none)
    (hd : m.dropping d) : Exclusive flag ({ s with running := none, dropping := d }.holds m) := by
  refine @Exclusive.handOver _ _ _ _ h .published hr .drop fun x => ?_
  cases x with
  | call c => simp [Engine.holds]
  | published => simp [Engine.holds, hn]
  | drop => simp [Engine.holds, hd]

end Passing

/-! ## The two roles -/

def StartPc.claims : StartPc → Bool
  | .entered => false
  | .returned _ => false
  | _ => true

/-- The call keeps the flag set. -/
def Call.claims : Call → Bool
  | .start pc => pc.claims
  | .stop (.taken _) => true
  | _ => false

def DropPc.claims : DropPc → Bool
  | .taken _ => true
  | _ => false

def flagRole : Role := ⟨fun _ k => k.claims = true, fun o => o.isSome = true, fun d => d.claims = true⟩

/-- The tunnel whose `RunState` the call owns. -/
def Call.owned (c : CallId) : Call → Option CallId
  | .start .publishing => some c
  | .stop (.taken r) => some r
  | .stop (.cleared r) => some r
  | .stop (.awaiting r) => some r
  | .stop (.fallback r) => some r
  | _ => none

def DropPc.owned : DropPc → Option CallId
  | .taken r => some r
  | .cleared r => some r
  | .signalled r => some r
  | .tearing r => some r
  | .aborting r => some r
  | _ => none

def stateRole (r : CallId) : Role := ⟨fun c k => k.owned c = some r, fun o => o = some r, fun d => d.owned = some r⟩

/-- A call whose tasks have been spawned. -/
def Call.spawned : Call → Bool
  | .start .publishing => true
  | .start (.returned (.ok ())) => true
  | _ => false

/-! ## What a step keeps -/

section Closure

variable {s : Engine} {c r : CallId} {k : Call} {t : Tunnel} {d : DropPc}

theorem unmade_setCall (hu : ∀ c, s.made ≤ c → s.call c = .unmade) (hc : s.call c ≠ .unmade) :
    ∀ x, s.made ≤ x → (s.setCall c k).call x = .unmade :=
  Engine.forall_setCall (P := fun x k => s.made ≤ x → k = .unmade) hu fun hle => absurd (hu c hle) hc

theorem unmade_enter (hu : ∀ c, s.made ≤ c → s.call c = .unmade) :
    ∀ x, (s.enter k).made ≤ x → (s.enter k).call x = .unmade := by
  intro x hle
  have hlt : s.made < x := hle
  change (s.setCall s.made k).call x = .unmade
  rw [Engine.setCall_call, if_neg (Nat.ne_of_gt hlt), hu x (Nat.le_of_lt hlt)]

/-- A tunnel without a watchdog belongs to a call that has not spawned one. -/
def Unborn (s : Engine) : Prop := ∀ c, (s.call c).spawned = false → (s.tunnel c).watchdog = .unborn

theorem Unborn.setCall (h : Unborn s) (hk : k.spawned = false → (s.call c).spawned = false) : Unborn (s.setCall c k) :=
  Engine.forall_setCall (P := fun x k => k.spawned = false → (s.tunnel x).watchdog = .unborn) h fun hx => h c (hk hx)

theorem Unborn.setTunnel (h : Unborn s) (ht : (s.tunnel r).watchdog = .unborn → t.watchdog = .unborn) :
    Unborn (s.setTunnel r t) :=
  Engine.forall_setTunnel_at (P := fun x t => (s.call x).spawned = false → t.watchdog = .unborn) h fun hx => ht (h r hx)

/-- A `RunState` exists only once the tasks are spawned. -/
def Tunnel.Unheld (t : Tunnel) : Prop := t.watchdog = .unborn → t.held = false

/-- Each `RunState` has one owner. -/
def States (s : Engine) : Prop := ∀ r, Exclusive (s.tunnel r).held (s.holds (stateRole r))

theorem States.setCall (h : States s) (hk : k.owned c = (s.call c).owned c) : States (s.setCall c k) :=
  fun x => holds_keep_call (h x) (by simp [stateRole, hk])

theorem States.setTunnel (h : States s) (ht : t.held = (s.tunnel r).held) : States (s.setTunnel r t) :=
  Engine.forall_setTunnel_at (P := fun x t => Exclusive t.held (s.holds (stateRole x))) h (ht ▸ h r)

theorem States.setDrop (h : States s) (hd : d.owned = s.dropping.owned) : States { s with dropping := d } :=
  fun x => holds_keep_drop (h x) (by simp [stateRole, hd])

/-- The owner drops it. -/
theorem States.release (h : States s) (ht : t.held = false) (hc : (s.call c).owned c = some r) (hk : k.owned c = none) :
    States ((s.setTunnel r t).setCall c k) := by
  intro x
  rw [Engine.setCall_tunnel, Engine.setTunnel_tunnel]
  split
  · next he =>
    subst he
    rw [ht]
    exact @holds_release_call _ _ (s.setTunnel x t) _ _ (h x) hc (by simp [stateRole, hk])
  · next he =>
    refine @holds_keep_call _ _ (s.setTunnel r t) _ _ (h x) ?_
    simp [stateRole, hk, hc, Ne.symm he]

/-- The tasks are spawned. -/
theorem States.acquire (h : States s) (hheld : (s.tunnel c).held = false) (ht : t.held = true)
    (hc : (s.call c).owned c = none) (hk : k.owned c = some c) : States ((s.setTunnel c t).setCall c k) := by
  intro x
  rw [Engine.setCall_tunnel, Engine.setTunnel_tunnel]
  split
  · next he =>
    subst he
    have hx := h x
    rw [hheld] at hx
    rw [ht]
    exact @holds_acquire_call _ (s.setTunnel x t) _ _ hx hk
  · next he => exact @holds_keep_call _ _ (s.setTunnel c t) _ _ (h x) (by simp [stateRole, hk, hc, Ne.symm he])

/-- What one tunnel's `RunState` does in the mutex is nothing to the others. -/
theorem States.keep_mutex (h : States s) {x : CallId} (hx : x ≠ r) (hr : s.running = none ∨ s.running = some r)
    {o : Option CallId} (ho : o = none ∨ o = some r) :
    Exclusive (s.tunnel x).held ({ s with running := o }.holds (stateRole x)) := by
  have hother : ∀ {o : Option CallId}, o = none ∨ o = some r → ¬ (stateRole x).running o := by
    rintro o (rfl | rfl) hrole
    · cases hrole
    · exact hx (Option.some.inj hrole).symm
  exact holds_keep_running (h x) (iff_of_false (hother ho) (hother hr))

/-- The owner stores it in the mutex. -/
theorem States.publish (h : States s) (hr : s.running = none) (hc : (s.call c).owned c = some c)
    (hk : k.owned c = none) : States ({ s with running := some c }.setCall c k) := by
  intro x
  by_cases he : x = c
  · subst he
    exact holds_publish (h x) hc (by simp [stateRole, hk]) rfl
  · have hrun := h.keep_mutex he (.inl hr) (.inr rfl)
    exact holds_keep_call hrun (by simp [stateRole, hk, hc, Ne.symm he])

/-- It is taken out of the mutex by a call. -/
theorem States.take (h : States s) (hr : s.running = some r) (hc : (s.call c).owned c = none) (hk : k.owned c = some r) :
    States ({ s with running := none }.setCall c k) := by
  intro x
  by_cases he : x = r
  · subst he
    exact holds_take (h x) hr (by simp [stateRole]) hk
  · have hrun := h.keep_mutex he (.inr hr) (.inl rfl)
    exact holds_keep_call hrun (by simp [stateRole, hk, hc, Ne.symm he])

/-- It is taken out of the mutex by the drop. -/
theorem States.dropTake (h : States s) (hr : s.running = some r) (hs : s.dropping.owned = none) (hd : d.owned = some r) :
    States { s with running := none, dropping := d } := by
  intro x
  by_cases he : x = r
  · subst he
    exact holds_drop_take (h x) hr (by simp [stateRole]) hd
  · have hrun := h.keep_mutex he (.inr hr) (.inl rfl)
    exact holds_keep_drop hrun (by simp [stateRole, hs, hd, Ne.symm he])

/-- The drop drops it. -/
theorem States.dropRelease (h : States s) (ht : t.held = false) (hs : s.dropping.owned = some r) (hd : d.owned = none) :
    States { s.setTunnel r t with dropping := d } := by
  intro x
  change Exclusive ((s.setTunnel r t).tunnel x).held _
  rw [Engine.setTunnel_tunnel]
  split
  · next he =>
    subst he
    rw [ht]
    exact @holds_release_drop _ _ (s.setTunnel x t) _ (h x) hs (by simp [stateRole, hd])
  · next he => exact @holds_keep_drop _ _ (s.setTunnel r t) _ (h x) (by simp [stateRole, hs, hd, Ne.symm he])

end Closure

/-- **What holds in every run.** -/
structure Sane (s : Engine) : Prop where
  unmade : ∀ c, s.made ≤ c → s.call c = .unmade
  unborn : Unborn s
  unheld : ∀ r, (s.tunnel r).Unheld
  flag : Exclusive s.cells.running (s.holds flagRole)
  states : States s

/-- While a call keeps the flag set, no state is stored in the mutex. -/
theorem Sane.running_none {s : Engine} (hs : Sane s) {c : CallId} (hc : (s.call c).claims = true) :
    s.running = none := by
  cases hr : s.running with
  | none => rfl
  | some r =>
    have hp : s.holds flagRole .published := by
      change s.running.isSome = true
      rw [hr]
      rfl
    have h : s.holds flagRole (.call c) := hc
    cases hs.flag.unique h hp

section Sane

variable {s : Engine}

/-- Only one call at a time keeps the flag set. -/
theorem Sane.claims_unique (hs : Sane s) {c x : CallId} (hc : (s.call c).claims = true) (hx : (s.call x).claims = true) :
    x = c := by
  have h1 : s.holds flagRole (.call x) := hx
  have h2 : s.holds flagRole (.call c) := hc
  exact Holder.call.inj (hs.flag.unique h1 h2)

/-- A tunnel whose `RunState` has an owner has a watchdog. -/
theorem Sane.born (hs : Sane s) {r : CallId} {x : Holder} (hx : s.holds (stateRole r) x) :
    (s.tunnel r).watchdog ≠ .unborn := by
  intro hu
  have h1 := (hs.states r).flag_of_holds hx
  have h2 := hs.unheld r hu
  rw [h1] at h2
  cases h2

theorem holds_of_owned {c r : CallId} {k : Call} (hc : s.call c = k) (hk : k.owned c = some r) :
    s.holds (stateRole r) (.call c) := by
  change (s.call c).owned c = some r
  rw [hc, hk]

end Sane

section Steps

variable {os : Os} {ipv6 : Bool} {s s' : Engine} {a : Action}

theorem Sane.step_flag (hs : Sane s) (h : Step os ipv6 s a s') : Exclusive s'.cells.running (s'.holds flagRole) := by
  have hnew : (s.call s.made) = .unmade := hs.unmade _ le_rfl
  cases h with
  | beginStart _ => exact holds_keep_call hs.flag (by simp [flagRole, hnew, Call.claims, StartPc.claims])
  | beginStop _ => exact holds_keep_call hs.flag (by simp [flagRole, hnew, Call.claims])
  | claim hc hf => exact holds_acquire_call (hf ▸ hs.flag) rfl
  | publish hc => exact holds_publish hs.flag (by rw [hc]; rfl) (by simp [flagRole, Call.claims, StartPc.claims]) rfl
  | reset hc =>
    exact @holds_release_call _ _ (s.setFlag false) _ _ hs.flag (by simp [flagRole, hc, Call.claims, StartPc.claims])
      (by simp [flagRole, Call.claims, StartPc.claims])
  | take hc hr => exact holds_take hs.flag (by rw [hr]; rfl) (by simp [flagRole]) rfl
  | clear hc =>
    exact @holds_release_call _ _ (s.setFlag false) _ _ hs.flag (by simp [flagRole, hc, Call.claims])
      (by simp [flagRole, Call.claims])
  | dropTake hd hr => exact holds_drop_take hs.flag (by rw [hr]; rfl) (by simp [flagRole]) rfl
  | dropClear hd =>
    exact @holds_release_drop _ _ (s.setFlag false) _ hs.flag (by simp [flagRole, hd, DropPc.claims])
      (by simp [flagRole, DropPc.claims])
  | _ =>
    first
    | exact hs.flag
    | exact holds_keep_call hs.flag (by simp [flagRole, Call.claims, StartPc.claims, *])
    | exact holds_keep_drop hs.flag (by simp [flagRole, DropPc.claims, *])

theorem Sane.step_unmade (hs : Sane s) (h : Step os ipv6 s a s') : ∀ c, s'.made ≤ c → s'.call c = .unmade := by
  cases h with
  | beginStart _ => exact unmade_enter hs.unmade
  | beginStop _ => exact unmade_enter hs.unmade
  | _ =>
    first
    | exact hs.unmade
    | exact unmade_setCall hs.unmade (by simp [*])

theorem Sane.step_unborn (hs : Sane s) (h : Step os ipv6 s a s') : Unborn s' := by
  have hnew : s.call s.made = .unmade := hs.unmade _ le_rfl
  cases h with
  | beginStart _ => exact Unborn.setCall hs.unborn (by simp [hnew, Call.spawned])
  | beginStop _ => exact Unborn.setCall hs.unborn (by simp [hnew, Call.spawned])
  | spawn hc ht =>
    intro x hx
    rw [Engine.setCall_call] at hx
    split at hx
    · cases hx
    · next hne =>
      rw [Engine.setCall_tunnel, Engine.setTunnel_tunnel, if_neg hne]
      exact hs.unborn x hx
  | publish hc => exact Unborn.setCall hs.unborn (by simp [Call.spawned])
  | create hc => exact Unborn.setCall (Unborn.setTunnel hs.unborn fun _ => rfl) (by simp [hc, Call.spawned])
  | watchdogFails hw => exact Unborn.setTunnel hs.unborn fun hu => by simp [hu] at hw
  | _ =>
    first
    | exact hs.unborn
    | exact Unborn.setCall hs.unborn (by simp [Call.spawned, *])
    | exact Unborn.setTunnel hs.unborn (by simp [Tunnel.undo, Tunnel.close, Tunnel.tear, *])
    | exact Unborn.setCall (Unborn.setTunnel hs.unborn fun hw => hw) (by simp [Call.spawned, *])

theorem Sane.step_unheld (hs : Sane s) (h : Step os ipv6 s a s') : ∀ r, (s'.tunnel r).Unheld := by
  cases h with
  | create hc => exact Engine.forall_setTunnel hs.unheld fun _ => rfl
  | spawn hc ht => exact Engine.forall_setTunnel (P := Tunnel.Unheld) hs.unheld fun hw => by cases hw
  | _ =>
    first
    | exact hs.unheld
    | exact Engine.forall_setTunnel (P := Tunnel.Unheld) hs.unheld (hs.unheld _)
    | exact Engine.forall_setTunnel (P := Tunnel.Unheld) hs.unheld fun _ => rfl
    | exact Engine.forall_setTunnel (P := Tunnel.Unheld) hs.unheld fun hw => by cases hw

theorem Sane.step_states (hs : Sane s) (h : Step os ipv6 s a s') : States s' := by
  have hnew : s.call s.made = .unmade := hs.unmade _ le_rfl
  cases h with
  | beginStart _ => exact States.setCall hs.states (by simp [hnew, Call.owned])
  | beginStop _ => exact States.setCall hs.states (by simp [hnew, Call.owned])
  | create hc =>
    have hun := hs.unheld _ (hs.unborn _ (by rw [hc]; rfl))
    exact States.setCall (States.setTunnel hs.states hun.symm) (by simp [hc, Call.owned])
  | spawn hc ht =>
    have hun := hs.unheld _ (hs.unborn _ (by rw [hc]; rfl))
    exact States.acquire hs.states hun rfl (by rw [hc]; rfl) rfl
  | publish hc => exact States.publish hs.states (hs.running_none (by rw [hc]; rfl)) (by rw [hc]; rfl) rfl
  | take hc hr => exact States.take hs.states hr (by rw [hc]; rfl) rfl
  | joined hc _ => exact States.release hs.states rfl (by rw [hc]; rfl) rfl
  | fallbackDone hc _ => exact States.release hs.states rfl (by rw [hc]; rfl) rfl
  | cancel hc _ => exact States.release hs.states rfl (by rw [hc]; rfl) rfl
  | cancelLast hc _ _ => exact States.release hs.states rfl (by rw [hc]; rfl) rfl
  | dropTake hd hr => exact States.dropTake hs.states hr (by rw [hd]; rfl) rfl
  | abort hd => exact States.dropRelease hs.states rfl (by rw [hd]; rfl) rfl
  | _ =>
    first
    | exact hs.states
    | exact States.setCall hs.states (by simp [Call.owned, *])
    | exact States.setTunnel hs.states rfl
    | exact States.setDrop hs.states (by simp [DropPc.owned, *])
    | exact States.setCall (States.setTunnel hs.states rfl) (by simp [Call.owned, *])
    | exact States.setDrop (States.setTunnel hs.states rfl) (by simp [DropPc.owned, *])

/-- **Every step keeps it.** -/
theorem Sane.step (hs : Sane s) (h : Step os ipv6 s a s') : Sane s' where
  unmade := hs.step_unmade h
  unborn := hs.step_unborn h
  unheld := hs.step_unheld h
  flag := hs.step_flag h
  states := hs.step_states h

end Steps

theorem Sane.init : Sane .init where
  unmade _ _ := rfl
  unborn _ _ := rfl
  unheld _ _ := rfl
  flag := .unset fun x => by cases x <;> simp [Engine.holds, Engine.init, flagRole, Call.claims, DropPc.claims]
  states r := .unset fun x => by cases x <;> simp [Engine.holds, Engine.init, stateRole, Call.owned, DropPc.owned]

/-- **Every run keeps it.** -/
theorem sane_of_reaches {os : Os} {ipv6 : Bool} {ok : Engine → Action → Prop} {s : Engine}
    (h : Reaches (AceTun.step os ipv6) ok .init s) : Sane s :=
  h.invariant Sane.init fun _ _ _ hs _ hstep => hs.step (step_inv hstep)

end AceTun
