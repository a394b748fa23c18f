import AceTun.Engine.OneTunnel

/-!
# What the engine reports

`is_running` and the refusal of a second `start` should tell whether there is a live adapter. At rest they do, in every
run in which a netstack ends only after its shutdown was signalled (`reports_of_endsWhenStopped`). A netstack that ends
by itself is cleaned up by the watchdog, but the watchdog clears neither indicator: the engine goes on to report a
tunnel that is gone and refuses to start (`reports_lost_tunnel`).
-/

namespace AceTun

open RustStd Transition

/-- The netstack whose end the action is. -/
def Action.netstack : Action → Option CallId
  | .netstackEnds r => some r
  | _ => none

def Action.cancels : Action → Bool
  | .cancelStop _ => true
  | _ => false

/-- A netstack ends only once its shutdown is signalled, and no `stop` is dropped before it returns. -/
def EndsWhenStopped (s : Engine) (a : Action) : Prop :=
  a.cancels = false ∧ ∀ r ∈ a.netstack, (s.tunnel r).shutdown = true

instance (s : Engine) (a : Action) : Decidable (EndsWhenStopped s a) :=
  inferInstanceAs (Decidable (_ = false ∧ ∀ r ∈ a.netstack, _ = true))

/-- No `start`, `stop` or teardown by a watchdog is in progress. -/
structure Quiescent (s : Engine) : Prop where
  alive : s.dropping = .alive
  calls : ∀ c < s.made, (s.call c).finished = true
  watchdogs : ∀ r < s.made, (s.tunnel r).watchdog ≠ .tearing ∧ (s.tunnel r).watchdog ≠ .joining

/-- A slot holds a live adapter. -/
def Engine.HasAdapter (s : Engine) : Prop :=
  ∃ r tun, (s.tunnel r).custody = .slot tun ∧ (s.tunnel r).device.opened = true

/-- A `start` that is made now returns `AlreadyRunning`. -/
def Engine.Refuses (os : Os) (ipv6 : Bool) (s : Engine) : Prop :=
  ∃ s', exec (step os ipv6) s [.beginStart, .start s.made .compareExchange] = some s' ∧
    s'.call s.made = .start (.returned (.error .alreadyRunning))

theorem step_compareExchange {os : Os} {ipv6 : Bool} {s : Engine} {c : CallId} (hc : s.call c = .start .entered) :
    step os ipv6 s (.start c .compareExchange) =
      some (if s.cells.running then s.setCall c (.start (.returned (.error .alreadyRunning)))
        else (s.setFlag true).setCall c (.start .claimed)) := by
  simp only [step, hc, startStep]
  split <;> rfl

/-- A `start` is refused exactly while the flag is set. -/
theorem refuses_iff {os : Os} {ipv6 : Bool} {s : Engine} (ha : s.dropping = .alive) :
    s.Refuses os ipv6 ↔ s.cells.running = true := by
  have hcall : (s.enter (.start .entered)).call s.made = .start .entered := Function.update_self ..
  have hbegin : step os ipv6 s .beginStart = some (s.enter (.start .entered)) := if_pos ha
  unfold Engine.Refuses
  rw [exec, hbegin, Option.bind_some, exec, step_compareExchange hcall, Option.bind_some, exec]
  change (∃ s', some (if s.cells.running = true then _ else _) = some s' ∧ _) ↔ _
  cases s.cells.running with
  | true => simp [Engine.setCall_call]
  | false => simp [Engine.setCall_call]

/-! ## Tunnels -/

/-- What a tunnel keeps while netstacks end only when stopped. -/
structure Tunnel.Calm (t : Tunnel) : Prop where
  unsignalled : t.watchdog = .unborn → t.shutdown = false
  ended : t.netstackEnded = true → t.shutdown = true
  up : t.watchdog ≠ .unborn → t.shutdown = false → ∃ tun, t.custody = .slot tun
  held : ∀ tun, t.custody = .slot tun → t.held = true
  emptied : t.watchdog = .tearing ∨ t.watchdog = .joining ∨ t.watchdog = .finished → ∀ tun, t.custody ≠ .slot tun

namespace Tunnel.Calm

variable {t : Tunnel}

theorem blank : Tunnel.blank.Calm where
  unsignalled _ := rfl
  ended h := by cases h
  up h := absurd rfl h
  held _ h := by cases h
  emptied h := by simp [Tunnel.blank] at h

theorem create (iface : PhysicalInterface) : (Tunnel.create iface).Calm where
  unsignalled _ := rfl
  ended h := by cases h
  up h := absurd rfl h
  held _ h := by cases h
  emptied h := by simp [Tunnel.create, Tunnel.blank] at h

/-- The adapter is out of its slot before and after. -/
theorem move (h : t.Calm) (hc : ∀ tun, t.custody ≠ .slot tun) {d : Device} {custody : Custody} {held : Bool}
    (hn : ∀ tun, custody ≠ .slot tun) : Calm { t with device := d, custody, held } where
  unsignalled := h.unsignalled
  ended := h.ended
  up hw hs := by
    obtain ⟨tun, ht⟩ := h.up hw hs
    exact absurd ht (hc tun)
  held tun ht := absurd ht (hn tun)
  emptied _ := hn

/-- The adapter is taken out of its slot, after the shutdown was signalled. -/
theorem take (h : t.Calm) (hs : t.shutdown = true) {custody : Custody} (hn : ∀ tun, custody ≠ .slot tun)
    {w : Watchdog} (hw : w ≠ .unborn) : Calm { t with custody, watchdog := w } where
  unsignalled hu := absurd hu hw
  ended := h.ended
  up _ hno := absurd (hno.symm.trans hs) (by simp)
  held tun ht := absurd ht (hn tun)
  emptied _ := hn

theorem spawn (h : t.Calm) (tun : TunAdapter) : (t.spawn tun).Calm where
  unsignalled hu := by cases hu
  ended := h.ended
  up _ _ := ⟨tun, rfl⟩
  held _ _ := rfl
  emptied hw := by simp [Tunnel.spawn] at hw

theorem signal (h : t.Calm) (hw : t.watchdog ≠ .unborn) : Calm { t with shutdown := true } where
  unsignalled hu := absurd hu hw
  ended _ := rfl
  up _ hs := by cases hs
  held := h.held
  emptied := h.emptied

theorem ends (h : t.Calm) (hs : t.shutdown = true) : Calm { t with netstackEnded := true } where
  unsignalled := h.unsignalled
  ended _ := hs
  up := h.up
  held := h.held
  emptied := h.emptied

/-- The watchdog goes on; past its await, the slot is empty. -/
theorem watchdog (h : t.Calm) {w : Watchdog} (hw : t.watchdog ≠ .unborn) (hw' : w ≠ .unborn)
    (he : w = .tearing ∨ w = .joining ∨ w = .finished → ∀ tun, t.custody ≠ .slot tun) :
    Calm { t with watchdog := w } where
  unsignalled hu := absurd hu hw'
  ended := h.ended
  up _ hs := h.up hw hs
  held := h.held
  emptied := he

end Tunnel.Calm

/-! ## The engine -/

/-- The `RunState` of a tunnel is with a party that has yet to signal the shutdown. -/
def earlyRole (r : CallId) : Role where
  call c k := (k = .start .publishing ∧ c = r) ∨ k = .stop (.taken r) ∨ k = .stop (.cleared r)
  running o := o = some r
  dropping d := d = .taken r ∨ d = .cleared r

theorem holds_state_of_early {s : Engine} {r : CallId} {x : Holder} (h : s.holds (earlyRole r) x) :
    s.holds (stateRole r) x := by
  cases x with
  | call c =>
    change (s.call c).owned c = some r
    rcases h with ⟨hc, rfl⟩ | hc | hc
    · rw [hc]; rfl
    · rw [hc]; rfl
    · rw [hc]; rfl
  | published => exact h
  | drop =>
    change s.dropping.owned = some r
    rcases h with hd | hd
    · rw [hd]; rfl
    · rw [hd]; rfl

/-- Nobody who still has to signal the shutdown holds the state of a tunnel that was signalled. -/
def Early (s : Engine) : Prop := ∀ r x, s.holds (earlyRole r) x → (s.tunnel r).shutdown = false

/-- A `stop` that waits has signalled. -/
def Late (s : Engine) : Prop :=
  ∀ c r, s.call c = .stop (.awaiting r) ∨ s.call c = .stop (.fallback r) → (s.tunnel r).shutdown = true

/-- What holds of an engine that exists while netstacks end only when stopped. -/
structure Settled (s : Engine) : Prop where
  calm : ∀ r, (s.tunnel r).Calm
  early : Early s
  late : Late s

section Closure

variable {s : Engine} {c r : CallId} {k : Call} {t : Tunnel}

theorem Early.setCall (h : Early s) (hk : ∀ r, (earlyRole r).call c k → (s.tunnel r).shutdown = false) :
    Early (s.setCall c k) := by
  intro r x hx
  rcases (holds_setCall x).mp hx with ⟨-, hx⟩ | ⟨hx, -⟩
  · exact hk r hx
  · exact h r x hx

theorem Early.setTunnel (h : Early s) (ht : t.shutdown = (s.tunnel r).shutdown ∨ t.shutdown = false) :
    Early (s.setTunnel r t) := by
  intro y x hx
  have hold := h y x hx
  rw [Engine.setTunnel_tunnel]
  split
  · next he =>
    subst he
    exact ht.elim (fun he => he.trans hold) id
  · exact hold

theorem Early.setRunning (h : Early s) {o : Option CallId} (ho : ∀ r, o = some r → (s.tunnel r).shutdown = false) :
    Early { s with running := o } := by
  intro r x hx
  cases x with
  | call c => exact h r (.call c) hx
  | published => exact ho r hx
  | drop => exact h r .drop hx

/-- The owner signals the shutdown, and no one else has the state. -/
theorem Early.signal (h : Early s) (hs : Sane s) (hc : s.call c = .stop (.cleared r)) :
    Early ((s.setTunnel r { s.tunnel r with shutdown := true }).setCall c (.stop (.awaiting r))) := by
  intro y x hx
  rcases (holds_setCall x).mp hx with ⟨-, hx⟩ | ⟨hx, hne⟩
  · simp [earlyRole] at hx
  rw [Engine.setCall_tunnel, Engine.setTunnel_tunnel]
  split
  · next he =>
    subst he
    have howner : s.holds (stateRole y) (.call c) := by
      change (s.call c).owned c = some y
      rw [hc]
      rfl
    exact absurd ((hs.states y).unique (holds_state_of_early hx) howner) hne
  · exact h y x hx

theorem Late.setCall (h : Late s) (hk : ∀ r, k = .stop (.awaiting r) ∨ k = .stop (.fallback r) →
    (s.tunnel r).shutdown = true) : Late (s.setCall c k) :=
  Engine.forall_setCall
    (P := fun _ k => ∀ r, k = .stop (.awaiting r) ∨ k = .stop (.fallback r) → (s.tunnel r).shutdown = true) h hk

theorem Late.setTunnel (h : Late s) (ht : (s.tunnel r).shutdown = true → t.shutdown = true) :
    Late (s.setTunnel r t) := by
  intro x y hx
  have hold := h x y hx
  rw [Engine.setTunnel_tunnel]
  split
  · next he =>
    subst he
    exact ht hold
  · exact hold

end Closure

section Steps

variable {os : Os} {ipv6 : Bool} {s s' : Engine} {a : Action}

theorem Settled.step_calm (ho : Settled s) (hs : Sane s) (hok : EndsWhenStopped s a) (h : Step os ipv6 s a s')
    (ha : s'.dropping = .alive) : ∀ r, (s'.tunnel r).Calm := by
  cases h with
  | create hc => exact Engine.forall_setTunnel ho.calm (.create _)
  | spawn hc ht => exact Engine.forall_setTunnel ho.calm ((ho.calm _).spawn _)
  | signal hc => exact Engine.forall_setTunnel ho.calm ((ho.calm _).signal (hs.born (holds_of_owned hc rfl)))
  | joined hc hw =>
    have hempty := hw.elim (fun hf => (ho.calm _).emptied (.inr (.inr hf))) And.right
    exact Engine.forall_setTunnel (P := Tunnel.Calm) ho.calm ((ho.calm _).move hempty hempty)
  | fallback hc hw ht =>
    have hborn := hs.born (holds_of_owned hc rfl)
    exact Engine.forall_setTunnel (P := Tunnel.Calm) ho.calm ((ho.calm _).take (ho.late _ _ (.inl hc)) (by simp) hborn)
  | cancel hc _ => cases hok.1
  | cancelLast hc _ _ => cases hok.1
  | netstackEnds hw => exact Engine.forall_setTunnel ho.calm ((ho.calm _).ends (hok.2 _ rfl))
  | watchdogTakes hw hn ht =>
    exact Engine.forall_setTunnel (P := Tunnel.Calm) ho.calm
      ((ho.calm _).take ((ho.calm _).ended hn) (fun _ he => by cases he) (by simp))
  | watchdogEmpty hw hn hc =>
    exact Engine.forall_setTunnel ho.calm ((ho.calm _).watchdog (by simp [hw]) (by simp) fun _ => hc)
  | @watchdogTorn r hw ht =>
    have hgone : ∀ tun, (s.tunnel r).close.custody ≠ .slot tun := fun _ he => by cases he
    have hclosed : (s.tunnel r).close.Calm := (ho.calm r).move (by simp [ht]) hgone
    have hborn : (s.tunnel r).close.watchdog ≠ .unborn := fun hu => by cases hw.symm.trans hu
    exact Engine.forall_setTunnel ho.calm (hclosed.watchdog hborn (by simp) fun _ => hgone)
  | watchdogJoins hw =>
    exact Engine.forall_setTunnel ho.calm
      ((ho.calm _).watchdog (by simp [hw]) (by simp) fun _ => (ho.calm _).emptied (.inr (.inl hw)))
  | @watchdogFails r hw =>
    have hborn : (s.tunnel r).watchdog ≠ .unborn := fun hu => by simp [hu] at hw
    exact Engine.forall_setTunnel ho.calm ((ho.calm _).watchdog hborn (by simp) (by simp))
  | watchdogFailsLast hw hh ht => exact absurd (hh.symm.trans ((ho.calm _).held _ ht)) (by simp)
  | dropCall hd ht => exact absurd (hd.symm.trans ha) (by simp)
  | _ =>
    first
    | exact ho.calm
    | cases ha
    | exact Engine.forall_setTunnel (P := Tunnel.Calm) ho.calm ((ho.calm _).move (by simp [*]) fun _ he => by cases he)

theorem Settled.step_early (ho : Settled s) (hs : Sane s) (h : Step os ipv6 s a s') (ha : s'.dropping = .alive) :
    Early s' := by
  cases h with
  | create hc => exact Early.setCall (Early.setTunnel ho.early (.inr rfl)) (by simp [earlyRole])
  | @spawn c tun hc ht =>
    have hshut : (s.tunnel c).shutdown = false := (ho.calm c).unsignalled (hs.unborn c (by rw [hc]; rfl))
    refine Early.setCall (Early.setTunnel ho.early (.inl rfl)) fun r hr => ?_
    rcases hr with ⟨-, rfl⟩ | hr | hr
    · rw [Engine.setTunnel_tunnel, if_pos rfl]
      exact hshut
    · cases hr
    · cases hr
  | @publish c hc =>
    refine Early.setCall (Early.setRunning ho.early fun r hr => ?_) (by simp [earlyRole])
    cases hr
    exact ho.early c (.call c) (.inl ⟨hc, rfl⟩)
  | @take c r hc hr =>
    refine Early.setCall (Early.setRunning ho.early (by simp)) fun x hx => ?_
    have hx' : x = r := by simpa [earlyRole, eq_comm] using hx
    subst hx'
    exact ho.early x .published hr
  | @clear c r hc =>
    refine Early.setCall (s := s.setFlag false) ho.early fun x hx => ?_
    have hx' : x = r := by simpa [earlyRole, eq_comm] using hx
    subst hx'
    exact ho.early x (.call c) (.inr (.inl hc))
  | signal hc => exact Early.signal ho.early hs hc
  | dropCall hd ht => exact absurd (hd.symm.trans ha) (by simp)
  | _ =>
    first
    | exact ho.early
    | cases ha
    | exact Early.setTunnel ho.early (.inl rfl)
    | exact Early.setCall ho.early (by simp [earlyRole])
    | exact Early.setCall (Early.setTunnel ho.early (.inl rfl)) (by simp [earlyRole])

theorem Settled.step_late (ho : Settled s) (hs : Sane s) (h : Step os ipv6 s a s') (ha : s'.dropping = .alive) :
    Late s' := by
  cases h with
  | @create c iface hc =>
    refine Late.setCall (s := s.setTunnel c (.create iface)) (fun x r hx => ?_) (by simp)
    have hne : r ≠ c := by
      rintro rfl
      have hborn : (s.tunnel r).watchdog ≠ .unborn :=
        hx.elim (fun hx => hs.born (holds_of_owned hx rfl)) fun hx => hs.born (holds_of_owned hx rfl)
      exact hborn (hs.unborn r (by rw [hc]; rfl))
    rw [Engine.setTunnel_tunnel, if_neg hne]
    exact ho.late x r hx
  | @signal c r hc =>
    refine Late.setCall (Late.setTunnel ho.late fun _ => rfl) fun x hx => ?_
    have hx' : x = r := by simpa [eq_comm] using hx
    rw [Engine.setTunnel_tunnel, if_pos hx']
  | @fallback c r tun hc hw ht =>
    refine Late.setCall (Late.setTunnel ho.late fun h => h) fun x hx => ?_
    have hx' : x = r := by simpa [eq_comm] using hx
    rw [Engine.setTunnel_tunnel, if_pos hx']
    exact ho.late c r (.inl hc)
  | dropCall hd ht => exact absurd (hd.symm.trans ha) (by simp)
  | _ =>
    first
    | exact ho.late
    | cases ha
    | exact Late.setTunnel ho.late fun h => h
    | exact Late.setCall ho.late (by simp)
    | exact Late.setCall (Late.setTunnel ho.late fun h => h) (by simp)

/-- A dropped engine does not come back. -/
theorem alive_of_step (h : Step os ipv6 s a s') (ha : s'.dropping = .alive) : s.dropping = .alive := by
  cases h with
  | _ =>
    first
    | exact ha
    | cases ha

end Steps

theorem Settled.init : Settled .init where
  calm _ := .blank
  early r x _ := rfl
  late c r h := by simp [Engine.init] at h

theorem settled_of_reaches {os : Os} {ipv6 : Bool} {s : Engine} (h : Reaches (step os ipv6) EndsWhenStopped .init s)
    (ha : s.dropping = .alive) : Settled s := by
  have hinv : Sane s ∧ (s.dropping = .alive → Settled s) := by
    refine h.invariant (I := fun s => Sane s ∧ (s.dropping = .alive → Settled s)) ⟨Sane.init, fun _ => .init⟩ ?_
    rintro s a s' ⟨hs, ho⟩ hok hstep
    have hst := step_inv hstep
    refine ⟨hs.step hst, fun ha => ?_⟩
    have hold := ho (alive_of_step hst ha)
    exact ⟨hold.step_calm hs hok hst ha, hold.step_early hs hst ha, hold.step_late hs hst ha⟩
  exact hinv.2 ha

/-- At rest, whoever holds anything is the mutex. -/
theorem Quiescent.holder {s : Engine} (hq : Quiescent s) (hs : Sane s) {m : Role} {x : Holder} (hx : s.holds m x)
    (hcall : ∀ c k, k = .unmade ∨ k.finished = true → ¬ m.call c k) (hdrop : ¬ m.dropping .alive) : x = .published := by
  cases x with
  | published => rfl
  | drop =>
    change m.dropping s.dropping at hx
    rw [hq.alive] at hx
    exact absurd hx hdrop
  | call c =>
    refine absurd hx (hcall c _ ?_)
    by_cases hc : c < s.made
    · exact .inr (hq.calls c hc)
    · exact .inl (hs.unmade c (Nat.le_of_not_lt hc))

theorem Call.claims_of_finished {k : Call} (h : k = .unmade ∨ k.finished = true) : ¬ k.claims = true := by
  rcases h with rfl | h
  · simp [claims]
  · unfold finished at h
    split at h
    · simp [claims, StartPc.claims]
    · simp [claims]
    · simp [claims]
    · cases h

theorem Call.owned_of_finished {c : CallId} {k : Call} (h : k = .unmade ∨ k.finished = true) : k.owned c = none := by
  rcases h with rfl | h
  · rfl
  · unfold finished at h
    split at h
    · rfl
    · rfl
    · rfl
    · cases h

/-- **What the engine reports at rest.** In every run in which a netstack ends only after its shutdown was signalled and
no `stop` is dropped at its await, whenever no call and no teardown is in progress: `is_running` is true exactly if a
live adapter is in its slot, and a `start` is refused exactly then. -/
theorem reports_of_endsWhenStopped {os : Os} {ipv6 : Bool} {s : Engine}
    (h : Reaches (step os ipv6) EndsWhenStopped .init s) (hq : Quiescent s) :
    (s.isRunning = true ↔ s.HasAdapter) ∧ (s.Refuses os ipv6 ↔ s.HasAdapter) := by
  have hs := sane_of_reaches h
  have ho := settled_of_reaches h hq.alive
  have hup : s.isRunning = true ↔ s.HasAdapter := by
    constructor
    · intro hr
      obtain ⟨r, hr⟩ := Option.isSome_iff_exists.mp hr
      have hown : s.holds (stateRole r) .published := hr
      obtain ⟨tun, ht⟩ := (ho.calm r).up (hs.born hown) (ho.early r .published hr)
      exact ⟨r, tun, ht, (wf_of_reaches h r).opened_of ht rfl⟩
    · rintro ⟨r, tun, ht, -⟩
      have hheld := hs.states r
      rw [(ho.calm r).held tun ht] at hheld
      obtain ⟨x, hx⟩ := hheld.exists_of_flag
      have hp := hq.holder hs hx (fun c k hk => by simp [stateRole, Call.owned_of_finished hk])
        (by simp [stateRole, DropPc.owned])
      subst hp
      exact Option.isSome_iff_exists.mpr ⟨r, hx⟩
  have hflag : s.cells.running = true ↔ s.isRunning = true := by
    constructor
    · intro hf
      have hex := hs.flag
      rw [hf] at hex
      obtain ⟨x, hx⟩ := hex.exists_of_flag
      have hp := hq.holder hs hx (fun c k hk => Call.claims_of_finished hk) (by simp [flagRole, DropPc.claims])
      subst hp
      exact hx
    · intro hr
      have hx : s.holds flagRole .published := hr
      exact hs.flag.flag_of_holds hx
  exact ⟨hup, (refuses_iff hq.alive).trans (hflag.trans hup)⟩

/-! ## A netstack that ends by itself -/

/-- After a start and its stop, a second start reports as it should. -/
theorem reports_after_restart :
    ∃ s, exec (guarded (step .windows false) EndsWhenStopped) .init
        (startRun 0 wifi ++ stopRun 1 0 ++ startRun 2 wifi) = some s ∧
      s.isRunning = true ∧ s.HasAdapter ∧ s.Refuses .windows false := by
  obtain ⟨s, hs⟩ : ∃ s, exec (guarded (step .windows false) EndsWhenStopped) .init
      (startRun 0 wifi ++ stopRun 1 0 ++ startRun 2 wifi) = some s := ⟨_, rfl⟩
  have hrun : s.isRunning = true ∧ Quiescent s := by
    cases hs
    exact ⟨by decide, rfl, by decide, by decide⟩
  have hrep := reports_of_endsWhenStopped (reaches_of_exec hs) hrun.2
  exact ⟨s, hs, hrun.1, hrep.1.mp hrun.1, hrep.2.mpr (hrep.1.mp hrun.1)⟩

/-- **A lost tunnel.** The netstack of a started engine ends by itself, and the watchdog takes the adapter down. The
engine is at rest without an adapter, reports that it is running and refuses to start. -/
theorem reports_lost_tunnel :
    ∃ s, exec (step .windows false) .init (startRun 0 wifi ++ teardownRun 0) = some s ∧
      Quiescent s ∧ s.isRunning = true ∧ s.Refuses .windows false ∧ ¬ s.HasAdapter := by
  refine ⟨_, rfl, ⟨rfl, by decide, by decide⟩, by decide, ⟨_, rfl, by decide⟩, ?_⟩
  rintro ⟨r, tun, hc, -⟩
  cases r with
  | zero => cases hc
  | succ r => cases hc

end AceTun
