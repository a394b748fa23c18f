import AceTun.Engine.Teardown

/-!
# Whose work an adapter waits for

`Busy` says that an adapter that is being taken down has a party for it. To see that nothing gets stuck, the other
direction is needed too: a call that is at work on an adapter has that adapter in hand, and no other call has it. Each
such kind of work is a `Post`, and `Manned` makes it an instance of `Transition.Exclusive`. The watchdog has no post; what
it leaves behind is said by `Tunnel.Guarded`, and what the shutdown signal has reached by `Signalled`. After the drop of
the engine has begun, no call is left and the mutex is empty (`Retired`). All of it holds in every run (`Posted.step`).
-/

namespace AceTun

open RustStd Transition

/-- What a call or the drop of the engine does with an adapter. -/
inductive Post where
  | building
  | unwinding
  | stopping
  | dropping
  deriving DecidableEq

def Custody.post : Custody → Option Post
  | .building _ => some .building
  | .tearing .start _ => some .unwinding
  | .tearing .stop _ => some .stopping
  | .tearing .drop _ => some .dropping
  | _ => none

/-- The post of a call, and the tunnel it is at. -/
def Call.post (c : CallId) : Call → Option (Post × CallId)
  | .start (.configuring _) => some (.building, c)
  | .start (.installing _) => some (.building, c)
  | .start (.unwinding _) => some (.unwinding, c)
  | .stop (.fallback r) => some (.stopping, r)
  | .stop (.unwinding r) => some (.stopping, r)
  | _ => none

def DropPc.post : DropPc → Option (Post × CallId)
  | .tearing r => some (.dropping, r)
  | _ => none

def postRole (post : Post) (r : CallId) : Role :=
  ⟨fun c k => k.post c = some (post, r), fun _ => False, fun d => d.post = some (post, r)⟩

/-- Each adapter that is at a post has one party there, and nobody is at a post without the adapter. -/
def Manned (s : Engine) : Prop :=
  ∀ post r, Exclusive ((s.tunnel r).custody.post == some post) (s.holds (postRole post r))

namespace Manned

variable {os : Os} {ipv6 : Bool} {s s' : Engine} {a : Action} {c r : CallId} {k : Call} {t : Tunnel} {d : DropPc}
  {post : Post}

theorem setCall (h : Manned s) (hk : k.post c = (s.call c).post c) : Manned (s.setCall c k) :=
  fun post x => holds_keep_call (h post x) (by simp [postRole, hk])

theorem setTunnel (h : Manned s) (ht : t.custody.post = (s.tunnel r).custody.post) : Manned (s.setTunnel r t) :=
  fun post => Engine.forall_setTunnel_at
    (P := fun x t => Exclusive (t.custody.post == some post) (s.holds (postRole post x))) (h post) (ht ▸ h post r)

theorem setDrop (h : Manned s) (hd : d.post = s.dropping.post) : Manned { s with dropping := d } :=
  fun post x => holds_keep_drop (h post x) (by simp [postRole, hd])

/-- A call takes up a post at a tunnel, changes it, or leaves. -/
theorem moveCall (h : Manned s) (hc : (s.call c).post c = (s.tunnel r).custody.post.map (·, r))
    (hk : k.post c = t.custody.post.map (·, r)) : Manned ((s.setTunnel r t).setCall c k) := by
  intro post x
  rw [Engine.setCall_tunnel, Engine.setTunnel_tunnel]
  split
  · next he =>
    subst he
    refine @Exclusive.change _ _ _ _ _ (.call c) (h post x) (fun hf => ?_) ?_ fun y hy => ?_
    · change (s.call c).post c = some (post, x)
      rw [hc, beq_iff_eq.mp hf]
      rfl
    · rw [holds_setCall]
      simp [postRole, hk]
    · rw [holds_setCall, or_iff_right fun hc => hy hc.1, and_iff_left hy]
      cases y <;> rfl
  · next he =>
    refine @holds_keep_call _ _ (s.setTunnel r t) _ _ (h post x) ?_
    simp [postRole, hc, hk, Ne.symm he]

/-- The drop of the engine takes up its post, or leaves it. -/
theorem moveDrop (h : Manned s) (hs : s.dropping.post = (s.tunnel r).custody.post.map (·, r))
    (hd : d.post = t.custody.post.map (·, r)) : Manned { s.setTunnel r t with dropping := d } := by
  intro post x
  change Exclusive (((s.setTunnel r t).tunnel x).custody.post == some post) _
  rw [Engine.setTunnel_tunnel]
  split
  · next he =>
    subst he
    refine @Exclusive.change _ _ _ _ _ .drop (h post x) (fun hf => ?_) ?_ fun y hy => ?_
    · change s.dropping.post = some (post, x)
      rw [hs, beq_iff_eq.mp hf]
      rfl
    · change d.post = some (post, x) ↔ _
      simp [hd]
    · cases y with
      | call c => rfl
      | published => rfl
      | drop => exact absurd rfl hy
  · next he =>
    refine @holds_keep_drop _ _ (s.setTunnel r t) _ (h post x) ?_
    simp [postRole, hs, hd, Ne.symm he]

/-- Whoever is at a post has the adapter. -/
theorem custody_of_holds (h : Manned s) {x : Holder} (hx : s.holds (postRole post r) x) :
    (s.tunnel r).custody.post = some post :=
  beq_iff_eq.mp ((h post r).flag_of_holds hx)

theorem exists_of_custody (h : Manned s) (hc : (s.tunnel r).custody.post = some post) :
    ∃ x, s.holds (postRole post r) x :=
  Exclusive.exists_of_flag (beq_iff_eq.mpr hc ▸ h post r)

/-- Before its device is opened, nobody has the adapter of a `start`. -/
theorem post_creating (h : Manned s) (hs : Sane s) (hst : (s.tunnel c).Stands) {iface : PhysicalInterface}
    (hc : s.call c = .start (.creating iface)) : (s.tunnel c).custody.post = none := by
  have hunborn : (s.tunnel c).watchdog = .unborn := hs.unborn c (by rw [hc]; rfl)
  -- only the call itself builds and unwinds, and it does neither
  have hself : ∀ {post x}, post = .building ∨ post = .unwinding → ¬ s.holds (postRole post c) x := by
    intro post x hp hx
    cases x with
    | call y =>
      have hy : (s.call y).post y = some (post, c) := hx
      unfold Call.post at hy
      split at hy
      · next hy' =>
        cases hy
        cases hc.symm.trans hy'
      · next hy' =>
        cases hy
        cases hc.symm.trans hy'
      · next hy' =>
        cases hy
        cases hc.symm.trans hy'
      · cases hy
        simp at hp
      · cases hy
        simp at hp
      · cases hy
    | published => exact hx
    | drop =>
      have hd : s.dropping.post = some (post, c) := hx
      unfold DropPc.post at hd
      split at hd
      · cases hd
        simp at hp
      · cases hd
  cases hcus : (s.tunnel c).custody with
  | absent => rfl
  | slot tun => rfl
  | gone => rfl
  | building tun =>
    obtain ⟨x, hx⟩ : ∃ x, s.holds (postRole .building c) x := h.exists_of_custody (by rw [hcus]; rfl)
    exact absurd hx (hself (.inl rfl))
  | tearing party todo =>
    have hstands := hst.at_custody hcus
    cases party with
    | start =>
      obtain ⟨x, hx⟩ : ∃ x, s.holds (postRole .unwinding c) x := h.exists_of_custody (by rw [hcus]; rfl)
      exact absurd hx (hself (.inr rfl))
    | watchdog => rfl
    | stop => exact absurd hunborn hstands
    | drop => exact absurd hunborn hstands

theorem step (h : Manned s) (hs : Sane s) (hst : ∀ r, (s.tunnel r).Stands) (hstep : Step os ipv6 s a s') :
    Manned s' := by
  have hnew : s.call s.made = .unmade := hs.unmade _ le_rfl
  cases hstep with
  | create hc => exact h.moveCall (by rw [h.post_creating hs (hst _) hc, hc]; rfl) rfl
  | configureFails hc hb => exact h.moveCall (by rw [hc, hb]; rfl) rfl
  | addRouteFails hc hb => exact h.moveCall (by rw [hc, hb]; rfl) rfl
  | addRoute hc hb => exact h.moveCall (by rw [hc, hb]; rfl) rfl
  | deviceFails hc hb => exact h.moveCall (by rw [hc, hb]; rfl) rfl
  | spawn hc hb => exact h.moveCall (by rw [hc, hb]; rfl) rfl
  | unwound hc hb => exact h.moveCall (by rw [hc, hb]; rfl) rfl
  | fallback hc hw hb => exact h.moveCall (by rw [hc, hb]; rfl) rfl
  | fallbackDone hc hb => exact h.moveCall (by rw [hc, hb]; rfl) rfl
  | cancelLast hc hw hb => exact h.moveCall (by rw [hc, hb]; rfl) rfl
  | cancelDone hc hb => exact h.moveCall (by rw [hc, hb]; rfl) rfl
  | dropTear hd hb => exact h.moveDrop (by rw [hd, hb]; rfl) rfl
  | dropTorn hd hb => exact h.moveDrop (by rw [hd, hb]; rfl) rfl
  | signal hc => exact setCall (h.setTunnel rfl) (by rw [Engine.setTunnel_call, hc]; rfl)
  | joined hc hw => exact setCall (h.setTunnel rfl) (by rw [Engine.setTunnel_call, hc]; rfl)
  | cancel hc hw => exact setCall (h.setTunnel rfl) (by rw [Engine.setTunnel_call, hc]; rfl)
  | dropSignal hd => exact setDrop (h.setTunnel rfl) (by rw [Engine.setTunnel_dropping, hd]; rfl)
  | abort hd => exact setDrop (h.setTunnel rfl) (by rw [Engine.setTunnel_dropping, hd]; rfl)
  | unwind hc hb => exact h.setTunnel (by rw [hb]; rfl)
  | fallbackCall hc hb => exact h.setTunnel (by rw [hb]; rfl)
  | cancelCall hc hb => exact h.setTunnel (by rw [hb]; rfl)
  | dropCall hd hb => exact h.setTunnel (by rw [hb]; rfl)
  | watchdogTakes hw hn hb => exact h.setTunnel (by rw [hb]; rfl)
  | watchdogCall hw hb => exact h.setTunnel (by rw [hb]; rfl)
  | watchdogTorn hw hb => exact h.setTunnel (by rw [hb]; rfl)
  | watchdogDropped hw hb => exact h.setTunnel (by rw [hb]; rfl)
  | watchdogFailsLast hw hh hb => exact h.setTunnel (by rw [hb]; rfl)
  | watchdogEmpty hw hn hb => exact h.setTunnel rfl
  | watchdogJoins hw => exact h.setTunnel rfl
  | watchdogFails hw => exact h.setTunnel rfl
  | netstackEnds hw => exact h.setTunnel rfl
  | _ =>
    first
    | exact h
    | exact h.setCall (by simp [*, Call.post])
    | exact h.setDrop (by simp [*, DropPc.post])

end Manned

/-! ## The shutdown signal -/

/-- The `RunState` of a tunnel is with a party that has signalled the shutdown. -/
def lateRole (r : CallId) : Role where
  call _ k := k = .stop (.awaiting r) ∨ k = .stop (.fallback r)
  running _ := False
  dropping d := d = .signalled r ∨ d = .tearing r ∨ d = .aborting r

theorem holds_state_of_late {s : Engine} {r : CallId} {x : Holder} (h : s.holds (lateRole r) x) :
    s.holds (stateRole r) x := by
  cases x with
  | call c =>
    rcases h with hc | hc
    · exact holds_of_owned hc rfl
    · exact holds_of_owned hc rfl
  | published => exact absurd h id
  | drop =>
    change s.dropping.owned = some r
    rcases h with hd | hd | hd
    · rw [hd]; rfl
    · rw [hd]; rfl
    · rw [hd]; rfl

/-- The signal has been sent where a party is past it, and the drop of the engine leaves an empty slot. -/
structure Signalled (s : Engine) : Prop where
  late : ∀ r x, s.holds (lateRole r) x → (s.tunnel r).shutdown = true
  emptied : ∀ r, s.dropping = .aborting r → (s.tunnel r).custody.inSlot = false

namespace Signalled

variable {os : Os} {ipv6 : Bool} {s s' : Engine} {a : Action} {c r : CallId} {k : Call} {t : Tunnel} {d : DropPc}

/-- What holds of the states of the late parties. -/
abbrev Late (s : Engine) : Prop := ∀ r x, s.holds (lateRole r) x → (s.tunnel r).shutdown = true

theorem late_setCall (h : Late s) (hk : ∀ r, (lateRole r).call c k → (s.tunnel r).shutdown = true) :
    Late (s.setCall c k) := by
  intro r x hx
  rcases (holds_setCall x).mp hx with ⟨-, hx⟩ | ⟨hx, -⟩
  · exact hk r hx
  · exact h r x hx

theorem late_setTunnel (h : Late s) (ht : (s.tunnel r).shutdown = true → t.shutdown = true) :
    Late (s.setTunnel r t) := by
  intro y x hx
  have hold := h y x (by cases x <;> exact hx)
  rw [Engine.setTunnel_tunnel]
  split
  · next he =>
    subst he
    exact ht hold
  · exact hold

theorem late_setDrop (h : Late s) (hd : ∀ r, (lateRole r).dropping d → (s.tunnel r).shutdown = true) :
    Late { s with dropping := d } := by
  intro r x hx
  cases x with
  | call c => exact h r (.call c) hx
  | published => exact absurd hx id
  | drop => exact hd r hx

/-- The signal is sent. -/
theorem late_signal (h : Late s) : Late (s.setTunnel r { s.tunnel r with shutdown := true }) :=
  late_setTunnel h fun _ => rfl

theorem step_late (h : Late s) (hs : Sane s) (hstep : Step os ipv6 s a s') : Late s' := by
  cases hstep with
  | @create c iface hc =>
    refine late_setCall (s := s.setTunnel c (.create iface)) (fun r x hx => ?_) (by simp [lateRole])
    have hx' : s.holds (lateRole r) x := by cases x <;> exact hx
    have hne : r ≠ c := by
      rintro rfl
      exact hs.born (holds_state_of_late hx') (hs.unborn r (by rw [hc]; rfl))
    rw [Engine.setTunnel_tunnel, if_neg hne]
    exact h r x hx'
  | @signal c r hc =>
    refine late_setCall (late_signal h) fun x hx => ?_
    have hx' : x = r := by simpa [lateRole, eq_comm] using hx
    rw [Engine.setTunnel_tunnel, if_pos hx']
  | @fallback c r tun hc hw hb =>
    refine late_setCall (late_setTunnel h fun h => h) fun x hx => ?_
    have hx' : x = r := by simpa [lateRole, eq_comm] using hx
    rw [Engine.setTunnel_tunnel, if_pos hx']
    exact h r (.call c) (.inl hc)
  | @dropSignal r hd =>
    refine late_setDrop (late_signal h) fun x hx => ?_
    have hx' : x = r := by simpa [lateRole, eq_comm] using hx
    rw [Engine.setTunnel_tunnel, if_pos hx']
  | @dropTear r tun hd hb =>
    refine late_setDrop (late_setTunnel h fun h => h) fun x hx => ?_
    have hx' : x = r := by simpa [lateRole, eq_comm] using hx
    rw [Engine.setTunnel_tunnel, if_pos hx']
    exact h r .drop (.inl hd)
  | @dropEmpty r hd hb =>
    refine late_setDrop h fun x hx => ?_
    have hx' : x = r := by simpa [lateRole, eq_comm] using hx
    exact hx' ▸ h r .drop (.inl hd)
  | @dropTorn r hd hb =>
    refine late_setDrop (late_setTunnel h fun h => h) fun x hx => ?_
    have hx' : x = r := by simpa [lateRole, eq_comm] using hx
    rw [Engine.setTunnel_tunnel, if_pos hx']
    exact h r .drop (.inr (.inl hd))
  | beginDrop _ _ => exact late_setDrop h (by simp [lateRole])
  | dropIdle _ _ => exact late_setDrop h (by simp [lateRole])
  | dropTake _ _ => exact late_setDrop (s := { s with running := none }) h (by simp [lateRole])
  | dropClear _ => exact late_setDrop (s := s.setFlag false) h (by simp [lateRole])
  | abort _ => exact late_setDrop (late_setTunnel h fun h => h) (by simp [lateRole])
  | _ =>
    first
    | exact h
    | exact late_setTunnel h fun h => h
    | exact late_setCall h (by simp [lateRole])
    | exact late_setCall (late_setTunnel h fun h => h) (by simp [lateRole])

theorem step (h : Signalled s) (hs : Sane s) (hstep : Step os ipv6 s a s') : Signalled s' := by
  refine ⟨step_late h.late hs hstep, fun r hr => Bool.eq_false_iff.mpr fun hin => ?_⟩
  -- the slot stays empty, so only the steps that lead to the abort matter
  have hold : s.dropping = .aborting r → False := fun hd => by
    have hborn := hs.born (x := .drop) (r := r) (by change s.dropping.owned = some r; rw [hd]; rfl)
    cases (h.emptied r hd).symm.trans (inSlot_step hs hstep r hborn hin)
  cases hstep with
  | @dropEmpty r hd hb =>
    cases hr
    cases hc : (s.tunnel r).custody with
    | slot tun => exact hb tun hc
    | _ => simp [hc, Custody.inSlot] at hin
  | @dropTorn r hd hb =>
    cases hr
    change ((s.setTunnel r (s.tunnel r).close).tunnel r).custody.inSlot = true at hin
    rw [Engine.setTunnel_tunnel, if_pos rfl] at hin
    cases hin
  | _ =>
    first
    | exact hold hr
    | cases hr

end Signalled

/-! ## The watchdog -/

/-- What can be said of a tunnel from where its watchdog is. -/
structure Tunnel.Guarded (t : Tunnel) : Prop where
  tearing : t.watchdog = .tearing → ∃ todo, t.custody = .tearing .watchdog todo
  /-- A watchdog that fails leaves the adapter to the `RunState`. -/
  failed : t.watchdog = .failed → ∀ tun, t.custody = .slot tun → t.held = true
  /-- A `RunState` is dropped only after it was used to signal the shutdown. -/
  released : t.watchdog ≠ .unborn → t.held = false → t.shutdown = true

namespace Tunnel.Guarded

variable {t : Tunnel}

theorem of_unborn (h : t.watchdog = .unborn) : t.Guarded where
  tearing hw := by cases h.symm.trans hw
  failed hw := by cases h.symm.trans hw
  released hw := absurd h hw

theorem spawn (tun : TunAdapter) (t : Tunnel) : (t.spawn tun).Guarded where
  tearing hw := by cases hw
  failed hw := by cases hw
  released _ hh := by cases hh

/-- The adapter is not with the watchdog, and does not get into the slot. -/
theorem move (h : t.Guarded) (hc : ∀ todo, t.custody ≠ .tearing .watchdog todo) {d : Device} {custody : Custody}
    (hn : ∀ tun, custody ≠ .slot tun) : Guarded { t with device := d, custody } where
  tearing hw := by
    obtain ⟨todo, ht⟩ := h.tearing hw
    exact absurd ht (hc todo)
  failed _ tun ht := absurd ht (hn tun)
  released := h.released

theorem release (h : t.Guarded) (hs : t.shutdown = true)
    (hw : t.watchdog = .failed → ∀ tun, t.custody ≠ .slot tun) : Guarded { t with held := false } where
  tearing := h.tearing
  failed hf tun ht := absurd ht (hw hf tun)
  released _ _ := hs

theorem signal (h : t.Guarded) : Guarded { t with shutdown := true } where
  tearing := h.tearing
  failed := h.failed
  released _ _ := rfl

/-- The watchdog goes on, and the adapter is where it should be then. -/
theorem watchdog (h : t.Guarded) (hw : t.watchdog ≠ .unborn) {d : Device} {custody : Custody} {w : Watchdog}
    (ht : w = .tearing → ∃ todo, custody = .tearing .watchdog todo)
    (hf : w = .failed → ∀ tun, custody = .slot tun → t.held = true) :
    Guarded { t with device := d, custody, watchdog := w } where
  tearing := ht
  failed := hf
  released _ hh := h.released hw hh

end Tunnel.Guarded

theorem guarded_step {os : Os} {ipv6 : Bool} {s s' : Engine} {a : Action} (h : ∀ r, (s.tunnel r).Guarded) (hs : Sane s)
    (hst : ∀ r, (s.tunnel r).Stands) (hsig : Signalled s) (hstep : Step os ipv6 s a s') :
    ∀ r, (s'.tunnel r).Guarded := by
  have hunborn : ∀ {c : CallId}, (s.call c).spawned = false → (s.tunnel c).watchdog = .unborn := fun hc => hs.unborn _ hc
  cases hstep with
  | create hc => exact Engine.forall_setTunnel h (.of_unborn rfl)
  | configureFails hc hb => exact Engine.forall_setTunnel h (.of_unborn (hunborn (by rw [hc]; rfl)))
  | addRouteFails hc hb => exact Engine.forall_setTunnel h (.of_unborn (hunborn (by rw [hc]; rfl)))
  | addRoute hc hb => exact Engine.forall_setTunnel h (.of_unborn (hunborn (by rw [hc]; rfl)))
  | deviceFails hc hb => exact Engine.forall_setTunnel h (.of_unborn (hunborn (by rw [hc]; rfl)))
  | spawn hc hb => exact Engine.forall_setTunnel h (.spawn _ _)
  | unwind hc hb => exact Engine.forall_setTunnel h (.of_unborn (hunborn (by rw [hc]; rfl)))
  | unwound hc hb => exact Engine.forall_setTunnel h (.of_unborn (hunborn (by rw [hc]; rfl)))
  | signal hc => exact Engine.forall_setTunnel h (h _).signal
  | dropSignal hd => exact Engine.forall_setTunnel h (h _).signal
  | @joined c r hc hw =>
    refine Engine.forall_setTunnel h ((h r).release (hsig.late r (.call c) (.inl hc)) fun hf => ?_)
    rcases hw with hw | hw
    · cases hf.symm.trans hw
    · exact hw.2
  | @cancel c r hc hw =>
    exact Engine.forall_setTunnel h ((h r).release (hsig.late r (.call c) (.inl hc)) fun hf => hw.resolve_left (· hf))
  | @abort r hd =>
    refine Engine.forall_setTunnel h ((h r).release (hsig.late r .drop (.inr (.inr hd))) fun _ tun ht => ?_)
    have hout := hsig.emptied r hd
    rw [ht] at hout
    cases hout
  | @fallbackDone c r hc hb =>
    have hclosed : (s.tunnel r).close.Guarded := (h r).move (by simp [hb]) (by simp)
    exact Engine.forall_setTunnel h (hclosed.release (hsig.late r (.call c) (.inr hc)) fun _ _ he => by cases he)
  | @cancelLast c r tun hc hw hb =>
    have htorn : ((s.tunnel r).tear .stop (tun.drop os)).Guarded := (h r).move (by simp [hb]) (by simp)
    exact Engine.forall_setTunnel h (htorn.release (hsig.late r (.call c) (.inl hc)) fun _ _ he => by cases he)
  | netstackEnds hw => exact Engine.forall_setTunnel h ⟨(h _).tearing, (h _).failed, (h _).released⟩
  | watchdogTakes hw hn hb =>
    exact Engine.forall_setTunnel h ((h _).watchdog (by simp [hw]) (fun _ => ⟨_, rfl⟩) (by simp))
  | watchdogEmpty hw hn hb => exact Engine.forall_setTunnel h ((h _).watchdog (by simp [hw]) (by simp) (by simp))
  | @watchdogCall r call todo hw hb =>
    have hborn : (s.tunnel r).watchdog ≠ .unborn := fun hu => by simp [hu] at hw
    exact Engine.forall_setTunnel h ((h r).watchdog hborn (fun _ => ⟨_, rfl⟩) fun _ _ he => by cases he)
  | watchdogTorn hw hb => exact Engine.forall_setTunnel h ((h _).watchdog (by simp [hw]) (by simp) (by simp))
  | @watchdogDropped r hw hb =>
    refine Engine.forall_setTunnel h ((h r).watchdog (by simp [hw]) (fun ht => ?_) fun _ _ he => by cases he)
    cases hw.symm.trans ht
  | watchdogJoins hw => exact Engine.forall_setTunnel h ((h _).watchdog (by simp [hw]) (by simp) (by simp))
  | @watchdogFails r hw =>
    have hborn : (s.tunnel r).watchdog ≠ .unborn := fun hu => by simp [hu] at hw
    refine Engine.forall_setTunnel h ((h r).watchdog hborn (by simp) fun _ tun ht => ?_)
    rcases hw with hw | ⟨hw, hh | hn⟩
    · have hstands := (hst r).at_custody ht
      simp [Custody.Stands, hw] at hstands
    · exact hh
    · exact absurd ht (hn tun)
  | watchdogFailsLast hw hh hb =>
    exact Engine.forall_setTunnel h ((h _).watchdog (by simp [hw]) (by simp) fun _ _ he => by cases he)
  | _ =>
    -- the adapter is taken out of the slot, or taken down, by another party
    first
    | exact h
    | exact Engine.forall_setTunnel (P := Tunnel.Guarded) h ((h _).move (by simp [*]) (by simp))

/-! ## After the engine -/

/-- The drop of the engine has looked into the mutex. -/
def DropPc.took : DropPc → Bool
  | .alive => false
  | .entered => false
  | _ => true

/-- The engine is dropped only when no call is left, and its drop empties the mutex. -/
structure Retired (s : Engine) : Prop where
  calls : s.dropping ≠ .alive → ∀ c < s.made, (s.call c).finished = true
  mutex : s.dropping.took = true → s.running = none

theorem Retired.step {os : Os} {ipv6 : Bool} {s s' : Engine} {a : Action} (h : Retired s) (hs : Sane s)
    (hstep : Step os ipv6 s a s') : Retired s' := by
  -- a call that goes on was not finished, so the engine exists
  have halive : ∀ {c : CallId} {k : Call}, s.call c = k → k ≠ .unmade → k.finished = false → s.dropping = .alive := by
    intro c k hc hk hf
    by_contra hd
    have hlt : c < s.made := by
      by_contra hge
      exact hk (hc.symm.trans (hs.unmade c (Nat.le_of_not_lt hge)))
    have hdone := h.calls hd c hlt
    rw [hc, hf] at hdone
    cases hdone
  have hgone : ∀ {s' : Engine}, s'.dropping = .alive → Retired s' := fun hd =>
    ⟨fun hn => absurd hd hn, fun ht => by rw [hd] at ht; cases ht⟩
  cases hstep with
  | beginStart hd => exact hgone hd
  | beginStop hd => exact hgone hd
  | beginDrop hd hf => exact ⟨fun _ => hf, fun ht => by cases ht⟩
  | dropIdle hd hr => exact ⟨fun _ => h.calls (by simp [hd]), fun _ => hr⟩
  | dropTake hd hr => exact ⟨fun _ => h.calls (by simp [hd]), fun _ => rfl⟩
  | dropClear hd => exact ⟨fun _ => h.calls (by simp [hd]), fun _ => h.mutex (by rw [hd]; rfl)⟩
  | dropSignal hd => exact ⟨fun _ => h.calls (by simp [hd]), fun _ => h.mutex (by rw [hd]; rfl)⟩
  | dropTear hd hb => exact ⟨fun _ => h.calls (by simp [hd]), fun _ => h.mutex (by rw [hd]; rfl)⟩
  | dropEmpty hd hb => exact ⟨fun _ => h.calls (by simp [hd]), fun _ => h.mutex (by rw [hd]; rfl)⟩
  | dropTorn hd hb => exact ⟨fun _ => h.calls (by simp [hd]), fun _ => h.mutex (by rw [hd]; rfl)⟩
  | abort hd => exact ⟨fun _ => h.calls (by simp [hd]), fun _ => h.mutex (by rw [hd]; rfl)⟩
  | _ =>
    first
    | exact ⟨h.calls, h.mutex⟩
    | exact hgone (halive (by assumption) (by simp) rfl)

/-! ## All of it -/

/-- **What holds in every run** of the parties and their adapters. -/
structure Posted (os : Os) (ipv6 : Bool) (s : Engine) : Prop where
  tidy : Tidy os ipv6 s
  planned : Planned os s
  wf : ∀ r, (s.tunnel r).Wf os
  manned : Manned s
  guarded : ∀ r, (s.tunnel r).Guarded
  signalled : Signalled s
  retired : Retired s

namespace Posted

variable {os : Os} {ipv6 : Bool} {s s' : Engine} {a : Action}

theorem init : Posted os ipv6 .init where
  tidy := Tidy.init
  planned _ _ hc := by cases hc
  wf _ := ⟨rfl, by simp [Engine.init, Tunnel.blank, Device.blank], by simp [Engine.init, Tunnel.blank]⟩
  manned _ _ := .unset fun x => by cases x <;> simp [Engine.holds, Engine.init, postRole, Call.post, DropPc.post]
  guarded _ := .of_unborn rfl
  signalled.late _ x hx := by cases x <;> simp [Engine.holds, Engine.init, lateRole] at hx
  signalled.emptied _ hd := by cases hd
  retired := ⟨fun hd => absurd rfl hd, fun ht => by cases ht⟩

theorem step (h : Posted os ipv6 s) (hstep : Step os ipv6 s a s') : Posted os ipv6 s' where
  tidy := h.tidy.step hstep
  planned := h.planned.step hstep
  wf := wf_step h.planned h.wf hstep
  manned := h.manned.step h.tidy.sane h.tidy.stands hstep
  guarded := guarded_step h.guarded h.tidy.sane h.tidy.stands h.signalled hstep
  signalled := h.signalled.step h.tidy.sane hstep
  retired := h.retired.step h.tidy.sane hstep

end Posted

end AceTun
