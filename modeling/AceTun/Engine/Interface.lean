import AceTun.Engine.OneTunnel

/-!
# The pinned interface

`Shared::iface` is a cell that is set once, and every outbound socket is pinned to what it holds. It holds the interface
of the current tunnel in every run in which each `start` that finds an interface finds the one that is in the cell
already (`iface_of_discoversSame`). A machine that moved to another network between two starts is left with the
interface of the first one (`iface_stale_after_restart`).
-/

namespace AceTun

open RustStd Transition

/-- The interface that the action discovers. -/
def Action.discovered : Action → Option PhysicalInterface
  | .start _ (.discover iface) => some iface
  | _ => none

/-- An interface that is discovered is the one in the cell, if there is one. -/
def DiscoversSame (s : Engine) (a : Action) : Prop :=
  ∀ iface ∈ a.discovered, iface.isEmpty = false → s.cells.ifaceCell = none ∨ s.cells.ifaceCell = some iface

instance (s : Engine) (a : Action) : Decidable (DiscoversSame s a) :=
  inferInstanceAs (Decidable (∀ iface ∈ a.discovered, _ = false → _ ∨ _))

/-- The tunnel was created, and for the interface in the cell. -/
def Tunnel.Fits (cell : Option PhysicalInterface) (t : Tunnel) : Prop :=
  t.custody ≠ .absent ∨ t.watchdog ≠ .unborn → cell = some t.iface

/-- What a `start` has found fits the cell. -/
def StartPc.Fits (cell : Option PhysicalInterface) : StartPc → Prop
  | .discovered iface => cell = none ∨ cell = some iface
  | .creating iface => cell = some iface
  | _ => True

def Call.Fits (cell : Option PhysicalInterface) : Call → Prop
  | .start pc => pc.Fits cell
  | _ => True

structure Pinned (s : Engine) : Prop where
  calls : ∀ c, (s.call c).Fits s.cells.ifaceCell
  tunnels : ∀ r, (s.tunnel r).Fits s.cells.ifaceCell

section Closure

variable {s : Engine} {c r : CallId} {k : Call} {t : Tunnel}

theorem Pinned.setCall (h : Pinned s) (hk : k.Fits s.cells.ifaceCell) : Pinned (s.setCall c k) where
  calls := Engine.forall_setCall (P := fun _ k => k.Fits s.cells.ifaceCell) h.calls hk
  tunnels := h.tunnels

theorem Pinned.setTunnel (h : Pinned s) (ht : t.Fits s.cells.ifaceCell) : Pinned (s.setTunnel r t) where
  calls := h.calls
  tunnels := Engine.forall_setTunnel h.tunnels ht

/-- The tunnel was there before, for the same interface. -/
theorem Pinned.moveTunnel (h : Pinned s) (hc : (s.tunnel r).custody ≠ .absent ∨ (s.tunnel r).watchdog ≠ .unborn)
    (hi : t.iface = (s.tunnel r).iface) : Pinned (s.setTunnel r t) :=
  h.setTunnel fun _ => by rw [h.tunnels r hc, hi]

theorem Pinned.setDrop (h : Pinned s) {d : DropPc} : Pinned { s with dropping := d } := ⟨h.calls, h.tunnels⟩

theorem Call.fits_of_not_claims (cell : Option PhysicalInterface) (hk : k.claims = false) : k.Fits cell := by
  unfold Call.Fits
  split
  · next pc =>
    unfold StartPc.Fits
    split
    · cases hk
    · cases hk
    · trivial
  · trivial

/-- The cell is set, or keeps what it has; no other start is on its way. -/
theorem Pinned.setIface (h : Pinned s) (hs : Sane s) {iface : PhysicalInterface}
    (hc : s.call c = .start (.discovered iface)) :
    Pinned ({ s with cells := s.cells.setIface iface }.setCall c (.start (.creating iface))) := by
  have hfits : s.cells.ifaceCell = none ∨ s.cells.ifaceCell = some iface := by
    have := h.calls c
    rw [hc] at this
    exact this
  have hcell : (s.cells.setIface iface).ifaceCell = some iface := by
    rcases hfits with he | he <;> simp [SharedCells.setIface, he]
  constructor
  · intro x
    rw [Engine.setCall_call]
    split
    · exact hcell
    · next hne =>
      refine Call.fits_of_not_claims _ (Bool.eq_false_iff.mpr fun hx => hne ?_)
      exact hs.claims_unique (by rw [hc]; rfl) hx
  · intro r hr
    have hold := h.tunnels r hr
    change (s.cells.ifaceCell.or (some iface)) = some (s.tunnel r).iface
    rw [hold, Option.some_or]

end Closure

theorem Pinned.step {os : Os} {ipv6 : Bool} {s s' : Engine} {a : Action} (hp : Pinned s) (hs : Sane s)
    (hok : DiscoversSame s a) (h : Step os ipv6 s a s') : Pinned s' := by
  cases h with
  | beginStart _ => exact ⟨(hp.setCall (c := s.made) (k := .start .entered) trivial).calls, hp.tunnels⟩
  | beginStop _ => exact ⟨(hp.setCall (c := s.made) (k := .stop .entered) trivial).calls, hp.tunnels⟩
  | discover hc he => exact hp.setCall (hok _ rfl he)
  | setIface hc => exact hp.setIface hs hc
  | @create c iface hc =>
    have hcell : (s.call c).Fits s.cells.ifaceCell := hp.calls c
    rw [hc] at hcell
    exact Pinned.setCall (hp.setTunnel fun _ => hcell) trivial
  | @dropSignal r hd =>
    exact Pinned.setDrop (s := s.setTunnel r { s.tunnel r with shutdown := true }) (hp.setTunnel (hp.tunnels r))
  | @dropTear r tun hd ht =>
    exact Pinned.setDrop (s := s.setTunnel r ((s.tunnel r).tear .drop (tun.tearDown os)))
      (hp.moveTunnel (.inl (by simp [ht])) rfl)
  | @dropTorn r hd ht =>
    exact Pinned.setDrop (s := s.setTunnel r (s.tunnel r).close) (hp.moveTunnel (.inl (by simp [ht])) rfl)
  | @abort r hd =>
    exact Pinned.setDrop (s := s.setTunnel r { s.tunnel r with held := false }) (hp.setTunnel (hp.tunnels r))
  | watchdogFails hw => exact hp.moveTunnel (.inr fun hu => by simp [hu] at hw) rfl
  | watchdogCall hw ht => exact hp.moveTunnel (.inl (by simp [ht])) rfl
  | _ =>
    first
    | exact ⟨hp.calls, hp.tunnels⟩
    | exact Pinned.setCall ⟨hp.calls, hp.tunnels⟩ trivial
    | exact hp.setTunnel (hp.tunnels _)
    | exact hp.moveTunnel (by simp [*]) rfl
    | exact Pinned.setCall (hp.setTunnel (hp.tunnels _)) trivial
    | exact Pinned.setCall (hp.moveTunnel (by simp [*]) rfl) trivial

theorem Pinned.init : Pinned .init where
  calls _ := trivial
  tunnels r h := by simp [Engine.init, Tunnel.blank] at h

/-- **The pinned interface is the current one.** In every run in which each `start` that discovers an interface
discovers the one in the cell, if the cell is set: while the engine is running, `Shared::iface` is what the `start` that
stored the current state had discovered and given to `create`. -/
theorem iface_of_discoversSame {os : Os} {ipv6 : Bool} {s : Engine} (h : Reaches (step os ipv6) DiscoversSame .init s)
    {r : CallId} (hr : s.running = some r) : s.cells.iface = (s.tunnel r).iface := by
  have hinv : Sane s ∧ Pinned s := by
    refine h.invariant (I := fun s => Sane s ∧ Pinned s) ⟨Sane.init, Pinned.init⟩ ?_
    rintro s a s' ⟨hs, hp⟩ hok hstep
    exact ⟨hs.step (step_inv hstep), hp.step hs hok (step_inv hstep)⟩
  have hown : s.holds (stateRole r) .published := hr
  have hborn := hinv.1.born hown
  rw [SharedCells.iface, hinv.2.tunnels r (.inr hborn), Option.getD_some]

/-- Another interface than `wifi`. -/
def ethernet : PhysicalInterface := ⟨some 7, none⟩

/-- After a restart on the same network, the interface is the current one. -/
theorem iface_after_restart :
    ∃ s, exec (guarded (step .windows false) DiscoversSame) .init
        (startRun 0 wifi ++ stopRun 1 0 ++ startRun 2 wifi) = some s ∧
      s.running = some 2 ∧ s.cells.iface = (s.tunnel 2).iface := by
  obtain ⟨s, hs⟩ : ∃ s, exec (guarded (step .windows false) DiscoversSame) .init
      (startRun 0 wifi ++ stopRun 1 0 ++ startRun 2 wifi) = some s := ⟨_, rfl⟩
  have hr : s.running = some 2 := by
    cases hs
    rfl
  exact ⟨s, hs, hr, iface_of_discoversSame (reaches_of_exec hs) hr⟩

/-- **A stale interface.** The engine is started on one network, stopped, and started on another. The new adapter was
created for the new interface, and the sockets are still pinned to the old one. -/
theorem iface_stale_after_restart :
    ∃ s, exec (step .windows false) .init (startRun 0 wifi ++ stopRun 1 0 ++ startRun 2 ethernet) = some s ∧
      s.running = some 2 ∧ (s.tunnel 2).iface = ethernet ∧ s.cells.iface = wifi :=
  ⟨_, rfl, rfl, rfl, rfl⟩

end AceTun
