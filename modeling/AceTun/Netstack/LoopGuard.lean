import AceTun.Netstack.FailClosed

/-!
# The loop guard

A handler's direct socket is pinned to the physical interface before it is connected, so that its packets do not come
back to the tunnel. `handlers_pinPolicy` says how far that goes, for TCP and UDP alike: with an index for the address
family the pin is tried before the connect, and the socket is connected pinned exactly when the system accepts it;
without one it is left unpinned, but a flow of our own is dropped before a socket is opened.
-/

namespace AceTun

open RustStd AceTun.Flow

variable {R : RegexCrate}

/-- The effects of opening a direct socket. -/
def Effect.isDial : Effect → Bool
  | .dial _ _ => true
  | .opened _ _ => true
  | .pin _ _ _ => true
  | .connect _ _ => true
  | _ => false

/-- Every socket that is connected directly to an address other than loopback is pinned. -/
def AlwaysPinned (shared : Shared R) (trace : List Effect) : Prop :=
  ∀ d pinned, .connect d pinned ∈ trace → d.ip.isLoopback = false →
    ∃ index, shared.iface.indexFor d.ip = some index ∧ pinned = some index

/-- How the direct sockets of a handler are pinned. -/
structure PinPolicy (env : FlowEnv) (shared : Shared R) (dest : SocketAddr) (trace : List Effect) : Prop where
  /-- Only the destination is connected. -/
  connects : ∀ d pinned, .connect d pinned ∈ trace → d = dest
  /-- With an index for the family, the pin comes before the connect. -/
  tried : ∀ index, shared.iface.indexFor dest.ip = some index → ∀ pre post d pinned,
    trace = pre ++ .connect d pinned :: post → ∃ ok, .pin index dest.ip ok ∈ pre
  /-- The socket is then pinned exactly when the system accepts the pin. -/
  pinned : ∀ index, shared.iface.indexFor dest.ip = some index → dest.ip.isLoopback = false →
    ∀ d p, .connect d p ∈ trace → p = if env.bindInterface index dest.ip = none then some index else none
  /-- Without an index, it is not pinned. -/
  unpinned : shared.iface.indexFor dest.ip = none → ∀ d p, .connect d p ∈ trace → p = none
  /-- A flow of our own without an index is dropped, and no socket is opened for it. -/
  own : env.pid = some shared.currentPid → dest.ip.isLoopback = false → shared.iface.indexFor dest.ip = none →
    .dropStream ∈ trace ∧ ∀ e ∈ trace, e.isDial = false ∧ ∀ cfg target, e ≠ .connectViaProxy cfg target

/-- No direct socket is opened in this part of a trace. -/
def Quiet (effects : List Effect) : Prop := ∀ e ∈ effects, e.isDial = false

section Dial

variable {env : FlowEnv} {shared : Shared R} {dest : SocketAddr} {isUdp : Bool} {before after : List Effect}

theorem Quiet.connect_not_mem {effects : List Effect} (h : Quiet effects) (d : SocketAddr) (p : Option UInt32) :
    .connect d p ∉ effects := fun hm => absurd (h _ hm) (by simp [Effect.isDial])

/-- The only connect of a dial is to its destination, pinned as it could be, and the pin was tried before it. -/
theorem connect_of_dial (hb : Quiet before) (ha : Quiet after) {pre post : List Effect} {d : SocketAddr}
    {p : Option UInt32}
    (h : before ++ dialEffects env dest isUdp shared.iface ++ after = pre ++ .connect d p :: post) :
    d = dest ∧ p = pinnedTo env dest shared.iface ∧ pinEffects env dest shared.iface ⊆ pre := by
  have hmem : .connect d p ∈ before ++ dialEffects env dest isUdp shared.iface ++ after := by rw [h]; simp
  cases hs : env.openSocket with
  | some e =>
    -- the socket could not be opened, so nothing was connected
    exfalso
    simp only [dialEffects, hs, List.mem_append, List.mem_singleton, reduceCtorEq, or_false] at hmem
    exact hmem.elim (hb.connect_not_mem d p) (ha.connect_not_mem d p)
  | none =>
    have hsplit : before ++ dialEffects env dest isUdp shared.iface ++ after =
        (before ++ .dial dest isUdp :: .opened dest isUdp :: pinEffects env dest shared.iface) ++
          .connect dest (pinnedTo env dest shared.iface) :: after := by
      simp [dialEffects, hs]
    have hfront :
        .connect d p ∉ before ++ .dial dest isUdp :: .opened dest isUdp :: pinEffects env dest shared.iface := by
      intro hm
      rcases List.mem_append.mp hm with hm | hm
      · exact hb.connect_not_mem d p hm
      · simp only [List.mem_cons, reduceCtorEq, false_or] at hm
        obtain ⟨_, _, hm⟩ := mem_pinEffects hm
        cases hm
    rw [hsplit] at h
    obtain ⟨rfl, he, -⟩ := (List.append_cons_inj_of_notMem hfront (ha.connect_not_mem d p)).mp h
    cases he
    exact ⟨rfl, rfl, fun x hx => by simp [hx]⟩

theorem pinnedTo_of_index {index : UInt32} (hi : shared.iface.indexFor dest.ip = some index)
    (hl : dest.ip.isLoopback = false) :
    pinnedTo env dest shared.iface = if env.bindInterface index dest.ip = none then some index else none := by
  simp only [pinnedTo, hi, pinSocket, hl]
  cases env.bindInterface index dest.ip <;> simp

/-- A handler that opens no direct socket. -/
theorem pinPolicy_of_quiet {trace : List Effect} (hq : Quiet trace)
    (hown : env.pid = some shared.currentPid → dest.ip.isLoopback = false → shared.iface.indexFor dest.ip = none →
      .dropStream ∈ trace ∧ ∀ e ∈ trace, ∀ cfg target, e ≠ .connectViaProxy cfg target) :
    PinPolicy env shared dest trace where
  connects d p h := absurd h (hq.connect_not_mem d p)
  tried _ _ pre post d p h := absurd (by rw [h]; simp) (hq.connect_not_mem d p)
  pinned _ _ _ d p h := absurd h (hq.connect_not_mem d p)
  unpinned _ d p h := absurd h (hq.connect_not_mem d p)
  own h1 h2 h3 := ⟨(hown h1 h2 h3).1, fun e he => ⟨hq e he, (hown h1 h2 h3).2 e he⟩⟩

/-- A handler that dials once. -/
theorem pinPolicy_of_dial (hb : Quiet before) (ha : Quiet after)
    (hown : ¬ (env.pid = some shared.currentPid ∧ dest.ip.isLoopback = false ∧ shared.iface.indexFor dest.ip = none)) :
    PinPolicy env shared dest (before ++ dialEffects env dest isUdp shared.iface ++ after) where
  connects d p h := by
    obtain ⟨pre, post, h⟩ := List.append_of_mem h
    exact (connect_of_dial hb ha h).1
  tried index hi pre post d p h := by
    obtain ⟨-, -, hsub⟩ := connect_of_dial hb ha h
    exact ⟨_, hsub (by rw [pinEffects, hi]; exact List.mem_singleton_self _)⟩
  pinned index hi hl d p h := by
    obtain ⟨pre, post, h⟩ := List.append_of_mem h
    rw [(connect_of_dial hb ha h).2.1, pinnedTo_of_index hi hl]
  unpinned hi d p h := by
    obtain ⟨pre, post, h⟩ := List.append_of_mem h
    rw [(connect_of_dial hb ha h).2.1, pinnedTo, hi]
  own h1 h2 h3 := absurd ⟨h1, h2, h3⟩ hown

/-- Our own flow without an index is blocked. -/
theorem decide_own (isUdp : Bool) (h1 : env.pid = some shared.currentPid) (h2 : dest.ip.isLoopback = false)
    (h3 : shared.iface.indexFor dest.ip = none) : decide shared (factsOf env shared dest isUdp) = .ok .block := by
  have hp : (factsOf env shared dest isUdp).pid = some shared.currentPid := h1
  unfold decide
  rw [if_pos hp, if_pos (by simp [factsOf, h2, h3])]

theorem quiet_report (facts : FlowFacts) (decision : Decision) : Quiet (reportEffects shared facts decision) := by
  intro e he
  obtain ⟨info, rfl⟩ := mem_reportEffects he
  rfl

/-- A dropped flow. -/
theorem pinPolicy_of_block (facts : FlowFacts) :
    PinPolicy env shared dest (reportEffects shared facts .block ++ [.dropStream]) := by
  apply pinPolicy_of_quiet
  · intro e he
    rcases List.mem_append.mp he with he | he
    · exact quiet_report _ _ e he
    · rw [List.mem_singleton.mp he]
      rfl
  · intro _ _ _
    refine ⟨by simp, ?_⟩
    intro e he cfg target
    rcases List.mem_append.mp he with he | he
    · obtain ⟨info, rfl⟩ := mem_reportEffects he
      simp
    · rw [List.mem_singleton.mp he]
      simp

/-- A flow that is decided otherwise than dropped is not ours without an index. -/
theorem not_own {isUdp : Bool} {decision : Decision}
    (hd : decide shared (factsOf env shared dest isUdp) = .ok decision) (hb : decision ≠ .block) :
    ¬ (env.pid = some shared.currentPid ∧ dest.ip.isLoopback = false ∧
      shared.iface.indexFor dest.ip = none) := by
  rintro ⟨h1, h2, h3⟩
  rw [decide_own isUdp h1 h2 h3] at hd
  cases hd
  exact hb rfl

end Dial

/-! ## Both handlers -/

section Handlers

variable (base64 : Bytes → Str) (env : FlowEnv) (shared : Shared R) (dest : SocketAddr)

/-- A flow whose decision panics does nothing, and then it is not ours without an index. -/
theorem pinPolicy_of_panic {isUdp : Bool} {p : Panic}
    (hd : decide shared (factsOf env shared dest isUdp) = .error p) : PinPolicy env shared dest [] := by
  apply pinPolicy_of_quiet
  · intro e he
    cases he
  · intro h1 h2 h3
    rw [decide_own isUdp h1 h2 h3] at hd
    cases hd

/-- The effects of a proxied flow. -/
theorem quiet_proxied {id : UInt32} (hd : tcpDecision env shared dest = .ok (.proxy id)) :
    Quiet (tcpTrace base64 env shared dest) := by
  intro e he
  rcases mem_tcpTrace he with ⟨_, rfl⟩ | rfl | ⟨hd', -⟩ | ⟨_, -, ⟨_, _, rfl⟩ | ⟨rfl, -⟩ | ⟨_, rfl⟩ | rfl⟩
  on_goal 3 =>
    rw [hd] at hd'
    cases hd'
  all_goals rfl

theorem handleTcp_pinPolicy : PinPolicy env shared dest (tcpTrace base64 env shared dest) := by
  have hproxied : ∀ id, tcpDecision env shared dest = .ok (.proxy id) →
      PinPolicy env shared dest (tcpTrace base64 env shared dest) := fun id hd =>
    pinPolicy_of_quiet (quiet_proxied base64 env shared dest hd) fun h1 h2 h3 =>
      absurd ⟨h1, h2, h3⟩ (not_own hd (by simp))
  rcases tcpTrace_cases base64 env shared dest with ⟨p, hd, ht⟩ | ⟨-, ht⟩ | ⟨hd, ht⟩ | ⟨id, _, hd, -⟩ | ⟨id, _, hd, -⟩
  · rw [ht]
    exact pinPolicy_of_panic env shared dest hd
  · rw [ht]
    exact pinPolicy_of_block _
  · rw [ht, ← List.append_assoc]
    refine pinPolicy_of_dial (quiet_report _ _) ?_ (not_own hd (by simp))
    intro e he
    split at he
    · rw [List.mem_singleton.mp he]
      rfl
    · cases he
  · exact hproxied id hd
  · exact hproxied id hd

theorem handleUdp_pinPolicy (events : List UdpEvent) :
    PinPolicy env shared dest (handleUdp env dest events ⟨shared, []⟩).2.trace := by
  rcases handleUdp_trace env shared dest events with ⟨p, hd, ht⟩ | ⟨-, ht⟩ | ⟨decision, post, hd, hb, ht, hpost⟩
  · rw [ht]
    exact pinPolicy_of_panic env shared dest hd
  · rw [ht]
    exact pinPolicy_of_block _
  · rw [ht]
    refine pinPolicy_of_dial (quiet_report _ _) ?_ (not_own hd hb)
    intro e he
    rcases hpost e he with ⟨_, rfl⟩ | ⟨_, rfl⟩
    · rfl
    · rfl

/-- **The loop guard of both handlers**, for every state, flow and behaviour of the system. -/
theorem handlers_pinPolicy (events : List UdpEvent) :
    PinPolicy env shared dest (tcpTrace base64 env shared dest) ∧
      PinPolicy env shared dest (handleUdp env dest events ⟨shared, []⟩).2.trace :=
  ⟨handleTcp_pinPolicy base64 env shared dest, handleUdp_pinPolicy env shared dest events⟩

end Handlers

/-- A system that lost the interface: every pin fails. -/
def lostInterfaceEnv : FlowEnv := { sampleEnv with bindInterface := fun _ _ => some ⟨.other, "no such device".toList⟩ }

/-- Send everything straight out. -/
def directAllRules : List Rule := [{ Rule.new "*".toList with action := .direct }]

/-- **A pin that fails does not stop the dial**: a direct flow of another process is connected unpinned, although the
index for its family is known. -/
theorem connect_unpinned_after_failed_pin :
    ∃ set, RuleSet.new backslashRegex directAllRules = .ok set ∧
      (sampleShared set).iface.indexFor (.v4 (.new 192 0 2 1)) = some 12 ∧
      .connect ⟨.v4 (.new 192 0 2 1), 443⟩ none ∈
        tcpTrace (fun _ => []) lostInterfaceEnv (sampleShared set) ⟨.v4 (.new 192 0 2 1), 443⟩ ∧
      ¬ AlwaysPinned (sampleShared set)
        (tcpTrace (fun _ => []) lostInterfaceEnv (sampleShared set) ⟨.v4 (.new 192 0 2 1), 443⟩) := by
  obtain ⟨set, hs⟩ : ∃ set, RuleSet.new backslashRegex directAllRules = .ok set := ⟨_, rfl⟩
  have hmem : .connect ⟨.v4 (.new 192 0 2 1), 443⟩ none ∈
      tcpTrace (fun _ => []) lostInterfaceEnv (sampleShared set) ⟨.v4 (.new 192 0 2 1), 443⟩ := by
    cases hs
    decide
  refine ⟨set, hs, rfl, hmem, ?_⟩
  intro h
  obtain ⟨index, -, hpin⟩ := h _ _ hmem (by decide)
  cases hpin

end AceTun
