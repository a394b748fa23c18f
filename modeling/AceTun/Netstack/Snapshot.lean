import AceTun.Netstack.Accounting

/-!
# Snapshots of the counters

`snapshot` loads the seven counters one after the other, while the netstack goes on counting. So what it returns need not
be what the counters were at any one moment: a flow that is accepted and dropped between two loads is seen as dropped and
not as accepted. `Monitor` is the netstack with a caller of `snapshot` beside it, a step for each load.

Each value that is returned lies between the counters at the call and at the return (`Monitor.Inv`), and that is enough
to compare one snapshot with a later one (`snapshots_are_ordered`).

The accesses are `Relaxed`, and here they take effect in one order that all threads see. For a single counter the memory
model promises no less; that the drops of a snapshot are covered by the flows of a later one compares different counters,
and holds of runs in which the accesses are so ordered.
-/

namespace AceTun

open RustStd Tasks Transition

variable {R : RegexCrate}

/-- What `stats()` returns. -/
abbrev StatsSnapshot : Type := Stats

/-- A field of a snapshot is filled in. -/
def Stats.set (st : Stats) (c : Counter) (v : UInt64) : Stats :=
  match c with
  | .tcpFlows => { st with tcpFlows := v }
  | .udpFlows => { st with udpFlows := v }
  | .blocked => { st with blocked := v }
  | .quicDropped => { st with quicDropped := v }
  | .proxyFallbacks => { st with proxyFallbacks := v }
  | .groupDropped => { st with groupDropped := v }
  | .udpSendErrors => { st with udpSendErrors := v }

theorem Stats.get_set (st : Stats) (c d : Counter) (v : UInt64) :
    (st.set c v).get d = if c = d then v else st.get d := by
  cases c <;> cases d <;> rfl

/-- The counters, in the order in which `snapshot` loads them. -/
def snapshotOrder : List Counter :=
  [.tcpFlows, .udpFlows, .blocked, .quicDropped, .proxyFallbacks, .groupDropped, .udpSendErrors]

theorem mem_snapshotOrder (c : Counter) : c ∈ snapshotOrder := by
  cases c <;> decide

/-- A call of `snapshot` that returned, with the counters at the call and at the return. -/
structure SnapshotCall where
  before : Stats
  seen : StatsSnapshot
  after : Stats
  deriving DecidableEq, Repr

/-- A call that is under way. -/
structure Loading where
  before : Stats
  /-- What is still to be loaded. -/
  todo : List Counter
  seen : StatsSnapshot
  deriving DecidableEq, Repr

/-- The netstack and a caller of `stats()`. -/
structure Monitor (R : RegexCrate) where
  net : Netstack R
  loading : Option Loading
  /-- The calls that returned, oldest first. -/
  taken : List SnapshotCall

namespace Monitor

inductive Action where
  | net (a : Netstack.Action)
  /-- `snapshot` is called. -/
  | call
  /-- It loads the next counter, or returns. -/
  | load

variable (base64 : Bytes → Str)

def step (m : Monitor R) : Action → Option (Monitor R)
  | .net a => (Netstack.step base64 m.net a).map fun net => { m with net }
  | .call =>
    match m.loading with
    | some _ => none
    | none => some { m with loading := some ⟨m.net.stats, snapshotOrder, ⟨0, 0, 0, 0, 0, 0, 0⟩⟩ }
  | .load =>
    match m.loading with
    | none => none
    | some ⟨before, [], seen⟩ =>
      some { m with loading := none, taken := m.taken ++ [⟨before, seen, m.net.stats⟩] }
    | some ⟨before, c :: todo, seen⟩ =>
      some { m with loading := some ⟨before, todo, seen.set c (m.net.stats.get c)⟩ }

def init (shared : Shared R) : Monitor R := ⟨.init shared, none, []⟩

end Monitor

/-! ## The counters only grow -/

namespace Netstack

variable {base64 : Bytes → Str} {shared : Shared R} {net net' : Netstack R}

theorem log_step {a : Action} (hs : step base64 net a = some net') : net.pool.log <+: net'.pool.log := by
  obtain ⟨loop, pool⟩ := net
  cases a with
  | run =>
    cases loop <;> cases hs
    exact List.prefix_rfl
  | accept stream =>
    cases loop <;> cases stream <;> cases hs
    · exact List.prefix_append ..
    · exact List.prefix_append ..
    · exact List.prefix_rfl
    · exact List.prefix_rfl
  | spawn =>
    cases loop <;> cases hs
    exact List.prefix_rfl
  | stop =>
    cases loop <;> cases hs
    exact List.prefix_rfl
  | advance i =>
    obtain ⟨pool', ha, rfl⟩ := Option.map_eq_some_iff.mp hs
    exact Pool.log_advance ha
  | drop i =>
    obtain ⟨pool', hd, rfl⟩ := Option.map_eq_some_iff.mp hs
    change pool.log <+: pool'.log
    rw [Pool.log_drop hd]

/-- Before a counter can wrap, it says how often it was moved. -/
theorem Inv.get_eq_total (h : Inv shared net) (hz : shared.stats = ⟨0, 0, 0, 0, 0, 0, 0⟩)
    (hops : net.pool.log.length < 2 ^ 64) (c : Counter) :
    (net.stats.get c).toNat = net.total (SharedOp.counts c) :=
  h.get_toNat hz (Nat.lt_of_le_of_lt List.countP_le_length hops)

/-- A step lowers no counter, as long as none wraps. -/
theorem Inv.stats_mono (h : Inv shared net) (hz : shared.stats = ⟨0, 0, 0, 0, 0, 0, 0⟩) {a : Action}
    (hs : Netstack.step base64 net a = some net') (hops : net'.pool.log.length < 2 ^ 64) (c : Counter) :
    net.stats.get c ≤ net'.stats.get c := by
  have hlog := log_step hs
  rw [UInt64.le_iff_toNat_le, h.get_eq_total hz (Nat.lt_of_le_of_lt hlog.length_le hops),
    (h.step hs).get_eq_total hz hops]
  exact hlog.sublist.countP_le

/-- The counters of one moment add up. -/
def AddUp (st : Stats) : Prop :=
  st.blocked.toNat + st.quicDropped.toNat + st.groupDropped.toNat ≤ st.tcpFlows.toNat + st.udpFlows.toNat ∧
    st.proxyFallbacks.toNat ≤ st.tcpFlows.toNat

theorem Inv.addUp (h : Inv shared net) (hz : shared.stats = ⟨0, 0, 0, 0, 0, 0, 0⟩)
    (hops : net.pool.log.length < 2 ^ 64) : AddUp net.stats := by
  have hacc : ∀ i, Accounted (net.ops i) := fun i => (h.pool.safe i).now
  have hdrops := h.total_le fun i => (hacc i).2.1
  have hfall := h.total_le fun i => (hacc i).2.2
  have hsplit : net.total SharedOp.isDrop = net.total (SharedOp.counts .blocked) +
      net.total (SharedOp.counts .quicDropped) + net.total (SharedOp.counts .groupDropped) := countP_isDrop ..
  have hflow : net.total SharedOp.isFlow =
      net.total (SharedOp.counts .tcpFlows) + net.total (SharedOp.counts .udpFlows) := countP_isFlow ..
  have hget := h.get_eq_total hz hops
  constructor
  · have hb := hget .blocked
    have hq := hget .quicDropped
    have hg := hget .groupDropped
    have ht := hget .tcpFlows
    have hu := hget .udpFlows
    simp only [Stats.get] at hb hq hg ht hu
    omega
  · have hf := hget .proxyFallbacks
    have ht := hget .tcpFlows
    simp only [Stats.get] at hf ht
    omega

end Netstack

/-! ## Every interleaving with a caller -/

namespace Monitor

variable {base64 : Bytes → Str} {shared : Shared R} {m m' : Monitor R}

/-- No counter is smaller in the second one. -/
def NoLess (st st' : Stats) : Prop := ∀ c, st.get c ≤ st'.get c

theorem NoLess.refl (st : Stats) : NoLess st st := fun _ => UInt64.le_refl _

theorem NoLess.trans {st st' st'' : Stats} (h : NoLess st st') (h' : NoLess st' st'') : NoLess st st'' :=
  fun c => UInt64.le_trans (h c) (h' c)

/-- What a call has loaded lies between the counters at its beginning and now. -/
structure Loading.Sound (now : Stats) (l : Loading) : Prop where
  grown : NoLess l.before now
  loaded : ∀ c, c ∉ l.todo → l.before.get c ≤ l.seen.get c ∧ l.seen.get c ≤ now.get c

/-- So does what a call returned, at its end. -/
structure SnapshotCall.Sound (now : Stats) (s : SnapshotCall) : Prop where
  lower : NoLess s.before s.seen
  upper : NoLess s.seen s.after
  past : NoLess s.after now
  addUp : Netstack.AddUp s.after

/-- What holds as long as no counter can have wrapped. -/
structure Inv (m : Monitor R) : Prop where
  loading : ∀ l, m.loading = some l → Loading.Sound m.net.stats l ∧ ∀ s ∈ m.taken, NoLess s.after l.before
  taken : ∀ s ∈ m.taken, SnapshotCall.Sound m.net.stats s
  ordered : m.taken.Pairwise fun s t => NoLess s.after t.before

theorem inv_init (shared : Shared R) : Inv (init shared) :=
  ⟨(fun _ h => nomatch h), (fun _ h => nomatch h), List.Pairwise.nil⟩

/-- The counters grow under a caller. -/
theorem Inv.grow (h : Inv m) {net : Netstack R} (hg : NoLess m.net.stats net.stats) : Inv { m with net } := by
  refine ⟨fun l hl => ?_, fun s hs => ?_, h.ordered⟩
  · obtain ⟨hsound, hpast⟩ := h.loading l hl
    refine ⟨⟨hsound.grown.trans hg, fun c hc => ?_⟩, hpast⟩
    exact ⟨(hsound.loaded c hc).1, UInt64.le_trans (hsound.loaded c hc).2 (hg c)⟩
  · have hsound := h.taken s hs
    exact ⟨hsound.lower, hsound.upper, hsound.past.trans hg, hsound.addUp⟩

theorem Inv.call (h : Inv m) :
    Inv { m with loading := some ⟨m.net.stats, snapshotOrder, ⟨0, 0, 0, 0, 0, 0, 0⟩⟩ } := by
  refine ⟨fun l hl => ?_, h.taken, h.ordered⟩
  cases hl
  exact ⟨⟨.refl _, fun c hc => absurd (mem_snapshotOrder c) hc⟩, fun s hs => (h.taken s hs).past⟩

theorem Inv.load {l : Loading} {c : Counter} {todo : List Counter} (h : Inv m) (hl : m.loading = some l)
    (ht : l.todo = c :: todo) :
    Inv { m with loading := some ⟨l.before, todo, l.seen.set c (m.net.stats.get c)⟩ } := by
  obtain ⟨hsound, hpast⟩ := h.loading l hl
  refine ⟨fun l' hl' => ?_, h.taken, h.ordered⟩
  cases hl'
  refine ⟨⟨hsound.grown, fun d hd => ?_⟩, hpast⟩
  simp only [Stats.get_set]
  split
  · rename_i hcd
    exact ⟨hcd ▸ hsound.grown c, hcd ▸ UInt64.le_refl _⟩
  · rename_i hcd
    exact hsound.loaded d (by rw [ht]; exact List.not_mem_cons_of_ne_of_not_mem (Ne.symm hcd) hd)

theorem Inv.return {l : Loading} (h : Inv m) (hl : m.loading = some l) (ht : l.todo = [])
    (ha : Netstack.AddUp m.net.stats) :
    Inv { m with loading := none, taken := m.taken ++ [⟨l.before, l.seen, m.net.stats⟩] } := by
  obtain ⟨hsound, hpast⟩ := h.loading l hl
  have hall := fun c => hsound.loaded c (by rw [ht]; exact List.not_mem_nil)
  refine ⟨(fun _ hl' => nomatch hl'), fun s hs => ?_, ?_⟩
  · rcases List.mem_append.mp hs with hs | hs
    · exact h.taken s hs
    · rw [List.mem_singleton.mp hs]
      exact ⟨fun c => (hall c).1, fun c => (hall c).2, .refl _, ha⟩
  · rw [List.pairwise_append]
    refine ⟨h.ordered, List.pairwise_singleton .., fun s hs t ht => ?_⟩
    rw [List.mem_singleton.mp ht]
    exact hpast s hs

/-- **The step lemma**: the netstack counts on, or a caller loads. -/
theorem step_inv {a : Action} (hz : shared.stats = ⟨0, 0, 0, 0, 0, 0, 0⟩) (hnet : Netstack.Inv shared m.net)
    (h : m.net.pool.log.length < 2 ^ 64 → Inv m) (hs : step base64 m a = some m') :
    Netstack.Inv shared m'.net ∧ (m'.net.pool.log.length < 2 ^ 64 → Inv m') := by
  cases a with
  | net a =>
    obtain ⟨net, hn, rfl⟩ := Option.map_eq_some_iff.mp hs
    refine ⟨hnet.step hn, fun hops => ?_⟩
    have hops' := Nat.lt_of_le_of_lt (Netstack.log_step hn).length_le hops
    exact (h hops').grow fun c => hnet.stats_mono hz hn hops c
  | call =>
    simp only [step] at hs
    split at hs
    · cases hs
    · cases hs
      exact ⟨hnet, fun hops => (h hops).call⟩
  | load =>
    simp only [step] at hs
    split at hs
    · cases hs
    · rename_i hl
      cases hs
      exact ⟨hnet, fun hops => (h hops).return hl rfl (hnet.addUp hz hops)⟩
    · rename_i hl
      cases hs
      exact ⟨hnet, fun hops => (h hops).load hl rfl⟩

/-- **What may be concluded from snapshots**, in every interleaving with the netstack, in which the `Relaxed` accesses take
effect in one order: each value lies between the counter at the call and at the return; a later snapshot shows no smaller
value; and the drops of a snapshot are covered by the flows of a later one, although they need not be by its own. -/
theorem snapshots_are_ordered (base64 : Bytes → Str) {shared : Shared R}
    (hz : shared.stats = ⟨0, 0, 0, 0, 0, 0, 0⟩) {actions : List Action} {m : Monitor R}
    (hrun : exec (step base64) (init shared) actions = some m) (hops : m.net.pool.log.length < 2 ^ 64) :
    (∀ s ∈ m.taken, ∀ c, s.before.get c ≤ s.seen.get c ∧ s.seen.get c ≤ s.after.get c) ∧
      m.taken.Pairwise fun s t =>
        (∀ c, s.seen.get c ≤ t.seen.get c) ∧
          s.seen.blocked.toNat + s.seen.quicDropped.toNat + s.seen.groupDropped.toNat ≤
            t.seen.tcpFlows.toNat + t.seen.udpFlows.toNat ∧
          s.seen.proxyFallbacks.toNat ≤ t.seen.tcpFlows.toNat := by
  have hinv : Netstack.Inv shared m.net ∧ (m.net.pool.log.length < 2 ^ 64 → Inv m) :=
    exec_invariant (I := fun m => Netstack.Inv shared m.net ∧ (m.net.pool.log.length < 2 ^ 64 → Inv m))
      (fun _ _ _ h hs => step_inv hz h.1 h.2 hs) ⟨Netstack.inv_init shared, fun _ => inv_init shared⟩ hrun
  have h := hinv.2 hops
  refine ⟨fun s hs c => ⟨(h.taken s hs).lower c, (h.taken s hs).upper c⟩, ?_⟩
  refine List.Pairwise.imp_of_mem (fun {s t} hs ht hst => ?_) h.ordered
  -- from what one call saw, over the counters at its end and at the next beginning, to what the next one saw
  have hseen : NoLess s.seen s.after := (h.taken s hs).upper
  have hnext : NoLess s.after t.seen := hst.trans (h.taken t ht).lower
  obtain ⟨hdrops, hfall⟩ := (h.taken s hs).addUp
  have hle := fun c => UInt64.le_iff_toNat_le.mp (hseen c)
  have hle' := fun c => UInt64.le_iff_toNat_le.mp (hnext c)
  refine ⟨fun c => UInt64.le_trans (hseen c) (hnext c), ?_, ?_⟩
  · have h1 := hle .blocked
    have h2 := hle .quicDropped
    have h3 := hle .groupDropped
    have h4 := hle' .tcpFlows
    have h5 := hle' .udpFlows
    simp only [Stats.get] at h1 h2 h3 h4 h5
    omega
  · have h1 := hle .proxyFallbacks
    have h2 := hle' .tcpFlows
    simp only [Stats.get] at h1 h2
    omega

/-- A snapshot that loads the counters of flows before a multicast flow comes, and one after it. -/
def sampleRun : List Action :=
  [.call, .load, .load] ++ Netstack.sampleRun.map .net ++ List.replicate 6 .load ++ .call :: List.replicate 8 .load

/-- The first snapshot shows a drop and no flow; the second covers it. -/
theorem snapshots_are_ordered_sample :
    ∃ set m, RuleSet.new backslashRegex proxyAllRules = .ok set ∧
      exec (step fun _ => []) (init (sampleShared set)) sampleRun = some m ∧
      m.taken.map SnapshotCall.seen = [⟨0, 0, 0, 0, 1, 1, 0⟩, ⟨1, 1, 0, 0, 1, 1, 0⟩] ∧
      ∀ s ∈ m.taken, ∀ c, s.before.get c ≤ s.seen.get c ∧ s.seen.get c ≤ s.after.get c := by
  obtain ⟨set, hs⟩ : ∃ set, RuleSet.new backslashRegex proxyAllRules = .ok set := ⟨_, rfl⟩
  have hseen : (exec (step fun _ => []) (init (sampleShared set)) sampleRun).map
      (fun m => (m.taken.map SnapshotCall.seen, m.net.pool.log.length)) =
      some ([⟨0, 0, 0, 0, 1, 1, 0⟩, ⟨1, 1, 0, 0, 1, 1, 0⟩], 4) := by
    cases hs
    decide
  obtain ⟨m, hrun, hst⟩ := Option.map_eq_some_iff.mp hseen
  obtain ⟨htaken, hlen⟩ := Prod.mk.inj hst
  exact ⟨set, m, hs, hrun, htaken, (snapshots_are_ordered _ rfl hrun (by omega)).1⟩

end Monitor

end AceTun
