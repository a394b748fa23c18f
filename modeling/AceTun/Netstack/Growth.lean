import AceTun.Netstack.Names
import AceTun.Netstack.Snapshot

/-!
# What the cache of names holds

Nothing that the engine runs calls `purge_expired`, which is left to the application. So an address stays in the cache
from the first lesson that names it on, however old the lesson is, though neither `lookup` nor `len` shows an entry that is
over (`cache_is_never_emptied`). A server on port 53 decides how much is held: whatever datagrams it answers one relayed
flow with, all their addresses are held in the end (`exists_lessons`).
-/

namespace AceTun

open RustStd Tasks Transition

variable {R : RegexCrate}

/-! ## What is held -/

theorem lastStored_isSome {stores : List Stored} {ip : IpAddr} :
    (lastStored stores ip).isSome ↔ ∃ s ∈ stores, s.ip = ip ∧ s.domain ≠ [] := by
  rw [lastStored, List.find?_isSome]
  simp only [List.mem_reverse, decide_eq_true_eq]

theorem Mirrors.mem_entries {ttl : Nat} {stores : List Stored} {cache : DnsCache} (h : Mirrors ttl stores cache)
    {ip : IpAddr} : ip ∈ cache.entries ↔ ∃ s ∈ stores, s.ip = ip ∧ s.domain ≠ [] := by
  rw [← AList.lookup_isSome, h.entries, Option.isSome_map, lastStored_isSome]

/-- An address that a task stored with a name, from what a DNS server sent on one of these flows. -/
def Taught (streams : List IpStackStream) (log : List (Nat × SharedOp)) (ip : IpAddr) : Prop :=
  ∃ flow s, (flow, .store s) ∈ log ∧ Learns streams flow (.store s) ∧ s.ip = ip ∧ s.domain ≠ []

/-! ## What a server may teach -/

/-- A response, when it comes, and how long each of its stores takes. -/
structure Lesson where
  payload : Bytes
  now : Nat
  delays : List Nat

def Lesson.stores (l : Lesson) : List Stored := stamp l.now l.delays (answersOf l.payload)

/-- The lessons as the datagrams of a server, none of which fails to reach the client. -/
def lessonEvents (lessons : List Lesson) : List UdpEvent := lessons.map fun l => .server l.payload l.now l.delays none

theorem storeRoutine_alone (stores : List Stored) (rest : FlowRoutine R) (shared : Shared R) :
    (storeRoutine stores rest).alone SharedOp.apply shared =
      stores.map .store ++ rest.alone SharedOp.apply (shared.learn stores) := by
  induction stores generalizing shared with
  | nil => rfl
  | cons s stores ih => exact congrArg _ (ih _)

theorem relayRoutine_alone (lessons : List Lesson) (shared : Shared R) :
    (relayRoutine true (lessonEvents lessons)).alone SharedOp.apply shared =
      (lessons.flatMap Lesson.stores).map .store := by
  induction lessons generalizing shared with
  | nil => rfl
  | cons l lessons ih =>
    change (storeRoutine l.stores (.yield (relayRoutine true (lessonEvents lessons)))).alone SharedOp.apply shared = _
    rw [storeRoutine_alone, Routine.alone, ih, List.flatMap_cons, List.map_append]

/-- The flow is one to a DNS server, and it is relayed. -/
structure DnsRelayed (env : FlowEnv) (shared : Shared R) (dest : SocketAddr) : Prop where
  port : dest.port = 53
  decided : ∃ decision, decide shared (factsOf env shared dest true) = .ok decision ∧ decision ≠ .block
  dialed : dialOutcome env (Flow.result env.connect) = .ok ()

section Relayed

variable {env : FlowEnv} {shared : Shared R} {dest : SocketAddr}

/-- Counting changes no decision. -/
theorem DnsRelayed.count (h : DnsRelayed env shared dest) (c : Counter) :
    DnsRelayed env ((SharedOp.count c).apply shared) dest :=
  ⟨h.port, h.decided, h.dialed⟩

theorem DnsRelayed.alone (h : DnsRelayed env shared dest) (lessons : List Lesson) :
    (udpRoutine env dest (lessonEvents lessons)).alone SharedOp.apply shared =
      (lessons.flatMap Lesson.stores).map .store := by
  obtain ⟨decision, hd, hne⟩ := h.decided
  have hport : (factsOf env shared dest true).dest.port == 53 := by simp [factsOf, h.port]
  have hrelay : (carryOutUdpRoutine env shared (factsOf env shared dest true) (lessonEvents lessons) decision).alone
      SharedOp.apply shared = (lessons.flatMap Lesson.stores).map .store := by
    cases decision with
    | block => exact absurd rfl hne
    | _ =>
      simp only [carryOutUdpRoutine, h.dialed, hport, Routine.alone]
      exact relayRoutine_alone lessons shared
  simpa only [udpRoutine, Routine.alone, hd] using hrelay

end Relayed

namespace Netstack

variable {base64 : Bytes → Str} {shared : Shared R} {net net' : Netstack R}

theorem exec_advance {pool pool' : Pool (Shared R) SharedOp} {loop : AcceptLoop R} {flows : List Nat}
    (h : exec (Pool.advance SharedOp.apply) pool flows = some pool') :
    exec (step base64) ⟨loop, pool⟩ (flows.map .advance) = some ⟨loop, pool'⟩ := by
  induction flows generalizing pool with
  | nil =>
    cases h
    rfl
  | cons flow flows ih =>
    obtain ⟨u, hu, h⟩ := Option.bind_eq_some_iff.mp h
    exact Option.bind_eq_some_iff.mpr ⟨⟨loop, u⟩, by simp [step, hu], ih h⟩

/-- **A server may teach what it likes**: one flow to it is accepted, and its task learns the lessons. -/
theorem exists_lessons (base64 : Bytes → Str) (hl : net.loop = .waiting) {env : FlowEnv} {dest : SocketAddr}
    (hr : DnsRelayed env net.pool.shared dest) (lessons : List Lesson) :
    ∃ n net', exec (step base64) net
        (.accept (.udp env dest (lessonEvents lessons)) :: .spawn :: List.replicate n (.advance net.pool.spawned)) =
          some net' ∧
      ∀ l ∈ lessons, ∀ s ∈ l.stores, (net.pool.spawned, .store s) ∈ net'.pool.log := by
  obtain ⟨loop, pool⟩ := net
  cases hl
  -- the flow is counted and its task is spawned; then the task runs alone
  let started := (pool.perform SharedOp.apply pool.spawned (.count .udpFlows)).spawn
    (udpRoutine env dest (lessonEvents lessons))
  have htask : started.task pool.spawned = udpRoutine env dest (lessonEvents lessons) := Function.update_self ..
  obtain ⟨n, pool', hrun, hlog⟩ := Pool.exec_alone SharedOp.apply htask
  have hstarted : DnsRelayed env started.shared dest := hr.count .udpFlows
  rw [hstarted.alone lessons] at hlog
  have hsteps : exec (step base64) ⟨.waiting, started⟩ _ = some ⟨.waiting, pool'⟩ := exec_advance hrun
  rw [List.map_replicate] at hsteps
  refine ⟨n, ⟨.waiting, pool'⟩, hsteps, fun l hl s hs => ?_⟩
  rw [hlog]
  have hmem : s ∈ lessons.flatMap Lesson.stores := List.mem_flatMap.mpr ⟨l, hl, hs⟩
  exact List.mem_append_right _ (List.mem_map_of_mem (List.mem_map_of_mem hmem))

section Held

variable (hd : shared.dnsCache = .new DNS_CACHE_TTL) {actions : List Action}
  (hrun : exec (step base64) (init shared) actions = some net)

include hd hrun

/-- What is held is what the log says was stored. -/
theorem mem_entries_iff {ip : IpAddr} :
    ip ∈ net.pool.shared.dnsCache.entries ↔ ∃ flow s, (flow, .store s) ∈ net.pool.log ∧ s.ip = ip ∧ s.domain ≠ [] := by
  rw [(mirrors_exec hd hrun).mem_entries]
  constructor
  · rintro ⟨s, hs, h⟩
    obtain ⟨flow, he⟩ := mem_storesOf.mp hs
    exact ⟨flow, s, he, h⟩
  · rintro ⟨flow, s, he, h⟩
    exact ⟨s, mem_storesOf.mpr ⟨flow, he⟩, h⟩

/-- Once every store is too old, no name is found. -/
theorem lookup_eq_none {now : Nat} (hold : ∀ flow s, (flow, .store s) ∈ net.pool.log → s.time + DNS_CACHE_TTL ≤ now)
    (ip : IpAddr) : net.pool.shared.dnsCache.lookup now ip = none := by
  rw [dnsCache_lookup hd hrun, Option.eq_none_iff_forall_ne_some]
  intro name hname
  obtain ⟨flow, time, he, hlt⟩ := store_of_nameAt hname
  exact absurd (hold flow _ he) (Nat.not_le_of_lt hlt)

end Held

/-- **The cache is never emptied**, in every interleaving of the flows, as long as the application makes no call on it: it
holds exactly the addresses that a task stored with a name from a DNS server's answer, and it holds them for the rest of
the run, though none is found or counted once the stores are too old. As long as flows are accepted, a server on port 53
that one relayed flow goes to can have it hold the addresses of any datagrams. -/
theorem cache_is_never_emptied (base64 : Bytes → Str) {shared : Shared R} (hd : shared.dnsCache = .new DNS_CACHE_TTL)
    {actions : List Action} {net : Netstack R} (hrun : exec (step base64) (init shared) actions = some net) :
    (∀ ip, ip ∈ net.pool.shared.dnsCache.entries ↔ Taught (acceptedStreams actions) net.pool.log ip) ∧
      (∀ more net', exec (step base64) net more = some net' →
        ∀ ip ∈ net.pool.shared.dnsCache.entries, ip ∈ net'.pool.shared.dnsCache.entries) ∧
      (∀ now, (∀ flow s, (flow, .store s) ∈ net.pool.log → s.time + DNS_CACHE_TTL ≤ now) →
        net.pool.shared.dnsCache.len now = 0 ∧ ∀ ip, net.pool.shared.dnsCache.lookup now ip = none) ∧
      (net.loop = .waiting → ∀ env dest, DnsRelayed env net.pool.shared dest → ∀ lessons : List Lesson,
        ∃ more net', exec (step base64) net more = some net' ∧
          acceptedStreams more = [.udp env dest (lessonEvents lessons)] ∧
          ∀ l ∈ lessons, ∀ ip name, (ip, name) ∈ answersOf l.payload → name ≠ [] →
            ip ∈ net'.pool.shared.dnsCache.entries) := by
  refine ⟨fun ip => ?_, fun more net' hmore ip hip => ?_, fun now hold => ?_, fun hl env dest hr lessons => ?_⟩
  · rw [mem_entries_iff hd hrun]
    constructor
    · rintro ⟨flow, s, he, h⟩
      exact ⟨flow, s, he, (learned_exec hrun).pool.log _ he, h⟩
    · rintro ⟨flow, s, he, -, h⟩
      exact ⟨flow, s, he, h⟩
  · have hlog : net.pool.log <+: net'.pool.log :=
      exec_invariant (I := fun n => net.pool.log <+: n.pool.log) (fun _ _ _ h hs => h.trans (log_step hs))
        List.prefix_rfl hmore
    obtain ⟨flow, s, he, h⟩ := (mem_entries_iff hd hrun).mp hip
    exact (mem_entries_iff hd (exec_append hrun hmore)).mpr ⟨flow, s, hlog.subset he, h⟩
  · have hnone := lookup_eq_none hd hrun hold
    have hlen := DnsCache.len_eq net.pool.shared.dnsCache now
    simp only [hnone, Option.isSome_none, Bool.false_eq_true, Set.ofPred_false, Set.encard_empty] at hlen
    exact ⟨by exact_mod_cast hlen, hnone⟩
  · obtain ⟨n, net', hmore, hlog⟩ := exists_lessons base64 hl hr lessons
    refine ⟨_, net', hmore, ?_, fun l hl ip name hip hne => ?_⟩
    · simp [acceptedStreams, List.filterMap_replicate_of_none]
    · obtain ⟨time, hs⟩ := @exists_mem_stamp l.now l.delays _ _ _ hip
      exact (mem_entries_iff hd (exec_append hrun hmore)).mpr ⟨_, _, hlog l hl _ hs, rfl, hne⟩

/-- The flow to the resolver. -/
def sampleResolver : SocketAddr := ⟨.v4 (.new 192 0 2 53), 53⟩

/-- 300 seconds after the resolver's answer was learned, nothing is found or counted and its address is still held; and
the resolver may teach another address. -/
theorem cache_is_never_emptied_sample :
    ∃ set net, RuleSet.new backslashRegex intranetRules = .ok set ∧
      exec (step fun _ => []) (init { sampleShared set with dnsCache := .new DNS_CACHE_TTL }) sampleLessons = some net ∧
      .v4 (.new 192 0 2 7) ∈ net.pool.shared.dnsCache.entries ∧
      net.pool.shared.dnsCache.len (5 + DNS_CACHE_TTL) = 0 ∧
      net.pool.shared.dnsCache.lookup (5 + DNS_CACHE_TTL) (.v4 (.new 192 0 2 7)) = none ∧
      DnsRelayed sampleEnv net.pool.shared sampleResolver ∧
      ∃ more net', exec (step fun _ => []) net more = some net' ∧
        .v4 (.new 192 0 2 8) ∈ net'.pool.shared.dnsCache.entries := by
  obtain ⟨set, hs⟩ : ∃ set, RuleSet.new backslashRegex intranetRules = .ok set := ⟨_, rfl⟩
  have hsample : (exec (step fun _ => []) (init { sampleShared set with dnsCache := .new DNS_CACHE_TTL })
      sampleLessons).map (fun net => (net.pool.log, (step (fun _ => []) net .stop).isSome,
        decide net.pool.shared (factsOf sampleEnv net.pool.shared sampleResolver true))) =
      some ([(0, .count .udpFlows), (0, .store ⟨5, .v4 (.new 192 0 2 7), "a.b".toList⟩)], true, .ok .direct) := by
    cases hs
    decide +kernel
  obtain ⟨net, hrun, hnet⟩ := Option.map_eq_some_iff.mp hsample
  obtain ⟨hlog, hloop, hdecide⟩ : _ ∧ _ ∧ _ := by simpa only [Prod.mk.injEq] using hnet
  -- only a loop that waits can be stopped
  have hwaiting : net.loop = .waiting := by
    cases hl : net.loop with
    | waiting => rfl
    | _ => simp [step, hl] at hloop
  have hrelayed : DnsRelayed sampleEnv net.pool.shared sampleResolver := ⟨rfl, ⟨.direct, hdecide, by decide⟩, rfl⟩
  obtain ⟨hheld, -, hold, hteach⟩ := cache_is_never_emptied (fun _ => []) rfl hrun
  obtain ⟨more, net', hmore, -, hlearned⟩ := hteach hwaiting sampleEnv sampleResolver hrelayed
    [⟨sampleResponse.dropLast ++ [8], 9, []⟩]
  obtain ⟨hlen, hnone⟩ := hold (5 + DNS_CACHE_TTL) (by simp [hlog])
  have hlearns : Learns (acceptedStreams sampleLessons) 0 (.store ⟨5, .v4 (.new 192 0 2 7), "a.b".toList⟩) :=
    ⟨sampleEnv, sampleResolver, _, rfl, rfl, .server sampleResponse 5 [] none, by simp, by decide +kernel⟩
  refine ⟨set, net, hs, hrun, (hheld _).mpr ?_, hlen, hnone _, hrelayed, more, net', hmore, ?_⟩
  · exact ⟨0, _, by rw [hlog]; exact List.mem_cons_of_mem _ List.mem_cons_self, hlearns, rfl, by decide⟩
  · exact hlearned _ List.mem_cons_self (.v4 (.new 192 0 2 8)) "a.b".toList (by decide +kernel) (by decide)

end Netstack

end AceTun
