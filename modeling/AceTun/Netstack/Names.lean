import AceTun.Dns.History
import AceTun.Netstack.Accounting

/-!
# Where names come from

The tasks of all flows share one cache of names. Whatever the order of their steps, the cache answers as the log of the
stores says (`dnsCache_lookup`): an address has the name that was last stored for it, until the store is too old. And
every store is of an answer in a datagram that a server sent on a UDP flow to port 53, and is made by the task of that
flow (`Learned.step`). `TunRedirect::dns_cache` gives the cache to the application as well; the runs here have no call that
an application makes on it.
-/

namespace AceTun

open RustStd Tasks Transition

variable {R : RegexCrate}

/-! ## What the log says -/

/-- The names that an operation stores. -/
def SharedOp.stores : SharedOp → List Stored
  | .count _ => []
  | .store s => [s]

/-- The names that were stored, oldest first. -/
def storesOf (log : List (Nat × SharedOp)) : List Stored := log.flatMap fun e => e.2.stores

theorem mem_storesOf {log : List (Nat × SharedOp)} {s : Stored} :
    s ∈ storesOf log ↔ ∃ flow, (flow, .store s) ∈ log := by
  constructor
  · intro h
    obtain ⟨⟨flow, op⟩, he, hs⟩ := List.mem_flatMap.mp h
    cases op with
    | count c => cases hs
    | store s' =>
      rw [List.mem_singleton.mp hs]
      exact ⟨flow, he⟩
  · rintro ⟨flow, he⟩
    exact List.mem_flatMap.mpr ⟨_, he, List.mem_singleton_self s⟩

/-- The cache has an entry for each last store, and no other. -/
structure Mirrors (ttl : Nat) (stores : List Stored) (cache : DnsCache) : Prop where
  life : cache.ttl = ttl
  entries : ∀ ip, cache.entries.lookup ip = (lastStored stores ip).map fun s => ⟨s.domain, s.time + ttl⟩

namespace Mirrors

variable {ttl : Nat} {stores : List Stored} {cache : DnsCache}

theorem new (ttl : Nat) : Mirrors ttl [] (.new ttl) := ⟨rfl, fun _ => rfl⟩

theorem store (h : Mirrors ttl stores cache) (now : Nat) (ip : IpAddr) (domain : Str) :
    Mirrors ttl (stores ++ [⟨now, ip, domain⟩]) (cache.store now ip domain) where
  life := by
    rw [← h.life]
    unfold DnsCache.store
    split <;> rfl
  entries ip' := by
    rw [DnsCache.entries_store, lastStored_append, h.life]
    by_cases hip : ip = ip' ∧ domain ≠ []
    · rw [if_pos ⟨hip.1.symm, hip.2⟩, if_pos hip]
      rfl
    · rw [if_neg fun hc => hip ⟨hc.1.symm, hc.2⟩, if_neg hip]
      exact h.entries ip'

/-- Nothing is ever removed, so the entries tell the last store of every address. -/
theorem reflects (h : Mirrors ttl stores cache) (now : Nat) : Reflects ttl stores now cache where
  life := h.life
  entry ip e he := by
    rw [h.entries, Option.map_eq_some_iff] at he
    obtain ⟨s, hs, rfl⟩ := he
    exact ⟨s, hs, rfl⟩
  lapsed ip s hs hn := by
    rw [h.entries, hs] at hn
    cases hn

end Mirrors

theorem SharedOp.apply_mirrors {ttl : Nat} {stores : List Stored} {shared : Shared R} (op : SharedOp)
    (h : Mirrors ttl stores shared.dnsCache) : Mirrors ttl (stores ++ op.stores) (op.apply shared).dnsCache := by
  cases op with
  | count c =>
    rw [SharedOp.stores, List.append_nil]
    exact h
  | store s => exact h.store s.time s.ip s.domain

/-- The cache after a log. -/
theorem replay_mirrors {ttl : Nat} (log : List (Nat × SharedOp)) {stores : List Stored} {shared : Shared R}
    (h : Mirrors ttl stores shared.dnsCache) :
    Mirrors ttl (stores ++ storesOf log) (log.foldl (fun s e => e.2.apply s) shared).dnsCache := by
  induction log generalizing stores shared with
  | nil => simpa [storesOf] using h
  | cons e log ih => simpa [storesOf] using ih (e.2.apply_mirrors h)

/-! ## Who learns -/

/-- The flows that were accepted, oldest first: flow `i` is the entry `i`. -/
def acceptedStreams (actions : List Netstack.Action) : List IpStackStream :=
  actions.filterMap fun
    | .accept (.tcp env dest) => some (.tcp env dest)
    | .accept (.udp env dest events) => some (.udp env dest events)
    | _ => none

/-- What an event of a flow to a DNS server stores. -/
def UdpEvent.stores : UdpEvent → List Stored
  | .server datagram now delays _ => stamp now delays (answersOf datagram)
  | _ => []

/-- A store is of an answer in a datagram of the server, and later. -/
theorem UdpEvent.mem_stores {e : UdpEvent} {s : Stored} (h : s ∈ e.stores) :
    ∃ payload now delays failed, e = .server payload now delays failed ∧ (s.ip, s.domain) ∈ answersOf payload ∧
      now ≤ s.time := by
  cases e with
  | server payload now delays failed => exact ⟨payload, now, delays, failed, rfl, mem_stamp h⟩
  | _ => cases h

/-- What the task of a flow may do: it stores only what a server on port 53 sent it. -/
def Learns (streams : List IpStackStream) (flow : Nat) : SharedOp → Prop
  | .count _ => True
  | .store s => ∃ env dest events, streams[flow]? = some (.udp env dest events) ∧ dest.port = 53 ∧
      ∃ e ∈ events, s ∈ e.stores

theorem Learns.append {streams : List IpStackStream} {flow : Nat} {op : SharedOp} (more : List IpStackStream)
    (h : Learns streams flow op) : Learns (streams ++ more) flow op := by
  cases op with
  | count c => trivial
  | store s =>
    obtain ⟨env, dest, events, hs, h⟩ := h
    obtain ⟨hlt, -⟩ := List.getElem?_eq_some_iff.mp hs
    exact ⟨env, dest, events, by rw [List.getElem?_append_left hlt, hs], h⟩

section Routines

variable {good : SharedOp → Prop}

theorem storeRoutine_only {stores : List Stored} (h : ∀ s ∈ stores, good (.store s)) {rest : FlowRoutine R}
    (hrest : rest.Only good) : (storeRoutine stores rest).Only good := by
  induction stores with
  | nil => exact hrest
  | cons s stores ih => exact ⟨h s List.mem_cons_self, ih fun s' hs' => h s' (List.mem_cons_of_mem _ hs')⟩

variable (hc : ∀ c, good (.count c))

include hc

theorem carryOutTcp_only (base64 : Bytes → Str) (env : FlowEnv) (shared : Shared R) (facts : FlowFacts)
    (decision : Decision) : (carryOutTcpRoutine base64 env shared facts decision).Only good := by
  have hfail : (failClosedRoutine : FlowRoutine R).Only good := ⟨hc _, hc _, trivial⟩
  cases decision with
  | block => exact ⟨hc _, trivial⟩
  | direct => trivial
  | proxy id =>
    rw [carryOutTcpRoutine]
    cases shared.findProxyConfig id with
    | none => exact hfail
    | some cfg =>
      simp only [Routine.Only]
      cases proxyOutcome base64 env cfg (targetFor cfg facts.domain facts.dest) with
      | ok stream => trivial
      | err e => exact hfail
      | pending => trivial
      | panic => trivial

theorem tcpRoutine_only (base64 : Bytes → Str) (env : FlowEnv) (dest : SocketAddr) :
    (tcpRoutine base64 env dest : FlowRoutine R).Only good := by
  intro shared
  beta_reduce
  cases decide shared (factsOf env shared dest false) with
  | error p => trivial
  | ok decision => exact carryOutTcp_only hc ..

theorem relayRoutine_only (isDns : Bool) : ∀ events : List UdpEvent,
    (isDns = true → ∀ e ∈ events, ∀ s ∈ e.stores, good (.store s)) →
    (relayRoutine isDns events : FlowRoutine R).Only good
  | [], _ => trivial
  | .idle :: _, _ => trivial
  | .clientClosed :: _, _ => trivial
  | .serverFailed :: _, _ => trivial
  | .client _ none :: events, h => relayRoutine_only isDns events fun hd e he => h hd e (List.mem_cons_of_mem _ he)
  | .client _ (some _) :: events, h =>
    ⟨hc _, relayRoutine_only isDns events fun hd e he => h hd e (List.mem_cons_of_mem _ he)⟩
  | .server datagram now delays failed :: events, h => by
    have hrest := relayRoutine_only isDns events fun hd e he => h hd e (List.mem_cons_of_mem _ he)
    have hfailed : (Routine.yield .done : FlowRoutine R).Only good := trivial
    cases isDns with
    | false =>
      cases failed with
      | some e => exact hfailed
      | none => exact hrest
    | true =>
      have hstores : ∀ s ∈ stamp now delays (answersOf datagram), good (.store s) := h rfl _ List.mem_cons_self
      cases failed with
      | some e => exact storeRoutine_only hstores hfailed
      | none => exact storeRoutine_only hstores hrest

theorem udpRoutine_only (env : FlowEnv) (dest : SocketAddr) (events : List UdpEvent)
    (h : dest.port = 53 → ∀ e ∈ events, ∀ s ∈ e.stores, good (.store s)) :
    (udpRoutine env dest events : FlowRoutine R).Only good := by
  intro shared
  beta_reduce
  cases decide shared (factsOf env shared dest true) with
  | error p => trivial
  | ok decision =>
    have hrelay : (carryOutUdpRoutine env shared (factsOf env shared dest true) events .direct).Only good := by
      simp only [carryOutUdpRoutine, Routine.Only]
      cases dialOutcome env (Flow.result env.connect) with
      | ok _ => exact relayRoutine_only hc _ events fun hd => h (by simpa [factsOf] using hd)
      | _ => trivial
    cases decision with
    | block => exact ⟨hc _, trivial⟩
    | direct => exact hrelay
    | proxy id => exact hrelay

end Routines

namespace Netstack

variable {base64 : Bytes → Str} {shared : Shared R} {net net' : Netstack R} {streams : List IpStackStream}

/-- All that was learned, and all that tasks may still learn, comes from the accepted flows. -/
structure Learned (streams : List IpStackStream) (net : Netstack R) : Prop where
  accepted : net.accepted = streams.length
  pool : net.pool.Only (Learns streams)
  spawning : ∀ task, net.loop = .spawning task → task.Only (Learns streams net.pool.spawned)

theorem learned_init (shared : Shared R) : Learned [] (init shared) :=
  ⟨rfl, ⟨fun _ => trivial, fun _ h => by cases h⟩, fun _ h => by cases h⟩

/-- The task of an accepted flow. -/
theorem handler_only {stream : IpStackStream} {c : Counter} {task : FlowRoutine R} {i : Nat}
    (h : handler base64 stream = some (c, task)) (hi : streams[i]? = some stream) : task.Only (Learns streams i) := by
  cases stream with
  | tcp env dest =>
    cases h
    exact tcpRoutine_only (fun _ => trivial) base64 env dest
  | udp env dest events =>
    cases h
    exact udpRoutine_only (fun _ => trivial) env dest events fun hp e he s hs =>
      ⟨env, dest, events, hi, hp, e, he, hs⟩
  | unknownTransport => cases h
  | unknownNetwork => cases h

/-- The flow that an action accepts. -/
theorem acceptedStreams_accept {stream : IpStackStream} {ct : Counter × FlowRoutine R}
    (h : handler base64 stream = some ct) : acceptedStreams [.accept stream] = [stream] := by
  cases stream with
  | tcp env dest => rfl
  | udp env dest events => rfl
  | unknownTransport => cases h
  | unknownNetwork => cases h

theorem acceptedStreams_ignored {stream : IpStackStream} (h : handler (R := R) base64 stream = none) :
    acceptedStreams [.accept stream] = [] := by
  cases stream with
  | tcp env dest => cases h
  | udp env dest events => cases h
  | unknownTransport => rfl
  | unknownNetwork => rfl

/-- Tasks that go on spawn none. -/
theorem Learned.setPool {loop : AcceptLoop R} {pool pool' : Pool (Shared R) SharedOp} (h : Learned streams ⟨loop, pool⟩)
    (honly : pool'.Only (Learns streams)) (hspawned : pool'.spawned = pool.spawned) :
    Learned streams ⟨loop, pool'⟩ where
  accepted := by
    rw [← h.accepted]
    simp only [Netstack.accepted, hspawned]
  pool := honly
  spawning task ht := by
    change task.Only (Learns streams pool'.spawned)
    rw [hspawned]
    exact h.spawning task ht

/-- **The step lemma.** -/
theorem Learned.step {a : Action} (h : Learned streams net) (hs : Netstack.step base64 net a = some net') :
    Learned (streams ++ acceptedStreams [a]) net' := by
  obtain ⟨loop, pool⟩ := net
  cases a with
  | run =>
    cases loop with
    | stopped =>
      cases hs
      rw [show acceptedStreams [.run] = [] from rfl, List.append_nil]
      exact ⟨h.accepted, h.pool, fun _ ht => by cases ht⟩
    | _ => cases hs
  | accept stream =>
    cases loop with
    | waiting =>
      cases hh : handler (R := R) base64 stream with
      | none =>
        simp only [Netstack.step, hh, Option.some.injEq] at hs
        rw [acceptedStreams_ignored hh, List.append_nil]
        exact hs ▸ h
      | some ct =>
        obtain ⟨c, task⟩ := ct
        simp only [Netstack.step, hh, Option.some.injEq] at hs
        rw [acceptedStreams_accept hh]
        subst hs
        -- the new flow has the number of the next task
        have hlen : pool.spawned = streams.length := h.accepted
        refine ⟨?_, ?_, fun t ht => ?_⟩
        · change pool.spawned + 1 = _
          rw [hlen, List.length_append, List.length_singleton]
        · exact (h.pool.mono fun i op => Learns.append [stream]).perform trivial
        · cases ht
          refine handler_only hh ?_
          change (streams ++ [stream])[pool.spawned]? = some stream
          rw [hlen, List.getElem?_concat_length]
    | _ => cases hs
  | spawn =>
    cases loop with
    | spawning task =>
      cases hs
      rw [show acceptedStreams [.spawn] = [] from rfl, List.append_nil]
      have hpool : (pool.setTask pool.spawned task).Only (Learns streams) := h.pool.setTask (h.spawning task rfl)
      exact ⟨h.accepted, ⟨hpool.task, hpool.log⟩, fun _ ht => by cases ht⟩
    | _ => cases hs
  | stop =>
    cases loop with
    | waiting =>
      cases hs
      rw [show acceptedStreams [.stop] = [] from rfl, List.append_nil]
      exact ⟨h.accepted, h.pool, fun _ ht => by cases ht⟩
    | _ => cases hs
  | advance i =>
    obtain ⟨pool', ha, rfl⟩ := Option.map_eq_some_iff.mp hs
    rw [show acceptedStreams [.advance i] = [] from rfl, List.append_nil]
    exact h.setPool (h.pool.advance ha) (Pool.onlyTask_advance ha).2.spawned
  | drop i =>
    obtain ⟨pool', hd, rfl⟩ := Option.map_eq_some_iff.mp hs
    rw [show acceptedStreams [.drop i] = [] from rfl, List.append_nil]
    exact h.setPool (h.pool.drop hd) (Pool.onlyTask_drop hd).2.spawned

theorem Learned.exec {actions : List Action} (h : Learned streams net)
    (hs : Transition.exec (Netstack.step base64) net actions = some net') :
    Learned (streams ++ acceptedStreams actions) net' := by
  induction actions generalizing net streams with
  | nil =>
    cases hs
    simpa [acceptedStreams] using h
  | cons a actions ih =>
    obtain ⟨u, hu, hs⟩ := Option.bind_eq_some_iff.mp hs
    have hcons : acceptedStreams (a :: actions) = acceptedStreams [a] ++ acceptedStreams actions :=
      List.filterMap_append (l := [a]) ..
    rw [hcons, ← List.append_assoc]
    exact ih (h.step hu) hs

theorem learned_exec {actions : List Action} (hrun : Transition.exec (step base64) (init shared) actions = some net) :
    Learned (acceptedStreams actions) net :=
  (learned_init shared).exec hrun

/-- The cache is what the log says. -/
theorem mirrors_exec (hd : shared.dnsCache = .new DNS_CACHE_TTL) {actions : List Action}
    (hrun : exec (step base64) (init shared) actions = some net) :
    Mirrors DNS_CACHE_TTL (storesOf net.pool.log) net.pool.shared.dnsCache := by
  have h : Inv shared net := exec_invariant (fun _ _ _ h hs => h.step hs) (inv_init shared) hrun
  have hmirrors : Mirrors DNS_CACHE_TTL [] shared.dnsCache := by
    rw [hd]
    exact .new DNS_CACHE_TTL
  have hreplay := replay_mirrors net.pool.log hmirrors
  rwa [← h.pool.shared_eq, List.nil_append] at hreplay

/-- The cache answers as the log says. -/
theorem dnsCache_lookup (hd : shared.dnsCache = .new DNS_CACHE_TTL) {actions : List Action}
    (hrun : exec (step base64) (init shared) actions = some net) (now : Nat) (ip : IpAddr) :
    net.pool.shared.dnsCache.lookup now ip = nameAt DNS_CACHE_TTL (storesOf net.pool.log) now ip :=
  ((mirrors_exec hd hrun).reflects now).lookup ip

/-- A name that the log gives an address was stored, and that is not too old. -/
theorem store_of_nameAt {ttl : Nat} {log : List (Nat × SharedOp)} {now : Nat} {ip : IpAddr} {name : Str}
    (h : nameAt ttl (storesOf log) now ip = some name) :
    ∃ flow time, (flow, .store ⟨time, ip, name⟩) ∈ log ∧ now < time + ttl := by
  obtain ⟨s, hs, rfl⟩ := Option.map_eq_some_iff.mp h
  obtain ⟨hlast, hlt⟩ := Option.filter_eq_some_iff.mp hs
  unfold lastStored at hlast
  have hmem : s ∈ storesOf log := List.mem_reverse.mp (List.mem_of_find?_eq_some hlast)
  have hip : s.ip = ip := by
    have := List.find?_some hlast
    simp only [decide_eq_true_eq] at this
    exact this.1
  obtain ⟨flow, he⟩ := mem_storesOf.mp hmem
  exact ⟨flow, s.time, hip ▸ he, by simpa using hlt⟩

/-- **Every name comes from a DNS server**, in every interleaving of the flows, as long as the application makes no call on
the cache: the cache gives an address the name that was last stored for it, until the store is 300 seconds old; and a name
that a flow is decided by or named to a proxy by was in a datagram that a server sent on an accepted UDP flow to port 53,
and the task of that flow stored it after that and less than 300 seconds before. -/
theorem names_come_from_dns_flows (base64 : Bytes → Str) {shared : Shared R}
    (hd : shared.dnsCache = .new DNS_CACHE_TTL) {actions : List Action} {net : Netstack R}
    (hrun : exec (step base64) (init shared) actions = some net) :
    (∀ now ip, net.pool.shared.dnsCache.lookup now ip = nameAt DNS_CACHE_TTL (storesOf net.pool.log) now ip) ∧
      ∀ (env : FlowEnv) (dest : SocketAddr) (isUdp : Bool) (name : Str),
        (factsOf env net.pool.shared dest isUdp).domain = some name →
          ∃ flow senv server events payload now delays failed time,
            (acceptedStreams actions)[flow]? = some (.udp senv server events) ∧ server.port = 53 ∧
              .server payload now delays failed ∈ events ∧ (dest.ip, name) ∈ answersOf payload ∧ now ≤ time ∧
              (flow, .store ⟨time, dest.ip, name⟩) ∈ net.pool.log ∧ env.now < time + DNS_CACHE_TTL := by
  refine ⟨dnsCache_lookup hd hrun, fun env dest isUdp name hname => ?_⟩
  have hlookup : net.pool.shared.dnsCache.lookup env.now dest.ip = some name := by
    simp only [factsOf, domainFor] at hname
    split at hname
    · exact hname
    · cases hname
  rw [dnsCache_lookup hd hrun] at hlookup
  obtain ⟨flow, time, hlog, hlt⟩ := store_of_nameAt hlookup
  obtain ⟨senv, server, events, hflow, hport, e, he, hstore⟩ := (learned_exec hrun).pool.log _ hlog
  obtain ⟨payload, now, delays, failed, rfl, hpair, hle⟩ := UdpEvent.mem_stores hstore
  exact ⟨flow, senv, server, events, payload, now, delays, failed, time, hflow, hport, he, hpair, hle, hlog, hlt⟩

/-- A response to a question for `a.b`, with one address. -/
def sampleResponse : Bytes :=
  [0, 1, 0x81, 0x80, 0, 1, 0, 1, 0, 0, 0, 0] ++ [1, 97, 1, 98, 0, 0, 1, 0, 1] ++
    [0xC0, 12, 0, 1, 0, 1, 0, 0, 0, 60, 0, 4, 192, 0, 2, 7]

/-- A resolver's flow is relayed, and its answer is learned. -/
def sampleLessons : List Action :=
  [.run, .accept (.udp sampleEnv ⟨.v4 (.new 192 0 2 53), 53⟩ [.client [1] none, .server sampleResponse 5 [] none]), .spawn] ++
    List.replicate 7 (.advance 0)

theorem names_come_from_dns_flows_sample :
    ∃ set net, RuleSet.new backslashRegex intranetRules = .ok set ∧
      exec (step fun _ => []) (init { sampleShared set with dnsCache := .new DNS_CACHE_TTL }) sampleLessons = some net ∧
      net.pool.shared.dnsCache.lookup 6 (.v4 (.new 192 0 2 7)) = some "a.b".toList ∧
      nameAt DNS_CACHE_TTL (storesOf net.pool.log) 6 (.v4 (.new 192 0 2 7)) = some "a.b".toList := by
  obtain ⟨set, hs⟩ : ∃ set, RuleSet.new backslashRegex intranetRules = .ok set := ⟨_, rfl⟩
  have hname : (exec (step fun _ => []) (init { sampleShared set with dnsCache := .new DNS_CACHE_TTL })
      sampleLessons).map (fun net => net.pool.shared.dnsCache.lookup 6 (.v4 (.new 192 0 2 7))) =
      some (some "a.b".toList) := by
    cases hs
    decide +kernel
  obtain ⟨net, hrun, hlookup⟩ := Option.map_eq_some_iff.mp hname
  exact ⟨set, net, hs, hrun, hlookup, ((names_come_from_dns_flows _ rfl hrun).1 ..).symm.trans hlookup⟩

end Netstack

end AceTun
