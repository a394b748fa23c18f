import AceTun.Dns.Cache
import AceTun.Dns.Sound

/-!
# What the cache remembers

A history is a list of calls on one cache, each at its time. `nameAt` is what the history alone says of an address: the
name it was last stored with, as long as the time-to-live of that store is not over. The cache answers every call so
(`Reflects.runCalls`), by an invariant that each call keeps (`Reflects.run`): an entry is the last store of its address,
and a last store without an entry is over. Purging removes only what is over, so no answer depends on it.
-/

namespace AceTun

open RustStd

/-! ## Histories -/

inductive CacheOp where
  | store (ip : IpAddr) (domain : Str)
  | snoopResponse (payload : Bytes) (delays : List Nat)
  | lookup (ip : IpAddr)
  | len
  | purgeExpired
  deriving DecidableEq

/-- A call, and the clock when it is made. -/
structure CacheCall where
  now : Nat
  op : CacheOp
  deriving DecidableEq

/-- What a call returns, if it returns something. -/
inductive CacheAnswer where
  | name (domain : Option Str)
  | count (n : Nat)
  deriving DecidableEq

def CacheCall.run (call : CacheCall) (cache : DnsCache) : Except Panic (DnsCache × List CacheAnswer) :=
  match call.op with
  | .store ip domain => .ok (cache.store call.now ip domain, [])
  | .snoopResponse payload delays => do
    let cache ← cache.snoopResponse call.now delays payload
    pure (cache, [])
  | .lookup ip => .ok (cache, [.name (cache.lookup call.now ip)])
  | .len => .ok (cache, [.count (cache.len call.now)])
  | .purgeExpired => .ok (cache.purgeExpired call.now, [])

/-- The calls in turn, with their answers. -/
def runCalls : DnsCache → List CacheCall → Except Panic (DnsCache × List CacheAnswer)
  | cache, [] => .ok (cache, [])
  | cache, call :: calls => do
    let (cache, answers) ← call.run cache
    let (cache, more) ← runCalls cache calls
    pure (cache, answers ++ more)

/-! ## What a history says -/

/-- What a call stores. -/
def CacheCall.stores (call : CacheCall) : List Stored :=
  match call.op with
  | .store ip domain => [⟨call.now, ip, domain⟩]
  | .snoopResponse payload delays => stamp call.now delays (answersOf payload)
  | _ => []

/-- The clock at the last of some stores that are made from a time on. -/
def endOf (now : Nat) (stores : List Stored) : Nat := (stores.getLast?.map Stored.time).getD now

/-- The clock does not run backwards: it is at `start` before the first call. -/
def Ordered : (start : Nat) → List CacheCall → Prop
  | _, [] => True
  | start, call :: calls => start ≤ call.now ∧ Ordered (endOf call.now call.stores) calls

/-- The clock at the end of the last call. -/
def lastTime : (start : Nat) → List CacheCall → Nat
  | start, [] => start
  | _, call :: calls => lastTime (endOf call.now call.stores) calls

/-- The most recent store of a name for an address; the empty name is no name. -/
def lastStored (stores : List Stored) (ip : IpAddr) : Option Stored :=
  stores.reverse.find? fun s => s.ip = ip ∧ s.domain ≠ []

section Law

variable (ttl : Nat)

/-- The name that an address has at a time. -/
def nameAt (stores : List Stored) (now : Nat) (ip : IpAddr) : Option Str :=
  ((lastStored stores ip).filter fun s => now < s.time + ttl).map Stored.domain

/-- How many addresses have a name at a time. -/
noncomputable def countAt (stores : List Stored) (now : Nat) : Nat := {ip | (nameAt ttl stores now ip).isSome}.ncard

/-- What a call is to answer after these stores. -/
noncomputable def CacheCall.answers (call : CacheCall) (stores : List Stored) : List CacheAnswer :=
  match call.op with
  | .lookup ip => [.name (nameAt ttl stores call.now ip)]
  | .len => [.count (countAt ttl stores call.now)]
  | _ => []

/-- What the calls are to answer in turn. -/
noncomputable def answersTo : List Stored → List CacheCall → List CacheAnswer
  | _, [] => []
  | stores, call :: calls => call.answers ttl stores ++ answersTo (stores ++ call.stores) calls

end Law

/-! ## The invariant -/

/-- The cache is what is left of the stores at a time: an entry is the last store of its address, and a last store
without one is over. -/
structure Reflects (ttl : Nat) (stores : List Stored) (now : Nat) (cache : DnsCache) : Prop where
  life : cache.ttl = ttl
  entry : ∀ ip e, cache.entries.lookup ip = some e →
    ∃ s, lastStored stores ip = some s ∧ e = ⟨s.domain, s.time + ttl⟩
  lapsed : ∀ ip s, lastStored stores ip = some s → cache.entries.lookup ip = none → s.time + ttl ≤ now

section Reflects

variable {ttl now : Nat} {stores : List Stored} {cache : DnsCache}

theorem Reflects.new (ttl now : Nat) : Reflects ttl [] now (.new ttl) where
  life := rfl
  entry ip e h := by cases h
  lapsed ip s h := by cases h

theorem Reflects.later (h : Reflects ttl stores now cache) {now' : Nat} (hle : now ≤ now') :
    Reflects ttl stores now' cache :=
  ⟨h.life, h.entry, fun ip s hs hn => Nat.le_trans (h.lapsed ip s hs hn) hle⟩

theorem lastStored_append (stores : List Stored) (s : Stored) (ip : IpAddr) :
    lastStored (stores ++ [s]) ip = if s.ip = ip ∧ s.domain ≠ [] then some s else lastStored stores ip := by
  rw [lastStored, List.reverse_append, List.reverse_singleton, List.singleton_append, List.find?_cons]
  by_cases h : s.ip = ip ∧ s.domain ≠ []
  · simp [h]
  · simp [h, lastStored]

/-- **A lookup finds what the history says.** -/
theorem Reflects.lookup (h : Reflects ttl stores now cache) (ip : IpAddr) :
    cache.lookup now ip = nameAt ttl stores now ip := by
  ext domain
  rw [DnsCache.lookup_eq_some, nameAt, Option.map_eq_some_iff]
  constructor
  · rintro ⟨expires, he, hlt⟩
    obtain ⟨s, hs, hentry⟩ := h.entry ip _ he
    cases hentry
    exact ⟨s, Option.filter_eq_some_iff.mpr ⟨hs, by simpa using hlt⟩, rfl⟩
  · rintro ⟨s, hs, rfl⟩
    obtain ⟨hs, hlt⟩ := Option.filter_eq_some_iff.mp hs
    have hlt : now < s.time + ttl := by simpa using hlt
    cases he : cache.entries.lookup ip with
    | none => exact absurd (h.lapsed ip s hs he) (by omega)
    | some e =>
      obtain ⟨s', hs', rfl⟩ := h.entry ip e he
      rw [hs] at hs'
      cases hs'
      exact ⟨_, rfl, hlt⟩

theorem Reflects.len (h : Reflects ttl stores now cache) : cache.len now = countAt ttl stores now := by
  have hset : {ip | (cache.lookup now ip).isSome} = {ip | (nameAt ttl stores now ip).isSome} := by
    ext ip
    rw [Set.mem_ofPred_eq, Set.mem_ofPred_eq, h.lookup]
  have hcard := congrArg ENat.toNat (cache.len_eq now)
  rw [hset, ENat.toNat_natCast] at hcard
  exact hcard

theorem Reflects.store (h : Reflects ttl stores now cache) (ip : IpAddr) (domain : Str) :
    Reflects ttl (stores ++ [⟨now, ip, domain⟩]) now (cache.store now ip domain) where
  life := by
    rw [← h.life]
    unfold DnsCache.store
    split <;> rfl
  entry ip' e he := by
    rw [DnsCache.entries_store] at he
    rw [lastStored_append]
    split at he
    · next hip =>
      cases he
      rw [if_pos ⟨hip.1.symm, hip.2⟩]
      exact ⟨_, rfl, by rw [h.life]⟩
    · next hip =>
      rw [if_neg fun hc => hip ⟨hc.1.symm, hc.2⟩]
      exact h.entry ip' e he
  lapsed ip' s hs hn := by
    rw [DnsCache.entries_store] at hn
    rw [lastStored_append] at hs
    split at hn
    · cases hn
    · next hip =>
      rw [if_neg fun hc => hip ⟨hc.1.symm, hc.2⟩] at hs
      exact h.lapsed ip' s hs hn

theorem endOf_cons (now : Nat) (s : Stored) (stores : List Stored) : endOf now (s :: stores) = endOf s.time stores := by
  cases h : stores.getLast? <;> simp [endOf, List.getLast?_cons, h]

/-- The stores of a response, in parse order. -/
theorem Reflects.storeAll (h : Reflects ttl stores now cache) (delays : List Nat) (pairs : List (IpAddr × Str)) :
    Reflects ttl (stores ++ stamp now delays pairs) (endOf now (stamp now delays pairs))
      (cache.storeAll (stamp now delays pairs)) := by
  induction pairs generalizing stores cache now delays with
  | nil => simpa [stamp, endOf, DnsCache.storeAll] using h
  | cons pair pairs ih =>
    have hstored := (h.later (Nat.le_add_right now (delays.headD 0))).store pair.1 pair.2
    rw [stamp, endOf_cons, List.append_cons]
    exact ih hstored delays.tail

/-- Purging removes only what is over. -/
theorem Reflects.purgeExpired (h : Reflects ttl stores now cache) :
    Reflects ttl stores now (cache.purgeExpired now) where
  life := h.life
  entry ip e he := by
    rw [DnsCache.purgeExpired, HashMap.lookup_retain, Option.filter_eq_some_iff] at he
    exact h.entry ip e he.1
  lapsed ip s hs hn := by
    rw [DnsCache.purgeExpired, HashMap.lookup_retain, Option.filter_eq_none_iff] at hn
    cases he : cache.entries.lookup ip with
    | none => exact h.lapsed ip s hs he
    | some e =>
      obtain ⟨s', hs', rfl⟩ := h.entry ip e he
      rw [hs] at hs'
      cases hs'
      simpa using hn _ he

/-- **One call** answers what the history says, and the cache goes on to reflect it. -/
theorem Reflects.run (h : Reflects ttl stores now cache) (call : CacheCall) (hle : now ≤ call.now) :
    ∃ cache', call.run cache = .ok (cache', call.answers ttl stores) ∧
      Reflects ttl (stores ++ call.stores) (endOf call.now call.stores) cache' := by
  have h := h.later hle
  obtain ⟨now', op⟩ := call
  cases op with
  | store ip domain => exact ⟨_, rfl, h.store ip domain⟩
  | snoopResponse payload delays =>
    obtain ⟨pairs, hp, -⟩ := parseDnsAnswers_returns payload
    refine ⟨cache.storeAll (stamp now' delays pairs), ?_, ?_⟩
    · simp only [CacheCall.run, DnsCache.snoopResponse, hp]
      rfl
    · simp only [CacheCall.stores, answersOf_eq hp]
      exact h.storeAll delays pairs
  | lookup ip =>
    refine ⟨cache, ?_, by simpa [CacheCall.stores, endOf] using h⟩
    simp only [CacheCall.run, CacheCall.answers, h.lookup]
  | len =>
    refine ⟨cache, ?_, by simpa [CacheCall.stores, endOf] using h⟩
    simp only [CacheCall.run, CacheCall.answers, h.len]
  | purgeExpired => exact ⟨_, rfl, by simpa [CacheCall.stores, endOf] using h.purgeExpired⟩

/-- **Every run** answers what the history says. -/
theorem Reflects.runCalls (h : Reflects ttl stores now cache) {calls : List CacheCall} (ho : Ordered now calls) :
    ∃ cache', AceTun.runCalls cache calls = .ok (cache', answersTo ttl stores calls) ∧
      Reflects ttl (stores ++ calls.flatMap CacheCall.stores) (lastTime now calls) cache' := by
  induction calls generalizing cache stores now with
  | nil => exact ⟨cache, rfl, by simpa [lastTime] using h⟩
  | cons call calls ih =>
    obtain ⟨cache₁, hrun, h₁⟩ := h.run call ho.1
    obtain ⟨cache₂, hrest, h₂⟩ := ih h₁ ho.2
    refine ⟨cache₂, ?_, by simpa [lastTime] using h₂⟩
    simp only [AceTun.runCalls, hrun, hrest, bind, Except.bind, pure, Except.pure, answersTo]

end Reflects

/-! ## Purging -/

def CacheCall.isPurge (call : CacheCall) : Bool := call.op = .purgeExpired

/-- What the calls are to answer does not depend on the purges among them. -/
theorem answersTo_filter (ttl : Nat) (stores : List Stored) (calls : List CacheCall) :
    answersTo ttl stores (calls.filter (! ·.isPurge)) = answersTo ttl stores calls := by
  induction calls generalizing stores with
  | nil => rfl
  | cons call calls ih =>
    rw [List.filter_cons]
    split
    · rw [answersTo, answersTo, ih]
    · next hp =>
      obtain ⟨now, op⟩ := call
      obtain rfl : op = .purgeExpired := by simpa [CacheCall.isPurge] using hp
      rw [ih, answersTo]
      simp [CacheCall.answers, CacheCall.stores]

/-- A name is stored, replaced, purged too early, and asked for. -/
def sampleCalls : List CacheCall :=
  [⟨0, .store (.v4 (.new 192 0 2 1)) "old".toList⟩, ⟨4, .store (.v4 (.new 192 0 2 1)) "new".toList⟩, ⟨5, .purgeExpired⟩,
    ⟨6, .lookup (.v4 (.new 192 0 2 1))⟩]

end AceTun
