import AceTun.Dns.Parse
import AceTun.RustStd.HashMap

/-!
# The cache of resolved names

An address is mapped to the name it was last resolved from, until the entry expires. `Instant` and `Duration` are
counted in nanoseconds. Each call reads the clock once (`now`), except that `snoop_response` reads it for every answer
that it stores (`stamp`).
-/

namespace AceTun

open RustStd

/-- `DNS_CACHE_TTL`: 300 seconds. -/
def DNS_CACHE_TTL : Nat := 300 * 1000000000

structure Entry where
  domain : Str
  expires : Nat
  deriving DecidableEq, Repr

/-- `DnsCache`: at most one entry for each address. -/
structure DnsCache where
  entries : AList fun _ : IpAddr => Entry
  ttl : Nat

/-- A name that is stored for an address, with the time that the store reads. -/
structure Stored where
  time : Nat
  ip : IpAddr
  domain : Str
  deriving DecidableEq, Repr

/-- The stores of some answers, in order. The clock goes on by a delay before each of them, and stands if none is left. -/
def stamp : (now : Nat) → (delays : List Nat) → List (IpAddr × Str) → List Stored
  | _, _, [] => []
  | now, delays, pair :: pairs =>
    ⟨now + delays.headD 0, pair.1, pair.2⟩ :: stamp (now + delays.headD 0) delays.tail pairs

/-- The pairs of a payload, in parse order. -/
def answersOf (payload : Bytes) : List (IpAddr × Str) :=
  match parseDnsAnswers payload with
  | .ok pairs => pairs
  | .error _ => []

theorem answersOf_eq {payload : Bytes} {pairs : List (IpAddr × Str)} (h : parseDnsAnswers payload = .ok pairs) :
    answersOf payload = pairs := by
  rw [answersOf, h]

/-- The stores are of the answers, at later times. -/
theorem mem_stamp {now : Nat} {delays : List Nat} {pairs : List (IpAddr × Str)} {s : Stored}
    (h : s ∈ stamp now delays pairs) : (s.ip, s.domain) ∈ pairs ∧ now ≤ s.time := by
  induction pairs generalizing now delays with
  | nil => cases h
  | cons pair pairs ih =>
    rcases List.mem_cons.mp h with rfl | h
    · exact ⟨List.mem_cons_self, Nat.le_add_right _ _⟩
    · obtain ⟨hmem, hle⟩ := ih h
      exact ⟨List.mem_cons_of_mem _ hmem, (Nat.le_add_right _ _).trans hle⟩

/-- Every answer is stored. -/
theorem exists_mem_stamp {now : Nat} {delays : List Nat} {pairs : List (IpAddr × Str)} {ip : IpAddr} {domain : Str}
    (h : (ip, domain) ∈ pairs) : ∃ time, ⟨time, ip, domain⟩ ∈ stamp now delays pairs := by
  induction pairs generalizing now delays with
  | nil => cases h
  | cons pair pairs ih =>
    rcases List.mem_cons.mp h with rfl | h
    · exact ⟨_, List.mem_cons_self⟩
    · obtain ⟨time, hmem⟩ := @ih (now + delays.headD 0) delays.tail h
      exact ⟨time, List.mem_cons_of_mem _ hmem⟩

namespace DnsCache

def new (ttl : Nat) : DnsCache := ⟨∅, ttl⟩

/-- Store or refresh a mapping; the empty name is not stored. -/
def store (cache : DnsCache) (now : Nat) (ip : IpAddr) (domain : Str) : DnsCache :=
  if domain.isEmpty then cache
  else { cache with entries := cache.entries.insert ip ⟨domain, now + cache.ttl⟩ }

/-- The name of an address, if it is present and not expired. -/
def lookup (cache : DnsCache) (now : Nat) (ip : IpAddr) : Option Str := do
  let entry ← cache.entries.lookup ip
  if entry.expires > now then some entry.domain else none

/-- Remove the expired entries. -/
def purgeExpired (cache : DnsCache) (now : Nat) : DnsCache :=
  { cache with entries := HashMap.retain (fun _ entry => entry.expires > now) cache.entries }

/-- The number of entries that are not expired. -/
def len (cache : DnsCache) (now : Nat) : Nat := HashMap.countValues (fun entry => entry.expires > now) cache.entries

/-- The stores one after the other. -/
def storeAll (cache : DnsCache) (stores : List Stored) : DnsCache :=
  stores.foldl (fun cache s => cache.store s.time s.ip s.domain) cache

/-- Store every answer of a response. -/
def snoopResponse (cache : DnsCache) (now : Nat) (delays : List Nat) (payload : Bytes) : Except Panic DnsCache := do
  let pairs ← parseDnsAnswers payload
  pure (cache.storeAll (stamp now delays pairs))

/-- What is stored replaces the entry of the address, unless it is the empty name. -/
theorem entries_store (cache : DnsCache) (now : Nat) (ip ip' : IpAddr) (domain : Str) :
    (cache.store now ip domain).entries.lookup ip' =
      if ip' = ip ∧ domain ≠ [] then some ⟨domain, now + cache.ttl⟩ else cache.entries.lookup ip' := by
  unfold store
  cases domain with
  | nil => simp
  | cons c cs =>
    by_cases hip : ip' = ip
    · subst hip
      simp [AList.lookup_insert]
    · simp [AList.lookup_insert_ne hip, hip]

theorem lookup_eq_some {cache : DnsCache} {now : Nat} {ip : IpAddr} {domain : Str} :
    cache.lookup now ip = some domain ↔ ∃ expires, cache.entries.lookup ip = some ⟨domain, expires⟩ ∧ now < expires := by
  unfold lookup
  cases cache.entries.lookup ip with
  | none => simp
  | some entry =>
    obtain ⟨domain', expires⟩ := entry
    simp only [Option.bind_eq_bind, Option.bind_some, gt_iff_lt, Option.ite_none_right_eq_some, Option.some.injEq,
      Entry.mk.injEq]
    constructor
    · rintro ⟨hlt, rfl⟩
      exact ⟨expires, ⟨rfl, rfl⟩, hlt⟩
    · rintro ⟨_, ⟨rfl, rfl⟩, hlt⟩
      exact ⟨hlt, rfl⟩

/-- **The length counts the addresses whose name would be found.** -/
theorem len_eq (cache : DnsCache) (now : Nat) : (cache.len now : ℕ∞) = {ip | (cache.lookup now ip).isSome}.encard := by
  rw [len, HashMap.countValues_eq]
  congr 1
  ext ip
  rw [Set.mem_ofPred_eq, Set.mem_ofPred_eq, Option.any_eq_true, Option.isSome_iff_exists]
  constructor
  · rintro ⟨⟨domain, expires⟩, he, hlt⟩
    exact ⟨domain, lookup_eq_some.mpr ⟨expires, he, by simpa using hlt⟩⟩
  · rintro ⟨domain, hl⟩
    obtain ⟨expires, he, hlt⟩ := lookup_eq_some.mp hl
    exact ⟨_, he, by simpa using hlt⟩

end DnsCache

end AceTun
