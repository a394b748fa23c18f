import AceTun.Memo
import AceTun.Transition

/-!
# Remembered functions called by several threads

A call reads the clock and looks for a fresh value under a lock. If there is none it looks the value up, in stages that
do not hold the lock from one to the next, and keeps what it found under the time it read first. The calls of several
threads interleave at all of these points, and each stage meets the world as it then is. What a stage saw of the world is
a `Sight`, which names the call and the stage; a stage that does not look leaves none.

`Lookup.Sound` is the rule for a lookup by itself: what it finds follows from what was seen, whatever the others do to the
memory that they share. It carries over to every interleaving (`Inv.exec`): an answer is what the call found, or what a
call with the same key found that read the clock less than the time to live before.
-/

namespace Memo

open RustStd Transition

/-- What a stage of a lookup leads to. -/
inductive Stage (S β : Type) where
  | more (s : S)
  | done (answer : Option β)
  deriving DecidableEq, Repr

/-- A lookup in stages. A stage sees a memory `μ` that all lookups share and, if it looks, the world `ω`. -/
structure Lookup (α β S μ ω : Type) where
  start : α → S
  next : ω → S → μ → Stage S β × μ
  looks : S → μ → Bool
  blind : ∀ s m, looks s m = false → ∀ w w', next w s m = next w' s m

/-- The world as a stage of a call saw it at a time. -/
structure Sight (S ω : Type) where
  call : Nat
  time : Nat
  stage : S
  world : ω

/-- What was seen, after a stage that meets this memory. -/
def Lookup.record {α β S μ ω : Type} (lookup : Lookup α β S μ ω) (m : μ) (e : Sight S ω) (seen : List (Sight S ω)) :
    List (Sight S ω) :=
  if lookup.looks e.stage m then seen ++ [e] else seen

/-- The stages in turn, all in one world; the fuel bounds their number. -/
def Lookup.run {α β S μ ω : Type} (lookup : Lookup α β S μ ω) (world : ω) : (fuel : Nat) → S → μ → Option (Option β × μ)
  | 0, _, _ => none
  | fuel + 1, s, m =>
    match lookup.next world s m with
    | (.more s, m) => lookup.run world fuel s m
    | (.done answer, m) => some (answer, m)

inductive Phase (S β : Type) where
  | checking
  | looking (s : S)
  | storing (b : β)
  | returned (answer : Option β)
  deriving DecidableEq, Repr

/-- A call: its argument, the time it read, and where it is. -/
structure Running (α β S : Type) where
  arg : α
  now : Nat
  phase : Phase S β

structure Threads (κ α β S μ ω : Type) where
  clock : Nat
  map : HashMap κ (β × Nat)
  memory : μ
  calls : List (Running α β S)
  /-- What the lookups saw of the world, oldest first. -/
  seen : List (Sight S ω)

inductive Move (α ω : Type) where
  /-- Time passes. -/
  | tick (n : Nat)
  | call (arg : α)
  | check (i : Nat)
  | look (i : Nat) (world : ω)
  | store (i : Nat)

namespace Threads

variable {κ α β S μ ω : Type} [DecidableEq κ]

def init (clock : Nat) (memory : μ) : Threads κ α β S μ ω := ⟨clock, ∅, memory, [], []⟩

/-- Call `i` goes on from a phase to the next. -/
def goOn (s : Threads κ α β S μ ω) (i : Nat) (c : Running α β S) (phase : Phase S β) : Threads κ α β S μ ω :=
  { s with calls := s.calls.set i { c with phase := phase } }

omit [DecidableEq κ] in
theorem getElem?_goOn {s : Threads κ α β S μ ω} {i : Nat} {c : Running α β S} (hi : s.calls[i]? = some c)
    (phase : Phase S β) : (s.goOn i c phase).calls[i]? = some { c with phase := phase } := by
  obtain ⟨hlt, -⟩ := List.getElem?_eq_some_iff.mp hi
  simp [goOn, hlt]

variable (key : α → κ) (ttl : Nat) (lookup : Lookup α β S μ ω)

/-- The phase after the first look into the map. -/
def afterCheck (s : Threads κ α β S μ ω) (c : Running α β S) : Phase S β :=
  match hit key ttl s.map ⟨c.arg, c.now⟩ with
  | some b => .returned (some b)
  | none => .looking (lookup.start c.arg)

/-- The phase after a stage of the lookup. -/
def afterStage : Stage S β → Phase S β
  | .more s => .looking s
  | .done (some b) => .storing b
  | .done none => .returned none

def step (s : Threads κ α β S μ ω) : Move α ω → Option (Threads κ α β S μ ω)
  | .tick n => some { s with clock := s.clock + n }
  | .call arg => some { s with calls := s.calls ++ [⟨arg, s.clock, .checking⟩] }
  | .check i =>
    match s.calls[i]? with
    | some ⟨arg, now, .checking⟩ => some (s.goOn i ⟨arg, now, .checking⟩ (s.afterCheck key ttl lookup ⟨arg, now, .checking⟩))
    | _ => none
  | .look i world =>
    match s.calls[i]? with
    | some ⟨arg, now, .looking stage⟩ =>
      let (stage', memory) := lookup.next world stage s.memory
      let seen := lookup.record s.memory ⟨i, s.clock, stage, world⟩ s.seen
      some ({ s with memory := memory, seen := seen }.goOn i ⟨arg, now, .looking stage⟩ (afterStage stage'))
    | _ => none
  | .store i =>
    match s.calls[i]? with
    | some ⟨arg, now, .storing b⟩ =>
      some ({ s with map := s.map.insert (key arg) (b, now) }.goOn i ⟨arg, now, .storing b⟩ (.returned (some b)))
    | _ => none

/-! ## A call that is not interrupted -/

variable {s : Threads κ α β S μ ω} {i now fuel : Nat} {a : α} {answer : Option β} {memory : μ}

theorem exists_check (hi : s.calls[i]? = some ⟨a, now, .checking⟩) :
    ∃ t, s.step key ttl lookup (.check i) = some t ∧
      t.calls[i]? = some ⟨a, now, s.afterCheck key ttl lookup ⟨a, now, .checking⟩⟩ ∧ t.memory = s.memory ∧ t.map = s.map :=
  ⟨_, by simp only [step, hi], getElem?_goOn hi _, rfl, rfl⟩

theorem exists_look (world : ω) {stage : S} (hi : s.calls[i]? = some ⟨a, now, .looking stage⟩) :
    ∃ t, s.step key ttl lookup (.look i world) = some t ∧
      t.calls[i]? = some ⟨a, now, afterStage (lookup.next world stage s.memory).1⟩ ∧
      t.memory = (lookup.next world stage s.memory).2 ∧ t.map = s.map := by
  have hcall : ({ s with memory := (lookup.next world stage s.memory).2,
                         seen := lookup.record s.memory ⟨i, s.clock, stage, world⟩ s.seen } :
      Threads κ α β S μ ω).calls[i]? = some ⟨a, now, .looking stage⟩ := hi
  exact ⟨_, by simp only [step, hi], getElem?_goOn hcall _, rfl, rfl⟩

theorem exists_store {b : β} (hi : s.calls[i]? = some ⟨a, now, .storing b⟩) :
    ∃ t, s.step key ttl lookup (.store i) = some t ∧ t.calls[i]? = some ⟨a, now, .returned (some b)⟩ ∧
      t.memory = s.memory ∧ t.map = s.map.insert (key a) (b, now) := by
  have hcall : ({ s with map := s.map.insert (key a) (b, now) } : Threads κ α β S μ ω).calls[i]? =
      some ⟨a, now, .storing b⟩ := hi
  exact ⟨_, by simp only [step, hi], getElem?_goOn hcall _, rfl, rfl⟩

theorem exists_exec_of_looking (world : ω) {stage : S} (hi : s.calls[i]? = some ⟨a, now, .looking stage⟩)
    (hrun : lookup.run world fuel stage s.memory = some (answer, memory)) :
    ∃ moves t, exec (step key ttl lookup) s moves = some t ∧ t.calls[i]? = some ⟨a, now, .returned answer⟩ ∧
      t.memory = memory ∧ t.map = answer.elim s.map fun b => s.map.insert (key a) (b, now) := by
  induction fuel generalizing s stage with
  | zero => cases hrun
  | succ fuel ih =>
    obtain ⟨u, hu, hcall, hmem, hmap⟩ := exists_look key ttl lookup world hi
    rw [Lookup.run] at hrun
    rcases hnext : lookup.next world stage s.memory with ⟨stage' | _ | b, memory'⟩ <;> rw [hnext] at hcall hmem hrun
    · obtain ⟨moves, t, ht, hcall, hmem', hmap'⟩ := ih hcall (hmem ▸ hrun)
      exact ⟨.look i world :: moves, t, Option.bind_eq_some_iff.mpr ⟨u, hu, ht⟩, hcall, hmem', hmap ▸ hmap'⟩
    · cases hrun
      exact ⟨[.look i world], u, Option.bind_eq_some_iff.mpr ⟨u, hu, rfl⟩, hcall, hmem, hmap⟩
    · cases hrun
      obtain ⟨t, ht, hcall', hmem', hmap'⟩ := exists_store key ttl lookup hcall
      refine ⟨[.look i world, .store i], t, ?_, hcall', hmem'.trans hmem, hmap ▸ hmap'⟩
      exact Option.bind_eq_some_iff.mpr ⟨u, hu, Option.bind_eq_some_iff.mpr ⟨t, ht, rfl⟩⟩

/-- **A call that is not interrupted** is a call of what one run of the lookup finds. -/
theorem exists_exec (world : ω) {f : α → Option β} (hi : s.calls[i]? = some ⟨a, now, .checking⟩)
    (hrun : lookup.run world fuel (lookup.start a) s.memory = some (f a, memory)) :
    ∃ moves t, exec (step key ttl lookup) s moves = some t ∧
      t.calls[i]? = some ⟨a, now, .returned (call key ttl f s.map ⟨a, now⟩).1⟩ ∧
      t.map = (call key ttl f s.map ⟨a, now⟩).2 ∧
      t.memory = (hit key ttl s.map ⟨a, now⟩).elim memory fun _ => s.memory := by
  obtain ⟨u, hu, hcall, hmem, hmap⟩ := exists_check key ttl lookup hi
  unfold afterCheck at hcall
  unfold call
  rcases hhit : hit key ttl s.map ⟨a, now⟩ with _ | b <;> simp only [hhit] at hcall ⊢
  · obtain ⟨moves, t, ht, hdone, hmem', hmap'⟩ := exists_exec_of_looking key ttl lookup world hcall (hmem ▸ hrun)
    refine ⟨.check i :: moves, t, Option.bind_eq_some_iff.mpr ⟨u, hu, ht⟩, ?_⟩
    rw [hmap] at hmap'
    cases hf : f a <;> rw [hf] at hdone hmap' <;> exact ⟨hdone, hmap', hmem'⟩
  · exact ⟨[.check i], u, Option.bind_eq_some_iff.mpr ⟨u, hu, rfl⟩, hcall, hmap, hmem⟩

end Threads

/-! ## The rule for a lookup -/

section Sound

variable {κ α β S μ ω : Type} [DecidableEq κ]

/-- What is known of the memory, of a lookup of `a` by a call that began at a time, and of what it found, given what was
seen so far. -/
structure Lookup.Sound (lookup : Lookup α β S μ ω) (known : List (Sight S ω) → μ → Prop)
    (made : List (Sight S ω) → Nat → α → Nat → S → Prop) (found : List (Sight S ω) → Nat → α → Nat → Option β → Prop) :
    Prop where
  made_mono : ∀ {seen seen' i a now s}, seen <+: seen' → made seen i a now s → made seen' i a now s
  found_mono : ∀ {seen seen' i a now answer}, seen <+: seen' → found seen i a now answer → found seen' i a now answer
  start : ∀ seen i a now, made seen i a now (lookup.start a)
  next : ∀ {seen a now s m} i clock world, now ≤ clock → known seen m → made seen i a now s →
    known (lookup.record m ⟨i, clock, s, world⟩ seen) (lookup.next world s m).2 ∧
      match (lookup.next world s m).1 with
      | .more s' => made (lookup.record m ⟨i, clock, s, world⟩ seen) i a now s'
      | .done answer => found (lookup.record m ⟨i, clock, s, world⟩ seen) i a now answer

theorem Lookup.prefix_record (lookup : Lookup α β S μ ω) (m : μ) (e : Sight S ω) (seen : List (Sight S ω)) :
    seen <+: lookup.record m e seen := by
  unfold Lookup.record
  split
  · exact List.prefix_append ..
  · exact List.prefix_rfl

namespace Threads

variable (key : α → κ) (ttl : Nat) (known : List (Sight S ω) → μ → Prop)
  (made : List (Sight S ω) → Nat → α → Nat → S → Prop) (found : List (Sight S ω) → Nat → α → Nat → Option β → Prop)

/-- What holds of call `i` in each phase. -/
def CallInv (seen : List (Sight S ω)) (i : Nat) (c : Running α β S) : Prop :=
  match c.phase with
  | .checking => True
  | .looking s => made seen i c.arg c.now s
  | .storing b => found seen i c.arg c.now (some b)
  | .returned (some b) => ∃ j a time, key a = key c.arg ∧ c.now - time < ttl ∧ found seen j a time (some b)
  | .returned none => found seen i c.arg c.now none

structure Inv (s : Threads κ α β S μ ω) : Prop where
  begun : ∀ c ∈ s.calls, c.now ≤ s.clock
  memory : known s.seen s.memory
  map : ∀ k b time, s.map.lookup k = some (b, time) → ∃ j a, key a = k ∧ found s.seen j a time (some b)
  call : ∀ i c, s.calls[i]? = some c → CallInv key ttl made found s.seen i c

variable {key ttl known made found} {lookup : Lookup α β S μ ω} {s t : Threads κ α β S μ ω} {m : Move α ω}

theorem inv_init (clock : Nat) {memory : μ} (h : known [] memory) :
    Inv key ttl known made found (init clock memory : Threads κ α β S μ ω) where
  begun := fun _ h => nomatch h
  memory := h
  map := fun _ _ _ h => nomatch h
  call := fun _ _ h => by cases h

omit [DecidableEq κ] in
theorem callInv_mono (hl : lookup.Sound known made found) {seen seen' : List (Sight S ω)} (hle : seen <+: seen') {i : Nat}
    {c : Running α β S} (h : CallInv key ttl made found seen i c) : CallInv key ttl made found seen' i c := by
  obtain ⟨arg, now, phase⟩ := c
  cases phase with
  | checking => trivial
  | looking s => exact hl.made_mono hle h
  | storing b => exact hl.found_mono hle h
  | returned answer =>
    cases answer with
    | none => exact hl.found_mono hle h
    | some b =>
      obtain ⟨j, a, time, hkey, hfresh, hf⟩ := h
      exact ⟨j, a, time, hkey, hfresh, hl.found_mono hle hf⟩

/-- A call that goes on as it should. -/
theorem Inv.goOn (h : Inv key ttl known made found s) {i : Nat} {c : Running α β S} {phase : Phase S β}
    (hi : s.calls[i]? = some c) (hc : CallInv key ttl made found s.seen i { c with phase := phase }) :
    Inv key ttl known made found (s.goOn i c phase) := by
  refine ⟨fun d hd => ?_, h.memory, h.map, fun j d hd => ?_⟩
  · rcases List.mem_or_eq_of_mem_set hd with hd | rfl
    · exact h.begun d hd
    · exact h.begun c (List.mem_of_getElem? hi)
  · by_cases hj : i = j
    · subst hj
      rw [getElem?_goOn hi] at hd
      cases hd
      exact hc
    · refine h.call j d ?_
      rwa [Threads.goOn, List.getElem?_set_ne hj] at hd

/-- **One move of any call** keeps what is known. -/
theorem Inv.step (hl : lookup.Sound known made found) (httl : 0 < ttl) (h : Inv key ttl known made found s)
    (hs : s.step key ttl lookup m = some t) : Inv key ttl known made found t := by
  cases m with
  | tick n =>
    cases hs
    exact ⟨fun c hc => Nat.le_add_right_of_le (h.begun c hc), h.memory, h.map, h.call⟩
  | call arg =>
    cases hs
    refine ⟨fun c hc => ?_, h.memory, h.map, fun i c hc => ?_⟩
    · rcases List.mem_append.mp hc with hc | hc
      · exact h.begun c hc
      · rw [List.mem_singleton.mp hc]
    · rw [List.getElem?_append] at hc
      split at hc
      · exact h.call i c hc
      · rw [List.mem_singleton.mp (List.mem_of_getElem? hc)]
        trivial
  | check i =>
    simp only [Threads.step] at hs
    split at hs
    · rename_i arg now hi
      cases hs
      refine h.goOn hi ?_
      unfold afterCheck
      cases hh : hit key ttl s.map ⟨arg, now⟩ with
      | none => exact hl.start ..
      | some b =>
        -- what is kept was found by a call with this key
        unfold hit at hh
        split at hh
        · rename_i b' time hlookup
          split at hh
          · cases hh
            obtain ⟨j, a, hkey, hf⟩ := h.map _ _ _ hlookup
            exact ⟨j, a, time, hkey, by assumption, hf⟩
          · cases hh
        · cases hh
    · cases hs
  | look i world =>
    simp only [Threads.step] at hs
    split at hs
    · rename_i arg now stage hi
      cases hs
      obtain ⟨hknown, hnext⟩ :=
        hl.next i s.clock world (h.begun _ (List.mem_of_getElem? hi)) h.memory (h.call i _ hi)
      have hs' : Inv key ttl known made found
          { s with memory := (lookup.next world stage s.memory).2,
                   seen := lookup.record s.memory ⟨i, s.clock, stage, world⟩ s.seen } := by
        refine ⟨h.begun, hknown, fun k b time hlookup => ?_, fun j c hc => ?_⟩
        · obtain ⟨j, a, hkey, hf⟩ := h.map k b time hlookup
          exact ⟨j, a, hkey, hl.found_mono (lookup.prefix_record ..) hf⟩
        · exact callInv_mono hl (lookup.prefix_record ..) (h.call j c hc)
      refine hs'.goOn hi ?_
      dsimp only at hnext
      rcases hstage : (lookup.next world stage s.memory).1 with stage' | _ | b
      · rw [hstage] at hnext
        exact hnext
      · rw [hstage] at hnext
        exact hnext
      · rw [hstage] at hnext
        exact hnext
    · cases hs
  | store i =>
    simp only [Threads.step] at hs
    split at hs
    · rename_i arg now b hi
      cases hs
      have hf : found s.seen i arg now (some b) := h.call i _ hi
      have hs' : Inv key ttl known made found { s with map := s.map.insert (key arg) (b, now) } := by
        refine ⟨h.begun, h.memory, fun k b' time hlookup => ?_, h.call⟩
        by_cases hk : k = key arg
        · subst hk
          rw [AList.lookup_insert] at hlookup
          cases hlookup
          exact ⟨i, arg, rfl, hf⟩
        · rw [AList.lookup_insert_ne hk] at hlookup
          exact h.map k b' time hlookup
      exact hs'.goOn hi ⟨i, arg, now, rfl, by simpa using httl, hf⟩
    · cases hs

/-- **Every interleaving** keeps what is known. -/
theorem Inv.exec (hl : lookup.Sound known made found) (httl : 0 < ttl) {clock : Nat} {memory : μ}
    (hknown : known [] memory) {moves : List (Move α ω)}
    (h : exec (Threads.step key ttl lookup) (init clock memory) moves = some s) : Inv key ttl known made found s :=
  exec_invariant (fun _ _ _ hi hs => hi.step hl httl hs) (inv_init clock hknown) h

end Threads

end Sound

end Memo
