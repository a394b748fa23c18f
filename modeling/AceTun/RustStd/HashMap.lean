import Mathlib.Data.List.AList
import Mathlib.Data.Set.Card

/-!
# Hash maps

A `HashMap` is an association list with at most one value for each key. `retain` keeps the entries that meet a
condition, which is seen in what is found (`lookup_retain`), and counting values counts keys (`countValues_eq`). A map
built with `orInsert` finds for each key the first value that came for it (`lookup_collect`).
-/

namespace RustStd

variable {α β : Type} [DecidableEq α]

abbrev HashMap (α β : Type) : Type := AList fun _ : α => β

namespace HashMap

/-- `HashMap::retain`. -/
def retain (p : α → β → Bool) (m : HashMap α β) : HashMap α β :=
  ⟨m.entries.filter fun e => p e.1 e.2, m.nodupKeys.sublist List.filter_sublist⟩

/-- `m.values().filter(p).count()`. -/
def countValues (p : β → Bool) (m : HashMap α β) : Nat := (m.entries.filter fun e => p e.2).length

theorem lookup_retain (p : α → β → Bool) (m : HashMap α β) (a : α) :
    (retain p m).lookup a = (m.lookup a).filter (p a) := by
  ext b
  rw [← Option.mem_def, AList.mem_lookup_iff, retain, List.mem_filter, ← AList.mem_lookup_iff, Option.mem_def,
    Option.filter_eq_some_iff]

/-- The values that meet a condition are as many as the keys that are mapped to one. -/
theorem countValues_eq (p : β → Bool) (m : HashMap α β) :
    (countValues p m : ℕ∞) = {a | (m.lookup a).any p}.encard := by
  have hnodup : ((m.entries.filter fun e => p e.2).map Sigma.fst).Nodup :=
    (m.nodupKeys.sublist List.filter_sublist)
  have hset : {a | (m.lookup a).any p} = ((m.entries.filter fun e => p e.2).map Sigma.fst).toFinset := by
    ext a
    rw [List.coe_toFinset, Set.mem_ofPred_eq, Option.any_eq_true, Set.mem_ofPred_eq, List.mem_map]
    constructor
    · rintro ⟨b, hb, hp⟩
      exact ⟨⟨a, b⟩, List.mem_filter.mpr ⟨AList.mem_lookup_iff.mp hb, hp⟩, rfl⟩
    · rintro ⟨⟨a', b⟩, hm, rfl⟩
      obtain ⟨hm, hp⟩ := List.mem_filter.mp hm
      exact ⟨b, AList.mem_lookup_iff.mpr hm, hp⟩
  rw [hset, Set.encard_coe_eq_coe_finsetCard, List.toFinset_card_of_nodup hnodup, List.length_map, countValues]

/-- `m.entry(a).or_insert(b)`. -/
def orInsert (a : α) (b : β) (m : HashMap α β) : HashMap α β := if a ∈ m then m else m.insert a b

theorem lookup_orInsert (a a' : α) (b : β) (m : HashMap α β) :
    (orInsert a b m).lookup a' = (m.lookup a').or (if a = a' then some b else none) := by
  unfold orInsert
  by_cases hm : a ∈ m
  · rw [if_pos hm]
    by_cases ha : a = a'
    · subst ha
      obtain ⟨b', hb'⟩ := Option.isSome_iff_exists.mp (AList.lookup_isSome.mpr hm)
      rw [hb', Option.some_or]
    · rw [if_neg ha, Option.or_none]
  · rw [if_neg hm]
    by_cases ha : a = a'
    · subst ha
      rw [AList.lookup_insert, AList.lookup_eq_none.mpr hm, if_pos rfl, Option.none_or]
    · rw [AList.lookup_insert_ne (Ne.symm ha), if_neg ha, Option.or_none]

/-- Inserting in turn what is not yet there keeps the first value of each key. -/
theorem lookup_collect (pairs : List (α × β)) (m : HashMap α β) (a : α) :
    (pairs.foldl (fun m p => orInsert p.1 p.2 m) m).lookup a =
      (m.lookup a).or ((pairs.find? (·.1 = a)).map Prod.snd) := by
  induction pairs generalizing m with
  | nil => simp
  | cons p pairs ih =>
    rw [List.foldl_cons, ih, lookup_orInsert, Option.or_assoc, List.find?_cons]
    by_cases ha : p.1 = a <;> simp [ha]

end HashMap

end RustStd
