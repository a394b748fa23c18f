import AceTun.Dns.Parse

/-!
# What a name on the wire says

`NameAt m p ls k e` is the meaning of the bytes at position `p` of a message: they spell the labels `ls`, through `k`
compression pointers, and the record goes on at `e`. `parseName` computes exactly this relation with at most ten
pointers: it finds every such name (`parseName_of_nameAt`), what it finds is one (`nameAt_of_parseName`), and it never
panics (`parseName_isOk`).

The relation is two things at once (`nameAt_iff`): what the bytes denote, whoever asks (`Denotes`), and where the record
goes on, which the first pointer or the zero byte settles (`NameEnd`). `parseName_iff_denotes` is about these.
-/

namespace AceTun

open RustStd

/-- The labels that position `p` of a message spells, how many pointers they go through, and where the record goes
on. -/
inductive NameAt (m : Bytes) : (p : Nat) → (labels : List Str) → (jumps next : Nat) → Prop
  /-- The zero byte ends a name. -/
  | root {p : Nat} : m[p]? = some 0 → NameAt m p [] 0 (p + 1)
  /-- A length byte, that many bytes of text, and the rest of the name. -/
  | label {p : Nat} {b : UInt8} {l : Str} {ls : List Str} {k e : Nat} : m[p]? = some b → b ≠ 0 → b < 0xC0 →
      p + 1 + b.toNat ≤ m.length → fromUtf8 ((m.drop (p + 1)).take b.toNat) = some l →
      NameAt m (p + 1 + b.toNat) ls k e → NameAt m p (l :: ls) k e
  /-- A pointer goes on elsewhere; the record goes on after its two bytes. -/
  | pointer {p : Nat} {hi lo : UInt8} {ls : List Str} {k e : Nat} : m[p]? = some hi → 0xC0 ≤ hi →
      m[p + 1]? = some lo → NameAt m (pointerTarget hi lo) ls k e → NameAt m p ls (k + 1) (p + 2)

/-- The two top bits of a byte are set from `0xC0` on. -/
theorem isPointer_iff (b : UInt8) : b &&& 0xC0 = 0xC0 ↔ 0xC0 ≤ b := by
  have key : ∀ n < 256, (n &&& 192 = 192 ↔ 192 ≤ n) := by decide +kernel
  rw [← UInt8.toNat_inj, UInt8.le_iff_toNat_le, UInt8.toNat_and]
  exact key b.toNat b.toNat_lt

theorem not_isPointer_iff (b : UInt8) : ¬ b &&& 0xC0 = 0xC0 ↔ b < 0xC0 := by
  rw [isPointer_iff, UInt8.not_le]

theorem zero_not_pointer {b : UInt8} (h : 0xC0 ≤ b) : b ≠ 0 := by
  rintro rfl
  exact absurd h (by decide)

/-- The labels of a name hold at least one character each. -/
theorem NameAt.labels_ne_nil {m : Bytes} {p k e : Nat} {ls : List Str} (h : NameAt m p ls k e) : ∀ l ∈ ls, l ≠ [] := by
  induction h with
  | root => simp
  | pointer _ _ _ _ ih => exact ih
  | @label p b l ls k e hb h0 _ hlen hl _ ih =>
    intro x hx
    rcases List.mem_cons.mp hx with rfl | hx
    · rintro rfl
      have := asBytes_of_fromUtf8 hl
      have hz := congrArg List.length this
      have hb0 : b.toNat ≠ 0 := fun h => h0 (UInt8.toNat_inj.mp h)
      simp at hz
      omega
    · exact ih x hx

/-- A position spells one name only. -/
theorem NameAt.functional {m : Bytes} {p k e : Nat} {ls : List Str} (h : NameAt m p ls k e) :
    ∀ {ls' : List Str} {k' e' : Nat}, NameAt m p ls' k' e' → ls' = ls ∧ k' = k ∧ e' = e := by
  induction h with
  | root h =>
    intro ls' k' e' h'
    cases h' with
    | root => exact ⟨rfl, rfl, rfl⟩
    | label hb h0 => rw [h] at hb; cases hb; exact absurd rfl h0
    | pointer hb hp => rw [h] at hb; cases hb; exact absurd hp (by decide)
  | label hb h0 hp _ hl _ ih =>
    intro ls' k' e' h'
    cases h' with
    | root hb' => rw [hb] at hb'; cases hb'; exact absurd rfl h0
    | label hb' _ _ _ hl' hn' =>
      rw [hb] at hb'; cases hb'
      rw [hl] at hl'; cases hl'
      obtain ⟨rfl, rfl, rfl⟩ := ih hn'
      exact ⟨rfl, rfl, rfl⟩
    | pointer hb' hp' => rw [hb] at hb'; cases hb'; exact absurd hp' (UInt8.not_le.mpr hp)
  | pointer hb hp hlo _ ih =>
    intro ls' k' e' h'
    cases h' with
    | root hb' => rw [hb] at hb'; cases hb'; exact absurd hp (by decide)
    | label hb' _ hp' => rw [hb] at hb'; cases hb'; exact absurd hp (UInt8.not_le.mpr hp')
    | pointer hb' _ hlo' hn' =>
      rw [hb] at hb'; cases hb'
      rw [hlo] at hlo'; cases hlo'
      obtain ⟨rfl, rfl, rfl⟩ := ih hn'
      exact ⟨rfl, rfl, rfl⟩

/-! ## Dotted names -/

/-- The text form of a name. -/
def dotted (labels : List Str) : Str := ['.'].intercalate labels

theorem dotted_cons (l : Str) (ls : List Str) : dotted (l :: ls) = l ++ ls.flatMap ('.' :: ·) :=
  intercalate_singleton_cons '.' l ls

theorem foldl_pushLabel {out : Str} (ho : out ≠ []) : ∀ ls : List Str,
    ls.foldl pushLabel out = out ++ ls.flatMap ('.' :: ·)
  | [] => by simp
  | l :: ls => by
    have hne : pushLabel out l ≠ [] := by simp [pushLabel, ho]
    rw [List.foldl_cons, foldl_pushLabel hne ls]
    simp [pushLabel, ho]

/-- The loop's text is the labels joined with dots, as none of them is empty. -/
theorem foldl_pushLabel_nil {ls : List Str} (h : ∀ l ∈ ls, l ≠ []) : ls.foldl pushLabel [] = dotted ls := by
  cases ls with
  | nil => rfl
  | cons l ls =>
    have hl := h l List.mem_cons_self
    rw [List.foldl_cons, foldl_pushLabel (by simpa [pushLabel] using hl), dotted_cons]
    simp [pushLabel]

/-! ## The loop -/

theorem parseNameLoop_of_nameAt {m : Bytes} {p k e : Nat} {ls : List Str} (h : NameAt m p ls k e) :
    ∀ {out : Str} {jumps : Nat} {jumped : Bool} {jumpedEnd : Nat}, jumps + k ≤ 10 →
      parseNameLoop m p out jumps jumped jumpedEnd =
        .ok (some (ls.foldl pushLabel out, if jumped then jumpedEnd else e)) := by
  induction h with
  | root hb =>
    intro out jumps jumped jumpedEnd _
    rw [parseNameLoop, hb]
    rfl
  | label hb h0 hp hlen hl _ ih =>
    intro out jumps jumped jumpedEnd hj
    have hslice := slice_ok (Nat.le_add_right _ _) hlen
    rw [Nat.add_sub_cancel_left] at hslice
    rw [parseNameLoop, hb]
    simp only [h0, ↓reduceIte, (not_isPointer_iff _).mpr hp, Nat.not_lt.mpr hlen, hslice, hl]
    exact ih hj
  | pointer hb hp hlo _ ih =>
    intro out jumps jumped jumpedEnd hj
    have h0 := zero_not_pointer hp
    rw [parseNameLoop, hb]
    simp only [h0, ↓reduceIte, (isPointer_iff _).mpr hp, hlo]
    rw [if_neg (by omega), ih (by omega)]
    simp

/-- What the loop finds is a name of the message. -/
theorem nameAt_of_parseNameLoop {m : Bytes} {p jumps jumpedEnd next : Nat} {out name : Str} {jumped : Bool}
    (hj : jumps ≤ 10) (h : parseNameLoop m p out jumps jumped jumpedEnd = .ok (some (name, next))) :
    ∃ ls k e, NameAt m p ls k e ∧ jumps + k ≤ 10 ∧ name = ls.foldl pushLabel out ∧
      next = if jumped then jumpedEnd else e := by
  fun_induction parseNameLoop m p out jumps jumped jumpedEnd with
  | case1 => cases h
  | case2 pos out jumps jumped jumpedEnd hb =>
    cases h
    exact ⟨[], 0, pos + 1, .root hb, by omega, rfl, rfl⟩
  | case3 => cases h
  | case4 => cases h
  | case5 pos out jumps jumped jumpedEnd b hb h0 hp b2 hb2 hle ih =>
    obtain ⟨ls, k, e, hn, hk, rfl, rfl⟩ := ih (by omega) h
    exact ⟨ls, k + 1, pos + 2, .pointer hb ((isPointer_iff b).mp hp) hb2 hn, by omega, rfl, by simp⟩
  | case6 => cases h
  | case7 => cases h
  | case8 => cases h
  | case9 pos out jumps jumped jumpedEnd b hb h0 hp hlen raw hraw label hl ih =>
    obtain ⟨ls, k, e, hn, hk, rfl, rfl⟩ := ih hj h
    have hlen : pos + 1 + b.toNat ≤ m.length := by omega
    have hslice := slice_ok (Nat.le_add_right _ _) hlen
    rw [Nat.add_sub_cancel_left, hraw] at hslice
    cases hslice
    exact ⟨label :: ls, k, e, .label hb h0 ((not_isPointer_iff b).mp hp) hlen hl hn, hk, rfl, rfl⟩

theorem parseNameLoop_isOk (m : Bytes) (p : Nat) (out : Str) (jumps : Nat) (jumped : Bool) (jumpedEnd : Nat) :
    ∃ r, parseNameLoop m p out jumps jumped jumpedEnd = .ok r := by
  fun_induction parseNameLoop m p out jumps jumped jumpedEnd with
  | case1 => exact ⟨_, rfl⟩
  | case2 => exact ⟨_, rfl⟩
  | case3 => exact ⟨_, rfl⟩
  | case4 => exact ⟨_, rfl⟩
  | case5 _ _ _ _ _ _ _ _ _ _ _ _ ih => exact ih
  | case6 => exact ⟨_, rfl⟩
  | case7 pos _ _ _ _ b _ _ _ hlen e he =>
    rw [slice_ok (Nat.le_add_right _ _) (by omega)] at he
    cases he
  | case8 => exact ⟨_, rfl⟩
  | case9 _ _ _ _ _ _ _ _ _ _ _ _ _ _ ih => exact ih

/-! ## `parse_name` -/

/-- The parser never panics. -/
theorem parseName_isOk (m : Bytes) (p : Nat) : ∃ r, parseName m p = .ok r := by
  obtain ⟨r, hr⟩ := parseNameLoop_isOk m p [] 0 false 0
  unfold parseName
  rw [hr]
  cases r with
  | none => exact ⟨_, rfl⟩
  | some r => exact ⟨_, rfl⟩

/-- Every name of at most ten pointers is found, and the offset moves past it. -/
theorem parseName_of_nameAt {m : Bytes} {p k e : Nat} {ls : List Str} (h : NameAt m p ls k e) (hk : k ≤ 10) :
    parseName m p = .ok (some (dotted ls), e) := by
  unfold parseName
  rw [parseNameLoop_of_nameAt h (by omega), foldl_pushLabel_nil h.labels_ne_nil]
  rfl

/-- What is found is a name of at most ten pointers. -/
theorem nameAt_of_parseName {m : Bytes} {p next : Nat} {name : Str} (h : parseName m p = .ok (some name, next)) :
    ∃ ls k, NameAt m p ls k next ∧ k ≤ 10 ∧ name = dotted ls := by
  unfold parseName at h
  obtain ⟨r, hr⟩ := parseNameLoop_isOk m p [] 0 false 0
  rw [hr] at h
  cases r with
  | none => cases h
  | some r =>
    obtain ⟨s, e⟩ := r
    cases h
    obtain ⟨ls, k, e, hn, hk, rfl, rfl⟩ := nameAt_of_parseNameLoop (by omega) hr
    exact ⟨ls, k, hn, by omega, foldl_pushLabel_nil hn.labels_ne_nil⟩

/-- Where there is no such name, the offset stays. -/
theorem offset_of_parseName_none {m : Bytes} {p next : Nat} (h : parseName m p = .ok (none, next)) : next = p := by
  unfold parseName at h
  obtain ⟨r, -, h⟩ := except_bind_eq_ok.mp h
  cases r with
  | none =>
    cases h
    rfl
  | some r => cases h

/-! ## What a position denotes, and where the record goes on -/

/-- The labels that a position denotes, and through how many pointers. -/
inductive Denotes (m : Bytes) : (p : Nat) → (labels : List Str) → (jumps : Nat) → Prop
  | root {p : Nat} : m[p]? = some 0 → Denotes m p [] 0
  | label {p : Nat} {b : UInt8} {l : Str} {ls : List Str} {k : Nat} : m[p]? = some b → 1 ≤ b → b ≤ 0xBF →
      p + 1 + b.toNat ≤ m.length → fromUtf8 ((m.drop (p + 1)).take b.toNat) = some l →
      Denotes m (p + 1 + b.toNat) ls k → Denotes m p (l :: ls) k
  | pointer {p : Nat} {hi lo : UInt8} {ls : List Str} {k : Nat} : m[p]? = some hi → 0xC0 ≤ hi →
      m[p + 1]? = some lo → Denotes m (pointerTarget hi lo) ls k → Denotes m p ls (k + 1)

/-- The record goes on after the zero byte or the first pointer, whichever comes first behind the labels. -/
inductive NameEnd (m : Bytes) : (p next : Nat) → Prop
  | root {p : Nat} : m[p]? = some 0 → NameEnd m p (p + 1)
  | pointer {p : Nat} {hi : UInt8} : m[p]? = some hi → 0xC0 ≤ hi → NameEnd m p (p + 2)
  | label {p e : Nat} {b : UInt8} : m[p]? = some b → 1 ≤ b → b ≤ 0xBF → NameEnd m (p + 1 + b.toNat) e → NameEnd m p e

theorem isLabel_iff (b : UInt8) : b ≠ 0 ∧ b < 0xC0 ↔ 1 ≤ b ∧ b ≤ 0xBF := by
  rw [Ne, ← UInt8.toNat_inj, UInt8.lt_iff_toNat_lt, UInt8.le_iff_toNat_le, UInt8.le_iff_toNat_le]
  simp only [UInt8.reduceToNat]
  omega

theorem not_pointer_of_label {b : UInt8} (h1 : 1 ≤ b) (hBF : b ≤ 0xBF) : ¬ 0xC0 ≤ b :=
  UInt8.not_le.mpr ((isLabel_iff b).mpr ⟨h1, hBF⟩).2

section Denotation

variable {m : Bytes} {p k e : Nat} {ls : List Str}

theorem NameAt.denotes_nameEnd (h : NameAt m p ls k e) : Denotes m p ls k ∧ NameEnd m p e := by
  induction h with
  | root hb => exact ⟨.root hb, .root hb⟩
  | label hb h0 hp hlen hl _ ih =>
    obtain ⟨hd, he⟩ := ih
    obtain ⟨h1, hBF⟩ := (isLabel_iff _).mp ⟨h0, hp⟩
    exact ⟨.label hb h1 hBF hlen hl hd, .label hb h1 hBF he⟩
  | pointer hb hp hlo _ ih => exact ⟨.pointer hb hp hlo ih.1, .pointer hb hp⟩

/-- A position that denotes a name is one where the record goes on somewhere. -/
theorem Denotes.exists_nameAt (h : Denotes m p ls k) : ∃ e, NameAt m p ls k e := by
  induction h with
  | root hb => exact ⟨_, .root hb⟩
  | label hb h1 hBF hlen hl _ ih =>
    obtain ⟨e, ih⟩ := ih
    obtain ⟨h0, hp⟩ := (isLabel_iff _).mpr ⟨h1, hBF⟩
    exact ⟨e, .label hb h0 hp hlen hl ih⟩
  | pointer hb hp hlo _ ih =>
    obtain ⟨e, ih⟩ := ih
    exact ⟨_, .pointer hb hp hlo ih⟩

theorem NameEnd.functional {e' : Nat} (h : NameEnd m p e) (h' : NameEnd m p e') : e' = e := by
  induction h with
  | root hb =>
    cases h' with
    | root => rfl
    | pointer hb' hp => rw [hb] at hb'; cases hb'; exact absurd hp (by decide)
    | label hb' h1 => rw [hb] at hb'; cases hb'; exact absurd h1 (by decide)
  | pointer hb hp =>
    cases h' with
    | root hb' => rw [hb] at hb'; cases hb'; exact absurd hp (by decide)
    | pointer => rfl
    | label hb' h1 hBF => rw [hb] at hb'; cases hb'; exact absurd hp (not_pointer_of_label h1 hBF)
  | label hb h1 hBF _ ih =>
    cases h' with
    | root hb' => rw [hb] at hb'; cases hb'; exact absurd h1 (by decide)
    | pointer hb' hp => rw [hb] at hb'; cases hb'; exact absurd hp (not_pointer_of_label h1 hBF)
    | label hb' _ _ h' =>
      rw [hb] at hb'; cases hb'
      exact ih h'

/-- A name on the wire is what its position denotes and where the record goes on. -/
theorem nameAt_iff : NameAt m p ls k e ↔ Denotes m p ls k ∧ NameEnd m p e := by
  constructor
  · exact NameAt.denotes_nameEnd
  · rintro ⟨hd, he⟩
    obtain ⟨e', h⟩ := hd.exists_nameAt
    rwa [he.functional h.denotes_nameEnd.2] at h

end Denotation

/-- **`parse_name` computes what a position denotes through at most ten pointers.** It returns a name exactly where
there is one, which is the labels joined with dots, and moves the offset to where the record goes on. Otherwise it
leaves the offset where it is. It always returns. -/
theorem parseName_iff_denotes (m : Bytes) (p : Nat) :
    ((∃ name next, parseName m p = .ok (some name, next)) ↔ ∃ ls k, Denotes m p ls k ∧ k ≤ 10) ∧
    (∀ name next, parseName m p = .ok (some name, next) ↔
      ∃ ls k, Denotes m p ls k ∧ k ≤ 10 ∧ name = dotted ls ∧ NameEnd m p next) ∧
    ∃ r next, parseName m p = .ok (r, next) ∧ (r = none → next = p) := by
  refine ⟨⟨?_, ?_⟩, fun name next => ⟨?_, ?_⟩, ?_⟩
  · rintro ⟨name, next, h⟩
    obtain ⟨ls, k, hn, hk, -⟩ := nameAt_of_parseName h
    exact ⟨ls, k, (nameAt_iff.mp hn).1, hk⟩
  · rintro ⟨ls, k, hd, hk⟩
    obtain ⟨e, hn⟩ := hd.exists_nameAt
    exact ⟨dotted ls, e, parseName_of_nameAt hn hk⟩
  · intro h
    obtain ⟨ls, k, hn, hk, hname⟩ := nameAt_of_parseName h
    obtain ⟨hd, he⟩ := nameAt_iff.mp hn
    exact ⟨ls, k, hd, hk, hname, he⟩
  · rintro ⟨ls, k, hd, hk, rfl, he⟩
    exact parseName_of_nameAt (nameAt_iff.mpr ⟨hd, he⟩) hk
  · obtain ⟨⟨r, next⟩, h⟩ := parseName_isOk m p
    refine ⟨r, next, h, ?_⟩
    rintro rfl
    exact offset_of_parseName_none h

/-! ## `parse_dns_answers` -/

/-- Every pair the loop adds carries the name it was given. -/
theorem readAnswers_name {m : Bytes} {qname : Str} {n offset : Nat} {out pairs : List (IpAddr × Str)}
    (h : readAnswers m qname n offset out = .ok pairs) : ∀ x ∈ pairs, x ∈ out ∨ x.2 = qname := by
  intro x hx
  induction n generalizing offset out with
  | zero =>
    cases h
    exact .inl hx
  | succ n ih =>
    unfold readAnswers at h
    -- three ways to stop early, each with what was found so far
    split at h
    · cases h; exact .inl hx
    obtain ⟨⟨name, next⟩, -, h⟩ := except_bind_eq_ok.mp h
    dsimp only at h
    split at h
    · cases h; exact .inl hx
    split at h
    · cases h; exact .inl hx
    obtain ⟨rtype, -, h⟩ := except_bind_eq_ok.mp h
    obtain ⟨rclass, -, h⟩ := except_bind_eq_ok.mp h
    obtain ⟨rdlen, -, h⟩ := except_bind_eq_ok.mp h
    split at h
    · cases h; exact .inl hx
    obtain ⟨found, -, h⟩ := except_bind_eq_ok.mp h
    rcases ih h with hx | hx
    · rcases List.mem_append.mp hx with hx | hx
      · exact .inl hx
      · obtain ⟨ip, -, rfl⟩ := List.mem_map.mp hx
        exact .inr rfl
    · exact .inr hx

/-- **The name of every pair is the name that the message spells right after its header.** -/
theorem nameAt_of_mem_parseDnsAnswers {m : Bytes} {pairs : List (IpAddr × Str)} {ip : IpAddr} {name : Str}
    (h : parseDnsAnswers m = .ok pairs) (hx : (ip, name) ∈ pairs) : ∃ ls k e, NameAt m 12 ls k e ∧ name = dotted ls := by
  unfold parseDnsAnswers at h
  split at h
  · cases h; cases hx
  obtain ⟨flags, -, h⟩ := except_bind_eq_ok.mp h
  split at h
  · cases h; cases hx
  split at h
  · cases h; cases hx
  obtain ⟨qdcount, -, h⟩ := except_bind_eq_ok.mp h
  obtain ⟨ancount, -, h⟩ := except_bind_eq_ok.mp h
  split at h
  · cases h; cases hx
  unfold parseSections at h
  obtain ⟨⟨qname, next⟩, hq, h⟩ := except_bind_eq_ok.mp h
  cases qname with
  | none => cases h; cases hx
  | some qname =>
    dsimp only at h
    split at h
    · cases h; cases hx
    obtain ⟨offset, -, h⟩ := except_bind_eq_ok.mp h
    cases offset with
    | none => cases h; cases hx
    | some offset =>
      obtain ⟨ls, k, hn, -, rfl⟩ := nameAt_of_parseName hq
      rcases readAnswers_name h _ hx with hx | rfl
      · cases hx
      · exact ⟨ls, k, next, hn, rfl⟩

end AceTun
