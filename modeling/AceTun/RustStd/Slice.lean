import Mathlib.Algebra.Group.Nat.Defs
import AceTun.RustStd.Utf8

/-!
# Indexing byte strings and texts

`bs[i]` and `&bs[a..b]` as the standard library has them: out of bounds is a panic, and the code that follows does not
run. Inside the bounds they are the element and the sublist (`index_ok`, `slice_ok`). A text is cut at a byte offset,
which has to be a character boundary (`strFrom`, `strTo`).

`Spells m p xs` says that the bytes `xs` stand at position `p` of `m`. It splits along `xs` (`spells_append`), and the
accessors read off it what stands there (`Spells.slice`, `Spells.beU16`).
-/

namespace RustStd

/-- Why a function panics. -/
inductive Panic where
  | indexOutOfBounds
  | sliceOutOfBounds
  | sliceLengthMismatch
  | notCharBoundary
  deriving DecidableEq, Repr

/-- A block that returns: its first step returned, and the rest returned on its result. -/
theorem except_bind_eq_ok {ε α β : Type} {x : Except ε α} {f : α → Except ε β} {r : β} :
    x >>= f = .ok r ↔ ∃ a, x = .ok a ∧ f a = .ok r := by
  cases x with
  | error e => simp [bind, Except.bind]
  | ok a => simp [bind, Except.bind]

/-- A list that is mapped without a failure: its head was, and its tail. -/
theorem mapM_cons_eq_ok {ε α β : Type} {f : α → Except ε β} {a : α} {l : List α} {l' : List β} :
    (a :: l).mapM f = .ok l' ↔ ∃ b bs, f a = .ok b ∧ l.mapM f = .ok bs ∧ l' = b :: bs := by
  rw [List.mapM_cons]
  constructor
  · intro h
    obtain ⟨b, hb, h⟩ := except_bind_eq_ok.mp h
    obtain ⟨bs, hbs, h⟩ := except_bind_eq_ok.mp h
    cases h
    exact ⟨b, bs, hb, hbs, rfl⟩
  · rintro ⟨b, bs, hb, hbs, rfl⟩
    rw [hb, hbs]
    rfl

/-- `bs[i]`. -/
def index (bs : Bytes) (i : Nat) : Except Panic UInt8 :=
  match bs[i]? with
  | some b => .ok b
  | none => .error .indexOutOfBounds

/-- `&bs[start..stop]`. -/
def slice (bs : Bytes) (start stop : Nat) : Except Panic Bytes :=
  if start ≤ stop ∧ stop ≤ bs.length then .ok ((bs.drop start).take (stop - start)) else .error .sliceOutOfBounds

/-- `bs.get(start..stop)`. -/
def getRange (bs : Bytes) (start stop : Nat) : Option Bytes :=
  if start ≤ stop ∧ stop ≤ bs.length then some ((bs.drop start).take (stop - start)) else none

/-- `try_into`, for an array of `n` bytes. -/
def tryIntoArray (n : Nat) (bs : Bytes) : Option (Vector UInt8 n) :=
  if h : bs.length = n then some ⟨bs.toArray, List.size_toArray.trans h⟩ else none

/-- The number that a big-endian byte string spells. -/
def beNat (bs : Bytes) : Nat := bs.foldl (fun n b => n * 256 + b.toNat) 0

/-- `u16::to_be_bytes`. -/
def toBeBytes (n : UInt16) : Bytes := [UInt8.ofNat (n.toNat / 256), UInt8.ofNat (n.toNat % 256)]

/-- `u16::from_be_bytes([bs[i], bs[i + 1]])`. -/
def beU16 (bs : Bytes) (i : Nat) : Except Panic Nat := do
  let hi ← index bs i
  let lo ← index bs (i + 1)
  pure (hi.toNat * 256 + lo.toNat)

theorem index_ok {bs : Bytes} {i : Nat} {b : UInt8} (h : bs[i]? = some b) : index bs i = .ok b := by
  simp [index, h]

theorem slice_ok {bs : Bytes} {start stop : Nat} (h1 : start ≤ stop) (h2 : stop ≤ bs.length) :
    slice bs start stop = .ok ((bs.drop start).take (stop - start)) :=
  if_pos ⟨h1, h2⟩

theorem beU16_ok {bs : Bytes} {i : Nat} {hi lo : UInt8} (h1 : bs[i]? = some hi) (h2 : bs[i + 1]? = some lo) :
    beU16 bs i = .ok (hi.toNat * 256 + lo.toNat) := by
  simp [beU16, index_ok h1, index_ok h2, bind, Except.bind, pure, Except.pure]

theorem beU16_isOk {bs : Bytes} {i : Nat} (h : i + 2 ≤ bs.length) : ∃ n, beU16 bs i = .ok n :=
  ⟨_, beU16_ok (List.getElem?_eq_getElem (by omega)) (List.getElem?_eq_getElem (by omega))⟩

theorem foldl_beNat_inj {a b : Bytes} {m n : Nat} (hl : a.length = b.length)
    (h : a.foldl (fun n b => n * 256 + b.toNat) m = b.foldl (fun n b => n * 256 + b.toNat) n) : m = n ∧ a = b := by
  induction a generalizing b m n with
  | nil =>
    rw [List.eq_nil_of_length_eq_zero hl.symm] at h ⊢
    exact ⟨h, rfl⟩
  | cons x a ih =>
    cases b with
    | nil => cases hl
    | cons y b =>
      obtain ⟨hxy, rfl⟩ := ih (Nat.succ.inj hl) h
      have hx := x.toNat_lt
      have hy := y.toNat_lt
      dsimp only at hxy
      have hbyte : x = y := UInt8.toNat_inj.mp (by omega)
      exact ⟨by omega, by rw [hbyte]⟩

/-- Byte strings of one length that spell the same number are the same. -/
theorem beNat_inj {a b : Bytes} (hl : a.length = b.length) (h : beNat a = beNat b) : a = b :=
  (foldl_beNat_inj hl h).2

theorem foldl_beNat_lt (bs : Bytes) (n : Nat) :
    bs.foldl (fun n b => n * 256 + b.toNat) n < (n + 1) * 256 ^ bs.length := by
  induction bs generalizing n with
  | nil => simp
  | cons b bs ih =>
    have hb := b.toNat_lt
    calc (b :: bs).foldl (fun n b => n * 256 + b.toNat) n
        < (n * 256 + b.toNat + 1) * 256 ^ bs.length := ih (n * 256 + b.toNat)
      _ ≤ ((n + 1) * 256) * 256 ^ bs.length := Nat.mul_le_mul_right _ (by omega)
      _ = (n + 1) * 256 ^ (bs.length + 1) := by rw [Nat.mul_assoc, Nat.pow_succ']

theorem beNat_lt (bs : Bytes) : beNat bs < 256 ^ bs.length := by
  have h := foldl_beNat_lt bs 0
  rwa [Nat.zero_add, Nat.one_mul] at h

@[simp] theorem length_toBeBytes (n : UInt16) : (toBeBytes n).length = 2 := rfl

/-! ## What stands where -/

/-- The bytes `xs` stand at position `p`. -/
def Spells (m : Bytes) (p : Nat) (xs : Bytes) : Prop := xs <+: m.drop p

section Spells

variable {m xs ys : Bytes} {p : Nat}

theorem spells_append : Spells m p (xs ++ ys) ↔ Spells m p xs ∧ Spells m (p + xs.length) ys := by
  unfold Spells
  constructor
  · rintro ⟨t, ht⟩
    refine ⟨⟨ys ++ t, by rw [← ht, List.append_assoc]⟩, t, ?_⟩
    rw [← List.drop_drop, ← ht, List.append_assoc, List.drop_left]
  · rintro ⟨⟨t, ht⟩, u, hu⟩
    refine ⟨u, ?_⟩
    rw [← List.drop_drop, ← ht, List.drop_left] at hu
    rw [List.append_assoc, hu, ht]

theorem Spells.getElem? (h : Spells m p xs) {i : Nat} (hi : i < xs.length) : m[p + i]? = xs[i]? := by
  obtain ⟨t, ht⟩ := h
  rw [← List.getElem?_drop, ← ht, List.getElem?_append_left hi]

theorem Spells.length_le (h : Spells m p xs) (hne : xs ≠ []) : p + xs.length ≤ m.length := by
  have hl := List.IsPrefix.length_le h
  have hp := List.length_pos_iff.mpr hne
  rw [List.length_drop] at hl
  omega

theorem Spells.take (h : Spells m p xs) : (m.drop p).take xs.length = xs := by
  obtain ⟨t, ht⟩ := h
  rw [← ht, List.take_left]

theorem Spells.slice (h : Spells m p xs) (hne : xs ≠ []) : RustStd.slice m p (p + xs.length) = .ok xs := by
  rw [slice_ok (Nat.le_add_right _ _) (h.length_le hne), Nat.add_sub_cancel_left, h.take]

theorem Spells.beU16 {n : UInt16} (h : Spells m p (toBeBytes n)) : RustStd.beU16 m p = .ok n.toNat := by
  have h0 : m[p]? = some (UInt8.ofNat (n.toNat / 256)) := h.getElem? (i := 0) (by simp)
  have h1 : m[p + 1]? = some (UInt8.ofNat (n.toNat % 256)) := h.getElem? (i := 1) (by simp)
  have hn := n.toNat_lt
  rw [beU16_ok h0 h1, UInt8.toNat_ofNat', UInt8.toNat_ofNat']
  congr 1
  omega

end Spells

/-! ## Cutting texts -/

/-- `str::len`. -/
def byteLen (s : Str) : Nat := (asBytes s).length

/-- The text before and from byte `i`, if `i` is a character boundary. -/
def splitAtByte : (i : Nat) → Str → Option (Str × Str)
  | 0, s => some ([], s)
  | _ + 1, [] => none
  | i + 1, c :: cs =>
    if c.utf8Size ≤ i + 1 then (splitAtByte (i + 1 - c.utf8Size) cs).map fun p => (c :: p.1, p.2) else none

/-- `&s[i..]`. -/
def strFrom (s : Str) (i : Nat) : Except Panic Str :=
  match splitAtByte i s with
  | some p => .ok p.2
  | none => .error .notCharBoundary

/-- `&s[..i]`. -/
def strTo (s : Str) (i : Nat) : Except Panic Str :=
  match splitAtByte i s with
  | some p => .ok p.1
  | none => .error .notCharBoundary

@[simp] theorem byteLen_cons (c : Char) (s : Str) : byteLen (c :: s) = c.utf8Size + byteLen s := by
  simp [byteLen]

@[simp] theorem byteLen_append (s t : Str) : byteLen (s ++ t) = byteLen s + byteLen t := by
  simp [byteLen]

theorem byteLen_eq_zero {s : Str} : byteLen s = 0 ↔ s = [] := by
  rw [byteLen, List.length_eq_zero_iff, asBytes_eq_nil]

theorem splitAtByte_zero (s : Str) : splitAtByte 0 s = some ([], s) := by
  cases s <;> rfl

/-- A text is cut in two at the length of its front part, and only there. -/
theorem splitAtByte_eq_some : ∀ {i : Nat} {s a b : Str}, splitAtByte i s = some (a, b) ↔ s = a ++ b ∧ byteLen a = i
  | 0, s, a, b => by
    rw [byteLen_eq_zero, splitAtByte_zero]
    constructor
    · intro h
      cases h
      exact ⟨rfl, rfl⟩
    · rintro ⟨rfl, rfl⟩
      rfl
  | i + 1, [], a, b => by
    constructor
    · intro h
      cases h
    · rintro ⟨h, hl⟩
      obtain ⟨rfl, -⟩ := List.append_eq_nil_iff.mp h.symm
      cases hl
  | i + 1, c :: cs, a, b => by
    rw [splitAtByte]
    constructor
    · intro h
      split at h
      · next hle =>
        obtain ⟨⟨a', b'⟩, hs, hab⟩ := Option.map_eq_some_iff.mp h
        cases hab
        obtain ⟨rfl, hl⟩ := splitAtByte_eq_some.mp hs
        exact ⟨rfl, by rw [byteLen_cons, hl]; omega⟩
      · cases h
    · rintro ⟨hs, hl⟩
      cases a with
      | nil => cases hl
      | cons c' a =>
        rw [List.cons_append] at hs
        obtain ⟨rfl, rfl⟩ := List.cons.inj hs
        rw [byteLen_cons] at hl
        have hcut : splitAtByte (byteLen a) (a ++ b) = some (a, b) := splitAtByte_eq_some.mpr ⟨rfl, rfl⟩
        rw [if_pos (by omega), show i + 1 - c.utf8Size = byteLen a by omega, hcut]
        rfl

/-- A text is cut in only one way at an offset. -/
theorem append_inj_byteLen {a b c d : Str} (h : a ++ b = c ++ d) (hl : byteLen a = byteLen c) : a = c ∧ b = d := by
  have h1 : splitAtByte (byteLen c) (a ++ b) = some (a, b) := splitAtByte_eq_some.mpr ⟨rfl, hl⟩
  have h2 : splitAtByte (byteLen c) (a ++ b) = some (c, d) := splitAtByte_eq_some.mpr ⟨h, rfl⟩
  exact Prod.mk.inj (Option.some.inj (h1.symm.trans h2))

theorem strFrom_append {a b : Str} {i : Nat} (h : byteLen a = i) : strFrom (a ++ b) i = .ok b := by
  rw [strFrom, splitAtByte_eq_some.mpr ⟨rfl, h⟩]

theorem strTo_append {a b : Str} {i : Nat} (h : byteLen a = i) : strTo (a ++ b) i = .ok a := by
  rw [strTo, splitAtByte_eq_some.mpr ⟨rfl, h⟩]

end RustStd
