import Mathlib.Data.List.Basic

/-!
# Bytes, text and UTF-8

Byte strings are `Bytes`; a Rust `str` is the list of its characters (`Str`), with `asBytes` for its UTF-8 form and
`fromUtf8` for `std::str::from_utf8`. The two are inverse where they should be (`fromUtf8_asBytes`,
`asBytes_of_fromUtf8`), and an ASCII byte of the encoding is an ASCII character of the text (`mem_asBytes_ascii`).

The decoder takes one character at a time with the core function `ByteArray.utf8DecodeChar?`, which rejects overlong
forms, surrogates and values past `0x10FFFF` as Rust does.
-/

namespace RustStd

/-- A byte string (`Vec<u8>`, `&[u8]`). -/
abbrev Bytes := List UInt8

/-- A Rust string, as the list of its characters. -/
abbrev Str := List Char

/-- `str::as_bytes`. -/
def asBytes (s : Str) : Bytes := s.flatMap String.utf8EncodeChar

/-- The character whose encoding starts the byte string. -/
def decodeChar (bs : Bytes) : Option Char := bs.toByteArray.utf8DecodeChar? 0

/-- `from_utf8` with as many characters as `fuel` allows; a byte string never needs more than its length. -/
def fromUtf8Aux : Nat → Bytes → Option Str
  | _, [] => some []
  | 0, _ :: _ => none
  | fuel + 1, b :: bs =>
    match decodeChar (b :: bs) with
    | none => none
    | some c => (fromUtf8Aux fuel ((b :: bs).drop c.utf8Size)).map (c :: ·)

/-- `std::str::from_utf8`, with the error dropped. -/
def fromUtf8 (bs : Bytes) : Option Str := fromUtf8Aux bs.length bs

/-! ## Encoding -/

@[simp] theorem asBytes_nil : asBytes [] = [] := rfl

@[simp] theorem asBytes_cons (c : Char) (s : Str) : asBytes (c :: s) = String.utf8EncodeChar c ++ asBytes s := rfl

@[simp] theorem asBytes_append (s t : Str) : asBytes (s ++ t) = asBytes s ++ asBytes t := by
  simp [asBytes]

theorem asBytes_eq_nil {s : Str} : asBytes s = [] ↔ s = [] := by
  cases s with
  | nil => simp
  | cons c s =>
    have h : (String.utf8EncodeChar c).length = c.utf8Size := String.length_utf8EncodeChar c
    have hp := c.utf8Size_pos
    simp only [asBytes_cons, List.append_eq_nil_iff, reduceCtorEq, iff_false, not_and]
    intro he
    rw [he] at h
    simp at h
    omega

/-! ## The two directions -/

theorem decodeChar_encode (c : Char) (bs : Bytes) : decodeChar (String.utf8EncodeChar c ++ bs) = some c := by
  unfold decodeChar
  rw [List.toByteArray_append]
  exact ByteArray.utf8DecodeChar?_utf8EncodeChar_append

theorem encode_of_decodeChar {bs : Bytes} {c : Char} (h : decodeChar bs = some c) :
    bs = String.utf8EncodeChar c ++ bs.drop c.utf8Size := by
  obtain ⟨l, hl⟩ := ByteArray.exists_of_utf8DecodeChar?_eq_some h
  have hbs : bs = String.utf8EncodeChar c ++ l.data.toList := by
    have := congrArg (fun b => b.data.toList) hl
    simpa using this
  have hlen : (String.utf8EncodeChar c).length = c.utf8Size := String.length_utf8EncodeChar c
  rw [hbs, ← hlen, List.drop_left]

theorem fromUtf8Aux_asBytes : ∀ (s : Str) (fuel : Nat), (asBytes s).length ≤ fuel → fromUtf8Aux fuel (asBytes s) = some s
  | [], fuel, _ => by cases fuel <;> rfl
  | c :: s, fuel, h => by
    have hlen : (String.utf8EncodeChar c).length = c.utf8Size := String.length_utf8EncodeChar c
    have hpos := c.utf8Size_pos
    simp only [asBytes_cons, List.length_append] at h
    obtain ⟨fuel, rfl⟩ : ∃ n, fuel = n + 1 := ⟨fuel - 1, by omega⟩
    obtain ⟨b, bs, hb⟩ : ∃ b bs, asBytes (c :: s) = b :: bs :=
      List.exists_cons_of_ne_nil (by simp [asBytes_eq_nil])
    have hd : decodeChar (b :: bs) = some c := by rw [← hb]; exact decodeChar_encode c _
    have hdrop : (b :: bs).drop c.utf8Size = asBytes s := by rw [← hb, asBytes_cons, ← hlen, List.drop_left]
    rw [hb]
    simp only [fromUtf8Aux, hd, hdrop]
    rw [fromUtf8Aux_asBytes s fuel (by omega)]
    rfl

/-- Decoding undoes encoding. -/
@[simp] theorem fromUtf8_asBytes (s : Str) : fromUtf8 (asBytes s) = some s :=
  fromUtf8Aux_asBytes s _ (Nat.le_refl _)

theorem asBytes_of_fromUtf8Aux : ∀ {fuel : Nat} {bs : Bytes} {s : Str}, fromUtf8Aux fuel bs = some s → asBytes s = bs
  | _, [], s, h => by
    unfold fromUtf8Aux at h
    cases h; rfl
  | 0, _ :: _, _, h => by cases h
  | fuel + 1, b :: bs, s, h => by
    simp only [fromUtf8Aux] at h
    cases hd : decodeChar (b :: bs) with
    | none => rw [hd] at h; cases h
    | some c =>
      rw [hd] at h
      obtain ⟨t, ht, rfl⟩ := Option.map_eq_some_iff.mp h
      rw [asBytes_cons, asBytes_of_fromUtf8Aux ht]
      exact (encode_of_decodeChar hd).symm

/-- Encoding undoes decoding. -/
theorem asBytes_of_fromUtf8 {bs : Bytes} {s : Str} (h : fromUtf8 bs = some s) : asBytes s = bs :=
  asBytes_of_fromUtf8Aux h

/-- A text begins as its bytes do. -/
theorem asBytes_eq_append {s t : Str} {bs : Bytes} :
    asBytes t = asBytes s ++ bs ↔ ∃ t', t = s ++ t' ∧ bs = asBytes t' := by
  constructor
  · intro h
    induction s generalizing t with
    | nil => exact ⟨t, rfl, h.symm⟩
    | cons c s ih =>
      rw [asBytes_cons, List.append_assoc] at h
      cases t with
      | nil =>
        exact absurd (List.append_eq_nil_iff.mp h.symm).1 String.utf8EncodeChar_ne_nil
      | cons d t =>
        rw [asBytes_cons] at h
        obtain rfl : d = c := by
          have hchar := decodeChar_encode d (asBytes t)
          rw [h, decodeChar_encode] at hchar
          exact (Option.some.inj hchar).symm
        obtain ⟨t', rfl, hbs⟩ := ih (List.append_cancel_left h)
        exact ⟨t', rfl, hbs⟩
  · rintro ⟨t', rfl, rfl⟩
    exact asBytes_append s t'

/-- What follows a text decodes on its own. -/
theorem fromUtf8_append_eq_some {s t : Str} {bs : Bytes} :
    fromUtf8 (asBytes s ++ bs) = some t ↔ ∃ t', t = s ++ t' ∧ bs = asBytes t' := by
  rw [← asBytes_eq_append]
  constructor
  · exact asBytes_of_fromUtf8
  · intro h
    rw [← h, fromUtf8_asBytes]

/-! ## ASCII -/

theorem ofNat_eq_ofNat {m n : Nat} (hm : m < 256) (hn : n < 256) : UInt8.ofNat m = UInt8.ofNat n ↔ m = n := by
  rw [← UInt8.toNat_inj, UInt8.toNat_ofNat', UInt8.toNat_ofNat', Nat.mod_eq_of_lt hm, Nat.mod_eq_of_lt hn]

/-- A byte below `0x80` occurs in the encoding of a character only as that character itself. -/
theorem mem_encode_ascii {c a : Char} (ha : a.toNat < 128) :
    UInt8.ofNat a.toNat ∈ String.utf8EncodeChar c ↔ c = a := by
  have hinj : c = a ↔ c.val.toNat = a.toNat := by
    rw [Char.ext_iff, ← UInt32.toNat_inj]; rfl
  have hne : ∀ n, 128 ≤ n → n < 256 → UInt8.ofNat a.toNat ≠ UInt8.ofNat n := by
    intro n h1 h2 h
    rw [ofNat_eq_ofNat (by omega) h2] at h
    omega
  rw [hinj]
  unfold String.utf8EncodeChar
  -- only the one-byte form has a byte below `0x80`
  by_cases h1 : c.val.toNat ≤ 0x7f
  · simp only [if_pos h1, List.mem_singleton]
    rw [ofNat_eq_ofNat (by omega) (by omega)]
    exact eq_comm
  · have hc : c.val.toNat ≠ a.toNat := by omega
    simp only [if_neg h1, hc, iff_false]
    split
    · simp only [List.mem_cons, List.not_mem_nil, or_false, not_or]
      exact ⟨hne _ (by omega) (by omega), hne _ (by omega) (by omega)⟩
    · split
      · simp only [List.mem_cons, List.not_mem_nil, or_false, not_or]
        exact ⟨hne _ (by omega) (by omega), hne _ (by omega) (by omega), hne _ (by omega) (by omega)⟩
      · simp only [List.mem_cons, List.not_mem_nil, or_false, not_or]
        exact ⟨hne _ (by omega) (by omega), hne _ (by omega) (by omega), hne _ (by omega) (by omega),
          hne _ (by omega) (by omega)⟩

/-- An ASCII byte of the encoding is an ASCII character of the text. -/
theorem mem_asBytes_ascii {s : Str} {a : Char} (ha : a.toNat < 128) : UInt8.ofNat a.toNat ∈ asBytes s ↔ a ∈ s := by
  induction s with
  | nil => simp
  | cons c s ih => simp [mem_encode_ascii ha, ih, eq_comm]

end RustStd
