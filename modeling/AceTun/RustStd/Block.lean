import AceTun.RustStd.Ipv6
import Mathlib.Tactic.Ring

/-!
# Blocks of IPv6 addresses

The bits of an address are those of its number (`Ipv6Addr.bits_eq`), so addresses agree on their first `n` bits exactly
when their numbers agree but for the last `128 - n` bits (`Ipv6Addr.take_bits_eq_iff`). They lie between the first and
the last address of the block (`Ipv6Addr.between_block_iff`).
-/

namespace RustStd

/-! ## Bits of byte strings -/

theorem foldl_beNat (bs : Bytes) (n : Nat) :
    bs.foldl (fun n b => n * 256 + b.toNat) n = 2 ^ (8 * bs.length) * n + beNat bs := by
  induction bs generalizing n with
  | nil => simp [beNat]
  | cons b bs ih =>
    have hvalue : beNat (b :: bs) = 2 ^ (8 * bs.length) * b.toNat + beNat bs := by
      rw [beNat, List.foldl_cons, ih, Nat.zero_mul, Nat.zero_add]
    have hlen : 8 * (b :: bs).length = 8 * bs.length + 8 := by rw [List.length_cons, Nat.mul_succ]
    rw [List.foldl_cons, ih, hvalue, hlen, Nat.pow_add]
    ring

theorem beNat_cons (b : UInt8) (bs : Bytes) : beNat (b :: bs) = 2 ^ (8 * bs.length) * b.toNat + beNat bs := by
  rw [beNat, List.foldl_cons, foldl_beNat, Nat.zero_mul, Nat.zero_add]

theorem beNat_lt_two_pow (bs : Bytes) : beNat bs < 2 ^ (8 * bs.length) := by
  rw [Nat.pow_mul]
  exact beNat_lt bs

/-- The bits of the bytes, one after another, are the bits of the number. -/
theorem flatMap_bits (bs : Bytes) :
    bs.flatMap (fun b => (List.range 8).map fun i => b.toNat.testBit (7 - i)) =
      (List.range (8 * bs.length)).map fun i => (beNat bs).testBit (8 * bs.length - 1 - i) := by
  induction bs with
  | nil => rfl
  | cons b bs ih =>
    have hlen : 8 * (b :: bs).length = 8 + 8 * bs.length := by rw [List.length_cons]; omega
    have hbit := Nat.testBit_two_pow_mul_add b.toNat (beNat_lt_two_pow bs)
    rw [List.flatMap_cons, ih, hlen, List.range_add, List.map_append, List.map_map]
    congr 1
    · refine List.map_inj_left.mpr fun i hi => ?_
      have hi := List.mem_range.mp hi
      rw [beNat_cons, hbit, if_neg (by omega)]
      congr 1
      omega
    · refine List.map_inj_left.mpr fun i hi => ?_
      have hi := List.mem_range.mp hi
      rw [Function.comp_apply, beNat_cons, hbit, if_pos (by omega)]
      congr 1
      omega

namespace Ipv6Addr

theorem toU128_lt (ip : Ipv6Addr) : ip.toU128 < 2 ^ 128 := by
  have h := beNat_lt_two_pow ip.octets.toList
  rwa [Vector.length_toList] at h

theorem bits_eq (ip : Ipv6Addr) :
    (IpAddr.v6 ip).bits = (List.range 128).map fun i => ip.toU128.testBit (127 - i) := by
  have h := flatMap_bits ip.octets.toList
  rwa [Vector.length_toList] at h

/-- Numbers agree but for their last bits exactly when their other bits are the same. -/
theorem div_two_pow_eq_iff {a b n : Nat} (ha : a < 2 ^ 128) (hb : b < 2 ^ 128) (hn : n ≤ 128) :
    a / 2 ^ (128 - n) = b / 2 ^ (128 - n) ↔ ∀ i < n, a.testBit (127 - i) = b.testBit (127 - i) := by
  constructor
  · intro h i hi
    have hbit := congrArg (Nat.testBit · (n - 1 - i)) h
    simp only [Nat.testBit_div_two_pow] at hbit
    have hpos : n - 1 - i + (128 - n) = 127 - i := by omega
    rwa [hpos] at hbit
  · intro h
    refine Nat.eq_of_testBit_eq fun j => ?_
    rw [Nat.testBit_div_two_pow, Nat.testBit_div_two_pow]
    by_cases hj : j < n
    · have hpos : 127 - (n - 1 - j) = j + (128 - n) := by omega
      have hbit := h (n - 1 - j) (by omega)
      rwa [hpos] at hbit
    · have hle : 2 ^ 128 ≤ 2 ^ (j + (128 - n)) := Nat.pow_le_pow_right (by decide) (by omega)
      rw [Nat.testBit_lt_two_pow (Nat.lt_of_lt_of_le ha hle), Nat.testBit_lt_two_pow (Nat.lt_of_lt_of_le hb hle)]

/-- Addresses agree on their first bits exactly when their numbers agree but for the last ones. -/
theorem take_bits_eq_iff {a b : Ipv6Addr} {n : Nat} (hn : n ≤ 128) :
    (IpAddr.v6 a).bits.take n = (IpAddr.v6 b).bits.take n ↔
      a.toU128 / 2 ^ (128 - n) = b.toU128 / 2 ^ (128 - n) := by
  rw [div_two_pow_eq_iff a.toU128_lt b.toU128_lt hn, bits_eq, bits_eq, ← List.map_take, ← List.map_take, List.take_range,
    Nat.min_eq_left hn, List.map_inj_left]
  simp only [List.mem_range]

/-! ## The ends of a block -/

/-- The last `k` bytes of a number. -/
def bytesOf : (k n : Nat) → Bytes
  | 0, _ => []
  | k + 1, n => UInt8.ofNat (n / 256 ^ k) :: bytesOf k n

theorem length_bytesOf (k n : Nat) : (bytesOf k n).length = k := by
  induction k with
  | zero => rfl
  | succ k ih => rw [bytesOf, List.length_cons, ih]

theorem beNat_bytesOf (k n : Nat) : beNat (bytesOf k n) = n % 256 ^ k := by
  induction k with
  | zero => rw [Nat.pow_zero, Nat.mod_one]; rfl
  | succ k ih =>
    have hmod : n % 256 ^ (k + 1) = n % 256 ^ k + 256 ^ k * (n / 256 ^ k % 256) := Nat.mod_pow_succ
    rw [bytesOf, beNat_cons, length_bytesOf, ih, UInt8.toNat_ofNat', Nat.pow_mul, hmod, Nat.add_comm]

/-- `Ipv6Addr::from` a number. -/
def ofU128 (n : Nat) : Ipv6Addr := ⟨⟨(bytesOf 16 n).toArray, by rw [List.size_toArray, length_bytesOf]⟩⟩

theorem toU128_ofU128 {n : Nat} (h : n < 2 ^ 128) : (ofU128 n).toU128 = n := by
  have hbytes := beNat_bytesOf 16 n
  rwa [Nat.mod_eq_of_lt (show n < 256 ^ 16 from h)] at hbytes

/-- The first address that has the first `n` bits of this one. -/
def blockFirst (ip : Ipv6Addr) (n : Nat) : Ipv6Addr := ofU128 (ip.toU128 / 2 ^ (128 - n) * 2 ^ (128 - n))

/-- The last one. -/
def blockLast (ip : Ipv6Addr) (n : Nat) : Ipv6Addr :=
  ofU128 (ip.toU128 / 2 ^ (128 - n) * 2 ^ (128 - n) + 2 ^ (128 - n) - 1)

/-- The addresses between the ends of a block are those of the block. -/
theorem between_block_iff {ip x : Ipv6Addr} {n : Nat} (hn : n ≤ 128) :
    (ip.blockFirst n).toU128 ≤ x.toU128 ∧ x.toU128 ≤ (ip.blockLast n).toU128 ↔
      x.toU128 / 2 ^ (128 - n) = ip.toU128 / 2 ^ (128 - n) := by
  have hpow : 2 ^ n * 2 ^ (128 - n) = 2 ^ 128 := by rw [← Nat.pow_add, Nat.add_sub_cancel' hn]
  have hsize : 0 < 2 ^ (128 - n) := Nat.two_pow_pos _
  have hquot : ip.toU128 / 2 ^ (128 - n) < 2 ^ n := Nat.div_lt_of_lt_mul (by rw [Nat.mul_comm, hpow]; exact ip.toU128_lt)
  have hend : (ip.toU128 / 2 ^ (128 - n) + 1) * 2 ^ (128 - n) ≤ 2 ^ 128 := by
    rw [← hpow]
    exact Nat.mul_le_mul_right _ hquot
  rw [Nat.succ_mul] at hend
  rw [blockFirst, blockLast, toU128_ofU128 (by omega), toU128_ofU128 (by omega), Nat.div_eq_iff hsize]

end Ipv6Addr

end RustStd
