import AceTun.RustStd.Block

/-!
# Netmasks

The ones of a word, shifted left, are leading ones (`map_testBit_mask`). So the address that is made of such a word has
exactly these bits, in both families (`Ipv4Addr.bits_mask`, `Ipv6Addr.bits_mask`).
-/

namespace RustStd

/-- So many ones, and zeros up to the width. -/
def leadingOnes (w n : Nat) : List Bool := List.replicate n true ++ List.replicate (w - n) false

theorem testBit_mask {w n i : Nat} (hi : i < w) :
    (BitVec.allOnes w <<< (w - n)).toNat.testBit i = true ↔ w - n ≤ i := by
  have hsub : i - (w - n) < w := by omega
  rw [BitVec.testBit_toNat, BitVec.getLsbD_shiftLeft, BitVec.getLsbD_allOnes]
  simp [hi, hsub]

/-- The bits of a word of ones that is shifted left, the most significant first. -/
theorem map_testBit_mask {w n : Nat} (hn : n ≤ w) :
    (List.range w).map (fun i => (BitVec.allOnes w <<< (w - n)).toNat.testBit (w - 1 - i)) = leadingOnes w n := by
  have hsplit : List.range w = List.range n ++ (List.range (w - n)).map (n + ·) := by
    rw [← List.range_add, Nat.add_sub_cancel' hn]
  conv_lhs => rw [hsplit]
  rw [List.map_append, List.map_map, leadingOnes]
  congr 1
  · refine List.eq_replicate_iff.mpr ⟨by simp, fun b hb => ?_⟩
    obtain ⟨i, hi, rfl⟩ := List.mem_map.mp hb
    have hlt := List.mem_range.mp hi
    exact (testBit_mask (by omega)).mpr (by omega)
  · refine List.eq_replicate_iff.mpr ⟨by simp, fun b hb => ?_⟩
    obtain ⟨i, hi, rfl⟩ := List.mem_map.mp hb
    have hlt := List.mem_range.mp hi
    rw [Function.comp_apply, ← Bool.not_eq_true, testBit_mask (by omega)]
    omega

/-- The bits of the bytes of a mask. -/
theorem flatMap_bits_mask {k n : Nat} (hn : n ≤ 8 * k) :
    (Ipv6Addr.bytesOf k (BitVec.allOnes (8 * k) <<< (8 * k - n)).toNat).flatMap
        (fun b => (List.range 8).map fun i => b.toNat.testBit (7 - i)) = leadingOnes (8 * k) n := by
  have hlt : (BitVec.allOnes (8 * k) <<< (8 * k - n)).toNat < 256 ^ k := by
    have h := (BitVec.allOnes (8 * k) <<< (8 * k - n)).isLt
    rwa [Nat.pow_mul] at h
  rw [flatMap_bits, Ipv6Addr.length_bytesOf, Ipv6Addr.beNat_bytesOf, Nat.mod_eq_of_lt hlt]
  exact map_testBit_mask hn

/-- `Ipv4Addr::from` a number. -/
def Ipv4Addr.ofU32 (n : Nat) : Ipv4Addr :=
  ⟨⟨(Ipv6Addr.bytesOf 4 n).toArray, by rw [List.size_toArray, Ipv6Addr.length_bytesOf]⟩⟩

theorem Ipv4Addr.bits_mask {n : Nat} (hn : n ≤ 32) :
    (IpAddr.v4 (ofU32 (BitVec.allOnes 32 <<< (32 - n)).toNat)).bits = leadingOnes 32 n :=
  @flatMap_bits_mask 4 n hn

theorem Ipv6Addr.bits_mask {n : Nat} (hn : n ≤ 128) :
    (IpAddr.v6 (ofU128 (BitVec.allOnes 128 <<< (128 - n)).toNat)).bits = leadingOnes 128 n :=
  @flatMap_bits_mask 16 n hn

end RustStd
