import AceTun.Rule.Address
import AceTun.RustStd.Block

/-!
# IPv6 blocks

A pattern that spells a network and a prefix length (`SpellsCidr`) matches the addresses that have the first bits of the
network, for lengths up to 128, and nothing beyond (`matchIpv6Pattern_of_cidr`). The comparison under the mask and the
comparison with the ends of the block are the same, and the mask is never shifted out of range
(`matchIpv6Pattern_cidr_iff`).
-/

namespace AceTun

open RustStd

/-! ## The mask -/

theorem getLsbD_networkBits (n : Nat) (ip : Ipv6Addr) {i : Nat} (hi : i < 128) :
    (networkBits n ip).getLsbD i = if i < 128 - n then false else ip.toU128.testBit i := by
  unfold networkBits
  rw [BitVec.getLsbD_and, BitVec.getLsbD_ofNat, BitVec.getLsbD_shiftLeft, BitVec.getLsbD_allOnes]
  split
  · next hlow => simp [hlow]
  · next hhigh =>
    have hsub : i - (128 - n) < 128 := by omega
    simp [hi, hhigh, hsub]

/-- Under the mask, addresses are compared by their first bits. -/
theorem networkBits_eq_iff {a b : Ipv6Addr} {n : Nat} (hn : n ≤ 128) :
    networkBits n a = networkBits n b ↔ a.toU128 / 2 ^ (128 - n) = b.toU128 / 2 ^ (128 - n) := by
  rw [Ipv6Addr.div_two_pow_eq_iff a.toU128_lt b.toU128_lt hn]
  constructor
  · intro h i hi
    have hbit := congrArg (BitVec.getLsbD · (127 - i)) h
    rwa [getLsbD_networkBits n a (by omega), getLsbD_networkBits n b (by omega), if_neg (by omega),
      if_neg (by omega)] at hbit
  · intro h
    refine BitVec.eq_of_getLsbD_eq fun j hj => ?_
    rw [getLsbD_networkBits n a hj, getLsbD_networkBits n b hj]
    split
    · rfl
    · next hhigh =>
      have hbit := h (127 - j) (by omega)
      rwa [show 127 - (127 - j) = j by omega] at hbit

/-! ## The texts -/

/-- The text of a block: a spelling of the network, a slash, and a spelling of the prefix length. -/
def SpellsCidr (pattern : Str) (network : Ipv6Addr) (n : Nat) : Prop :=
  ∃ net len, pattern = net ++ '/' :: len ∧ '/' ∉ net ∧ parseIpv6Addr (trim net) = some network ∧ SpellsNat (trim len) n

/-- The text of a range: spellings of its ends with a hyphen between them. -/
def SpellsRange (pattern : Str) (first last : Ipv6Addr) : Prop :=
  ∃ start stop, pattern = start ++ '-' :: stop ∧ '-' ∉ start ∧ '/' ∉ start ++ '-' :: stop ∧
    parseIpv6Addr (trim start) = some first ∧ parseIpv6Addr (trim stop) = some last

theorem colon_mem_of_parse_trim {s : Str} {ip : Ipv6Addr} (h : parseIpv6Addr (trim s) = some ip) : ':' ∈ s := by
  obtain ⟨w, w', -, -, hs⟩ := exists_trim s
  rw [hs]
  simp [colon_mem_of_parseIpv6Addr h]

theorem trim_ipv6_toStr (ip : Ipv6Addr) : trim ip.toStr = ip.toStr :=
  trim_of_no_whitespace fun _ => Ipv6Addr.isWhitespace_toStr

theorem spellsCidr_toStr (network : Ipv6Addr) (n : Nat) : SpellsCidr (network.toStr ++ '/' :: showNat n) network n := by
  have htrim : trim (showNat n) = showNat n := by
    refine trim_of_no_whitespace fun c hc => ?_
    exact isWhitespace_of_isHex (isHex_of_isDigit (isDigit_of_mem_showNat hc))
  refine ⟨network.toStr, showNat n, rfl, Ipv6Addr.not_mem_toStr (by decide) (by decide) (by decide), ?_, ?_⟩
  · rw [trim_ipv6_toStr, parseIpv6Addr_toStr]
  · rw [htrim]
    exact spellsNat_showNat n

theorem spellsRange_toStr (first last : Ipv6Addr) : SpellsRange (first.toStr ++ '-' :: last.toStr) first last := by
  have hslash : ∀ ip : Ipv6Addr, '/' ∉ ip.toStr := fun ip =>
    Ipv6Addr.not_mem_toStr (by decide) (by decide) (by decide)
  refine ⟨first.toStr, last.toStr, rfl, Ipv6Addr.not_mem_toStr (by decide) (by decide) (by decide), ?_, ?_, ?_⟩
  · simp [hslash]
  · rw [trim_ipv6_toStr, parseIpv6Addr_toStr]
  · rw [trim_ipv6_toStr, parseIpv6Addr_toStr]

/-! ## Matching -/

section Match

variable {pattern : Str} {network first last : Ipv6Addr} {n : Nat}

/-- A pattern with a colon is not settled by the first two tests. -/
theorem matchIpv6Pattern_of_colon (h : ':' ∈ pattern) :
    (pattern == "*".toList) = false ∧ (!pattern.contains ':') = false := by
  refine ⟨beq_eq_false_iff_ne.mpr ?_, by simpa using h⟩
  rintro rfl
  exact absurd h (by decide)

theorem matchIpv6Pattern_of_cidr (h : SpellsCidr pattern network n) (x : Ipv6Addr) :
    matchIpv6Pattern pattern x = true ↔
      n ≤ 128 ∧ x.toU128 / 2 ^ (128 - n) = network.toU128 / 2 ^ (128 - n) := by
  obtain ⟨net, len, rfl, hslash, hnet, hlen⟩ := h
  have hcolon : ':' ∈ net ++ '/' :: len := List.mem_append_left _ (colon_mem_of_parse_trim hnet)
  obtain ⟨hstar, hcontains⟩ := matchIpv6Pattern_of_colon hcolon
  unfold matchIpv6Pattern
  rw [hstar, hcontains, splitOnce_append hslash]
  simp only [Bool.false_eq_true, if_false, hnet, parseUnsigned_of_spellsNat hlen]
  by_cases hle : n ≤ 128
  · rw [if_pos (show n < 2 ^ 32 by omega)]
    dsimp only
    rw [if_neg (by omega), and_iff_right hle]
    split
    · next h0 =>
      -- every number agrees with every other but for its last 128 bits
      rw [h0, Nat.sub_zero, Nat.div_eq_of_lt x.toU128_lt, Nat.div_eq_of_lt network.toU128_lt]
      simp
    · rw [beq_iff_eq, networkBits_eq_iff hle, eq_comm]
  · refine iff_of_false ?_ fun h => hle h.1
    by_cases hlt : n < 2 ^ 32
    · rw [if_pos hlt]
      dsimp only
      rw [if_pos (by omega)]
      exact Bool.false_ne_true
    · rw [if_neg hlt]
      exact Bool.false_ne_true

theorem matchIpv6Pattern_of_range (h : SpellsRange pattern first last) (x : Ipv6Addr) :
    matchIpv6Pattern pattern x = true ↔ first.toU128 ≤ x.toU128 ∧ x.toU128 ≤ last.toU128 := by
  obtain ⟨start, stop, rfl, hdash, hslash, hstart, hstop⟩ := h
  have hcolon : ':' ∈ start ++ '-' :: stop := List.mem_append_left _ (colon_mem_of_parse_trim hstart)
  obtain ⟨hstar, hcontains⟩ := matchIpv6Pattern_of_colon hcolon
  unfold matchIpv6Pattern
  rw [hstar, hcontains, splitOnce_eq_none hslash, splitOnce_append hdash]
  simp [hstart, hstop]

end Match

/-! ## The shift -/

/-- A subtraction that panics below zero. -/
def checkedSub (a b : Nat) : Option Nat := if b ≤ a then some (a - b) else none

/-- A shift that panics where it would lose every bit. -/
def checkedShl {w : Nat} (x : BitVec w) (n : Nat) : Option (BitVec w) := if n < w then some (x <<< n) else none

/-- `match_ipv6_pattern` with its arithmetic checked: only a block has any. -/
def matchIpv6PatternChecked (pattern : Str) (ip : Ipv6Addr) : Option Bool :=
  if pattern == "*".toList then some true
  else if !pattern.contains ':' then some false
  else
    match splitOnce '/' pattern with
    | some (net, len) =>
      match parseIpv6Addr (trim net), parseUnsigned 32 (trim len) with
      | some network, some prefixLen =>
        if prefixLen > 128 then some false
        else if prefixLen = 0 then some true
        else do
          let amount ← checkedSub 128 prefixLen
          let mask ← checkedShl (BitVec.allOnes 128) amount
          some (BitVec.ofNat 128 network.toU128 &&& mask == BitVec.ofNat 128 ip.toU128 &&& mask)
      | _, _ => some false
    | none => some (matchIpv6Pattern pattern ip)

theorem matchIpv6PatternChecked_eq (pattern : Str) (ip : Ipv6Addr) :
    matchIpv6PatternChecked pattern ip = some (matchIpv6Pattern pattern ip) := by
  unfold matchIpv6PatternChecked
  split
  · next hstar => rw [matchIpv6Pattern, if_pos hstar]
  · next hstar =>
    split
    · next hcolon => rw [matchIpv6Pattern, if_neg hstar, if_pos hcolon]
    · next hcolon =>
      rcases hsplit : splitOnce '/' pattern with _ | ⟨net, len⟩
      · rfl
      rw [matchIpv6Pattern, if_neg hstar, if_neg hcolon, hsplit]
      dsimp only
      rcases parseIpv6Addr (trim net) with _ | network
      · rfl
      rcases parseUnsigned 32 (trim len) with _ | prefixLen
      · rfl
      dsimp only
      by_cases hbig : prefixLen > 128
      · rw [if_pos hbig, if_pos hbig]
      · rw [if_neg hbig, if_neg hbig]
        by_cases h0 : prefixLen = 0
        · rw [if_pos h0, if_pos h0]
        · rw [if_neg h0, if_neg h0, checkedSub, if_pos (by omega)]
          simp only [Option.bind_eq_bind, Option.bind_some]
          rw [checkedShl, if_pos (by omega)]
          rfl

/-- **A block matches exactly its addresses**: whatever spells the network and the length, a length up to 128 matches the
addresses that agree with the network on so many bits, as the range from the first to the last address of the block
does; a greater length matches nothing; and no shift is out of range. The printed texts are spellings. -/
theorem matchIpv6Pattern_cidr_iff (network x : Ipv6Addr) (n : Nat) :
    (n ≤ 128 → ∀ cidr range, SpellsCidr cidr network n →
      SpellsRange range (network.blockFirst n) (network.blockLast n) →
      (matchIpv6Pattern cidr x = true ↔ (IpAddr.v6 x).bits.take n = (IpAddr.v6 network).bits.take n) ∧
        (matchIpv6Pattern cidr x = true ↔ matchIpv6Pattern range x = true)) ∧
    (128 < n → ∀ cidr, SpellsCidr cidr network n → matchIpv6Pattern cidr x = false) ∧
    (∀ pattern, matchIpv6PatternChecked pattern x = some (matchIpv6Pattern pattern x)) ∧
    SpellsCidr (network.toStr ++ '/' :: showNat n) network n ∧
    SpellsRange ((network.blockFirst n).toStr ++ '-' :: (network.blockLast n).toStr) (network.blockFirst n)
      (network.blockLast n) := by
  refine ⟨fun hn cidr range hcidr hrange => ⟨?_, ?_⟩, fun hn cidr hcidr => ?_,
    fun pattern => matchIpv6PatternChecked_eq pattern x, spellsCidr_toStr network n, spellsRange_toStr _ _⟩
  · rw [matchIpv6Pattern_of_cidr hcidr, Ipv6Addr.take_bits_eq_iff hn]
    exact and_iff_right hn
  · rw [matchIpv6Pattern_of_cidr hcidr, matchIpv6Pattern_of_range hrange, Ipv6Addr.between_block_iff hn]
    exact and_iff_right hn
  · rw [← Bool.not_eq_true, matchIpv6Pattern_of_cidr hcidr]
    omega

end AceTun
