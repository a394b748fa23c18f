import AceTun.RustStd.Decimal

/-!
# What the parser of IPv6 addresses reads

The printed form of an address is read back, whatever may follow an address (`readIpv6Addr_toStr`). A group is read to
the end of its digits (`readNumber_showHex`), groups are read until the text stops being one (`readGroups_fmtSubslice`),
and the run of zeros that is left out of the printed form is put back (`zeroSpan_zeros`).
-/

namespace RustStd

/-! ## Groups in hexadecimal -/

def isHex (c : Char) : Bool := (toDigit 16 c).isSome

theorem toDigit_digitChar {n : Nat} (h : n < 16) : toDigit 16 n.digitChar = some n := by
  have hall : ∀ n < 16, toDigit 16 n.digitChar = some n := by decide
  exact hall n h

/-- What holds of one digit, and of a number if it does of the number without its last digit, holds of every number. -/
theorem showHex_induction {motive : Nat → Str → Prop} (digit : ∀ d < 16, motive d [d.digitChar])
    (more : ∀ n s d, motive n s → d < 16 → motive (16 * n + d) (s ++ [d.digitChar])) (n : Nat) :
    motive n (Ipv6Addr.showHex n) := by
  unfold Ipv6Addr.showHex
  induction n using Nat.strongRecOn with
  | ind n ih =>
    by_cases hn : n < 16
    · rw [Nat.toDigits_of_lt_base hn]
      exact digit n hn
    · have hstep := more (n / 16) _ (n % 16) (ih (n / 16) (by omega)) (by omega)
      rw [Nat.div_add_mod] at hstep
      rw [Nat.toDigits_of_base_le (by decide) (by omega)]
      exact hstep

theorem isHex_digitChar {d : Nat} (h : d < 16) : isHex d.digitChar = true := by
  rw [isHex, toDigit_digitChar h]
  rfl

theorem isHex_of_mem_showHex {n : Nat} {c : Char} (h : c ∈ Ipv6Addr.showHex n) : isHex c = true := by
  revert c
  refine showHex_induction (motive := fun _ s => ∀ {c}, c ∈ s → isHex c = true) (fun d hd c hc => ?_)
    (fun n s d ih hd c hc => ?_) n
  · rw [List.mem_singleton.mp hc]
    exact isHex_digitChar hd
  · rcases List.mem_append.mp hc with hc | hc
    · exact ih hc
    · rw [List.mem_singleton.mp hc]
      exact isHex_digitChar hd

theorem digitsValue_append_singleton (radix : Nat) (s : Str) (c : Char) :
    digitsValue radix (s ++ [c]) = radix * digitsValue radix s + (toDigit radix c).getD 0 := by
  rw [digitsValue, List.foldl_append]
  rfl

theorem digitsValue_showHex (n : Nat) : digitsValue 16 (Ipv6Addr.showHex n) = n := by
  refine showHex_induction (motive := fun n s => digitsValue 16 s = n) (fun d hd => ?_) (fun n s d ih hd => ?_) n
  · rw [← List.nil_append [_], digitsValue_append_singleton, toDigit_digitChar hd]
    exact Nat.zero_add d
  · rw [digitsValue_append_singleton, ih, toDigit_digitChar hd]
    rfl

/-- What may follow a group: the end, or something that neither goes on as a number nor makes the group the first part
of an IPv4 address. -/
def EndsGroup (rest : Str) : Prop := ∀ c ∈ rest.head?, isHex c = false ∧ c ≠ '.'

theorem takeWhile_isHex {digits rest : Str} (hd : ∀ c ∈ digits, isHex c = true) (hrest : EndsGroup rest) :
    (digits ++ rest).takeWhile isHex = digits :=
  takeWhile_append_of_stop hd fun c hc => (hrest c hc).1

theorem readNumber_showHex {n : Nat} (hn : n < 65536) {rest : Str} (hrest : EndsGroup rest) :
    readNumber 16 4 true 65536 (Ipv6Addr.showHex n ++ rest) = some (n, rest) := by
  have hlen : (Ipv6Addr.showHex n).length ≤ 4 :=
    (Nat.length_toDigits_le_iff (by decide) (by decide)).mpr (by omega)
  have hne : Ipv6Addr.showHex n ≠ [] := Nat.toDigits_ne_nil
  have htake : (Ipv6Addr.showHex n ++ rest).takeWhile (fun c => (toDigit 16 c).isSome) = Ipv6Addr.showHex n :=
    takeWhile_isHex (fun c => isHex_of_mem_showHex) hrest
  unfold readNumber
  dsimp only
  rw [htake, if_neg (by omega), if_neg hne, if_neg (by simp), digitsValue_showHex, if_pos hn, List.drop_left]

theorem isHex_of_isDigit {c : Char} (h : c.isDigit = true) : isHex c = true := by
  obtain ⟨h1, h2⟩ := isDigit_iff.mp h
  rw [isHex, toDigit, if_pos ⟨h1, h2⟩, Option.filter_some, if_pos (by simpa using (by omega : c.toNat - 48 < 16))]
  rfl

/-- A group is not the beginning of an IPv4 address. -/
theorem readIpv4Addr_group {digits rest : Str} (hd : ∀ c ∈ digits, isHex c = true) (hrest : EndsGroup rest) :
    readIpv4Addr (digits ++ rest) = none := by
  rcases hread : readIpv4Addr (digits ++ rest) with _ | ⟨ip, t⟩
  · rfl
  · obtain ⟨heq, -⟩ := readIpv4Addr_iff.mp hread
    obtain ⟨a, b, c, d, rfl⟩ := ip.exists_new
    rw [Ipv4Addr.toStr_new, List.append_assoc, List.cons_append] at heq
    -- the digits end at the first dot, where the group ends
    have hdigits : digits = showNat a.toNat := by
      rw [← takeWhile_isHex hd hrest, heq]
      refine takeWhile_append_of_stop (fun c hc => isHex_of_isDigit (isDigit_of_mem_showNat hc)) ?_
      rintro c ⟨⟩
      rfl
    rw [hdigits, List.append_cancel_left_eq] at heq
    rw [heq] at hrest
    exact absurd rfl (hrest '.' rfl).2

/-! ## Reading groups -/

/-- What may follow the groups of an address: no further group. -/
def EndsGroups (rest : Str) : Prop := EndsGroup rest ∧ ∀ t, rest = ':' :: t → EndsGroup t

theorem endsGroup_colon (s : Str) : EndsGroup (':' :: s) := by
  rintro c ⟨⟩
  exact ⟨by decide, by decide⟩

/-- The groups after the first, each behind a colon. -/
def moreGroups (gs : List Nat) : Str := (gs.map Ipv6Addr.showHex).flatMap (':' :: ·)

theorem fmtSubslice_cons (g : Nat) (gs : List Nat) :
    Ipv6Addr.fmtSubslice (g :: gs) = Ipv6Addr.showHex g ++ moreGroups gs :=
  intercalate_singleton_cons ':' _ _

/-- Where no digit comes, no group is read. -/
theorem readNumber_endsGroup {s : Str} (h : EndsGroup s) : readNumber 16 4 true 65536 s = none := by
  have htake : s.takeWhile (fun c => (toDigit 16 c).isSome) = [] :=
    @takeWhile_isHex [] s (fun c hc => by cases hc) h
  unfold readNumber
  dsimp only
  rw [htake, if_neg (by decide), if_pos rfl]

theorem readIpv4Addr_endsGroup {s : Str} (h : EndsGroup s) : readIpv4Addr s = none :=
  @readIpv4Addr_group [] s (fun c hc => by cases hc) h

section Groups

variable {left i g : Nat} {gs : List Nat} {s t rest : Str}

theorem readGroups_step (h4 : readSeparator ':' i readIpv4Addr s = none)
    (hg : readSeparator ':' i (readNumber 16 4 true 65536) s = some (g, t)) :
    readGroups (left + 1) i s =
      (g :: (readGroups left (i + 1) t).1, (readGroups left (i + 1) t).2.1, (readGroups left (i + 1) t).2.2) := by
  rw [readGroups, h4, ite_self, hg]

theorem readGroups_stop (h4 : readSeparator ':' i readIpv4Addr s = none)
    (hg : readSeparator ':' i (readNumber 16 4 true 65536) s = none) : readGroups left i s = ([], false, s) := by
  cases left with
  | zero => rfl
  | succ left => rw [readGroups, h4, ite_self, hg]

theorem readSeparator_colon {α : Type} (inner : Str → Option (α × Str)) (i : Nat) (s : Str) :
    readSeparator ':' (i + 1) inner (':' :: s) = inner s := rfl

/-- After a first group, nothing is read where the groups end. -/
theorem readSeparator_endsGroups {α : Type} {inner : Str → Option (α × Str)} (hinner : ∀ s, EndsGroup s → inner s = none)
    (hrest : EndsGroups rest) : readSeparator ':' (i + 1) inner rest = none := by
  cases rest with
  | nil => rfl
  | cons c t =>
    by_cases hc : c = ':'
    · subst hc
      rw [readSeparator_colon]
      exact hinner t (hrest.2 t rfl)
    · rw [readSeparator, if_pos (Nat.succ_pos i), readGivenChar, if_neg hc, Option.bind_none]

theorem endsGroup_moreGroups (gs : List Nat) (hrest : EndsGroups rest) : EndsGroup (moreGroups gs ++ rest) := by
  cases gs with
  | nil => exact hrest.1
  | cons g gs => exact endsGroup_colon _

theorem readGroups_moreGroups (hgs : ∀ g ∈ gs, g < 65536) (hrest : EndsGroups rest) (hleft : gs.length ≤ left) :
    readGroups left (i + 1) (moreGroups gs ++ rest) = (gs, false, rest) := by
  induction gs generalizing left i with
  | nil =>
    exact readGroups_stop (readSeparator_endsGroups (fun _ => readIpv4Addr_endsGroup) hrest)
      (readSeparator_endsGroups (fun _ => readNumber_endsGroup) hrest)
  | cons g gs ih =>
    obtain ⟨left, rfl⟩ : ∃ l, left = l + 1 := ⟨left - 1, by rw [List.length_cons] at hleft; omega⟩
    have hends := endsGroup_moreGroups gs hrest
    have htext : moreGroups (g :: gs) ++ rest = ':' :: (Ipv6Addr.showHex g ++ (moreGroups gs ++ rest)) := by
      simp [moreGroups]
    have hrec := ih (fun g' hg' => hgs g' (List.mem_cons_of_mem g hg')) (Nat.le_of_succ_le_succ hleft) (i := i + 1)
    rw [htext, readGroups_step (t := moreGroups gs ++ rest) (g := g)]
    · rw [hrec]
    · rw [readSeparator_colon]
      exact readIpv4Addr_group (fun c => isHex_of_mem_showHex) hends
    · rw [readSeparator_colon]
      exact readNumber_showHex (hgs g List.mem_cons_self) hends

/-- Groups are read back. -/
theorem readGroups_fmtSubslice (hgs : ∀ g ∈ gs, g < 65536) (hrest : EndsGroups rest) (hleft : gs.length ≤ left) :
    readGroups left 0 (Ipv6Addr.fmtSubslice gs ++ rest) = (gs, false, rest) := by
  cases gs with
  | nil => exact readGroups_stop (readIpv4Addr_endsGroup hrest.1) (readNumber_endsGroup hrest.1)
  | cons g gs =>
    obtain ⟨left, rfl⟩ : ∃ l, left = l + 1 := ⟨left - 1, by rw [List.length_cons] at hleft; omega⟩
    have hends := endsGroup_moreGroups gs hrest
    have hmore := readGroups_moreGroups (i := 0) (fun g' hg' => hgs g' (List.mem_cons_of_mem g hg')) hrest
      (Nat.le_of_succ_le_succ hleft)
    rw [fmtSubslice_cons, List.append_assoc, readGroups_step (t := moreGroups gs ++ rest) (g := g), hmore]
    · exact readIpv4Addr_group (fun c => isHex_of_mem_showHex) hends
    · exact readNumber_showHex (hgs g List.mem_cons_self) hends

end Groups

/-! ## The zeros that are left out -/

/-- The span is a run of zero groups. -/
def ZeroRun (gs : List Nat) (span : Nat × Nat) : Prop := ∀ k < span.2, gs[span.1 + k]? = some 0

/-- The run that goes on or begins with one more zero. -/
theorem ZeroRun.extend {gs : List Nat} {i : Nat} {current : Nat × Nat} (hc : ZeroRun gs current)
    (hend : current.2 = 0 ∨ current.1 + current.2 = i) (h0 : gs[i]? = some 0) :
    ZeroRun gs (if current.2 = 0 then i else current.1, current.2 + 1) := by
  intro k hk
  dsimp only at hk ⊢
  by_cases hlast : k = current.2
  · have hpos : (if current.2 = 0 then i else current.1) + k = i := by
      split <;> omega
    rw [hpos, h0]
  · rw [if_neg (by omega)]
    exact hc k (by omega)

/-- The longest run of zeros is one: `done` are the groups that the loop has passed. -/
theorem zeroSpan_zeros {all done gs : List Nat} {longest current : Nat × Nat} (hall : all = done ++ gs)
    (hl : ZeroRun all longest) (hc : ZeroRun all current)
    (hend : current.2 = 0 ∨ current.1 + current.2 = done.length) :
    ZeroRun all (Ipv6Addr.zeroSpan done.length gs longest current) := by
  induction gs generalizing done longest current with
  | nil => exact hl
  | cons g gs ih =>
    have hall' : all = (done ++ [g]) ++ gs := by rw [hall, List.append_assoc]; rfl
    have hlen : (done ++ [g]).length = done.length + 1 := by rw [List.length_append]; rfl
    rw [Ipv6Addr.zeroSpan, ← hlen]
    split
    · next h0 =>
      have hgo := hc.extend hend (by rw [hall, List.getElem?_append_right (Nat.le_refl _), Nat.sub_self, h0]; rfl)
      have hend' : (if current.2 = 0 then done.length else current.1) + (current.2 + 1) = (done ++ [g]).length := by
        rw [hlen]
        split <;> omega
      extract_lets current'
      refine ih hall' ?_ hgo (.inr hend')
      by_cases hlonger : current'.2 > longest.2
      · rw [if_pos hlonger]
        exact hgo
      · rw [if_neg hlonger]
        exact hl
    · exact ih hall' hl (fun k hk => absurd hk (Nat.not_lt_zero k)) (.inl rfl)

theorem ZeroRun.le_length {gs : List Nat} {span : Nat × Nat} (h : ZeroRun gs span) (hpos : 0 < span.2) :
    span.1 + span.2 ≤ gs.length := by
  have hlast := (List.getElem?_eq_some_iff.mp (h (span.2 - 1) (by omega))).1
  omega

/-- The groups around a run, with the zeros between them. -/
theorem ZeroRun.split {gs : List Nat} {span : Nat × Nat} (h : ZeroRun gs span) (hpos : 0 < span.2) :
    gs.take span.1 ++ List.replicate span.2 0 ++ gs.drop (span.1 + span.2) = gs := by
  have hle := h.le_length hpos
  have hrun : (gs.drop span.1).take span.2 = List.replicate span.2 0 := by
    refine List.ext_getElem? fun k => ?_
    rw [List.getElem?_take, List.getElem?_drop, List.getElem?_replicate]
    split
    · next hk => exact h k hk
    · rfl
  rw [← hrun, List.append_assoc, ← List.drop_drop, List.take_append_drop, List.take_append_drop]

/-! ## The printed form -/

theorem Ipv6Addr.length_segments (ip : Ipv6Addr) : ip.segments.length = 8 := by simp [segments]

theorem Ipv6Addr.segments_lt (ip : Ipv6Addr) : ∀ g ∈ ip.segments, g < 65536 := by
  intro g hg
  obtain ⟨i, -, rfl⟩ := List.mem_map.mp hg
  have hlt := beNat_lt ((ip.octets.toList.drop (2 * i)).take 2)
  have hlen : ((ip.octets.toList.drop (2 * i)).take 2).length ≤ 2 := List.length_take_le _ _
  exact Nat.lt_of_lt_of_le hlt (Nat.pow_le_pow_right (by decide) hlen)

theorem toBeBytes_pair (a b : UInt8) : toBeBytes (UInt16.ofNat (beNat [a, b])) = [a, b] := by
  have ha := a.toNat_lt
  have hb := b.toNat_lt
  have hvalue : beNat [a, b] = a.toNat * 256 + b.toNat := by simp [beNat]
  have hhi : (a.toNat * 256 + b.toNat) / 256 = a.toNat := by omega
  have hlo : (a.toNat * 256 + b.toNat) % 256 = b.toNat := by omega
  rw [hvalue, toBeBytes, UInt16.toNat_ofNat', Nat.mod_eq_of_lt (by omega), hhi, hlo, UInt8.ofNat_toNat, UInt8.ofNat_toNat]

/-- The groups are the octets taken in pairs. -/
theorem Ipv6Addr.exists_octets (ip : Ipv6Addr) : ∃ a0 a1 b0 b1 c0 c1 d0 d1 e0 e1 f0 f1 g0 g1 h0 h1,
    ip.octets.toList = [a0, a1, b0, b1, c0, c1, d0, d1, e0, e1, f0, f1, g0, g1, h0, h1] ∧
    ip.segments = [beNat [a0, a1], beNat [b0, b1], beNat [c0, c1], beNat [d0, d1], beNat [e0, e1], beNat [f0, f1],
      beNat [g0, g1], beNat [h0, h1]] := by
  obtain ⟨⟨⟨octets⟩, h⟩⟩ := ip
  match octets, h with
  | [a0, a1, b0, b1, c0, c1, d0, d1, e0, e1, f0, f1, g0, g1, h0, h1], _ =>
    exact ⟨a0, a1, b0, b1, c0, c1, d0, d1, e0, e1, f0, f1, g0, g1, h0, h1, rfl, rfl⟩

/-- An address is made of its groups. -/
theorem Ipv6Addr.ofGroups_segments (ip : Ipv6Addr) : ofGroups ip.segments = ip := by
  obtain ⟨a0, a1, b0, b1, c0, c1, d0, d1, e0, e1, f0, f1, g0, g1, h0, h1, hoctets, hsegments⟩ := ip.exists_octets
  rw [← octets_toList_inj, hoctets, hsegments]
  simp [ofGroups, new, toBeBytes_pair]

section Printed

variable {rest : Str}

theorem endsGroups_nil : EndsGroups [] := by
  refine ⟨?_, ?_⟩
  · rintro c ⟨⟩
  · rintro t ⟨⟩

theorem endsGroups_double_colon (s : Str) : EndsGroups (':' :: ':' :: s) := by
  refine ⟨endsGroup_colon _, ?_⟩
  rintro t ⟨⟩
  exact endsGroup_colon s

/-- Groups on both sides of the double colon are read with zeros between them. -/
theorem readIpv6Addr_double_colon {head tail : List Nat} {s : Str} {ipv4 : Bool} (hhead : ∀ g ∈ head, g < 65536)
    (hlen : head.length < 8) (htail : readGroups (8 - (head.length + 1)) 0 s = (tail, ipv4, rest)) :
    readIpv6Addr (Ipv6Addr.fmtSubslice head ++ ':' :: ':' :: s) =
      some (Ipv6Addr.ofGroups (head ++ List.replicate (8 - head.length - tail.length) 0 ++ tail), rest) := by
  unfold readIpv6Addr
  rw [readGroups_fmtSubslice hhead (endsGroups_double_colon s) (Nat.le_of_lt hlen)]
  dsimp only
  rw [if_neg (by omega), if_neg Bool.false_ne_true]
  simp only [readGivenChar, if_true, Option.bind_eq_bind, Option.bind_some, htail]

/-- The form with dots is read. -/
theorem readGroups_mapped (v4 : Ipv4Addr) (hrest : EndsGroups rest) :
    readGroups 7 0 ("ffff:".toList ++ v4.toStr ++ rest) =
      ([65535, beNat (v4.octets.toList.take 2), beNat (v4.octets.toList.drop 2)], true, rest) := by
  have hffff : "ffff:".toList ++ v4.toStr ++ rest = Ipv6Addr.showHex 65535 ++ ':' :: (v4.toStr ++ rest) := rfl
  have hv4 : readIpv4Addr (v4.toStr ++ rest) = some (v4, rest) := by
    refine readIpv4Addr_iff.mpr ⟨rfl, fun c hc => ?_⟩
    by_contra hdigit
    have hhex := isHex_of_isDigit (by simpa using hdigit)
    rw [(hrest.1 c hc).1] at hhex
    cases hhex
  have hmore : readGroups 6 1 (':' :: (v4.toStr ++ rest)) =
      ([beNat (v4.octets.toList.take 2), beNat (v4.octets.toList.drop 2)], true, rest) := by
    rw [readGroups, if_pos (by decide), readSeparator_colon, hv4]
  rw [hffff, readGroups_step (t := ':' :: (v4.toStr ++ rest)) (g := 65535), hmore]
  · exact readIpv4Addr_group (fun c => isHex_of_mem_showHex) (endsGroup_colon _)
  · exact readNumber_showHex (n := 65535) (by decide) (endsGroup_colon _)

theorem Ipv6Addr.segments_mapped {ip : Ipv6Addr} {v4 : Ipv4Addr} (h : ip.toIpv4Mapped = some v4) :
    ip.segments =
      List.replicate 5 0 ++ [65535, beNat (v4.octets.toList.take 2), beNat (v4.octets.toList.drop 2)] := by
  obtain ⟨a0, a1, b0, b1, c0, c1, d0, d1, e0, e1, f0, f1, g0, g1, h0, h1, hoctets, hsegments⟩ := ip.exists_octets
  unfold toIpv4Mapped at h
  split at h
  · next htake =>
    rw [hoctets] at htake
    simp only [List.take_succ_cons, List.take_zero, List.cons.injEq, and_true] at htake
    obtain ⟨rfl, rfl, rfl, rfl, rfl, rfl, rfl, rfl, rfl, rfl, rfl, rfl⟩ := htake
    have hzero : beNat [0, 0] = 0 := by decide
    have hones : beNat [255, 255] = 65535 := by decide
    have hget : ∀ i (hi : i < 16), ip.octets.toList[i]? = some ip.octets[i] := by
      intro i hi
      simp [hi]
    simp only [hoctets] at hget
    have h12 : g0 = ip.octets[12] := Option.some.inj (hget 12 (by decide))
    have h13 : g1 = ip.octets[13] := Option.some.inj (hget 13 (by decide))
    have h14 : h0 = ip.octets[14] := Option.some.inj (hget 14 (by decide))
    have h15 : h1 = ip.octets[15] := Option.some.inj (hget 15 (by decide))
    cases h
    rw [hsegments, hzero, hones, ← h12, ← h13, ← h14, ← h15]
    rfl
  · cases h

/-- **The printed form of an address is read back.** -/
theorem readIpv6Addr_toStr (ip : Ipv6Addr) (hrest : EndsGroups rest) :
    readIpv6Addr (ip.toStr ++ rest) = some (ip, rest) := by
  unfold Ipv6Addr.toStr
  split
  · next v4 hv4 =>
    have htext : "::ffff:".toList ++ v4.toStr ++ rest =
        Ipv6Addr.fmtSubslice [] ++ ':' :: ':' :: ("ffff:".toList ++ v4.toStr ++ rest) := rfl
    rw [htext, @readIpv6Addr_double_colon rest [] _ _ _ (fun g hg => by cases hg) (by decide)
      (readGroups_mapped v4 hrest)]
    rw [List.nil_append, List.length_nil, List.length_cons, List.length_cons, List.length_cons, List.length_nil,
      ← Ipv6Addr.segments_mapped hv4, Ipv6Addr.ofGroups_segments]
  · have hlt := ip.segments_lt
    have hlen := ip.length_segments
    have hzeros : ZeroRun ip.segments (Ipv6Addr.zeroSpan 0 ip.segments (0, 0) (0, 0)) :=
      @zeroSpan_zeros _ [] _ _ _ rfl (fun k hk => absurd hk (Nat.not_lt_zero k))
        (fun k hk => absurd hk (Nat.not_lt_zero k)) (.inl rfl)
    extract_lets zeroes
    split
    · next hlong =>
      have hle : zeroes.1 + zeroes.2 ≤ ip.segments.length := hzeros.le_length (Nat.lt_of_succ_lt hlong)
      have htext : Ipv6Addr.fmtSubslice (ip.segments.take zeroes.1) ++ "::".toList ++
          Ipv6Addr.fmtSubslice (ip.segments.drop (zeroes.1 + zeroes.2)) ++ rest =
          Ipv6Addr.fmtSubslice (ip.segments.take zeroes.1) ++
            ':' :: ':' :: (Ipv6Addr.fmtSubslice (ip.segments.drop (zeroes.1 + zeroes.2)) ++ rest) := by
        simp
      have hhead : (ip.segments.take zeroes.1).length = zeroes.1 := List.length_take_of_le (by omega)
      have htail : (ip.segments.drop (zeroes.1 + zeroes.2)).length = 8 - (zeroes.1 + zeroes.2) := by
        rw [List.length_drop, hlen]
      rw [htext, readIpv6Addr_double_colon (fun g hg => hlt g (List.mem_of_mem_take hg)) (by omega)
        (readGroups_fmtSubslice (fun g hg => hlt g (List.mem_of_mem_drop hg)) hrest (by omega)), hhead, htail]
      have hrun : 8 - zeroes.1 - (8 - (zeroes.1 + zeroes.2)) = zeroes.2 := by omega
      rw [hrun, hzeros.split (Nat.lt_of_succ_lt hlong), Ipv6Addr.ofGroups_segments]
    · unfold readIpv6Addr
      rw [readGroups_fmtSubslice hlt hrest (by omega)]
      dsimp only
      rw [if_pos hlen, Ipv6Addr.ofGroups_segments]

theorem parseIpv6Addr_toStr (ip : Ipv6Addr) : parseIpv6Addr ip.toStr = some ip := by
  have hread : readIpv6Addr ip.toStr = some (ip, []) := by
    have h := readIpv6Addr_toStr ip endsGroups_nil
    rwa [List.append_nil] at h
  rw [parseIpv6Addr, hread]

end Printed

/-! ## The characters of an address -/

theorem isHex_range {c : Char} (h : isHex c = true) :
    48 ≤ c.toNat ∧ c.toNat ≤ 57 ∨ 97 ≤ c.toNat ∧ c.toNat ≤ 102 ∨ 65 ≤ c.toNat ∧ c.toNat ≤ 70 := by
  unfold isHex toDigit at h
  dsimp only at h
  split at h
  · next h0 => exact .inl h0
  · split at h
    · next h1 => exact .inr (.inl h1)
    · split at h
      · next h2 => exact .inr (.inr h2)
      · cases h

theorem isWhitespace_of_isHex {c : Char} (h : isHex c = true) : isWhitespace c = false := by
  have hrange := isHex_range h
  simp only [isWhitespace, Bool.or_eq_false_iff, Bool.and_eq_false_iff, beq_eq_false_iff_ne, decide_eq_false_iff_not]
  omega

theorem Ipv4Addr.mem_toStr {ip : Ipv4Addr} {c : Char} (h : c ∈ ip.toStr) : c.isDigit = true ∨ c = '.' := by
  obtain ⟨a, b, c', d, rfl⟩ := ip.exists_new
  simp only [toStr_new, List.mem_append, List.mem_cons] at h
  rcases h with h | rfl | h | rfl | h | rfl | h
  · exact .inl (isDigit_of_mem_showNat h)
  · exact .inr rfl
  · exact .inl (isDigit_of_mem_showNat h)
  · exact .inr rfl
  · exact .inl (isDigit_of_mem_showNat h)
  · exact .inr rfl
  · exact .inl (isDigit_of_mem_showNat h)

theorem mem_fmtSubslice {gs : List Nat} {c : Char} (h : c ∈ Ipv6Addr.fmtSubslice gs) : isHex c = true ∨ c = ':' := by
  cases gs with
  | nil => cases h
  | cons g gs =>
    rw [fmtSubslice_cons, List.mem_append, moreGroups, List.mem_flatMap] at h
    rcases h with h | ⟨s, hs, h⟩
    · exact .inl (isHex_of_mem_showHex h)
    · obtain ⟨g', -, rfl⟩ := List.mem_map.mp hs
      rcases List.mem_cons.mp h with rfl | h
      · exact .inr rfl
      · exact .inl (isHex_of_mem_showHex h)

theorem Ipv6Addr.mem_toStr {ip : Ipv6Addr} {c : Char} (h : c ∈ ip.toStr) : isHex c = true ∨ c = ':' ∨ c = '.' := by
  unfold toStr at h
  split at h
  · next v4 _ =>
    rcases List.mem_append.mp h with h | h
    · have hall : "::ffff:".toList.all (fun c => isHex c || c == ':') = true := by decide
      have hc := List.all_eq_true.mp hall c h
      rw [Bool.or_eq_true, beq_iff_eq] at hc
      exact hc.imp id .inl
    · exact (Ipv4Addr.mem_toStr h).imp isHex_of_isDigit .inr
  · dsimp only at h
    split at h
    · rcases List.mem_append.mp h with h | h
      · rcases List.mem_append.mp h with h | h
        · exact (mem_fmtSubslice h).imp id .inl
        · have hc : c = ':' := by simpa using h
          exact .inr (.inl hc)
      · exact (mem_fmtSubslice h).imp id .inl
    · exact (mem_fmtSubslice h).imp id .inl

theorem Ipv6Addr.not_mem_toStr {ip : Ipv6Addr} {c : Char} (hc : isHex c = false) (hcolon : c ≠ ':') (hdot : c ≠ '.') :
    c ∉ ip.toStr := by
  intro h
  rcases Ipv6Addr.mem_toStr h with h | h | h
  · rw [hc] at h
    cases h
  · exact hcolon h
  · exact hdot h

theorem Ipv6Addr.isWhitespace_toStr {ip : Ipv6Addr} {c : Char} (h : c ∈ ip.toStr) : isWhitespace c = false := by
  rcases mem_toStr h with h | rfl | rfl
  · exact isWhitespace_of_isHex h
  · rfl
  · rfl

theorem readGivenChar_eq_none {c : Char} {s : Str} (h : c ∉ s) : readGivenChar c s = none := by
  cases s with
  | nil => rfl
  | cons d s =>
    refine if_neg fun hd => h ?_
    rw [← hd]
    exact List.mem_cons_self

/-- What is left of a text after a number is what follows its digits. -/
theorem readNumber_rest {radix maxDigits bound n : Nat} {zero : Bool} {s t : Str}
    (h : readNumber radix maxDigits zero bound s = some (n, t)) :
    t = s.drop (s.takeWhile fun c => (toDigit radix c).isSome).length := by
  unfold readNumber at h
  dsimp only at h
  obtain ⟨-, h⟩ := Option.ite_none_left_eq_some.mp h
  obtain ⟨-, h⟩ := Option.ite_none_left_eq_some.mp h
  obtain ⟨-, h⟩ := Option.ite_none_left_eq_some.mp h
  obtain ⟨-, h⟩ := Option.ite_none_right_eq_some.mp h
  exact (Prod.mk.inj (Option.some.inj h)).2.symm

/-- Without a colon there is at most one group, or an IPv4 address. -/
theorem readGroups_no_colon {s : Str} (h : ':' ∉ s) :
    (∃ g g' t, readGroups 8 0 s = ([g, g'], true, t)) ∨
      ∃ head t, readGroups 8 0 s = (head, false, t) ∧ head.length ≤ 1 ∧ ':' ∉ t := by
  rw [readGroups]
  split
  · exact .inl ⟨_, _, _, rfl⟩
  · split
    · exact .inr ⟨[], s, rfl, Nat.zero_le 1, h⟩
    · next g t hread =>
      have ht : ':' ∉ t := by
        rw [readNumber_rest hread]
        exact fun hc => h (List.mem_of_mem_drop hc)
      have hsep : ∀ {α : Type} (inner : Str → Option (α × Str)), readSeparator ':' 1 inner t = none := by
        intro α inner
        rw [readSeparator, if_pos Nat.one_pos, readGivenChar_eq_none ht, Option.bind_none]
      rw [readGroups_stop (hsep _) (hsep _)]
      exact .inr ⟨[g], t, rfl, Nat.le_refl 1, ht⟩

/-- A text without a colon is no address. -/
theorem readIpv6Addr_eq_none {s : Str} (h : ':' ∉ s) : readIpv6Addr s = none := by
  unfold readIpv6Addr
  rcases readGroups_no_colon h with ⟨g, g', t, hread⟩ | ⟨head, t, hread, hlen, ht⟩
  · rw [hread]
    rfl
  · rw [hread]
    dsimp only
    rw [if_neg (by omega), if_neg Bool.false_ne_true, readGivenChar_eq_none ht]
    rfl

theorem colon_mem_of_parseIpv6Addr {s : Str} {ip : Ipv6Addr} (h : parseIpv6Addr s = some ip) : ':' ∈ s := by
  by_contra hno
  rw [parseIpv6Addr, readIpv6Addr_eq_none hno] at h
  cases h

end RustStd
