import AceTun.RustStd.Net

/-!
# What the number and address parsers accept

A nonempty string of digits is the printed form of its value behind some zeros (`exists_zeros`). So `str::parse` at an
unsigned type accepts the printed form, with zeros and one plus sign allowed before it (`parseUnsigned_iff`), while the
parser of IPv4 addresses accepts the printed form alone (`parseIpv4Addr_iff`).
-/

namespace RustStd

/-! ## Digits -/

theorem isDigit_iff {c : Char} : c.isDigit = true ↔ 48 ≤ c.toNat ∧ c.toNat ≤ 57 := by
  unfold Char.isDigit
  rw [Bool.and_eq_true, decide_eq_true_eq, decide_eq_true_eq, UInt32.le_iff_toNat_le, ge_iff_le, UInt32.le_iff_toNat_le]
  exact Iff.rfl

theorem toDigit_of_isDigit {c : Char} (h : c.isDigit = true) : toDigit 10 c = some (c.toNat - 48) := by
  obtain ⟨h1, h2⟩ := isDigit_iff.mp h
  rw [toDigit, if_pos ⟨h1, h2⟩, Option.filter_some, if_pos (by simpa using (by omega : c.toNat - 48 < 10))]

theorem toDigit_isSome (c : Char) : (toDigit 10 c).isSome = c.isDigit := by
  by_cases h : c.isDigit = true
  · rw [toDigit_of_isDigit h, h]
    rfl
  · rw [Bool.not_eq_true] at h
    rw [h, Option.isSome_eq_false_iff, Option.isNone_iff_eq_none, toDigit, Option.filter_eq_none_iff]
    intro d hd
    have hc : ¬ (48 ≤ c.toNat ∧ c.toNat ≤ 57) := by rw [← isDigit_iff, h]; exact Bool.false_ne_true
    rw [if_neg hc] at hd
    -- the letters stand for ten and more
    split at hd
    · cases hd
      simp only [decide_eq_true_eq]
      omega
    · split at hd
      · cases hd
        simp only [decide_eq_true_eq]
        omega
      · cases hd

theorem showNat_digit {c : Char} (h : c.isDigit = true) : showNat (c.toNat - 48) = [c] := by
  obtain ⟨h1, h2⟩ := isDigit_iff.mp h
  rw [showNat, Nat.toDigits_of_lt_base (by omega), List.singleton_inj]
  apply Char.toNat_inj.mp
  rw [Nat.toNat_digitChar_of_lt_ten (by omega)]
  omega

theorem digitsValue_eq {s : Str} (hs : ∀ c ∈ s, c.isDigit = true) : digitsValue 10 s = Nat.ofDigitChars 10 s 0 := by
  refine List.foldl_ext _ _ _ fun n c hc => ?_
  rw [toDigit_of_isDigit (hs c hc)]
  rfl

/-- A digit after a printed number makes the printed form of ten times the number and the digit. -/
theorem showNat_append {s : Str} (hs : ∀ c ∈ s, c.isDigit = true) {n : Nat} (hn : 0 < n) :
    showNat n ++ s = showNat (Nat.ofDigitChars 10 s n) := by
  induction s generalizing n with
  | nil => rw [List.append_nil, Nat.ofDigitChars_nil]
  | cons c s ih =>
    have hc := hs c List.mem_cons_self
    obtain ⟨h1, h2⟩ := isDigit_iff.mp hc
    have hstep : showNat n ++ [c] = showNat (10 * n + (c.toNat - 48)) := by
      rw [← showNat_digit hc]
      exact Nat.toDigits_append_toDigits (by decide) hn (by omega)
    have hrest : ∀ d ∈ s, d.isDigit = true := fun d hd => hs d (List.mem_cons_of_mem c hd)
    rw [← List.singleton_append, ← List.append_assoc, hstep, ih hrest (by omega)]
    rfl

/-- A nonempty string of digits is the printed form of its value behind some zeros. -/
theorem exists_zeros {s : Str} (hne : s ≠ []) (hs : ∀ c ∈ s, c.isDigit = true) :
    ∃ k, s = List.replicate k '0' ++ showNat (digitsValue 10 s) := by
  rw [digitsValue_eq hs]
  induction s with
  | nil => exact absurd rfl hne
  | cons c s ih =>
    have hc := hs c List.mem_cons_self
    have hs' : ∀ d ∈ s, d.isDigit = true := fun d hd => hs d (List.mem_cons_of_mem c hd)
    obtain ⟨h1, h2⟩ := isDigit_iff.mp hc
    by_cases h0 : c = '0'
    · subst h0
      by_cases hnil : s = []
      · subst hnil
        exact ⟨0, by decide⟩
      · obtain ⟨k, hk⟩ := ih hnil hs'
        refine ⟨k + 1, ?_⟩
        rw [List.replicate_succ, List.cons_append]
        exact congrArg ('0' :: ·) hk
    · have hpos : 0 < c.toNat - 48 := by
        have : c.toNat ≠ 48 := fun h => h0 (Char.toNat_inj.mp h)
        omega
      have h := showNat_append hs' hpos
      rw [showNat_digit hc, List.singleton_append] at h
      refine ⟨0, ?_⟩
      rw [List.replicate_zero, List.nil_append, Nat.ofDigitChars_cons, Nat.mul_zero, Nat.zero_add]
      exact h

theorem isDigit_of_mem_zeros {k n : Nat} {c : Char} (h : c ∈ List.replicate k '0' ++ showNat n) : c.isDigit = true := by
  rcases List.mem_append.mp h with h | h
  · rw [List.eq_of_mem_replicate h]
    rfl
  · exact isDigit_of_mem_showNat h

theorem digitsValue_zeros (k n : Nat) : digitsValue 10 (List.replicate k '0' ++ showNat n) = n := by
  rw [digitsValue_eq fun c => isDigit_of_mem_zeros, Nat.ofDigitChars_append, Nat.ofDigitChars_replicate_zero,
    Nat.mul_zero]
  exact Nat.ofDigitChars_toDigits (by decide) (by decide)

theorem showNat_ne_nil (n : Nat) : showNat n ≠ [] := Nat.toDigits_ne_nil

/-- A printed number of more than one digit does not begin with a zero. -/
theorem head?_showNat {n : Nat} (hlen : 1 < (showNat n).length) : (showNat n).head? ≠ some '0' := by
  intro h
  obtain ⟨t, ht⟩ := List.head?_eq_some_iff.mp h
  rw [ht, List.length_cons] at hlen
  have hdigits : ∀ c ∈ t, c.isDigit = true := fun c hc => isDigit_of_mem_showNat (ht ▸ List.mem_cons_of_mem '0' hc)
  obtain ⟨k, hk⟩ := exists_zeros (List.ne_nil_of_length_pos (by omega)) hdigits
  have hvalue : digitsValue 10 t = n := by
    have h0 : digitsValue 10 ('0' :: t) = n := ht ▸ digitsValue_zeros 0 n
    exact h0
  -- the digits after the zero have the same value, so they would print as the whole
  have hle : (showNat n).length ≤ t.length := by
    rw [hk, hvalue, List.length_append]
    omega
  rw [ht, List.length_cons] at hle
  omega

/-! ## Integers -/

/-- The printed form of `n`, with zeros and one plus sign allowed before it. -/
def SpellsNat (s : Str) (n : Nat) : Prop :=
  ∃ sign k, (sign = [] ∨ sign = ['+']) ∧ s = sign ++ (List.replicate k '0' ++ showNat n)

/-- The part after the sign is all digits exactly when it is the printed form of its value behind some zeros. -/
theorem digits_iff {digits : Str} {n : Nat} :
    (digits ≠ [] ∧ digits.all (fun c => (toDigit 10 c).isSome) = true) ∧ digitsValue 10 digits = n ↔
      ∃ k, digits = List.replicate k '0' ++ showNat n := by
  simp only [toDigit_isSome, List.all_eq_true]
  constructor
  · rintro ⟨⟨hne, hall⟩, rfl⟩
    exact exists_zeros hne hall
  · rintro ⟨k, rfl⟩
    refine ⟨⟨?_, fun c => isDigit_of_mem_zeros⟩, digitsValue_zeros k n⟩
    exact fun h => showNat_ne_nil n (List.append_eq_nil_iff.mp h).2

/-- The part after the sign is read. -/
theorem parseUnsigned_append {sign digits : Str} (hsign : sign = [] ∨ sign = ['+']) (hd : '+' ∉ digits) (w : Nat) :
    parseUnsigned w (sign ++ digits) =
      if digits ≠ [] ∧ digits.all (fun c => (toDigit 10 c).isSome) ∧ digitsValue 10 digits < 2 ^ w then
        some (digitsValue 10 digits)
      else none := by
  rcases hsign with rfl | rfl
  · cases digits with
    | nil => rfl
    | cons c rest =>
      have hc : c ≠ '+' := fun h => hd (h ▸ List.mem_cons_self)
      simp [parseUnsigned, hc]
  · rfl

/-- A number that is spelled is read at every type that has it. -/
theorem parseUnsigned_of_spellsNat {s : Str} {n : Nat} (h : SpellsNat s n) (w : Nat) :
    parseUnsigned w s = if n < 2 ^ w then some n else none := by
  obtain ⟨sign, k, hsign, rfl⟩ := h
  generalize hd : List.replicate k '0' ++ showNat n = digits
  obtain ⟨⟨hne, hall⟩, hn⟩ := digits_iff.mpr ⟨k, hd.symm⟩
  have hplus : '+' ∉ digits := fun h => absurd (isDigit_of_mem_zeros (hd.symm ▸ h)) (by decide)
  rw [parseUnsigned_append hsign hplus, hn]
  by_cases hlt : n < 2 ^ w
  · rw [if_pos ⟨hne, hall, hlt⟩, if_pos hlt]
  · rw [if_neg fun h => hlt h.2.2, if_neg hlt]

/-- **`str::parse` at an unsigned type** accepts the numbers of the type, with zeros and a plus sign before them. -/
theorem parseUnsigned_iff {w n : Nat} {s : Str} : parseUnsigned w s = some n ↔ n < 2 ^ w ∧ SpellsNat s n := by
  constructor
  · intro h
    obtain ⟨⟨hne, hall, hlt⟩, hn⟩ := Option.ite_none_right_eq_some.mp h
    rw [Option.some.injEq] at hn
    rw [hn] at hlt
    obtain ⟨k, hk⟩ := digits_iff.mp ⟨⟨hne, hall⟩, hn⟩
    refine ⟨hlt, ?_⟩
    split at hk
    · exact ⟨['+'], k, Or.inr rfl, congrArg ('+' :: ·) hk⟩
    · exact ⟨[], k, Or.inl rfl, hk⟩
  · rintro ⟨hlt, h⟩
    rw [parseUnsigned_of_spellsNat h, if_pos hlt]

/-! ## IPv4 addresses -/

/-- What is left does not begin with a digit. -/
def EndsNumber (rest : Str) : Prop := ∀ c ∈ rest.head?, c.isDigit = false

/-- The longest beginning of one kind ends where another kind begins. -/
theorem takeWhile_append_of_stop {p : Char → Bool} {s rest : Str} (hs : ∀ c ∈ s, p c = true)
    (hrest : ∀ c ∈ rest.head?, p c = false) : (s ++ rest).takeWhile p = s := by
  rw [List.takeWhile_append_of_pos hs]
  cases rest with
  | nil => exact List.append_nil _
  | cons c rest => rw [List.takeWhile_cons_of_neg (by simp [hrest c rfl]), List.append_nil]

theorem takeWhile_digits {digits rest : Str} (hd : ∀ c ∈ digits, c.isDigit = true) (hrest : EndsNumber rest) :
    (digits ++ rest).takeWhile (fun c => (toDigit 10 c).isSome) = digits := by
  simp only [toDigit_isSome]
  exact takeWhile_append_of_stop hd hrest

/-- A text is cut after its leading digits. -/
theorem exists_digits (s : Str) :
    ∃ digits rest, s = digits ++ rest ∧ (∀ c ∈ digits, c.isDigit = true) ∧ EndsNumber rest := by
  refine ⟨s.takeWhile Char.isDigit, s.dropWhile Char.isDigit, List.takeWhile_append_dropWhile.symm,
    fun c hc => List.mem_takeWhile_imp hc, fun c hc => ?_⟩
  have h := List.head?_dropWhile_not Char.isDigit s
  rw [Option.mem_def.mp hc] at h
  exact h

/-- One octet: the printed form of a number below 256, read to its end. -/
theorem readNumber_iff {n : Nat} {s rest : Str} :
    readNumber 10 3 false 256 s = some (n, rest) ↔ n < 256 ∧ s = showNat n ++ rest ∧ EndsNumber rest := by
  constructor
  · intro h
    obtain ⟨digits, rest', rfl, hd, hrest⟩ := exists_digits s
    unfold readNumber at h
    dsimp only at h
    rw [takeWhile_digits hd hrest, List.drop_left] at h
    obtain ⟨-, h⟩ := Option.ite_none_left_eq_some.mp h
    obtain ⟨hne, h⟩ := Option.ite_none_left_eq_some.mp h
    obtain ⟨hzero, h⟩ := Option.ite_none_left_eq_some.mp h
    obtain ⟨hlt, h⟩ := Option.ite_none_right_eq_some.mp h
    obtain ⟨hn, rfl⟩ := Prod.mk.inj (Option.some.inj h)
    obtain ⟨k, hk⟩ := exists_zeros hne hd
    rw [hn] at hk hlt
    cases k with
    | zero => exact ⟨hlt, congrArg (· ++ rest') hk, hrest⟩
    | succ k =>
      -- a zero before the number is refused
      have hlen : 1 < digits.length := by
        have := List.length_pos_iff.mpr (showNat_ne_nil n)
        rw [hk, List.length_append, List.length_replicate]
        omega
      have hhead : (digits ++ rest').head? = some '0' := by rw [hk]; rfl
      exact absurd (by simp [hhead, hlen]) hzero
  · rintro ⟨hlt, rfl, hrest⟩
    have hlen : (showNat n).length ≤ 3 := (Nat.length_toDigits_le_iff (by decide) (by decide)).mpr (by omega)
    have hvalue : digitsValue 10 (showNat n) = n := digitsValue_zeros 0 n
    have hzero : ¬ (!false && (showNat n ++ rest).head? == some '0' && (showNat n).length > 1) = true := by
      simp only [Bool.not_false, Bool.true_and, Bool.and_eq_true, beq_iff_eq, decide_eq_true_eq, not_and]
      rw [List.head?_append_of_ne_nil _ (showNat_ne_nil n)]
      exact fun h hlong => head?_showNat hlong h
    unfold readNumber
    dsimp only
    rw [takeWhile_digits (fun c => isDigit_of_mem_showNat) hrest, if_neg (by omega), if_neg (showNat_ne_nil n),
      if_neg hzero, hvalue, if_pos hlt, List.drop_left]

/-- One more octet, with the dot before it. -/
theorem readSeparator_iff {i n : Nat} {s rest : Str} :
    readSeparator '.' (i + 1) (readNumber 10 3 false 256) s = some (n, rest) ↔
      n < 256 ∧ s = '.' :: (showNat n ++ rest) ∧ EndsNumber rest := by
  rw [readSeparator, if_pos (Nat.succ_pos i)]
  cases s with
  | nil => simp [readGivenChar]
  | cons c s =>
    by_cases hc : c = '.'
    · subst hc
      simp only [readGivenChar, if_pos, Option.bind_some, readNumber_iff, List.cons.injEq, true_and]
    · simp [readGivenChar, hc]

theorem Ipv4Addr.exists_new (ip : Ipv4Addr) : ∃ a b c d, ip = new a b c d := by
  obtain ⟨⟨⟨octets⟩, h⟩⟩ := ip
  match octets, h with
  | [a, b, c, d], _ => exact ⟨a, b, c, d, rfl⟩

theorem Ipv4Addr.toStr_new (a b c d : UInt8) : (new a b c d).toStr = showNat a.toNat ++
    '.' :: (showNat b.toNat ++ '.' :: (showNat c.toNat ++ '.' :: showNat d.toNat)) := by
  simp [toStr, new, List.intercalate]

theorem endsNumber_dot (s : Str) : EndsNumber ('.' :: s) := by
  rintro c ⟨⟩
  rfl

/-- **`Parser::read_ipv4_addr`** reads the printed form of the address. -/
theorem readIpv4Addr_iff {ip : Ipv4Addr} {s rest : Str} :
    readIpv4Addr s = some (ip, rest) ↔ s = ip.toStr ++ rest ∧ EndsNumber rest := by
  have hfirst : ∀ t, readSeparator '.' 0 (readNumber 10 3 false 256) t = readNumber 10 3 false 256 t := fun _ => rfl
  constructor
  · intro h
    unfold readIpv4Addr at h
    simp only [hfirst, Option.bind_eq_bind, Option.bind_eq_some_iff] at h
    obtain ⟨⟨a, s1⟩, h1, ⟨b, s2⟩, h2, ⟨c, s3⟩, h3, ⟨d, s4⟩, h4, h⟩ := h
    obtain ⟨rfl, rfl⟩ := Prod.mk.inj (Option.some.inj h)
    obtain ⟨ha, rfl, -⟩ := readNumber_iff.mp h1
    obtain ⟨hb, rfl, -⟩ := readSeparator_iff.mp h2
    obtain ⟨hc, rfl, -⟩ := readSeparator_iff.mp h3
    obtain ⟨hd, rfl, hrest⟩ := readSeparator_iff.mp h4
    refine ⟨?_, hrest⟩
    have hoctet : ∀ n < 256, (UInt8.ofNat n).toNat = n := fun n hn => by rw [UInt8.toNat_ofNat', Nat.mod_eq_of_lt hn]
    rw [Ipv4Addr.toStr_new, hoctet a ha, hoctet b hb, hoctet c hc, hoctet d hd]
    simp
  · rintro ⟨rfl, hrest⟩
    obtain ⟨a, b, c, d, rfl⟩ := ip.exists_new
    rw [Ipv4Addr.toStr_new]
    unfold readIpv4Addr
    simp only [hfirst, Option.bind_eq_bind, Option.bind_eq_some_iff]
    simp only [List.append_assoc, List.cons_append]
    refine ⟨_, readNumber_iff.mpr ⟨a.toNat_lt, rfl, endsNumber_dot _⟩,
      _, readSeparator_iff.mpr ⟨b.toNat_lt, rfl, endsNumber_dot _⟩,
      _, readSeparator_iff.mpr ⟨c.toNat_lt, rfl, endsNumber_dot _⟩,
      _, readSeparator_iff.mpr ⟨d.toNat_lt, rfl, hrest⟩, ?_⟩
    simp only [UInt8.ofNat_toNat]

theorem byteLen_digits {s : Str} (hs : ∀ c ∈ s, c.isDigit = true) : byteLen s = s.length := by
  induction s with
  | nil => rfl
  | cons c s ih =>
    obtain ⟨-, hc⟩ := isDigit_iff.mp (hs c List.mem_cons_self)
    have hsize : c.utf8Size = 1 :=
      Char.utf8Size_eq_one_iff.mpr (UInt32.le_iff_toNat_le.mpr (Nat.le_trans hc (by decide)))
    rw [byteLen_cons, List.length_cons, hsize, ih fun d hd => hs d (List.mem_cons_of_mem c hd)]
    omega

/-- An octet takes at most three bytes. -/
theorem byteLen_octet (b : UInt8) : byteLen (showNat b.toNat) ≤ 3 := by
  have hb : b.toNat < 256 := b.toNat_lt
  rw [byteLen_digits fun c => isDigit_of_mem_showNat]
  exact (Nat.length_toDigits_le_iff (by decide) (by decide)).mpr (by omega)

/-- **`str::parse::<Ipv4Addr>`** accepts the printed form of the address and nothing else. -/
theorem parseIpv4Addr_iff {ip : Ipv4Addr} {s : Str} : parseIpv4Addr s = some ip ↔ s = ip.toStr := by
  unfold parseIpv4Addr
  constructor
  · intro h
    obtain ⟨-, h⟩ := Option.ite_none_left_eq_some.mp h
    split at h
    · next ip' hread =>
      cases h
      simpa using (readIpv4Addr_iff.mp hread).1
    · cases h
  · rintro rfl
    have hread : readIpv4Addr ip.toStr = some (ip, []) :=
      readIpv4Addr_iff.mpr ⟨(List.append_nil _).symm, fun c hc => by cases hc⟩
    have hlen : byteLen ip.toStr ≤ 15 := by
      obtain ⟨a, b, c, d, rfl⟩ := ip.exists_new
      have ha := byteLen_octet a
      have hb := byteLen_octet b
      have hc := byteLen_octet c
      have hd := byteLen_octet d
      have hdot : Char.utf8Size '.' = 1 := by decide
      simp only [Ipv4Addr.toStr_new, byteLen_append, byteLen_cons, hdot]
      omega
    rw [if_neg (show ¬ (asBytes ip.toStr).length > 15 from Nat.not_lt.mpr hlen), hread]

end RustStd
