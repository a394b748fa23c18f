import AceTun.Rule.Cidr
import AceTun.Rule.Lists

/-!
# What the filters of a rule can say

A filter is a text, and the matchers read it anew for every flow. Here it is a value: a list of `HostItem`s or
`PortItem`s, each of which selects addresses or ports by itself. Each token of a text is read as an item or as nothing, and
the matchers match what the items select (`matchIpPattern_eq`, `matchPortPattern_eq`); every item has a text that is read
as this item (`HostItem.read_text`, `PortItem.read_text`). So the rules that can be written are exactly those that a
`TargetFilter` says (`target_filters_denote`): among them none for the block of an IPv4 network, whose text selects nothing.
-/

namespace AceTun

open RustStd

/-! ## Lists of items -/

/-- A text with these tokens, which is never read as everything. -/
def listText (texts : List Str) : Str := ';' :: texts.flatMap (· ++ [';'])

theorem splitList_token {t : Str} (h : IsToken t) : splitList t = [t] := by
  simpa using @IsToken.splitList t [] [] h (by simp [Blank]) (by simp [Blank])

theorem splitList_listText {texts : List Str} (h : ∀ t ∈ texts, IsToken t) : splitList (listText texts) = texts := by
  have hrest : splitList (texts.flatMap (· ++ [';'])) = texts := by
    induction texts with
    | nil => exact splitList_nil
    | cons t texts ih =>
      rw [List.flatMap_cons, List.append_assoc, List.singleton_append, splitList_append _ _ (by decide),
        splitList_token (h t List.mem_cons_self), ih fun t ht => h t (List.mem_cons_of_mem _ ht)]
      rfl
  rw [listText, ← List.nil_append (';' :: _), splitList_append _ _ (by decide), splitList_nil, hrest]
  rfl

/-- A text that says more than a star or the keyword is not read as everything. -/
theorem isMatchAll_of_mem {list : Str} {c : Char} (h : c ∈ list) (hw : isWhitespace c = false) (hstar : c ≠ '*')
    (hany : c.toLower ∉ "any".toList) : isMatchAll list = false := by
  have hmem : c ∈ trim list := mem_trim hw h
  simp only [isMatchAll, Bool.or_eq_false_iff, List.isEmpty_eq_false_iff, beq_eq_false_iff_ne]
  refine ⟨⟨List.ne_nil_of_mem hmem, fun h => ?_⟩, ?_⟩
  · rw [h] at hmem
    exact hstar (List.mem_singleton.mp hmem)
  · by_contra h
    exact not_mem_of_any (by simpa using h) hany hmem

theorem isMatchAll_listText (texts : List Str) : isMatchAll (listText texts) = false :=
  isMatchAll_of_mem (c := ';') List.mem_cons_self (by decide) (by decide) (by decide)

section Lists

variable {ι τ : Type} {read : Str → Option ι}

/-- The items of a list, token by token. -/
def readList (read : Str → Option ι) (all : ι) (list : Str) : List ι :=
  if isMatchAll list then [all] else (splitList list).filterMap read

/-- If the matcher of tokens matches what their items select, that of lists does. -/
theorem any_readList {reads : Str → τ → Bool} {selects : ι → τ → Bool} (h : ∀ t x, reads t x = (read t).any (selects · x))
    {all : ι} (hall : ∀ x, selects all x = true) (list : Str) (x : τ) :
    (isMatchAll list || (splitList list).any (reads · x)) = (readList read all list).any (selects · x) := by
  unfold readList
  cases isMatchAll list with
  | true => simp [hall]
  | false =>
    rw [Bool.false_or, if_neg Bool.false_ne_true]
    induction splitList list with
    | nil => rfl
    | cons t tokens ih =>
      rw [List.any_cons, h, ih, List.filterMap_cons]
      cases read t <;> simp

/-- If the text of every item is a token that is read as the item, the text of a list is read as the list. -/
theorem readList_listText {text : ι → Str} (htoken : ∀ i, IsToken (text i)) (hread : ∀ i, read (text i) = some i)
    (all : ι) (items : List ι) : readList read all (listText (items.map text)) = items := by
  have htokens : ∀ t ∈ items.map text, IsToken t := by
    intro t ht
    obtain ⟨item, -, rfl⟩ := List.mem_map.mp ht
    exact htoken item
  rw [readList, isMatchAll_listText, if_neg Bool.false_ne_true, splitList_listText htokens, List.filterMap_map,
    show read ∘ text = some from funext hread, List.filterMap_some]

end Lists

/-! ## Hosts -/

/-- What a token of a host list can say. -/
inductive HostItem where
  | any
  /-- An IPv4 address, of which some octets are left open. -/
  | octets (a b c d : Option UInt8)
  | range (first last : Ipv4Addr)
  | exactV6 (ip : Ipv6Addr)
  /-- The addresses that begin as the network does. -/
  | block (network : Ipv6Addr) (len : Fin 129)
  | rangeV6 (first last : Ipv6Addr)
  deriving DecidableEq

/-- An octet, or a star. -/
def octetText : Option UInt8 → Str
  | none => "*".toList
  | some b => showNat b.toNat

def readOctet (part : Str) : Option (Option UInt8) :=
  if part == "*".toList then some none else (parseUnsigned 8 part).map fun n => some (.ofNat n)

namespace HostItem

def text : HostItem → Str
  | any => "*".toList
  | octets a b c d => octetText a ++ '.' :: (octetText b ++ '.' :: (octetText c ++ '.' :: octetText d))
  | range first last => first.toStr ++ '-' :: last.toStr
  | exactV6 ip => ip.toStr
  | block network len => network.toStr ++ '/' :: showNat len
  | rangeV6 first last => first.toStr ++ '-' :: last.toStr

/-- An octet pattern or a range. -/
def readV4 (pattern : Str) : Option HostItem :=
  match splitOnce '-' pattern with
  | some (start, stop) => do
    let first ← parseIpv4Addr (trim start)
    let last ← parseIpv4Addr (trim stop)
    some (range first last)
  | none =>
    match pattern.splitOn '.' with
    | [p, q, r, s] => do
      let a ← readOctet p
      let b ← readOctet q
      let c ← readOctet r
      let d ← readOctet s
      some (octets a b c d)
    | _ => none

/-- A block, a range or an address. -/
def readV6 (pattern : Str) : Option HostItem :=
  match splitOnce '/' pattern with
  | some (net, len) => do
    let network ← parseIpv6Addr (trim net)
    let len ← parseUnsigned 32 (trim len)
    if h : len < 129 then some (block network ⟨len, h⟩) else none
  | none =>
    match splitOnce '-' pattern with
    | some (start, stop) => do
      let first ← parseIpv6Addr (trim start)
      let last ← parseIpv6Addr (trim stop)
      some (rangeV6 first last)
    | none => (parseIpv6Addr (trim pattern)).map exactV6

/-- What a token says, if it is one of a host list. -/
def read (pattern : Str) : Option HostItem :=
  if pattern == "*".toList then some any
  else if pattern.contains ':' then readV6 pattern
  else readV4 pattern

def selects : HostItem → IpAddr → Bool
  | any, _ => true
  | octets a b c d, .v4 ip => ([a, b, c, d].zip ip.octets.toList).all fun (wanted, octet) => wanted.all (· == octet)
  | range first last, .v4 ip => first.toU32 ≤ ip.toU32 && ip.toU32 ≤ last.toU32
  | exactV6 a, .v6 ip => a == ip
  | block network len, .v6 ip => (IpAddr.v6 ip).bits.take len == (IpAddr.v6 network).bits.take len
  | rangeV6 first last, .v6 ip => first.toU128 ≤ ip.toU128 && ip.toU128 ≤ last.toU128
  | _, _ => false

end HostItem

/-- The characters of an item's text. -/
def isItemChar (c : Char) : Bool := isHex c || c == ':' || c == '.' || c == '-' || c == '/' || c == '*'

theorem isItemChar_iff {c : Char} :
    isItemChar c = true ↔ isHex c = true ∨ c = ':' ∨ c = '.' ∨ c = '-' ∨ c = '/' ∨ c = '*' := by
  simp only [isItemChar, Bool.or_eq_true, beq_iff_eq, or_assoc]

theorem isToken_of_itemChars {t : Str} (hne : t ≠ []) (h : ∀ c ∈ t, isItemChar c = true) : IsToken t where
  nonempty := hne
  trimmed := trim_of_no_whitespace fun c hc => by
    rcases isItemChar_iff.mp (h c hc) with hx | rfl | rfl | rfl | rfl | rfl
    · exact isWhitespace_of_isHex hx
    all_goals decide
  whole c hc := by
    by_contra hsep
    rw [Bool.not_eq_false, isSeparator, Bool.or_eq_true, beq_iff_eq, beq_iff_eq] at hsep
    have hchar := h c hc
    rcases hsep with rfl | rfl
    · exact absurd hchar (by decide)
    · exact absurd hchar (by decide)

theorem isToken_star : IsToken "*".toList :=
  isToken_of_itemChars (by decide) fun c hc => by
    rw [List.mem_singleton.mp hc]
    decide

theorem mem_octetText {w : Option UInt8} {c : Char} (h : c ∈ octetText w) : c.isDigit = true ∨ c = '*' := by
  cases w with
  | none => exact .inr (List.mem_singleton.mp h)
  | some b => exact .inl (isDigit_of_mem_showNat h)

theorem isItemChar_of_isDigit {c : Char} (h : c.isDigit = true) : isItemChar c = true :=
  isItemChar_iff.mpr (.inl (isHex_of_isDigit h))

theorem isItemChar_octetText {w : Option UInt8} {c : Char} (h : c ∈ octetText w) : isItemChar c = true := by
  rcases mem_octetText h with h | rfl
  · exact isItemChar_of_isDigit h
  · decide

theorem isItemChar_ipv4 {ip : Ipv4Addr} {c : Char} (h : c ∈ ip.toStr) : isItemChar c = true := by
  rcases Ipv4Addr.mem_toStr h with h | rfl
  · exact isItemChar_of_isDigit h
  · decide

theorem isItemChar_ipv6 {ip : Ipv6Addr} {c : Char} (h : c ∈ ip.toStr) : isItemChar c = true := by
  rcases Ipv6Addr.mem_toStr h with h | rfl | rfl
  · exact isItemChar_iff.mpr (.inl h)
  · decide
  · decide

theorem itemChars_join {x y : Str} {c : Char} (hx : ∀ a ∈ x, isItemChar a = true) (hc : isItemChar c = true)
    (hy : ∀ a ∈ y, isItemChar a = true) : ∀ a ∈ x ++ c :: y, isItemChar a = true := by
  intro a ha
  rcases List.mem_append.mp ha with ha | ha
  · exact hx a ha
  · rcases List.mem_cons.mp ha with rfl | ha
    · exact hc
    · exact hy a ha

/-- The text of an item is one token. -/
theorem HostItem.isToken_text (item : HostItem) : IsToken item.text := by
  have hoctet : ∀ (w : Option UInt8), ∀ c ∈ octetText w, isItemChar c = true := fun _ _ => isItemChar_octetText
  have hv4 : ∀ (ip : Ipv4Addr), ∀ c ∈ ip.toStr, isItemChar c = true := fun _ _ => isItemChar_ipv4
  have hv6 : ∀ (ip : Ipv6Addr), ∀ c ∈ ip.toStr, isItemChar c = true := fun _ _ => isItemChar_ipv6
  cases item with
  | any => exact isToken_star
  | octets a b c d =>
    exact isToken_of_itemChars (by simp [text]) (itemChars_join (hoctet a) (by decide)
      (itemChars_join (hoctet b) (by decide) (itemChars_join (hoctet c) (by decide) (hoctet d))))
  | range first last =>
    exact isToken_of_itemChars (by simp [text]) (itemChars_join (hv4 first) (by decide) (hv4 last))
  | exactV6 ip =>
    exact isToken_of_itemChars (List.ne_nil_of_mem (colon_mem_of_parseIpv6Addr (parseIpv6Addr_toStr ip))) (hv6 ip)
  | block network len =>
    exact isToken_of_itemChars (by simp [text]) (itemChars_join (hv6 network) (by decide) fun c hc =>
      isItemChar_of_isDigit (isDigit_of_mem_showNat hc))
  | rangeV6 first last =>
    exact isToken_of_itemChars (by simp [text]) (itemChars_join (hv6 first) (by decide) (hv6 last))

/-! ## Every item can be written -/

theorem trim_showNat (n : Nat) : trim (showNat n) = showNat n :=
  trim_of_no_whitespace fun _ hc => isWhitespace_of_isHex (isHex_of_isDigit (isDigit_of_mem_showNat hc))

theorem not_mem_octetText {w : Option UInt8} {c : Char} (hd : c.isDigit = false) (hs : c ≠ '*') : c ∉ octetText w :=
  fun h => (mem_octetText h).elim (fun h => by simp [hd] at h) hs

theorem not_mem_ipv4 {ip : Ipv4Addr} {c : Char} (hd : c.isDigit = false) (hs : c ≠ '.') : c ∉ ip.toStr :=
  fun h => (Ipv4Addr.mem_toStr h).elim (fun h => by simp [hd] at h) hs

@[simp]
theorem readOctet_octetText (w : Option UInt8) : readOctet (octetText w) = some w := by
  cases w with
  | none => rfl
  | some b =>
    have hstar : (showNat b.toNat == "*".toList) = false :=
      ne_star fun h => absurd (isDigit_of_mem_showNat h) (by decide)
    have hparse : parseUnsigned 8 (showNat b.toNat) = some b.toNat :=
      parseUnsigned_iff.mpr ⟨b.toNat_lt, spellsNat_showNat _⟩
    rw [readOctet, octetText, hstar, if_neg Bool.false_ne_true, hparse, Option.map_some, UInt8.ofNat_toNat]

theorem ne_star_of_mem {t : Str} {c : Char} (hc : c ∈ t) (hne : c ≠ '*') : t ≠ "*".toList := by
  rintro rfl
  exact hne (List.mem_singleton.mp hc)

theorem HostItem.read_of_colon {pattern : Str} (h : ':' ∈ pattern) : read pattern = readV6 pattern := by
  rw [read, beq_false_of_ne (ne_star_of_mem h (by decide)), if_neg Bool.false_ne_true,
    if_pos (List.contains_iff_mem.mpr h)]

theorem HostItem.read_of_no_colon {pattern : Str} (hstar : pattern ≠ "*".toList) (h : ':' ∉ pattern) :
    read pattern = readV4 pattern := by
  rw [read, beq_false_of_ne hstar, if_neg Bool.false_ne_true, if_neg (by simpa using h)]

/-- **Every item can be written**: its text is read as the item. -/
theorem HostItem.read_text (item : HostItem) : read item.text = some item := by
  have hcolon : ∀ ip : Ipv6Addr, ':' ∈ ip.toStr := fun ip => colon_mem_of_parseIpv6Addr (parseIpv6Addr_toStr ip)
  have hslash : ∀ ip : Ipv6Addr, '/' ∉ ip.toStr := fun _ => Ipv6Addr.not_mem_toStr (by decide) (by decide) (by decide)
  have hdash : ∀ ip : Ipv6Addr, '-' ∉ ip.toStr := fun _ => Ipv6Addr.not_mem_toStr (by decide) (by decide) (by decide)
  cases item with
  | any => rfl
  | octets a b c d =>
    have hdot : ∀ w : Option UInt8, '.' ∉ octetText w := fun _ => not_mem_octetText (by decide) (by decide)
    have hstar : (octets a b c d).text ≠ "*".toList :=
      ne_star_of_mem (List.mem_append_right _ List.mem_cons_self) (by decide)
    rw [read_of_no_colon hstar (by simp [text, not_mem_octetText]), readV4,
      splitOnce_eq_none (by simp [text, not_mem_octetText])]
    simp only [text, splitOn_dots (hdot a) (hdot b) (hdot c) (hdot d), readOctet_octetText, Option.bind_eq_bind,
      Option.bind_some]
  | range first last =>
    have hstar : (range first last).text ≠ "*".toList :=
      ne_star_of_mem (List.mem_append_right _ List.mem_cons_self) (by decide)
    rw [read_of_no_colon hstar (by simp [text, not_mem_ipv4]), readV4, text,
      splitOnce_append (not_mem_ipv4 (by decide) (by decide))]
    simp only [trim_toStr, parseIpv4Addr_iff.mpr rfl, Option.bind_eq_bind, Option.bind_some]
  | exactV6 ip =>
    rw [text, read_of_colon (hcolon ip), readV6, splitOnce_eq_none (hslash ip), splitOnce_eq_none (hdash ip)]
    simp only [trim_ipv6_toStr, parseIpv6Addr_toStr, Option.map_some]
  | block network len =>
    have hlen : parseUnsigned 32 (showNat len) = some len.val :=
      parseUnsigned_iff.mpr ⟨by have := len.isLt; omega, spellsNat_showNat _⟩
    rw [text, read_of_colon (List.mem_append_left _ (hcolon network)), readV6, splitOnce_append (hslash network)]
    simp only [trim_ipv6_toStr, trim_showNat, parseIpv6Addr_toStr, hlen, Option.bind_eq_bind, Option.bind_some,
      dif_pos len.isLt]
  | rangeV6 first last =>
    have hno : '/' ∉ first.toStr ++ '-' :: last.toStr := by simp [hslash]
    rw [text, read_of_colon (List.mem_append_left _ (hcolon first)), readV6, splitOnce_eq_none hno,
      splitOnce_append (hdash first)]
    simp only [trim_ipv6_toStr, parseIpv6Addr_toStr, Option.bind_eq_bind, Option.bind_some]

/-! ## Matching is selecting -/

theorem matchIpv6Pattern_no_colon {pattern : Str} (hstar : pattern ≠ "*".toList) (h : ':' ∉ pattern) (ip : Ipv6Addr) :
    matchIpv6Pattern pattern ip = false := by
  rw [matchIpv6Pattern, beq_false_of_ne hstar]
  simp [h]

theorem matchIpv4Pattern_colon {pattern : Str} (h : ':' ∈ pattern) (ip : Ipv4Addr) :
    matchIpv4Pattern pattern ip = false := by
  rw [matchIpv4Pattern, if_pos (List.contains_iff_mem.mpr h)]

theorem matchIpPattern_v4 {pattern : Str} (h : pattern ≠ "*".toList) (ip : Ipv4Addr) :
    matchIpPattern pattern (.v4 ip) = matchIpv4Pattern pattern ip := by
  simp only [matchIpPattern, beq_false_of_ne h, Bool.false_eq_true, if_false]

theorem matchIpPattern_v6 {pattern : Str} (h : pattern ≠ "*".toList) (ip : Ipv6Addr) :
    matchIpPattern pattern (.v6 ip) = matchIpv6Pattern pattern ip := by
  simp only [matchIpPattern, beq_false_of_ne h, Bool.false_eq_true, if_false]

/-- How a part of an octet pattern is compared. -/
theorem readOctet_any (part : Str) (octet : UInt8) :
    (part == "*".toList || parseUnsigned 8 part == some octet.toNat) =
      (readOctet part).any fun wanted => wanted.all (· == octet) := by
  unfold readOctet
  cases part == "*".toList with
  | true => rfl
  | false =>
    cases hparse : parseUnsigned 8 part with
    | none => rfl
    | some n =>
      have hn : n < 256 := (parseUnsigned_iff.mp hparse).1
      have hbyte : (n == octet.toNat) = (UInt8.ofNat n == octet) := by
        rw [Bool.eq_iff_iff, beq_iff_eq, beq_iff_eq, ← UInt8.toNat_inj, UInt8.toNat_ofNat', Nat.mod_eq_of_lt hn]
      simpa using hbyte

theorem matchIpv4Pattern_eq {pattern : Str} (h : ':' ∉ pattern) (ip : Ipv4Addr) :
    matchIpv4Pattern pattern ip = (HostItem.readV4 pattern).any (·.selects (.v4 ip)) := by
  have hcontains : pattern.contains ':' = false := by simpa using h
  unfold matchIpv4Pattern HostItem.readV4
  simp only [hcontains, Bool.false_eq_true, if_false]
  cases splitOnce '-' pattern with
  | some ends =>
    obtain ⟨start, stop⟩ := ends
    dsimp only
    cases parseIpv4Addr (trim start) with
    | none => rfl
    | some first => cases parseIpv4Addr (trim stop) <;> rfl
  | none =>
    dsimp only
    by_cases hfour : (pattern.splitOn '.').length = 4
    · obtain ⟨p, q, r, s, hparts⟩ := List.length_eq_four.mp hfour
      obtain ⟨b0, b1, b2, b3, rfl⟩ := ip.exists_new
      simp only [hparts, Ipv4Addr.new, Vector.toList_mk, List.zip_cons_cons, List.zip_nil_right, List.all_cons,
        List.all_nil, readOctet_any]
      -- a part that is no octet makes both sides false
      rcases readOctet p with _ | a
      · rfl
      rcases readOctet q with _ | b
      · simp
      rcases readOctet r with _ | c
      · simp
      rcases readOctet s with _ | d
      · simp
      · simp [HostItem.selects]
    · rw [beq_false_of_ne hfour, Bool.false_and]
      split
      · next hparts => exact absurd (by rw [hparts]; rfl) hfour
      · rfl

theorem matchIpv6Pattern_eq {pattern : Str} (h : ':' ∈ pattern) (ip : Ipv6Addr) :
    matchIpv6Pattern pattern ip = (HostItem.readV6 pattern).any (·.selects (.v6 ip)) := by
  obtain ⟨hstar, hcontains⟩ := matchIpv6Pattern_of_colon h
  unfold matchIpv6Pattern HostItem.readV6
  simp only [hstar, hcontains, Bool.false_eq_true, if_false]
  cases splitOnce '/' pattern with
  | some parts =>
    obtain ⟨net, len⟩ := parts
    dsimp only
    cases parseIpv6Addr (trim net) with
    | none => rfl
    | some network =>
      cases parseUnsigned 32 (trim len) with
      | none => rfl
      | some n =>
        dsimp only [Option.bind_eq_bind, Option.bind_some]
        by_cases hlen : n > 128
        · rw [if_pos hlen, dif_neg (by omega)]
          rfl
        · have hle : n ≤ 128 := Nat.le_of_not_lt hlen
          rw [if_neg hlen, dif_pos (by omega), Option.any_some, HostItem.selects, Bool.eq_iff_iff, beq_iff_eq]
          split
          · next h0 => simp [h0]
          · rw [beq_iff_eq, networkBits_eq_iff hle, Ipv6Addr.take_bits_eq_iff hle, eq_comm]
  | none =>
    dsimp only
    cases splitOnce '-' pattern with
    | some ends =>
      obtain ⟨start, stop⟩ := ends
      dsimp only
      cases parseIpv6Addr (trim start) with
      | none => rfl
      | some first => cases parseIpv6Addr (trim stop) <;> rfl
    | none => cases parseIpv6Addr (trim pattern) <;> rfl

/-- An item that is read from a pattern without a colon is one for IPv4. -/
theorem readV4_selects_v6 (pattern : Str) (ip : Ipv6Addr) :
    (HostItem.readV4 pattern).any (·.selects (.v6 ip)) = false := by
  rw [Option.any_eq_false]
  intro item hitem
  unfold HostItem.readV4 at hitem
  split at hitem
  · simp only [Option.bind_eq_bind, Option.bind_eq_some_iff] at hitem
    obtain ⟨first, -, last, -, hitem⟩ := hitem
    cases hitem
    simp [HostItem.selects]
  · split at hitem
    · simp only [Option.bind_eq_bind, Option.bind_eq_some_iff] at hitem
      obtain ⟨a, -, b, -, c, -, d, -, hitem⟩ := hitem
      cases hitem
      simp [HostItem.selects]
    · cases hitem

/-- An item that is read from a pattern with a colon is one for IPv6. -/
theorem readV6_selects_v4 (pattern : Str) (ip : Ipv4Addr) :
    (HostItem.readV6 pattern).any (·.selects (.v4 ip)) = false := by
  rw [Option.any_eq_false]
  intro item hitem
  unfold HostItem.readV6 at hitem
  split at hitem
  · simp only [Option.bind_eq_bind, Option.bind_eq_some_iff] at hitem
    obtain ⟨network, -, len, -, hitem⟩ := hitem
    split at hitem
    · cases hitem
      simp [HostItem.selects]
    · cases hitem
  · split at hitem
    · simp only [Option.bind_eq_bind, Option.bind_eq_some_iff] at hitem
      obtain ⟨first, -, last, -, hitem⟩ := hitem
      cases hitem
      simp [HostItem.selects]
    · obtain ⟨a, -, hitem⟩ := Option.map_eq_some_iff.mp hitem
      cases hitem
      simp [HostItem.selects]

/-- **A token matches what its item selects**, and nothing if it has none. -/
theorem matchIpPattern_eq (pattern : Str) (ip : IpAddr) :
    matchIpPattern pattern ip = (HostItem.read pattern).any (·.selects ip) := by
  by_cases hstar : pattern = "*".toList
  · rw [hstar]
    rfl
  · by_cases hcolon : ':' ∈ pattern
    · rw [HostItem.read_of_colon hcolon]
      cases ip with
      | v4 ip => rw [matchIpPattern_v4 hstar, matchIpv4Pattern_colon hcolon, readV6_selects_v4]
      | v6 ip => rw [matchIpPattern_v6 hstar, matchIpv6Pattern_eq hcolon]
    · rw [HostItem.read_of_no_colon hstar hcolon]
      cases ip with
      | v4 ip => rw [matchIpPattern_v4 hstar, matchIpv4Pattern_eq hcolon]
      | v6 ip => rw [matchIpPattern_v6 hstar, matchIpv6Pattern_no_colon hstar hcolon, readV4_selects_v6]

/-! ## Ports -/

/-- What a token of a port list can say. -/
inductive PortItem where
  | any
  | one (port : UInt16)
  | range (first last : UInt16)
  deriving DecidableEq

namespace PortItem

def text : PortItem → Str
  | any => "*".toList
  | one port => showNat port.toNat
  | range first last => showNat first.toNat ++ '-' :: showNat last.toNat

/-- What a token says, if it is one of a port list. -/
def read (pattern : Str) : Option PortItem :=
  if pattern == "*".toList then some any
  else
    match splitOnce '-' pattern with
    | some (start, stop) => do
      let first ← parseUnsigned 16 (trim start)
      let last ← parseUnsigned 16 (trim stop)
      some (range (.ofNat first) (.ofNat last))
    | none => (parseUnsigned 16 (trim pattern)).map fun port => one (.ofNat port)

def selects : PortItem → UInt16 → Bool
  | any, _ => true
  | one port, p => port == p
  | range first last, p => first ≤ p && p ≤ last

theorem isToken_text (item : PortItem) : IsToken item.text := by
  have hport : ∀ (port : UInt16), ∀ c ∈ showNat port.toNat, isItemChar c = true := fun _ _ h =>
    isItemChar_of_isDigit (isDigit_of_mem_showNat h)
  cases item with
  | any => exact isToken_star
  | one port => exact isToken_of_itemChars (showNat_ne_nil _) (hport port)
  | range first last =>
    exact isToken_of_itemChars (by simp [text]) (itemChars_join (hport first) (by decide) (hport last))

end PortItem

theorem parseUnsigned_port (port : UInt16) : parseUnsigned 16 (showNat port.toNat) = some port.toNat :=
  parseUnsigned_iff.mpr ⟨port.toNat_lt, spellsNat_showNat _⟩

theorem PortItem.read_text (item : PortItem) : read item.text = some item := by
  have hdash : ∀ n, '-' ∉ showNat n := fun n h => absurd (isDigit_of_mem_showNat h) (by decide)
  cases item with
  | any => rfl
  | one p =>
    have hstar : (showNat p.toNat == "*".toList) = false :=
      ne_star fun h => absurd (isDigit_of_mem_showNat h) (by decide)
    simp only [text, read, hstar, splitOnce_eq_none (hdash _), trim_showNat, parseUnsigned_port, Bool.false_eq_true,
      if_false, Option.map_some, UInt16.ofNat_toNat]
  | range first last =>
    have hstar : (showNat first.toNat ++ '-' :: showNat last.toNat == "*".toList) = false :=
      beq_false_of_ne (ne_star_of_mem (List.mem_append_right _ List.mem_cons_self) (by decide))
    simp only [text, read, hstar, splitOnce_append (hdash _), trim_showNat, parseUnsigned_port, Bool.false_eq_true,
      if_false, Option.bind_eq_bind, Option.bind_some, UInt16.ofNat_toNat]

/-- What `parse::<u16>` returns is a port. -/
theorem toNat_port {s : Str} {n : Nat} (h : parseUnsigned 16 s = some n) : (UInt16.ofNat n).toNat = n := by
  rw [UInt16.toNat_ofNat', Nat.mod_eq_of_lt (parseUnsigned_iff.mp h).1]

theorem matchPortPattern_eq (pattern : Str) (port : UInt16) :
    matchPortPattern pattern port = (PortItem.read pattern).any (·.selects port) := by
  unfold matchPortPattern PortItem.read
  by_cases hstar : pattern = "*".toList
  · rw [hstar]
    rfl
  · simp only [beq_false_of_ne hstar, Bool.false_eq_true, if_false]
    cases splitOnce '-' pattern with
    | some ends =>
      obtain ⟨start, stop⟩ := ends
      dsimp only
      cases hstart : parseUnsigned 16 (trim start) with
      | none => rfl
      | some s =>
        cases hstop : parseUnsigned 16 (trim stop) with
        | none => rfl
        | some e =>
          simp [PortItem.selects, UInt16.le_iff_toNat_le, toNat_port hstart, toNat_port hstop]
    | none =>
      dsimp only
      cases hport : parseUnsigned 16 (trim pattern) with
      | none => rfl
      | some n =>
        have hone : (n == port.toNat) = (UInt16.ofNat n == port) := by
          rw [Bool.eq_iff_iff, beq_iff_eq, beq_iff_eq, ← UInt16.toNat_inj, toNat_port hport]
        simpa [PortItem.selects] using hone

/-! ## The filters of a rule -/

/-- What the host, port and exception lists of a rule say together. -/
structure TargetFilter where
  hosts : List HostItem
  ports : List PortItem
  except : List HostItem

namespace TargetFilter

def selects (f : TargetFilter) (dest : IpAddr) (port : UInt16) : Bool :=
  f.hosts.any (·.selects dest) && f.ports.any (·.selects port) && !f.except.any (·.selects dest)

end TargetFilter

/-- The rule with this filter in the place of its own. -/
def Rule.withFilter (rule : Rule) (f : TargetFilter) : Rule :=
  { rule with
    hosts := listText (f.hosts.map HostItem.text)
    ports := listText (f.ports.map PortItem.text)
    exceptHosts := some (listText (f.except.map HostItem.text)) }

/-- What the lists of a rule say. -/
def Rule.filter (rule : Rule) : TargetFilter where
  hosts := readList HostItem.read .any rule.hosts
  ports := readList PortItem.read .any rule.ports
  except := (rule.exceptHosts.map (readList HostItem.read .any)).getD []

/-- **A rule says the filter that it is given.** -/
theorem Rule.filter_withFilter (rule : Rule) (f : TargetFilter) : (rule.withFilter f).filter = f := by
  simp only [Rule.filter, Rule.withFilter, Option.map_some, Option.getD_some,
    readList_listText HostItem.isToken_text HostItem.read_text,
    readList_listText PortItem.isToken_text PortItem.read_text]

theorem matchIpList_eq (list : Str) (ip : IpAddr) :
    matchIpList list ip = (readList HostItem.read .any list).any (·.selects ip) :=
  any_readList matchIpPattern_eq (fun _ => rfl) list ip

theorem matchPortList_eq (list : Str) (port : UInt16) :
    matchPortList list port = (readList PortItem.read .any list).any (·.selects port) :=
  any_readList matchPortPattern_eq (fun _ => rfl) list port

section Rules

variable {R : RegexCrate} {rule : Rule} {compiled : CompiledRule R}

/-- A rule matches what its filter selects, and the domains it allows. -/
theorem matchesTarget_filter (hc : rule.compile R = .ok compiled) (dest : IpAddr) (destPort : UInt16)
    (domain : Option Str) :
    compiled.matchesTarget dest destPort domain =
      (rule.filter.selects dest destPort && (compiled.domainsAll || compiled.matchesDomain domain)) := by
  have hexcept : rule.filter.except.any (·.selects dest) = rule.exceptHosts.any (matchIpList · dest) := by
    unfold Rule.filter
    cases rule.exceptHosts with
    | none => rfl
    | some list => exact (matchIpList_eq list dest).symm
  have hlists : rule.filter.selects dest destPort = (matchIpList rule.hosts dest && matchPortList rule.ports destPort &&
      !rule.exceptHosts.any (matchIpList · dest)) := by
    rw [TargetFilter.selects, hexcept, matchIpList_eq, matchPortList_eq]
    rfl
  obtain ⟨matchers, -, hc⟩ := except_bind_eq_ok.mp hc
  cases hc
  rw [hlists, CompiledRule.matchesTarget_eq, Bool.eq_iff_iff]
  simp only [matchIpList, matchPortList, Bool.and_eq_true, Bool.or_eq_true]
  tauto

theorem not_mem_ipv4_block (network : Ipv4Addr) (n : Nat) {c : Char} (hd : c.isDigit = false) (hdot : c ≠ '.')
    (hslash : c ≠ '/') : c ∉ network.toStr ++ '/' :: showNat n := by
  have hnat : c ∉ showNat n := fun h => by simp [isDigit_of_mem_showNat h] at hd
  simp [not_mem_ipv4 hd hdot, hslash, hnat]

/-- The block of an IPv4 network is no item: its text selects nothing. -/
theorem matchIpList_ipv4_block (network : Ipv4Addr) (n : Nat) (ip : IpAddr) :
    matchIpList (network.toStr ++ '/' :: showNat n) ip = false := by
  have hslash : '/' ∈ network.toStr ++ '/' :: showNat n := List.mem_append_right _ List.mem_cons_self
  have htoken : IsToken (network.toStr ++ '/' :: showNat n) :=
    isToken_of_itemChars (List.ne_nil_of_mem hslash) (itemChars_join (fun _ => isItemChar_ipv4) (by decide)
      fun _ hc => isItemChar_of_isDigit (isDigit_of_mem_showNat hc))
  -- without a star and a hyphen the pattern is an exact address, and those have no slash
  have h4 : ∀ ip, matchIpv4Pattern (network.toStr ++ '/' :: showNat n) ip = false := fun ip => by
    rw [← Bool.not_eq_true, matchIpv4Pattern_exact (not_mem_ipv4_block network n (by decide) (by decide) (by decide))
      (not_mem_ipv4_block network n (by decide) (by decide) (by decide))]
    intro h
    rcases mem_spellsIpv4 h hslash with h | h | h <;> cases h
  have hstar : network.toStr ++ '/' :: showNat n ≠ "*".toList := ne_star_of_mem hslash (by decide)
  have hnone : ∀ ip, matchIpPattern (network.toStr ++ '/' :: showNat n) ip = false := fun ip => by
    cases ip with
    | v4 ip => rw [matchIpPattern_v4 hstar, h4]
    | v6 ip =>
      rw [matchIpPattern_v6 hstar,
        matchIpv6Pattern_no_colon hstar (not_mem_ipv4_block network n (by decide) (by decide) (by decide))]
  rw [matchIpList, isMatchAll_of_mem hslash (by decide) (by decide) (by decide), splitList_token htoken, Bool.false_or,
    List.any_cons, List.any_nil, Bool.or_false, hnone]

/-- **The filters that can be written are those that items say.** Every rule matches as the items do that its lists are
read as, token by token, with its domains beside; and every list of items is what some rule is read as that differs only
in these lists, and matches so. The block of an IPv4 network cannot be written as one: its text selects nothing. -/
theorem target_filters_denote (hc : rule.compile R = .ok compiled) :
    (∀ dest destPort domain, compiled.matchesTarget dest destPort domain =
        (rule.filter.selects dest destPort && (compiled.domainsAll || compiled.matchesDomain domain))) ∧
      (∀ f : TargetFilter, (rule.withFilter f).filter = f ∧
        ∃ compiled', (rule.withFilter f).compile R = .ok compiled' ∧
          ∀ dest destPort domain, compiled'.matchesTarget dest destPort domain =
            (f.selects dest destPort && (compiled.domainsAll || compiled.matchesDomain domain))) ∧
      ∀ (network : Ipv4Addr) (n : Nat) (dest : IpAddr), matchIpList (network.toStr ++ '/' :: showNat n) dest = false := by
  refine ⟨matchesTarget_filter hc, fun f => ⟨rule.filter_withFilter f, ?_⟩, matchIpList_ipv4_block⟩
  obtain ⟨matchers, hm, hc⟩ := except_bind_eq_ok.mp hc
  cases hc
  obtain ⟨compiled', hc'⟩ : ∃ compiled', (rule.withFilter f).compile R = .ok compiled' :=
    ⟨_, except_bind_eq_ok.mpr ⟨matchers, hm, rfl⟩⟩
  obtain ⟨matchers', -, hfields⟩ := except_bind_eq_ok.mp hc'
  refine ⟨compiled', hc', fun dest destPort domain => ?_⟩
  rw [matchesTarget_filter hc', rule.filter_withFilter]
  cases hfields
  rfl

end Rules

/-- A private network and an IPv6 block, but for one host, at the ports of a range. -/
def sampleFilter : TargetFilter where
  hosts := [.octets (some 192) (some 168) none none, .block .UNSPECIFIED 16]
  ports := [.one 80, .range 8000 9000]
  except := [.octets (some 192) (some 168) (some 0) (some 1)]

theorem target_filters_denote_sample :
    ∃ compiled compiled' : CompiledRule backslashRegex,
      blockAllRule.compile backslashRegex = .ok compiled ∧
      (blockAllRule.withFilter sampleFilter).compile backslashRegex = .ok compiled' ∧
      compiled'.matchesTarget (.v4 (.new 192 168 3 4)) 8080 none = true ∧
      compiled'.matchesTarget (.v4 (.new 192 168 0 1)) 8080 none = false := by
  obtain ⟨compiled, hc⟩ : ∃ compiled, blockAllRule.compile backslashRegex = .ok compiled := ⟨_, rfl⟩
  obtain ⟨-, compiled', hc', hmatches⟩ := (target_filters_denote hc).2.1 sampleFilter
  refine ⟨compiled, compiled', hc, hc', ?_, ?_⟩
  · rw [hmatches]
    cases hc
    decide
  · rw [hmatches]
    cases hc
    decide

end AceTun
