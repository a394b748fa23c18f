import AceTun.RustStd.Net

/-!
# Token lists and address patterns

The filters of a rule are texts: lists of tokens separated by `;` or `,`, where an empty list, `*` and `ANY` stand for
everything (`isMatchAll`). An address token is an exact address, a range, an octet wildcard or an IPv6 network; a port
token is a port or a range.
-/

namespace AceTun

open RustStd

/-! ## Token lists -/

/-- A list matches everything if it is empty or a single `*` or `ANY`. -/
def isMatchAll (list : Str) : Bool :=
  let t := trim list
  t.isEmpty || t == "*".toList || eqIgnoreAsciiCase t "ANY".toList

/-- The tokens of a list. -/
def splitList (list : Str) : List Str :=
  ((list.splitOnP fun c => c == ';' || c == ',').map trim).filter (! ·.isEmpty)

/-- Strip a trailing `.exe` of any case; the offset is in bytes. -/
def stripExeSuffix (token : Str) : Except Panic Str :=
  if byteLen token ≥ 4 then do
    let tail ← strFrom token (byteLen token - 4)
    if eqIgnoreAsciiCase tail ".exe".toList then strTo token (byteLen token - 4) else pure token
  else pure token

/-! ## Addresses -/

def matchIpv4Pattern (pattern : Str) (ip : Ipv4Addr) : Bool :=
  -- IPv6-looking patterns never match IPv4
  if pattern.contains ':' then false
  else
    match splitOnce '-' pattern with
    | some (start, stop) =>
      match parseIpv4Addr (trim start), parseIpv4Addr (trim stop) with
      | some s, some e => s.toU32 ≤ ip.toU32 && ip.toU32 ≤ e.toU32
      | _, _ => false
    | none =>
      let parts := pattern.splitOn '.'
      parts.length == 4 &&
        (parts.zip ip.octets.toList).all fun (part, octet) =>
          part == "*".toList || parseUnsigned 8 part == some octet.toNat

/-- The network bits of an address, for a prefix length of at most 128. -/
def networkBits (prefixLen : Nat) (ip : Ipv6Addr) : BitVec 128 :=
  BitVec.ofNat 128 ip.toU128 &&& (BitVec.allOnes 128 <<< (128 - prefixLen))

def matchIpv6Pattern (pattern : Str) (ip : Ipv6Addr) : Bool :=
  if pattern == "*".toList then true
  -- IPv4-only patterns never match IPv6
  else if !pattern.contains ':' then false
  else
    match splitOnce '/' pattern with
    | some (net, len) =>
      match parseIpv6Addr (trim net), parseUnsigned 32 (trim len) with
      | some network, some prefixLen =>
        if prefixLen > 128 then false
        else if prefixLen = 0 then true
        else networkBits prefixLen network == networkBits prefixLen ip
      | _, _ => false
    | none =>
      match splitOnce '-' pattern with
      | some (start, stop) =>
        match parseIpv6Addr (trim start), parseIpv6Addr (trim stop) with
        | some s, some e => s.toU128 ≤ ip.toU128 && ip.toU128 ≤ e.toU128
        | _, _ => false
      | none => parseIpv6Addr (trim pattern) == some ip

def matchIpPattern (pattern : Str) (ip : IpAddr) : Bool :=
  if pattern == "*".toList then true
  else
    match ip with
    | .v4 v4 => matchIpv4Pattern pattern v4
    | .v6 v6 => matchIpv6Pattern pattern v6

def matchIpList (list : Str) (ip : IpAddr) : Bool :=
  isMatchAll list || (splitList list).any (matchIpPattern · ip)

/-! ## Ports -/

def matchPortPattern (pattern : Str) (port : UInt16) : Bool :=
  if pattern == "*".toList then true
  else
    match splitOnce '-' pattern with
    | some (start, stop) =>
      match parseUnsigned 16 (trim start), parseUnsigned 16 (trim stop) with
      | some s, some e => s ≤ port.toNat && port.toNat ≤ e
      | _, _ => false
    | none => parseUnsigned 16 (trim pattern) == some port.toNat

def matchPortList (list : Str) (port : UInt16) : Bool :=
  isMatchAll list || (splitList list).any (matchPortPattern · port)

/-! ## The `.exe` suffix -/

/-- A text without a trailing `.exe` of any case; the offset is in characters. -/
def withoutExe (t : Str) : Str :=
  if eqIgnoreAsciiCase (t.drop (t.length - 4)) ".exe".toList then t.take (t.length - 4) else t

/-- The last four bytes of a text are whole characters, if it has that many. -/
def EndsWhole (t : Str) : Prop := byteLen t < 4 ∨ ∃ a b, t = a ++ b ∧ byteLen b = 4

theorem utf8Size_toLower (c : Char) : c.toLower.utf8Size = c.utf8Size := by
  unfold Char.toLower
  split
  · next h =>
    unfold Char.utf8Size
    simp only [UInt32.le_iff_toNat_le] at h ⊢
    simp at h ⊢
    rw [if_pos (by omega), if_pos (by omega)]
  · rfl

theorem byteLen_toAsciiLowercase (s : Str) : byteLen (toAsciiLowercase s) = byteLen s := by
  induction s with
  | nil => rfl
  | cons c s ih =>
    unfold toAsciiLowercase at ih ⊢
    rw [List.map_cons, byteLen_cons, byteLen_cons, utf8Size_toLower, ih]

/-- Texts that differ in case only have the same size, in bytes and in characters. -/
theorem eqIgnoreAsciiCase_size {s t : Str} (h : eqIgnoreAsciiCase s t = true) :
    byteLen s = byteLen t ∧ s.length = t.length := by
  have h' : toAsciiLowercase s = toAsciiLowercase t := by simpa [eqIgnoreAsciiCase] using h
  constructor
  · rw [← byteLen_toAsciiLowercase s, h', byteLen_toAsciiLowercase]
  · simpa [toAsciiLowercase] using congrArg List.length h'

theorem length_le_byteLen (s : Str) : s.length ≤ byteLen s := by
  induction s with
  | nil => exact Nat.le_refl _
  | cons c s ih =>
    have := c.utf8Size_pos
    rw [byteLen_cons, List.length_cons]
    omega

/-- A part of four bytes at the end is `.exe` exactly when the last four characters are. -/
theorem withoutExe_append {a b : Str} (hb : byteLen b = 4) :
    withoutExe (a ++ b) = if eqIgnoreAsciiCase b ".exe".toList then a else a ++ b := by
  unfold withoutExe
  by_cases h : eqIgnoreAsciiCase b ".exe".toList = true
  · have hlen : b.length = 4 := (eqIgnoreAsciiCase_size h).2
    have hcut : (a ++ b).length - 4 = a.length := by simp [hlen]
    rw [hcut, List.drop_left, List.take_left]
  · rw [if_neg h]
    split
    · next h' =>
      -- the last four characters take four bytes, so they are the part itself
      exfalso
      obtain ⟨hbytes, -⟩ := eqIgnoreAsciiCase_size h'
      have hsplit := List.take_append_drop ((a ++ b).length - 4) (a ++ b)
      have hlen := congrArg byteLen hsplit
      rw [byteLen_append, byteLen_append, hbytes, hb, show byteLen ".exe".toList = 4 by decide] at hlen
      obtain ⟨-, hb'⟩ := append_inj_byteLen hsplit (by omega)
      rw [hb'] at h'
      exact h h'
    · rfl

/-- **Where the cut falls between characters, the suffix is stripped**; elsewhere the function panics. -/
theorem stripExeSuffix_ok {t : Str} (h : EndsWhole t) : stripExeSuffix t = .ok (withoutExe t) := by
  unfold stripExeSuffix
  rcases h with h | ⟨a, b, rfl, hb⟩
  · rw [if_neg (by omega)]
    have hlen := length_le_byteLen t
    have hno : ¬ eqIgnoreAsciiCase (t.drop (t.length - 4)) ".exe".toList = true := by
      intro h'
      have hd : (t.drop (t.length - 4)).length = 4 := (eqIgnoreAsciiCase_size h').2
      rw [List.length_drop] at hd
      omega
    rw [withoutExe, if_neg hno]
    rfl
  · have hcut : byteLen (a ++ b) - 4 = byteLen a := by rw [byteLen_append, hb]; omega
    rw [if_pos (by rw [byteLen_append, hb]; omega), hcut, strFrom_append rfl, strTo_append rfl, withoutExe_append hb]
    simp only [bind, Except.bind]
    split <;> rfl

theorem stripExeSuffix_panic {t : Str} (h : ¬ EndsWhole t) : stripExeSuffix t = .error .notCharBoundary := by
  obtain ⟨hlen, hcut⟩ := not_or.mp h
  have hnone : splitAtByte (byteLen t - 4) t = none := by
    rw [Option.eq_none_iff_forall_ne_some]
    rintro ⟨a, b⟩ hs
    obtain ⟨rfl, ha⟩ := splitAtByte_eq_some.mp hs
    rw [byteLen_append] at ha hlen
    exact hcut ⟨a, b, rfl, by omega⟩
  rw [stripExeSuffix, if_pos (by omega), strFrom, hnone]
  rfl

end AceTun
