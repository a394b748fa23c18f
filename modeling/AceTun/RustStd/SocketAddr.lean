import AceTun.RustStd.Ipv6

/-!
# Socket addresses in text

`parseSocketAddr` is `str::parse::<SocketAddr>`: an IPv4 address or an IPv6 address in brackets, a colon and a port. It
reads the printed form back (`parseSocketAddr_toStr`), and an IPv6 address without brackets is refused
(`parseSocketAddr_unbracketed`).
-/

namespace RustStd

/-- `Parser::read_port`; the number of digits is not limited. -/
def readPort (s : Str) : Option (Nat × Str) := do
  let s ← readGivenChar ':' s
  readNumber 10 s.length true 65536 s

/-- `Parser::read_scope_id`. -/
def readScopeId (s : Str) : Option (Nat × Str) := do
  let s ← readGivenChar '%' s
  readNumber 10 s.length true (2 ^ 32) s

/-- `Parser::read_socket_addr_v4`. -/
def readSocketAddrV4 (s : Str) : Option (SocketAddr × Str) := do
  let (ip, s) ← readIpv4Addr s
  let (port, s) ← readPort s
  some (⟨.v4 ip, UInt16.ofNat port⟩, s)

/-- `Parser::read_socket_addr_v6`; the scope is not kept. -/
def readSocketAddrV6 (s : Str) : Option (SocketAddr × Str) := do
  let s ← readGivenChar '[' s
  let (ip, s) ← readIpv6Addr s
  let s := ((readScopeId s).map Prod.snd).getD s
  let s ← readGivenChar ']' s
  let (port, s) ← readPort s
  some (⟨.v6 ip, UInt16.ofNat port⟩, s)

/-- `str::parse::<SocketAddr>`. -/
def parseSocketAddr (s : Str) : Option SocketAddr :=
  match (readSocketAddrV4 s).or (readSocketAddrV6 s) with
  | some (addr, []) => some addr
  | _ => none

example : parseSocketAddr "[2001:db8::1]:443".toList = some ⟨.v6 (.new 0x2001 0xdb8 0 0 0 0 0 1), 443⟩ ∧
    parseSocketAddr "2001:db8::1:443".toList = none := by decide +kernel

/-! ## Printed forms are read back -/

theorem readPort_showNat (port : UInt16) : readPort (':' :: showNat port.toNat) = some (port.toNat, []) := by
  have hlt : port.toNat < 65536 := port.toNat_lt
  have hne := showNat_ne_nil port.toNat
  have htake : (showNat port.toNat).takeWhile (fun c => (toDigit 10 c).isSome) = showNat port.toNat := by
    have h := @takeWhile_digits (showNat port.toNat) [] (fun c => isDigit_of_mem_showNat)
      fun c hc => by cases hc
    rwa [List.append_nil] at h
  have hvalue : digitsValue 10 (showNat port.toNat) = port.toNat := digitsValue_zeros 0 port.toNat
  simp only [readPort, readGivenChar, if_true, Option.bind_eq_bind, Option.bind_some]
  unfold readNumber
  dsimp only
  rw [htake, if_neg (Nat.lt_irrefl _), if_neg hne, if_neg (by simp), hvalue, if_pos hlt, List.drop_length]

theorem readSocketAddrV4_toStr (ip : Ipv4Addr) (port : UInt16) :
    readSocketAddrV4 (ip.toStr ++ ':' :: showNat port.toNat) = some (⟨.v4 ip, port⟩, []) := by
  have hread : readIpv4Addr (ip.toStr ++ ':' :: showNat port.toNat) = some (ip, ':' :: showNat port.toNat) := by
    refine readIpv4Addr_iff.mpr ⟨rfl, ?_⟩
    rintro c ⟨⟩
    rfl
  simp only [readSocketAddrV4, hread, Option.bind_eq_bind, Option.bind_some, readPort_showNat, UInt16.ofNat_toNat]

theorem endsGroups_bracket (s : Str) : EndsGroups (']' :: s) := by
  refine ⟨?_, ?_⟩
  · rintro c ⟨⟩
    exact ⟨by decide, by decide⟩
  · rintro t ⟨⟩

theorem readSocketAddrV6_toStr (ip : Ipv6Addr) (port : UInt16) :
    readSocketAddrV6 ('[' :: (ip.toStr ++ ']' :: ':' :: showNat port.toNat)) = some (⟨.v6 ip, port⟩, []) := by
  have hscope : readScopeId (']' :: ':' :: showNat port.toNat) = none := rfl
  simp only [readSocketAddrV6, readGivenChar, if_true, Option.bind_eq_bind, Option.bind_some,
    readIpv6Addr_toStr ip (endsGroups_bracket _), hscope, Option.map_none, Option.getD_none, readPort_showNat,
    UInt16.ofNat_toNat]

theorem readSocketAddrV4_bracket (s : Str) : readSocketAddrV4 ('[' :: s) = none := by
  have hread : readIpv4Addr ('[' :: s) = none := by
    refine readIpv4Addr_endsGroup ?_
    rintro c ⟨⟩
    exact ⟨by decide, by decide⟩
  rw [readSocketAddrV4, hread]
  rfl

/-- **The printed form of a socket address is read back.** -/
theorem parseSocketAddr_toStr (addr : SocketAddr) : parseSocketAddr addr.toStr = some addr := by
  obtain ⟨ip, port⟩ := addr
  cases ip with
  | v4 ip =>
    have htext : SocketAddr.toStr ⟨.v4 ip, port⟩ = ip.toStr ++ ':' :: showNat port.toNat := by simp [SocketAddr.toStr]
    rw [htext, parseSocketAddr, readSocketAddrV4_toStr, Option.some_or]
  | v6 ip =>
    have htext : SocketAddr.toStr ⟨.v6 ip, port⟩ = '[' :: (ip.toStr ++ ']' :: ':' :: showNat port.toNat) := by
      simp [SocketAddr.toStr]
    rw [htext, parseSocketAddr, readSocketAddrV4_bracket, readSocketAddrV6_toStr, Option.none_or]

/-! ## Brackets are needed -/

/-- A number that is read to the end is all digits. -/
theorem isDigit_of_readNumber {maxDigits bound n : Nat} {zero : Bool} {s : Str}
    (h : readNumber 10 maxDigits zero bound s = some (n, [])) : ∀ c ∈ s, c.isDigit = true := by
  have hdrop := readNumber_rest h
  simp only [toDigit_isSome] at hdrop
  have hall := (List.takeWhile_prefix Char.isDigit).eq_of_length_le (List.drop_eq_nil_iff.mp hdrop.symm)
  intro c hc
  rw [← hall] at hc
  exact List.mem_takeWhile_imp hc

theorem count_colon_eq_zero {s : Str} (h : ∀ c ∈ s, c.isDigit = true ∨ c = '.') : s.count ':' = 0 := by
  refine List.count_eq_zero.mpr fun hc => ?_
  rcases h ':' hc with hd | hd
  · exact absurd hd (by decide)
  · exact absurd hd (by decide)

/-- What is read as an IPv4 socket address has one colon. -/
theorem count_colon_of_readSocketAddrV4 {s : Str} {addr : SocketAddr} (h : readSocketAddrV4 s = some (addr, [])) :
    s.count ':' = 1 := by
  simp only [readSocketAddrV4, readPort, Option.bind_eq_bind, Option.bind_eq_some_iff] at h
  obtain ⟨⟨ip, t⟩, hip, ⟨port, r⟩, ⟨u, hu, hport⟩, h⟩ := h
  obtain ⟨-, rfl⟩ := Prod.mk.inj (Option.some.inj h)
  obtain ⟨rfl, -⟩ := readIpv4Addr_iff.mp hip
  obtain rfl : t = ':' :: u := by
    cases t with
    | nil => cases hu
    | cons c t =>
      obtain ⟨rfl, hu⟩ := Option.ite_none_right_eq_some.mp hu
      rw [Option.some.inj hu]
  rw [List.count_append, List.count_cons_self, count_colon_eq_zero fun c hc => Ipv4Addr.mem_toStr hc,
    count_colon_eq_zero fun c hc => .inl (isDigit_of_readNumber hport c hc)]

/-- **An IPv6 address without brackets is refused.** -/
theorem parseSocketAddr_unbracketed (ip : Ipv6Addr) (port : UInt16) :
    parseSocketAddr (ip.toStr ++ ':' :: showNat port.toNat) = none := by
  have hbracket : '[' ∉ ip.toStr ++ ':' :: showNat port.toNat := by
    intro h
    rcases List.mem_append.mp h with h | h
    · exact Ipv6Addr.not_mem_toStr (by decide) (by decide) (by decide) h
    · rcases List.mem_cons.mp h with h | h
      · exact absurd h (by decide)
      · exact absurd (isDigit_of_mem_showNat h) (by decide)
  have hv6 : readSocketAddrV6 (ip.toStr ++ ':' :: showNat port.toNat) = none := by
    rw [readSocketAddrV6, readGivenChar_eq_none hbracket]
    rfl
  have hcount : 2 ≤ (ip.toStr ++ ':' :: showNat port.toNat).count ':' := by
    have hcolon := List.count_pos_iff.mpr (colon_mem_of_parseIpv6Addr (parseIpv6Addr_toStr ip))
    rw [List.count_append, List.count_cons_self]
    omega
  unfold parseSocketAddr
  rw [hv6, Option.or_none]
  split
  · next addr hv4 =>
    have hone := count_colon_of_readSocketAddrV4 hv4
    omega
  · rfl

end RustStd
