import AceTun.Proxy.Conversation

/-!
# What a proxy reads

`decodeRequest` reads a request as RFC 1928 lays it out, and `decodeUserpass` the credentials as RFC 1929 does: both
return what they read and what is left. A field is read back whatever follows it (`takeExactly_append`,
`takeField_append`), so what the client sends is read as the client meant it, and what it cannot send it refuses
(`socks5_messages_decodable`).
-/

namespace AceTun

open RustStd

/-! ## Fields -/

/-- The first `n` bytes, and what is left. -/
def takeExactly (n : Nat) (bs : Bytes) : Option (Bytes × Bytes) :=
  if n ≤ bs.length then some (bs.take n, bs.drop n) else none

/-- A field behind a byte that counts it. -/
def takeField : Bytes → Option (Bytes × Bytes)
  | [] => none
  | len :: bs => takeExactly len.toNat bs

/-- A number of two bytes. -/
def takePort : Bytes → Option (UInt16 × Bytes)
  | hi :: lo :: bs => some (UInt16.ofNat (hi.toNat * 256 + lo.toNat), bs)
  | _ => none

theorem takeExactly_append (field rest : Bytes) : takeExactly field.length (field ++ rest) = some (field, rest) := by
  rw [takeExactly, if_pos (by rw [List.length_append]; omega), List.take_left, List.drop_left]

/-- A field of at most 255 bytes is counted by its length byte. -/
theorem takeField_append {field : Bytes} (h : field.length ≤ 255) (rest : Bytes) :
    takeField (UInt8.ofNat field.length :: (field ++ rest)) = some (field, rest) := by
  have hlen : (UInt8.ofNat field.length).toNat = field.length := by
    rw [UInt8.toNat_ofNat']
    omega
  rw [takeField, hlen, takeExactly_append]

theorem takePort_toBeBytes (port : UInt16) (rest : Bytes) : takePort (toBeBytes port ++ rest) = some (port, rest) := by
  have hp := port.toNat_lt
  have hvalue : (UInt8.ofNat (port.toNat / 256)).toNat * 256 + (UInt8.ofNat (port.toNat % 256)).toNat = port.toNat := by
    rw [UInt8.toNat_ofNat', UInt8.toNat_ofNat']
    omega
  simp only [toBeBytes, List.cons_append, List.nil_append, takePort, hvalue, UInt16.ofNat_toNat]

/-! ## Messages -/

/-- An address of RFC 1928, by its type. -/
inductive Socks5Address where
  | ipv4 (octets : Bytes)
  | domain (name : Bytes)
  | ipv6 (octets : Bytes)
  deriving DecidableEq, Repr

structure Socks5Request where
  command : UInt8
  address : Socks5Address
  port : UInt16
  deriving DecidableEq, Repr

/-- An address of a type, and what is left. -/
def decodeAddress (atyp : UInt8) (bs : Bytes) : Option (Socks5Address × Bytes) :=
  if atyp = 0x01 then (takeExactly 4 bs).map (Prod.map .ipv4 id)
  else if atyp = 0x03 then (takeField bs).map (Prod.map .domain id)
  else if atyp = 0x04 then (takeExactly 16 bs).map (Prod.map .ipv6 id)
  else none

/-- A request: version 5, a command, a reserved zero, the type of the address, the address and the port. -/
def decodeRequest : Bytes → Option (Socks5Request × Bytes)
  | ver :: cmd :: rsv :: atyp :: bs =>
    if ver = 0x05 ∧ rsv = 0x00 then do
      let (address, bs) ← decodeAddress atyp bs
      let (port, bs) ← takePort bs
      some (⟨cmd, address, port⟩, bs)
    else none
  | _ => none

/-- Credentials: version 1, the user name and the password, each behind its length. -/
def decodeUserpass : Bytes → Option ((Bytes × Bytes) × Bytes)
  | ver :: bs =>
    if ver = 0x01 then do
      let (user, bs) ← takeField bs
      let (pass, bs) ← takeField bs
      some ((user, pass), bs)
    else none
  | [] => none

/-! ## Reading what the client writes -/

/-- What is to be read of a target. -/
def Target.address : Target → Socks5Address
  | .ip (.v4 v4) _ => .ipv4 v4.octets.toList
  | .ip (.v6 v6) _ => .ipv6 v6.octets.toList
  | .domain host _ => .domain (asBytes host)

theorem decodeRequest_build {dest : Target} {msg : Bytes} (h : buildSocks5ConnectRequest dest = .ok msg) (rest : Bytes) :
    decodeRequest (msg ++ rest) = some (⟨SOCKS5_CMD_CONNECT, dest.address, dest.port⟩, rest) := by
  rcases dest with ⟨v4 | v6, port⟩ | ⟨host, port⟩
  · cases h
    have haddr := takeExactly_append v4.octets.toList (toBeBytes port ++ rest)
    rw [Vector.length_toList] at haddr
    simp [decodeRequest, decodeAddress, SOCKS5_VERSION, SOCKS5_ATYP_IPV4, haddr, takePort_toBeBytes, Target.address,
      Target.port]
  · cases h
    have haddr := takeExactly_append v6.octets.toList (toBeBytes port ++ rest)
    rw [Vector.length_toList] at haddr
    simp [decodeRequest, decodeAddress, SOCKS5_VERSION, SOCKS5_ATYP_IPV6, haddr, takePort_toBeBytes, Target.address,
      Target.port]
  · obtain ⟨-, hle⟩ := encodableTarget_iff.mpr ⟨msg, h⟩
    have haddr := takeField_append hle (toBeBytes port ++ rest)
    unfold buildSocks5ConnectRequest at h
    dsimp only at h
    split at h
    · cases h
    · cases h
      simp [decodeRequest, decodeAddress, SOCKS5_VERSION, SOCKS5_ATYP_DOMAIN, haddr, takePort_toBeBytes, Target.address,
        Target.port]

theorem decodeUserpass_build {user pass : Str} {msg : Bytes} (h : buildSocks5Userpass user pass = .ok msg)
    (rest : Bytes) : decodeUserpass (msg ++ rest) = some ((asBytes user, asBytes pass), rest) := by
  obtain ⟨huser, hpass⟩ := userpass_lengths h
  have hread := takeField_append huser (UInt8.ofNat (asBytes pass).length :: (asBytes pass ++ rest))
  have hread' := takeField_append hpass rest
  rw [buildSocks5Userpass, if_neg (by omega)] at h
  cases h
  simp [decodeUserpass, hread, hread']

theorem buildSocks5Userpass_isOk_iff {user pass : Str} :
    (∃ msg, buildSocks5Userpass user pass = .ok msg) ↔ (asBytes user).length ≤ 255 ∧ (asBytes pass).length ≤ 255 := by
  constructor
  · rintro ⟨msg, h⟩
    exact userpass_lengths h
  · rintro ⟨huser, hpass⟩
    rw [buildSocks5Userpass, if_neg (by omega)]
    exact ⟨_, rfl⟩

/-- **A proxy reads what the client means.** A request is built exactly for addresses and for domains of 1 to 255 bytes,
and credentials exactly up to 255 bytes each; and whatever follows the message, it is read back and the rest is left. -/
theorem socks5_messages_decodable :
    (∀ dest : Target,
      ((∃ msg, buildSocks5ConnectRequest dest = .ok msg) ↔
        ∀ host port, dest = .domain host port → 1 ≤ (asBytes host).length ∧ (asBytes host).length ≤ 255) ∧
      ∀ msg, buildSocks5ConnectRequest dest = .ok msg → ∀ rest,
        decodeRequest (msg ++ rest) = some (⟨SOCKS5_CMD_CONNECT, dest.address, dest.port⟩, rest)) ∧
    ∀ user pass : Str,
      ((∃ msg, buildSocks5Userpass user pass = .ok msg) ↔
        (asBytes user).length ≤ 255 ∧ (asBytes pass).length ≤ 255) ∧
      ∀ msg, buildSocks5Userpass user pass = .ok msg → ∀ rest,
        decodeUserpass (msg ++ rest) = some ((asBytes user, asBytes pass), rest) := by
  refine ⟨fun dest => ⟨?_, fun msg h rest => decodeRequest_build h rest⟩,
    fun user pass => ⟨buildSocks5Userpass_isOk_iff, fun msg h rest => decodeUserpass_build h rest⟩⟩
  rw [← encodableTarget_iff]
  cases dest with
  | ip ip port => exact iff_of_true trivial fun host port h => by cases h
  | domain host port =>
    constructor
    · rintro ⟨hne, hle⟩ host' port' ⟨⟩
      exact ⟨List.length_pos_iff.mpr fun h => hne (asBytes_eq_nil.mp h), hle⟩
    · intro h
      obtain ⟨hpos, hle⟩ := h host port rfl
      exact ⟨fun hnil => List.length_pos_iff.mp hpos (asBytes_eq_nil.mpr hnil), hle⟩

end AceTun
