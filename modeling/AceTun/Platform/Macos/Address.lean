import AceTun.RustStd.Netmask
import AceTun.RustStd.Stream
import AceTun.Platform.Adapter
import AceTun.Platform.Macos.Process

/-!
# Assigning an address on macOS

`addAddress` asks the kernel for an address with a record of three socket addresses, whose bytes the kernel reads by the
layout of the family (`readSockaddrIn`, `readSockaddrIn6`).

A `sockaddr_in` has its port before its address, and `v4Sockaddr` puts the address where `sa_data` begins, which is the
place of the port. So the kernel reads the first two octets as a port and the last two as the beginning of the address
(`readSockaddrIn_v4Sockaddr`), and a request says what was asked for only in the case that everything is zero
(`requestV4_denotes_iff`). The IPv6 request always does (`requestV6_denotes`).
-/

namespace AceTun.Macos

open RustStd

/-! ## Records -/

def AF_INET : UInt8 := 2
def AF_INET6 : UInt8 := 30
def IFNAMSIZ : Nat := 16
def IN6_IFF_NODAD : Int32 := 0x0020
def SIOCAIFADDR : UInt64 := 0x4040691a
def SIOCAIFADDR_IN6 : UInt64 := 0x4080691a

/-- The size that the number of an ioctl has in it. -/
def ioctlSize (number : UInt64) : Nat := ((number >>> 16) &&& 0x3fff).toNat

/-- A number in memory, on a little-endian machine. -/
def leBytes (k n : Nat) : Bytes := (Ipv6Addr.bytesOf k n).reverse

/-- `struct sockaddr`. -/
structure Sockaddr where
  saLen : UInt8
  saFamily : UInt8
  saData : Vector Int8 14
  deriving DecidableEq

/-- `struct sockaddr_in6`. -/
structure SockaddrIn6 where
  sin6Len : UInt8
  sin6Family : UInt8
  sin6Port : UInt16
  sin6Flowinfo : UInt32
  sin6Addr : Ipv6Addr
  sin6ScopeId : UInt32
  deriving DecidableEq

/-- `struct ifaliasreq`. -/
structure IfAliasRequest where
  ifraName : Vector Int8 IFNAMSIZ
  ifraAddr : Sockaddr
  ifraBroadaddr : Sockaddr
  ifraMask : Sockaddr
  deriving DecidableEq

/-- `struct in6_addrlifetime`. -/
structure In6AddrLifetime where
  ia6tExpire : Int64
  ia6tPreferred : Int64
  ia6tVltime : UInt32
  ia6tPltime : UInt32
  deriving DecidableEq

/-- `struct in6_ifaliasreq`. -/
structure In6AliasRequest where
  ifraName : Vector Int8 IFNAMSIZ
  ifraAddr : SockaddrIn6
  ifraDstaddr : SockaddrIn6
  ifraPrefixmask : SockaddrIn6
  ifraFlags : Int32
  ifraLifetime : In6AddrLifetime
  deriving DecidableEq

/-- What a `c_char` array has in memory. -/
def charBytes {n : Nat} (chars : Vector Int8 n) : Bytes := chars.toList.map Int8.toUInt8

def Sockaddr.bytes (s : Sockaddr) : Bytes := s.saLen :: s.saFamily :: charBytes s.saData

def SockaddrIn6.bytes (s : SockaddrIn6) : Bytes :=
  s.sin6Len :: s.sin6Family :: (leBytes 2 s.sin6Port.toNat ++ (leBytes 4 s.sin6Flowinfo.toNat ++
    (s.sin6Addr.octets.toList ++ leBytes 4 s.sin6ScopeId.toNat)))

def IfAliasRequest.bytes (r : IfAliasRequest) : Bytes :=
  charBytes r.ifraName ++ (r.ifraAddr.bytes ++ (r.ifraBroadaddr.bytes ++ r.ifraMask.bytes))

def In6AddrLifetime.bytes (t : In6AddrLifetime) : Bytes :=
  leBytes 8 t.ia6tExpire.toUInt64.toNat ++ leBytes 8 t.ia6tPreferred.toUInt64.toNat ++ leBytes 4 t.ia6tVltime.toNat ++
    leBytes 4 t.ia6tPltime.toNat

def In6AliasRequest.bytes (r : In6AliasRequest) : Bytes :=
  charBytes r.ifraName ++ (r.ifraAddr.bytes ++ (r.ifraDstaddr.bytes ++ (r.ifraPrefixmask.bytes ++
    (leBytes 4 r.ifraFlags.toUInt32.toNat ++ r.ifraLifetime.bytes))))

@[simp] theorem length_leBytes (k n : Nat) : (leBytes k n).length = k := by
  rw [leBytes, List.length_reverse, Ipv6Addr.length_bytesOf]

@[simp] theorem length_charBytes {n : Nat} (chars : Vector Int8 n) : (charBytes chars).length = n := by
  rw [charBytes, List.length_map, Vector.length_toList]

@[simp] theorem Sockaddr.length_bytes (s : Sockaddr) : s.bytes.length = 16 := by simp [bytes]

@[simp] theorem SockaddrIn6.length_bytes (s : SockaddrIn6) : s.bytes.length = 28 := by simp [bytes]

/-- The requests are as long as the numbers of their ioctls say. -/
theorem IfAliasRequest.length_bytes (r : IfAliasRequest) : r.bytes.length = ioctlSize SIOCAIFADDR := by
  simp only [bytes, List.length_append, length_charBytes, Sockaddr.length_bytes]
  rfl

theorem In6AliasRequest.length_bytes (r : In6AliasRequest) : r.bytes.length = ioctlSize SIOCAIFADDR_IN6 := by
  simp only [bytes, In6AddrLifetime.bytes, List.length_append, length_charBytes, SockaddrIn6.length_bytes,
    length_leBytes]
  rfl

/-! ## Filling them -/

/-- Every slot that has a byte takes it, as in `iter_mut().zip(bytes)`. -/
def overwrite : (slots : List Int8) → (bytes : Bytes) → List Int8
  | [], _ => []
  | slots, [] => slots
  | _ :: slots, byte :: bytes => byte.toInt8 :: overwrite slots bytes

theorem length_overwrite (slots : List Int8) (bytes : Bytes) : (overwrite slots bytes).length = slots.length := by
  fun_induction overwrite slots bytes with
  | case1 => rfl
  | case2 => rfl
  | case3 _ slots byte bytes ih => rw [List.length_cons, List.length_cons, ih]

def fill {n : Nat} (slots : Vector Int8 n) (bytes : Bytes) : Vector Int8 n :=
  ⟨(overwrite slots.toList bytes).toArray, by rw [List.size_toArray, length_overwrite, Vector.length_toList]⟩

/-- `fill_if_name`: the name with the NUL after it. -/
def fillIfName (slot : Vector Int8 IFNAMSIZ) (name : Bytes) : Vector Int8 IFNAMSIZ := fill slot (name ++ [0])

/-- `v4_sockaddr`: the octets go to the first four bytes of `sa_data`. -/
def v4Sockaddr (addr : Ipv4Addr) : Sockaddr where
  saLen := 16
  saFamily := AF_INET
  saData := fill (.replicate 14 0) (addr.octets.toList.take 4)

/-- `v6_sockaddr`. -/
def v6Sockaddr (addr : Ipv6Addr) : SockaddrIn6 where
  sin6Len := 28
  sin6Family := AF_INET6
  sin6Port := 0
  sin6Flowinfo := 0
  sin6Addr := addr
  sin6ScopeId := 0

/-- `netmask_v4` and `netmask_v6`: ones shifted to the left. There is none for a length beyond the width, where the
subtraction overflows. -/
def netmask {A : Type} (w : Nat) (unspecified : A) (ofBits : BitVec w → A) (prefixLen : UInt8) : Option A :=
  if prefixLen = 0 then some unspecified
  else if w < prefixLen.toNat then none
  else some (ofBits (BitVec.allOnes w <<< (w - prefixLen.toNat)))

def netmaskV4 : (prefixLen : UInt8) → Option Ipv4Addr := netmask 32 .UNSPECIFIED fun mask => .ofU32 mask.toNat

def netmaskV6 : (prefixLen : UInt8) → Option Ipv6Addr := netmask 128 .UNSPECIFIED fun mask => .ofU128 mask.toNat

/-- The request of `add_address_v4`. -/
def requestV4 (name : Bytes) (addr : Ipv4Addr) (prefixLen : UInt8) : Option IfAliasRequest := do
  let mask ← netmaskV4 prefixLen
  some
    { ifraName := fillIfName (.replicate IFNAMSIZ 0) name
      ifraAddr := v4Sockaddr addr
      ifraBroadaddr := v4Sockaddr addr
      ifraMask := v4Sockaddr mask }

/-- The request of `add_address_v6`; the address has no peer and does not expire. -/
def requestV6 (name : Bytes) (addr : Ipv6Addr) (prefixLen : UInt8) : Option In6AliasRequest := do
  let mask ← netmaskV6 prefixLen
  some
    { ifraName := fillIfName (.replicate IFNAMSIZ 0) name
      ifraAddr := v6Sockaddr addr
      ifraDstaddr := ⟨0, 0, 0, 0, .UNSPECIFIED, 0⟩
      ifraPrefixmask := v6Sockaddr mask
      ifraFlags := IN6_IFF_NODAD
      ifraLifetime := ⟨0, 0, 0xffffffff, 0xffffffff⟩ }

/-! ## `add_address` -/

/-- The calls that an address is assigned with, and how they end. -/
structure Control where
  socket : (family : UInt8) → Except IoError Unit
  ifIndexToName : (index : UInt32) → Except IoError Bytes
  ioctl : (number : UInt64) → (argument : Bytes) → Except IoError Unit

/-- A socket, the name of the interface, and one ioctl. There is no result where the request overflows. -/
def assignAddress (os : Control) (family : UInt8) (number : UInt64) (request : (name : Bytes) → Option Bytes)
    (ifindex : UInt32) : Option (Except IoError Unit) :=
  match os.socket family with
  | .error e => some (.error e)
  | .ok () =>
    match os.ifIndexToName ifindex with
    | .error e => some (.error e)
    | .ok name => (request name).map (os.ioctl number)

def addAddressV4 (os : Control) (ifindex : UInt32) (addr : Ipv4Addr) (prefixLen : UInt8) :
    Option (Except IoError Unit) :=
  assignAddress os AF_INET SIOCAIFADDR (fun name => (requestV4 name addr prefixLen).map IfAliasRequest.bytes) ifindex

def addAddressV6 (os : Control) (ifindex : UInt32) (addr : Ipv6Addr) (prefixLen : UInt8) :
    Option (Except IoError Unit) :=
  assignAddress os AF_INET6 SIOCAIFADDR_IN6 (fun name => (requestV6 name addr prefixLen).map In6AliasRequest.bytes)
    ifindex

def addAddress (os : Control) (ifindex : UInt32) (addr : IpAddr) (prefixLen : UInt8) : Option (Except IoError Unit) :=
  match addr with
  | .v4 v4 => addAddressV4 os ifindex v4 prefixLen
  | .v6 v6 => addAddressV6 os ifindex v6 prefixLen

/-! ## Masks -/

theorem netmask_of_le {A : Type} {w : Nat} {unspecified : A} {ofBits : BitVec w → A} {prefixLen : UInt8}
    (hzero : unspecified = ofBits (BitVec.allOnes w <<< w)) (h : prefixLen.toNat ≤ w) :
    netmask w unspecified ofBits prefixLen = some (ofBits (BitVec.allOnes w <<< (w - prefixLen.toNat))) := by
  unfold netmask
  split
  · next h0 =>
    rw [hzero, h0]
    rfl
  · rw [if_neg (by omega)]

/-- The masks have exactly the ones that are asked for. -/
theorem netmaskV4_bits {prefixLen : UInt8} (h : prefixLen.toNat ≤ 32) :
    ∃ mask, netmaskV4 prefixLen = some mask ∧ (IpAddr.v4 mask).bits = leadingOnes 32 prefixLen.toNat :=
  ⟨_, netmask_of_le (by decide) h, Ipv4Addr.bits_mask h⟩

theorem netmaskV6_bits {prefixLen : UInt8} (h : prefixLen.toNat ≤ 128) :
    ∃ mask, netmaskV6 prefixLen = some mask ∧ (IpAddr.v6 mask).bits = leadingOnes 128 prefixLen.toNat :=
  ⟨_, netmask_of_le (by decide) h, Ipv6Addr.bits_mask h⟩

/-- The ioctl gets the request, once there is a socket and the interface has a name. -/
theorem assignAddress_sends {os : Control} {family : UInt8} {number : UInt64} {request : Bytes → Option Bytes}
    {ifindex : UInt32} {name bytes : Bytes} (hsocket : os.socket family = .ok ())
    (hname : os.ifIndexToName ifindex = .ok name) (hrequest : request name = some bytes) :
    assignAddress os family number request ifindex = some (os.ioctl number bytes) := by
  unfold assignAddress
  rw [hsocket]
  dsimp only
  rw [hname]
  dsimp only
  rw [hrequest]
  rfl

/-! ## What the kernel reads -/

/-- A socket address as it is read. -/
structure Inet (A : Type) where
  len : UInt8
  family : UInt8
  port : UInt16
  addr : A
  deriving DecidableEq, Repr

/-- The length, the family, the port in network order, and `n` octets from `start` on. -/
def readInet {A : Type} (start n : Nat) (ofOctets : Vector UInt8 n → A) (bytes : Bytes) : Option (Inet A) := do
  let len ← bytes[0]?
  let family ← bytes[1]?
  let port ← readU16Be bytes 2
  let octets ← tryIntoArray n (← getRange bytes start (start + n))
  some ⟨len, family, port, ofOctets octets⟩

/-- The layout of `sockaddr_in`. -/
def readSockaddrIn : Bytes → Option (Inet Ipv4Addr) := readInet 4 4 .mk

/-- The layout of `sockaddr_in6`, which has the flow label before the address. -/
def readSockaddrIn6 : Bytes → Option (Inet Ipv6Addr) := readInet 8 16 .mk

/-- What is read is of the family, without a port, and has such an address. -/
def ReadsAs {A : Type} (family : UInt8) (P : A → Prop) (read : Option (Inet A)) : Prop :=
  ∃ s, read = some s ∧ s.family = family ∧ s.port = 0 ∧ P s.addr

/-- The record asks for the address, with itself for the broadcast address and a mask of so many ones. -/
def RequestDenotes (argument : Bytes) (addr : Ipv4Addr) (n : Nat) : Prop :=
  ReadsAs AF_INET (· = addr) (readSockaddrIn (argument.drop 16)) ∧
    ReadsAs AF_INET (· = addr) (readSockaddrIn (argument.drop 32)) ∧
    ReadsAs AF_INET (fun mask => (IpAddr.v4 mask).bits = leadingOnes 32 n) (readSockaddrIn (argument.drop 48))

/-- The record asks for the address with a mask of so many ones. -/
def RequestDenotesV6 (argument : Bytes) (addr : Ipv6Addr) (n : Nat) : Prop :=
  ReadsAs AF_INET6 (· = addr) (readSockaddrIn6 (argument.drop 16)) ∧
    ReadsAs AF_INET6 (fun mask => (IpAddr.v6 mask).bits = leadingOnes 128 n) (readSockaddrIn6 (argument.drop 72))

theorem readInet_eq {A : Type} {start n : Nat} (ofOctets : Vector UInt8 n → A) (len family p q : UInt8) {pad : Bytes}
    (hpad : 4 + pad.length = start) (octets : Vector UInt8 n) (rest : Bytes) :
    readInet start n ofOctets (len :: family :: p :: q :: (pad ++ (octets.toList ++ rest))) =
      some ⟨len, family, UInt16.ofNat (beNat [p, q]), ofOctets octets⟩ := by
  have hport : readU16Be (len :: family :: p :: q :: (pad ++ (octets.toList ++ rest))) 2 =
      some (UInt16.ofNat (beNat [p, q])) := by
    simp [readU16Be, getRange]
  have hrange : getRange (len :: family :: p :: q :: (pad ++ (octets.toList ++ rest))) start (start + n) =
      some octets.toList := by
    have hdrop : (len :: family :: p :: q :: (pad ++ (octets.toList ++ rest))).drop start = octets.toList ++ rest := by
      rw [← hpad, Nat.add_comm]
      exact List.drop_left
    rw [getRange, if_pos ⟨Nat.le_add_right _ _, by simp; omega⟩, hdrop, Nat.add_sub_cancel_left,
      List.take_left' octets.length_toList]
  have harray : tryIntoArray n octets.toList = some octets := by
    rw [tryIntoArray, dif_pos octets.length_toList]
    rfl
  simp [readInet, hport, hrange, harray]

/-! ## IPv4 -/

/-- **The first half of an address is read as a port**, and its second half as the first one. -/
theorem readSockaddrIn_v4Sockaddr (a b c d : UInt8) (rest : Bytes) :
    readSockaddrIn ((v4Sockaddr (.new a b c d)).bytes ++ rest) =
      some ⟨16, AF_INET, UInt16.ofNat (beNat [a, b]), .new c d 0 0⟩ :=
  @readInet_eq _ 4 4 Ipv4Addr.mk 16 AF_INET a b [] rfl #v[c, d, 0, 0] (List.replicate 8 0 ++ rest)

theorem ofNat_beNat_eq_zero {a b : UInt8} : UInt16.ofNat (beNat [a, b]) = 0 ↔ a = 0 ∧ b = 0 := by
  have ha := a.toNat_lt
  have hb := b.toNat_lt
  have hvalue : beNat [a, b] = a.toNat * 256 + b.toNat := by simp [beNat]
  rw [← UInt16.toNat_inj, UInt16.toNat_ofNat', hvalue, ← UInt8.toNat_inj, ← UInt8.toNat_inj]
  simp only [UInt16.reduceToNat, UInt8.reduceToNat]
  omega

theorem readsAs_v4Sockaddr {P : Ipv4Addr → Prop} {ip : Ipv4Addr} {rest : Bytes} :
    ReadsAs AF_INET P (readSockaddrIn ((v4Sockaddr ip).bytes ++ rest)) ↔
      ∃ c d, ip = .new 0 0 c d ∧ P (.new c d 0 0) := by
  obtain ⟨a, b, c, d, rfl⟩ := ip.exists_new
  rw [readSockaddrIn_v4Sockaddr]
  constructor
  · rintro ⟨s, hs, -, hport, hP⟩
    cases hs
    obtain ⟨rfl, rfl⟩ := ofNat_beNat_eq_zero.mp hport
    exact ⟨c, d, rfl, hP⟩
  · rintro ⟨c', d', hip, hP⟩
    cases hip
    exact ⟨_, rfl, rfl, rfl, hP⟩

/-- Only the unspecified address is read as itself. -/
theorem readsAs_self_iff {ip : Ipv4Addr} {rest : Bytes} :
    ReadsAs AF_INET (· = ip) (readSockaddrIn ((v4Sockaddr ip).bytes ++ rest)) ↔ ip = .UNSPECIFIED := by
  rw [readsAs_v4Sockaddr]
  constructor
  · rintro ⟨c, d, rfl, h⟩
    cases h
    rfl
  · rintro rfl
    exact ⟨0, 0, rfl, rfl⟩

/-- Only the empty mask is read as a mask of as many ones. -/
theorem readsAs_mask_iff {prefixLen : UInt8} {mask : Ipv4Addr} (hmask : netmaskV4 prefixLen = some mask)
    (hbits : (IpAddr.v4 mask).bits = leadingOnes 32 prefixLen.toNat) {rest : Bytes} :
    ReadsAs AF_INET (fun m => (IpAddr.v4 m).bits = leadingOnes 32 prefixLen.toNat)
      (readSockaddrIn ((v4Sockaddr mask).bytes ++ rest)) ↔ prefixLen = 0 := by
  rw [readsAs_v4Sockaddr]
  constructor
  · rintro ⟨c, d, rfl, -⟩
    -- the first octet is zero, so the first bit of the mask is
    have hfirst := congrArg List.head? hbits
    rw [← UInt8.toNat_inj]
    cases hn : prefixLen.toNat with
    | zero => rfl
    | succ n =>
      rw [hn] at hfirst
      cases hfirst
  · rintro rfl
    cases hmask
    exact ⟨0, 0, rfl, rfl⟩

/-- The socket addresses of a record stand one after another behind the name. -/
theorem IfAliasRequest.drop_bytes (r : IfAliasRequest) :
    r.bytes.drop 16 = r.ifraAddr.bytes ++ (r.ifraBroadaddr.bytes ++ r.ifraMask.bytes) ∧
      r.bytes.drop 32 = r.ifraBroadaddr.bytes ++ r.ifraMask.bytes ∧ r.bytes.drop 48 = r.ifraMask.bytes ++ [] := by
  have h16 : r.bytes.drop 16 = r.ifraAddr.bytes ++ (r.ifraBroadaddr.bytes ++ r.ifraMask.bytes) :=
    List.drop_left' (length_charBytes _)
  have h32 : r.bytes.drop (16 + 16) = r.ifraBroadaddr.bytes ++ r.ifraMask.bytes := by
    rw [← List.drop_drop, h16, List.drop_left' (Sockaddr.length_bytes _)]
  have h48 : r.bytes.drop (16 + 16 + 16) = r.ifraMask.bytes ++ [] := by
    rw [← List.drop_drop, h32, List.drop_left' (Sockaddr.length_bytes _), List.append_nil]
  exact ⟨h16, h32, h48⟩

/-- **An IPv4 request says what is asked for only if that is `0.0.0.0` with length 0.** The record is the one that the
ioctl gets, on every interface. -/
theorem requestV4_denotes_iff {prefixLen : UInt8} (h : prefixLen.toNat ≤ 32) (name : Bytes) (addr : Ipv4Addr) :
    ∃ request, requestV4 name addr prefixLen = some request ∧
      (∀ os ifindex, os.socket AF_INET = .ok () → os.ifIndexToName ifindex = .ok name →
        addAddressV4 os ifindex addr prefixLen = some (os.ioctl SIOCAIFADDR request.bytes)) ∧
      (RequestDenotes request.bytes addr prefixLen.toNat ↔ addr = .UNSPECIFIED ∧ prefixLen = 0) := by
  obtain ⟨mask, hmask, hbits⟩ := netmaskV4_bits h
  obtain ⟨request, hrequest, haddr, hbroad, hmask'⟩ : ∃ request, requestV4 name addr prefixLen = some request ∧
      request.ifraAddr = v4Sockaddr addr ∧ request.ifraBroadaddr = v4Sockaddr addr ∧
      request.ifraMask = v4Sockaddr mask := by
    rw [requestV4, hmask]
    exact ⟨_, rfl, rfl, rfl, rfl⟩
  refine ⟨request, hrequest, fun os ifindex hsocket hname => ?_, ?_⟩
  · exact assignAddress_sends hsocket hname (by rw [hrequest]; rfl)
  · obtain ⟨h16, h32, h48⟩ := request.drop_bytes
    rw [RequestDenotes, h16, h32, h48, haddr, hbroad, hmask', readsAs_self_iff, readsAs_self_iff,
      readsAs_mask_iff hmask hbits, ← and_assoc, and_self_iff]

/-- The name of an interface. -/
def utun4 : Bytes := asBytes "utun4".toList

theorem requestV4_denotes_iff_unspecified :
    ∃ request, requestV4 utun4 .UNSPECIFIED 0 = some request ∧ RequestDenotes request.bytes .UNSPECIFIED 0 := by
  obtain ⟨request, hrequest, -, hdenotes⟩ := @requestV4_denotes_iff 0 (by decide) utun4 .UNSPECIFIED
  exact ⟨request, hrequest, hdenotes.mpr ⟨rfl, rfl⟩⟩

/-- **The tunnel gets another address than its own**: 7.1.0.0 with the mask 255.0.0.0. -/
theorem tunnel_address_is_misread :
    ∃ request, requestV4 utun4 TUN_IPV4 TUN_IPV4_PREFIX = some request ∧
      readSockaddrIn (request.bytes.drop 16) = some ⟨16, AF_INET, 2623, .new 7 1 0 0⟩ ∧
      readSockaddrIn (request.bytes.drop 48) = some ⟨16, AF_INET, 65535, .new 255 0 0 0⟩ ∧
      ¬ RequestDenotes request.bytes TUN_IPV4 TUN_IPV4_PREFIX.toNat := by
  refine ⟨_, rfl, by decide, by decide, ?_⟩
  rintro ⟨⟨s, hs, -, hport, -⟩, -⟩
  cases hs
  exact absurd hport (by decide)

/-! ## IPv6 -/

theorem readsAs_v6Sockaddr {P : Ipv6Addr → Prop} {ip : Ipv6Addr} {rest : Bytes} :
    ReadsAs AF_INET6 P (readSockaddrIn6 ((v6Sockaddr ip).bytes ++ rest)) ↔ P ip := by
  have hread : readSockaddrIn6 ((v6Sockaddr ip).bytes ++ rest) = some ⟨28, AF_INET6, 0, ip⟩ := by
    have hbytes : (v6Sockaddr ip).bytes ++ rest =
        28 :: AF_INET6 :: 0 :: 0 :: (List.replicate 4 0 ++ (ip.octets.toList ++ (List.replicate 4 0 ++ rest))) := by
      simp [SockaddrIn6.bytes, v6Sockaddr, leBytes, Ipv6Addr.bytesOf]
    rw [hbytes]
    exact readInet_eq Ipv6Addr.mk 28 AF_INET6 0 0 rfl ip.octets _
  rw [hread]
  constructor
  · rintro ⟨s, hs, -, -, hP⟩
    cases hs
    exact hP
  · intro hP
    exact ⟨_, rfl, rfl, rfl, hP⟩

theorem In6AliasRequest.drop_bytes (r : In6AliasRequest) :
    (∃ rest, r.bytes.drop 16 = r.ifraAddr.bytes ++ rest) ∧
      ∃ rest, r.bytes.drop 72 = r.ifraPrefixmask.bytes ++ rest := by
  have h16 : r.bytes.drop 16 = r.ifraAddr.bytes ++ (r.ifraDstaddr.bytes ++ (r.ifraPrefixmask.bytes ++
      (leBytes 4 r.ifraFlags.toUInt32.toNat ++ r.ifraLifetime.bytes))) := List.drop_left' (length_charBytes _)
  have h72 : r.bytes.drop (16 + 28 + 28) =
      r.ifraPrefixmask.bytes ++ (leBytes 4 r.ifraFlags.toUInt32.toNat ++ r.ifraLifetime.bytes) := by
    rw [← List.drop_drop, ← List.drop_drop, h16, List.drop_left' (SockaddrIn6.length_bytes _),
      List.drop_left' (SockaddrIn6.length_bytes _)]
  exact ⟨⟨_, h16⟩, ⟨_, h72⟩⟩

/-- **An IPv6 request says what is asked for.** -/
theorem requestV6_denotes {prefixLen : UInt8} (h : prefixLen.toNat ≤ 128) (name : Bytes) (addr : Ipv6Addr) :
    ∃ request, requestV6 name addr prefixLen = some request ∧
      (∀ os ifindex, os.socket AF_INET6 = .ok () → os.ifIndexToName ifindex = .ok name →
        addAddressV6 os ifindex addr prefixLen = some (os.ioctl SIOCAIFADDR_IN6 request.bytes)) ∧
      RequestDenotesV6 request.bytes addr prefixLen.toNat := by
  obtain ⟨mask, hmask, hbits⟩ := netmaskV6_bits h
  obtain ⟨request, hrequest, haddr, hmask'⟩ : ∃ request, requestV6 name addr prefixLen = some request ∧
      request.ifraAddr = v6Sockaddr addr ∧ request.ifraPrefixmask = v6Sockaddr mask := by
    rw [requestV6, hmask]
    exact ⟨_, rfl, rfl, rfl⟩
  refine ⟨request, hrequest, fun os ifindex hsocket hname => ?_, ?_⟩
  · exact assignAddress_sends hsocket hname (by rw [hrequest]; rfl)
  · obtain ⟨⟨rest, h16⟩, ⟨rest', h72⟩⟩ := request.drop_bytes
    rw [RequestDenotesV6, h16, h72, haddr, hmask', readsAs_v6Sockaddr, readsAs_v6Sockaddr]
    exact ⟨rfl, hbits⟩

end AceTun.Macos
