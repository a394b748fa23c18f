import AceTun.RustStd.Text
import AceTun.RustStd.Slice

/-!
# `std::net`

Addresses (`Ipv4Addr`, `Ipv6Addr`, `IpAddr`, `SocketAddr`) with the classification methods the program calls, their
`Display` forms, and the parsers behind `str::parse`. An address is its octets, in network order.

The parsers follow `core::net::parser`: each reader takes the text that is left and returns what it read with the rest,
or nothing and the caller keeps its own text (`read_atomically`).
-/

namespace RustStd

structure Ipv4Addr where
  octets : Vector UInt8 4
  deriving DecidableEq, Repr

structure Ipv6Addr where
  octets : Vector UInt8 16
  deriving DecidableEq, Repr

inductive IpAddr where
  | v4 (ip : Ipv4Addr)
  | v6 (ip : Ipv6Addr)
  deriving DecidableEq, Repr

structure SocketAddr where
  ip : IpAddr
  port : UInt16
  deriving DecidableEq, Repr

namespace Ipv4Addr

/-- `Ipv4Addr::new`. -/
def new (a b c d : UInt8) : Ipv4Addr := ⟨#v[a, b, c, d]⟩

/-- `u32::from`. -/
def toU32 (ip : Ipv4Addr) : Nat := beNat ip.octets.toList

def isLoopback (ip : Ipv4Addr) : Bool := ip.octets[0] == 127

def isMulticast (ip : Ipv4Addr) : Bool := (224 : UInt8) ≤ ip.octets[0] && ip.octets[0] ≤ (239 : UInt8)

def isBroadcast (ip : Ipv4Addr) : Bool := ip == new 255 255 255 255

/-- `Ipv4Addr::UNSPECIFIED`. -/
def UNSPECIFIED : Ipv4Addr := new 0 0 0 0

/-- `Display`: dotted decimal. -/
def toStr (ip : Ipv4Addr) : Str := ['.'].intercalate (ip.octets.toList.map fun b => showNat b.toNat)

theorem octets_toList_inj {a b : Ipv4Addr} : a.octets.toList = b.octets.toList ↔ a = b := by
  rw [Vector.toList_inj, ← mk.injEq]

theorem toU32_inj {a b : Ipv4Addr} : a.toU32 = b.toU32 ↔ a = b := by
  refine ⟨fun h => octets_toList_inj.mp (beNat_inj ?_ h), fun h => congrArg toU32 h⟩
  rw [Vector.length_toList, Vector.length_toList]

end Ipv4Addr

namespace Ipv6Addr

/-- The eight 16-bit groups. -/
def segments (ip : Ipv6Addr) : List Nat :=
  (List.range 8).map fun i => beNat ((ip.octets.toList.drop (2 * i)).take 2)

/-- `Ipv6Addr::new`. -/
def new (a b c d e f g h : UInt16) : Ipv6Addr :=
  ⟨⟨(([a, b, c, d, e, f, g, h] : List UInt16).flatMap toBeBytes).toArray, by simp [toBeBytes]⟩⟩

/-- `u128::from`. -/
def toU128 (ip : Ipv6Addr) : Nat := beNat ip.octets.toList

/-- `Ipv6Addr::UNSPECIFIED`. -/
def UNSPECIFIED : Ipv6Addr := new 0 0 0 0 0 0 0 0

def isLoopback (ip : Ipv6Addr) : Bool := ip == new 0 0 0 0 0 0 0 1

def isMulticast (ip : Ipv6Addr) : Bool := ip.octets[0] == 0xff

/-- `{:x}`. -/
def showHex (n : Nat) : Str := Nat.toDigits 16 n

/-- Groups in hexadecimal, joined by colons. -/
def fmtSubslice (chunk : List Nat) : Str := [':'].intercalate (chunk.map showHex)

/-- The first longest run of zero groups, as start and length: `longest` and `current` are the loop's spans. -/
def zeroSpan : Nat → List Nat → (longest current : Nat × Nat) → Nat × Nat
  | _, [], longest, _ => longest
  | i, g :: gs, longest, current =>
    if g = 0 then
      let current := (if current.2 = 0 then i else current.1, current.2 + 1)
      zeroSpan (i + 1) gs (if current.2 > longest.2 then current else longest) current
    else zeroSpan (i + 1) gs longest (0, 0)

/-- `to_ipv4_mapped`. -/
def toIpv4Mapped (ip : Ipv6Addr) : Option Ipv4Addr :=
  if ip.octets.toList.take 12 = [0, 0, 0, 0, 0, 0, 0, 0, 0, 0, 0xff, 0xff] then
    some (Ipv4Addr.new ip.octets[12] ip.octets[13] ip.octets[14] ip.octets[15])
  else none

/-- `Display`. -/
def toStr (ip : Ipv6Addr) : Str :=
  match ip.toIpv4Mapped with
  | some v4 => "::ffff:".toList ++ v4.toStr
  | none =>
    let zeroes := zeroSpan 0 ip.segments (0, 0) (0, 0)
    if zeroes.2 > 1 then
      fmtSubslice (ip.segments.take zeroes.1) ++ "::".toList ++ fmtSubslice (ip.segments.drop (zeroes.1 + zeroes.2))
    else fmtSubslice ip.segments

theorem octets_toList_inj {a b : Ipv6Addr} : a.octets.toList = b.octets.toList ↔ a = b := by
  rw [Vector.toList_inj, ← mk.injEq]

theorem toU128_inj {a b : Ipv6Addr} : a.toU128 = b.toU128 ↔ a = b := by
  refine ⟨fun h => octets_toList_inj.mp (beNat_inj ?_ h), fun h => congrArg toU128 h⟩
  rw [Vector.length_toList, Vector.length_toList]

end Ipv6Addr

namespace IpAddr

def isIpv6 : IpAddr → Bool
  | v4 _ => false
  | v6 _ => true

def isUnspecified : IpAddr → Bool
  | v4 ip => ip == .UNSPECIFIED
  | v6 ip => ip == .UNSPECIFIED

def isLoopback : IpAddr → Bool
  | v4 ip => ip.isLoopback
  | v6 ip => ip.isLoopback

/-- The bits, the most significant first. -/
def bits (ip : IpAddr) : List Bool :=
  let octets := match ip with
    | v4 ip => ip.octets.toList
    | v6 ip => ip.octets.toList
  octets.flatMap fun b => (List.range 8).map fun i => b.toNat.testBit (7 - i)

theorem length_bits (ip : IpAddr) : ip.bits.length = if ip.isIpv6 then 128 else 32 := by
  cases ip <;> simp [bits, isIpv6, List.length_flatMap]

/-- The 4 or 16 bytes. -/
def octets : IpAddr → Bytes
  | v4 ip => ip.octets.toList
  | v6 ip => ip.octets.toList

theorem length_octets (ip : IpAddr) : ip.octets.length = 4 ∨ ip.octets.length = 16 := by
  cases ip with
  | v4 ip => exact .inl ip.octets.length_toList
  | v6 ip => exact .inr ip.octets.length_toList

/-- `to_string`. -/
def toStr : IpAddr → Str
  | v4 ip => ip.toStr
  | v6 ip => ip.toStr

end IpAddr

/-- `to_string` of a socket address; an IPv6 address stands in brackets. -/
def SocketAddr.toStr (addr : SocketAddr) : Str :=
  match addr.ip with
  | .v4 ip => ip.toStr ++ [':'] ++ showNat addr.port.toNat
  | .v6 ip => ['['] ++ ip.toStr ++ [']', ':'] ++ showNat addr.port.toNat

/-! ## Parsing -/

/-- `Parser::read_given_char`. -/
def readGivenChar (target : Char) : Str → Option Str
  | c :: cs => if c = target then some cs else none
  | [] => none

/-- `Parser::read_separator`: the separator is read first unless this is the first item. -/
def readSeparator {α : Type} (sep : Char) (index : Nat) (inner : Str → Option (α × Str)) (s : Str) : Option (α × Str) :=
  if index > 0 then (readGivenChar sep s).bind inner else inner s

/-- `Parser::read_number` with a digit limit, at a type of `bound` values. -/
def readNumber (radix maxDigits : Nat) (allowZeroPrefix : Bool) (bound : Nat) (s : Str) : Option (Nat × Str) :=
  let digits := s.takeWhile (fun c => (toDigit radix c).isSome)
  if digits.length > maxDigits then none
  else if digits = [] then none
  else if !allowZeroPrefix && s.head? == some '0' && digits.length > 1 then none
  else if digitsValue radix digits < bound then some (digitsValue radix digits, s.drop digits.length)
  else none

/-- `Parser::read_ipv4_addr`. -/
def readIpv4Addr (s : Str) : Option (Ipv4Addr × Str) := do
  let group := readNumber 10 3 false 256
  let (a, s) ← readSeparator '.' 0 group s
  let (b, s) ← readSeparator '.' 1 group s
  let (c, s) ← readSeparator '.' 2 group s
  let (d, s) ← readSeparator '.' 3 group s
  some (Ipv4Addr.new (UInt8.ofNat a) (UInt8.ofNat b) (UInt8.ofNat c) (UInt8.ofNat d), s)

/-- `read_groups`: up to `left` groups from the `i`-th on, the last two of which may be an embedded IPv4 address.
Returns the groups read, whether an IPv4 address ended them, and the rest. -/
def readGroups : (left i : Nat) → Str → List Nat × Bool × Str
  | 0, _, s => ([], false, s)
  | left + 1, i, s =>
    match if left > 0 then readSeparator ':' i readIpv4Addr s else none with
    | some (v4, s) => ([beNat (v4.octets.toList.take 2), beNat (v4.octets.toList.drop 2)], true, s)
    | none =>
      match readSeparator ':' i (readNumber 16 4 true 65536) s with
      | none => ([], false, s)
      | some (g, s) =>
        let (gs, ipv4, s) := readGroups left (i + 1) s
        (g :: gs, ipv4, s)

/-- `Ipv6Addr::from` eight groups; groups past the eighth are dropped and missing ones are zero. -/
def Ipv6Addr.ofGroups (gs : List Nat) : Ipv6Addr :=
  let g (i : Nat) := UInt16.ofNat (gs.getD i 0)
  Ipv6Addr.new (g 0) (g 1) (g 2) (g 3) (g 4) (g 5) (g 6) (g 7)

/-- `Parser::read_ipv6_addr`. -/
def readIpv6Addr (s : Str) : Option (Ipv6Addr × Str) :=
  let (head, headIpv4, s) := readGroups 8 0 s
  if head.length = 8 then some (Ipv6Addr.ofGroups head, s)
  else if headIpv4 then none
  else do
    let s ← readGivenChar ':' s
    let s ← readGivenChar ':' s
    let (tail, _, s) := readGroups (8 - (head.length + 1)) 0 s
    some (Ipv6Addr.ofGroups (head ++ List.replicate (8 - head.length - tail.length) 0 ++ tail), s)

/-- `str::parse::<Ipv4Addr>`. -/
def parseIpv4Addr (s : Str) : Option Ipv4Addr :=
  if (asBytes s).length > 15 then none
  else
    match readIpv4Addr s with
    | some (ip, []) => some ip
    | _ => none

/-- `str::parse::<Ipv6Addr>`. -/
def parseIpv6Addr (s : Str) : Option Ipv6Addr :=
  match readIpv6Addr s with
  | some (ip, []) => some ip
  | _ => none

example : parseIpv4Addr "192.168.0.1".toList = some (Ipv4Addr.new 192 168 0 1) ∧
    parseIpv4Addr "1.2.3.04".toList = none := by decide
example : parseIpv6Addr "2001:db8::1".toList = some (Ipv6Addr.new 0x2001 0xdb8 0 0 0 0 0 1) ∧
    (Ipv6Addr.new 0x2001 0xdb8 0 0 0 0 0 1).toStr = "2001:db8::1".toList := by decide +kernel
example : parseIpv6Addr "::ffff:1.2.3.4".toList = some (Ipv6Addr.new 0 0 0 0 0 0xffff 0x102 0x304) ∧
    parseIpv6Addr "1::2::3".toList = none := by decide +kernel

end RustStd
