import AceTun.RustStd.Decimal
import Mathlib.Data.List.Forall2

/-!
# Attribution on Windows

`resolvePid` looks a local endpoint up in the owner-PID tables of the IP Helper. A UDP socket may also be bound to the
wildcard address: the IPv4 lookup takes an exact row wherever it stands and then a wildcard row
(`resolvePidUdpV4_eq`), the IPv6 lookup takes whichever comes first (`resolvePidUdpV6_eq`). So the two agree, and prefer
the exact row, unless a wildcard row of another process comes first (`resolvePidUdp_iff`).
-/

namespace AceTun.Windows

open RustStd

/-! ## The tables -/

/-- A row of an IPv4 table: the fields that are read. -/
structure RowV4 where
  dwLocalAddr : UInt32
  dwLocalPort : UInt32
  dwOwningPid : UInt32
  deriving DecidableEq, Repr

/-- A row of an IPv6 table. -/
structure RowV6 where
  ucLocalAddr : Vector UInt8 16
  dwLocalPort : UInt32
  dwOwningPid : UInt32
  deriving DecidableEq, Repr

/-- What `fetch_table` returns for each table; there are no rows where a call fails. -/
structure Tables where
  tcpV4 : Option (List RowV4)
  udpV4 : Option (List RowV4)
  tcpV6 : Option (List RowV6)
  udpV6 : Option (List RowV6)

/-- `u16::swap_bytes`. -/
def swapBytes (n : UInt16) : UInt16 := n <<< 8 ||| n >>> 8

/-- The port is stored in network byte order in the low 16 bits. -/
def tablePortToHost (dwLocalPort : UInt32) : UInt16 := swapBytes (dwLocalPort &&& 0xFFFF).toUInt16

/-- `u32::from_le_bytes` of the octets. -/
def ipv4TableKey (ip : Ipv4Addr) : UInt32 := UInt32.ofNat (beNat ip.octets.toList.reverse)

def resolvePidTcpV4 (table : Option (List RowV4)) (ip : Ipv4Addr) (port : UInt16) : Option UInt32 := do
  let rows ← table
  let row ← rows.find? fun row => row.dwLocalAddr == ipv4TableKey ip && tablePortToHost row.dwLocalPort == port
  pure row.dwOwningPid

/-- The exact rows first, then those bound to `0.0.0.0`. -/
def resolvePidUdpV4 (table : Option (List RowV4)) (ip : Ipv4Addr) (port : UInt16) : Option UInt32 := do
  let rows ← table
  let row ← (rows.find? fun row => row.dwLocalAddr == ipv4TableKey ip && tablePortToHost row.dwLocalPort == port).or
    (rows.find? fun row => row.dwLocalAddr == 0 && tablePortToHost row.dwLocalPort == port)
  pure row.dwOwningPid

def resolvePidTcpV6 (table : Option (List RowV6)) (ip : Ipv6Addr) (port : UInt16) : Option UInt32 := do
  let rows ← table
  let row ← rows.find? fun row => row.ucLocalAddr == ip.octets && tablePortToHost row.dwLocalPort == port
  pure row.dwOwningPid

/-- One scan, for exact rows and for those bound to `::`. -/
def resolvePidUdpV6 (table : Option (List RowV6)) (ip : Ipv6Addr) (port : UInt16) : Option UInt32 := do
  let rows ← table
  let any : Vector UInt8 16 := Vector.replicate 16 0
  let row ← rows.find? fun row =>
    (row.ucLocalAddr == ip.octets || row.ucLocalAddr == any) && tablePortToHost row.dwLocalPort == port
  pure row.dwOwningPid

def resolvePid (tables : Tables) (localIp : IpAddr) (localPort : UInt16) (isUdp : Bool) : Option UInt32 :=
  match localIp with
  | .v4 v4 =>
    if isUdp then (resolvePidUdpV4 tables.udpV4 v4 localPort).or (resolvePidTcpV4 tables.tcpV4 v4 localPort)
    else resolvePidTcpV4 tables.tcpV4 v4 localPort
  | .v6 v6 =>
    if isUdp then (resolvePidUdpV6 tables.udpV6 v6 localPort).or (resolvePidTcpV6 tables.tcpV6 v6 localPort)
    else resolvePidTcpV6 tables.tcpV6 v6 localPort

/-! ## What a table says -/

/-- A socket is bound to an address and a port, and owned by a process. -/
structure Bound (A : Type) where
  addr : A
  port : UInt16
  pid : UInt32

def RowV4.bound (row : RowV4) : Bound Ipv4Addr where
  addr := .new row.dwLocalAddr.toUInt8 (row.dwLocalAddr >>> 8).toUInt8 (row.dwLocalAddr >>> 16).toUInt8
    (row.dwLocalAddr >>> 24).toUInt8
  port := tablePortToHost row.dwLocalPort
  pid := row.dwOwningPid

def RowV6.bound (row : RowV6) : Bound Ipv6Addr := ⟨⟨row.ucLocalAddr⟩, tablePortToHost row.dwLocalPort, row.dwOwningPid⟩

section Prefer

variable {A : Type} [DecidableEq A]

def Bound.isAt (ip : A) (port : UInt16) (b : Bound A) : Bool := b.addr == ip && b.port == port

/-- The owner of an endpoint: the first socket bound exactly there, or else the first bound to the wildcard. -/
def preferExact (any : A) (bounds : List (Bound A)) (ip : A) (port : UInt16) : Option UInt32 :=
  ((bounds.find? (Bound.isAt ip port)).or (bounds.find? (Bound.isAt any port))).map Bound.pid

/-- The first wildcard socket comes before the first exact one and is another process's. -/
def Shadowed (any : A) (bounds : List (Bound A)) (ip : A) (port : UInt16) : Prop :=
  any ≠ ip ∧ ∃ before w after e, bounds = before ++ w :: after ∧ w.isAt any port ∧
    (∀ b ∈ before, ¬ b.isAt ip port ∧ ¬ b.isAt any port) ∧ after.find? (Bound.isAt ip port) = some e ∧ e.pid ≠ w.pid

theorem isAt_iff {ip : A} {port : UInt16} {b : Bound A} : b.isAt ip port ↔ b.addr = ip ∧ b.port = port := by
  simp [Bound.isAt]

variable {any ip : A} {port : UInt16} {b : Bound A} {bounds : List (Bound A)}

theorem not_shadowed_nil : ¬ Shadowed any [] ip port := by
  rintro ⟨-, before, w, after, e, h, -⟩
  cases before <;> cases h

theorem not_shadowed_cons_exact (hb : b.isAt ip port) : ¬ Shadowed any (b :: bounds) ip port := by
  rintro ⟨hne, before, w, after, e, h, hw, hbefore, -⟩
  cases before with
  | nil =>
    obtain ⟨rfl, -⟩ := List.cons.inj h
    exact hne ((isAt_iff.mp hw).1.symm.trans (isAt_iff.mp hb).1)
  | cons b' before =>
    obtain ⟨rfl, -⟩ := List.cons.inj h
    exact (hbefore b List.mem_cons_self).1 hb

theorem shadowed_cons_any (hb : b.isAt any port) (hno : ¬ b.isAt ip port) :
    Shadowed any (b :: bounds) ip port ↔ ∃ e, bounds.find? (Bound.isAt ip port) = some e ∧ e.pid ≠ b.pid := by
  constructor
  · rintro ⟨-, before, w, after, e, h, -, hbefore, he⟩
    cases before with
    | nil =>
      obtain ⟨rfl, rfl⟩ := List.cons.inj h
      exact ⟨e, he⟩
    | cons b' before =>
      obtain ⟨rfl, -⟩ := List.cons.inj h
      exact absurd hb (hbefore b List.mem_cons_self).2
  · rintro ⟨e, he⟩
    refine ⟨?_, [], b, bounds, e, rfl, hb, by simp, he⟩
    rintro rfl
    exact hno hb

theorem shadowed_cons_other (hno : ¬ b.isAt ip port) (hno' : ¬ b.isAt any port) :
    Shadowed any (b :: bounds) ip port ↔ Shadowed any bounds ip port := by
  constructor
  · rintro ⟨hne, before, w, after, e, h, hw, hbefore, he⟩
    cases before with
    | nil =>
      obtain ⟨rfl, -⟩ := List.cons.inj h
      exact absurd hw hno'
    | cons b' before =>
      obtain ⟨-, rfl⟩ := List.cons.inj h
      exact ⟨hne, before, w, after, e, rfl, hw, fun b hb => hbefore b (List.mem_cons_of_mem b' hb), he⟩
  · rintro ⟨hne, before, w, after, e, rfl, hw, hbefore, he⟩
    exact ⟨hne, b :: before, w, after, e, rfl, hw, List.forall_mem_cons.mpr ⟨⟨hno, hno'⟩, hbefore⟩, he⟩

/-- The first socket bound exactly or to the wildcard. -/
def firstOfEither (any : A) (bounds : List (Bound A)) (ip : A) (port : UInt16) : Option UInt32 :=
  (bounds.find? fun b => b.isAt ip port || b.isAt any port).map Bound.pid

/-- One scan for either kind of row prefers the exact one exactly when no wildcard row shadows it. -/
theorem firstOfEither_eq_iff (any : A) (bounds : List (Bound A)) (ip : A) (port : UInt16) :
    firstOfEither any bounds ip port = preferExact any bounds ip port ↔ ¬ Shadowed any bounds ip port := by
  unfold firstOfEither preferExact
  induction bounds with
  | nil => exact iff_of_true rfl not_shadowed_nil
  | cons b bounds ih =>
    by_cases hexact : b.isAt ip port
    · refine iff_of_true ?_ (not_shadowed_cons_exact hexact)
      rw [List.find?_cons_of_pos (by simp [hexact]), List.find?_cons_of_pos hexact, Option.some_or]
    · rw [List.find?_cons_of_neg hexact]
      by_cases hany : b.isAt any port
      · rw [List.find?_cons_of_pos (by simp [hany]), List.find?_cons_of_pos hany, shadowed_cons_any hany hexact]
        rcases bounds.find? (Bound.isAt ip port) with _ | e
        · simp
        · simp [eq_comm]
      · rw [List.find?_cons_of_neg (by simp [hany, hexact]), List.find?_cons_of_neg hany,
          shadowed_cons_other hexact hany]
        exact ih

/-- Sockets that a lookup cannot tell apart: of one port and process, and bound alike. -/
def Bound.Corresponds {B : Type} (any ip : A) (any' ip' : B) (a : Bound A) (b : Bound B) : Prop :=
  (a.addr = ip ↔ b.addr = ip') ∧ (a.addr = any ↔ b.addr = any') ∧ a.port = b.port ∧ a.pid = b.pid

/-- Searches that cannot tell the elements of two lists apart find the same. -/
theorem find?_map_congr {α β γ : Type} {R : α → β → Prop} {p : α → Bool} {q : β → Bool} {f : α → γ} {g : β → γ}
    {xs : List α} {ys : List β} (h : List.Forall₂ R xs ys) (hp : ∀ x y, R x y → p x = q y)
    (hf : ∀ x y, R x y → f x = g y) : (xs.find? p).map f = (ys.find? q).map g := by
  induction h with
  | nil => rfl
  | @cons x y xs ys hxy _ ih =>
    rw [List.find?_cons, List.find?_cons, hp x y hxy]
    cases q y with
    | true => exact congrArg some (hf x y hxy)
    | false => exact ih

theorem preferExact_congr {B : Type} [DecidableEq B] {any' ip' : B} {bounds' : List (Bound B)}
    (h : List.Forall₂ (Bound.Corresponds any ip any' ip') bounds bounds') :
    preferExact any bounds ip port = preferExact any' bounds' ip' port := by
  have hpid : ∀ a b, Bound.Corresponds any ip any' ip' a b → a.pid = b.pid := fun a b hab => hab.2.2.2
  have hexact : ∀ a b, Bound.Corresponds any ip any' ip' a b → a.isAt ip port = b.isAt ip' port := by
    rintro a b ⟨hip, -, hport, -⟩
    rw [Bool.eq_iff_iff, isAt_iff, isAt_iff, hip, hport]
  have hany : ∀ a b, Bound.Corresponds any ip any' ip' a b → a.isAt any port = b.isAt any' port := by
    rintro a b ⟨-, hwild, hport, -⟩
    rw [Bool.eq_iff_iff, isAt_iff, isAt_iff, hwild, hport]
  unfold preferExact
  rw [Option.map_or, Option.map_or, find?_map_congr h hexact hpid, find?_map_congr h hany hpid]

end Prefer

theorem ipv4TableKey_eq_iff (row : RowV4) (ip : Ipv4Addr) : row.dwLocalAddr = ipv4TableKey ip ↔ row.bound.addr = ip := by
  obtain ⟨a, b, c, d, rfl⟩ := ip.exists_new
  obtain ⟨n, port, pid⟩ := row
  have hkey : beNat (Ipv4Addr.new a b c d).octets.toList.reverse =
      ((d.toNat * 256 + c.toNat) * 256 + b.toNat) * 256 + a.toNat := by
    simp [beNat, Ipv4Addr.new]
  have ha := a.toNat_lt
  have hb := b.toNat_lt
  have hc := c.toNat_lt
  have hd := d.toNat_lt
  have hn := n.toNat_lt
  rw [ipv4TableKey, hkey, ← UInt32.toNat_inj, UInt32.toNat_ofNat', ← Ipv4Addr.octets_toList_inj]
  simp only [RowV4.bound, Ipv4Addr.new, Vector.toList_mk, List.cons.injEq, and_true, ← UInt8.toNat_inj,
    UInt32.toNat_toUInt8, UInt32.toNat_shiftRight, Nat.shiftRight_eq_div_pow, Nat.reducePow, UInt32.reduceToNat,
    Nat.reduceMod]
  omega

theorem ucLocalAddr_eq_iff (row : RowV6) (ip : Ipv6Addr) : row.ucLocalAddr = ip.octets ↔ row.bound.addr = ip := by
  obtain ⟨octets⟩ := ip
  simp only [RowV6.bound, Ipv6Addr.mk.injEq]

/-! ## The UDP lookups -/

theorem RowV4.isAt_bound (row : RowV4) (ip : Ipv4Addr) (port : UInt16) :
    row.bound.isAt ip port = (row.dwLocalAddr == ipv4TableKey ip && tablePortToHost row.dwLocalPort == port) := by
  rw [Bool.eq_iff_iff, isAt_iff, ← ipv4TableKey_eq_iff, Bool.and_eq_true, beq_iff_eq, beq_iff_eq]
  rfl

theorem RowV6.isAt_bound (row : RowV6) (ip : Ipv6Addr) (port : UInt16) :
    row.bound.isAt ip port = (row.ucLocalAddr == ip.octets && tablePortToHost row.dwLocalPort == port) := by
  rw [Bool.eq_iff_iff, isAt_iff, ← ucLocalAddr_eq_iff, Bool.and_eq_true, beq_iff_eq, beq_iff_eq]
  rfl

/-- The IPv4 lookup prefers the exact row. -/
theorem resolvePidUdpV4_eq (rows : List RowV4) (ip : Ipv4Addr) (port : UInt16) :
    resolvePidUdpV4 (some rows) ip port = preferExact .UNSPECIFIED (rows.map RowV4.bound) ip port := by
  have hany : ipv4TableKey .UNSPECIFIED = 0 := by decide
  simp only [preferExact, List.find?_map, Function.comp_def, RowV4.isAt_bound, hany, ← Option.map_or, Option.map_map]
  rw [Option.map_eq_bind]
  rfl

/-- The IPv6 lookup takes the first row of either kind. -/
theorem resolvePidUdpV6_eq (rows : List RowV6) (ip : Ipv6Addr) (port : UInt16) :
    resolvePidUdpV6 (some rows) ip port = firstOfEither .UNSPECIFIED (rows.map RowV6.bound) ip port := by
  have hany : Ipv6Addr.UNSPECIFIED.octets = Vector.replicate 16 0 := by decide
  simp only [firstOfEither, List.find?_map, Function.comp_def, RowV6.isAt_bound, hany, ← Bool.and_or_distrib_right,
    Option.map_map]
  rw [Option.map_eq_bind]
  rfl

/-- **Which UDP socket owns an endpoint**: the IPv4 lookup prefers the exact row, and the IPv6 lookup does exactly when
it is not shadowed by a wildcard row; so on tables that correspond row by row the two agree exactly then. -/
theorem resolvePidUdp_iff (rows : List RowV6) (ip : Ipv6Addr) (port : UInt16) :
    (resolvePidUdpV6 (some rows) ip port = preferExact .UNSPECIFIED (rows.map RowV6.bound) ip port ↔
      ¬ Shadowed .UNSPECIFIED (rows.map RowV6.bound) ip port) ∧
    ∀ (rows4 : List RowV4) (ip4 : Ipv4Addr),
      resolvePidUdpV4 (some rows4) ip4 port = preferExact .UNSPECIFIED (rows4.map RowV4.bound) ip4 port ∧
      (List.Forall₂ (Bound.Corresponds .UNSPECIFIED ip4 .UNSPECIFIED ip) (rows4.map RowV4.bound) (rows.map RowV6.bound) →
        (resolvePidUdpV4 (some rows4) ip4 port = resolvePidUdpV6 (some rows) ip port ↔
          ¬ Shadowed .UNSPECIFIED (rows.map RowV6.bound) ip port)) := by
  have h6 : resolvePidUdpV6 (some rows) ip port = preferExact .UNSPECIFIED (rows.map RowV6.bound) ip port ↔
      ¬ Shadowed .UNSPECIFIED (rows.map RowV6.bound) ip port := by
    rw [resolvePidUdpV6_eq]
    exact firstOfEither_eq_iff _ _ _ _
  refine ⟨h6, fun rows4 ip4 => ⟨resolvePidUdpV4_eq rows4 ip4 port, fun hrows => ?_⟩⟩
  rw [resolvePidUdpV4_eq, preferExact_congr hrows, eq_comm]
  exact h6

/-- Port 53, bound to the wildcard by process 1 and to an address by process 2. -/
def wildcardFirstV4 : List RowV4 := [⟨0, 0x3500, 1⟩, ⟨ipv4TableKey (.new 10 63 7 1), 0x3500, 2⟩]

/-- The same sockets for IPv6. -/
def wildcardFirstV6 : List RowV6 :=
  [⟨Ipv6Addr.UNSPECIFIED.octets, 0x3500, 1⟩, ⟨(Ipv6Addr.new 0xfd00 0xace 7 0 0 0 0 1).octets, 0x3500, 2⟩]

theorem wildcardFirst_corresponds :
    List.Forall₂ (Bound.Corresponds .UNSPECIFIED (.new 10 63 7 1) .UNSPECIFIED (.new 0xfd00 0xace 7 0 0 0 0 1))
      (wildcardFirstV4.map RowV4.bound) (wildcardFirstV6.map RowV6.bound) := by
  refine .cons ?_ (.cons ?_ .nil)
  · unfold Bound.Corresponds
    decide
  · unfold Bound.Corresponds
    decide

/-- The lookups of the two families differ on tables that say the same. -/
theorem resolvePidUdp_iff_wildcardFirst :
    Shadowed .UNSPECIFIED (wildcardFirstV6.map RowV6.bound) (.new 0xfd00 0xace 7 0 0 0 0 1) 53 := by
  by_contra hno
  have hagree := (((resolvePidUdp_iff wildcardFirstV6 (.new 0xfd00 0xace 7 0 0 0 0 1) 53).2 wildcardFirstV4
    (.new 10 63 7 1)).2 wildcardFirst_corresponds).mpr hno
  revert hagree
  decide

/-- **An IPv6 socket is attributed to the process of the wildcard socket before it**, an IPv4 socket is not. -/
theorem wildcard_first_wins_v6 :
    resolvePidUdpV6 (some wildcardFirstV6) (.new 0xfd00 0xace 7 0 0 0 0 1) 53 = some 1 ∧
      preferExact .UNSPECIFIED (wildcardFirstV6.map RowV6.bound) (.new 0xfd00 0xace 7 0 0 0 0 1) 53 = some 2 ∧
      resolvePidUdpV4 (some wildcardFirstV4) (.new 10 63 7 1) 53 = some 2 := by
  decide

end AceTun.Windows
