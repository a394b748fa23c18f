import AceTun.Platform.Windows.Adapter
import AceTun.Platform.Windows.Process

/-!
# The tables of the IP Helper in memory

`resolve_pid` gets its tables as bytes: `fetch_table` asks for the size, makes a buffer, and asks again, and the rows are
then read through a pointer to the table's struct. `resolvePid` does that on the bytes, where a read that leaves the
buffer has no value. The system may change the tables between the two calls, and each call may fail.

The lookup finds what the lookup on rows finds, in the table that the second call has written; if that one no longer
fits, there is no table (`Snapshots.observed`). The buffer is left exactly if it is too short for the struct, which has one
row even where the table has none (`windows_lookup_reads_rows`).
-/

namespace AceTun.Windows.Raw

open RustStd

/-! ## Memory -/

/-- A read through a pointer into a buffer; there is no value where it leaves the buffer. -/
def peek (buf : Bytes) (start len : Nat) : Option Bytes :=
  if start + len ≤ buf.length then some ((buf.drop start).take len) else none

/-- A little-endian `u32`. -/
def leU32 (bs : Bytes) : UInt32 := UInt32.ofNat (beNat bs.reverse)

/-- The bytes of a little-endian `u32`. -/
def toLeBytes (n : UInt32) : Bytes := [n.toUInt8, (n >>> 8).toUInt8, (n >>> 16).toUInt8, (n >>> 24).toUInt8]

/-- A `u32` field of a struct. -/
def u32Field {n : Nat} (struct : Vector UInt8 n) (offset : Nat) : UInt32 := leU32 ((struct.toList.drop offset).take 4)

/-- The layout of an owner-PID table: the length of a row, and the fields of a row that are read. -/
structure Layout (Row : Type) where
  size : Nat
  row : Vector UInt8 size → Row

/-- `MIB_TCPROW_OWNER_PID`: the state, the local address and port, the remote ones, the process. -/
def tcpV4Layout : Layout RowV4 := ⟨24, fun row => ⟨u32Field row 4, u32Field row 8, u32Field row 20⟩⟩

/-- `MIB_UDPROW_OWNER_PID`: the local address and port, the process. -/
def udpV4Layout : Layout RowV4 := ⟨12, fun row => ⟨u32Field row 0, u32Field row 4, u32Field row 8⟩⟩

/-- `MIB_TCP6ROW_OWNER_PID`: address, scope and port of both ends, the state, the process. -/
def tcpV6Layout : Layout RowV6 := ⟨56, fun row => ⟨row.take 16, u32Field row 20, u32Field row 52⟩⟩

/-- `MIB_UDP6ROW_OWNER_PID`: the local address, scope and port, the process. -/
def udpV6Layout : Layout RowV6 := ⟨28, fun row => ⟨row.take 16, u32Field row 20, u32Field row 24⟩⟩

/-- The rows of a table that starts with their number. The struct that the pointer is to has an array of one row, and
the slice is made of it with the number of rows. -/
def Layout.read {Row : Type} (layout : Layout Row) (buf : Bytes) : Option (List Row) := do
  let table ← peek buf 0 (4 + layout.size)
  let dwNumEntries := leU32 (table.take 4)
  let rows ← peek buf 4 (dwNumEntries.toNat * layout.size)
  let rows ← (List.range dwNumEntries.toNat).mapM fun i =>
    tryIntoArray layout.size ((rows.drop (i * layout.size)).take layout.size)
  pure (rows.map layout.row)

/-! ## The system's side -/

def ERROR_INSUFFICIENT_BUFFER : Win32Error := 122

/-- A failure that is not about the buffer. -/
structure Refusal where
  code : Win32Error
  other : code ≠ NO_ERROR ∧ code ≠ ERROR_INSUFFICIENT_BUFFER

/-- A table as the system has it at one call, with the length it asks for. -/
structure Listing (size : Nat) where
  rows : List (Vector UInt8 size)
  required : UInt32
  enough : 4 + rows.length * size ≤ required.toNat

namespace Listing

variable {size : Nat}

/-- What the system writes. -/
def image (l : Listing size) : Bytes := toLeBytes (UInt32.ofNat l.rows.length) ++ l.rows.flatMap Vector.toList

end Listing

/-- How a call ends: its code, `*pdwSize`, and the buffer. -/
structure Reply where
  code : Win32Error
  size : UInt32
  buf : Option Bytes

/-- `GetExtendedTcpTable` and `GetExtendedUdpTable`, for a table that the system has at the time of the call. -/
def getExtendedTable {size : Nat} (now : Except Refusal (Listing size)) (buf : Option Bytes) (pdwSize : UInt32) : Reply :=
  match now, buf with
  | .error refusal, buf => ⟨refusal.code, pdwSize, buf⟩
  | .ok l, none => ⟨ERROR_INSUFFICIENT_BUFFER, l.required, none⟩
  | .ok l, some buf =>
    if l.required ≤ pdwSize then ⟨NO_ERROR, l.required, some (l.image ++ buf.drop l.image.length)⟩
    else ⟨ERROR_INSUFFICIENT_BUFFER, l.required, some buf⟩

/-! ## The lookup on bytes -/

/-- `fetch_table`, which makes its call twice. -/
def fetchTable (first second : Option Bytes → UInt32 → Reply) : Option Bytes :=
  let reply := first none 0
  if reply.code ≠ ERROR_INSUFFICIENT_BUFFER then none
  else
    let reply := second (some (List.replicate reply.size.toNat 0)) reply.size
    if reply.code ≠ NO_ERROR then none else reply.buf

/-- A table at the two calls. -/
structure Snapshots (size : Nat) where
  sizing : Except Refusal (Listing size)
  filling : Except Refusal (Listing size)

/-- The four tables, each at its two calls. -/
structure Tables where
  tcpV4 : Snapshots tcpV4Layout.size
  udpV4 : Snapshots udpV4Layout.size
  tcpV6 : Snapshots tcpV6Layout.size
  udpV6 : Snapshots udpV6Layout.size

section Fetch

variable {Row : Type} (layout : Layout Row) (table : Snapshots layout.size)

/-- `fetch_table` and the rows of what it returns; the outer `none` is a read that leaves the buffer. -/
def fetchRows : Option (Option (List Row)) :=
  match fetchTable (getExtendedTable table.sizing) (getExtendedTable table.filling) with
  | none => some none
  | some buf => (layout.read buf).map some

end Fetch

variable (t : Tables)

def resolvePidTcpV4 (ip : Ipv4Addr) (port : UInt16) : Option (Option UInt32) := do
  let rows ← fetchRows tcpV4Layout t.tcpV4
  pure (Windows.resolvePidTcpV4 rows ip port)

def resolvePidUdpV4 (ip : Ipv4Addr) (port : UInt16) : Option (Option UInt32) := do
  let rows ← fetchRows udpV4Layout t.udpV4
  pure (Windows.resolvePidUdpV4 rows ip port)

def resolvePidTcpV6 (ip : Ipv6Addr) (port : UInt16) : Option (Option UInt32) := do
  let rows ← fetchRows tcpV6Layout t.tcpV6
  pure (Windows.resolvePidTcpV6 rows ip port)

def resolvePidUdpV6 (ip : Ipv6Addr) (port : UInt16) : Option (Option UInt32) := do
  let rows ← fetchRows udpV6Layout t.udpV6
  pure (Windows.resolvePidUdpV6 rows ip port)

/-- `Option::or_else`, where both sides may leave their buffers. -/
def orElse (a b : Option (Option UInt32)) : Option (Option UInt32) := do
  match ← a with
  | some pid => pure (some pid)
  | none => b

/-- `resolve_pid`. -/
def resolvePid (localIp : IpAddr) (localPort : UInt16) (isUdp : Bool) : Option (Option UInt32) :=
  match localIp with
  | .v4 v4 =>
    if isUdp then orElse (resolvePidUdpV4 t v4 localPort) (resolvePidTcpV4 t v4 localPort)
    else resolvePidTcpV4 t v4 localPort
  | .v6 v6 =>
    if isUdp then orElse (resolvePidUdpV6 t v6 localPort) (resolvePidTcpV6 t v6 localPort)
    else resolvePidTcpV6 t v6 localPort

/-! ## What is read -/

section Bytes

theorem length_toLeBytes (n : UInt32) : (toLeBytes n).length = 4 := rfl

theorem leU32_toLeBytes (n : UInt32) : leU32 (toLeBytes n) = n := by
  have hn := n.toNat_lt
  rw [leU32, ← UInt32.toNat_inj]
  simp only [toLeBytes, List.reverse_cons, List.reverse_nil, List.nil_append, List.cons_append, beNat, List.foldl_cons,
    List.foldl_nil, UInt32.toNat_ofNat', UInt32.toNat_toUInt8, UInt32.toNat_shiftRight, Nat.shiftRight_eq_div_pow,
    UInt32.reduceToNat, Nat.reduceMod, Nat.reducePow]
  omega

variable {size : Nat}

theorem length_flatMap_toList (rows : List (Vector UInt8 size)) :
    (rows.flatMap Vector.toList).length = rows.length * size := by
  induction rows with
  | nil => simp
  | cons row rows ih =>
    rw [List.flatMap_cons, List.length_append, ih, Vector.length_toList, List.length_cons, Nat.add_mul]
    omega

theorem tryIntoArray_toList (row : Vector UInt8 size) : tryIntoArray size row.toList = some row := by
  rw [tryIntoArray, dif_pos row.length_toList]
  rfl

/-- The rows are read back one by one. -/
theorem mapM_rows (rows : List (Vector UInt8 size)) :
    (List.range rows.length).mapM (fun i =>
      tryIntoArray size (((rows.flatMap Vector.toList).drop (i * size)).take size)) = some rows := by
  induction rows with
  | nil => rfl
  | cons row rows ih =>
    have hrow : ((row :: rows).flatMap Vector.toList).take size = row.toList := by
      rw [List.flatMap_cons]
      exact List.take_left' row.length_toList
    have hrest : ∀ i, ((row :: rows).flatMap Vector.toList).drop ((i + 1) * size) =
        (rows.flatMap Vector.toList).drop (i * size) := fun i => by
      rw [List.flatMap_cons, Nat.add_mul, Nat.one_mul, Nat.add_comm, ← List.drop_drop, List.drop_left' row.length_toList]
    rw [List.length_cons, List.range_succ_eq_map, List.mapM_cons, List.mapM_map]
    simp only [Nat.zero_mul, List.drop_zero, hrow, tryIntoArray_toList, Function.comp_def, Nat.succ_eq_add_one, hrest, ih]
    rfl

end Bytes

namespace Listing

variable {size : Nat} (l : Listing size)

theorem length_image : l.image.length = 4 + l.rows.length * size := by
  rw [image, List.length_append, length_flatMap_toList, length_toLeBytes]

theorem length_image_le : l.image.length ≤ l.required.toNat := l.length_image.trans_le l.enough

/-- The number of rows is the one that the table starts with. -/
theorem toNat_length (hs : 0 < size) : (UInt32.ofNat l.rows.length).toNat = l.rows.length := by
  have hlt : l.required.toNat < 2 ^ 32 := l.required.toNat_lt
  have hle : l.rows.length * 1 ≤ l.rows.length * size := Nat.mul_le_mul_left _ hs
  have henough := l.enough
  rw [UInt32.toNat_ofNat', Nat.mod_eq_of_lt (by omega)]

end Listing

section Read

variable {Row : Type} {layout : Layout Row}

/-- The struct does not fit into the buffer. -/
theorem read_eq_none {buf : Bytes} (h : buf.length < 4 + layout.size) : layout.read buf = none := by
  rw [Layout.read, peek, if_neg (by omega)]
  rfl

/-- **What the system has written is read back**, if there is room for the struct. -/
theorem read_image (hs : 0 < layout.size) (l : Listing layout.size) {rest : Bytes}
    (h : 4 + layout.size ≤ (l.image ++ rest).length) : layout.read (l.image ++ rest) = some (l.rows.map layout.row) := by
  have hlen : 4 + l.rows.length * layout.size ≤ (l.image ++ rest).length := by
    rw [List.length_append, l.length_image]
    omega
  have htable : peek (l.image ++ rest) 0 (4 + layout.size) = some ((l.image ++ rest).take (4 + layout.size)) := by
    rw [peek, if_pos (by omega), List.drop_zero]
  have hcount : leU32 (((l.image ++ rest).take (4 + layout.size)).take 4) = UInt32.ofNat l.rows.length := by
    rw [List.take_take, Nat.min_eq_left (Nat.le_add_right _ _), Listing.image, List.append_assoc,
      List.take_left' (length_toLeBytes _), leU32_toLeBytes]
  have hrows : peek (l.image ++ rest) 4 (l.rows.length * layout.size) = some (l.rows.flatMap Vector.toList) := by
    rw [peek, if_pos hlen, Listing.image, List.append_assoc, List.drop_left' (length_toLeBytes _),
      List.take_left' (length_flatMap_toList _)]
  simp only [Layout.read, htable, Option.bind_eq_bind, Option.bind_some, hcount, l.toNat_length hs, hrows, mapM_rows]
  rfl

end Read

/-! ## Both calls -/

namespace Snapshots

variable {size : Nat} (table : Snapshots size)

/-- The table that the second call writes: both calls succeed, and it still fits. -/
def written : Option (Listing size) :=
  match table.sizing, table.filling with
  | .ok before, .ok now => if now.required ≤ before.required then some now else none
  | _, _ => none

/-- The rows that are read. -/
def observed {Row : Type} (layout : Layout Row) (table : Snapshots layout.size) : Option (List Row) :=
  table.written.map fun l => l.rows.map layout.row

/-- The buffer is too short for the struct. -/
def Overread : Prop :=
  ∃ before now, table.sizing = .ok before ∧ table.filling = .ok now ∧ now.required ≤ before.required ∧
    before.required.toNat < 4 + size

variable {table}

theorem not_overread_of_written_eq_none (h : table.written = none) : ¬ table.Overread := by
  rintro ⟨before, now, hb, hn, hle, -⟩
  simp [written, hb, hn, hle] at h

theorem overread_iff {before now : Listing size} (hb : table.sizing = .ok before) (hn : table.filling = .ok now)
    (hle : now.required ≤ before.required) : table.Overread ↔ before.required.toNat < 4 + size := by
  constructor
  · rintro ⟨b, n, hb', -, -, hlt⟩
    cases hb.symm.trans hb'
    exact hlt
  · exact fun hlt => ⟨before, now, hb, hn, hle, hlt⟩

end Snapshots

section Fetch

variable {Row : Type} {layout : Layout Row} {table : Snapshots layout.size}

/-- `fetch_table` fails if a call does, or if the table has grown. -/
theorem fetchTable_eq_none (h : table.written = none) :
    fetchTable (getExtendedTable table.sizing) (getExtendedTable table.filling) = none := by
  unfold Snapshots.written at h
  unfold fetchTable
  cases hb : table.sizing with
  | error refusal => simp [getExtendedTable, refusal.other.2]
  | ok before =>
    cases hn : table.filling with
    | error refusal => simp [getExtendedTable, refusal.other.1]
    | ok now =>
      have hlt : ¬ now.required ≤ before.required := by simpa [hb, hn] using h
      simp [getExtendedTable, hlt, ERROR_INSUFFICIENT_BUFFER, NO_ERROR]

/-- Else it returns what the second call has written, in a buffer of the length that the first one asked for. -/
theorem fetchTable_eq_some {before now : Listing layout.size} (hb : table.sizing = .ok before)
    (hn : table.filling = .ok now) (hle : now.required ≤ before.required) :
    ∃ rest, fetchTable (getExtendedTable table.sizing) (getExtendedTable table.filling) = some (now.image ++ rest) ∧
      (now.image ++ rest).length = before.required.toNat := by
  refine ⟨(List.replicate before.required.toNat 0).drop now.image.length, ?_, ?_⟩
  · simp [fetchTable, getExtendedTable, hb, hn, hle]
  · have himage := now.length_image_le
    have hreq : now.required.toNat ≤ before.required.toNat := hle
    rw [List.length_append, List.length_drop, List.length_replicate]
    omega

/-- **What is read of a table.** -/
theorem fetchRows_eq (table : Snapshots layout.size) (hs : 0 < layout.size) :
    (fetchRows layout table = none ↔ table.Overread) ∧
      ∀ rows, fetchRows layout table = some rows → rows = table.observed layout := by
  cases hw : table.written with
  | none =>
    have hfetch : fetchRows layout table = some none := by rw [fetchRows, fetchTable_eq_none hw]
    rw [hfetch]
    refine ⟨iff_of_false (by simp) (Snapshots.not_overread_of_written_eq_none hw), fun rows hr => ?_⟩
    cases hr
    rw [Snapshots.observed, hw]
    rfl
  | some now =>
    obtain ⟨before, hb, hn, hle⟩ : ∃ before, table.sizing = .ok before ∧ table.filling = .ok now ∧
        now.required ≤ before.required := by
      unfold Snapshots.written at hw
      split at hw
      · next before now' hb hn =>
        split at hw
        · next hle =>
          cases hw
          exact ⟨before, hb, hn, hle⟩
        · cases hw
      · cases hw
    obtain ⟨rest, hfetch, hlen⟩ := fetchTable_eq_some hb hn hle
    have hrows : fetchRows layout table = (layout.read (now.image ++ rest)).map some := by rw [fetchRows, hfetch]
    rw [hrows, Snapshots.overread_iff hb hn hle, ← hlen]
    by_cases hroom : (now.image ++ rest).length < 4 + layout.size
    · rw [read_eq_none hroom]
      exact ⟨iff_of_true rfl hroom, fun rows hr => by cases hr⟩
    · rw [read_image hs now (Nat.le_of_not_lt hroom)]
      refine ⟨iff_of_false (by simp) hroom, fun rows hr => ?_⟩
      cases hr
      rw [Snapshots.observed, hw]
      rfl

end Fetch

/-! ## The lookup -/

/-- What a lookup on bytes does, by what the lookup on rows finds and whether a buffer is left. -/
def Refines (raw : Option (Option UInt32)) (found : Option UInt32) (overread : Prop) : Prop :=
  (raw = none ↔ overread) ∧ ∀ pid, raw = some pid → pid = found

theorem refines_fetchRows {Row : Type} {layout : Layout Row} (hs : 0 < layout.size) (table : Snapshots layout.size)
    (find : Option (List Row) → Option UInt32) :
    Refines (do let rows ← fetchRows layout table; pure (find rows)) (find (table.observed layout)) table.Overread := by
  obtain ⟨hnone, hsome⟩ := fetchRows_eq table hs
  cases hrows : fetchRows layout table with
  | none => exact ⟨iff_of_true rfl (hnone.mp hrows), fun pid hp => by cases hp⟩
  | some rows =>
    refine ⟨iff_of_false (by simp) fun ho => ?_, fun pid hp => ?_⟩
    · rw [hnone.mpr ho] at hrows
      cases hrows
    · cases hp
      rw [hsome rows hrows]

theorem Refines.orElse {a b : Option (Option UInt32)} {x y : Option UInt32} {p q : Prop} (ha : Refines a x p)
    (hb : Refines b y q) : Refines (orElse a b) (x.or y) (p ∨ ¬ p ∧ x = none ∧ q) := by
  cases a with
  | none =>
    have hp : p := ha.1.mp rfl
    exact ⟨iff_of_true rfl (.inl hp), fun pid h => by cases h⟩
  | some found =>
    have hp : ¬ p := fun hp => by cases ha.1.mpr hp
    cases ha.2 found rfl
    cases x with
    | some pid => exact ⟨iff_of_false (by simp [Raw.orElse]) (by simp [hp]), fun _ h => (Option.some.inj h).symm⟩
    | none =>
      refine ⟨?_, fun pid h => ?_⟩
      · rw [or_iff_right hp]
        exact hb.1.trans ⟨fun hq => ⟨hp, rfl, hq⟩, fun h => h.2.2⟩
      · rw [Option.none_or]
        exact hb.2 pid h

namespace Tables

variable (t : Tables)

/-- The rows that a lookup sees of each table. -/
def observed : Windows.Tables where
  tcpV4 := t.tcpV4.observed tcpV4Layout
  udpV4 := t.udpV4.observed udpV4Layout
  tcpV6 := t.tcpV6.observed tcpV6Layout
  udpV6 := t.udpV6.observed udpV6Layout

/-- A table that the lookup gets to is overread: a UDP lookup gets to the TCP table if it finds nothing in its own. -/
def Overreads (localIp : IpAddr) (localPort : UInt16) (isUdp : Bool) : Prop :=
  match localIp with
  | .v4 v4 =>
    if isUdp then
      t.udpV4.Overread ∨
        ¬ t.udpV4.Overread ∧ Windows.resolvePidUdpV4 t.observed.udpV4 v4 localPort = none ∧ t.tcpV4.Overread
    else t.tcpV4.Overread
  | .v6 v6 =>
    if isUdp then
      t.udpV6.Overread ∨
        ¬ t.udpV6.Overread ∧ Windows.resolvePidUdpV6 t.observed.udpV6 v6 localPort = none ∧ t.tcpV6.Overread
    else t.tcpV6.Overread

end Tables

/-- **The lookup on bytes finds what the lookup on rows finds**, whatever the tables are at each call, and leaves a
buffer exactly if one is too short for the struct that is read through it. -/
theorem windows_lookup_reads_rows (t : Tables) (localIp : IpAddr) (localPort : UInt16) (isUdp : Bool) :
    (resolvePid t localIp localPort isUdp = none ↔ t.Overreads localIp localPort isUdp) ∧
      ∀ pid, resolvePid t localIp localPort isUdp = some pid →
        pid = Windows.resolvePid t.observed localIp localPort isUdp := by
  cases localIp with
  | v4 v4 =>
    have htcp : Refines (resolvePidTcpV4 t v4 localPort) (Windows.resolvePidTcpV4 t.observed.tcpV4 v4 localPort)
        t.tcpV4.Overread :=
      refines_fetchRows (by decide) t.tcpV4 fun rows => Windows.resolvePidTcpV4 rows v4 localPort
    have hudp : Refines (resolvePidUdpV4 t v4 localPort) (Windows.resolvePidUdpV4 t.observed.udpV4 v4 localPort)
        t.udpV4.Overread :=
      refines_fetchRows (by decide) t.udpV4 fun rows => Windows.resolvePidUdpV4 rows v4 localPort
    cases isUdp with
    | false => exact htcp
    | true => exact hudp.orElse htcp
  | v6 v6 =>
    have htcp : Refines (resolvePidTcpV6 t v6 localPort) (Windows.resolvePidTcpV6 t.observed.tcpV6 v6 localPort)
        t.tcpV6.Overread :=
      refines_fetchRows (by decide) t.tcpV6 fun rows => Windows.resolvePidTcpV6 rows v6 localPort
    have hudp : Refines (resolvePidUdpV6 t v6 localPort) (Windows.resolvePidUdpV6 t.observed.udpV6 v6 localPort)
        t.udpV6.Overread :=
      refines_fetchRows (by decide) t.udpV6 fun rows => Windows.resolvePidUdpV6 rows v6 localPort
    cases isUdp with
    | false => exact htcp
    | true => exact hudp.orElse htcp

-- an empty table that is exactly as long as its number of rows, and a table that has grown between the calls
example : fetchRows udpV4Layout ⟨.ok ⟨[], 4, by decide⟩, .ok ⟨[], 4, by decide⟩⟩ = none ∧
    fetchRows udpV4Layout ⟨.ok ⟨[.replicate 12 1], 16, by decide⟩, .ok ⟨[.replicate 12 1, .replicate 12 2], 28, by decide⟩⟩ =
      some none := by decide

end AceTun.Windows.Raw
