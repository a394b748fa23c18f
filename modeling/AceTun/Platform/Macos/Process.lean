import AceTun.RustStd.Slice
import AceTun.Platform.Endpoints

/-!
# Attribution on macOS

`scanPcblist` walks a `pcblist_n` table, a header followed by pairs of records, and takes the PID of the record that
matches a flow best; the first of equally good ones wins. A table that ends in the middle of a pair ends there
(`nextRecordPair_bounds`: no slice is out of bounds, and the walk advances). `pcblistTable` fetches a table, whole or not at
all (`pcblistTable_eq_some`), and `resolvePid` puts a cache of PIDs by local endpoint before it.
-/

namespace AceTun.Macos

open RustStd

def INP_IPV6 : UInt8 := 0x2

def XINPCB_OFFSET_LEN : Nat := 0
def XINPCB_OFFSET_FPORT : Nat := 16
def XINPCB_OFFSET_LPORT : Nat := 18
def XINPCB_OFFSET_VFLAG : Nat := 44
def XINPCB_OFFSET_FADDR : Nat := 48
def XINPCB_OFFSET_LADDR : Nat := 64
def XSOCKET_OFFSET_LAST_PID : Nat := 68
def XINGPEN_LEN : Nat := 24

/-! ## Reading fields -/

def readU32Le (record : Bytes) (offset : Nat) : Option Nat := do
  let bytes ← getRange record offset (offset + 4)
  pure (beNat bytes.reverse)

def readU16Be (record : Bytes) (offset : Nat) : Option UInt16 := do
  let bytes ← getRange record offset (offset + 2)
  pure (UInt16.ofNat (beNat bytes))

/-- The field as a signed number. -/
def readI32Le (record : Bytes) (offset : Nat) : Option Int := do
  let n ← readU32Le record offset
  pure (if n < 2 ^ 31 then n else (n : Int) - 2 ^ 32)

/-- An address slot: an IPv4 address stands in its last four bytes. -/
def readAddress (record : Bytes) (offset : Nat) (isV6 : Bool) : Option IpAddr :=
  if isV6 then do
    let octets ← tryIntoArray 16 (← getRange record offset (offset + 16))
    some (.v6 ⟨octets⟩)
  else do
    let octets ← tryIntoArray 4 (← getRange record (offset + 12) (offset + 16))
    some (.v4 ⟨octets⟩)

/-! ## The walk -/

/-- A PID and how specifically its record matched: 3 for the four-tuple, 2 for the local endpoint, 1 for a wildcard. -/
structure Candidate where
  pid : UInt32
  specificity : Nat
  deriving DecidableEq, Repr

/-- How specifically a socket with these endpoints matches a flow on its port. -/
def specificity (localAddr foreignAddr : IpAddr) (foreignPort : UInt16) (flow : FlowEnds) : Option Nat :=
  let connected := foreignPort ≠ 0 ∧ !foreignAddr.isUnspecified
  if connected ∧ localAddr = flow.localAddr.ip ∧ foreignAddr = flow.remote.ip ∧ foreignPort = flow.remote.port then
    some 3
  else if !localAddr.isUnspecified ∧ localAddr = flow.localAddr.ip then some 2
  else if localAddr.isUnspecified then some 1
  else none

def scoreRecord (inpcb socket : Bytes) (flow : FlowEnds) : Option Candidate := do
  let vflag ← inpcb[XINPCB_OFFSET_VFLAG]?
  let isV6 := vflag &&& INP_IPV6 != 0
  if isV6 ≠ flow.localAddr.ip.isIpv6 then none
  else do
    let localPort ← readU16Be inpcb XINPCB_OFFSET_LPORT
    let foreignPort ← readU16Be inpcb XINPCB_OFFSET_FPORT
    if localPort ≠ flow.localAddr.port then none
    else do
      let localAddr ← readAddress inpcb XINPCB_OFFSET_LADDR isV6
      let foreignAddr ← readAddress inpcb XINPCB_OFFSET_FADDR isV6
      let specificity ← specificity localAddr foreignAddr foreignPort flow
      let pid ← readI32Le socket XSOCKET_OFFSET_LAST_PID
      -- sockets of the kernel have no owner
      if pid ≤ 0 then none else some ⟨UInt32.ofNat pid.toNat, specificity⟩

/-- The ends of the next two records. -/
def nextRecordPair (table : Bytes) (offset : Nat) : Option (Nat × Nat) := do
  let inpcbLen ← readU32Le table offset
  if inpcbLen < XINPCB_OFFSET_LADDR + 16 then none
  else
    let inpcbEnd := offset + inpcbLen
    if inpcbEnd > table.length then none
    else do
      let socketLen ← readU32Le table inpcbEnd
      if socketLen < XSOCKET_OFFSET_LAST_PID + 4 then none
      else
        let socketEnd := inpcbEnd + socketLen
        if socketEnd > table.length then none else some (inpcbEnd, socketEnd)

/-- The records of a pair are in bounds, and the walk advances. -/
theorem nextRecordPair_bounds {table : Bytes} {offset inpcbEnd socketEnd : Nat}
    (h : nextRecordPair table offset = some (inpcbEnd, socketEnd)) :
    offset < inpcbEnd ∧ inpcbEnd < socketEnd ∧ socketEnd ≤ table.length := by
  simp only [nextRecordPair, Option.bind_eq_bind, Option.bind_eq_some_iff, Option.ite_none_left_eq_some,
    Option.some.injEq, Prod.mk.injEq] at h
  obtain ⟨inpcbLen, -, hle, -, socketLen, -, hle', hend, rfl, rfl⟩ := h
  unfold XINPCB_OFFSET_LADDR at hle
  unfold XSOCKET_OFFSET_LAST_PID at hle'
  omega

/-- The better of the best match so far and a new one. -/
def better (best candidate : Option Candidate) : Option Candidate :=
  match candidate with
  | none => best
  | some c => if best.all (c.specificity > ·.specificity) then candidate else best

/-- The loop over the pairs of records. -/
def scanRecords (table : Bytes) (flow : FlowEnds) (offset : Nat) (best : Option Candidate) : Option Candidate :=
  match _h : nextRecordPair table offset with
  | none => best
  | some (inpcbEnd, socketEnd) =>
    let inpcb := (table.drop offset).take (inpcbEnd - offset)
    let socket := (table.drop inpcbEnd).take (socketEnd - inpcbEnd)
    scanRecords table flow socketEnd (better best (scoreRecord inpcb socket flow))
termination_by table.length - offset
decreasing_by
  have := nextRecordPair_bounds _h
  omega

def scanPcblist (table : Bytes) (flow : FlowEnds) : Option UInt32 := do
  let offset ← readU32Le table XINPCB_OFFSET_LEN
  if offset < XINGPEN_LEN then none else (scanRecords table flow offset none).map Candidate.pid

/-! ## Fetching -/

/-- `sysctlbyname` with a buffer, by the table that the kernel has: it fails with `ENOMEM` if the table does not fit, and
otherwise copies it and returns how much was copied. -/
def sysctlbyname (buffer : Bytes) (kernel : Option Bytes) : Option (Bytes × Nat) := do
  let kernel ← kernel
  if buffer.length < kernel.length then none else some (kernel ++ buffer.drop kernel.length, kernel.length)

/-- `pcblist_table`, by the answers to its two calls: the size that the first one gives, and the table that the kernel
has when the second one copies it. A call that fails gives nothing. -/
def pcblistTable (sizing : Option Nat) (filling : Option Bytes) : Option Bytes := do
  let length ← sizing
  if length = 0 then none
  else do
    let (table, length) ← sysctlbyname (List.replicate length 0) filling
    some (table.take length)

/-- **A table is read whole or not at all.** -/
theorem pcblistTable_eq_some {sizing : Option Nat} {filling : Option Bytes} {table : Bytes} :
    pcblistTable sizing filling = some table ↔
      ∃ length, sizing = some length ∧ length ≠ 0 ∧ filling = some table ∧ table.length ≤ length := by
  rcases sizing with _ | length
  · simp [pcblistTable]
  · rcases filling with _ | now
    · simp [pcblistTable, sysctlbyname]
    · have hfetch : pcblistTable (some length) (some now) = if length = 0 ∨ length < now.length then none else some now := by
        by_cases hzero : length = 0
        · simp [pcblistTable, hzero]
        · by_cases hlt : length < now.length <;> simp [pcblistTable, sysctlbyname, hzero, hlt]
      rw [hfetch, Option.ite_none_left_eq_some]
      constructor
      · rintro ⟨hneither, ⟨⟩⟩
        exact ⟨length, rfl, by omega, rfl, by omega⟩
      · rintro ⟨_, ⟨⟩, hzero, ⟨⟩, hle⟩
        exact ⟨by omega, rfl⟩

/-! ## Resolving -/

structure ProcessCache where
  endpoints : Endpoints

/-- The cache that the process starts with. -/
def ProcessCache.new : ProcessCache := ⟨∅⟩

/-- What `pcblist_table` returns, by protocol. -/
abbrev PcblistTable : Type := (isUdp : Bool) → Option Bytes

/-- `resolve_pid`, at a time. -/
def resolvePid (pcblistTable : PcblistTable) (flow : FlowEnds) (now : Nat) (cache : ProcessCache) :
    Option UInt32 × ProcessCache :=
  match cache.endpoints.cached flow now with
  | some pid => (some pid, cache)
  | none =>
    match pcblistTable flow.isUdp with
    | none => (none, cache)
    | some table =>
      match scanPcblist table flow with
      | some pid => (some pid, { cache with endpoints := cache.endpoints.insert flow.key (pid, now) })
      | none => (none, cache)

end AceTun.Macos
