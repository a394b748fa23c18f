import AceTun.Platform.Macos.Process

/-!
# The walk over a table

`records` are the pairs of records that the walk meets, and `scanPcblist` takes the first of those that match best
(`scanPcblist_eq`, `FirstBest.foldl_eq`). A table that is put together from a header, record pairs and an incomplete rest
has exactly these pairs (`PcbTable.records_bytes`), and no slice of any byte string is out of bounds
(`scanPcblist_best`).

`specificity` does not ask whether a socket that fails the first comparison is connected, so the socket of another peer
can be attributed (`scanPcblist_genuine_iff`).
-/

namespace AceTun.Macos

open RustStd

/-! ## The first best -/

section Best

variable {α : Type} {score : α → Option Candidate}

/-- The first of the most specific matches: what stands before it matches less specifically, and what stands after it
does not match more specifically. -/
def FirstBest (score : α → Option Candidate) (rs : List α) (r : α) (c : Candidate) : Prop :=
  ∃ before after, rs = before ++ r :: after ∧ score r = some c ∧
    (∀ r' ∈ before, ∀ c' ∈ score r', c'.specificity < c.specificity) ∧
    ∀ r' ∈ after, ∀ c' ∈ score r', c'.specificity ≤ c.specificity

theorem foldl_better_lt {n : Nat} {rs : List α} {best : Option Candidate}
    (h : ∀ r ∈ rs, ∀ c ∈ score r, c.specificity < n) (hb : ∀ c ∈ best, c.specificity < n) :
    ∀ c ∈ (rs.map score).foldl better best, c.specificity < n := by
  induction rs generalizing best with
  | nil => exact hb
  | cons r rs ih =>
    refine ih (fun r' hr' => h r' (List.mem_cons_of_mem r hr')) fun c hc => ?_
    unfold better at hc
    split at hc
    · exact hb c hc
    · next c' hs =>
      split at hc
      · exact h r List.mem_cons_self c (hs ▸ hc)
      · exact hb c hc

theorem foldl_better_keeps {rs : List α} {c : Candidate}
    (h : ∀ r ∈ rs, ∀ c' ∈ score r, c'.specificity ≤ c.specificity) :
    (rs.map score).foldl better (some c) = some c := by
  induction rs with
  | nil => rfl
  | cons r rs ih =>
    have hstep : better (some c) (score r) = some c := by
      unfold better
      split
      · rfl
      · next c' hs =>
        have hle := h r List.mem_cons_self c' hs
        rw [if_neg]
        simpa using hle
    rw [List.map_cons, List.foldl_cons, hstep]
    exact ih fun r' hr' => h r' (List.mem_cons_of_mem r hr')

/-- The walk keeps the first best. -/
theorem FirstBest.foldl_eq {rs : List α} {r : α} {c : Candidate} (h : FirstBest score rs r c) :
    (rs.map score).foldl better none = some c := by
  obtain ⟨before, after, rfl, hr, hbefore, hafter⟩ := h
  have hlt := @foldl_better_lt _ _ _ _ none hbefore fun c hc => by cases hc
  have hstep : better ((before.map score).foldl better none) (some c) = some c := by
    refine if_pos ?_
    rw [Option.all_eq_true]
    exact fun c' hc' => decide_eq_true (hlt c' hc')
  rw [List.map_append, List.map_cons, List.foldl_append, List.foldl_cons, hr, hstep]
  exact foldl_better_keeps hafter

theorem FirstBest.specificity_le {rs : List α} {r r' : α} {c c' : Candidate} (h : FirstBest score rs r c) (hr : r' ∈ rs)
    (hc : c' ∈ score r') : c'.specificity ≤ c.specificity := by
  obtain ⟨before, after, rfl, hs, hbefore, hafter⟩ := h
  rcases List.mem_append.mp hr with hr | hr
  · exact Nat.le_of_lt (hbefore r' hr c' hc)
  · rcases List.mem_cons.mp hr with rfl | hr
    · cases hs.symm.trans hc
      exact Nat.le_refl _
    · exact hafter r' hr c' hc

/-- The first best of the rest is the first best if what stands before the rest matches less specifically. -/
theorem FirstBest.cons {rs : List α} {r r' : α} {c : Candidate} (h : FirstBest score rs r c)
    (hr : ∀ c' ∈ score r', c'.specificity < c.specificity) : FirstBest score (r' :: rs) r c := by
  obtain ⟨before, after, rfl, hs, hbefore, hafter⟩ := h
  exact ⟨r' :: before, after, rfl, hs, List.forall_mem_cons.mpr ⟨hr, hbefore⟩, hafter⟩

/-- There is a first best unless nothing matches. -/
theorem firstBest_or_none (score : α → Option Candidate) (rs : List α) :
    (∃ r c, FirstBest score rs r c) ∨ ∀ r ∈ rs, score r = none := by
  induction rs with
  | nil => exact .inr fun r hr => absurd hr List.not_mem_nil
  | cons r rs ih =>
    rcases hr : score r with _ | c
    · rcases ih with ⟨r', c', hbest⟩ | hnone
      · exact .inl ⟨r', c', hbest.cons (by simp [hr])⟩
      · exact .inr (List.forall_mem_cons.mpr ⟨hr, hnone⟩)
    · left
      rcases ih with ⟨r', c', hbest⟩ | hnone
      · by_cases hc : c.specificity < c'.specificity
        · exact ⟨r', c', hbest.cons (by simpa [hr] using hc)⟩
        · refine ⟨r, c, [], rs, rfl, hr, by simp, fun r'' hr'' c'' hc'' => ?_⟩
          exact Nat.le_trans (hbest.specificity_le hr'' hc'') (Nat.le_of_not_lt hc)
      · refine ⟨r, c, [], rs, rfl, hr, by simp, fun r'' hr'' c'' hc'' => ?_⟩
        rw [hnone r'' hr''] at hc''
        cases hc''

theorem foldl_better_none {rs : List α} (h : ∀ r ∈ rs, score r = none) :
    (rs.map score).foldl better none = none := by
  have hmap : rs.map score = List.replicate rs.length none :=
    List.eq_replicate_iff.mpr ⟨List.length_map _, by simpa using h⟩
  rw [hmap]
  induction rs.length with
  | zero => rfl
  | succ n ih => exact ih

end Best

/-! ## The records of a table -/

/-- The pairs of records from an offset on. -/
def recordsFrom (table : Bytes) (offset : Nat) : List (Bytes × Bytes) :=
  match _h : nextRecordPair table offset with
  | none => []
  | some (inpcbEnd, socketEnd) =>
    ((table.drop offset).take (inpcbEnd - offset), (table.drop inpcbEnd).take (socketEnd - inpcbEnd)) ::
      recordsFrom table socketEnd
termination_by table.length - offset
decreasing_by
  have := nextRecordPair_bounds _h
  omega

/-- The pairs of records of a table, which begin after its header. -/
def records (table : Bytes) : List (Bytes × Bytes) :=
  match readU32Le table XINPCB_OFFSET_LEN with
  | none => []
  | some offset => if offset < XINGPEN_LEN then [] else recordsFrom table offset

theorem scanRecords_eq (table : Bytes) (flow : FlowEnds) (offset : Nat) (best : Option Candidate) :
    scanRecords table flow offset best =
      ((recordsFrom table offset).map fun r => scoreRecord r.1 r.2 flow).foldl better best := by
  fun_induction recordsFrom table offset generalizing best with
  | case1 offset h =>
    rw [scanRecords]
    split
    · rfl
    · next h' => cases h.symm.trans h'
  | case2 offset inpcbEnd socketEnd h ih =>
    rw [scanRecords]
    split
    · next h' => cases h.symm.trans h'
    · next h' =>
      cases h.symm.trans h'
      exact ih _

/-- The scan is a fold over the records. -/
theorem scanPcblist_eq (table : Bytes) (flow : FlowEnds) :
    scanPcblist table flow =
      (((records table).map fun r => scoreRecord r.1 r.2 flow).foldl better none).map Candidate.pid := by
  unfold scanPcblist records
  rcases readU32Le table XINPCB_OFFSET_LEN with _ | offset
  · rfl
  · simp only [Option.bind_eq_bind, Option.bind_some]
    split
    · rfl
    · rw [scanRecords_eq]

/-! ## Tables put together -/

section Layout

/-- A record that declares its own length, and has at least the bytes that are read. -/
def IsRecord (minLen : Nat) (record : Bytes) : Prop :=
  readU32Le record XINPCB_OFFSET_LEN = some record.length ∧ minLen ≤ record.length

/-- A `xinpcb_n` and the `xsocket_n` after it. -/
structure RecordPair where
  inpcb : Bytes
  socket : Bytes
  inpcb_isRecord : IsRecord (XINPCB_OFFSET_LADDR + 16) inpcb
  socket_isRecord : IsRecord (XSOCKET_OFFSET_LAST_PID + 4) socket

def RecordPair.bytes (pair : RecordPair) : Bytes := pair.inpcb ++ pair.socket

/-- A header, record pairs, and bytes that do not begin with another pair. -/
structure PcbTable where
  header : Bytes
  header_isRecord : IsRecord XINGPEN_LEN header
  pairs : List RecordPair
  trailing : Bytes
  trailing_incomplete : ∀ (pair : RecordPair) (rest : Bytes), trailing ≠ pair.bytes ++ rest

def PcbTable.bytes (table : PcbTable) : Bytes :=
  table.header ++ (table.pairs.flatMap RecordPair.bytes ++ table.trailing)

theorem readU32Le_eq_some {bs : Bytes} {offset n : Nat} :
    readU32Le bs offset = some n ↔
      offset + 4 ≤ bs.length ∧ n = beNat ((bs.drop offset).take 4).reverse := by
  unfold readU32Le getRange
  split
  · next h => simp [h.2, eq_comm]
  · next h => simp; omega

/-- A field is read where it stands. -/
theorem readU32Le_drop (bs : Bytes) (offset : Nat) : readU32Le (bs.drop offset) 0 = readU32Le bs offset := by
  refine Option.ext fun n => ?_
  rw [readU32Le_eq_some, readU32Le_eq_some, List.drop_zero, List.length_drop]
  refine and_congr_left fun _ => ?_
  omega

theorem IsRecord.readU32Le_append {k : Nat} {record : Bytes} (h : IsRecord k record) (rest : Bytes) :
    readU32Le (record ++ rest) 0 = some record.length := by
  obtain ⟨hlen, hn⟩ := readU32Le_eq_some.mp h.1
  rw [XINPCB_OFFSET_LEN] at hlen hn
  refine readU32Le_eq_some.mpr ⟨?_, ?_⟩
  · rw [List.length_append]
    omega
  · rw [List.drop_zero, List.take_append_of_le_length (by omega)]
    exact hn

variable {bs rest : Bytes} {offset : Nat}

/-- The pair that stands at an offset is the next one. -/
theorem nextRecordPair_of_drop {pair : RecordPair} (h : bs.drop offset = pair.bytes ++ rest) :
    nextRecordPair bs offset = some (offset + pair.inpcb.length, offset + pair.inpcb.length + pair.socket.length) := by
  rw [RecordPair.bytes, List.append_assoc] at h
  have hsocket : bs.drop (offset + pair.inpcb.length) = pair.socket ++ rest := by
    rw [← List.drop_drop, h, List.drop_left]
  have hlen := congrArg List.length h
  rw [List.length_drop, List.length_append, List.length_append] at hlen
  have hpos : 0 < pair.inpcb.length := Nat.lt_of_lt_of_le (Nat.succ_pos _) pair.inpcb_isRecord.2
  have hread : readU32Le bs offset = some pair.inpcb.length := by
    rw [← readU32Le_drop, h]
    exact pair.inpcb_isRecord.readU32Le_append _
  have hread' : readU32Le bs (offset + pair.inpcb.length) = some pair.socket.length := by
    rw [← readU32Le_drop, hsocket]
    exact pair.socket_isRecord.readU32Le_append rest
  simp only [nextRecordPair, Option.bind_eq_bind, hread, hread', Option.bind_some]
  rw [if_neg (Nat.not_lt.mpr pair.inpcb_isRecord.2), if_neg (by omega), if_neg (Nat.not_lt.mpr pair.socket_isRecord.2),
    if_neg (by omega)]

theorem isRecord_take {k n : Nat} (hread : readU32Le bs offset = some n) (hk : ¬ n < k) (h4 : 4 ≤ k)
    (hn : offset + n ≤ bs.length) : IsRecord k ((bs.drop offset).take n) := by
  obtain ⟨-, hval⟩ := readU32Le_eq_some.mp hread
  have hlen : ((bs.drop offset).take n).length = n := by
    rw [List.length_take, List.length_drop]
    omega
  refine ⟨readU32Le_eq_some.mpr ⟨?_, ?_⟩, by omega⟩
  · rw [hlen, XINPCB_OFFSET_LEN]
    omega
  · rw [hlen, XINPCB_OFFSET_LEN, List.drop_zero, List.take_take, Nat.min_eq_left (by omega), ← hval]

/-- The next pair is one that stands there. -/
theorem exists_pair_of_nextRecordPair {inpcbEnd socketEnd : Nat}
    (h : nextRecordPair bs offset = some (inpcbEnd, socketEnd)) :
    ∃ (pair : RecordPair) (rest : Bytes), bs.drop offset = pair.bytes ++ rest := by
  simp only [nextRecordPair, Option.bind_eq_bind, Option.bind_eq_some_iff, Option.ite_none_left_eq_some,
    Option.some.injEq, Prod.mk.injEq] at h
  obtain ⟨n, hread, hn, hend, n', hread', hn', hend', rfl, rfl⟩ := h
  have hsplit : bs.drop offset =
      ((bs.drop offset).take n ++ (bs.drop (offset + n)).take n') ++ bs.drop (offset + n + n') := by
    have hrest : bs.drop (offset + n + n') = (bs.drop (offset + n)).drop n' := List.drop_drop.symm
    rw [List.append_assoc, hrest, List.take_append_drop, ← List.drop_drop, List.take_append_drop]
  exact ⟨⟨_, _, isRecord_take hread hn (by decide) (by omega), isRecord_take hread' hn' (by decide) (by omega)⟩, _,
    hsplit⟩

/-- The records from an offset on are the pairs that stand there, up to bytes that do not begin with one. -/
theorem recordsFrom_of_drop {pairs : List RecordPair} {trailing : Bytes}
    (htrailing : ∀ (pair : RecordPair) (rest : Bytes), trailing ≠ pair.bytes ++ rest)
    (h : bs.drop offset = pairs.flatMap RecordPair.bytes ++ trailing) :
    recordsFrom bs offset = pairs.map fun pair => (pair.inpcb, pair.socket) := by
  induction pairs generalizing offset with
  | nil =>
    have hnone : nextRecordPair bs offset = none := by
      rcases hnext : nextRecordPair bs offset with _ | ⟨inpcbEnd, socketEnd⟩
      · rfl
      · obtain ⟨pair, rest, hpair⟩ := exists_pair_of_nextRecordPair hnext
        exact absurd (h.symm.trans hpair) (htrailing pair rest)
    rw [recordsFrom]
    split
    · rfl
    · next h' => cases hnone.symm.trans h'
  | cons pair pairs ih =>
    rw [List.flatMap_cons, List.append_assoc] at h
    have hnext := nextRecordPair_of_drop h
    have hsocket : bs.drop (offset + pair.inpcb.length) =
        pair.socket ++ (pairs.flatMap RecordPair.bytes ++ trailing) := by
      rw [← List.drop_drop, h, RecordPair.bytes, List.append_assoc, List.drop_left]
    rw [recordsFrom]
    split
    · next h' => cases hnext.symm.trans h'
    · next h' =>
      cases hnext.symm.trans h'
      rw [ih (by rw [← List.drop_drop, hsocket, List.drop_left]), hsocket, h, RecordPair.bytes, List.append_assoc,
        Nat.add_sub_cancel_left, Nat.add_sub_cancel_left, List.take_left, List.take_left, List.map_cons]

theorem PcbTable.records_bytes (table : PcbTable) :
    records table.bytes = table.pairs.map fun pair => (pair.inpcb, pair.socket) := by
  have hread : readU32Le table.bytes XINPCB_OFFSET_LEN = some table.header.length :=
    table.header_isRecord.readU32Le_append _
  have hfits := table.header_isRecord.2
  unfold records
  rw [hread]
  dsimp only
  rw [if_neg (by omega)]
  exact recordsFrom_of_drop table.trailing_incomplete List.drop_left

end Layout

/-! ## No slice is out of bounds -/

/-- The loop with its slices. -/
def scanRecordsChecked (table : Bytes) (flow : FlowEnds) (offset : Nat) (best : Option Candidate) :
    Except Panic (Option Candidate) :=
  match _h : nextRecordPair table offset with
  | none => .ok best
  | some (inpcbEnd, socketEnd) => do
    let inpcb ← slice table offset inpcbEnd
    let socket ← slice table inpcbEnd socketEnd
    scanRecordsChecked table flow socketEnd (better best (scoreRecord inpcb socket flow))
termination_by table.length - offset
decreasing_by
  have := nextRecordPair_bounds _h
  omega

/-- `scan_pcblist` with its slices. -/
def scanPcblistChecked (table : Bytes) (flow : FlowEnds) : Except Panic (Option UInt32) :=
  match readU32Le table XINPCB_OFFSET_LEN with
  | none => .ok none
  | some offset =>
    if offset < XINGPEN_LEN then .ok none
    else do
      let best ← scanRecordsChecked table flow offset none
      pure (best.map Candidate.pid)

theorem scanRecordsChecked_eq (table : Bytes) (flow : FlowEnds) (offset : Nat) (best : Option Candidate) :
    scanRecordsChecked table flow offset best = .ok (scanRecords table flow offset best) := by
  fun_induction scanRecords table flow offset best with
  | case1 offset best h =>
    rw [scanRecordsChecked]
    split
    · rfl
    · next h' => cases h.symm.trans h'
  | case2 offset best inpcbEnd socketEnd h inpcb socket ih =>
    obtain ⟨hlt, hlt', hle⟩ := nextRecordPair_bounds h
    rw [scanRecordsChecked]
    split
    · next h' => cases h.symm.trans h'
    · next h' =>
      cases h.symm.trans h'
      rw [slice_ok (by omega) (by omega), slice_ok (by omega) hle]
      exact ih

theorem scanPcblistChecked_eq (table : Bytes) (flow : FlowEnds) :
    scanPcblistChecked table flow = .ok (scanPcblist table flow) := by
  unfold scanPcblistChecked scanPcblist
  rcases readU32Le table XINPCB_OFFSET_LEN with _ | offset
  · rfl
  · simp only [Option.bind_eq_bind, Option.bind_some, scanRecordsChecked_eq]
    split
    · rfl
    · rfl

/-- **The scan finds the first best record**: on every table put together from a header, record pairs and an incomplete
rest, it returns the PID of the first pair that matches the flow most specifically, and nothing if none matches; and on
every byte string the walk ends without a slice out of bounds. -/
theorem scanPcblist_best :
    (∀ (table : PcbTable) (flow : FlowEnds),
      (∃ pair c, FirstBest (fun pair : RecordPair => scoreRecord pair.inpcb pair.socket flow) table.pairs pair c ∧
        scanPcblist table.bytes flow = some c.pid) ∨
      (∀ pair ∈ table.pairs, scoreRecord pair.inpcb pair.socket flow = none) ∧ scanPcblist table.bytes flow = none) ∧
    ∀ (table : Bytes) (flow : FlowEnds), scanPcblistChecked table flow = .ok (scanPcblist table flow) := by
  refine ⟨fun table flow => ?_, scanPcblistChecked_eq⟩
  rw [scanPcblist_eq, table.records_bytes, List.map_map]
  rcases firstBest_or_none (fun pair : RecordPair => scoreRecord pair.inpcb pair.socket flow) table.pairs with
    ⟨pair, c, hbest⟩ | hnone
  · exact .inl ⟨pair, c, hbest, congrArg (Option.map Candidate.pid) hbest.foldl_eq⟩
  · exact .inr ⟨hnone, congrArg (Option.map Candidate.pid) (foldl_better_none hnone)⟩

/-! ## Whose socket it is -/

/-- What a pair of records says about a socket. -/
structure Socket where
  isV6 : Bool
  localPort : UInt16
  foreignPort : UInt16
  localAddr : IpAddr
  foreignAddr : IpAddr
  pid : Int
  deriving DecidableEq

def readSocket (inpcb socket : Bytes) : Option Socket := do
  let vflag ← inpcb[XINPCB_OFFSET_VFLAG]?
  let isV6 := vflag &&& INP_IPV6 != 0
  let localPort ← readU16Be inpcb XINPCB_OFFSET_LPORT
  let foreignPort ← readU16Be inpcb XINPCB_OFFSET_FPORT
  let localAddr ← readAddress inpcb XINPCB_OFFSET_LADDR isV6
  let foreignAddr ← readAddress inpcb XINPCB_OFFSET_FADDR isV6
  let pid ← readI32Le socket XSOCKET_OFFSET_LAST_PID
  some ⟨isV6, localPort, foreignPort, localAddr, foreignAddr, pid⟩

/-- The sockets of a table. -/
def sockets (table : Bytes) : List Socket := (records table).filterMap fun r => readSocket r.1 r.2

namespace Socket

/-- The family and the local port are the flow's. -/
def OnPort (s : Socket) (flow : FlowEnds) : Prop :=
  s.isV6 = flow.localAddr.ip.isIpv6 ∧ s.localPort = flow.localAddr.port

instance (s : Socket) (flow : FlowEnds) : Decidable (s.OnPort flow) := by unfold OnPort; infer_instance

/-- The socket has a peer. -/
def Connected (s : Socket) : Prop := s.foreignPort ≠ 0 ∧ !s.foreignAddr.isUnspecified

/-- The socket has the endpoints of the flow. -/
def HasEnds (s : Socket) (flow : FlowEnds) : Prop :=
  s.localAddr = flow.localAddr.ip ∧ s.foreignAddr = flow.remote.ip ∧ s.foreignPort = flow.remote.port

/-- The flow may be the socket's: it is connected with the flow's endpoints, or it is not connected and bound to the
flow's address or to the wildcard. -/
def Genuine (s : Socket) (flow : FlowEnds) : Prop :=
  s.OnPort flow ∧
    (s.Connected ∧ s.HasEnds flow ∨
      ¬ s.Connected ∧ (s.localAddr = flow.localAddr.ip ∨ s.localAddr.isUnspecified))

/-- The socket is connected, but not as the flow is. -/
def ConnectedElsewhere (s : Socket) (flow : FlowEnds) : Prop := s.Connected ∧ ¬ s.HasEnds flow

/-- How the socket matches a flow. -/
def score (flow : FlowEnds) (s : Socket) : Option Candidate :=
  if s.OnPort flow ∧ 0 < s.pid then
    (specificity s.localAddr s.foreignAddr s.foreignPort flow).map (⟨UInt32.ofNat s.pid.toNat, ·⟩)
  else none

end Socket

/-- A pair of records is scored by what it says about its socket. -/
theorem scoreRecord_eq (inpcb socket : Bytes) (flow : FlowEnds) :
    scoreRecord inpcb socket flow = (readSocket inpcb socket).bind (Socket.score flow) := by
  unfold scoreRecord readSocket
  rcases inpcb[XINPCB_OFFSET_VFLAG]? with _ | vflag
  · rfl
  rcases readU16Be inpcb XINPCB_OFFSET_LPORT with _ | localPort
  · simp
  rcases readU16Be inpcb XINPCB_OFFSET_FPORT with _ | foreignPort
  · simp
  simp only [Option.bind_eq_bind, Option.bind_some]
  generalize (vflag &&& INP_IPV6 != 0) = isV6
  rcases readAddress inpcb XINPCB_OFFSET_LADDR isV6 with _ | localAddr
  · simp
  rcases readAddress inpcb XINPCB_OFFSET_FADDR isV6 with _ | foreignAddr
  · simp
  rcases readI32Le socket XSOCKET_OFFSET_LAST_PID with _ | pid
  · simp
  simp only [Option.bind_some]
  unfold Socket.score Socket.OnPort
  dsimp only
  by_cases hv : isV6 = flow.localAddr.ip.isIpv6
  · by_cases hp : localPort = flow.localAddr.port
    · by_cases hpid : 0 < pid
      · have hpos : ¬ pid ≤ 0 := by omega
        rw [if_neg (not_not_intro hv), if_neg (not_not_intro hp), if_pos ⟨⟨hv, hp⟩, hpid⟩, Option.map_eq_bind]
        simp only [if_neg hpos]
        rfl
      · have hneg : pid ≤ 0 := by omega
        simp [hneg, hpid]
    · rw [if_neg (not_not_intro hv), if_pos hp, if_neg fun h => hp h.1.2]
  · simp [hv]

section Ownership

variable {table : Bytes} {flow : FlowEnds} {s : Socket} {c : Candidate}

theorem foldl_better_filterMap {α β : Type} (f : α → Option β) (g : β → Option Candidate) (rs : List α)
    (best : Option Candidate) :
    (rs.map fun r => (f r).bind g).foldl better best = ((rs.filterMap f).map g).foldl better best := by
  induction rs generalizing best with
  | nil => rfl
  | cons r rs ih =>
    rw [List.map_cons, List.foldl_cons, ih, List.filterMap_cons]
    cases f r with
    | none => rfl
    | some s => rfl

theorem scanPcblist_eq_sockets (table : Bytes) (flow : FlowEnds) :
    scanPcblist table flow = (((sockets table).map (Socket.score flow)).foldl better none).map Candidate.pid := by
  rw [scanPcblist_eq]
  simp only [scoreRecord_eq]
  rw [foldl_better_filterMap (fun r : Bytes × Bytes => readSocket r.1 r.2), sockets]

theorem readI32Le_lt {bs : Bytes} {offset : Nat} {n : Int} (h : readI32Le bs offset = some n) : n < 2 ^ 31 := by
  obtain ⟨m, hm, hn⟩ := Option.bind_eq_some_iff.mp h
  obtain ⟨hle, rfl⟩ := readU32Le_eq_some.mp hm
  have hlt := beNat_lt ((bs.drop offset).take 4).reverse
  rw [List.length_reverse, List.length_take, List.length_drop, Nat.min_eq_left (by omega)] at hlt
  cases hn
  split <;> omega

theorem pid_lt_of_mem_sockets (h : s ∈ sockets table) : s.pid < 2 ^ 31 := by
  obtain ⟨r, -, hr⟩ := List.mem_filterMap.mp h
  simp only [readSocket, Option.bind_eq_bind, Option.bind_eq_some_iff, Option.some.injEq] at hr
  obtain ⟨_, -, _, -, _, -, _, -, _, -, pid, hpid, rfl⟩ := hr
  exact readI32Le_lt hpid

namespace Socket

theorem score_eq_some (h : s.score flow = some c) :
    s.OnPort flow ∧ 0 < s.pid ∧ c.pid = UInt32.ofNat s.pid.toNat ∧
      specificity s.localAddr s.foreignAddr s.foreignPort flow = some c.specificity := by
  unfold score at h
  split at h
  · next hon =>
    obtain ⟨n, hn, rfl⟩ := Option.map_eq_some_iff.mp h
    exact ⟨hon.1, hon.2, rfl, hn⟩
  · cases h

/-- A socket that matches is genuine, or connected elsewhere. -/
theorem genuine_or_connectedElsewhere (h : s.score flow = some c) : s.Genuine flow ∨ s.ConnectedElsewhere flow := by
  obtain ⟨hon, -, -, hs⟩ := score_eq_some h
  by_cases hconn : s.Connected
  · by_cases hends : s.HasEnds flow
    · exact .inl ⟨hon, .inl ⟨hconn, hends⟩⟩
    · exact .inr ⟨hconn, hends⟩
  · refine .inl ⟨hon, .inr ⟨hconn, ?_⟩⟩
    unfold specificity at hs
    dsimp only at hs
    split at hs
    · next h3 => exact absurd h3.1 hconn
    · split at hs
      · next h2 => exact .inl h2.2
      · split at hs
        · next h1 => exact .inr h1
        · cases hs

end Socket

/-- **The scan attributes genuinely exactly when its first best socket is not another peer's**, or else has the PID of a
genuine one. -/
theorem scanPcblist_genuine_iff (table : Bytes) (flow : FlowEnds) :
    (∀ pid, scanPcblist table flow = some pid →
        ∃ s ∈ sockets table, s.pid = (pid.toNat : Int) ∧ s.Genuine flow) ↔
      ∀ s c, FirstBest (Socket.score flow) (sockets table) s c → s.ConnectedElsewhere flow →
        ∃ s' ∈ sockets table, s'.pid = s.pid ∧ s'.Genuine flow := by
  have hpid : ∀ s c, FirstBest (Socket.score flow) (sockets table) s c → (c.pid.toNat : Int) = s.pid := by
    rintro s c ⟨before, after, hsplit, hs, -⟩
    have hmem : s ∈ sockets table := by simp [hsplit]
    have hlt := pid_lt_of_mem_sockets hmem
    obtain ⟨-, hpos, hc, -⟩ := Socket.score_eq_some hs
    rw [hc, UInt32.toNat_ofNat']
    omega
  constructor
  · intro h s c hbest _
    obtain ⟨s', hs', hp, hg⟩ := h c.pid (by rw [scanPcblist_eq_sockets, hbest.foldl_eq]; rfl)
    exact ⟨s', hs', hp.trans (hpid s c hbest), hg⟩
  · intro h pid hscan
    rw [scanPcblist_eq_sockets] at hscan
    rcases firstBest_or_none (Socket.score flow) (sockets table) with ⟨s, c, hbest⟩ | hnone
    · rw [hbest.foldl_eq] at hscan
      cases hscan
      obtain ⟨before, after, hsplit, hs, -⟩ := id hbest
      rcases Socket.genuine_or_connectedElsewhere hs with hg | helse
      · exact ⟨s, by simp [hsplit], (hpid s c hbest).symm, hg⟩
      · obtain ⟨s', hs', hp, hg⟩ := h s c hbest helse
        exact ⟨s', hs', hp.trans (hpid s c hbest).symm, hg⟩
    · rw [foldl_better_none hnone] at hscan
      cases hscan

end Ownership

/-- A table with one socket, connected from 10.63.7.1:12345 to 8.8.8.8:443 and owned by PID 4242. -/
def connectedV4Table : Bytes :=
  [24, 0, 0, 0] ++ List.replicate 20 0 ++
    ([100, 0, 0, 0] ++ List.replicate 12 0 ++ [0x01, 0xbb, 0x30, 0x39] ++ List.replicate 24 0 ++ [1, 0, 0, 0] ++
      List.replicate 12 0 ++ [8, 8, 8, 8] ++ List.replicate 12 0 ++ [10, 63, 7, 1] ++ List.replicate 20 0) ++
    ([104, 0, 0, 0] ++ List.replicate 64 0 ++ [0x92, 0x10, 0, 0] ++ List.replicate 32 0)

/-- A flow from the socket's local endpoint to another peer. -/
def wrongRemoteFlow : FlowEnds :=
  ⟨⟨.v4 (.new 10 63 7 1), 12345⟩, ⟨.v4 (.new 1 1 1 1), 443⟩, false⟩

/-- **The flow is attributed to the socket of another peer.** -/
theorem wrong_remote_matches :
    scanPcblist connectedV4Table wrongRemoteFlow = some 4242 ∧
      sockets connectedV4Table = [⟨false, 12345, 443, .v4 (.new 10 63 7 1), .v4 (.new 8 8 8 8), 4242⟩] ∧
      ∀ s ∈ sockets connectedV4Table, s.Connected ∧ ¬ s.Genuine wrongRemoteFlow := by
  have hsockets : sockets connectedV4Table =
      [⟨false, 12345, 443, .v4 (.new 10 63 7 1), .v4 (.new 8 8 8 8), 4242⟩] := by decide +kernel
  refine ⟨by decide +kernel, hsockets, fun s hs => ?_⟩
  rw [hsockets, List.mem_singleton] at hs
  subst hs
  have hconn : Socket.Connected ⟨false, 12345, 443, .v4 (.new 10 63 7 1), .v4 (.new 8 8 8 8), 4242⟩ := by
    unfold Socket.Connected
    decide
  refine ⟨hconn, ?_⟩
  rintro ⟨-, ⟨-, -, hf, -⟩ | ⟨hno, -⟩⟩
  · exact absurd hf (by decide)
  · exact hno hconn

end AceTun.Macos
