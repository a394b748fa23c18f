import AceTun.RustStd.Slice
import AceTun.Platform.Linux.Process

/-!
# Waiting for a netlink reply

`waitForAck`, `bestRouteIndex` and `queryOneReply` read datagrams until a message with their sequence number settles
the request. They read into one buffer, at whose end `recv` appends, and parse it from its beginning (`replyLoop`). So
the first message is parsed again with every datagram (`replyLoop_later`): a reply is found only in the first one
(`replyLoops_iff`).
-/

namespace AceTun.Linux

open RustStd

/-! ## Messages -/

/-- `NetlinkHeader`. -/
structure NetlinkHeader where
  length : Nat
  messageType : Nat
  flags : Nat
  sequenceNumber : UInt32
  portNumber : Nat
  deriving DecidableEq, Repr

/-- `NetlinkPayload`; the code of an error is missing in an acknowledgement. -/
inductive NetlinkPayload (I : Type) where
  | done
  | error (code : Option Int)
  | noop
  | overrun
  | innerMessage (message : I)
  deriving DecidableEq, Repr

structure NetlinkMessage (I : Type) where
  header : NetlinkHeader
  payload : NetlinkPayload I
  deriving DecidableEq, Repr

/-- Why a buffer is no message; the payload has errors of its own. -/
inductive DecodeError (E : Type) where
  | noHeader
  | truncated
  | badLength
  | payload (e : E)
  deriving DecidableEq, Repr

def NETLINK_HEADER_LEN : Nat := 16

/-- The fields of a header are little-endian. -/
def parseHeader (buffer : Bytes) : NetlinkHeader where
  length := beNat (buffer.take 4).reverse
  messageType := beNat ((buffer.drop 4).take 2).reverse
  flags := beNat ((buffer.drop 6).take 2).reverse
  sequenceNumber := UInt32.ofNat (beNat ((buffer.drop 8).take 4).reverse)
  portNumber := beNat ((buffer.drop 12).take 4).reverse

section Deserialize

variable {E I : Type} (decode : NetlinkHeader → Bytes → Except E (NetlinkPayload I))

/-- `NetlinkMessage::deserialize`: the message is as long as its header says, and what follows it is not looked at.
`decode` is the decoding of the payload. -/
def deserialize (buffer : Bytes) : Except (DecodeError E) (NetlinkMessage I) :=
  let header := parseHeader buffer
  if buffer.length < NETLINK_HEADER_LEN then .error .noHeader
  else if buffer.length < header.length then .error .truncated
  else if header.length < NETLINK_HEADER_LEN then .error .badLength
  else
    match decode header ((buffer.take header.length).drop NETLINK_HEADER_LEN) with
    | .error e => .error (.payload e)
    | .ok payload => .ok ⟨header, payload⟩

/-- A datagram of one message. -/
structure Datagram where
  bytes : Bytes
  message : NetlinkMessage I
  deserialize_bytes : deserialize decode bytes = .ok message

variable {decode}

theorem parseHeader_take {n : Nat} (h : NETLINK_HEADER_LEN ≤ n) (buffer : Bytes) :
    parseHeader (buffer.take n) = parseHeader buffer := by
  unfold NETLINK_HEADER_LEN at h
  have h0 : min 4 n = 4 := by omega
  have h4 : min 2 (n - 4) = 2 := by omega
  have h6 : min 2 (n - 6) = 2 := by omega
  have h8 : min 4 (n - 8) = 4 := by omega
  have h12 : min 4 (n - 12) = 4 := by omega
  simp only [parseHeader, List.drop_take, List.take_take, h0, h4, h6, h8, h12]

theorem deserialize_eq_ok {buffer : Bytes} {m : NetlinkMessage I} :
    deserialize decode buffer = .ok m ↔
      m.header = parseHeader buffer ∧ NETLINK_HEADER_LEN ≤ m.header.length ∧ m.header.length ≤ buffer.length ∧
        decode m.header ((buffer.take m.header.length).drop NETLINK_HEADER_LEN) = .ok m.payload := by
  obtain ⟨header, payload⟩ := m
  unfold deserialize
  dsimp only
  constructor
  · intro h
    split at h
    · cases h
    · split at h
      · cases h
      · split at h
        · cases h
        · split at h
          · cases h
          · next hdecode =>
            cases h
            exact ⟨rfl, by omega, by omega, hdecode⟩
  · rintro ⟨rfl, hmin, hle, hdecode⟩
    rw [if_neg (by omega), if_neg (by omega), if_neg (by omega), hdecode]

/-- What follows the message does not matter. -/
theorem deserialize_of_prefix {bytes buffer : Bytes} {m : NetlinkMessage I} (h : deserialize decode bytes = .ok m)
    (hp : bytes.take m.header.length <+: buffer) : deserialize decode buffer = .ok m := by
  obtain ⟨hheader, hmin, hle, hdecode⟩ := deserialize_eq_ok.mp h
  have hlen : (bytes.take m.header.length).length = m.header.length := List.length_take_of_le hle
  have htake : buffer.take m.header.length = bytes.take m.header.length := by
    have heq := List.prefix_iff_eq_take.mp hp
    rw [hlen] at heq
    exact heq.symm
  have hfits := hp.length_le
  rw [hlen] at hfits
  refine deserialize_eq_ok.mpr ⟨?_, hmin, hfits, by rw [htake]; exact hdecode⟩
  rw [hheader, ← parseHeader_take hmin bytes, ← htake, parseHeader_take hmin]

/-- A message that is cut after its header is not read. -/
theorem deserialize_take {bytes : Bytes} {m : NetlinkMessage I} (h : deserialize decode bytes = .ok m) {n : Nat}
    (hmin : NETLINK_HEADER_LEN ≤ n) (hn : n < m.header.length) :
    deserialize decode (bytes.take n) = .error .truncated := by
  obtain ⟨hheader, -, hle, -⟩ := deserialize_eq_ok.mp h
  have hlen : (bytes.take n).length = n := List.length_take_of_le (by omega)
  unfold deserialize
  dsimp only
  rw [hlen, parseHeader_take hmin, ← hheader, if_neg (by omega), if_pos hn]

theorem Datagram.header_le_length (d : Datagram decode) : NETLINK_HEADER_LEN ≤ d.bytes.length := by
  obtain ⟨-, hmin, hle, -⟩ := deserialize_eq_ok.mp d.deserialize_bytes
  exact Nat.le_trans hmin hle

end Deserialize

/-! ## The loop -/

section Loop

variable {E I R : Type} (decode : NetlinkHeader → Bytes → Except E (NetlinkPayload I)) (sequence : UInt32)
  (settle : NetlinkPayload I → Option R) (recvFailed : R) (decodeFailed : DecodeError E → R)

/-- The loop that waits for a reply: `datagrams` are what the kernel delivers before `recv` fails. The buffer is parsed
from its beginning, as far as the last datagram is long. -/
def replyLoop : (receive : Bytes) → (datagrams : List Bytes) → R
  | _, [] => recvFailed
  | receive, datagram :: datagrams =>
    -- `recv` appends
    let receive := receive ++ datagram
    let received := datagram.length
    match deserialize decode (receive.take received) with
    | .error e => decodeFailed e
    | .ok message =>
      if message.header.sequenceNumber ≠ sequence then replyLoop receive datagrams
      else
        match settle message.payload with
        | some result => result
        | none => replyLoop receive datagrams

/-- What a message settles, if it has the sequence number. -/
def settles (message : NetlinkMessage I) : Option R :=
  if message.header.sequenceNumber = sequence then settle message.payload else none

/-- What the first message that settles the request settles it to. -/
def firstSettled (datagrams : List (Datagram decode)) : Option R :=
  datagrams.findSome? fun d => settles sequence settle d.message

variable {decode sequence settle recvFailed decodeFailed}

theorem replyLoop_step {receive datagram : Bytes} {datagrams : List Bytes} {message : NetlinkMessage I}
    (h : deserialize decode ((receive ++ datagram).take datagram.length) = .ok message) :
    replyLoop decode sequence settle recvFailed decodeFailed receive (datagram :: datagrams) =
      (settles sequence settle message).getD
        (replyLoop decode sequence settle recvFailed decodeFailed (receive ++ datagram) datagrams) := by
  rw [replyLoop]
  simp only [h, settles]
  by_cases hseq : message.header.sequenceNumber = sequence
  · rw [if_neg (not_not_intro hseq), if_pos hseq]
    cases settle message.payload with
    | none => rfl
    | some r => rfl
  · rw [if_pos hseq, if_neg hseq]
    rfl

/-- After a message that settles nothing, the loop sees only this message, until a datagram is too short for it. -/
theorem replyLoop_later {d : Datagram decode} (hd : settles sequence settle d.message = none) {receive : Bytes}
    (hr : d.bytes <+: receive) (ds : List (Datagram decode)) :
    replyLoop decode sequence settle recvFailed decodeFailed receive (ds.map Datagram.bytes) =
      if ∃ d' ∈ ds, d'.bytes.length < d.message.header.length then decodeFailed .truncated else recvFailed := by
  obtain ⟨-, -, hle, -⟩ := deserialize_eq_ok.mp d.deserialize_bytes
  induction ds generalizing receive with
  | nil => simp [replyLoop]
  | cons d' ds ih =>
    rw [List.map_cons]
    have hr' : d.bytes <+: receive ++ d'.bytes := hr.trans (List.prefix_append _ _)
    by_cases hshort : d'.bytes.length < d.message.header.length
    · have htake : (receive ++ d'.bytes).take d'.bytes.length = d.bytes.take d'.bytes.length := by
        obtain ⟨rest, hrest⟩ := hr'
        rw [← hrest, List.take_append_of_le_length (by omega)]
      have hcut := deserialize_take d.deserialize_bytes d'.header_le_length hshort
      rw [if_pos ⟨d', List.mem_cons_self, hshort⟩, replyLoop]
      simp only [htake, hcut]
    · have hread : deserialize decode ((receive ++ d'.bytes).take d'.bytes.length) = .ok d.message := by
        refine deserialize_of_prefix d.deserialize_bytes (List.prefix_take_iff.mpr ⟨?_, ?_⟩)
        · exact (List.take_prefix _ _).trans hr'
        · rw [List.length_take]
          omega
      rw [replyLoop_step hread, hd, Option.getD_none, ih hr']
      simp [hshort]

/-- The loop settles a request by the first message or not at all. -/
theorem replyLoop_cons (d : Datagram decode) (ds : List (Datagram decode)) :
    replyLoop decode sequence settle recvFailed decodeFailed [] ((d :: ds).map Datagram.bytes) =
      (settles sequence settle d.message).getD
        (if ∃ d' ∈ ds, d'.bytes.length < d.message.header.length then decodeFailed .truncated else recvFailed) := by
  have hread : deserialize decode (([] ++ d.bytes).take d.bytes.length) = .ok d.message := by
    rw [List.nil_append, List.take_length]
    exact d.deserialize_bytes
  rw [List.map_cons, replyLoop_step hread]
  rcases hd : settles sequence settle d.message with _ | r
  · rw [Option.getD_none, Option.getD_none, List.nil_append, replyLoop_later hd List.prefix_rfl]
  · rfl

/-- The first datagram settles the request. -/
def SettledFirst (sequence : UInt32) (settle : NetlinkPayload I → Option R) (ds : List (Datagram decode)) : Prop :=
  ∃ d ∈ ds.head?, (settles sequence settle d.message).isSome

/-- A later datagram is shorter than the first message. -/
def ShorterLater (ds : List (Datagram decode)) : Prop :=
  ∃ d ∈ ds.head?, ∃ d' ∈ ds.tail, d'.bytes.length < d.message.header.length

/-- The loop comes to what the first settling message says exactly when this is the first datagram, or when failing
happens to come to the same. -/
theorem replyLoop_eq_iff {ds : List (Datagram decode)} {r : R} (h : r ∈ firstSettled decode sequence settle ds) :
    replyLoop decode sequence settle recvFailed decodeFailed [] (ds.map Datagram.bytes) = r ↔
      SettledFirst sequence settle ds ∨ ShorterLater ds ∧ r = decodeFailed .truncated ∨
        ¬ ShorterLater ds ∧ r = recvFailed := by
  cases ds with
  | nil => cases h
  | cons d ds =>
    have hshorter : ShorterLater (d :: ds) ↔ ∃ d' ∈ ds, d'.bytes.length < d.message.header.length := by
      simp [ShorterLater]
    have hfirst : SettledFirst sequence settle (d :: ds) ↔ (settles sequence settle d.message).isSome := by
      simp [SettledFirst]
    rw [replyLoop_cons, hfirst, hshorter]
    rcases hd : settles sequence settle d.message with _ | r'
    · rw [Option.getD_none]
      split
      · next hs => simp [hs, eq_comm]
      · next hs => simp [hs, eq_comm]
    · have hr : some r' = some r := by
        rw [← hd, ← h, firstSettled, List.findSome?_cons, hd]
      cases hr
      simp

end Loop

/-! ## The three loops -/

/-- An attribute of a route; only the interface it leads to is looked at. -/
inductive RouteAttribute where
  | oif (ifindex : UInt32)
  | other
  deriving DecidableEq, Repr

def RouteAttribute.oif? : RouteAttribute → Option UInt32
  | oif ifindex => some ifindex
  | other => none

/-- The messages of rtnetlink, as far as they are told apart. -/
inductive RouteNetlinkMessage where
  | newRoute (attributes : List RouteAttribute)
  | getRoute (attributes : List RouteAttribute)
  | other
  deriving DecidableEq, Repr

/-- The messages of `sock_diag`, as far as they are told apart: of a response, its inode. -/
inductive SockDiagMessage where
  | inetResponse (inode : UInt32)
  | other
  deriving DecidableEq, Repr

/-- The `io::Error` of `wait_for_ack`: what the system reports, or `InvalidData` where a message is none. -/
inductive AckError (E : Type) where
  | os (code : Int)
  | invalidData (e : DecodeError E)
  deriving DecidableEq, Repr

/-- An acknowledgement is an error without a code. -/
def settleAck (E : Type) : NetlinkPayload RouteNetlinkMessage → Option (Except (AckError E) Unit)
  | .error none => some (.ok ())
  | .error (some code) => some (.error (.os (-code)))
  | .done => some (.ok ())
  | _ => none

/-- The kernel answers a lookup with a new route; one without an interface settles nothing. -/
def settleRoute : NetlinkPayload RouteNetlinkMessage → Option (Option UInt32)
  | .innerMessage (.newRoute attributes) => (attributes.findSome? RouteAttribute.oif?).map some
  | .innerMessage (.getRoute attributes) => (attributes.findSome? RouteAttribute.oif?).map some
  | .done => some none
  | .error _ => some none
  | _ => none

def settleInode : NetlinkPayload SockDiagMessage → Option (Option UInt64)
  | .innerMessage (.inetResponse inode) => some (inodeOf inode)
  | .error _ => some none
  | _ => none

section Loops

variable {E : Type}

/-- `wait_for_ack`; `recvErrno` is the error of the `recv` that gets no datagram. -/
def waitForAck (decode : NetlinkHeader → Bytes → Except E (NetlinkPayload RouteNetlinkMessage)) (recvErrno : Int)
    (sequence : UInt32) (datagrams : List Bytes) : Except (AckError E) Unit :=
  replyLoop decode sequence (settleAck E) (.error (.os recvErrno)) (fun e => .error (.invalidData e)) [] datagrams

/-- `best_route_index` from its first `recv` on; its request is the first one of a new socket. -/
def bestRouteIndex (decode : NetlinkHeader → Bytes → Except E (NetlinkPayload RouteNetlinkMessage))
    (datagrams : List Bytes) : Option UInt32 :=
  replyLoop decode 0 settleRoute none (fun _ => none) [] datagrams

/-- `query_one` from its first `recv` on. -/
def queryOneReply (decode : NetlinkHeader → Bytes → Except E (NetlinkPayload SockDiagMessage))
    (datagrams : List Bytes) : Option UInt64 :=
  replyLoop decode 1 settleInode none (fun _ => none) [] datagrams

theorem settleAck_ne_invalidData {payload : NetlinkPayload RouteNetlinkMessage} {e : DecodeError E} :
    settleAck E payload ≠ some (.error (.invalidData e)) := by
  intro h
  unfold settleAck at h
  split at h <;> cases h

theorem firstSettled_ne_invalidData {decode : NetlinkHeader → Bytes → Except E (NetlinkPayload RouteNetlinkMessage)}
    {sequence : UInt32} {ds : List (Datagram decode)} {r : Except (AckError E) Unit} {e : DecodeError E}
    (h : r ∈ firstSettled decode sequence (settleAck E) ds) : r ≠ .error (.invalidData e) := by
  rintro rfl
  obtain ⟨d, -, hd⟩ := List.exists_of_findSome?_eq_some h
  unfold settles at hd
  split at hd
  · exact settleAck_ne_invalidData hd
  · cases hd

/-- **When a reply is found**: exactly when it is the first datagram, or when failing happens to come to the same. That
is, for an acknowledgement, an error that is also the one of the last `recv`, with no datagram shorter than the first
message; for the two lookups, an answer that there is nothing. -/
theorem replyLoops_iff {E' : Type} (decode : NetlinkHeader → Bytes → Except E (NetlinkPayload RouteNetlinkMessage))
    (decode' : NetlinkHeader → Bytes → Except E' (NetlinkPayload SockDiagMessage)) :
    (∀ (recvErrno : Int) (sequence : UInt32) (ds : List (Datagram decode)),
      (∀ r ∈ firstSettled decode sequence (settleAck E) ds,
          waitForAck decode recvErrno sequence (ds.map Datagram.bytes) = r) ↔
        ∀ r ∈ firstSettled decode sequence (settleAck E) ds,
          SettledFirst sequence (settleAck E) ds ∨ ¬ ShorterLater ds ∧ r = .error (.os recvErrno)) ∧
    (∀ ds : List (Datagram decode),
      (∀ r ∈ firstSettled decode 0 settleRoute ds, bestRouteIndex decode (ds.map Datagram.bytes) = r) ↔
        ∀ r ∈ firstSettled decode 0 settleRoute ds, SettledFirst 0 settleRoute ds ∨ r = none) ∧
    ∀ ds : List (Datagram decode'),
      (∀ r ∈ firstSettled decode' 1 settleInode ds, queryOneReply decode' (ds.map Datagram.bytes) = r) ↔
        ∀ r ∈ firstSettled decode' 1 settleInode ds, SettledFirst 1 settleInode ds ∨ r = none := by
  refine ⟨fun recvErrno sequence ds => ?_, fun ds => ?_, fun ds => ?_⟩
  · refine forall₂_congr fun r hr => ?_
    rw [waitForAck, replyLoop_eq_iff hr]
    simp [firstSettled_ne_invalidData hr]
  · refine forall₂_congr fun r hr => ?_
    rw [bestRouteIndex, replyLoop_eq_iff hr, ← or_and_right]
    simp [em]
  · refine forall₂_congr fun r hr => ?_
    rw [queryOneReply, replyLoop_eq_iff hr, ← or_and_right]
    simp [em]

/-- The inode that the kernel answers with, as far as `query_one` sees it: only in the first datagram. -/
def answeredInode {decode : NetlinkHeader → Bytes → Except E (NetlinkPayload SockDiagMessage)}
    (ds : List (Datagram decode)) : Option UInt32 := do
  let d ← ds.head?
  if d.message.header.sequenceNumber ≠ 1 then none
  else
    match d.message.payload with
    | .innerMessage (.inetResponse inode) => some inode
    | _ => none

/-- `queryOne` of these answers is the loop. -/
theorem queryOne_answeredInode {decode : NetlinkHeader → Bytes → Except E (NetlinkPayload SockDiagMessage)}
    (replies : UInt8 → UInt8 → SocketId → List (Datagram decode)) (family protocol : UInt8) (socketId : SocketId) :
    queryOne (fun family protocol socketId => answeredInode (replies family protocol socketId)) family protocol socketId =
      queryOneReply decode ((replies family protocol socketId).map Datagram.bytes) := by
  rw [queryOne, queryOneReply]
  generalize replies family protocol socketId = ds
  cases ds with
  | nil => rfl
  | cons d ds =>
    rw [replyLoop_cons, ite_self, answeredInode, settles]
    simp only [List.head?_cons, Option.bind_eq_bind, Option.bind_some]
    by_cases hseq : d.message.header.sequenceNumber = 1
    · rw [if_neg (not_not_intro hseq), if_pos hseq]
      rcases d.message.payload with _ | _ | _ | _ | (_ | _) <;> rfl
    · rw [if_pos hseq, if_neg hseq]
      rfl

end Loops

/-! ## A late acknowledgement -/

/-- The payloads of control messages: the code of an error is a signed number, and zero is an acknowledgement. -/
def decodeControl (header : NetlinkHeader) (payload : Bytes) : Except Unit (NetlinkPayload RouteNetlinkMessage) :=
  if header.messageType = 2 then
    if payload.length < 4 then .error ()
    else
      let code := beNat (payload.take 4).reverse
      .ok (.error (if code = 0 then none else some (if code < 2 ^ 31 then code else (code : Int) - 2 ^ 32)))
  else if header.messageType = 3 then .ok .done
  else .ok (.innerMessage .other)

/-- The acknowledgement of a request with sequence number 0. -/
def ackZero : Datagram decodeControl where
  bytes := [36, 0, 0, 0, 2, 0, 0, 1, 0, 0, 0, 0, 0, 0, 0, 0] ++ List.replicate 20 0
  message := ⟨⟨36, 2, 256, 0, 0⟩, .error none⟩
  deserialize_bytes := by decide

/-- That of the next request. -/
def ackOne : Datagram decodeControl where
  bytes := [36, 0, 0, 0, 2, 0, 0, 1, 1, 0, 0, 0, 0, 0, 0, 0] ++ List.replicate 20 0
  message := ⟨⟨36, 2, 256, 1, 0⟩, .error none⟩
  deserialize_bytes := by decide

/-- **An acknowledgement that is delivered is not seen**: it follows a late one of the request before, and the call fails
with the timeout of `recv`. -/
theorem ack_after_late_ack :
    firstSettled decodeControl 1 (settleAck Unit) [ackZero, ackOne] = some (.ok ()) ∧
      waitForAck decodeControl 11 1 ([ackZero, ackOne].map Datagram.bytes) = .error (.os 11) ∧
      waitForAck decodeControl 11 1 ([ackOne].map Datagram.bytes) = .ok () := by
  decide

end AceTun.Linux
