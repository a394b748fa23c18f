import AceTun.Device.Unix
import AceTun.Device.Windows

/-!
# Writing packets

`poll_write` hands one packet to the system, whole or not at all. WinTun drops what its send ring cannot take and the
call still succeeds; on the other systems the call reports what went wrong. On macOS the packet goes out behind a header
with the family that its IP version calls for.

So what a device hands over is what a device of the same system reads back, packet by packet
(`written_packets_read_back`).
-/

namespace AceTun.TunDevice

open RustStd

/-- What `poll_write` comes to. -/
inductive PollWrite where
  | ready (n : Nat)
  | failed (e : Fault)
  | pending
  deriving DecidableEq, Repr

/-- What happens in one pass of the loop of `poll_write` on a descriptor. -/
inductive Attempt where
  /-- `poll_write_ready` is pending. -/
  | notReady
  /-- `poll_write_ready` fails. -/
  | unregistered (e : IoError)
  | wouldBlock
  | failed (e : IoError)
  /-- The kernel takes the whole datagram. -/
  | taken
  deriving DecidableEq, Repr

/-- The loop of `poll_write` on a descriptor, and what it has handed to the kernel. -/
def writeLoop (datagram : Bytes) : List Attempt → PollWrite × List Bytes
  | [] => (.pending, [])
  | .notReady :: _ => (.pending, [])
  | .unregistered e :: _ => (.failed (.os e), [])
  | .wouldBlock :: attempts => writeLoop datagram attempts
  | .failed e :: _ => (.failed (.os e), [])
  | .taken :: _ => (.ready datagram.length, [datagram])

def tooLong : Fault := .invalidInput "packet exceeds 65535 bytes".toList

namespace Windows

/-- `poll_write`; the send ring has room for the packet, or it has not. -/
def pollWrite (buf : Bytes) (allocated : Bool) : PollWrite × List Bytes :=
  if buf.length > 65535 then (.failed tooLong, [])
  else if buf.length = 0 then (.ready 0, [])
  else (.ready buf.length, if allocated then [buf] else [])

end Windows

namespace Linux

def pollWrite (buf : Bytes) (attempts : List Attempt) : PollWrite × List Bytes :=
  if buf.isEmpty then (.ready 0, [])
  else if buf.length > MAX_PACKET then (.failed tooLong, [])
  else writeLoop buf attempts

end Linux

namespace Macos

def AF_INET : UInt8 := 2
def AF_INET6 : UInt8 := 30

def tooShort : Fault := .invalidData "packet too short to carry an IP version".toList
def notIp : Fault := .invalidData "packet is neither IPv4 nor IPv6".toList

/-- The family of a packet that begins with this octet. -/
def family (octet : UInt8) : Option UInt8 :=
  match octet >>> 4 with
  | 4 => some AF_INET
  | 6 => some AF_INET6
  | _ => none

/-- `family.to_be_bytes()`. -/
def header (family : UInt8) : Bytes := [0, 0, 0, family]

def pollWrite (buf : Bytes) (attempts : List Attempt) : PollWrite × List Bytes :=
  if buf.isEmpty then (.ready 0, [])
  else if buf.length > MAX_PACKET then (.failed tooLong, [])
  else if buf.length < AF_HEADER_LEN then (.failed tooShort, [])
  else
    match buf.head?.bind family with
    | none => (.failed notIp, [])
    | some af =>
      match writeLoop (header af ++ buf) attempts with
      | (.ready written, sent) => (.ready (written - AF_HEADER_LEN), sent)
      | (result, sent) => (result, sent)

end Macos

/-! ## One call -/

/-- A call of `poll_write` and how the system answers it. -/
structure WriteCall where
  buf : Bytes
  allocated : Bool
  attempts : List Attempt

/-- `poll_write` of each system, and what it has handed over. -/
def pollWrite (os : Os) (c : WriteCall) : PollWrite × List Bytes :=
  match os with
  | .windows => Windows.pollWrite c.buf c.allocated
  | .linux => Linux.pollWrite c.buf c.attempts
  | .macos => Macos.pollWrite c.buf c.attempts

/-- How the datagrams of each system carry packets. -/
def framing : Os → Framing
  | .windows => Windows.framing
  | .linux => Linux.framing
  | .macos => Macos.framing

/-- The packets that the device of a system can carry. -/
def Carries (os : Os) (buf : Bytes) : Prop :=
  buf ≠ [] ∧ buf.length ≤ MAX_PACKET ∧
    (os = .macos → 4 ≤ buf.length ∧ buf.head?.any fun octet : UInt8 => octet >>> 4 == 4 || octet >>> 4 == 6)

instance (os : Os) (buf : Bytes) : Decidable (Carries os buf) := by
  unfold Carries
  infer_instance

/-- The system takes what it is given. -/
def WriteCall.Taken (os : Os) (c : WriteCall) : Prop :=
  match os with
  | .windows => c.allocated = true
  | .linux | .macos => (c.attempts.dropWhile (· == .wouldBlock)).head? = some .taken

instance (os : Os) (c : WriteCall) : Decidable (c.Taken os) := by
  unfold WriteCall.Taken
  split <;> infer_instance

/-- The datagram for a packet. -/
def frame (os : Os) (buf : Bytes) : Bytes :=
  match os with
  | .windows | .linux => buf
  | .macos => Macos.header ((buf.head?.bind Macos.family).getD 0) ++ buf

theorem framing_frame (os : Os) (buf : Bytes) : framing os (frame os buf) = .ok buf := by
  cases os with
  | windows => rfl
  | linux => rfl
  | macos => simp [framing, Macos.framing, frame, Macos.header, Macos.AF_HEADER_LEN]

/-- The loop hands the datagram over when the kernel takes it, and not otherwise; only then does it report a length. -/
theorem writeLoop_spec (datagram : Bytes) (attempts : List Attempt) :
    ((attempts.dropWhile (· == .wouldBlock)).head? = some .taken ∧
      writeLoop datagram attempts = (.ready datagram.length, [datagram])) ∨
    ((attempts.dropWhile (· == .wouldBlock)).head? ≠ some .taken ∧ (writeLoop datagram attempts).2 = [] ∧
      ∀ n, (writeLoop datagram attempts).1 ≠ .ready n) := by
  induction attempts with
  | nil => simp [writeLoop]
  | cons attempt attempts ih =>
    cases attempt with
    | wouldBlock => simpa [writeLoop] using ih
    | notReady => simp [writeLoop]
    | unregistered e => simp [writeLoop]
    | failed e => simp [writeLoop]
    | taken => simp [writeLoop]

/-- What a call hands over and reports: the datagram of the packet if the device can carry it and the system takes it,
and nothing otherwise. A length that is reported is the packet's, and except on Windows the packet is then handed over. -/
structure Accounted (os : Os) (c : WriteCall) (result : PollWrite) (sent : List Bytes) : Prop where
  sent_eq : sent = if Carries os c.buf ∧ c.Taken os then [frame os c.buf] else []
  length_eq : ∀ n, result = .ready n → n = c.buf.length
  taken : ∀ n, result = .ready n → os ≠ .windows → c.buf ≠ [] → Carries os c.buf ∧ c.Taken os

variable {os : Os} {c : WriteCall}

/-- A call that is turned down before the system sees it. -/
theorem accounted_of_not_carries {e : Fault} (h : ¬ Carries os c.buf) : Accounted os c (.failed e) [] where
  sent_eq := by simp [h]
  length_eq := fun _ hn => nomatch hn
  taken := fun _ hn => nomatch hn

theorem accounted_empty (h : c.buf = []) : Accounted os c (.ready 0) [] where
  sent_eq := by simp [Carries, h]
  length_eq := fun n hn => by cases hn; simp [h]
  taken := fun _ _ _ hne => absurd h hne

theorem accounted_taken {n : Nat} (hc : Carries os c.buf) (ht : c.Taken os) (hn : n = c.buf.length) :
    Accounted os c (.ready n) [frame os c.buf] where
  sent_eq := by simp [hc, ht]
  length_eq := fun m hm => by cases hm; exact hn
  taken := fun _ _ _ _ => ⟨hc, ht⟩

theorem accounted_refused {result : PollWrite} (ht : ¬ c.Taken os) (hr : ∀ n, result ≠ .ready n) :
    Accounted os c result [] where
  sent_eq := by simp [ht]
  length_eq := fun n hn => absurd hn (hr n)
  taken := fun n hn => absurd hn (hr n)

theorem Windows.pollWrite_accounted (c : WriteCall) :
    Accounted .windows c (pollWrite c.buf c.allocated).1 (pollWrite c.buf c.allocated).2 := by
  unfold pollWrite
  split
  · rename_i hl
    exact accounted_of_not_carries fun hc => absurd hc.2.1 (by simp only [MAX_PACKET]; omega)
  · split
    · rename_i hl
      exact accounted_empty (List.length_eq_zero_iff.mp hl)
    · rename_i hl hz
      have hc : Carries .windows c.buf :=
        ⟨fun h => hz (by simp [h]), by simp only [MAX_PACKET]; omega, fun h => nomatch h⟩
      refine ⟨?_, fun n hn => ?_, fun _ _ hw => absurd rfl hw⟩
      · simp only [hc, true_and, frame]
        rfl
      · cases hn
        rfl

theorem Linux.pollWrite_accounted (c : WriteCall) :
    Accounted .linux c (pollWrite c.buf c.attempts).1 (pollWrite c.buf c.attempts).2 := by
  unfold pollWrite
  split
  · rename_i he
    exact accounted_empty (List.isEmpty_iff.mp he)
  · split
    · rename_i hl
      exact accounted_of_not_carries fun hc => absurd hc.2.1 (by omega)
    · rename_i he hl
      have hc : Carries .linux c.buf := ⟨fun h => he (by simp [h]), by omega, fun h => nomatch h⟩
      rcases writeLoop_spec c.buf c.attempts with ⟨ht, hw⟩ | ⟨ht, hw, hr⟩
      · rw [hw]
        exact accounted_taken hc ht rfl
      · rw [hw]
        exact accounted_refused ht hr

/-- The packets with a family are those whose first octet has the version 4 or 6. -/
theorem Macos.family_isSome (octet : UInt8) :
    (Macos.family octet).isSome = (octet >>> 4 == 4 || octet >>> 4 == 6) := by
  unfold Macos.family
  split
  · rename_i h
    simp [h]
  · rename_i h
    simp [h]
  · rename_i h4 h6
    simp only [Option.isSome_none, Bool.false_eq, Bool.or_eq_false_iff, beq_eq_false_iff_ne]
    exact ⟨h4, h6⟩

theorem Macos.pollWrite_accounted (c : WriteCall) :
    Accounted .macos c (pollWrite c.buf c.attempts).1 (pollWrite c.buf c.attempts).2 := by
  unfold pollWrite
  split
  · rename_i he
    exact accounted_empty (List.isEmpty_iff.mp he)
  · split
    · rename_i hl
      exact accounted_of_not_carries fun hc => absurd hc.2.1 (by omega)
    · split
      · rename_i hs
        exact accounted_of_not_carries fun hc => absurd (hc.2.2 rfl).1 (by simpa [AF_HEADER_LEN] using hs)
      · rename_i he hl hs
        obtain ⟨octet, hhead⟩ : ∃ octet, c.buf.head? = some octet := by
          cases hb : c.buf with
          | nil => simp [hb] at he
          | cons octet rest => exact ⟨octet, rfl⟩
        have hany : (c.buf.head?.any fun octet : UInt8 => octet >>> 4 == 4 || octet >>> 4 == 6) = (family octet).isSome := by
          rw [hhead, Option.any_some, family_isSome]
        split
        · rename_i hf
          rw [hhead, Option.bind_some] at hf
          refine accounted_of_not_carries fun hc => ?_
          have := (hc.2.2 rfl).2
          rw [hany, hf] at this
          exact nomatch this
        · rename_i af hf
          have hc : Carries .macos c.buf := by
            refine ⟨fun h => he (by simp [h]), by omega, fun _ => ⟨by simpa [AF_HEADER_LEN] using hs, ?_⟩⟩
            rw [hhead, Option.bind_some] at hf
            rw [hany, hf, Option.isSome_some]
          have hframe : frame .macos c.buf = header af ++ c.buf := by simp only [frame, hf, Option.getD_some]
          rcases writeLoop_spec (header af ++ c.buf) c.attempts with ⟨ht, hw⟩ | ⟨ht, hw, hr⟩
          · rw [hw, ← hframe]
            exact accounted_taken hc ht (by simp [frame, header, AF_HEADER_LEN])
          · cases hres : writeLoop (header af ++ c.buf) c.attempts with
            | mk result sent =>
              rw [hres] at hw hr
              cases hw
              cases result with
              | ready n => exact absurd rfl (hr n)
              | failed e => exact accounted_refused ht fun _ h => nomatch h
              | pending => exact accounted_refused ht fun _ h => nomatch h

theorem pollWrite_accounted (os : Os) (c : WriteCall) : Accounted os c (pollWrite os c).1 (pollWrite os c).2 := by
  cases os with
  | windows => exact Windows.pollWrite_accounted c
  | linux => exact Linux.pollWrite_accounted c
  | macos => exact Macos.pollWrite_accounted c

/-! ## Any number of calls -/

/-- What a list of calls hands over. -/
def handedOver (os : Os) (calls : List WriteCall) : List Bytes := calls.flatMap fun c => (pollWrite os c).2

theorem handedOver_eq (os : Os) (calls : List WriteCall) :
    handedOver os calls = (calls.filter fun c => Carries os c.buf ∧ c.Taken os).map fun c => frame os c.buf := by
  induction calls with
  | nil => rfl
  | cons c calls ih =>
    have hc := (pollWrite_accounted os c).sent_eq
    rw [handedOver, List.flatMap_cons, ← handedOver, ih, hc, List.filter_cons]
    split
    · rename_i h
      simp [h]
    · rename_i h
      simp [h]

/-- **What is written is what is read back**: the packets that a device of a system hands over, in any number of calls,
are read back whole and in order by a device of that system; a packet is handed over exactly if the device can carry it
and the system takes it. A call that reports a length reports the packet's own, and only Windows reports one for a packet
that the system did not take. -/
theorem written_packets_read_back (os : Os) (calls : List WriteCall) (room : Nat) (hroom : MAX_PACKET ≤ room) :
    (handedOver os calls).map (readOf (framing os) · room) =
        (calls.filter fun c => Carries os c.buf ∧ c.Taken os).map (fun c => PollRead.ready c.buf) ∧
      ∀ c ∈ calls, ∀ n, (pollWrite os c).1 = .ready n →
        n = c.buf.length ∧ (os ≠ .windows → c.buf ≠ [] → Carries os c.buf ∧ c.Taken os) := by
  refine ⟨?_, fun c _ n hn => ?_⟩
  · rw [handedOver_eq, List.map_map]
    refine List.map_congr_left fun c hc => ?_
    have hcarries : Carries os c.buf := (of_decide_eq_true (List.mem_filter.mp hc).2).1
    simp only [Function.comp_apply, readOf, framing_frame]
    exact if_pos (hcarries.2.1.trans hroom)
  · have := pollWrite_accounted os c
    exact ⟨this.length_eq n hn, this.taken n hn⟩

theorem written_packets_read_back_sample :
    (handedOver .macos [⟨[0x45, 0, 0, 1], true, [.wouldBlock, .taken]⟩, ⟨[0x15, 0, 0, 0], true, [.taken]⟩,
        ⟨[0x60, 0, 0, 2, 9], true, [.taken]⟩] =
      [[0, 0, 0, 2, 0x45, 0, 0, 1], [0, 0, 0, 30, 0x60, 0, 0, 2, 9]]) ∧
    (handedOver .macos [⟨[0x45, 0, 0, 1], true, [.wouldBlock, .taken]⟩, ⟨[0x15, 0, 0, 0], true, [.taken]⟩,
        ⟨[0x60, 0, 0, 2, 9], true, [.taken]⟩]).map (readOf (framing .macos) · 65535) =
      [.ready [0x45, 0, 0, 1], .ready [0x60, 0, 0, 2, 9]] :=
  ⟨by decide, (written_packets_read_back .macos [⟨[0x45, 0, 0, 1], true, [.wouldBlock, .taken]⟩,
    ⟨[0x15, 0, 0, 0], true, [.taken]⟩, ⟨[0x60, 0, 0, 2, 9], true, [.taken]⟩] 65535 (Nat.le_refl _)).1.trans (by decide)⟩

end AceTun.TunDevice
