import AceTun.RustStd.Net
import AceTun.RustStd.Slice

/-!
# The DNS response parser

`parseName` follows a name through its labels and compression pointers; `parseDnsAnswers` reads the first question's
name, skips the other questions and collects the `A` and `AAAA` answers. Every index and slice is the panicking one, as
in the source. The loop of `parseName` ends because a label moves the position forward and at most ten pointers are
followed.
-/

namespace AceTun

open RustStd

/-- The offset that the two bytes of a compression pointer name. -/
def pointerTarget (hi lo : UInt8) : Nat := ((hi &&& 0x3F).toNat <<< 8) ||| lo.toNat

/-- Append a label, with a dot before it unless it is the first. -/
def pushLabel (out label : Str) : Str := (if out.isEmpty then out else out ++ ['.']) ++ label

/-- Following one more pointer leaves less to do than any position before it. -/
theorem jump_decreases {jumps len p q : Nat} (h : ¬ jumps + 1 > 10) :
    (10 - (jumps + 1)) * (len + 1) + (len - p) < (10 - jumps) * (len + 1) + (len - q) := by
  have : 10 - jumps = 10 - (jumps + 1) + 1 := by omega
  rw [this, Nat.succ_mul]
  omega

/-- The loop of `parse_name`: the name so far, how many pointers were followed, and where the first one ended. -/
def parseNameLoop (msg : Bytes) (pos : Nat) (out : Str) (jumps : Nat) (jumped : Bool) (jumpedEnd : Nat) :
    Except Panic (Option (Str × Nat)) :=
  match msg[pos]? with
  | none => .ok none
  | some b =>
    if b = 0 then .ok (some (out, if jumped then jumpedEnd else pos + 1))
    else if b &&& 0xC0 = 0xC0 then
      match msg[pos + 1]? with
      | none => .ok none
      | some b2 =>
        -- the pointer loop guard
        if jumps + 1 > 10 then .ok none
        else parseNameLoop msg (pointerTarget b b2) out (jumps + 1) true (if jumped then jumpedEnd else pos + 2)
    else if pos + 1 + b.toNat > msg.length then .ok none
    else
      match slice msg (pos + 1) (pos + 1 + b.toNat) with
      | .error e => .error e
      | .ok raw =>
        match fromUtf8 raw with
        | none => .ok none
        | some label => parseNameLoop msg (pos + 1 + b.toNat) (pushLabel out label) jumps jumped jumpedEnd
termination_by (10 - jumps) * (msg.length + 1) + (msg.length - pos)
decreasing_by
  · exact jump_decreases (by assumption)
  · omega

/-- `parse_name`: the name at `offset`, and the offset after the call, which only a success moves. -/
def parseName (msg : Bytes) (offset : Nat) : Except Panic (Option Str × Nat) := do
  match ← parseNameLoop msg offset [] 0 false 0 with
  | none => pure (none, offset)
  | some (name, next) => pure (some name, next)

/-- Skip `n` questions. -/
def skipQuestions (payload : Bytes) : (n offset : Nat) → Except Panic (Option Nat)
  | 0, offset => .ok (some offset)
  | n + 1, offset =>
    if offset ≥ payload.length then .ok none
    else do
      let (name, offset) ← parseName payload offset
      if name.isNone then pure none
      else if offset + 4 > payload.length then pure none
      else skipQuestions payload n (offset + 4)

/-- The address that a record carries: class `IN`, and `A` with 4 bytes or `AAAA` with 16. -/
def recordAddress (payload : Bytes) (offset rtype rclass rdlen : Nat) : Except Panic (Option IpAddr) :=
  if rclass = 1 then
    if rtype = 1 ∧ rdlen = 4 then do
      let a ← index payload offset
      let b ← index payload (offset + 1)
      let c ← index payload (offset + 2)
      let d ← index payload (offset + 3)
      pure (some (.v4 (.new a b c d)))
    else if rtype = 28 ∧ rdlen = 16 then do
      let b ← slice payload offset (offset + 16)
      if h : b.length = 16 then pure (some (.v6 ⟨⟨b.toArray, by simp [h]⟩⟩)) else throw .sliceLengthMismatch
    else pure none
  else pure none

/-- The loop over the answer records; `out` is what was found so far. -/
def readAnswers (payload : Bytes) (qname : Str) : (n offset : Nat) → List (IpAddr × Str) →
    Except Panic (List (IpAddr × Str))
  | 0, _, out => .ok out
  | n + 1, offset, out =>
    if offset ≥ payload.length then .ok out
    else do
      let (name, offset) ← parseName payload offset
      if name.isNone then pure out
      else if offset + 10 > payload.length then pure out
      else do
        let rtype ← beU16 payload offset
        let rclass ← beU16 payload (offset + 2)
        let rdlen ← beU16 payload (offset + 8)
        if offset + 10 + rdlen > payload.length then pure out
        else do
          let found ← recordAddress payload (offset + 10) rtype rclass rdlen
          readAnswers payload qname n (offset + 10 + rdlen) (out ++ found.toList.map (·, qname))

/-- The part of a response after its header: the questions, then the answers. -/
def parseSections (payload : Bytes) (qdcount ancount : Nat) : Except Panic (List (IpAddr × Str)) := do
  let (name, offset) ← parseName payload 12
  match name with
  | none => pure []
  | some qname =>
    if offset + 4 > payload.length then pure []
    else do
      match ← skipQuestions payload (qdcount - 1) (offset + 4) with
      | none => pure []
      | some offset => readAnswers payload qname ancount offset []

/-- `parse_dns_answers`: the address of every `A` and `AAAA` answer, with the first question's name. -/
def parseDnsAnswers (payload : Bytes) : Except Panic (List (IpAddr × Str)) :=
  if payload.length < 12 then .ok []
  else do
    let flags ← beU16 payload 2
    if flags &&& 0x8000 = 0 then pure []
    else if flags &&& 0x000F ≠ 0 then pure []
    else do
      let qdcount ← beU16 payload 4
      let ancount ← beU16 payload 6
      if ancount = 0 then pure [] else parseSections payload qdcount ancount

end AceTun
