import AceTun.Dns.Sound

/-!
# Truncated and hostile messages

What a message spells it still spells when bytes are appended (`NameAt.append`, `RecordAt.append`), so the answers of a
truncated message are the first answers of the whole one (`parseDnsAnswers_take`). Every byte string is parsed without a
panic, into at most as many pairs as it counts answers, and addresses and labels are bytes of the message
(`parseDnsAnswers_total`).
-/

namespace AceTun

open RustStd

/-! ## More bytes -/

section Append

variable {m : Bytes} {p e n : Nat} {labels : List Str}

theorem getElem?_of_append {b : UInt8} (h : m[p]? = some b) (more : Bytes) : (m ++ more)[p]? = some b := by
  rw [List.getElem?_append_left (List.getElem?_eq_some_iff.mp h).1, h]

theorem drop_take_append (h : p + n ≤ m.length) (more : Bytes) :
    ((m ++ more).drop p).take n = (m.drop p).take n := by
  rw [List.drop_append_of_le_length (by omega), List.take_append_of_le_length (by rw [List.length_drop]; omega)]

theorem index_append {b : UInt8} (h : index m p = .ok b) (more : Bytes) : index (m ++ more) p = .ok b := by
  unfold index at h
  split at h
  · next hb =>
    cases h
    exact index_ok (getElem?_of_append hb more)
  · cases h

theorem beU16_append {v : Nat} (h : beU16 m p = .ok v) (more : Bytes) : beU16 (m ++ more) p = .ok v := by
  obtain ⟨hi, hhi, h⟩ := except_bind_eq_ok.mp h
  obtain ⟨lo, hlo, h⟩ := except_bind_eq_ok.mp h
  rw [beU16, index_append hhi more, index_append hlo more]
  exact h

theorem NameAt.append {k : Nat} (h : NameAt m p labels k e) (more : Bytes) : NameAt (m ++ more) p labels k e := by
  induction h with
  | root hb => exact .root (getElem?_of_append hb more)
  | label hb h0 hp hle hl _ ih =>
    refine .label (getElem?_of_append hb more) h0 hp ?_ ?_ ih
    · rw [List.length_append]
      omega
    · rw [drop_take_append hle]
      exact hl
  | pointer hb hp hlo _ ih => exact .pointer (getElem?_of_append hb more) hp (getElem?_of_append hlo more) ih

theorem Named.append (h : Named m p labels e) (more : Bytes) : Named (m ++ more) p labels e := by
  obtain ⟨k, hk, h⟩ := h
  exact ⟨k, hk, h.append more⟩

theorem QuestionsAt.append (h : QuestionsAt m p n e) (more : Bytes) : QuestionsAt (m ++ more) p n e := by
  induction h with
  | nil => exact .nil
  | cons hn hle _ ih => exact .cons (hn.append more) (by rw [List.length_append]; omega) ih

theorem RecordAt.append {rtype rclass : Nat} {rdata : Bytes} (h : RecordAt m p rtype rclass rdata e) (more : Bytes) :
    RecordAt (m ++ more) p rtype rclass rdata e := by
  cases h with
  | mk hn ht hc hl hle =>
    rw [← drop_take_append hle more]
    exact .mk (hn.append more) (beU16_append ht more) (beU16_append hc more) (beU16_append hl more)
      (by rw [List.length_append]; omega)

end Append

/-! ## The answers only grow -/

section Answers

variable {m : Bytes}

/-- Of the counted records, each adds at most one pair to those found before it. -/
theorem readAnswers_extends (m : Bytes) (qname : Str) (n p : Nat) (out : List (IpAddr × Str)) :
    ∃ new, readAnswers m qname n p out = .ok (out ++ new) ∧ new.length ≤ n := by
  induction n generalizing p out with
  | zero => exact ⟨[], by rw [List.append_nil]; rfl, Nat.le_refl 0⟩
  | succ n ih =>
    by_cases hr : ∃ rtype rclass rdata e, RecordAt m p rtype rclass rdata e
    · obtain ⟨rtype, rclass, rdata, e, hr⟩ := hr
      obtain ⟨found, -, hstep⟩ := readAnswers_record hr qname n out
      obtain ⟨new, hnew, hlen⟩ := ih e (out ++ found.toList.map (·, qname))
      refine ⟨found.toList.map (·, qname) ++ new, by rw [hstep, hnew, List.append_assoc], ?_⟩
      have hone : found.toList.length ≤ 1 := by cases found <;> simp
      rw [List.length_append, List.length_map]
      omega
    · refine ⟨[], ?_, Nat.zero_le _⟩
      rw [List.append_nil]
      exact readAnswers_stop (fun _ _ _ _ h => hr ⟨_, _, _, _, h⟩) qname n out

/-- The first result is a beginning of the second, and neither panics. -/
def Grows (short long : Except Panic (List (IpAddr × Str))) : Prop :=
  ∃ found more, short = .ok found ∧ long = .ok (found ++ more)

theorem readAnswers_append (more : Bytes) (qname : Str) (n p : Nat) (out : List (IpAddr × Str)) :
    Grows (readAnswers m qname n p out) (readAnswers (m ++ more) qname n p out) := by
  induction n generalizing p out with
  | zero => exact ⟨out, [], rfl, by rw [List.append_nil]; rfl⟩
  | succ n ih =>
    by_cases hr : ∃ rtype rclass rdata e, RecordAt m p rtype rclass rdata e
    · -- the record is also one of the longer message, with the same address
      obtain ⟨rtype, rclass, rdata, e, hr⟩ := hr
      obtain ⟨found, hfound, hstep⟩ := readAnswers_record hr qname n out
      obtain ⟨found', hfound', hstep'⟩ := readAnswers_record (hr.append more) qname n out
      have hsame : found' = found := Option.ext fun ip => (hfound' ip).trans (hfound ip).symm
      rw [hstep, hstep', hsame]
      exact ih e _
    · obtain ⟨new, hnew, -⟩ := readAnswers_extends (m ++ more) qname (n + 1) p out
      exact ⟨out, new, readAnswers_stop (fun _ _ _ _ h => hr ⟨_, _, _, _, h⟩) qname n out, hnew⟩

theorem grows_nil {long : Except Panic (List (IpAddr × Str))} (h : ∃ pairs, long = .ok pairs) :
    Grows (.ok []) long := by
  obtain ⟨pairs, h⟩ := h
  exact ⟨[], pairs, rfl, h⟩

theorem parseSections_isOk (m : Bytes) (qdcount ancount : Nat) :
    ∃ pairs, parseSections m qdcount ancount = .ok pairs := by
  obtain ⟨pairs, h, -⟩ := parseSections_returns m qdcount ancount
  exact ⟨pairs, h⟩

theorem parseSections_append (m more : Bytes) (qdcount ancount : Nat) :
    Grows (parseSections m qdcount ancount) (parseSections (m ++ more) qdcount ancount) := by
  by_cases hq : ∃ o, QuestionsAt m 12 (max 1 qdcount) o
  · obtain ⟨o, hq⟩ := hq
    obtain ⟨labels, e, hn⟩ := named_of_questionsAt hq
    rw [parseSections_of_questionsAt hn hq, parseSections_of_questionsAt (hn.append more) (hq.append more)]
    exact readAnswers_append more (dotted labels) ancount o []
  · rw [parseSections_stop fun o h => hq ⟨o, h⟩]
    exact grows_nil (parseSections_isOk (m ++ more) qdcount ancount)

theorem parseDnsAnswers_isOk (m : Bytes) : ∃ pairs, parseDnsAnswers m = .ok pairs := by
  obtain ⟨pairs, h, -⟩ := parseDnsAnswers_returns m
  exact ⟨pairs, h⟩

theorem parseDnsAnswers_append (m more : Bytes) : Grows (parseDnsAnswers m) (parseDnsAnswers (m ++ more)) := by
  by_cases hlen : m.length < 12
  · rw [parseDnsAnswers, if_pos hlen]
    exact grows_nil (parseDnsAnswers_isOk (m ++ more))
  obtain ⟨flags, hf⟩ := @beU16_isOk m 2 (by omega)
  obtain ⟨qdcount, hqd⟩ := @beU16_isOk m 4 (by omega)
  obtain ⟨ancount, han⟩ := @beU16_isOk m 6 (by omega)
  rw [parseDnsAnswers_of_header (by omega) hf hqd han,
    parseDnsAnswers_of_header (by rw [List.length_append]; omega) (beU16_append hf more) (beU16_append hqd more)
      (beU16_append han more)]
  split
  · exact parseSections_append m more qdcount ancount
  · exact grows_nil ⟨[], rfl⟩

end Answers

/-- **Truncation only drops answers**: the answers of the first `n` bytes are the first answers of the message. -/
theorem parseDnsAnswers_take (m : Bytes) (n : Nat) :
    ∃ short long, parseDnsAnswers (m.take n) = .ok short ∧ parseDnsAnswers m = .ok long ∧ short <+: long := by
  obtain ⟨short, more, hshort, hlong⟩ := parseDnsAnswers_append (m.take n) (m.drop n)
  rw [List.take_append_drop] at hlong
  exact ⟨short, short ++ more, hshort, hlong, List.prefix_append short more⟩

/-! ## Every payload -/

section Hostile

variable {m : Bytes} {p e : Nat} {labels : List Str}

theorem drop_take_infix (m : Bytes) (p n : Nat) : (m.drop p).take n <:+: m :=
  (List.take_prefix n (m.drop p)).isInfix.trans (List.drop_suffix p m).isInfix

/-- The labels of a name are bytes of the message. -/
theorem NameAt.labels_infix {k : Nat} (h : NameAt m p labels k e) : ∀ l ∈ labels, asBytes l <:+: m := by
  induction h with
  | root => exact fun l hl => absurd hl List.not_mem_nil
  | pointer _ _ _ _ ih => exact ih
  | label _ _ _ _ hl _ ih =>
    intro l hmem
    rcases List.mem_cons.mp hmem with rfl | hmem
    · rw [asBytes_of_fromUtf8 hl]
      exact drop_take_infix m _ _
    · exact ih l hmem

/-- The name is dotted from labels that are bytes of the message. -/
def BuiltFrom (m : Bytes) (name : Str) : Prop := ∃ labels, name = dotted labels ∧ ∀ l ∈ labels, asBytes l <:+: m

theorem Named.builtFrom (h : Named m p labels e) : BuiltFrom m (dotted labels) := by
  obtain ⟨k, -, h⟩ := h
  exact ⟨labels, rfl, h.labels_infix⟩

theorem RecordAt.rdata_infix {rtype rclass : Nat} {rdata : Bytes} (h : RecordAt m p rtype rclass rdata e) :
    rdata <:+: m := by
  cases h with
  | mk => exact drop_take_infix m _ _

theorem AddressAt.octets_infix {ip : IpAddr} (h : AddressAt m p ip) : ip.octets <:+: m := by
  cases ip with
  | v4 ip =>
    obtain ⟨next, h⟩ := h
    exact h.rdata_infix
  | v6 ip =>
    obtain ⟨next, h⟩ := h
    exact h.rdata_infix

theorem parseSections_length {pairs : List (IpAddr × Str)} {qdcount ancount : Nat}
    (h : parseSections m qdcount ancount = .ok pairs) : pairs.length ≤ ancount := by
  by_cases hq : ∃ o, QuestionsAt m 12 (max 1 qdcount) o
  · obtain ⟨o, hq⟩ := hq
    obtain ⟨labels, e, hn⟩ := named_of_questionsAt hq
    obtain ⟨new, hnew, hlen⟩ := readAnswers_extends m (dotted labels) ancount o []
    rw [parseSections_of_questionsAt hn hq, hnew] at h
    cases h
    exact hlen
  · rw [parseSections_stop fun o h => hq ⟨o, h⟩] at h
    cases h
    exact Nat.zero_le _

/-- No more pairs than the header counts answers, and none without a header. -/
theorem parseDnsAnswers_length {pairs : List (IpAddr × Str)} (h : parseDnsAnswers m = .ok pairs) :
    pairs = [] ∨ ∃ ancount, beU16 m 6 = .ok ancount ∧ pairs.length ≤ ancount := by
  by_cases hlen : m.length < 12
  · rw [parseDnsAnswers, if_pos hlen] at h
    cases h
    exact .inl rfl
  obtain ⟨flags, hf⟩ := @beU16_isOk m 2 (by omega)
  obtain ⟨qdcount, hqd⟩ := @beU16_isOk m 4 (by omega)
  obtain ⟨ancount, han⟩ := @beU16_isOk m 6 (by omega)
  rw [parseDnsAnswers_of_header (by omega) hf hqd han] at h
  split at h
  · exact .inr ⟨ancount, han, parseSections_length h⟩
  · cases h
    exact .inl rfl

/-- **Every byte string is parsed**: no index and no slice is out of bounds, at whatever offset a name is read; names are
dotted from bytes of the message; there are at most as many pairs as the header counts answers, and each address is 4 or
16 bytes of the message. -/
theorem parseDnsAnswers_total (m : Bytes) :
    (∀ p, ∃ name next, parseName m p = .ok (name, next) ∧ ∀ n ∈ name, BuiltFrom m n) ∧
      ∃ pairs, parseDnsAnswers m = .ok pairs ∧
        (pairs = [] ∨ ∃ ancount, beU16 m 6 = .ok ancount ∧ pairs.length ≤ ancount) ∧
        ∀ ip name, (ip, name) ∈ pairs →
          (ip.octets.length = 4 ∨ ip.octets.length = 16) ∧ ip.octets <:+: m ∧ BuiltFrom m name := by
  refine ⟨fun p => ?_, ?_⟩
  · rcases parseName_cases m p with ⟨labels, e, hn, he⟩ | ⟨⟨e, he⟩, -⟩
    · refine ⟨_, _, he, fun n hname => ?_⟩
      cases hname
      exact hn.builtFrom
    · exact ⟨_, _, he, fun n hname => absurd hname (Option.not_mem_none n)⟩
  · obtain ⟨pairs, hp, hmem⟩ := parseDnsAnswers_returns m
    refine ⟨pairs, hp, parseDnsAnswers_length hp, fun ip name hin => ?_⟩
    obtain ⟨-, _, _, -, -, ⟨labels, e, hn, rfl⟩, o, -, i, -, q, -, ha⟩ := (hmem ip name).mp hin
    exact ⟨ip.length_octets, ha.octets_infix, hn.builtFrom⟩

end Hostile

end AceTun
