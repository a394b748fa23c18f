import AceTun.Dns.Wire

/-!
# What a parsed answer stands for

`QuestionsAt` and `RecordsAt` say what the bytes of a message spell: so many question entries from one offset to another,
and so many records. Parsing never panics, and the pairs it returns are exactly the address records among the counted
records after the questions, with the first question's name, where the parser takes at least one question to be there
(`parseDnsAnswers_returns`). So every pair is genuine, except in a message that counts no question and spells one
nevertheless (`parseDnsAnswers_genuine_iff`).
-/

namespace AceTun

open RustStd

/-! ## The sections of a message -/

section Sections

variable (m : Bytes)

/-- A name of at most ten pointers. -/
def Named (p : Nat) (labels : List Str) (next : Nat) : Prop := ∃ k ≤ 10, NameAt m p labels k next

/-- `n` question entries: a name, a type and a class each. -/
inductive QuestionsAt : (p n next : Nat) → Prop
  | nil {p : Nat} : QuestionsAt p 0 p
  | cons {p e n next : Nat} {labels : List Str} : Named m p labels e → e + 4 ≤ m.length → QuestionsAt (e + 4) n next →
      QuestionsAt p (n + 1) next

/-- A record: a name, ten bytes of fields, and data. -/
inductive RecordAt (p : Nat) : (rtype rclass : Nat) → (rdata : Bytes) → (next : Nat) → Prop
  | mk {e rtype rclass rdlen : Nat} {labels : List Str} : Named m p labels e → beU16 m e = .ok rtype →
      beU16 m (e + 2) = .ok rclass → beU16 m (e + 8) = .ok rdlen → e + 10 + rdlen ≤ m.length →
      RecordAt p rtype rclass ((m.drop (e + 10)).take rdlen) (e + 10 + rdlen)

/-- `n` records. -/
inductive RecordsAt : (p n next : Nat) → Prop
  | nil {p : Nat} : RecordsAt p 0 p
  | cons {p e n next rtype rclass : Nat} {rdata : Bytes} : RecordAt m p rtype rclass rdata e → RecordsAt e n next →
      RecordsAt p (n + 1) next

/-- A record of class `IN` and type `A` or `AAAA` whose data is the address. -/
def AddressAt (p : Nat) : IpAddr → Prop
  | .v4 ip => ∃ next, RecordAt m p 1 1 ip.octets.toList next
  | .v6 ip => ∃ next, RecordAt m p 28 1 ip.octets.toList next

/-- The address is the data of a record among the first `n`. -/
def AnswerAt (p n : Nat) (ip : IpAddr) : Prop := ∃ i < n, ∃ q, RecordsAt m p i q ∧ AddressAt m q ip

end Sections

/-! ## Names and questions -/

section Parsing

variable {m : Bytes} {p e n : Nat}

theorem Named.lt_length {labels : List Str} (h : Named m p labels e) : p < m.length := by
  obtain ⟨k, -, h⟩ := h
  have hb : ∃ b, m[p]? = some b := by
    cases h with
    | root hb => exact ⟨_, hb⟩
    | label hb => exact ⟨_, hb⟩
    | pointer hb => exact ⟨_, hb⟩
  obtain ⟨b, hb⟩ := hb
  exact (List.getElem?_eq_some_iff.mp hb).1

theorem parseName_eq_some {name : Str} :
    parseName m p = .ok (some name, e) ↔ ∃ labels, Named m p labels e ∧ name = dotted labels := by
  constructor
  · intro h
    obtain ⟨labels, k, hn, hk, rfl⟩ := nameAt_of_parseName h
    exact ⟨labels, ⟨k, hk, hn⟩, rfl⟩
  · rintro ⟨labels, ⟨k, hk, hn⟩, rfl⟩
    exact parseName_of_nameAt hn hk

/-- A name is read, or there is none to read. -/
theorem parseName_cases (m : Bytes) (p : Nat) :
    (∃ labels e, Named m p labels e ∧ parseName m p = .ok (some (dotted labels), e)) ∨
      (∃ e, parseName m p = .ok (none, e)) ∧ ∀ labels e, ¬ Named m p labels e := by
  obtain ⟨⟨name, e⟩, h⟩ := parseName_isOk m p
  cases name with
  | some name =>
    obtain ⟨labels, hn, rfl⟩ := parseName_eq_some.mp h
    exact .inl ⟨labels, e, hn, h⟩
  | none =>
    refine .inr ⟨⟨e, h⟩, fun labels e' hn => ?_⟩
    have h' := parseName_eq_some.mpr ⟨labels, hn, rfl⟩
    rw [h] at h'
    cases h'

theorem Named.functional {labels labels' : List Str} {e' : Nat} (h : Named m p labels e) (h' : Named m p labels' e') :
    labels' = labels ∧ e' = e := by
  obtain ⟨k, -, h⟩ := h
  obtain ⟨k', -, h'⟩ := h'
  obtain ⟨rfl, -, rfl⟩ := h.functional h'
  exact ⟨rfl, rfl⟩

theorem QuestionsAt.functional {e' : Nat} (h : QuestionsAt m p n e) (h' : QuestionsAt m p n e') : e' = e := by
  induction h with
  | nil =>
    cases h'
    rfl
  | cons hn _ _ ih =>
    cases h' with
    | cons hn' _ hq' =>
      obtain ⟨-, rfl⟩ := hn.functional hn'
      exact ih hq'

/-- Skipping questions finds where they end, if they are all there. -/
theorem skipQuestions_eq (m : Bytes) (n p : Nat) :
    (∃ e, skipQuestions m n p = .ok (some e) ∧ QuestionsAt m p n e) ∨
      skipQuestions m n p = .ok none ∧ ∀ e, ¬ QuestionsAt m p n e := by
  induction n generalizing p with
  | zero => exact .inl ⟨p, rfl, .nil⟩
  | succ n ih =>
    rw [skipQuestions]
    rcases parseName_cases m p with ⟨labels, e, hn, he⟩ | ⟨⟨e, he⟩, hno⟩
    · have hlt := hn.lt_length
      rw [if_neg (by omega), he]
      simp only [bind, Except.bind, Option.isNone_some, Bool.false_eq_true, ↓reduceIte]
      split
      · next hshort =>
        refine .inr ⟨rfl, fun e' hq => ?_⟩
        cases hq with
        | cons hn' hle =>
          obtain ⟨-, rfl⟩ := hn.functional hn'
          omega
      · next hle =>
        rcases ih (e + 4) with ⟨e', hs, hq⟩ | ⟨hs, hno⟩
        · exact .inl ⟨e', hs, .cons hn (by omega) hq⟩
        · refine .inr ⟨hs, fun e' hq => ?_⟩
          cases hq with
          | cons hn' hle hq =>
            obtain ⟨-, rfl⟩ := hn.functional hn'
            exact hno e' hq
    · have hnone : ∀ e', ¬ QuestionsAt m p (n + 1) e' := by
        intro e' hq
        cases hq with
        | cons hn' => exact hno _ _ hn'
      refine .inr ⟨?_, hnone⟩
      split
      · rfl
      · rw [he]
        rfl

/-! ## Records -/

/-- The data of a record of this type and class is the address. -/
def IsAddress (rtype rclass : Nat) (rdata : Bytes) : IpAddr → Prop
  | .v4 ip => rtype = 1 ∧ rclass = 1 ∧ rdata = ip.octets.toList
  | .v6 ip => rtype = 28 ∧ rclass = 1 ∧ rdata = ip.octets.toList

theorem RecordAt.functional {rtype rclass rtype' rclass' e' : Nat} {rdata rdata' : Bytes}
    (h : RecordAt m p rtype rclass rdata e) (h' : RecordAt m p rtype' rclass' rdata' e') :
    rtype' = rtype ∧ rclass' = rclass ∧ rdata' = rdata ∧ e' = e := by
  cases h with
  | mk hn ht hc hl hle =>
    cases h' with
    | mk hn' ht' hc' hl' hle' =>
      obtain ⟨-, rfl⟩ := hn.functional hn'
      rw [ht] at ht'
      rw [hc] at hc'
      rw [hl] at hl'
      cases ht'
      cases hc'
      cases hl'
      exact ⟨rfl, rfl, rfl, rfl⟩

/-- A position has the fields of the record that stands there, and no others. -/
theorem RecordAt.exists_iff {rtype rclass rtype' rclass' : Nat} {rdata rdata' : Bytes}
    (h : RecordAt m p rtype rclass rdata e) :
    (∃ next, RecordAt m p rtype' rclass' rdata' next) ↔ rtype = rtype' ∧ rclass = rclass' ∧ rdata = rdata' := by
  constructor
  · rintro ⟨next, h'⟩
    obtain ⟨ht, hc, hd, -⟩ := h.functional h'
    exact ⟨ht.symm, hc.symm, hd.symm⟩
  · rintro ⟨rfl, rfl, rfl⟩
    exact ⟨e, h⟩

theorem addressAt_iff {rtype rclass : Nat} {rdata : Bytes} (h : RecordAt m p rtype rclass rdata e) {ip : IpAddr} :
    AddressAt m p ip ↔ IsAddress rtype rclass rdata ip := by
  cases ip with
  | v4 ip => exact h.exists_iff
  | v6 ip => exact h.exists_iff

theorem IsAddress.length {rtype rclass : Nat} {rdata : Bytes} {ip : IpAddr} (h : IsAddress rtype rclass rdata ip) :
    rclass = 1 ∧ (rtype = 1 ∧ rdata.length = 4 ∨ rtype = 28 ∧ rdata.length = 16) := by
  cases ip with
  | v4 ip =>
    obtain ⟨rfl, rfl, rfl⟩ := h
    exact ⟨rfl, .inl ⟨rfl, by simp⟩⟩
  | v6 ip =>
    obtain ⟨rfl, rfl, rfl⟩ := h
    exact ⟨rfl, .inr ⟨rfl, by simp⟩⟩

/-- The address of a record is found exactly where there is one. -/
theorem recordAddress_eq (rtype rclass : Nat) {o rdlen : Nat} (hle : o + rdlen ≤ m.length) :
    ∃ found, recordAddress m o rtype rclass rdlen = .ok found ∧
      ∀ ip, found = some ip ↔ IsAddress rtype rclass ((m.drop o).take rdlen) ip := by
  have hs : Spells m o ((m.drop o).take rdlen) := List.take_prefix _ _
  have hlen : ((m.drop o).take rdlen).length = rdlen := by
    rw [List.length_take, List.length_drop]
    omega
  by_cases ha : rclass = 1 ∧ rtype = 1 ∧ rdlen = 4
  · obtain ⟨rfl, rfl, rfl⟩ := ha
    obtain ⟨a, b, c, d, hd⟩ := List.length_eq_four.mp hlen
    rw [hd] at hs ⊢
    refine ⟨_, recordAddress_a hs, fun ip => ?_⟩
    cases ip with
    | v4 ip =>
      have ho : [a, b, c, d] = (Ipv4Addr.new a b c d).octets.toList := rfl
      simp only [IsAddress, true_and, ho, Ipv4Addr.octets_toList_inj, Option.some.injEq, IpAddr.v4.injEq]
    | v6 ip => simp [IsAddress]
  · by_cases haaaa : rclass = 1 ∧ rtype = 28 ∧ rdlen = 16
    · obtain ⟨rfl, rfl, rfl⟩ := haaaa
      refine ⟨_, recordAddress_aaaa hlen hs, fun ip => ?_⟩
      cases ip with
      | v4 ip => simp [IsAddress]
      | v6 ip =>
        simp only [IsAddress, true_and, Option.some.injEq, IpAddr.v6.injEq]
        rw [← Ipv6Addr.octets_toList_inj]
        simp
    · refine ⟨none, ?_, fun ip => iff_of_false (by simp) fun h => ?_⟩
      · unfold recordAddress
        split
        · next hc =>
          rw [if_neg fun h => ha ⟨hc, h⟩, if_neg fun h => haaaa ⟨hc, h⟩]
          rfl
        · rfl
      · have := h.length
        rw [hlen] at this
        omega

theorem answerAt_succ {rtype rclass : Nat} {rdata : Bytes} (h : RecordAt m p rtype rclass rdata e) {ip : IpAddr} :
    AnswerAt m p (n + 1) ip ↔ IsAddress rtype rclass rdata ip ∨ AnswerAt m e n ip := by
  rw [← addressAt_iff h]
  constructor
  · rintro ⟨i, hi, q, hr, ha⟩
    cases hr with
    | nil => exact .inl ha
    | cons h' hr =>
      obtain ⟨-, -, -, rfl⟩ := h.functional h'
      exact .inr ⟨_, by omega, q, hr, ha⟩
  · rintro (ha | ⟨i, hi, q, hr, ha⟩)
    · exact ⟨0, by omega, p, .nil, ha⟩
    · exact ⟨i + 1, by omega, q, .cons h hr, ha⟩

theorem not_answerAt (h : ∀ rtype rclass rdata e, ¬ RecordAt m p rtype rclass rdata e) {ip : IpAddr} :
    ¬ AnswerAt m p n ip := by
  rintro ⟨i, -, q, hr, ha⟩
  cases hr with
  | cons h' => exact h _ _ _ _ h'
  | nil =>
    cases ip with
    | v4 ip => exact h _ _ _ _ ha.choose_spec
    | v6 ip => exact h _ _ _ _ ha.choose_spec

/-- Where there is a record the loop goes on after it, with its address if it has one. -/
theorem readAnswers_record {rtype rclass : Nat} {rdata : Bytes} (h : RecordAt m p rtype rclass rdata e) (qname : Str)
    (n : Nat) (out : List (IpAddr × Str)) :
    ∃ found, (∀ ip, found = some ip ↔ IsAddress rtype rclass rdata ip) ∧
      readAnswers m qname (n + 1) p out = readAnswers m qname n e (out ++ found.toList.map (·, qname)) := by
  cases h with
  | @mk e rtype rclass rdlen labels hn ht hc hl hle =>
    have hlt := hn.lt_length
    have hname := parseName_eq_some.mpr ⟨labels, hn, rfl⟩
    obtain ⟨found, hfound, hiff⟩ := recordAddress_eq rtype rclass hle
    refine ⟨found, hiff, ?_⟩
    rw [readAnswers, if_neg (by omega), hname]
    simp only [bind, Except.bind, Option.isNone_some, Bool.false_eq_true, ↓reduceIte]
    rw [if_neg (by omega)]
    simp only [ht, hc, hl]
    rw [if_neg (by omega), hfound]

/-- Where there is none it ends with what it has. -/
theorem readAnswers_stop (h : ∀ rtype rclass rdata e, ¬ RecordAt m p rtype rclass rdata e) (qname : Str) (n : Nat)
    (out : List (IpAddr × Str)) : readAnswers m qname (n + 1) p out = .ok out := by
  rw [readAnswers]
  split
  · rfl
  rcases parseName_cases m p with ⟨labels, e, hn, he⟩ | ⟨⟨e, he⟩, -⟩
  · rw [he]
    simp only [bind, Except.bind, Option.isNone_some, Bool.false_eq_true, ↓reduceIte]
    split
    · rfl
    · next hle =>
      obtain ⟨rtype, ht⟩ := @beU16_isOk m e (by omega)
      obtain ⟨rclass, hc⟩ := @beU16_isOk m (e + 2) (by omega)
      obtain ⟨rdlen, hl⟩ := @beU16_isOk m (e + 8) (by omega)
      simp only [ht, hc, hl]
      split
      · rfl
      · next hle => exact absurd (.mk hn ht hc hl (by omega)) (h rtype rclass _ _)
  · rw [he]
    rfl

/-- The result has exactly these pairs. -/
def Returns (result : Except Panic (List (IpAddr × Str))) (pair : IpAddr → Str → Prop) : Prop :=
  ∃ pairs, result = .ok pairs ∧ ∀ ip name, (ip, name) ∈ pairs ↔ pair ip name

theorem Returns.congr {result : Except Panic (List (IpAddr × Str))} {pair pair' : IpAddr → Str → Prop}
    (h : Returns result pair) (hp : ∀ ip name, pair ip name ↔ pair' ip name) : Returns result pair' := by
  obtain ⟨pairs, hr, hmem⟩ := h
  exact ⟨pairs, hr, fun ip name => (hmem ip name).trans (hp ip name)⟩

theorem returns_nil {pair : IpAddr → Str → Prop} (h : ∀ ip name, ¬ pair ip name) : Returns (.ok []) pair :=
  ⟨[], rfl, fun ip name => iff_of_false List.not_mem_nil (h ip name)⟩

/-- What the loop over the records adds: the addresses of the records that are there. -/
theorem readAnswers_returns (m : Bytes) (qname : Str) (n p : Nat) (out : List (IpAddr × Str)) :
    Returns (readAnswers m qname n p out) fun ip name => (ip, name) ∈ out ∨ name = qname ∧ AnswerAt m p n ip := by
  induction n generalizing p out with
  | zero =>
    refine ⟨out, rfl, fun ip name => ?_⟩
    have hno : ¬ AnswerAt m p 0 ip := fun ⟨_, hi, _⟩ => by omega
    simp [hno]
  | succ n ih =>
    by_cases hr : ∃ rtype rclass rdata e, RecordAt m p rtype rclass rdata e
    · obtain ⟨rtype, rclass, rdata, e, hr⟩ := hr
      obtain ⟨found, hfound, hstep⟩ := readAnswers_record hr qname n out
      rw [hstep]
      refine (ih e (out ++ found.toList.map (·, qname))).congr fun ip name => ?_
      have hadded : (ip, name) ∈ found.toList.map (·, qname) ↔ name = qname ∧ found = some ip := by
        cases found with
        | none => simp
        | some ip' => simp [and_comm, eq_comm]
      rw [answerAt_succ hr, ← hfound, List.mem_append, hadded, and_or_left, or_assoc]
    · have hno : ∀ rtype rclass rdata e, ¬ RecordAt m p rtype rclass rdata e :=
        fun _ _ _ _ h => hr ⟨_, _, _, _, h⟩
      refine ⟨out, readAnswers_stop hno qname n out, fun ip name => ?_⟩
      simp [not_answerAt hno]

/-! ## Messages -/

/-- The header of a response without an error. -/
def IsResponse (m : Bytes) : Prop := ∃ flags, beU16 m 2 = .ok flags ∧ flags &&& 0x8000 ≠ 0 ∧ flags &&& 0x000F = 0

/-- What the parser reads: `qdcount` questions but at least one, and `ancount` records, of which one has the address. -/
def Reads (m : Bytes) (qdcount ancount : Nat) (ip : IpAddr) : Prop :=
  ∃ o, QuestionsAt m 12 (max 1 qdcount) o ∧ AnswerAt m o ancount ip

theorem questionsAt_one_add {qdcount : Nat} {labels : List Str} (hn : Named m 12 labels e) {o : Nat} :
    QuestionsAt m 12 (max 1 qdcount) o ↔ e + 4 ≤ m.length ∧ QuestionsAt m (e + 4) (qdcount - 1) o := by
  have hmax : max 1 qdcount = qdcount - 1 + 1 := by omega
  rw [hmax]
  constructor
  · intro h
    cases h with
    | cons hn' hle hq =>
      obtain ⟨-, rfl⟩ := hn.functional hn'
      exact ⟨hle, hq⟩
  · rintro ⟨hle, hq⟩
    exact .cons hn hle hq

theorem named_of_questionsAt {qdcount o : Nat} (h : QuestionsAt m 12 (max 1 qdcount) o) :
    ∃ labels e, Named m 12 labels e := by
  have hmax : max 1 qdcount = qdcount - 1 + 1 := by omega
  rw [hmax] at h
  cases h with
  | cons hn => exact ⟨_, _, hn⟩

/-- Where the questions are, the records after them are read. -/
theorem parseSections_of_questionsAt {qdcount o : Nat} {labels : List Str} (hn : Named m 12 labels e)
    (hq : QuestionsAt m 12 (max 1 qdcount) o) (ancount : Nat) :
    parseSections m qdcount ancount = readAnswers m (dotted labels) ancount o [] := by
  obtain ⟨hle, hq⟩ := (questionsAt_one_add hn).mp hq
  rw [parseSections, parseName_eq_some.mpr ⟨labels, hn, rfl⟩]
  simp only [bind, Except.bind]
  rw [if_neg (by omega)]
  rcases skipQuestions_eq m (qdcount - 1) (e + 4) with ⟨o', hs, hq'⟩ | ⟨-, hno⟩
  · rw [hs, hq.functional hq']
  · exact absurd hq (hno o)

/-- Where they are not, nothing is. -/
theorem parseSections_stop {qdcount : Nat} (h : ∀ o, ¬ QuestionsAt m 12 (max 1 qdcount) o) (ancount : Nat) :
    parseSections m qdcount ancount = .ok [] := by
  unfold parseSections
  rcases parseName_cases m 12 with ⟨labels, e, hn, he⟩ | ⟨⟨e, he⟩, -⟩
  · rw [he]
    simp only [bind, Except.bind]
    split
    · rfl
    · next hle =>
      rcases skipQuestions_eq m (qdcount - 1) (e + 4) with ⟨o, -, hq⟩ | ⟨hs, -⟩
      · exact absurd ((questionsAt_one_add hn).mpr ⟨by omega, hq⟩) (h o)
      · rw [hs]
        rfl
  · rw [he]
    rfl

theorem parseSections_returns (m : Bytes) (qdcount ancount : Nat) :
    Returns (parseSections m qdcount ancount) fun ip name =>
      (∃ labels e, Named m 12 labels e ∧ name = dotted labels) ∧ Reads m qdcount ancount ip := by
  by_cases hq : ∃ o, QuestionsAt m 12 (max 1 qdcount) o
  · obtain ⟨o, hq⟩ := hq
    obtain ⟨labels, e, hn⟩ := named_of_questionsAt hq
    rw [parseSections_of_questionsAt hn hq]
    refine (readAnswers_returns m (dotted labels) ancount o []).congr fun ip name => ?_
    constructor
    · rintro (h | ⟨rfl, ha⟩)
      · cases h
      · exact ⟨⟨labels, e, hn, rfl⟩, o, hq, ha⟩
    · rintro ⟨⟨labels', e', hn', rfl⟩, o', hq', ha⟩
      obtain rfl := hq.functional hq'
      rw [(hn.functional hn').1]
      exact .inr ⟨rfl, ha⟩
  · rw [parseSections_stop fun o h => hq ⟨o, h⟩]
    refine returns_nil fun ip name => ?_
    rintro ⟨-, o, h, -⟩
    exact hq ⟨o, h⟩

/-- The sections are read only of a response without an error that counts records. -/
theorem parseDnsAnswers_of_header {flags qdcount ancount : Nat} (hlen : 12 ≤ m.length) (hf : beU16 m 2 = .ok flags)
    (hqd : beU16 m 4 = .ok qdcount) (han : beU16 m 6 = .ok ancount) :
    parseDnsAnswers m =
      if (flags &&& 0x8000 ≠ 0 ∧ flags &&& 0x000F = 0) ∧ ancount ≠ 0 then parseSections m qdcount ancount else .ok [] := by
  rw [parseDnsAnswers, if_neg (by omega), hf, hqd, han]
  simp only [bind, Except.bind]
  split
  · next hq => rw [if_neg fun h => h.1.1 hq]; rfl
  · next hq =>
    split
    · next hcode => rw [if_neg fun h => hcode h.1.2]; rfl
    · next hcode =>
      split
      · next h0 => rw [if_neg fun h => h.2 h0]; rfl
      · next h0 => rw [if_pos ⟨⟨hq, Decidable.not_not.mp hcode⟩, h0⟩]

/-- The pair is an address of the message, under the name of its first question: there is a question, and the address is
the data of a record among the counted ones that follow the counted questions. -/
def Genuine (m : Bytes) (ip : IpAddr) (name : Str) : Prop :=
  ∃ qdcount ancount, beU16 m 4 = .ok qdcount ∧ beU16 m 6 = .ok ancount ∧ 1 ≤ qdcount ∧
    (∃ labels e, Named m 12 labels e ∧ name = dotted labels) ∧ ∃ o, QuestionsAt m 12 qdcount o ∧ AnswerAt m o ancount ip

/-- A response that counts no question, and spells one nevertheless, with an address among the records after it. -/
def UncountedQuestion (m : Bytes) : Prop :=
  IsResponse m ∧ beU16 m 4 = .ok 0 ∧ ∃ ancount, beU16 m 6 = .ok ancount ∧
    ∃ o, QuestionsAt m 12 1 o ∧ ∃ ip, AnswerAt m o ancount ip

/-- **What the parser returns**, for every byte string. -/
theorem parseDnsAnswers_returns (m : Bytes) :
    Returns (parseDnsAnswers m) fun ip name =>
      IsResponse m ∧ ∃ qdcount ancount, beU16 m 4 = .ok qdcount ∧ beU16 m 6 = .ok ancount ∧
        (∃ labels e, Named m 12 labels e ∧ name = dotted labels) ∧ Reads m qdcount ancount ip := by
  by_cases hlen : m.length < 12
  · rw [parseDnsAnswers, if_pos hlen]
    refine returns_nil fun ip name => ?_
    rintro ⟨-, _, _, -, -, ⟨labels, e, hn, -⟩, -⟩
    have := hn.lt_length
    omega
  obtain ⟨flags, hflags⟩ := @beU16_isOk m 2 (by omega)
  obtain ⟨qdcount, hqd⟩ := @beU16_isOk m 4 (by omega)
  obtain ⟨ancount, han⟩ := @beU16_isOk m 6 (by omega)
  rw [parseDnsAnswers_of_header (by omega) hflags hqd han]
  split
  · next hread =>
    refine (parseSections_returns m qdcount ancount).congr fun ip name => ?_
    constructor
    · exact fun h => ⟨⟨flags, hflags, hread.1⟩, qdcount, ancount, hqd, han, h⟩
    · rintro ⟨-, _, _, hqd', han', h⟩
      cases hqd.symm.trans hqd'
      cases han.symm.trans han'
      exact h
  · next hno =>
    refine returns_nil fun ip name => ?_
    rintro ⟨⟨_, hflags', hr⟩, _, _, -, han', -, o, -, i, hi, -⟩
    cases hflags.symm.trans hflags'
    cases han.symm.trans han'
    exact hno ⟨hr, by omega⟩

/-- **Every pair is genuine exactly when no uncounted question was read.** -/
theorem parseDnsAnswers_genuine_iff (m : Bytes) :
    ∃ pairs, parseDnsAnswers m = .ok pairs ∧
      ((∀ ip name, (ip, name) ∈ pairs → Genuine m ip name) ↔ ¬ UncountedQuestion m) := by
  obtain ⟨pairs, hp, hmem⟩ := parseDnsAnswers_returns m
  refine ⟨pairs, hp, ?_⟩
  constructor
  · rintro h ⟨hr, h0, ancount, han, o, hq, ip, ha⟩
    -- the entry is read as the first question, so the address is returned with its name
    obtain ⟨labels, e, hn⟩ : ∃ labels e, Named m 12 labels e := by
      cases hq with
      | cons hn => exact ⟨_, _, hn⟩
    have hin := (hmem ip (dotted labels)).mpr ⟨hr, 0, ancount, h0, han, ⟨labels, e, hn, rfl⟩, o, hq, ha⟩
    obtain ⟨qdcount, -, hqd, -, hpos, -⟩ := h ip (dotted labels) hin
    rw [h0] at hqd
    cases hqd
    omega
  · intro hno ip name hin
    obtain ⟨hr, qdcount, ancount, hqd, han, hname, o, hq, ha⟩ := (hmem ip name).mp hin
    have hpos : 1 ≤ qdcount := by
      by_contra hz
      obtain rfl : qdcount = 0 := by omega
      exact hno ⟨hr, hqd, ancount, han, o, hq, ip, ha⟩
    rw [Nat.max_eq_right hpos] at hq
    exact ⟨qdcount, ancount, hqd, han, hpos, hname, o, hq, ha⟩

/-- A response that counts no question and one record. -/
def uncountedResponse : Bytes :=
  [0x12, 0x34, 0x81, 0x80, 0, 0, 0, 1, 0, 0, 0, 0] ++ [1, 97, 0] ++ [0, 1, 0, 1] ++
    [0, 0, 1, 0, 1, 0, 0, 0, 60, 0, 4, 192, 0, 2, 1]

/-- **A mapping is made up**: the message has no question, and a pair is returned for it. -/
theorem uncounted_question_is_read :
    beU16 uncountedResponse 4 = .ok 0 ∧
      parseDnsAnswers uncountedResponse = .ok [(.v4 (.new 192 0 2 1), "a".toList)] ∧
      ¬ Genuine uncountedResponse (.v4 (.new 192 0 2 1)) "a".toList := by
  have h0 : beU16 uncountedResponse 4 = .ok 0 := by decide
  refine ⟨h0, by decide +kernel, ?_⟩
  rintro ⟨qdcount, ancount, hqd, -, hpos, -⟩
  rw [h0] at hqd
  cases hqd
  omega

end Parsing

end AceTun
