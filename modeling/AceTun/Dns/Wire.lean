import AceTun.Dns.Name

/-!
# Decoding undoes encoding

Messages as values (`Message`), and the wire form of a message (`Message.encode`): a name is written in full, or up to
some label and then as a pointer to an offset where the message spells the rest (`Name.Placed`), which may be any
earlier name, also one inside some `RDATA`. On the wire form of a response, `parseDnsAnswers` returns the addresses
of its answers with the first question's name (`parseDnsAnswers_encode`).

Each part of the parser is run over the bytes that its part of the message stands for: a name (`Name.nameAt`), the
questions (`skipQuestions_encode`), the records (`readAnswers_encode`).
-/

namespace AceTun

open RustStd

/-! ## Messages -/

/-- A label: 1 to 63 bytes of text without a dot. -/
structure Label where
  text : Str
  size_pos : 1 ≤ (asBytes text).length
  size_le : (asBytes text).length ≤ 63
  noDot : '.' ∉ text

/-- How a name is written: in full, or its first `own` labels and then a pointer to `target`. -/
inductive Written where
  | full
  | pointer (own target : Nat)

structure Name where
  labels : List Label
  written : Written

/-- The text of the labels. -/
def Name.texts (n : Name) : List Str := n.labels.map Label.text

structure Question where
  name : Name
  qtype : UInt16
  qclass : UInt16

/-- A resource record; its data has a length of 16 bits. -/
structure Record where
  name : Name
  rtype : UInt16
  rclass : UInt16
  ttl : UInt16 × UInt16
  rdata : Bytes
  size : rdata.length < 65536

/-- A response without an error, with at least one question; the counts are 16-bit. What follows the answers is
arbitrary. -/
structure Message where
  id : UInt16
  flags : UInt16
  question : Question
  questions : List Question
  answers : List Record
  nscount : UInt16
  arcount : UInt16
  rest : Bytes
  isResponse : flags &&& 0x8000 ≠ 0
  noError : flags &&& 0x000F = 0
  qdcount_lt : questions.length + 1 < 65536
  ancount_lt : answers.length < 65536

/-! ## The wire form -/

def Label.encode (l : Label) : Bytes := UInt8.ofNat (asBytes l.text).length :: asBytes l.text

/-- The two bytes of a pointer. -/
def encodePointer (target : Nat) : Bytes := [UInt8.ofNat (0xC0 + target / 256), UInt8.ofNat (target % 256)]

def Name.encode (n : Name) : Bytes :=
  match n.written with
  | .full => n.labels.flatMap Label.encode ++ [0]
  | .pointer own target => (n.labels.take own).flatMap Label.encode ++ encodePointer target

def Question.encode (q : Question) : Bytes := q.name.encode ++ toBeBytes q.qtype ++ toBeBytes q.qclass

def Record.encode (r : Record) : Bytes :=
  r.name.encode ++ toBeBytes r.rtype ++ toBeBytes r.rclass ++ (toBeBytes r.ttl.1 ++ toBeBytes r.ttl.2) ++
    toBeBytes (UInt16.ofNat r.rdata.length) ++ r.rdata

def Message.header (msg : Message) : Bytes :=
  toBeBytes msg.id ++ toBeBytes msg.flags ++ toBeBytes (UInt16.ofNat (msg.questions.length + 1)) ++
    toBeBytes (UInt16.ofNat msg.answers.length) ++ toBeBytes msg.nscount ++ toBeBytes msg.arcount

def Message.encode (msg : Message) : Bytes :=
  msg.header ++ msg.question.encode ++ msg.questions.flatMap Question.encode ++ msg.answers.flatMap Record.encode ++
    msg.rest

/-- A name fits its message: a pointer of it names a 14-bit offset where the message spells the rest of the labels with
at most nine more pointers, so that following the name takes at most ten. -/
def Name.Placed (wire : Bytes) (n : Name) : Prop :=
  match n.written with
  | .full => True
  | .pointer own target =>
    target < 0x4000 ∧ ∃ k e, NameAt wire target (n.texts.drop own) k e ∧ k < 10

/-- Every name fits the message. -/
structure Message.Placed (msg : Message) : Prop where
  first : msg.question.name.Placed msg.encode
  others : ∀ q ∈ msg.questions, q.name.Placed msg.encode
  owners : ∀ r ∈ msg.answers, r.name.Placed msg.encode

/-- The address a record stands for. -/
def Record.address (r : Record) : Option IpAddr :=
  if r.rclass = 1 ∧ r.rtype = 1 then
    match r.rdata with
    | [a, b, c, d] => some (.v4 (.new a b c d))
    | _ => none
  else if r.rclass = 1 ∧ r.rtype = 28 then
    if h : r.rdata.length = 16 then some (.v6 ⟨⟨r.rdata.toArray, by simp [h]⟩⟩) else none
  else none

/-- The pairs a response teaches: each address, with the dotted name of the first question. -/
def Message.pairs (msg : Message) : List (IpAddr × Str) :=
  (msg.answers.filterMap Record.address).map (·, dotted msg.question.name.texts)

/-! ## Names -/

theorem label_toNat (l : Label) : (UInt8.ofNat (asBytes l.text).length).toNat = (asBytes l.text).length := by
  rw [UInt8.toNat_ofNat', Nat.mod_eq_of_lt]
  have := l.size_le
  omega

/-- Labels that stand in front of a name are part of it. -/
theorem nameAt_labels {m : Bytes} {tail : List Str} {k e : Nat} : ∀ {ls : List Label} {p : Nat},
    Spells m p (ls.flatMap Label.encode) → NameAt m (p + (ls.flatMap Label.encode).length) tail k e →
    NameAt m p (ls.map Label.text ++ tail) k e
  | [], p, _, h => by simpa using h
  | l :: ls, p, hs, h => by
    rw [List.flatMap_cons, spells_append] at hs
    obtain ⟨hl, hs⟩ := hs
    have hlen : l.encode.length = 1 + (asBytes l.text).length := by simp [Label.encode]; omega
    have hb : m[p]? = some (UInt8.ofNat (asBytes l.text).length) := hl.getElem? (i := 0) (by omega)
    have hpos := l.size_pos
    have hle := l.size_le
    have hnext : p + 1 + (UInt8.ofNat (asBytes l.text).length).toNat = p + l.encode.length := by
      rw [label_toNat, hlen]; omega
    have htext : Spells m (p + 1) (asBytes l.text) := (@spells_append m [_] _ p).mp hl |>.2
    refine .label hb ?_ ?_ ?_ ?_ ?_
    · intro h0
      have := congrArg UInt8.toNat h0
      rw [label_toNat] at this
      change _ = 0 at this
      omega
    · rw [UInt8.lt_iff_toNat_lt, label_toNat]
      change _ < 192
      omega
    · rw [hnext]; exact hl.length_le (by simp [Label.encode])
    · rw [label_toNat, htext.take, fromUtf8_asBytes]
    · rw [hnext]
      apply nameAt_labels hs
      rw [List.flatMap_cons, List.length_append] at h
      rw [Nat.add_assoc]
      exact h

theorem pointerTarget_encode {target : Nat} (h : target < 0x4000) :
    pointerTarget (UInt8.ofNat (0xC0 + target / 256)) (UInt8.ofNat (target % 256)) = target := by
  have h63 : (0x3F : UInt8).toNat = 2 ^ 6 - 1 := rfl
  unfold pointerTarget
  rw [UInt8.toNat_and, UInt8.toNat_ofNat', UInt8.toNat_ofNat', h63, Nat.and_two_pow_sub_one_eq_mod,
    ← Nat.shiftLeft_add_eq_or_of_lt (by omega), Nat.shiftLeft_eq]
  omega

theorem nameAt_pointer {m : Bytes} {p target k e : Nat} {ls : List Str} (ht : target < 0x4000)
    (hs : Spells m p (encodePointer target)) (h : NameAt m target ls k e) : NameAt m p ls (k + 1) (p + 2) := by
  have h0 : m[p]? = some (UInt8.ofNat (0xC0 + target / 256)) := hs.getElem? (i := 0) (by simp [encodePointer])
  have h1 : m[p + 1]? = some (UInt8.ofNat (target % 256)) := hs.getElem? (i := 1) (by simp [encodePointer])
  refine .pointer (e := e) h0 ?_ h1 (by rw [pointerTarget_encode ht]; exact h)
  rw [UInt8.le_iff_toNat_le, UInt8.toNat_ofNat']
  change 192 ≤ _
  omega

/-- **A written name is spelled**, and the record goes on right after it. -/
theorem Name.nameAt {m : Bytes} {p : Nat} {n : Name} (hp : n.Placed m) (hs : Spells m p n.encode) :
    ∃ k, NameAt m p n.texts k (p + n.encode.length) ∧ k ≤ 10 := by
  unfold Name.Placed at hp
  unfold Name.encode at hs ⊢
  cases hw : n.written with
  | full =>
    simp only [hw, spells_append] at hs ⊢
    obtain ⟨hl, hz⟩ := hs
    have hroot : NameAt m (p + (n.labels.flatMap Label.encode).length) [] 0
        (p + (n.labels.flatMap Label.encode).length + 1) := .root (hz.getElem? (i := 0) (by simp))
    have h := nameAt_labels hl hroot
    rw [List.append_nil] at h
    exact ⟨0, by simpa [Name.texts, Nat.add_assoc] using h, by omega⟩
  | pointer own target =>
    simp only [hw, spells_append] at hp hs ⊢
    obtain ⟨ht, k, e, hn, hk⟩ := hp
    obtain ⟨hl, hptr⟩ := hs
    have h := nameAt_labels hl (nameAt_pointer ht hptr hn)
    have htexts : (n.labels.take own).map Label.text ++ n.texts.drop own = n.texts := by
      rw [← List.map_take.symm]
      exact List.take_append_drop own n.texts
    rw [htexts] at h
    exact ⟨k + 1, by simpa [encodePointer, Nat.add_assoc] using h, by omega⟩

/-! ## Questions -/

theorem Question.encode_length (q : Question) : q.encode.length = q.name.encode.length + 4 := by
  simp [Question.encode]

/-- The name of a question is read, and four more bytes are there. -/
theorem parseName_question {m : Bytes} {p : Nat} {q : Question} (hp : q.name.Placed m) (hs : Spells m p q.encode) :
    parseName m p = .ok (some (dotted q.name.texts), p + q.name.encode.length) ∧ p + q.encode.length ≤ m.length := by
  have hle := hs.length_le (by simp [Question.encode, toBeBytes])
  unfold Question.encode at hs
  simp only [spells_append] at hs
  obtain ⟨k, hn, hk⟩ := Name.nameAt hp hs.1.1
  exact ⟨parseName_of_nameAt hn hk, hle⟩

/-- The questions are skipped, one by one. -/
theorem skipQuestions_encode {m : Bytes} {qs : List Question} {p : Nat} (hp : ∀ q ∈ qs, q.name.Placed m)
    (hs : Spells m p (qs.flatMap Question.encode)) :
    skipQuestions m qs.length p = .ok (some (p + (qs.flatMap Question.encode).length)) := by
  induction qs generalizing p with
  | nil => rfl
  | cons q qs ih =>
    rw [List.flatMap_cons, spells_append] at hs
    obtain ⟨hname, hle⟩ := parseName_question (hp q List.mem_cons_self) hs.1
    have hlen := q.encode_length
    rw [List.length_cons, skipQuestions, if_neg (by omega), hname]
    have hrest := ih (fun x hx => hp x (List.mem_cons_of_mem _ hx)) hs.2
    simp only [bind, Except.bind, Option.isNone_some, Bool.false_eq_true, ↓reduceIte]
    rw [if_neg (by omega), Nat.add_assoc, ← hlen, hrest, List.flatMap_cons, List.length_append, Nat.add_assoc]

/-! ## Records -/

theorem recordAddress_a {m : Bytes} {p : Nat} {a b c d : UInt8} (hs : Spells m p [a, b, c, d]) :
    recordAddress m p 1 1 4 = .ok (some (.v4 (.new a b c d))) := by
  have h0 : m[p]? = some a := hs.getElem? (i := 0) (by simp)
  have h1 : m[p + 1]? = some b := hs.getElem? (i := 1) (by simp)
  have h2 : m[p + 2]? = some c := hs.getElem? (i := 2) (by simp)
  have h3 : m[p + 3]? = some d := hs.getElem? (i := 3) (by simp)
  simp [recordAddress, index_ok h0, index_ok h1, index_ok h2, index_ok h3, bind, Except.bind, pure, Except.pure]

theorem recordAddress_aaaa {m xs : Bytes} {p : Nat} (h : xs.length = 16) (hs : Spells m p xs) :
    recordAddress m p 28 1 16 = .ok (some (.v6 ⟨⟨xs.toArray, by simp [h]⟩⟩)) := by
  have hb := hs.slice (by rintro rfl; simp at h)
  rw [h] at hb
  simp [recordAddress, hb, h, bind, Except.bind, pure, Except.pure]

/-- The address of a record is read from its data. -/
theorem recordAddress_encode {m : Bytes} {p : Nat} {r : Record} (hs : Spells m p r.rdata) :
    recordAddress m p r.rtype.toNat r.rclass.toNat r.rdata.length = .ok r.address := by
  have hc : r.rclass.toNat = 1 ↔ r.rclass = 1 := UInt16.toNat_inj (b := 1)
  have ha : r.rtype.toNat = 1 ↔ r.rtype = 1 := UInt16.toNat_inj (b := 1)
  have haaaa : r.rtype.toNat = 28 ↔ r.rtype = 28 := UInt16.toNat_inj (b := 28)
  unfold Record.address
  split
  · next h =>
    rw [hc.mpr h.1, ha.mpr h.2]
    split
    · next a b c d hd => rw [hd] at hs ⊢; exact recordAddress_a hs
    · next hd =>
      have h4 : r.rdata.length ≠ 4 := fun h4 => by
        obtain ⟨a, b, c, d, hl⟩ := List.length_eq_four.mp h4
        exact hd a b c d hl
      simp [recordAddress, h4, pure, Except.pure]
  · next hna =>
    split
    · next h =>
      rw [hc.mpr h.1, haaaa.mpr h.2]
      split
      · next h16 => rw [h16]; exact recordAddress_aaaa h16 hs
      · next h16 => simp [recordAddress, h16, pure, Except.pure]
    · next hnaaaa =>
      unfold recordAddress
      simp only [hc, ha, haaaa]
      by_cases h1 : r.rclass = 1
      · have h2 : r.rtype ≠ 1 := fun h2 => hna ⟨h1, h2⟩
        have h3 : r.rtype ≠ 28 := fun h3 => hnaaaa ⟨h1, h3⟩
        simp [h1, h2, h3, pure, Except.pure]
      · simp [h1, pure, Except.pure]

theorem Record.encode_length (r : Record) : r.encode.length = r.name.encode.length + 10 + r.rdata.length := by
  simp [Record.encode]
  omega

/-- The fields of a record stand after its name, and its data after them. -/
theorem Record.fields {m : Bytes} {p : Nat} {r : Record} (hs : Spells m p r.encode) :
    let o := p + r.name.encode.length
    Spells m p r.name.encode ∧ beU16 m o = .ok r.rtype.toNat ∧ beU16 m (o + 2) = .ok r.rclass.toNat ∧
      beU16 m (o + 8) = .ok r.rdata.length ∧ Spells m (o + 10) r.rdata := by
  have hsize : (UInt16.ofNat r.rdata.length).toNat = r.rdata.length := by
    rw [UInt16.toNat_ofNat', Nat.mod_eq_of_lt r.size]
  unfold Record.encode at hs
  simp only [spells_append, length_toBeBytes, List.length_append, ← Nat.add_assoc] at hs
  obtain ⟨⟨⟨⟨⟨hname, htype⟩, hclass⟩, -⟩, hlen⟩, hdata⟩ := hs
  refine ⟨hname, htype.beU16, hclass.beU16, ?_, hdata⟩
  rw [← hsize]
  exact hlen.beU16

/-- **The answers are collected in order.** -/
theorem readAnswers_encode {m : Bytes} {qname : Str} {rs : List Record} {p : Nat} {out : List (IpAddr × Str)}
    (hp : ∀ r ∈ rs, r.name.Placed m) (hs : Spells m p (rs.flatMap Record.encode)) :
    readAnswers m qname rs.length p out = .ok (out ++ (rs.filterMap Record.address).map (·, qname)) := by
  induction rs generalizing p out with
  | nil => simp [readAnswers]
  | cons r rs ih =>
    rw [List.flatMap_cons, spells_append] at hs
    obtain ⟨hr, hs⟩ := hs
    have hlen := r.encode_length
    have hle := hr.length_le (by simp [Record.encode, toBeBytes])
    obtain ⟨hname, htype, hclass, hrdlen, hdata⟩ := Record.fields hr
    obtain ⟨k, hn, hk⟩ := Name.nameAt (hp r List.mem_cons_self) hname
    have hnext : p + r.name.encode.length + 10 + r.rdata.length = p + r.encode.length := by omega
    rw [List.length_cons, readAnswers, if_neg (by omega), parseName_of_nameAt hn hk]
    simp only [bind, Except.bind, Option.isNone_some, Bool.false_eq_true, ↓reduceIte]
    rw [if_neg (by omega), htype]
    simp only [hclass, hrdlen]
    rw [if_neg (by omega), recordAddress_encode hdata]
    simp only
    rw [hnext, ih (fun x hx => hp x (List.mem_cons_of_mem _ hx)) hs, List.filterMap_cons]
    cases r.address <;> simp

/-! ## Messages -/

theorem Message.header_length (msg : Message) : msg.header.length = 12 := by simp [Message.header]

/-- Where the parts of a message stand. -/
theorem Message.parts (msg : Message) :
    let o := 12 + msg.question.encode.length
    Spells msg.encode 0 msg.header ∧ Spells msg.encode 12 msg.question.encode ∧
      Spells msg.encode o (msg.questions.flatMap Question.encode) ∧
      Spells msg.encode (o + (msg.questions.flatMap Question.encode).length) (msg.answers.flatMap Record.encode) := by
  have h : Spells msg.encode 0 msg.encode := List.prefix_refl _
  unfold Message.encode at h
  simp only [spells_append, List.length_append, msg.header_length, Nat.zero_add] at h
  obtain ⟨⟨⟨⟨hh, hq⟩, hqs⟩, has⟩, -⟩ := h
  unfold Message.encode
  exact ⟨hh, hq, hqs, has⟩

/-- The fields that the parser reads of the header. -/
theorem Message.header_fields (msg : Message) :
    beU16 msg.encode 2 = .ok msg.flags.toNat ∧ beU16 msg.encode 4 = .ok (msg.questions.length + 1) ∧
      beU16 msg.encode 6 = .ok msg.answers.length := by
  have hqd : (UInt16.ofNat (msg.questions.length + 1)).toNat = msg.questions.length + 1 := by
    rw [UInt16.toNat_ofNat', Nat.mod_eq_of_lt msg.qdcount_lt]
  have han : (UInt16.ofNat msg.answers.length).toNat = msg.answers.length := by
    rw [UInt16.toNat_ofNat', Nat.mod_eq_of_lt msg.ancount_lt]
  have hh := msg.parts.1
  unfold Message.header at hh
  simp only [spells_append, List.length_append, length_toBeBytes, Nat.zero_add, Nat.reduceAdd] at hh
  obtain ⟨⟨⟨⟨⟨-, hflags⟩, hqdc⟩, hanc⟩, -⟩, -⟩ := hh
  refine ⟨hflags.beU16, ?_, ?_⟩
  · rw [← hqd]; exact hqdc.beU16
  · rw [← han]; exact hanc.beU16

/-- The flags of a message pass both tests of the parser. -/
theorem Message.flags_pass (msg : Message) :
    msg.flags.toNat &&& 0x8000 ≠ 0 ∧ msg.flags.toNat &&& 0x000F = 0 := by
  have hr := msg.isResponse
  have he := msg.noError
  rw [ne_eq, ← UInt16.toNat_inj, UInt16.toNat_and] at hr
  rw [← UInt16.toNat_inj, UInt16.toNat_and] at he
  exact ⟨hr, he⟩

/-- Past its header, a message is parsed to its pairs. -/
theorem parseSections_encode (msg : Message) (hn : msg.Placed) :
    parseSections msg.encode (msg.questions.length + 1) msg.answers.length = .ok msg.pairs := by
  obtain ⟨-, hq, hqs, has⟩ := msg.parts
  obtain ⟨hname, hle⟩ := parseName_question hn.first hq
  have hlen := msg.question.encode_length
  have hskip := skipQuestions_encode hn.others hqs
  have hanswers := @readAnswers_encode _ (dotted msg.question.name.texts) _ _ [] hn.owners has
  unfold parseSections
  rw [hname]
  simp only [bind, Except.bind]
  rw [if_neg (by omega), Nat.add_sub_cancel, Nat.add_assoc, ← hlen, hskip]
  simp only
  rw [hanswers, List.nil_append]
  rfl

/-- **Decoding undoes encoding.** On the wire form of a response whose names fit it, the parser returns one pair for
each `A` answer with 4 bytes and each `AAAA` answer with 16 of class `IN`, in order, and nothing else. -/
theorem parseDnsAnswers_encode (msg : Message) (hn : msg.Placed) :
    parseDnsAnswers msg.encode = .ok msg.pairs := by
  have hlen : 12 ≤ msg.encode.length := by
    have := msg.header_length
    simp only [Message.encode, List.length_append]
    omega
  obtain ⟨hflags, hqd, han⟩ := msg.header_fields
  obtain ⟨hr, he⟩ := msg.flags_pass
  unfold parseDnsAnswers
  rw [if_neg (by omega), hflags]
  simp only [bind, Except.bind]
  rw [if_neg hr, if_neg (by simpa using he), hqd, han]
  simp only
  split
  · next h0 =>
    -- no answers: the parser returns before it looks at the name
    rw [List.length_eq_zero_iff] at h0
    simp [Message.pairs, h0, pure, Except.pure]
  · exact parseSections_encode msg hn

/-- The name `a.b`, written in some way. -/
def nameAB (written : Written) : Name where
  labels := [⟨['a'], by decide, by decide, by decide⟩, ⟨['b'], by decide, by decide, by decide⟩]
  written := written

/-- A response to a question for `a.b`, written in full; the owner of the one `A` record is a pointer to it. -/
def compressedResponse : Message where
  id := 7
  flags := 0x8180
  question := ⟨nameAB .full, 1, 1⟩
  questions := []
  answers := [⟨nameAB (.pointer 0 12), 1, 1, (0, 60), [192, 0, 2, 1], by decide⟩]
  nscount := 0
  arcount := 0
  rest := []
  isResponse := by decide
  noError := by decide
  qdcount_lt := by decide
  ancount_lt := by decide

theorem compressedResponse_placed : compressedResponse.Placed where
  first := trivial
  others := by simp [compressedResponse]
  owners := by
    intro r hr
    obtain rfl : r = ⟨nameAB (.pointer 0 12), 1, 1, (0, 60), [192, 0, 2, 1], by decide⟩ := by
      simpa [compressedResponse] using hr
    refine ⟨by decide, 0, 17, ?_, by decide⟩
    exact .label (b := 1) (by decide) (by decide) (by decide) (by decide) (by decide)
      (.label (b := 1) (by decide) (by decide) (by decide) (by decide) (by decide) (.root (by decide)))

/-- The response to `a.b` is decoded to its address and that name. -/
theorem parseDnsAnswers_compressedResponse :
    compressedResponse.Placed ∧ parseDnsAnswers compressedResponse.encode =
      .ok [(.v4 (.new 192 0 2 1), "a.b".toList)] :=
  ⟨compressedResponse_placed, parseDnsAnswers_encode compressedResponse compressedResponse_placed⟩

end AceTun
