import AceTun.Proxy.Http
import AceTun.Dns.Name
import AceTun.RustStd.SocketAddr

/-!
# One request head

What `buildHttpConnectRequest` writes is a list of lines, each ended by `\r\n` (`buildHttpConnectRequest_eq`). It is
one request head (`OneRequestHead`) when cutting it at `\r\n` gives these lines back. A host name that was learnt from
a DNS response may hold any bytes that are UTF-8, so it need not be: it is exactly when no label of the response's
first name holds a carriage return, a line feed or a space (`oneRequestHead_iff_labels`).

The target stands in the request line and in the `Host` header as host and port. An address is not put in brackets
there, so this is a socket address exactly for IPv4 (`hostPort_denotes_iff`).
-/

namespace AceTun

open RustStd

/-! ## Cutting into lines and fields -/

/-- Cut at every `\r\n`. -/
def splitCrlf : Bytes → List Bytes
  | [] => [[]]
  | [b] => [[b]]
  | b :: c :: bs => if b = 13 ∧ c = 10 then [] :: splitCrlf bs else (splitCrlf (c :: bs)).modifyHead (b :: ·)

theorem splitCrlf_cons {b : UInt8} (hb : b ≠ 13) {bs : Bytes} (hbs : bs ≠ []) :
    splitCrlf (b :: bs) = (splitCrlf bs).modifyHead (b :: ·) := by
  cases bs with
  | nil => exact absurd rfl hbs
  | cons c bs => rw [splitCrlf, if_neg (fun h => hb h.1)]

/-- The bytes up to the first `\r\n` are a line. -/
theorem splitCrlf_line {line rest : Bytes} (h : 13 ∉ line) :
    splitCrlf (line ++ 13 :: 10 :: rest) = line :: splitCrlf rest := by
  induction line with
  | nil => simp [splitCrlf]
  | cons b line ih =>
    obtain ⟨hb, hl⟩ := not_or.mp (List.mem_cons.not.mp h)
    rw [List.cons_append, splitCrlf_cons (Ne.symm hb) (by simp), ih hl]
    rfl

/-- Lines that hold no `\r` are found again. -/
theorem splitCrlf_lines {lines : List Bytes} (h : ∀ l ∈ lines, 13 ∉ l) :
    splitCrlf (lines.flatMap (· ++ [13, 10])) = lines ++ [[]] := by
  induction lines with
  | nil => rfl
  | cons l lines ih =>
    rw [List.flatMap_cons, List.append_assoc, List.cons_append, List.cons_append, List.nil_append,
      splitCrlf_line (h l List.mem_cons_self), ih fun x hx => h x (List.mem_cons_of_mem _ hx)]
    rfl

theorem length_splitOn (a : UInt8) (bs : Bytes) : (bs.splitOn a).length = bs.count a + 1 := by
  induction bs with
  | nil => rfl
  | cons b bs ih =>
    unfold List.splitOn at ih ⊢
    rw [List.splitOnP_cons_eq_if_modifyHead, List.count_cons]
    split <;> simp_all

/-! ## The lines of a request -/

section Request

variable (base64 : Bytes → Str) (host : Str) (port : UInt16) (auth : Option (Str × Str))

def hostPort : Str := host ++ ":".toList ++ showNat port.toNat

def requestLine : Str := "CONNECT ".toList ++ hostPort host port ++ " HTTP/1.1".toList

def hostLine : Str := "Host: ".toList ++ hostPort host port

def authorizationLine (auth : Str × Str) : Str :=
  "Proxy-Authorization: Basic ".toList ++ base64 (asBytes (auth.1 ++ ":".toList ++ auth.2))

def connectionLine : Str := "Proxy-Connection: keep-alive".toList

/-- The lines that a request is to have; the last is the blank one. -/
def requestLines : List Bytes :=
  ([requestLine host port, hostLine host port] ++ (auth.map (authorizationLine base64)).toList ++
    [connectionLine, []]).map asBytes

/-- The request is one head: cutting it gives its lines and nothing after them, no `\r` or `\n` is left in them, and the
request line has three fields. -/
structure OneRequestHead : Prop where
  lines : splitCrlf (buildHttpConnectRequest base64 host port auth) = requestLines base64 host port auth ++ [[]]
  clean : ∀ line ∈ splitCrlf (buildHttpConnectRequest base64 host port auth), 13 ∉ line ∧ 10 ∉ line
  fields : ((asBytes (requestLine host port)).splitOn 32).length = 3

theorem buildHttpConnectRequest_eq :
    buildHttpConnectRequest base64 host port auth = (requestLines base64 host port auth).flatMap (· ++ [13, 10]) := by
  have h1 : asBytes " HTTP/1.1\r\nHost: ".toList = asBytes " HTTP/1.1".toList ++ [13, 10] ++ asBytes "Host: ".toList := by
    decide
  have h2 : asBytes "\r\n".toList = [13, 10] := by decide
  have h3 : asBytes "Proxy-Connection: keep-alive\r\n\r\n".toList = asBytes connectionLine ++ [13, 10, 13, 10] := by
    decide
  unfold buildHttpConnectRequest requestLines requestLine hostLine authorizationLine hostPort
  cases auth with
  | none => simp only [asBytes_append, h1, h2, h3]; simp
  | some up => simp only [asBytes_append, h1, h2, h3]; simp

/-! ## Which hosts give one head -/

/-- What is used of the encoder: it writes letters, digits, `+`, `/` and `=`. -/
def Base64Text : Prop := ∀ bs, ∀ c ∈ base64 bs, c.isAlphanum = true ∨ c = '+' ∨ c = '/' ∨ c = '='

/-- A text that stays on its line. -/
def OneLine (s : Str) : Prop := '\r' ∉ s ∧ '\n' ∉ s

instance (s : Str) : Decidable (OneLine s) := inferInstanceAs (Decidable (_ ∧ _))

variable {base64 host port auth}

theorem oneLine_append {s t : Str} : OneLine (s ++ t) ↔ OneLine s ∧ OneLine t := by
  simp only [OneLine, List.mem_append, not_or]
  tauto

theorem oneLine_between {pre post s : Str} (hpre : OneLine pre) (hpost : OneLine post) :
    OneLine (pre ++ s ++ post) ↔ OneLine s := by
  rw [oneLine_append, oneLine_append]
  exact ⟨fun h => h.1.2, fun h => ⟨⟨hpre, h⟩, hpost⟩⟩

theorem oneLine_iff_bytes {s : Str} : OneLine s ↔ 13 ∉ asBytes s ∧ 10 ∉ asBytes s :=
  and_congr (not_congr (mem_asBytes_ascii (a := '\r') (by decide)).symm)
    (not_congr (mem_asBytes_ascii (a := '\n') (by decide)).symm)

theorem oneLine_showNat (n : Nat) : OneLine (showNat n) :=
  ⟨fun h => absurd (isDigit_of_mem_showNat h) (by decide), fun h => absurd (isDigit_of_mem_showNat h) (by decide)⟩

theorem Base64Text.oneLine (hb : Base64Text base64) (bs : Bytes) : OneLine (base64 bs) :=
  ⟨fun h => absurd (hb bs _ h) (by decide), fun h => absurd (hb bs _ h) (by decide)⟩

theorem oneLine_hostPort : OneLine (hostPort host port) ↔ OneLine host := by
  rw [hostPort, oneLine_append, oneLine_append]
  exact ⟨fun h => h.1.1, fun h => ⟨⟨h, by decide⟩, oneLine_showNat _⟩⟩

theorem oneLine_requestLine : OneLine (requestLine host port) ↔ OneLine host :=
  (oneLine_between (by decide) (by decide)).trans oneLine_hostPort

/-- With a host that stays on its line, every line of the request does. -/
theorem requestLines_oneLine (hb : Base64Text base64) (hh : OneLine host) :
    ∀ l ∈ requestLines base64 host port auth, 13 ∉ l ∧ 10 ∉ l := by
  intro l hl
  obtain ⟨s, hs, rfl⟩ := List.mem_map.mp hl
  rw [← oneLine_iff_bytes]
  simp only [List.mem_append, List.mem_cons, List.not_mem_nil, or_false, Option.mem_toList, Option.map_eq_some_iff] at hs
  rcases hs with ((rfl | rfl) | ⟨up, -, rfl⟩) | rfl | rfl
  · exact oneLine_requestLine.mpr hh
  · exact oneLine_append.mpr ⟨by decide, oneLine_hostPort.mpr hh⟩
  · exact oneLine_append.mpr ⟨by decide, hb.oneLine _⟩
  · decide
  · decide

theorem count_asBytes_between {pre colon digits post : Str} (hpre : (asBytes pre).count 32 = 1)
    (hcolon : (asBytes colon).count 32 = 0) (hdigits : (asBytes digits).count 32 = 0)
    (hpost : (asBytes post).count 32 = 1) :
    (asBytes (pre ++ (host ++ colon ++ digits) ++ post)).count 32 = 2 + (asBytes host).count 32 := by
  simp only [asBytes_append, List.count_append]
  omega

/-- A request line has three fields and as many more as its host has spaces. -/
theorem requestLine_fields :
    ((asBytes (requestLine host port)).splitOn 32).length = 3 + (asBytes host).count 32 := by
  have hport : (asBytes (showNat port.toNat)).count 32 = 0 := by
    rw [List.count_eq_zero, show (32 : UInt8) = UInt8.ofNat ' '.toNat from rfl, mem_asBytes_ascii (by decide)]
    exact fun h => absurd (isDigit_of_mem_showNat h) (by decide)
  have hcount : (asBytes (requestLine host port)).count 32 = 2 + (asBytes host).count 32 :=
    count_asBytes_between (by decide) (by decide) hport (by decide)
  rw [length_splitOn, hcount]
  omega

/-- One head: no line of it was broken by the host. -/
theorem OneRequestHead.host_bytes (h : OneRequestHead base64 host port auth) :
    ∀ b ∈ asBytes host, b ≠ 13 ∧ b ≠ 10 ∧ b ≠ 32 := by
  intro b hmem
  have hline : asBytes (requestLine host port) ∈ splitCrlf (buildHttpConnectRequest base64 host port auth) := by
    rw [h.lines]
    simp [requestLines]
  obtain ⟨hcr, hlf⟩ := oneLine_iff_bytes.mp (oneLine_requestLine.mp (oneLine_iff_bytes.mpr (h.clean _ hline)))
  have hspace : (asBytes host).count 32 = 0 := by
    have hfields := h.fields
    rw [requestLine_fields] at hfields
    omega
  rw [List.count_eq_zero] at hspace
  exact ⟨fun e => hcr (e ▸ hmem), fun e => hlf (e ▸ hmem), fun e => hspace (e ▸ hmem)⟩

/-- **The request is one head exactly for hosts without `\r`, `\n` and spaces.** -/
theorem oneRequestHead_iff (hb : Base64Text base64) :
    OneRequestHead base64 host port auth ↔ ∀ b ∈ asBytes host, b ≠ 13 ∧ b ≠ 10 ∧ b ≠ 32 := by
  refine ⟨OneRequestHead.host_bytes, fun h => ?_⟩
  have hone : OneLine host := oneLine_iff_bytes.mpr ⟨fun hm => (h 13 hm).1 rfl, fun hm => (h 10 hm).2.1 rfl⟩
  have hclean : ∀ l ∈ requestLines base64 host port auth, 13 ∉ l ∧ 10 ∉ l := requestLines_oneLine hb hone
  have hlines : splitCrlf (buildHttpConnectRequest base64 host port auth) =
      requestLines base64 host port auth ++ [[]] := by
    rw [buildHttpConnectRequest_eq, splitCrlf_lines fun l hl => (hclean l hl).1]
  refine ⟨hlines, ?_, ?_⟩
  · intro l hl
    rw [hlines, List.mem_append, List.mem_singleton] at hl
    rcases hl with hl | rfl
    · exact hclean l hl
    · simp
  · rw [requestLine_fields, List.count_eq_zero.mpr fun hm => (h 32 hm).2.2 rfl]

end Request

/-! ## Hosts that were learnt from a response -/

/-- Apart from the dots, the bytes of a name are those of its labels. -/
theorem mem_asBytes_dotted {b : UInt8} (hb : b ≠ 46) : ∀ {ls : List Str},
    b ∈ asBytes (dotted ls) ↔ ∃ l ∈ ls, b ∈ asBytes l
  | [] => by simp [dotted]
  | [l] => by simp [dotted]
  | l :: l' :: ls => by
    have hdot : asBytes ['.'] = [46] := by decide
    have ih := @mem_asBytes_dotted b hb (l' :: ls)
    unfold dotted at ih ⊢
    rw [List.intercalate_cons_cons, asBytes_append, asBytes_append, hdot, List.mem_append, List.mem_append, ih]
    simp [hb]

/-- **When a learnt host gives one request head.** The host comes from the name that the response spells after its
header; the request is one head exactly when no label of that name holds a `\r`, a `\n` or a space. -/
theorem oneRequestHead_iff_labels {base64 : Bytes → Str} (hb : Base64Text base64) {payload : Bytes}
    {pairs : List (IpAddr × Str)} (hp : parseDnsAnswers payload = .ok pairs) {ip : IpAddr} {name : Str}
    (hmem : (ip, name) ∈ pairs) (port : UInt16) (auth : Option (Str × Str)) :
    ∃ labels jumps next, NameAt payload 12 labels jumps next ∧ name = dotted labels ∧
      (OneRequestHead base64 name port auth ↔
        ∀ label ∈ labels, ∀ b ∈ asBytes label, b ≠ 13 ∧ b ≠ 10 ∧ b ≠ 32) := by
  obtain ⟨labels, jumps, next, hn, rfl⟩ := nameAt_of_mem_parseDnsAnswers hp hmem
  refine ⟨labels, jumps, next, hn, rfl, ?_⟩
  rw [oneRequestHead_iff hb]
  constructor
  · intro h label hl b hbm
    by_cases hdot : b = 46
    · subst hdot; decide
    · exact h b ((mem_asBytes_dotted hdot).mpr ⟨label, hl, hbm⟩)
  · intro h b hbm
    by_cases hdot : b = 46
    · subst hdot; decide
    · obtain ⟨label, hl, hbl⟩ := (mem_asBytes_dotted hdot).mp hbm
      exact h label hl b hbl

/-- A response to a question with one label, with one `A` record. -/
def singleLabelResponse (label : Str) : Bytes :=
  [0x12, 0x34, 0x81, 0x80, 0, 1, 0, 1, 0, 0, 0, 0] ++ (UInt8.ofNat (asBytes label).length :: asBytes label) ++
    [0, 0, 1, 0, 1, 0xC0, 12, 0, 1, 0, 1, 0, 0, 0, 60, 0, 4, 192, 0, 2, 1]

/-- A plain label gives one head, also with credentials. -/
theorem oneRequestHead_of_plain_label :
    parseDnsAnswers (singleLabelResponse "ab".toList) = .ok [(.v4 (.new 192 0 2 1), "ab".toList)] ∧
      OneRequestHead (fun _ => "dXNlcjpwYXNz".toList) "ab".toList 443 (some ("user".toList, "pass".toList)) := by
  have hb : Base64Text fun _ => "dXNlcjpwYXNz".toList := by
    intro _ c hc
    have hall : "dXNlcjpwYXNz".toList.all Char.isAlphanum = true := by decide
    exact .inl (List.all_eq_true.mp hall c hc)
  have hp : parseDnsAnswers (singleLabelResponse "ab".toList) = .ok [(.v4 (.new 192 0 2 1), "ab".toList)] := by
    decide +kernel
  refine ⟨hp, ?_⟩
  obtain ⟨labels, jumps, next, hn, -, hiff⟩ :=
    oneRequestHead_iff_labels hb hp List.mem_cons_self 443 (some ("user".toList, "pass".toList))
  have hname : NameAt (singleLabelResponse "ab".toList) 12 ["ab".toList] 0 16 :=
    .label (b := 2) (by decide) (by decide) (by decide) (by decide) (by decide) (.root (by decide))
  obtain ⟨rfl, -, -⟩ := hname.functional hn
  refine hiff.mpr fun label hl b hb => ?_
  rw [List.mem_singleton] at hl
  subst hl
  have hab : b ∈ [97, 98] := hb
  rcases List.mem_pair.mp hab with rfl | rfl
  · decide
  · decide

/-- **A label with a line break in it ends the request line**: what follows it is a line of its own. -/
theorem request_split_by_label :
    parseDnsAnswers (singleLabelResponse "a\r\nb".toList) = .ok [(.v4 (.new 192 0 2 1), "a\r\nb".toList)] ∧
      ∀ base64, ¬ OneRequestHead base64 "a\r\nb".toList 443 none :=
  ⟨by decide +kernel, fun _ h => (h.host_bytes 13 (by decide)).1 rfl⟩

/-! ## The authority -/

theorem hostPort_v4 (ip : Ipv4Addr) (port : UInt16) :
    parseSocketAddr (hostPort ip.toStr port) = some ⟨.v4 ip, port⟩ :=
  parseSocketAddr_toStr ⟨.v4 ip, port⟩

theorem hostPort_v6 (ip : Ipv6Addr) (port : UInt16) : parseSocketAddr (hostPort ip.toStr port) = none := by
  have htext : hostPort ip.toStr port = ip.toStr ++ ':' :: showNat port.toNat := by simp [hostPort]
  rw [htext, parseSocketAddr_unbracketed]

/-- **The authority denotes the target exactly for IPv4.** Host and port stand in the request line and in the `Host`
header; as a socket address they are refused for IPv6, where the printed socket address would be read back. -/
theorem hostPort_denotes_iff (base64 : Bytes → Str) (auth : Option (Str × Str)) (ip : IpAddr) (port : UInt16) :
    (∃ rest, buildHttpConnectRequest base64 (Target.ip ip port).hostString (Target.ip ip port).port auth =
      asBytes ("CONNECT ".toList ++ hostPort (Target.ip ip port).hostString port ++ " HTTP/1.1".toList) ++ [13, 10] ++
        (asBytes ("Host: ".toList ++ hostPort (Target.ip ip port).hostString port) ++ [13, 10] ++ rest)) ∧
    (parseSocketAddr (hostPort (Target.ip ip port).hostString port) = some ⟨ip, port⟩ ↔ ip.isIpv6 = false) ∧
    parseSocketAddr (SocketAddr.toStr ⟨ip, port⟩) = some ⟨ip, port⟩ := by
  refine ⟨?_, ?_, parseSocketAddr_toStr _⟩
  · rw [buildHttpConnectRequest_eq]
    exact ⟨_, rfl⟩
  · cases ip with
    | v4 ip => exact iff_of_true (hostPort_v4 ip port) rfl
    | v6 ip =>
      refine iff_of_false (fun h => ?_) Bool.noConfusion
      have hnone : parseSocketAddr (hostPort (Target.ip (.v6 ip) port).hostString port) = none := hostPort_v6 ip port
      rw [hnone] at h
      cases h

/-- **An IPv6 target is not written as a socket address**: without brackets the text even is another address. -/
theorem authority_without_brackets :
    hostPort (Target.ip (.v6 (.new 0x2001 0xdb8 0 0 0 0 0 1)) 443).hostString 443 = "2001:db8::1:443".toList ∧
      parseSocketAddr "2001:db8::1:443".toList = none ∧
      parseIpv6Addr "2001:db8::1:443".toList = some (.new 0x2001 0xdb8 0 0 0 0 1 0x443) := by
  decide +kernel

end AceTun
