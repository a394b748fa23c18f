import AceTun.Proxy.Request
import AceTun.RustStd.Decimal

/-!
# The status of a response

`parseHttpStatus` decodes the whole response before it looks at its first line. So the status is that of the line
(`StatusLine`) where what follows the line is UTF-8, and there is none otherwise (`parseHttpStatus_of_line`): header
bytes change the status exactly when they are not UTF-8 and the line has one, and they turn an accepted response into
a refused one exactly when they are not UTF-8 and the line says 200 (`parseHttpStatus_rest_iff`).
-/

namespace AceTun

open RustStd RustStd.TcpStream

/-! ## The status line -/

/-- The line is a status line of HTTP/1 with this code: its second field spells it. -/
def StatusLine (line : Str) (code : Nat) : Prop :=
  startsWith "HTTP/1.".toList line = true ∧
    ∃ field, (splitWhitespace line)[1]? = some field ∧ code < 2 ^ 16 ∧ SpellsNat field code

/-- The bytes encode a text. -/
def IsUtf8 (bs : Bytes) : Prop := ∃ t, bs = asBytes t

/-- The line break after a status line. -/
def crlf : Bytes := [13, 10]

section Status

variable {line : Str} {rest : Bytes}

/-- The status of a response is that of its first line if the rest is UTF-8, and there is none otherwise. -/
theorem parseHttpStatus_of_line (hline : OneLine line) (rest : Bytes) {code : Nat} :
    parseHttpStatus (asBytes line ++ crlf ++ rest) = some code ↔ IsUtf8 rest ∧ StatusLine line code := by
  have hbytes : asBytes line ++ crlf ++ rest = asBytes (line ++ ['\r', '\n']) ++ rest := by
    rw [asBytes_append]
    rfl
  have hfirst : ∀ t, (lines (line ++ ['\r', '\n'] ++ t)).head? = some line := by
    intro t
    rw [List.append_assoc]
    exact congrArg List.head? (lines_crlf hline.2 t)
  rw [parseHttpStatus, hbytes]
  simp only [Option.bind_eq_bind, Option.bind_eq_some_iff, fromUtf8_append_eq_some]
  constructor
  · rintro ⟨_, ⟨t, rfl, hrest⟩, _, hhead, h⟩
    rw [hfirst t] at hhead
    cases hhead
    obtain ⟨hstart, h⟩ := Option.ite_none_right_eq_some.mp h
    obtain ⟨field, hfield, hcode⟩ := Option.bind_eq_some_iff.mp h
    exact ⟨⟨t, hrest⟩, hstart, field, hfield, parseUnsigned_iff.mp hcode⟩
  · rintro ⟨⟨t, hrest⟩, hstart, field, hfield, hcode⟩
    refine ⟨_, ⟨t, rfl, hrest⟩, line, hfirst t, ?_⟩
    rw [if_pos hstart, hfield]
    exact parseUnsigned_iff.mpr hcode

/-- A line alone has its own status. -/
theorem parseHttpStatus_line (hline : OneLine line) {code : Nat} :
    parseHttpStatus (asBytes line ++ crlf) = some code ↔ StatusLine line code := by
  rw [← List.append_nil (asBytes line ++ crlf), parseHttpStatus_of_line hline]
  exact and_iff_right ⟨[], rfl⟩

end Status

/-! ## Acceptance -/

section Accept

variable {base64 : Bytes → Str} {cfg : ProxyConfig} {dest : Target} {s : TcpStream}

/-- On this connection the request is written and the read loop ends with this head. -/
def HeadRead (base64 : Bytes → Str) (cfg : ProxyConfig) (dest : Target) (s : TcpStream) (head : Bytes) : Prop :=
  ∃ s' t, writeAll (buildHttpConnectRequest base64 dest.hostString dest.port cfg.credentials) s = (.ok (), s') ∧
    readHead [] s' = (.ok head, t)

/-- Once the head is read, its status decides. -/
theorem httpConnect_accepts_iff {head : Bytes} (hread : HeadRead base64 cfg dest s head) :
    (httpConnect base64 cfg dest s).1 = .ok () ↔ parseHttpStatus head = some 200 := by
  obtain ⟨s', t, hwrite, hhead⟩ := hread
  constructor
  · intro h
    obtain ⟨_, _, hw, hr, hst⟩ := httpConnect_eq_ok.mp (Prod.ext h rfl)
    cases hwrite.symm.trans hw
    cases hhead.symm.trans hr
    exact hst
  · intro hst
    rw [httpConnect_eq_ok.mpr ⟨s', head, hwrite, hhead, hst⟩]

/-- A head that comes in one read is read. -/
theorem headRead_answering {seg : Bytes} (hle : seg.length ≤ 512) (hend : crlfCrlf.isSuffixOf seg = true)
    (ending : Ending) : HeadRead base64 cfg dest (answering [seg] ending) seg := by
  have hne : seg ≠ [] := by
    rintro rfl
    exact absurd hend (by decide)
  have hread := @readHead_segment [] seg { answering [seg] ending with
    sent := [buildHttpConnectRequest base64 dest.hostString dest.port cfg.credentials] } [] rfl hne hle
  rw [List.nil_append, if_pos hend] at hread
  exact ⟨_, _, rfl, hread⟩

end Accept

/-- **The status and the header bytes.** Whatever follows the first line, the status is that of the line alone if and
only if what follows is UTF-8 or the line has no status; and on every connection the response is accepted as the line
alone says if and only if what follows is UTF-8 or the line does not say 200. -/
theorem parseHttpStatus_rest_iff {line : Str} (hline : OneLine line) (rest : Bytes) :
    (parseHttpStatus (asBytes line ++ crlf ++ rest) = parseHttpStatus (asBytes line ++ crlf) ↔
        IsUtf8 rest ∨ ∀ code, ¬ StatusLine line code) ∧
      ∀ base64 cfg dest s, HeadRead base64 cfg dest s (asBytes line ++ crlf ++ rest) →
        (((httpConnect base64 cfg dest s).1 = .ok () ↔ parseHttpStatus (asBytes line ++ crlf) = some 200) ↔
          IsUtf8 rest ∨ ¬ StatusLine line 200) := by
  constructor
  · rw [Option.ext_iff]
    simp only [parseHttpStatus_of_line hline, parseHttpStatus_line hline, and_iff_right_iff_imp]
    constructor
    · intro h
      by_cases hrest : IsUtf8 rest
      · exact .inl hrest
      · exact .inr fun code hcode => hrest (h code hcode)
    · rintro (hrest | hnone) code hcode
      · exact hrest
      · exact absurd hcode (hnone code)
  · intro base64 cfg dest s hread
    rw [httpConnect_accepts_iff hread, parseHttpStatus_of_line hline, parseHttpStatus_line hline,
      and_iff_right_iff_imp, or_comm, imp_iff_not_or]

/-- The status line of an accepted request. -/
def okLine : Str := "HTTP/1.1 200 OK".toList

theorem parseHttpStatus_rest_iff_okLine :
    OneLine okLine ∧ parseHttpStatus (asBytes okLine ++ crlf ++ crlf) = parseHttpStatus (asBytes okLine ++ crlf) ∧
      ∀ base64 cfg dest, (httpConnect base64 cfg dest (answering [asBytes okLine ++ crlf ++ crlf] .eof)).1 = .ok () := by
  obtain ⟨hstatus, haccept⟩ := parseHttpStatus_rest_iff (by decide : OneLine okLine) crlf
  have hrest : IsUtf8 crlf := ⟨['\r', '\n'], rfl⟩
  refine ⟨by decide, hstatus.mpr (.inl hrest), fun base64 cfg dest => ?_⟩
  have hread := @headRead_answering base64 cfg dest (asBytes okLine ++ crlf ++ crlf) (by decide) (by decide) .eof
  exact ((haccept base64 cfg dest _ hread).mpr (.inl hrest)).mpr (by decide)

/-- A header with a Latin-1 letter, and the blank line. -/
def latin1Header : Bytes := asBytes "Via: caf".toList ++ [0xE9] ++ crlfCrlf

/-- A Latin-1 letter in a header refuses a response that says 200. -/
theorem latin1_header_refuses :
    parseHttpStatus (asBytes okLine ++ crlf) = some 200 ∧ parseHttpStatus (asBytes okLine ++ crlf ++ latin1Header) = none ∧
      ∀ base64 cfg dest,
        (httpConnect base64 cfg dest (answering [asBytes okLine ++ crlf ++ latin1Header] .eof)).1 ≠ .ok () := by
  have hnone : parseHttpStatus (asBytes okLine ++ crlf ++ latin1Header) = none := by decide
  refine ⟨by decide, hnone, fun base64 cfg dest => ?_⟩
  have hread := @headRead_answering base64 cfg dest (asBytes okLine ++ crlf ++ latin1Header) (by decide) (by decide) .eof
  rw [Ne, httpConnect_accepts_iff hread, hnone]
  simp

end AceTun
