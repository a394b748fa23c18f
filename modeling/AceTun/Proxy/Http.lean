import AceTun.Config

/-!
# HTTP `CONNECT`

The request (`buildHttpConnectRequest`), the status parser (`parseHttpStatus`) and the handshake (`httpConnect`). The
handshake reads until what it has read *ends* with the blank line, so it depends on where the reads are cut: it
succeeds and leaves the tunnel bytes alone exactly when a read boundary falls between the response head and them
(`httpConnect_ok_iff_boundary`).

`base64` stands for the encoder of the `base64` crate.
-/

namespace AceTun

open RustStd RustStd.TcpStream

/-- What a proxied connection is to reach. -/
inductive Target where
  | ip (ip : IpAddr) (port : UInt16)
  | domain (host : Str) (port : UInt16)
  deriving DecidableEq, Repr

namespace Target

def port : Target → UInt16
  | ip _ p => p
  | domain _ p => p

def hostString : Target → Str
  | ip a _ => a.toStr
  | domain h _ => h

end Target

section Handshake

variable (base64 : Bytes → Str)

/-- `CONNECT host:port HTTP/1.1`, with optional Basic credentials. -/
def buildHttpConnectRequest (host : Str) (port : UInt16) (auth : Option (Str × Str)) : Bytes :=
  let req := "CONNECT ".toList ++ host ++ ":".toList ++ showNat port.toNat ++ " HTTP/1.1\r\nHost: ".toList ++ host ++
    ":".toList ++ showNat port.toNat ++ "\r\n".toList
  let req := match auth with
    | some (user, pass) =>
      req ++ "Proxy-Authorization: Basic ".toList ++ base64 (asBytes (user ++ ":".toList ++ pass)) ++ "\r\n".toList
    | none => req
  asBytes (req ++ "Proxy-Connection: keep-alive\r\n\r\n".toList)

/-- The status code of an HTTP status line. -/
def parseHttpStatus (response : Bytes) : Option Nat := do
  let text ← fromUtf8 response
  let line ← (lines text).head?
  if startsWith "HTTP/1.".toList line then
    let field ← (splitWhitespace line)[1]?
    parseUnsigned 16 field
  else none

/-- The blank line that ends a head. -/
def crlfCrlf : Bytes := [13, 10, 13, 10]

/-- The accumulation loop: `buf` is what was read so far. -/
def readHead (buf : Bytes) (s : TcpStream) : Poll Bytes × TcpStream :=
  match _h : read 512 s with
  | (.err e, s') => (.err e, s')
  | (.pending, s') => (.pending, s')
  | (.panic, s') => (.panic, s')
  | (.ok [], s') => (.err ⟨.unexpectedEof, "proxy closed during CONNECT".toList⟩, s')
  | (.ok (b :: bs), s') =>
    let buf := buf ++ b :: bs
    if crlfCrlf.isSuffixOf buf then (.ok buf, s')
    else if buf.length > 65536 then (.err ⟨.invalidData, "HTTP CONNECT response headers too large".toList⟩, s')
    else readHead buf s'
termination_by s.unread.length
decreasing_by
  have := congrArg List.length (read_ok _h).1
  simp at this
  omega

/-- `http_connect`. -/
def httpConnect (cfg : ProxyConfig) (dest : Target) : Async TcpStream Unit := do
  writeAll (buildHttpConnectRequest base64 dest.hostString dest.port cfg.credentials)
  let buf ← readHead []
  match parseHttpStatus buf with
  | none => Async.fail ⟨.invalidData, "invalid HTTP CONNECT response".toList⟩
  | some status =>
    if status ≠ 200 then
      Async.fail (IoError.otherError ("HTTP CONNECT failed with status ".toList ++ showNat status))
    else pure ()

end Handshake

/-! ## The read loop -/

/-- One turn of the loop on a segment that fits the buffer. -/
theorem readHead_segment {buf seg : Bytes} {s : TcpStream} {rest : List Bytes} (hs : s.incoming = seg :: rest)
    (hne : seg ≠ []) (hle : seg.length ≤ 512) :
    readHead buf s =
      if crlfCrlf.isSuffixOf (buf ++ seg) then (.ok (buf ++ seg), { s with incoming := rest })
      else if (buf ++ seg).length > 65536 then
        (.err ⟨.invalidData, "HTTP CONNECT response headers too large".toList⟩, { s with incoming := rest })
      else readHead (buf ++ seg) { s with incoming := rest } := by
  obtain ⟨b, bs, rfl⟩ := List.exists_cons_of_ne_nil hne
  rw [readHead, read_segment hs hne hle]

theorem readHead_no_panic (buf : Bytes) : Async.NoPanic (readHead buf) := by
  intro s
  fun_induction readHead buf s with
  | case1 => simp
  | case2 => simp
  | case3 buf s s' h => exact absurd (by rw [h]) (read_no_panic 512 s)
  | case4 => simp
  | case5 => simp
  | case6 => simp
  | case7 => assumption

theorem httpConnect_no_panic (base64 : Bytes → Str) (cfg : ProxyConfig) (dest : Target) :
    Async.NoPanic (httpConnect base64 cfg dest) := by
  refine (writeAll_no_panic _).bind fun _ _ _ _ => (readHead_no_panic []).bind fun buf _ _ _ => ?_
  split
  · exact Async.noPanic_fail _
  · split
    · exact Async.noPanic_fail _
    · exact Async.noPanic_pure _

/-- The loop cannot succeed once the stream has nothing more to say. -/
theorem readHead_end {buf out : Bytes} {s t : TcpStream} (hs : s.incoming = []) : readHead buf s ≠ (.ok out, t) := by
  intro h
  rw [readHead] at h
  split at h
  · cases h
  · cases h
  · cases h
  · cases h
  · rename_i hr
    cases read_end hs hr

/-- The loop ends at a segment boundary, with everything before it in the buffer. -/
theorem readHead_ok_boundary {segs : List Bytes} {buf out : Bytes} {s t : TcpStream} (hs : s.incoming = segs)
    (hsz : ∀ seg ∈ segs, seg ≠ [] ∧ seg.length ≤ 512) (h : readHead buf s = (.ok out, t)) :
    ∃ k, t.incoming = segs.drop k ∧ out = buf ++ (segs.take k).flatten := by
  induction segs generalizing buf s with
  | nil => exact absurd h (readHead_end hs)
  | cons seg segs ih =>
    obtain ⟨hne, hle⟩ := hsz seg List.mem_cons_self
    rw [readHead_segment hs hne hle] at h
    split at h
    · cases h
      exact ⟨1, by simp, by simp⟩
    · split at h
      · cases h
      · obtain ⟨k, h1, h2⟩ := ih rfl (fun x hx => hsz x (List.mem_cons_of_mem _ hx)) h
        exact ⟨k + 1, by simpa using h1, by simpa using h2⟩

/-- A response head that accepts the tunnel: UTF-8, at most 65536 bytes, status 200, and its only blank line at its
end. -/
structure ResponseHead (head : Bytes) : Prop where
  size : head.length ≤ 65536
  ended : crlfCrlf <:+ head
  only : ∀ i < head.length, crlfCrlf <+: head.drop i → i + 4 = head.length
  utf8 : (fromUtf8 head).isSome
  status : parseHttpStatus head = some 200

/-- What has been read of a head before its end does not end with a blank line. -/
theorem ResponseHead.not_ended {head buf rest : Bytes} (hh : ResponseHead head) (hb : buf ++ rest = head)
    (hr : rest ≠ []) : crlfCrlf.isSuffixOf buf = false := by
  rw [Bool.eq_false_iff]
  intro hsuf
  obtain ⟨pre, rfl⟩ := List.isSuffixOf_iff_suffix.mp hsuf
  have hdrop : head.drop pre.length = crlfCrlf ++ rest := by rw [← hb, List.append_assoc, List.drop_left]
  have hlen : head.length = pre.length + 4 + rest.length := by rw [← hb]; simp [crlfCrlf]; omega
  have h4 := hh.only pre.length (by omega) (by rw [hdrop]; exact List.prefix_append _ _)
  have : rest.length = 0 := by omega
  exact hr (List.eq_nil_of_length_eq_zero this)

/-- The loop stops right after the head when a segment ends there. -/
theorem readHead_stops {head : Bytes} (hh : ResponseHead head) {tail : List Bytes} : ∀ {seg : Bytes} {segs : List Bytes}
    {buf : Bytes} {s : TcpStream}, s.incoming = (seg :: segs) ++ tail →
    (∀ x ∈ seg :: segs, x ≠ [] ∧ x.length ≤ 512) → buf ++ (seg :: segs).flatten = head →
    readHead buf s = (.ok head, { s with incoming := tail })
  | seg, [], buf, s, hs, hsz, hb => by
    obtain ⟨hne, hle⟩ := hsz seg List.mem_cons_self
    have hb' : buf ++ seg = head := by simpa using hb
    rw [@readHead_segment _ _ _ tail hs hne hle, hb', if_pos (List.isSuffixOf_iff_suffix.mpr hh.ended)]
  | seg, seg' :: segs, buf, s, hs, hsz, hb => by
    obtain ⟨hne, hle⟩ := hsz seg List.mem_cons_self
    have hb' : (buf ++ seg) ++ (seg' :: segs).flatten = head := by simpa using hb
    have hrest : (seg' :: segs).flatten ≠ [] := by
      have := (hsz seg' (by simp)).1
      simp [this]
    have hlen := congrArg List.length hb'
    have hsize := hh.size
    rw [@readHead_segment _ _ _ (seg' :: segs ++ tail) hs hne hle, hh.not_ended hb' hrest]
    rw [if_neg (by simp), if_neg (by simp at hlen ⊢; omega)]
    exact readHead_stops hh rfl (fun x hx => hsz x (List.mem_cons_of_mem _ hx)) hb'

/-! ## Segmentation -/

/-- A way to cut a byte string into reads: none is empty and each fits the 512-byte buffer. -/
structure Cuts (segs : List Bytes) (bs : Bytes) : Prop where
  joined : segs.flatten = bs
  sized : ∀ seg ∈ segs, seg ≠ [] ∧ seg.length ≤ 512

/-- A connection to a proxy that sends these segments and takes every write. -/
def answering (segs : List Bytes) (ending : Ending) : TcpStream := { incoming := segs, ending, writes := [], sent := [] }

/-- The handshake succeeds and leaves exactly the tunnel bytes to the relay. -/
def LeavesTunnel (base64 : Bytes → Str) (cfg : ProxyConfig) (dest : Target) (segs : List Bytes) (ending : Ending)
    (d : Bytes) : Prop :=
  (httpConnect base64 cfg dest (answering segs ending)).1 = .ok () ∧
    (httpConnect base64 cfg dest (answering segs ending)).2.unread = d

section Boundary

variable {base64 : Bytes → Str} {cfg : ProxyConfig} {dest : Target} {segs : List Bytes} {ending : Ending}

/-- The handshake succeeds exactly when the request is written and a head with status 200 is read. -/
theorem httpConnect_eq_ok {s t : TcpStream} :
    httpConnect base64 cfg dest s = (.ok (), t) ↔
      ∃ s' head, writeAll (buildHttpConnectRequest base64 dest.hostString dest.port cfg.credentials) s = (.ok (), s') ∧
        readHead [] s' = (.ok head, t) ∧ parseHttpStatus head = some 200 := by
  constructor
  · intro h
    obtain ⟨_, s', hw, h⟩ := Async.bind_eq_ok.mp h
    obtain ⟨head, t', hr, h⟩ := Async.bind_eq_ok.mp h
    cases hp : parseHttpStatus head with
    | none => rw [hp] at h; cases h
    | some status =>
      simp only [hp] at h
      split at h
      · cases h
      · next hs =>
        cases h
        exact ⟨s', head, hw, hr, hp.trans (congrArg some (Decidable.not_not.mp hs))⟩
  · rintro ⟨s', head, hw, hr, hst⟩
    refine Async.bind_eq_ok.mpr ⟨(), s', hw, ?_⟩
    refine Async.bind_eq_ok.mpr ⟨head, t, hr, ?_⟩
    simp [hst]

/-- A successful handshake is a successful read loop over what the proxy sends. -/
theorem httpConnect_ok {t : TcpStream} (h : httpConnect base64 cfg dest (answering segs ending) = (.ok (), t)) :
    ∃ s out, s.incoming = segs ∧ readHead [] s = (.ok out, t) := by
  obtain ⟨s, out, hw, hr, -⟩ := httpConnect_eq_ok.mp h
  refine ⟨s, out, ?_, hr⟩
  cases hw
  rfl

/-- **The handshake and segmentation.** For a head, tunnel bytes after it and any way to cut the two into reads, the
handshake succeeds and leaves exactly the tunnel bytes if and only if some read ends where the head ends. -/
theorem httpConnect_ok_iff_boundary {head d : Bytes} (hh : ResponseHead head) (hc : Cuts segs (head ++ d)) :
    LeavesTunnel base64 cfg dest segs ending d ↔ ∃ k, (segs.take k).flatten = head := by
  constructor
  · rintro ⟨hok, hun⟩
    obtain ⟨s, out, hs, hr⟩ := httpConnect_ok (Prod.ext hok rfl)
    obtain ⟨k, hk, -⟩ := readHead_ok_boundary hs hc.sized hr
    refine ⟨k, ?_⟩
    -- what the relay gets is what follows the boundary the loop stopped at
    have hd : (segs.drop k).flatten = d := by rw [← hun, unread, hk]
    have hj := hc.joined
    rw [← List.take_append_drop k segs, List.flatten_append, hd] at hj
    exact List.append_cancel_right hj
  · rintro ⟨k, hk⟩
    have hne : segs.take k ≠ [] := by
      intro h0
      rw [h0] at hk
      have := hh.ended
      simp [← hk, crlfCrlf] at this
    obtain ⟨seg, pre, hpre⟩ := List.exists_cons_of_ne_nil hne
    have hd : (segs.drop k).flatten = d := by
      have hj := hc.joined
      rw [← List.take_append_drop k segs, List.flatten_append, hk] at hj
      exact List.append_cancel_left hj
    have hr := @readHead_stops head hh (segs.drop k) seg pre []
      { answering segs ending with sent := [buildHttpConnectRequest base64 dest.hostString dest.port cfg.credentials] }
      (by rw [← hpre, List.take_append_drop]; rfl)
      (fun x hx => hc.sized x (List.mem_of_mem_take (by rw [hpre]; exact hx)))
      (by rw [← hpre]; simpa using hk)
    have hconn : httpConnect base64 cfg dest (answering segs ending) = (.ok (), _) :=
      httpConnect_eq_ok.mpr ⟨_, head, rfl, hr, hh.status⟩
    unfold LeavesTunnel
    rw [hconn]
    exact ⟨rfl, hd⟩

end Boundary

/-- The head that the proxies of the tests send. -/
def establishedHead : Bytes := asBytes "HTTP/1.1 200 Connection established\r\n\r\n".toList

theorem establishedHead_responseHead : ResponseHead establishedHead :=
  ⟨by decide, by decide, by decide, by decide, by decide⟩

/-- A server that speaks first is relayed when its first byte has a segment of its own. -/
theorem httpConnect_keeps_separate_segment :
    LeavesTunnel (fun _ => []) (.http "127.0.0.1".toList 8080) (.ip (.v4 (.new 1 2 3 4)) 443)
      [establishedHead, [0x16]] .stalled [0x16] :=
  (httpConnect_ok_iff_boundary establishedHead_responseHead ⟨by decide, by decide⟩).mpr ⟨1, by decide⟩

/-- The same byte in the segment of the head is swallowed, and the handshake waits for more. -/
theorem httpConnect_swallows_shared_segment :
    ResponseHead establishedHead ∧ Cuts [establishedHead ++ [0x16]] (establishedHead ++ [0x16]) ∧
      ¬ LeavesTunnel (fun _ => []) (.http "127.0.0.1".toList 8080) (.ip (.v4 (.new 1 2 3 4)) 443)
        [establishedHead ++ [0x16]] .stalled [0x16] := by
  refine ⟨establishedHead_responseHead, ⟨by decide, by decide⟩, ?_⟩
  unfold LeavesTunnel
  decide +kernel

end AceTun
