import AceTun.Proxy.Decode
import AceTun.RustStd.Speech

/-!
# A SOCKS5 session

The handshake against a proxy that keeps to RFC 1928 and RFC 1929, of which nothing else is known: which method it
takes, whom it lets in, what it answers to a request and what it sends afterwards are arbitrary (`Socks5Server`). The
two talk over a connection that may cut what is sent anywhere and delay it arbitrarily, and each answers what it has
heard so far.

The handshake says messages and hears given numbers of bytes (`socks5Connect_eq`), so it is a party of a dialogue, and so
is the proxy. Whatever the order of deliveries, the session ends, with the same result: the client is through exactly if
the proxy grants what the client wants, the request that the proxy has read is the client's, and what the proxy sends
after its answer is left for the tunnel (**`socks5_session_agrees`**).
-/

namespace AceTun

open RustStd Dialogue Transition

/-! ## The client -/

/-- How many bytes of a reply are still to be heard. -/
def drainSpeech (atyp : UInt8) : Speech Nat :=
  if atyp = SOCKS5_ATYP_IPV4 then .done (4 + 2)
  else if atyp = SOCKS5_ATYP_IPV6 then .done (16 + 2)
  else if atyp = SOCKS5_ATYP_DOMAIN then .hear 1 fun dlen => .done ((dlen.headD 0).toNat + 2)
  else .failed (IoError.otherError "unknown SOCKS5 ATYP in reply".toList)

def replySpeech : Speech Unit :=
  .hear 4 fun hdr =>
    if hdr.getD 0 0 ≠ SOCKS5_VERSION ∨ hdr.getD 1 0 ≠ 0x00 then
      .failed (IoError.otherError
        ("SOCKS5 CONNECT rejected (reply=".toList ++ showNat (hdr.getD 1 0).toNat ++ ")".toList))
    else drainSpeech (hdr.getD 3 0) >>= fun drain => .hear drain fun _ => .done ()

def requestSpeech (dest : Target) : Speech Unit :=
  match buildSocks5ConnectRequest dest with
  | .error e => .failed e
  | .ok msg => .say msg replySpeech

/-- The answer to the credentials. -/
def checkSpeech : Speech Unit :=
  .hear 2 fun ok =>
    if ok.getD 1 0 ≠ 0x00 then .failed (IoError.otherError "SOCKS5 authentication failed".toList) else .done ()

def userpassSpeech (cfg : ProxyConfig) : Speech Unit :=
  match cfg.credentials with
  | none => .failed (IoError.otherError "proxy requires auth but none configured".toList)
  | some (user, pass) =>
    match buildSocks5Userpass user pass with
    | .error e => .failed e
    | .ok msg => .say msg checkSpeech

def authSpeech (cfg : ProxyConfig) (method : UInt8) : Speech Unit :=
  if method = SOCKS5_AUTH_NONE then .done ()
  else if method = SOCKS5_AUTH_USERPASS then userpassSpeech cfg
  else .failed (IoError.otherError "no acceptable SOCKS5 auth method".toList)

def socks5Speech (cfg : ProxyConfig) (dest : Target) : Speech Unit :=
  .say (buildSocks5Greeting cfg.username.isSome) <| .hear 2 fun method =>
    if method.getD 0 0 ≠ SOCKS5_VERSION then .failed ⟨.invalidData, "bad SOCKS5 version".toList⟩
    else authSpeech cfg (method.getD 1 0) >>= fun _ => requestSpeech dest

/-- What is drained fits the scratch buffer. -/
theorem drain_eq (atyp : UInt8) :
    (do
      let drain ← replyDrain atyp
      let _ ← readScratch drain
      pure ()) = (drainSpeech atyp >>= fun drain => .hear drain fun _ => .done ()).run := by
  unfold replyDrain drainSpeech
  split
  · rfl
  · split
    · rfl
    · split
      · refine (Async.bind_assoc (TcpStream.readExact 1) _ _).trans ?_
        refine Async.bind_congr (x := TcpStream.readExact 1) fun dlen => ?_
        have hfits : readScratch ((dlen.headD 0).toNat + 2) = TcpStream.readExact ((dlen.headD 0).toNat + 2) := by
          have hlt := (dlen.headD 0).toNat_lt
          funext s
          exact if_pos (by omega)
        change readScratch ((dlen.headD 0).toNat + 2) >>= _ = _
        rw [hfits]
        rfl
      · rfl

theorem readSocks5Reply_eq : readSocks5Reply = replySpeech.run := by
  refine Async.bind_congr (x := TcpStream.readExact 4) fun hdr => ?_
  dsimp only
  by_cases hbad : hdr.getD 0 0 ≠ SOCKS5_VERSION ∨ hdr.getD 1 0 ≠ 0x00
  · rw [if_pos hbad, if_pos hbad]
    rfl
  · rw [if_neg hbad, if_neg hbad, drain_eq]

theorem socks5Authenticate_eq (cfg : ProxyConfig) (method : UInt8) :
    socks5Authenticate cfg method = (authSpeech cfg method).run := by
  unfold socks5Authenticate authSpeech
  split
  · rfl
  · split
    · unfold socks5Userpass userpassSpeech
      cases cfg.credentials with
      | none => rfl
      | some credentials =>
        obtain ⟨user, pass⟩ := credentials
        dsimp only
        cases buildSocks5Userpass user pass with
        | error e => rfl
        | ok msg =>
          refine Async.bind_congr (x := TcpStream.writeAll msg) fun _ => ?_
          refine Async.bind_congr (x := TcpStream.readExact 2) fun ok => ?_
          dsimp only
          split <;> rfl
    · rfl

theorem request_eq (dest : Target) :
    (do
      let msg ← orFail (buildSocks5ConnectRequest dest)
      TcpStream.writeAll msg
      readSocks5Reply) = (requestSpeech dest).run := by
  unfold requestSpeech
  cases buildSocks5ConnectRequest dest with
  | error e => rfl
  | ok msg =>
    refine Async.bind_congr (x := TcpStream.writeAll msg) fun _ => ?_
    exact readSocks5Reply_eq

/-- **The handshake is speech.** -/
theorem socks5Connect_eq (cfg : ProxyConfig) (dest : Target) : socks5Connect cfg dest = (socks5Speech cfg dest).run := by
  refine Async.bind_congr (x := TcpStream.writeAll _) fun _ => ?_
  refine Async.bind_congr (x := TcpStream.readExact 2) fun method => ?_
  dsimp only
  by_cases hbad : method.getD 0 0 ≠ SOCKS5_VERSION
  · rw [if_pos hbad, if_pos hbad]
    rfl
  · rw [if_neg hbad, if_neg hbad, Speech.run_bind, socks5Authenticate_eq]
    exact Async.bind_congr fun _ => request_eq dest

/-- The handshake once the proxy's bytes `heard` have arrived, and the proxy may send more. -/
def clientAfter (cfg : ProxyConfig) (dest : Target) (heard : Bytes) : Poll Unit × TcpStream :=
  socks5Connect cfg dest (answering [heard] .stalled)

theorem clientAfter_eq (cfg : ProxyConfig) (dest : Target) (heard : Bytes) :
    (clientAfter cfg dest heard).1 = ((socks5Speech cfg dest).after heard).outcome ∧
      (clientAfter cfg dest heard).2.sent.flatten = ((socks5Speech cfg dest).after heard).said ∧
      (((socks5Speech cfg dest).after heard).outcome ≠ .pending →
        (clientAfter cfg dest heard).2.unread = ((socks5Speech cfg dest).after heard).rest) := by
  have hunread : (answering [heard] .stalled).unread = heard := List.flatten_singleton
  obtain ⟨t, hrun, hsent, hrest⟩ := (socks5Speech cfg dest).run_after (s := answering [heard] .stalled) rfl rfl
  rw [hunread] at hrun hsent hrest
  rw [clientAfter, socks5Connect_eq, hrun]
  exact ⟨rfl, hsent, hrest⟩

/-- The client, as a party. -/
def client (cfg : ProxyConfig) (dest : Target) : Dialogue.Party UInt8 where
  said heard := (clientAfter cfg dest heard).2.sent.flatten
  mono := by
    rintro heard _ ⟨more, rfl⟩
    rw [(clientAfter_eq cfg dest heard).2.1, (clientAfter_eq cfg dest (heard ++ more)).2.1]
    exact Speech.said_prefix_append _ heard more

/-! ## The proxy -/

/-- The answer to a request: a code, and the bound address with its type and its port. -/
structure Answer where
  code : UInt8
  bound : Bytes
  formed : Reply ([5, 0, 0] ++ bound)

/-- A proxy that keeps to the protocol. -/
structure Socks5Server where
  /-- The method it takes, by those that are offered. -/
  choose : Bytes → UInt8
  /-- 0 if the credentials are right. -/
  check : Bytes → Bytes → UInt8
  answer : Socks5Request → Answer
  /-- What it sends once it has granted a request. -/
  data : Bytes

/-- A greeting: version 5, and the methods behind their number. -/
def decodeGreeting : Bytes → Option (Bytes × Bytes)
  | ver :: bs => if ver = 0x05 then takeField bs else none
  | [] => none

/-- What a proxy has said, and the request that it has answered. -/
structure Verdict where
  said : Bytes
  answered : Option Socks5Request

namespace Socks5Server

variable (server : Socks5Server)

/-- What is sent for a request. -/
def reply (req : Socks5Request) : Bytes :=
  [5, (server.answer req).code, 0] ++ (server.answer req).bound ++
    if (server.answer req).code = 0 then server.data else []

/-- The request is read and answered. -/
def serve (said bs : Bytes) : Verdict :=
  match decodeRequest bs with
  | none => ⟨said, none⟩
  | some (req, _) => ⟨said ++ server.reply req, some req⟩

/-- What the proxy has come to once it has heard something. -/
def after (heard : Bytes) : Verdict :=
  match decodeGreeting heard with
  | none => ⟨[], none⟩
  | some (methods, bs) =>
    if server.choose methods = 0x00 then server.serve [5, 0] bs
    else if server.choose methods = 0x02 then
      match decodeUserpass bs with
      | none => ⟨[5, 2], none⟩
      | some ((user, pass), bs) =>
        if server.check user pass = 0 then server.serve [5, 2, 1, 0] bs
        else ⟨[5, 2, 1, server.check user pass], none⟩
    else ⟨[5, server.choose methods], none⟩

end Socks5Server

/-- What is read of something stays read, and what follows is left. -/
def Stable {β : Type} (decode : Bytes → Option (β × Bytes)) : Prop :=
  ∀ bs rest v more, decode bs = some (v, rest) → decode (bs ++ more) = some (v, rest ++ more)

theorem stable_takeExactly (n : Nat) : Stable (takeExactly n) := by
  intro bs rest v more h
  rw [takeExactly, Option.ite_none_right_eq_some, Option.some.injEq, Prod.mk.injEq] at h
  obtain ⟨hn, rfl, rfl⟩ := h
  rw [takeExactly, if_pos (by rw [List.length_append]; omega), List.take_append_of_le_length hn,
    List.drop_append_of_le_length hn]

theorem stable_takeField : Stable takeField := by
  intro bs rest v more h
  cases bs with
  | nil => cases h
  | cons len bs => exact stable_takeExactly len.toNat bs rest v more h

theorem stable_takePort : Stable takePort := by
  intro bs rest v more h
  match bs, h with
  | _ :: _ :: _, h =>
    cases h
    rfl

theorem Stable.map {β γ : Type} {decode : Bytes → Option (β × Bytes)} (h : Stable decode) (f : β → γ) :
    Stable fun bs => (decode bs).map (Prod.map f id) := by
  intro bs rest v more hv
  obtain ⟨⟨w, rest'⟩, hw, he⟩ := Option.map_eq_some_iff.mp hv
  cases he
  exact Option.map_eq_some_iff.mpr ⟨(w, rest' ++ more), h _ _ _ more hw, rfl⟩

theorem stable_decodeAddress (atyp : UInt8) : Stable (decodeAddress atyp) := by
  have hnone : Stable fun _ => (none : Option (Socks5Address × Bytes)) := fun _ _ _ _ h => by cases h
  unfold decodeAddress
  split
  · exact (stable_takeExactly 4).map Socks5Address.ipv4
  · split
    · exact stable_takeField.map Socks5Address.domain
    · split
      · exact (stable_takeExactly 16).map Socks5Address.ipv6
      · exact hnone

theorem stable_decodeRequest : Stable decodeRequest := by
  intro bs rest v more h
  match bs, h with
  | ver :: cmd :: rsv :: atyp :: bs, h =>
    rw [decodeRequest, Option.ite_none_right_eq_some] at h
    obtain ⟨hhead, h⟩ := h
    obtain ⟨⟨address, bs₁⟩, haddress, h⟩ := Option.bind_eq_some_iff.mp h
    obtain ⟨⟨port, bs₂⟩, hport, h⟩ := Option.bind_eq_some_iff.mp h
    cases h
    simp only [List.cons_append]
    rw [decodeRequest, if_pos hhead]
    refine Option.bind_eq_some_iff.mpr ⟨_, stable_decodeAddress atyp _ _ _ more haddress, ?_⟩
    exact Option.bind_eq_some_iff.mpr ⟨_, stable_takePort _ _ _ more hport, rfl⟩

theorem stable_decodeUserpass : Stable decodeUserpass := by
  intro bs rest v more h
  cases bs with
  | nil => cases h
  | cons ver bs =>
    rw [decodeUserpass, Option.ite_none_right_eq_some] at h
    obtain ⟨hver, h⟩ := h
    obtain ⟨⟨user, bs₁⟩, huser, h⟩ := Option.bind_eq_some_iff.mp h
    obtain ⟨⟨pass, bs₂⟩, hpass, h⟩ := Option.bind_eq_some_iff.mp h
    cases h
    rw [List.cons_append, decodeUserpass, if_pos hver]
    refine Option.bind_eq_some_iff.mpr ⟨_, stable_takeField _ _ _ more huser, ?_⟩
    exact Option.bind_eq_some_iff.mpr ⟨_, stable_takeField _ _ _ more hpass, rfl⟩

theorem stable_decodeGreeting : Stable decodeGreeting := by
  intro bs rest v more h
  cases bs with
  | nil => cases h
  | cons ver bs =>
    rw [decodeGreeting, Option.ite_none_right_eq_some] at h
    rw [List.cons_append, decodeGreeting, if_pos h.1]
    exact stable_takeField _ _ _ more h.2

/-- The second verdict goes on from the first. -/
structure Verdict.Before (v w : Verdict) : Prop where
  said : v.said <+: w.said
  answered : ∀ req, v.answered = some req → w.answered = some req

namespace Socks5Server

variable (server : Socks5Server)

theorem serve_append (said bs more : Bytes) : (server.serve said bs).Before (server.serve said (bs ++ more)) := by
  unfold serve
  cases h : decodeRequest bs with
  | none =>
    refine ⟨?_, fun req h => by cases h⟩
    cases decodeRequest (bs ++ more) with
    | none => exact List.prefix_rfl
    | some req => exact List.prefix_append _ _
  | some req =>
    rw [stable_decodeRequest _ _ _ more h]
    exact ⟨List.prefix_rfl, fun _ h => h⟩

/-- What has been said so far is a front part of what is said in the end. -/
theorem prefix_serve (said bs : Bytes) : said <+: (server.serve said bs).said := by
  unfold serve
  cases decodeRequest bs with
  | none => exact List.prefix_rfl
  | some req => exact List.prefix_append _ _

theorem after_append (heard more : Bytes) : (server.after heard).Before (server.after (heard ++ more)) := by
  unfold after
  cases hg : decodeGreeting heard with
  | none => exact ⟨List.nil_prefix, fun req h => by cases h⟩
  | some read =>
    obtain ⟨methods, bs⟩ := read
    rw [stable_decodeGreeting _ _ _ more hg]
    dsimp only
    split
    · exact server.serve_append _ _ _
    · split
      · cases hu : decodeUserpass bs with
        | none =>
          refine ⟨?_, fun req h => by cases h⟩
          cases decodeUserpass (bs ++ more) with
          | none => exact List.prefix_rfl
          | some read =>
            dsimp only
            split
            · exact List.IsPrefix.trans ⟨[1, 0], rfl⟩ (server.prefix_serve _ _)
            · exact ⟨_, rfl⟩
        | some read =>
          rw [stable_decodeUserpass _ _ _ more hu]
          dsimp only
          split
          · exact server.serve_append _ _ _
          · exact ⟨List.prefix_rfl, fun _ h => h⟩
      · exact ⟨List.prefix_rfl, fun _ h => h⟩

/-- The proxy, as a party. -/
def party : Dialogue.Party UInt8 where
  said heard := (server.after heard).said
  mono := by
    rintro heard _ ⟨more, rfl⟩
    exact (server.after_append heard more).said

end Socks5Server

/-! ## The session -/

/-- The methods that the client offers. -/
def offeredMethods (cfg : ProxyConfig) : Bytes := (buildSocks5Greeting cfg.username.isSome).drop 2

/-- The request that the client wants to be read. -/
def wanted (dest : Target) : Socks5Request := ⟨SOCKS5_CMD_CONNECT, dest.address, dest.port⟩

/-- The proxy lets the client in: without credentials, or with those of the configuration. -/
inductive Socks5Server.Admits (server : Socks5Server) (cfg : ProxyConfig) : Prop where
  | noAuth (h : server.choose (offeredMethods cfg) = 0x00)
  | userpass {user pass : Str} (h : server.choose (offeredMethods cfg) = 0x02)
      (hcred : cfg.credentials = some (user, pass)) (huser : (asBytes user).length ≤ 255)
      (hpass : (asBytes pass).length ≤ 255) (hcheck : server.check (asBytes user) (asBytes pass) = 0)

/-- The proxy lets the client in and grants a request for the target, which can be made. -/
structure Socks5Server.Grants (server : Socks5Server) (cfg : ProxyConfig) (dest : Target) : Prop where
  admits : server.Admits cfg
  encodable : EncodableTarget dest
  granted : (server.answer (wanted dest)).code = 0

section Session

variable (cfg : ProxyConfig) (dest : Target) (server : Socks5Server)

theorem after_method (m : UInt8) (x : Bytes) :
    (socks5Speech cfg dest).after ([5, m] ++ x) =
      ((authSpeech cfg m >>= fun _ => requestSpeech dest).after x).saying
        (buildSocks5Greeting cfg.username.isSome) := by
  simp [socks5Speech, Speech.after, SOCKS5_VERSION]

theorem decodeGreeting_build (rest : Bytes) :
    decodeGreeting (buildSocks5Greeting cfg.username.isSome ++ rest) = some (offeredMethods cfg, rest) := by
  unfold offeredMethods
  cases cfg.username.isSome with
  | false => simp [buildSocks5Greeting, decodeGreeting, takeField, takeExactly, SOCKS5_VERSION]
  | true => simp [buildSocks5Greeting, decodeGreeting, takeField, takeExactly, SOCKS5_VERSION]

/-- Where both have come to the request: what follows is the request and its answer. -/
structure AtRequest (l r : Bytes) : Prop where
  held : Held (client cfg dest) server.party ⟨l, r⟩
  client : ∀ x, (socks5Speech cfg dest).after (l ++ x) = ((requestSpeech dest).after x).saying r
  server : ∀ y, server.after (r ++ y) = server.serve l y

/-- How a session ends. -/
structure Ended (last : Talk UInt8) : Prop where
  held : Held (client cfg dest) server.party last
  final : last.Final (client cfg dest) server.party
  answered : ∀ req, (server.after last.right).answered = some req → req = wanted dest
  granted : server.Grants cfg dest → ((socks5Speech cfg dest).after last.left).outcome = .ok () ∧
    ((socks5Speech cfg dest).after last.left).rest = server.data ∧
    (server.after last.right).answered = some (wanted dest)
  refused : ¬ server.Grants cfg dest → ∃ e, ((socks5Speech cfg dest).after last.left).outcome = .err e

variable {cfg dest server}

theorem client_said (heard : Bytes) :
    (client cfg dest).said heard = ((socks5Speech cfg dest).after heard).said :=
  (clientAfter_eq cfg dest heard).2.1

/-- The client gives up and the proxy has no more to say. -/
theorem ended_of_refused {l r : Bytes} (held : Held (client cfg dest) server.party ⟨l, r⟩) {e : IoError} {rest : Bytes}
    (hclient : (socks5Speech cfg dest).after l = ⟨.err e, rest, r⟩) (hserver : server.after r = ⟨l, none⟩)
    (hnot : ¬ server.Grants cfg dest) : Ended cfg dest server ⟨l, r⟩ where
  held := held
  final := ⟨congrArg Verdict.said hserver, (client_said l).trans (congrArg Speech.Turn.said hclient)⟩
  answered := fun req h => by
    rw [hserver] at h
    cases h
  granted := fun h => absurd h hnot
  refused := fun _ => ⟨e, congrArg Speech.Turn.outcome hclient⟩

theorem Answer.bound_cases (answer : Answer) :
    ∃ b, (answer.bound = 1 :: b ∧ b.length = 6) ∨ (answer.bound = 4 :: b ∧ b.length = 18) ∨
      ∃ n : UInt8, answer.bound = 3 :: n :: b ∧ b.length = n.toNat + 2 := by
  generalize hr : [5, 0, 0] ++ answer.bound = r
  have hformed : Reply r := hr ▸ answer.formed
  cases hformed with
  | ipv4 x b h => exact ⟨b, .inl ⟨by simpa using (List.cons.inj (List.cons.inj (List.cons.inj hr).2).2).2, h⟩⟩
  | ipv6 x b h => exact ⟨b, .inr (.inl ⟨by simpa using (List.cons.inj (List.cons.inj (List.cons.inj hr).2).2).2, h⟩)⟩
  | domain x n b h =>
    exact ⟨b, .inr (.inr ⟨n, by simpa using (List.cons.inj (List.cons.inj (List.cons.inj hr).2).2).2, h⟩)⟩

/-- A bound address is drained, whatever its type, and what follows is left. -/
theorem drain_after (answer : Answer) (rest : Bytes) : ∃ atyp tail, answer.bound = atyp :: tail ∧
    (drainSpeech atyp >>= fun drain => Speech.hear drain fun _ => Speech.done ()).after (tail ++ rest) =
      ⟨.ok (), rest, []⟩ := by
  obtain ⟨b, ⟨hb, hlen⟩ | ⟨hb, hlen⟩ | ⟨n, hb, hlen⟩⟩ := answer.bound_cases
  · exact ⟨1, b, hb, Speech.after_hear_append b hlen rest⟩
  · exact ⟨4, b, hb, Speech.after_hear_append b hlen rest⟩
  · exact ⟨3, n :: b, hb, (Speech.after_hear_append [n] rfl (b ++ rest)).trans
      (Speech.after_hear_append b hlen rest)⟩

/-- A reply that grants ends the handshake, and one that does not lets it fail. -/
theorem reply_after (answer : Answer) (rest : Bytes) :
    (answer.code = 0 → replySpeech.after ([5, answer.code, 0] ++ answer.bound ++ rest) = ⟨.ok (), rest, []⟩) ∧
    (answer.code ≠ 0 → ∃ e left, replySpeech.after ([5, answer.code, 0] ++ answer.bound ++ rest) = ⟨.err e, left, []⟩) := by
  obtain ⟨atyp, tail, hbound, hdrain⟩ := drain_after answer rest
  have hsplit : [5, answer.code, 0] ++ answer.bound ++ rest = [5, answer.code, 0, atyp] ++ (tail ++ rest) := by
    rw [hbound]
    simp
  rw [hsplit]
  constructor
  · intro hcode
    refine (Speech.after_hear_append [5, answer.code, 0, atyp] rfl (tail ++ rest)).trans ?_
    rw [if_neg (by simp [hcode, SOCKS5_VERSION])]
    exact hdrain
  · intro hcode
    refine ⟨IoError.otherError ("SOCKS5 CONNECT rejected (reply=".toList ++ showNat answer.code.toNat ++ ")".toList),
      tail ++ rest, (Speech.after_hear_append [5, answer.code, 0, atyp] rfl (tail ++ rest)).trans ?_⟩
    rw [if_pos (.inr hcode)]
    rfl

/-- From the request on, the session ends as the proxy answers. -/
theorem ended_of_atRequest {l r : Bytes} (h : AtRequest cfg dest server l r) (hadm : server.Admits cfg) :
    ∃ last, Ended cfg dest server last := by
  cases hmsg : buildSocks5ConnectRequest dest with
  | error e =>
    have hnot : ¬ server.Grants cfg dest := fun hg => by
      obtain ⟨msg, hmsg'⟩ := encodableTarget_iff.mp hg.encodable
      rw [hmsg] at hmsg'
      cases hmsg'
    have hclient : (socks5Speech cfg dest).after l = ⟨.err e, [], r⟩ := by
      rw [← List.append_nil l, h.client, requestSpeech, hmsg, Speech.after, Speech.Turn.saying, List.append_nil]
    have hserver : server.after r = ⟨l, none⟩ := by
      rw [← List.append_nil r, h.server]
      rfl
    exact ⟨_, ended_of_refused h.held hclient hserver hnot⟩
  | ok msg =>
    have hclient : ∀ x, (socks5Speech cfg dest).after (l ++ x) = (replySpeech.after x).saying (r ++ msg) := by
      intro x
      rw [h.client, requestSpeech, hmsg, Speech.after, Speech.Turn.saying_saying]
    have hserver : server.after (r ++ msg) = ⟨l ++ server.reply (wanted dest), some (wanted dest)⟩ := by
      have hread := decodeRequest_build hmsg []
      rw [List.append_nil] at hread
      rw [h.server, Socks5Server.serve, hread]
      rfl
    have hsays : (client cfg dest).said l = r ++ msg := by
      rw [client_said, ← List.append_nil l, hclient]
      exact List.append_nil _
    have hanswer := congrArg Verdict.said hserver
    have hheld := h.held.answer hsays hanswer
    obtain ⟨hgranted, hrefused⟩ := reply_after (server.answer (wanted dest))
      (if (server.answer (wanted dest)).code = 0 then server.data else [])
    by_cases hcode : (server.answer (wanted dest)).code = 0
    · have hend : (socks5Speech cfg dest).after (l ++ server.reply (wanted dest)) = ⟨.ok (), server.data, r ++ msg⟩ := by
        rw [hclient, Socks5Server.reply, hgranted hcode, if_pos hcode, Speech.Turn.saying, List.append_nil]
      have hgrants : server.Grants cfg dest := ⟨hadm, encodableTarget_iff.mpr ⟨msg, hmsg⟩, hcode⟩
      refine ⟨_, hheld, ⟨hanswer, (client_said _).trans (congrArg Speech.Turn.said hend)⟩, ?_, ?_, ?_⟩
      · intro req hreq
        rw [hserver] at hreq
        exact (Option.some.inj hreq).symm
      · exact fun _ => ⟨congrArg Speech.Turn.outcome hend, congrArg Speech.Turn.rest hend,
          congrArg Verdict.answered hserver⟩
      · exact fun hnot => absurd hgrants hnot
    · obtain ⟨e, left, hreply⟩ := hrefused hcode
      have hend : (socks5Speech cfg dest).after (l ++ server.reply (wanted dest)) = ⟨.err e, left, r ++ msg⟩ := by
        rw [hclient, Socks5Server.reply, hreply, Speech.Turn.saying, List.append_nil]
      refine ⟨_, hheld, ⟨hanswer, (client_said _).trans (congrArg Speech.Turn.said hend)⟩, ?_, ?_, ?_⟩
      · intro req hreq
        rw [hserver] at hreq
        exact (Option.some.inj hreq).symm
      · exact fun hg => absurd hg.granted hcode
      · exact fun _ => ⟨e, congrArg Speech.Turn.outcome hend⟩

/-- The greeting is answered with a method, whatever the client then says. -/
theorem server_after_greeting (rest : Bytes) :
    server.after (buildSocks5Greeting cfg.username.isSome ++ rest) =
      if server.choose (offeredMethods cfg) = 0x00 then server.serve [5, 0] rest
      else if server.choose (offeredMethods cfg) = 0x02 then
        match decodeUserpass rest with
        | none => ⟨[5, 2], none⟩
        | some ((user, pass), bs) =>
          if server.check user pass = 0 then server.serve [5, 2, 1, 0] bs
          else ⟨[5, 2, 1, server.check user pass], none⟩
      else ⟨[5, server.choose (offeredMethods cfg)], none⟩ := by
  rw [Socks5Server.after, decodeGreeting_build]

theorem held_greeting {m : UInt8} (h : server.after (buildSocks5Greeting cfg.username.isSome) = ⟨[5, m], none⟩) :
    Held (client cfg dest) server.party ⟨[5, m], buildSocks5Greeting cfg.username.isSome⟩ := by
  have hstart : Held (client cfg dest) server.party .start := ⟨[], rfl⟩
  refine hstart.answer ?_ (congrArg Verdict.said h)
  rw [client_said]
  exact List.append_nil _

theorem server_after_greeting_userpass (h : server.choose (offeredMethods cfg) = 0x02) (rest : Bytes) :
    server.after (buildSocks5Greeting cfg.username.isSome ++ rest) =
      match decodeUserpass rest with
      | none => ⟨[5, 2], none⟩
      | some ((user, pass), bs) =>
        if server.check user pass = 0 then server.serve [5, 2, 1, 0] bs
        else ⟨[5, 2, 1, server.check user pass], none⟩ := by
  have hne : server.choose (offeredMethods cfg) ≠ 0x00 := by
    rw [h]
    decide
  rw [server_after_greeting, if_neg hne, if_pos h]

/-- The client cannot do what the chosen method asks for. -/
theorem ended_of_method_failed {m : UInt8} {e : IoError} (hauth : authSpeech cfg m = .failed e)
    (hserver : server.after (buildSocks5Greeting cfg.username.isSome) = ⟨[5, m], none⟩)
    (hnot : ¬ server.Admits cfg) : ∃ last, Ended cfg dest server last := by
  have hclient : (socks5Speech cfg dest).after [5, m] = ⟨.err e, [], buildSocks5Greeting cfg.username.isSome⟩ := by
    refine (after_method cfg dest m []).trans ?_
    rw [hauth]
    exact congrArg (Speech.Turn.mk _ _) (List.append_nil _)
  exact ⟨_, ended_of_refused (held_greeting hserver) hclient hserver fun hg => hnot hg.admits⟩

theorem userpassSpeech_eq {user pass : Str} {msg : Bytes} (hcred : cfg.credentials = some (user, pass))
    (hmsg : buildSocks5Userpass user pass = .ok msg) : authSpeech cfg 2 = .say msg checkSpeech := by
  change userpassSpeech cfg = _
  rw [userpassSpeech, hcred]
  dsimp only
  rw [hmsg]

/-- Credentials that are not accepted end the handshake. -/
theorem check_after {x status : UInt8} (h : status ≠ 0) (next : Unit → Speech Unit) :
    (checkSpeech >>= next).after [x, status] =
      ⟨.err (IoError.otherError "SOCKS5 authentication failed".toList), [], []⟩ := by
  change (Speech.bind (if status ≠ 0 then _ else _) next).after [] = _
  rw [if_pos h]
  rfl

/-- The server that asks for credentials waits for them. -/
theorem server_awaits_userpass (h : server.choose (offeredMethods cfg) = 0x02) :
    server.after (buildSocks5Greeting cfg.username.isSome) = ⟨[5, 2], none⟩ := by
  rw [← List.append_nil (buildSocks5Greeting _), server_after_greeting_userpass h]
  rfl

/-- The credentials are sent, and checked. -/
theorem ended_of_userpass {user pass : Str} {msg : Bytes} (h : server.choose (offeredMethods cfg) = 0x02)
    (hcred : cfg.credentials = some (user, pass)) (hmsg : buildSocks5Userpass user pass = .ok msg) :
    ∃ last, Ended cfg dest server last := by
  have hserver : ∀ y, server.after (buildSocks5Greeting cfg.username.isSome ++ msg ++ y) =
      if server.check (asBytes user) (asBytes pass) = 0 then server.serve [5, 2, 1, 0] y
      else ⟨[5, 2, 1, server.check (asBytes user) (asBytes pass)], none⟩ := by
    intro y
    rw [List.append_assoc, server_after_greeting_userpass h, decodeUserpass_build hmsg]
  have hclient : ∀ x, (socks5Speech cfg dest).after ([5, 2] ++ x) =
      ((checkSpeech >>= fun _ => requestSpeech dest).after x).saying
        (buildSocks5Greeting cfg.username.isSome ++ msg) := by
    intro x
    rw [after_method, userpassSpeech_eq hcred hmsg, ← Speech.Turn.saying_saying]
    rfl
  have hheld : Held (client cfg dest) server.party ⟨[5, 2, 1, server.check (asBytes user) (asBytes pass)],
      buildSocks5Greeting cfg.username.isSome ++ msg⟩ := by
    refine (held_greeting (server_awaits_userpass h)).answer ?_ ?_
    · rw [client_said]
      exact (congrArg Speech.Turn.said (hclient [])).trans (List.append_nil _)
    · change (server.after _).said = _
      rw [← List.append_nil (buildSocks5Greeting _ ++ msg), hserver]
      split
      · next hcheck =>
        rw [hcheck]
        rfl
      · rfl
  by_cases hcheck : server.check (asBytes user) (asBytes pass) = 0
  · obtain ⟨huser, hpass⟩ := userpass_lengths hmsg
    rw [hcheck] at hheld
    refine ended_of_atRequest ⟨hheld, fun x => ?_, fun y => ?_⟩ (.userpass h hcred huser hpass hcheck)
    · exact hclient ([1, 0] ++ x)
    · rw [hserver, if_pos hcheck]
  · have hfailed := hclient [1, server.check (asBytes user) (asBytes pass)]
    rw [check_after hcheck, Speech.Turn.saying, List.append_nil] at hfailed
    refine ⟨_, ended_of_refused hheld hfailed ?_ fun hg => ?_⟩
    · rw [← List.append_nil (buildSocks5Greeting _ ++ msg), hserver, if_neg hcheck]
    · cases hg.admits with
      | noAuth h' =>
        rw [h] at h'
        cases h'
      | userpass _ hcred' _ _ hcheck' =>
        rw [hcred] at hcred'
        cases hcred'
        exact hcheck hcheck'

theorem exists_ended_userpass (h : server.choose (offeredMethods cfg) = 0x02) : ∃ last, Ended cfg dest server last := by
  have hno : server.Admits cfg → ∃ user pass msg, cfg.credentials = some (user, pass) ∧
      buildSocks5Userpass user pass = .ok msg := by
    intro hadm
    cases hadm with
    | noAuth h' =>
      rw [h] at h'
      cases h'
    | userpass _ hcred huser hpass =>
      obtain ⟨msg, hmsg⟩ := buildSocks5Userpass_isOk_iff.mpr ⟨huser, hpass⟩
      exact ⟨_, _, msg, hcred, hmsg⟩
  cases hcred : cfg.credentials with
  | none =>
    refine ended_of_method_failed (m := 2)
      (e := IoError.otherError "proxy requires auth but none configured".toList) ?_
      (server_awaits_userpass h) fun hadm => ?_
    · change userpassSpeech cfg = _
      rw [userpassSpeech, hcred]
    · obtain ⟨user, pass, msg, hcred', -⟩ := hno hadm
      rw [hcred] at hcred'
      cases hcred'
  | some credentials =>
    obtain ⟨user, pass⟩ := credentials
    cases hmsg : buildSocks5Userpass user pass with
    | error e =>
      refine ended_of_method_failed (m := 2) (e := e) ?_ (server_awaits_userpass h) fun hadm => ?_
      · change userpassSpeech cfg = _
        rw [userpassSpeech, hcred]
        dsimp only
        rw [hmsg]
      · obtain ⟨user', pass', msg, hcred', hmsg'⟩ := hno hadm
        rw [hcred] at hcred'
        cases hcred'
        rw [hmsg] at hmsg'
        cases hmsg'
    | ok msg => exact ended_of_userpass h hcred hmsg

/-- **Every session ends.** -/
theorem exists_ended (cfg : ProxyConfig) (dest : Target) (server : Socks5Server) :
    ∃ last, Ended cfg dest server last := by
  by_cases hopen : server.choose (offeredMethods cfg) = 0x00
  · have hserver : ∀ rest, server.after (buildSocks5Greeting cfg.username.isSome ++ rest) = server.serve [5, 0] rest := by
      intro rest
      rw [server_after_greeting, if_pos hopen]
    have hgreeting := hserver []
    rw [List.append_nil] at hgreeting
    exact ended_of_atRequest ⟨held_greeting hgreeting, after_method cfg dest 0, hserver⟩ (.noAuth hopen)
  · by_cases huserpass : server.choose (offeredMethods cfg) = 0x02
    · exact exists_ended_userpass huserpass
    · have hother : server.after (buildSocks5Greeting cfg.username.isSome) =
          ⟨[5, server.choose (offeredMethods cfg)], none⟩ := by
        rw [← List.append_nil (buildSocks5Greeting _), server_after_greeting, if_neg hopen, if_neg huserpass]
      refine ended_of_method_failed ((if_neg hopen).trans (if_neg huserpass)) hother fun hadm => ?_
      cases hadm with
      | noAuth h => exact hopen h
      | userpass h => exact huserpass h

end Session

/-- **A session ends, and both ends agree on how.** For every configuration, every target and every proxy that keeps to
the protocol there is one talk that every order of deliveries, of pieces of any size, leads on to, in at most as many
steps as bytes are said. On the way the handshake is waiting or has come to its last result already, and no request but
the client's is ever read. In the end the handshake has succeeded exactly if the proxy grants, and has failed
otherwise; if it has succeeded, the proxy has read the client's request and what is left unread is what the proxy sends
through the tunnel. -/
theorem socks5_session_agrees (cfg : ProxyConfig) (dest : Target) (server : Socks5Server) :
    ∃ last : Talk UInt8,
      (∀ ds t, exec (Dialogue.step (client cfg dest) server.party) .start ds = some t →
        (∃ rest, exec (Dialogue.step (client cfg dest) server.party) t rest = some last) ∧ ds.length ≤ last.size ∧
        ((clientAfter cfg dest t.left).1 = .pending ∨
          (clientAfter cfg dest t.left).1 = (clientAfter cfg dest last.left).1) ∧
        ∀ req, (server.after t.right).answered = some req → req = wanted dest) ∧
      (server.Grants cfg dest → (clientAfter cfg dest last.left).1 = .ok () ∧
        (clientAfter cfg dest last.left).2.unread = server.data ∧
        (server.after last.right).answered = some (wanted dest)) ∧
      (¬ server.Grants cfg dest → ∃ e, (clientAfter cfg dest last.left).1 = .err e) := by
  obtain ⟨last, hend⟩ := exists_ended cfg dest server
  obtain ⟨hpoll, -, hrest⟩ := clientAfter_eq cfg dest last.left
  refine ⟨last, fun ds t hrun => ?_, fun hg => ?_, fun hn => ?_⟩
  · obtain ⟨hbefore, hleads, hlen, -⟩ := settles hend.held hend.final hrun
    obtain ⟨more, hmore⟩ := hbefore.left
    obtain ⟨more', hmore'⟩ := hbefore.right
    refine ⟨hleads, hlen, ?_, fun req hreq => ?_⟩
    · rw [hpoll, (clientAfter_eq cfg dest t.left).1, ← hmore]
      rcases (socks5Speech cfg dest).after_append t.left more with hp | heq
      · exact .inl hp
      · exact .inr (by rw [heq])
    · refine hend.answered req ?_
      rw [← hmore']
      exact (server.after_append t.right more').answered req hreq
  · obtain ⟨hok, hdata, hanswered⟩ := hend.granted hg
    exact ⟨hpoll.trans hok, (hrest (by rw [hok]; simp)).trans hdata, hanswered⟩
  · obtain ⟨e, he⟩ := hend.refused hn
    exact ⟨e, hpoll.trans he⟩

/-- A proxy that asks for the credentials `u` and `p`, grants what goes to port 443, and then sends `Hi`. -/
def sampleProxy : Socks5Server where
  choose methods := if methods.contains 0x02 then 0x02 else 0xFF
  check user pass := if user == [117] && pass == [112] then 0 else 1
  answer req := ⟨if req.port = 443 then 0 else 2, [1, 0, 0, 0, 0, 0, 0], .ipv4 0 [0, 0, 0, 0, 0, 0] rfl⟩
  data := [72, 105]

/-- A configuration with these credentials. -/
def sampleLogin : ProxyConfig := (ProxyConfig.socks5 "127.0.0.1".toList 1080).withAuth "u".toList "p".toList

/-- The proxy grants a request for port 443 and the handshake leaves what it sends; it refuses one for port 80. -/
theorem socks5_session_agrees_sample :
    (∃ last : Talk UInt8, (clientAfter sampleLogin (.domain "a.b".toList 443) last.left).1 = .ok () ∧
      (clientAfter sampleLogin (.domain "a.b".toList 443) last.left).2.unread = [72, 105] ∧
      (sampleProxy.after last.right).answered = some (wanted (.domain "a.b".toList 443))) ∧
    ∃ (last : Talk UInt8) (e : IoError), (clientAfter sampleLogin (.domain "a.b".toList 80) last.left).1 = .err e := by
  have hgrants : sampleProxy.Grants sampleLogin (.domain "a.b".toList 443) :=
    ⟨@Socks5Server.Admits.userpass sampleProxy sampleLogin "u".toList "p".toList (by decide) rfl (by decide) (by decide)
      (by decide), ⟨by decide, by decide⟩, by decide⟩
  have hrefuses : ¬ sampleProxy.Grants sampleLogin (.domain "a.b".toList 80) := fun hg =>
    absurd hg.granted (by decide)
  obtain ⟨last, -, hgranted, -⟩ := socks5_session_agrees sampleLogin (.domain "a.b".toList 443) sampleProxy
  obtain ⟨last', -, -, hrefused⟩ := socks5_session_agrees sampleLogin (.domain "a.b".toList 80) sampleProxy
  exact ⟨⟨last, hgranted hgrants⟩, last', hrefused hrefuses⟩

end AceTun
