import AceTun.Proxy.Socks5

/-!
# The SOCKS5 conversation

What the proxy has to say for the handshake to succeed: a method and, after the credentials, their acceptance
(`Accepted`), then a reply (`Reply`). `socks5Connect` succeeds on exactly the streams that start with such a
conversation, however they are cut, and leaves unread exactly what follows it; on every stream, what it has said never
runs ahead of what it has heard (`Said`). All of this is **`socks5Connect_conversation`**.
-/

namespace AceTun

open RustStd RustStd.TcpStream

/-! ## Valid conversations -/

/-- The proxy's method `m` and its answer `a` to the credentials let the client go on, which sent `auth` in between. -/
inductive Accepted (cfg : ProxyConfig) : (m a : Bytes) → (auth : List Bytes) → Prop where
  | noAuth : Accepted cfg [5, 0] [] []
  | userpass {user pass : Str} {msg : Bytes} (x : UInt8) (huser : cfg.username = some user)
      (hpass : cfg.password = some pass) (hu : (asBytes user).length ≤ 255) (hp : (asBytes pass).length ≤ 255)
      (hmsg : buildSocks5Userpass user pass = .ok msg) : Accepted cfg [5, 2] [x, 0] [msg]

/-- The replies that accept a CONNECT request: the bound address may be of any kind. -/
inductive Reply : Bytes → Prop where
  | ipv4 (x : UInt8) (bound : Bytes) (h : bound.length = 6) : Reply ([5, 0, x, 1] ++ bound)
  | ipv6 (x : UInt8) (bound : Bytes) (h : bound.length = 18) : Reply ([5, 0, x, 4] ++ bound)
  | domain (x n : UInt8) (bound : Bytes) (h : bound.length = n.toNat + 2) : Reply ([5, 0, x, 3, n] ++ bound)

/-- A target that a CONNECT request can carry. -/
def EncodableTarget : Target → Prop
  | .ip _ _ => True
  | .domain host _ => host ≠ [] ∧ (asBytes host).length ≤ 255

/-- What the client may have said to a proxy that sends `heard`. -/
inductive Said (cfg : ProxyConfig) (dest : Target) (heard : Bytes) : List Bytes → Prop where
  | nothing : Said cfg dest heard []
  | greeting : Said cfg dest heard [buildSocks5Greeting cfg.username.isSome]
  | userpass {user pass : Str} {msg : Bytes} (hm : [5, 2] <+: heard) (huser : cfg.username = some user)
      (hpass : cfg.password = some pass) (hmsg : buildSocks5Userpass user pass = .ok msg) :
      Said cfg dest heard [buildSocks5Greeting cfg.username.isSome, msg]
  | request {m a : Bytes} {auth : List Bytes} {msg : Bytes} (hacc : Accepted cfg m a auth) (hma : m ++ a <+: heard)
      (hmsg : buildSocks5ConnectRequest dest = .ok msg) :
      Said cfg dest heard (buildSocks5Greeting cfg.username.isSome :: auth ++ [msg])

theorem encodableTarget_iff {dest : Target} : EncodableTarget dest ↔ ∃ msg, buildSocks5ConnectRequest dest = .ok msg := by
  rcases dest with ⟨ip, port⟩ | ⟨host, port⟩
  · cases ip with
    | v4 v4 => exact ⟨fun _ => ⟨_, rfl⟩, fun _ => trivial⟩
    | v6 v6 => exact ⟨fun _ => ⟨_, rfl⟩, fun _ => trivial⟩
  · simp only [EncodableTarget, buildSocks5ConnectRequest]
    split
    · rename_i h
      constructor
      · rintro ⟨hne, hle⟩
        rcases h with h | h
        · exact absurd h hne
        · omega
      · rintro ⟨msg, hmsg⟩
        cases hmsg
    · rename_i h
      exact ⟨fun _ => ⟨_, rfl⟩, fun _ => ⟨fun he => h (.inl he), by omega⟩⟩

theorem userpass_lengths {user pass : Str} {msg : Bytes} (h : buildSocks5Userpass user pass = .ok msg) :
    (asBytes user).length ≤ 255 ∧ (asBytes pass).length ≤ 255 := by
  unfold buildSocks5Userpass at h
  split at h
  · cases h
  · omega

theorem credentials_eq_some {cfg : ProxyConfig} {user pass : Str} :
    cfg.credentials = some (user, pass) ↔ cfg.username = some user ∧ cfg.password = some pass := by
  unfold ProxyConfig.credentials
  cases cfg.username <;> cases cfg.password <;> simp

/-! ## A valid conversation succeeds -/

/-- The end of a reply: what is left to drain is known. -/
theorem readSocks5Reply_of_drain {s : TcpStream} {x atyp : UInt8} {n : Nat} {tail bound rest : Bytes}
    (h : s.unread = [5, 0, x, atyp] ++ tail) (hn : bound.length = n) (hle : n ≤ 257)
    (hd : ∀ t, t.unread = tail → ∃ t', replyDrain atyp t = (.ok n, t') ∧ t'.unread = bound ++ rest ∧ OnlyRead t t') :
    ∃ t, readSocks5Reply s = (.ok (), t) ∧ t.unread = rest ∧ OnlyRead s t := by
  obtain ⟨s₁, h₁, hu₁, ho₁⟩ := readExact_of_unread h rfl
  obtain ⟨s₂, h₂, hu₂, ho₂⟩ := hd s₁ hu₁
  obtain ⟨s₃, h₃, hu₃, ho₃⟩ := readExact_of_unread hu₂ hn
  refine ⟨s₃, (Async.bind_of_ok h₁).trans ?_, hu₃, (ho₁.trans ho₂).trans ho₃⟩
  refine (congrFun (if_neg ?_) s₁).trans ((Async.bind_of_ok h₂).trans (Async.bind_of_ok (a := bound) ?_))
  · simp [SOCKS5_VERSION]
  · rw [readScratch, if_pos (by omega), h₃]

theorem readSocks5Reply_of_reply {s : TcpStream} {r rest : Bytes} (hr : Reply r) (h : s.unread = r ++ rest) :
    ∃ t, readSocks5Reply s = (.ok (), t) ∧ t.unread = rest ∧ OnlyRead s t := by
  cases hr with
  | ipv4 x bound hb =>
    rw [List.append_assoc] at h
    exact readSocks5Reply_of_drain h hb (by omega) fun t ht => ⟨t, rfl, ht, rfl⟩
  | ipv6 x bound hb =>
    rw [List.append_assoc] at h
    exact readSocks5Reply_of_drain h hb (by omega) fun t ht => ⟨t, rfl, ht, rfl⟩
  | domain x n bound hb =>
    have hlt := n.toNat_lt
    have h' : s.unread = [5, 0, x, 3] ++ ([n] ++ (bound ++ rest)) := by simpa using h
    refine readSocks5Reply_of_drain h' hb (by omega) fun t ht => ?_
    obtain ⟨t', hr, hu, ho⟩ := readExact_of_unread ht rfl
    exact ⟨t', Async.bind_of_ok hr, hu, ho⟩

theorem socks5Authenticate_of_accepted {cfg : ProxyConfig} {m a : Bytes} {auth : List Bytes}
    (hacc : Accepted cfg m a auth) {n : Nat} {s : TcpStream} {rest : Bytes} (h : s.unread = a ++ rest)
    (hw : s.Writable (n + auth.length)) :
    ∃ t, socks5Authenticate cfg (m.getD 1 0) s = (.ok (), t) ∧ t.unread = rest ∧ t.sent = s.sent ++ auth ∧
      t.Writable n := by
  cases hacc with
  | noAuth => exact ⟨s, rfl, h, (List.append_nil _).symm, hw⟩
  | @userpass user pass msg x huser hpass hu hp hmsg =>
    obtain ⟨s₁, h₁, hu₁, hs₁, hw₁⟩ := writeAll_of_writable msg hw
    obtain ⟨s₂, h₂, hu₂, ho₂⟩ := readExact_of_unread (hu₁.trans h) rfl
    refine ⟨s₂, ?_, hu₂, ?_, (writable_of_onlyRead ho₂).mpr hw₁⟩
    · change socks5Userpass cfg s = _
      have hc : cfg.credentials = some (user, pass) := credentials_eq_some.mpr ⟨huser, hpass⟩
      simp only [socks5Userpass, hc, hmsg, orFail]
      exact (Async.bind_of_ok rfl).trans ((Async.bind_of_ok h₁).trans (Async.bind_of_ok h₂))
    · rw [ho₂]
      exact hs₁

/-- **A valid conversation succeeds** as long as the writes do, leaving what follows it. -/
theorem socks5Connect_of_conversation {cfg : ProxyConfig} {dest : Target} {m a r rest msg : Bytes} {auth : List Bytes}
    {s : TcpStream} (hacc : Accepted cfg m a auth) (hr : Reply r) (hmsg : buildSocks5ConnectRequest dest = .ok msg)
    (h : s.unread = m ++ a ++ r ++ rest) (hw : s.Writable (auth.length + 2)) :
    ∃ t, socks5Connect cfg dest s = (.ok (), t) ∧ t.unread = rest ∧
      t.sent = s.sent ++ (buildSocks5Greeting cfg.username.isSome :: auth ++ [msg]) := by
  have hm : m.length = 2 ∧ m.getD 0 0 = SOCKS5_VERSION := by cases hacc <;> exact ⟨rfl, rfl⟩
  obtain ⟨s₁, h₁, hu₁, hs₁, hw₁⟩ := writeAll_of_writable (buildSocks5Greeting cfg.username.isSome) hw
  have hu : s₁.unread = m ++ (a ++ (r ++ rest)) := by rw [hu₁, h]; simp
  obtain ⟨s₂, h₂, hu₂, ho₂⟩ := readExact_of_unread hu hm.1
  rw [← writable_of_onlyRead ho₂, Nat.add_comm] at hw₁
  obtain ⟨s₃, h₃, hu₃, hs₃, hw₃⟩ := socks5Authenticate_of_accepted hacc hu₂ hw₁
  obtain ⟨s₄, h₄, hu₄, hs₄, -⟩ := writeAll_of_writable msg hw₃
  obtain ⟨s₅, h₅, hu₅, ho₅⟩ := readSocks5Reply_of_reply hr (hu₄.trans hu₃)
  refine ⟨s₅, ?_, hu₅, ?_⟩
  · refine (Async.bind_of_ok h₁).trans ((Async.bind_of_ok h₂).trans ?_)
    refine (congrFun (if_neg (not_not.mpr hm.2)) s₂).trans ((Async.bind_of_ok h₃).trans ?_)
    rw [hmsg]
    exact (Async.bind_of_ok rfl).trans ((Async.bind_of_ok h₄).trans h₅)
  · rw [ho₅, hs₄, hs₃, ho₂]
    simp [hs₁]

/-! ## Nothing else does -/

theorem length_two {bs : Bytes} (h : bs.length = 2) : bs = [bs.getD 0 0, bs.getD 1 0] := by
  obtain ⟨x, y, rfl⟩ := List.length_eq_two.mp h
  rfl

/-- What is drained completes a reply, and fits the scratch buffer. -/
theorem replyDrain_ends (atyp : UInt8) (s : TcpStream) :
    Async.Ends (replyDrain atyp) s
      (fun n t => OnlyRead s t ∧ n ≤ 257 ∧ ∃ head, s.unread = head ++ t.unread ∧
        ∀ x bound, bound.length = n → Reply ([5, 0, x, atyp] ++ (head ++ bound)))
      (OnlyRead s) := by
  unfold replyDrain
  split
  · subst atyp
    exact Async.ends_pure ⟨rfl, by omega, [], rfl, fun x bound h => .ipv4 x bound h⟩
  · split
    · subst atyp
      exact Async.ends_pure ⟨rfl, by omega, [], rfl, fun x bound h => .ipv6 x bound h⟩
    · split
      · subst atyp
        refine .bind ((readExact_ends 1 s).mono ?_ fun t h => h.2)
        rintro dlen t ⟨hl, hu, ho⟩
        obtain ⟨n, rfl⟩ := List.length_eq_one_iff.mp hl
        have hlt := n.toNat_lt
        exact Async.ends_pure ⟨ho, by simp only [List.headD_cons]; omega, [n], hu, fun x bound h => .domain x n bound h⟩
      · exact Async.ends_fail rfl

theorem readScratch_ends {n : Nat} (hle : n ≤ 270) (s : TcpStream) :
    Async.Ends (readScratch n) s
      (fun bs t => bs.length = n ∧ s.unread = bs ++ t.unread ∧ OnlyRead s t)
      (fun t => s.unread.length < n ∧ OnlyRead s t) := by
  have h : readScratch n = readExact n := funext fun s => if_pos hle
  rw [h]
  exact readExact_ends n s

theorem readSocks5Reply_ends (s : TcpStream) :
    Async.Ends readSocks5Reply s
      (fun _ t => OnlyRead s t ∧ ∃ r, Reply r ∧ s.unread = r ++ t.unread)
      (OnlyRead s) := by
  refine .bind ((readExact_ends 4 s).mono ?_ fun t h => h.2)
  rintro hdr s₁ ⟨hl, hu₁, ho₁⟩
  split
  · exact Async.ends_fail ho₁
  · rename_i hhdr
    refine .bind ((replyDrain_ends _ s₁).mono ?_ fun t h => ho₁.trans h)
    rintro n s₂ ⟨ho₂, hle, head, hu₂, hr⟩
    refine .bind ((readScratch_ends (by omega) s₂).mono ?_ fun t h => (ho₁.trans ho₂).trans h.2)
    rintro bound s₃ ⟨hb, hu₃, ho₃⟩
    refine Async.ends_pure ⟨(ho₁.trans ho₂).trans ho₃, hdr ++ (head ++ bound), ?_, ?_⟩
    · match hdr, hl with
      | [v, c, x, atyp], _ =>
        obtain ⟨rfl, rfl⟩ : v = 5 ∧ c = 0 := by simpa [SOCKS5_VERSION] using hhdr
        exact hr x bound hb
    · rw [hu₁, hu₂, hu₃]
      simp

theorem orFail_ends {msg : Except IoError Bytes} {s : TcpStream} {good : Bytes → TcpStream → Prop}
    {bad : TcpStream → Prop} (hg : ∀ bs, msg = .ok bs → good bs s) (hb : bad s) :
    Async.Ends (orFail msg) s good bad := by
  cases msg with
  | ok bs => exact Async.ends_pure (hg bs rfl)
  | error e => exact Async.ends_fail hb

/-- The credentials are sent whole, if they are sent at all. -/
theorem socks5Userpass_ends (cfg : ProxyConfig) (s : TcpStream) :
    Async.Ends (socks5Userpass cfg) s
      (fun _ t => ∃ a auth, Accepted cfg [5, 2] a auth ∧ s.unread = a ++ t.unread ∧ t.sent = s.sent ++ auth ∧
        ∀ n, t.Writable n → s.Writable (n + auth.length))
      (fun t => t.sent = s.sent ∨ ∃ user pass msg, cfg.username = some user ∧ cfg.password = some pass ∧
        buildSocks5Userpass user pass = .ok msg ∧ t.sent = s.sent ++ [msg]) := by
  unfold socks5Userpass
  split
  · exact Async.ends_fail (.inl rfl)
  · rename_i user pass hc
    obtain ⟨huser, hpass⟩ := credentials_eq_some.mp hc
    refine .bind (orFail_ends (fun msg hmsg => ?_) (.inl rfl))
    refine .bind ((writeAll_ends msg s).mono ?_ fun t h => .inl h)
    rintro - s₁ ⟨hu₁, hs₁, hw₁⟩
    have hsent : ∀ t, OnlyRead s₁ t → t.sent = s.sent ++ [msg] := fun t ho => by rw [ho, ← hs₁]
    refine .bind ((readExact_ends 2 s₁).mono ?_ fun t h => .inr ⟨user, pass, msg, huser, hpass, hmsg, hsent t h.2⟩)
    rintro ok s₂ ⟨hl, hu₂, ho₂⟩
    split
    · exact Async.ends_fail (.inr ⟨user, pass, msg, huser, hpass, hmsg, hsent s₂ ho₂⟩)
    · rename_i hok
      obtain ⟨hulen, hplen⟩ := userpass_lengths hmsg
      refine Async.ends_pure ⟨ok, [msg], ?_, hu₁.symm.trans hu₂, hsent s₂ ho₂, fun n h => ?_⟩
      · rw [length_two hl, not_not.mp hok]
        exact .userpass _ huser hpass hulen hplen hmsg
      · exact hw₁ n ((writable_of_onlyRead ho₂).mp h)

/-- Only the method that asks for credentials is given them. -/
theorem socks5Authenticate_ends (cfg : ProxyConfig) (method : UInt8) (s : TcpStream) :
    Async.Ends (socks5Authenticate cfg method) s
      (fun _ t => ∃ a auth, Accepted cfg [5, method] a auth ∧ s.unread = a ++ t.unread ∧ t.sent = s.sent ++ auth ∧
        ∀ n, t.Writable n → s.Writable (n + auth.length))
      (fun t => t.sent = s.sent ∨ method = 2 ∧ ∃ user pass msg, cfg.username = some user ∧ cfg.password = some pass ∧
        buildSocks5Userpass user pass = .ok msg ∧ t.sent = s.sent ++ [msg]) := by
  unfold socks5Authenticate
  split
  · subst method
    exact Async.ends_pure ⟨[], [], .noAuth, rfl, (List.append_nil _).symm, fun _ h => h⟩
  · split
    · subst method
      exact (socks5Userpass_ends cfg s).mono (fun _ _ h => h) fun _ h => h.imp_right fun h => ⟨rfl, h⟩
    · exact Async.ends_fail (.inl rfl)

/-- The request and its reply. -/
theorem request_ends (dest : Target) (s : TcpStream) :
    Async.Ends (do let msg ← orFail (buildSocks5ConnectRequest dest); writeAll msg; readSocks5Reply) s
      (fun _ t => ∃ r msg, Reply r ∧ buildSocks5ConnectRequest dest = .ok msg ∧ s.unread = r ++ t.unread ∧
        t.sent = s.sent ++ [msg] ∧ s.Writable 1)
      (fun t => t.sent = s.sent ∨ ∃ msg, buildSocks5ConnectRequest dest = .ok msg ∧ t.sent = s.sent ++ [msg]) := by
  refine .bind (orFail_ends (fun msg hmsg => ?_) (.inl rfl))
  refine .bind ((writeAll_ends msg s).mono ?_ fun t h => .inl h)
  rintro - s₁ ⟨hu₁, hs₁, hw₁⟩
  refine (readSocks5Reply_ends s₁).mono ?_ ?_
  · rintro - t ⟨ho, r, hr, hu⟩
    refine ⟨r, msg, hr, hmsg, hu₁.symm.trans hu, ?_, hw₁ 0 fun w hw => by simp at hw⟩
    rw [ho, ← hs₁]
  · intro t ho
    refine .inr ⟨msg, hmsg, ?_⟩
    rw [ho, ← hs₁]

theorem said_of_accepted {cfg : ProxyConfig} {dest : Target} {m a heard : Bytes} {auth : List Bytes}
    (hacc : Accepted cfg m a auth) (hm : m <+: heard) :
    Said cfg dest heard (buildSocks5Greeting cfg.username.isSome :: auth) := by
  cases hacc with
  | noAuth => exact .greeting
  | userpass x huser hpass hu hp hmsg => exact .userpass hm huser hpass hmsg

/-- **A success is a valid conversation**, and before it the client says no more than it may. -/
theorem socks5Connect_ends (cfg : ProxyConfig) (dest : Target) (s : TcpStream) :
    Async.Ends (socks5Connect cfg dest) s
      (fun _ t => ∃ m a auth r msg, Accepted cfg m a auth ∧ Reply r ∧ buildSocks5ConnectRequest dest = .ok msg ∧
        s.unread = m ++ a ++ r ++ t.unread ∧ s.Writable (auth.length + 2) ∧
        t.sent = s.sent ++ (buildSocks5Greeting cfg.username.isSome :: auth ++ [msg]))
      (fun t => ∃ msgs, t.sent = s.sent ++ msgs ∧ Said cfg dest s.unread msgs) := by
  refine .bind ((writeAll_ends _ s).mono ?_ fun t h => ⟨[], h.trans (List.append_nil _).symm, .nothing⟩)
  rintro - s₁ ⟨hu₁, hs₁, hw₁⟩
  have hgreeting : ∀ t : TcpStream, t.sent = s₁.sent → ∃ msgs, t.sent = s.sent ++ msgs ∧ Said cfg dest s.unread msgs :=
    fun t h => ⟨_, h.trans hs₁, .greeting⟩
  refine .bind ((readExact_ends 2 s₁).mono ?_ fun t h => hgreeting t (by rw [h.2]))
  rintro method s₂ ⟨hl, hu₂, ho₂⟩
  have hs₂ : s₂.sent = s₁.sent := by rw [ho₂]
  split
  · exact Async.ends_fail (hgreeting s₂ hs₂)
  · rename_i hversion
    have hm : method = [5, method.getD 1 0] := by
      conv_lhs => rw [length_two hl, not_not.mp hversion]
      rfl
    rw [hu₁, hm] at hu₂
    refine .bind ((socks5Authenticate_ends cfg _ s₂).mono ?_ ?_)
    · rintro - s₃ ⟨a, auth, hacc, hu₃, hs₃, hw₃⟩
      have hs : s₃.sent = s.sent ++ (buildSocks5Greeting cfg.username.isSome :: auth) := by rw [hs₃, hs₂, hs₁]; simp
      have hu : s.unread = [5, method.getD 1 0] ++ a ++ s₃.unread := by rw [hu₂, hu₃]; simp
      refine (request_ends dest s₃).mono ?_ ?_
      · rintro - t ⟨r, msg, hr, hmsg, hu₄, hs₄, hw₄⟩
        refine ⟨_, a, auth, r, msg, hacc, hr, hmsg, ?_, ?_, ?_⟩
        · rw [hu, hu₄]; simp
        · rw [show auth.length + 2 = 1 + auth.length + 1 by omega]
          exact hw₁ _ ((writable_of_onlyRead ho₂).mp (hw₃ 1 hw₄))
        · rw [hs₄, hs]; simp
      · rintro t (h | ⟨msg, hmsg, h⟩)
        · exact ⟨_, h.trans hs, said_of_accepted hacc ⟨_, hu₂.symm⟩⟩
        · refine ⟨_, ?_, .request hacc ⟨_, hu.symm⟩ hmsg⟩
          rw [h, hs]; simp
    · rintro t (h | ⟨hmethod, user, pass, msg, huser, hpass, hmsg, hs⟩)
      · exact hgreeting t (h.trans hs₂)
      · refine ⟨_, ?_, .userpass ?_ huser hpass hmsg⟩
        · rw [hs, hs₂, hs₁]; simp
        · rw [hu₂, hmethod]
          exact List.prefix_append ..

/-- The handshake panics on no stream: what it drains always fits the scratch buffer. -/
theorem socks5Connect_no_panic (cfg : ProxyConfig) (dest : Target) : Async.NoPanic (socks5Connect cfg dest) := by
  intro s
  have h : Async.Ends (socks5Connect cfg dest) s (fun _ _ => True) fun _ => True :=
    (socks5Connect_ends cfg dest s).mono (fun _ _ _ => trivial) fun _ _ => trivial
  exact (h.always rfl).1

/-- A stream starts with at most one valid conversation: the handshake on it has one outcome. -/
theorem conversation_unique {cfg : ProxyConfig} {dest : Target} {m a r rest m' a' r' rest' msg : Bytes}
    {auth auth' : List Bytes} (hmsg : buildSocks5ConnectRequest dest = .ok msg) (hacc : Accepted cfg m a auth)
    (hr : Reply r) (hacc' : Accepted cfg m' a' auth') (hr' : Reply r')
    (h : m ++ a ++ r ++ rest = m' ++ a' ++ r' ++ rest') : rest = rest' ∧ auth = auth' := by
  let s : TcpStream := ⟨[m ++ a ++ r ++ rest], .eof, [], []⟩
  have hs : s.unread = m ++ a ++ r ++ rest := List.flatten_singleton ..
  have hw : ∀ n, s.Writable n := fun n w hw => by simp [s] at hw
  obtain ⟨t, ht, hrest, hsent⟩ := socks5Connect_of_conversation hacc hr hmsg hs (hw _)
  obtain ⟨t', ht', hrest', hsent'⟩ := socks5Connect_of_conversation hacc' hr' hmsg (hs.trans h) (hw _)
  obtain ⟨-, rfl⟩ := Prod.mk.inj (ht.symm.trans ht')
  refine ⟨hrest.symm.trans hrest', ?_⟩
  simpa using hsent.symm.trans hsent'

/-- **The handshake accepts exactly the valid conversations**, as far as its writes succeed, and takes exactly their
bytes: what follows is left unread. Whatever the proxy sends, and however its stream ends, nothing panics, the
credentials are said only to a proxy that chose them, and the request only to one that accepted the client. -/
theorem socks5Connect_conversation (cfg : ProxyConfig) (dest : Target) (s : TcpStream) :
    ((∃ t, socks5Connect cfg dest s = (.ok (), t)) ↔
      EncodableTarget dest ∧ ∃ m a auth r rest, Accepted cfg m a auth ∧ Reply r ∧ s.unread = m ++ a ++ r ++ rest ∧
        s.Writable (auth.length + 2)) ∧
    (∀ t, socks5Connect cfg dest s = (.ok (), t) → ∀ m a auth r rest, Accepted cfg m a auth → Reply r →
      s.unread = m ++ a ++ r ++ rest → t.unread = rest ∧ ∃ msg, buildSocks5ConnectRequest dest = .ok msg ∧
        t.sent = s.sent ++ (buildSocks5Greeting cfg.username.isSome :: auth ++ [msg])) ∧
    ∀ p t, socks5Connect cfg dest s = (p, t) → p ≠ .panic ∧ ∃ msgs, t.sent = s.sent ++ msgs ∧
      Said cfg dest s.unread msgs := by
  have hends := socks5Connect_ends cfg dest s
  refine ⟨⟨?_, ?_⟩, ?_, ?_⟩
  · rintro ⟨t, ht⟩
    obtain ⟨m, a, auth, r, msg, hacc, hr, hmsg, hu, hw, -⟩ := hends.of_ok ht
    exact ⟨encodableTarget_iff.mpr ⟨msg, hmsg⟩, m, a, auth, r, t.unread, hacc, hr, hu, hw⟩
  · rintro ⟨hdest, m, a, auth, r, rest, hacc, hr, hu, hw⟩
    obtain ⟨msg, hmsg⟩ := encodableTarget_iff.mp hdest
    obtain ⟨t, ht, -⟩ := socks5Connect_of_conversation hacc hr hmsg hu hw
    exact ⟨t, ht⟩
  · intro t ht m a auth r rest hacc hr hu
    obtain ⟨m', a', auth', r', msg, hacc', hr', hmsg, hu', -, hs⟩ := hends.of_ok ht
    obtain ⟨rfl, rfl⟩ := conversation_unique hmsg hacc hr hacc' hr' (hu.symm.trans hu')
    exact ⟨rfl, msg, hmsg, hs⟩
  · intro p t ht
    refine (hends.mono ?_ fun t h => h).always ht
    rintro - t ⟨m, a, auth, r, msg, hacc, hr, hmsg, hu, -, hs⟩
    exact ⟨_, hs, .request hacc ⟨r ++ t.unread, by rw [hu]; simp⟩ hmsg⟩

end AceTun
