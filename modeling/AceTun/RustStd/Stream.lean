import AceTun.RustStd.Utf8

/-!
# Async byte streams

A computation over a connection is a function of the connection's state (`Async`): it finishes with a value or an
`io::Error`, or it panics, or it never finishes (`Poll.pending`), which is what a timeout turns into an error.

A `TcpStream` is what its peer will do: the segments it sends, each of which one `read` can take at most, how the stream
ends after the last one, and which `write_all` calls fail. Reading moves bytes from the front of `unread` and nothing
else (`read_ok`), and a segment that fits into the buffer is read whole (`read_segment`).
-/

namespace RustStd

/-- `io::ErrorKind`, as far as the program makes or tests it. -/
inductive ErrorKind where
  | unexpectedEof
  | invalidData
  | timedOut
  | notConnected
  | notFound
  | alreadyExists
  | permissionDenied
  | connectionRefused
  | connectionReset
  | other
  deriving DecidableEq, Repr

/-- `io::Error`. -/
structure IoError where
  kind : ErrorKind
  message : Str
  deriving DecidableEq, Repr

/-- `io::Error::other`. -/
def IoError.otherError (message : Str) : IoError := ⟨.other, message⟩

/-- What an async call comes to. -/
inductive Poll (α : Type) where
  | ok (a : α)
  | err (e : IoError)
  | pending
  | panic
  deriving DecidableEq, Repr

/-- An async computation over a state `σ`. -/
def Async (σ α : Type) : Type := σ → Poll α × σ

namespace Async

variable {σ α β : Type}

/-- Run the first computation, then the second on its value; an error, a stall or a panic ends both. -/
def bind (x : Async σ α) (f : α → Async σ β) : Async σ β := fun s =>
  match x s with
  | (.ok a, s') => f a s'
  | (.err e, s') => (.err e, s')
  | (.pending, s') => (.pending, s')
  | (.panic, s') => (.panic, s')

instance : Monad (Async σ) where
  pure a := fun s => (.ok a, s)
  bind := bind

/-- Wait for a call. -/
def wait (p : Poll α) : Async σ α := fun s => (p, s)

/-- `match x.await { Ok(..) .. Err(..) .. }`: an error is a value to go on with. -/
def attempt (x : Async σ α) : Async σ (Except IoError α) := fun s =>
  match x s with
  | (.ok a, s') => (.ok (.ok a), s')
  | (.err e, s') => (.ok (.error e), s')
  | (.pending, s') => (.pending, s')
  | (.panic, s') => (.panic, s')

/-- `return Err(e)`. -/
def fail (e : IoError) : Async σ α := fun s => (.err e, s)

@[simp] theorem pure_apply (a : α) (s : σ) : (pure a : Async σ α) s = (.ok a, s) := rfl

/-- A sequence succeeds through both parts. -/
theorem bind_eq_ok {x : Async σ α} {f : α → Async σ β} {s t : σ} {b : β} :
    (x >>= f) s = (.ok b, t) ↔ ∃ a s', x s = (.ok a, s') ∧ f a s' = (.ok b, t) := by
  show bind x f s = _ ↔ _
  unfold bind
  rcases hx : x s with ⟨_ | _ | _ | _, s'⟩
  · constructor
    · intro h; exact ⟨_, s', rfl, h⟩
    · rintro ⟨a, s'', he, h⟩
      cases he
      exact h
  · simp
  · simp
  · simp

theorem bind_of_ok {x : Async σ α} {f : α → Async σ β} {s s' : σ} {a : α} (h : x s = (.ok a, s')) :
    (x >>= f) s = f a s' := by
  show bind x f s = _
  rw [bind, h]

theorem bind_of_err {x : Async σ α} {f : α → Async σ β} {s s' : σ} {e : IoError} (h : x s = (.err e, s')) :
    (x >>= f) s = (.err e, s') := by
  show bind x f s = _
  rw [bind, h]

/-- The rest is not run after a step that does not succeed. -/
theorem bind_snd_of_ne_ok {x : Async σ α} {f : α → Async σ β} {s : σ} (h : ∀ a, (x s).1 ≠ .ok a) :
    ((x >>= f) s).2 = (x s).2 := by
  change (bind x f s).2 = _
  unfold bind
  rcases hx : x s with ⟨a | _ | _ | _, s'⟩
  · rw [hx] at h; exact absurd rfl (h a)
  · rfl
  · rfl
  · rfl

theorem attempt_of_ok {x : Async σ α} {s s' : σ} {a : α} (h : x s = (.ok a, s')) :
    attempt x s = (.ok (.ok a), s') := by
  rw [attempt, h]

theorem attempt_of_err {x : Async σ α} {s s' : σ} {e : IoError} (h : x s = (.err e, s')) :
    attempt x s = (.ok (.error e), s') := by
  rw [attempt, h]

theorem bind_of_panic {x : Async σ α} {f : α → Async σ β} {s s' : σ} (h : x s = (.panic, s')) :
    (x >>= f) s = (.panic, s') := by
  show bind x f s = _
  rw [bind, h]

/-- A computation that panics on no state. -/
def NoPanic (x : Async σ α) : Prop := ∀ s, (x s).1 ≠ .panic

theorem noPanic_pure (a : α) : NoPanic (pure a : Async σ α) := fun _ h => by cases h

theorem noPanic_fail (e : IoError) : NoPanic (fail e : Async σ α) := fun _ h => by cases h

/-- A sequence does not panic when neither part does, the second on the values the first can give. -/
theorem NoPanic.bind {x : Async σ α} {f : α → Async σ β} (hx : NoPanic x)
    (hf : ∀ a s s', x s = (.ok a, s') → NoPanic (f a)) : NoPanic (x >>= f) := by
  intro s
  change (Async.bind x f s).1 ≠ _
  unfold Async.bind
  have hxs := hx s
  rcases he : x s with ⟨a | _ | _ | _, s'⟩
  · exact hf a s s' he s'
  · simp
  · simp
  · rw [he] at hxs; exact absurd rfl hxs

/-! ### Postconditions -/

/-- The computation does not panic; `good` holds of the value and the state it succeeds with, and `bad` of the state it
fails or stalls in. -/
def Ends (x : Async σ α) (s : σ) (good : α → σ → Prop) (bad : σ → Prop) : Prop :=
  match x s with
  | (.ok a, t) => good a t
  | (.err _, t) => bad t
  | (.pending, t) => bad t
  | (.panic, _) => False

section Ends

variable {x : Async σ α} {f : α → Async σ β} {s : σ} {good good' : α → σ → Prop} {bad bad' : σ → Prop}

theorem ends_pure {a : α} (h : good a s) : Ends (pure a) s good bad := h

theorem ends_fail {e : IoError} (h : bad s) : Ends (fail e) s good bad := h

theorem Ends.mono (h : Ends x s good bad) (hg : ∀ a t, good a t → good' a t) (hb : ∀ t, bad t → bad' t) :
    Ends x s good' bad' := by
  unfold Ends at h ⊢
  rcases hx : x s with ⟨a | _ | _ | _, t⟩ <;> rw [hx] at h
  · exact hg a t h
  · exact hb t h
  · exact hb t h
  · exact h

theorem Ends.of_ok (h : Ends x s good bad) {a : α} {t : σ} (hx : x s = (.ok a, t)) : good a t := by
  rw [Ends, hx] at h
  exact h

/-- What holds wherever the computation ends. -/
theorem Ends.always {last : σ → Prop} (h : Ends x s (fun _ => last) last) {p : Poll α} {t : σ} (hx : x s = (p, t)) :
    p ≠ .panic ∧ last t := by
  rw [Ends, hx] at h
  cases p with
  | ok a => exact ⟨by simp, h⟩
  | err e => exact ⟨by simp, h⟩
  | pending => exact ⟨by simp, h⟩
  | panic => exact h.elim

/-- In a sequence the second part starts where the first succeeded. -/
theorem Ends.bind {good : β → σ → Prop} (h : Ends x s (fun a t => Ends (f a) t good bad) bad) :
    Ends (x >>= f) s good bad := by
  change Ends (Async.bind x f) s good bad
  unfold Ends at h
  rcases hx : x s with ⟨a | _ | _ | _, t⟩ <;> rw [hx] at h <;> simp only [Ends, Async.bind, hx]
  · exact h
  · exact h
  · exact h
  · exact h

end Ends

end Async

/-- `tokio::time::timeout`: a call that does not finish, or not before the timer (`expired`), becomes the given error. -/
def timeout {α : Type} (e : IoError) (expired : Bool) : Poll α → Poll α
  | .pending => .err e
  | r => if expired then .err e else r

/-- A call under a timeout that does not panic has a value or an error. -/
theorem timeout_ends {α : Type} {e : IoError} {expired : Bool} {p : Poll α} (h : p ≠ .panic) :
    (∃ a, timeout e expired p = .ok a) ∨ ∃ e', timeout e expired p = .err e' := by
  cases p with
  | ok a => cases expired <;> simp [timeout]
  | err e => cases expired <;> simp [timeout]
  | pending => exact .inr ⟨e, rfl⟩
  | panic => exact absurd rfl h

/-- How a stream goes on after its last segment. -/
inductive Ending where
  | eof
  | failed (e : IoError)
  | stalled
  deriving DecidableEq, Repr

/-- A connection, by what the peer sends and by what was sent to it. -/
structure TcpStream where
  /-- What arrives, cut as it arrives. -/
  incoming : List Bytes
  ending : Ending
  /-- The outcome of the coming `write_all` calls; those past the list succeed. -/
  writes : List (Option IoError)
  /-- What was written, oldest first. -/
  sent : List Bytes
  deriving DecidableEq, Repr

namespace TcpStream

/-- The bytes that are still to be read. -/
def unread (s : TcpStream) : Bytes := s.incoming.flatten

/-- Read from segments: a segment that holds nothing wakes no reader. -/
def readFrom (cap : Nat) (ending : Ending) : List Bytes → Poll Bytes × List Bytes
  | [] =>
    match ending with
    | .eof => (.ok [], [])
    | .failed e => (.err e, [])
    | .stalled => (.pending, [])
  | [] :: rest => readFrom cap ending rest
  | (b :: bs) :: rest =>
    (.ok ((b :: bs).take cap), if (b :: bs).length ≤ cap then rest else (b :: bs).drop cap :: rest)

/-- `AsyncReadExt::read` into a buffer of `cap` bytes; no bytes mean the end of the stream. -/
def read (cap : Nat) : Async TcpStream Bytes := fun s =>
  ((readFrom cap s.ending s.incoming).1, { s with incoming := (readFrom cap s.ending s.incoming).2 })

/-- `AsyncWriteExt::write_all`. -/
def writeAll (bs : Bytes) : Async TcpStream Unit := fun s =>
  match s.writes with
  | some e :: rest => (.err e, { s with writes := rest })
  | none :: rest => (.ok (), { s with writes := rest, sent := s.sent ++ [bs] })
  | [] => (.ok (), { s with sent := s.sent ++ [bs] })

/-- A read takes a front part of what is unread. -/
theorem readFrom_ok {cap : Nat} {ending : Ending} : ∀ {segs rest : List Bytes} {bs : Bytes},
    readFrom cap ending segs = (.ok bs, rest) → bs ++ rest.flatten = segs.flatten ∧ bs.length ≤ cap
  | [], rest, bs, h => by
    cases ending <;> simp [readFrom] at h
    obtain ⟨rfl, rfl⟩ := h
    simp
  | [] :: segs, rest, bs, h => by
    have h' : readFrom cap ending segs = (.ok bs, rest) := h
    simpa using readFrom_ok h'
  | (b :: tl) :: segs, rest, bs, h => by
    simp only [readFrom, Prod.mk.injEq, Poll.ok.injEq] at h
    obtain ⟨rfl, rfl⟩ := h
    refine ⟨?_, List.length_take_le _ _⟩
    split
    · rename_i hle
      rw [List.take_of_length_le hle, List.flatten_cons]
    · rw [List.flatten_cons, List.flatten_cons, ← List.append_assoc, List.take_append_drop]

theorem readFrom_no_panic (cap : Nat) (ending : Ending) : ∀ segs, (readFrom cap ending segs).1 ≠ .panic
  | [] => by cases ending <;> simp [readFrom]
  | [] :: segs => readFrom_no_panic cap ending segs
  | (_ :: _) :: _ => by simp [readFrom]

theorem read_no_panic (cap : Nat) : Async.NoPanic (read cap) := fun s => readFrom_no_panic cap s.ending s.incoming

theorem writeAll_no_panic (bs : Bytes) : Async.NoPanic (writeAll bs) := by
  intro s
  unfold writeAll
  split <;> simp

/-- **Reading** moves bytes from the front of `unread` and changes nothing else. -/
theorem read_ok {cap : Nat} {s s' : TcpStream} {bs : Bytes} (h : read cap s = (.ok bs, s')) :
    bs ++ s'.unread = s.unread ∧ bs.length ≤ cap ∧ s' = { s with incoming := s'.incoming } := by
  obtain ⟨h1, rfl⟩ := Prod.mk.inj h
  have h2 : readFrom cap s.ending s.incoming = (.ok bs, (readFrom cap s.ending s.incoming).2) := Prod.ext h1 rfl
  obtain ⟨ha, hl⟩ := readFrom_ok h2
  exact ⟨ha, hl, rfl⟩

/-- Nothing is read once every segment is. -/
theorem read_end {cap : Nat} {s s' : TcpStream} {bs : Bytes} (hs : s.incoming = []) (h : read cap s = (.ok bs, s')) :
    bs = [] := by
  have hu := (read_ok h).1
  simp only [unread, hs, List.flatten_nil, List.append_eq_nil_iff] at hu
  exact hu.1

/-- A segment that fits is read whole. -/
theorem read_segment {cap : Nat} {s : TcpStream} {seg : Bytes} {rest : List Bytes} (hs : s.incoming = seg :: rest)
    (hne : seg ≠ []) (hle : seg.length ≤ cap) : read cap s = (.ok seg, { s with incoming := rest }) := by
  obtain ⟨b, bs, rfl⟩ := List.exists_cons_of_ne_nil hne
  simp only [read, hs, readFrom, if_pos hle, List.take_of_length_le hle]

/-- `AsyncReadExt::read_exact`: exactly `n` bytes, or the error of a stream that ends before. -/
def readExact (n : Nat) (s : TcpStream) : Poll Bytes × TcpStream :=
  if n = 0 then (.ok [], s)
  else
    match _h : read n s with
    | (.err e, s') => (.err e, s')
    | (.pending, s') => (.pending, s')
    | (.panic, s') => (.panic, s')
    | (.ok [], s') => (.err ⟨.unexpectedEof, "early eof".toList⟩, s')
    | (.ok (b :: bs), s') =>
      match readExact (n - (b :: bs).length) s' with
      | (.ok more, s'') => (.ok (b :: bs ++ more), s'')
      | r => r
termination_by n
decreasing_by
  have := (read_ok _h).2.1
  simp at this ⊢
  omega

/-- As long as something is unread, a read takes some of it. -/
theorem readFrom_unread {cap : Nat} (ending : Ending) {segs : List Bytes} (h : segs.flatten ≠ []) (hc : cap ≠ 0) :
    ∃ b bs rest, readFrom cap ending segs = (.ok (b :: bs), rest) := by
  induction segs with
  | nil => exact absurd rfl h
  | cons seg segs ih =>
    cases seg with
    | nil => exact ih (by simpa using h)
    | cons b bs =>
      obtain ⟨n, rfl⟩ := Nat.exists_eq_succ_of_ne_zero hc
      exact ⟨b, bs.take n, _, rfl⟩

theorem unread_eq_nil_of_read {cap : Nat} {s s' : TcpStream} {p : Poll Bytes} (h : read cap s = (p, s')) (hc : cap ≠ 0)
    (hp : ∀ b bs, p ≠ .ok (b :: bs)) : s.unread = [] := by
  by_contra hu
  obtain ⟨b, bs, rest, hr⟩ := readFrom_unread s.ending hu hc
  obtain ⟨rfl, -⟩ := Prod.mk.inj h
  exact hp b bs (by rw [hr])

/-- Nothing but `incoming` has changed. -/
def OnlyRead (s t : TcpStream) : Prop := t = { s with incoming := t.incoming }

theorem OnlyRead.trans {s t u : TcpStream} (h : OnlyRead s t) (h' : OnlyRead t u) : OnlyRead s u := by
  unfold OnlyRead at *
  rw [h', h]

theorem onlyRead_of_read {cap : Nat} {s s' : TcpStream} {p : Poll Bytes} (h : read cap s = (p, s')) : OnlyRead s s' := by
  obtain ⟨-, rfl⟩ := Prod.mk.inj h
  rfl

/-- **Reading exactly `n` bytes** takes the first `n` that are unread, however they are cut; it fails or stalls only if
there are fewer. -/
theorem readExact_ends (n : Nat) (s : TcpStream) :
    Async.Ends (readExact n) s
      (fun bs t => bs.length = n ∧ s.unread = bs ++ t.unread ∧ OnlyRead s t)
      (fun t => s.unread.length < n ∧ OnlyRead s t) := by
  unfold Async.Ends
  fun_induction readExact n s with
  | case1 s => exact ⟨rfl, rfl, rfl⟩
  | case2 n s hn e s' h =>
    have hu := unread_eq_nil_of_read h hn (by simp)
    exact ⟨by rw [hu]; exact Nat.pos_of_ne_zero hn, onlyRead_of_read h⟩
  | case3 n s hn s' h =>
    have hu := unread_eq_nil_of_read h hn (by simp)
    exact ⟨by rw [hu]; exact Nat.pos_of_ne_zero hn, onlyRead_of_read h⟩
  | case4 n s hn s' h => exact absurd (by rw [h]) (read_no_panic n s)
  | case5 n s hn s' h =>
    have hu := unread_eq_nil_of_read h hn (by simp)
    exact ⟨by rw [hu]; exact Nat.pos_of_ne_zero hn, onlyRead_of_read h⟩
  | case6 n s hn b bs s' h more s'' hmore ih =>
    obtain ⟨hu, hle, -⟩ := read_ok h
    rw [hmore] at ih
    obtain ⟨hlen, hu', ho⟩ := ih
    refine ⟨?_, ?_, (onlyRead_of_read h).trans ho⟩
    · rw [List.length_append, hlen]; omega
    · rw [← hu, hu', List.append_assoc]
  | case7 n s hn b bs s' h hne ih =>
    obtain ⟨hu, hle, -⟩ := read_ok h
    have hlen : s.unread.length = (b :: bs).length + s'.unread.length := by rw [← hu, List.length_append]
    rcases hr : readExact (n - (b :: bs).length) s' with ⟨a | _ | _ | _, t⟩ <;> rw [hr] at ih
    · exact absurd hr (hne a t)
    · exact ⟨by omega, (onlyRead_of_read h).trans ih.2⟩
    · exact ⟨by omega, (onlyRead_of_read h).trans ih.2⟩
    · exact ih

theorem readExact_of_unread {n : Nat} {s : TcpStream} {bs rest : Bytes} (h : s.unread = bs ++ rest)
    (hn : bs.length = n) : ∃ t, readExact n s = (.ok bs, t) ∧ t.unread = rest ∧ OnlyRead s t := by
  have hr := readExact_ends n s
  have hlen : ¬ s.unread.length < n := by rw [h, List.length_append]; omega
  unfold Async.Ends at hr
  rcases he : readExact n s with ⟨bs' | _ | _ | _, t⟩ <;> rw [he] at hr
  · obtain ⟨hl, hu, ho⟩ := hr
    obtain ⟨rfl, hrest⟩ := List.append_inj (h.symm.trans hu) (hn.trans hl.symm)
    exact ⟨t, rfl, hrest.symm, ho⟩
  · exact absurd hr.1 hlen
  · exact absurd hr.1 hlen
  · exact hr.elim

/-- The coming `n` calls of `write_all` succeed. -/
def Writable (n : Nat) (s : TcpStream) : Prop := ∀ w ∈ s.writes.take n, w = none

theorem writable_of_onlyRead {n : Nat} {s t : TcpStream} (h : OnlyRead s t) : t.Writable n ↔ s.Writable n := by
  rw [h, Writable, Writable]

/-- **Writing** adds one message, or none and fails. -/
theorem writeAll_ends (bs : Bytes) (s : TcpStream) :
    Async.Ends (writeAll bs) s
      (fun _ t => t.unread = s.unread ∧ t.sent = s.sent ++ [bs] ∧ ∀ n, t.Writable n → s.Writable (n + 1))
      (fun t => t.sent = s.sent) := by
  unfold Async.Ends writeAll
  rcases hw : s.writes with _ | ⟨_ | e, rest⟩
  · exact ⟨rfl, rfl, fun n _ => by simp [Writable, hw]⟩
  · refine ⟨rfl, rfl, fun n h => ?_⟩
    simpa [Writable, hw] using h
  · exact rfl

theorem writeAll_of_writable {n : Nat} {s : TcpStream} (bs : Bytes) (h : s.Writable (n + 1)) :
    ∃ t, writeAll bs s = (.ok (), t) ∧ t.unread = s.unread ∧ t.sent = s.sent ++ [bs] ∧ t.Writable n := by
  unfold writeAll
  rcases hw : s.writes with _ | ⟨_ | e, rest⟩
  · exact ⟨_, rfl, rfl, rfl, by simp [Writable]⟩
  · refine ⟨_, rfl, rfl, rfl, ?_⟩
    simpa [Writable, hw] using h
  · simp [Writable, hw] at h

end TcpStream

end RustStd
