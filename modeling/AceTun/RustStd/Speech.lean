import AceTun.Dialogue
import AceTun.RustStd.Stream

/-!
# Speech

Much of what is done over a connection is to say messages and to hear given numbers of bytes. Such a computation is a
tree (`Speech`), and what it has come to depends only on the bytes that have arrived (`Speech.after`, `Speech.run_after`):
neither on how they are cut nor, once it is done, on what arrives later (`Speech.after_append`). So it is a party of a
dialogue (`Speech.said_prefix_append`).
-/

namespace RustStd

open TcpStream

variable {α β : Type}

theorem Async.bind_assoc {σ γ : Type} (x : Async σ α) (f : α → Async σ β) (g : β → Async σ γ) :
    x >>= f >>= g = x >>= fun a => f a >>= g := by
  funext s
  change Async.bind (Async.bind x f) g s = Async.bind x (fun a => Async.bind (f a) g) s
  unfold Async.bind
  rcases x s with ⟨_ | _ | _ | _, t⟩ <;> rfl

theorem Async.bind_congr {σ : Type} {x : Async σ α} {f g : α → Async σ β} (h : ∀ a, f a = g a) : x >>= f = x >>= g := by
  rw [funext h]

theorem Async.bind_of_pending {σ : Type} {x : Async σ α} {f : α → Async σ β} {s s' : σ} (h : x s = (.pending, s')) :
    (x >>= f) s = (.pending, s') := by
  change Async.bind x f s = _
  rw [Async.bind, h]

namespace TcpStream

theorem readFrom_stalled (cap : Nat) {segs : List Bytes} (h : segs.flatten = []) :
    readFrom cap .stalled segs = (.pending, []) := by
  induction segs with
  | nil => rfl
  | cons seg segs ih =>
    obtain ⟨rfl, hrest⟩ := List.append_eq_nil_iff.mp h
    exact ih hrest

/-- On a peer that may still send, a read waits or takes something. -/
theorem read_stalled {cap : Nat} {s : TcpStream} (hs : s.ending = .stalled) (hc : cap ≠ 0) :
    (∃ t, read cap s = (.pending, t)) ∨ ∃ b bs t, read cap s = (.ok (b :: bs), t) := by
  by_cases hu : s.unread = []
  · refine .inl ⟨{ s with incoming := [] }, ?_⟩
    rw [read, hs, readFrom_stalled cap hu]
  · obtain ⟨b, bs, rest, hr⟩ := readFrom_unread s.ending hu hc
    refine .inr ⟨b, bs, { s with incoming := rest }, ?_⟩
    rw [read, hr]

/-- On a peer that may still send, too few bytes are waited for. -/
theorem readExact_stalled {n : Nat} {s : TcpStream} (hs : s.ending = .stalled) (hn : s.unread.length < n) :
    ∃ t, readExact n s = (.pending, t) ∧ OnlyRead s t := by
  fun_induction readExact n s with
  | case1 s => exact absurd hn (Nat.not_lt_zero _)
  | case2 n s h0 e s' h => simpa [h] using read_stalled hs h0
  | case3 n s h0 s' h => exact ⟨s', rfl, onlyRead_of_read h⟩
  | case4 n s h0 s' h => exact absurd (by rw [h]) (read_no_panic n s)
  | case5 n s h0 s' h => simpa [h] using read_stalled hs h0
  | case6 n s h0 b bs s' h more s'' hmore ih =>
    obtain ⟨hu, hle, -⟩ := read_ok h
    have hlen : s.unread.length = (b :: bs).length + s'.unread.length := by rw [← hu, List.length_append]
    obtain ⟨t, ht, -⟩ := ih (by rw [onlyRead_of_read h]; exact hs) (by omega)
    rw [hmore] at ht
    cases ht
  | case7 n s h0 b bs s' h hne ih =>
    obtain ⟨hu, hle, -⟩ := read_ok h
    have hlen : s.unread.length = (b :: bs).length + s'.unread.length := by rw [← hu, List.length_append]
    obtain ⟨t, ht, ho⟩ := ih (by rw [onlyRead_of_read h]; exact hs) (by omega)
    exact ⟨t, ht, (onlyRead_of_read h).trans ho⟩

end TcpStream

/-- A computation that says messages and hears given numbers of bytes. -/
inductive Speech (α : Type) where
  | done (a : α)
  | failed (e : IoError)
  | say (msg : Bytes) (next : Speech α)
  | hear (n : Nat) (next : Bytes → Speech α)

namespace Speech

def bind (x : Speech α) (f : α → Speech β) : Speech β :=
  match x with
  | done a => f a
  | failed e => failed e
  | say msg next => say msg (next.bind f)
  | hear n next => hear n fun bs => (next bs).bind f

instance : Monad Speech where
  pure := done
  bind := bind

/-- The computation over a connection. -/
def run : Speech α → Async TcpStream α
  | done a => pure a
  | failed e => Async.fail e
  | say msg next => do
    writeAll msg
    next.run
  | hear n next => do
    let bs ← readExact n
    (next bs).run

theorem run_bind (x : Speech α) (f : α → Speech β) : (x >>= f).run = x.run >>= fun a => (f a).run := by
  change (x.bind f).run = _
  induction x with
  | done a => rfl
  | failed e => rfl
  | say msg next ih => rw [bind, run, run, ih, Async.bind_assoc]
  | hear n next ih =>
    have hnext : (fun bs => ((next bs).bind f).run) = fun bs => (next bs).run >>= fun a => (f a).run := funext ih
    rw [bind, run, hnext, run]
    exact (Async.bind_assoc (readExact n) (fun bs => (next bs).run) fun a => (f a).run).symm

/-- What a computation has come to. -/
structure Turn (α : Type) where
  outcome : Poll α
  /-- What is left to be read, once it is done. -/
  rest : Bytes
  said : Bytes

/-- The same, with something said before. -/
def Turn.saying (msg : Bytes) (t : Turn α) : Turn α := { t with said := msg ++ t.said }

theorem Turn.saying_saying (msg msg' : Bytes) (t : Turn α) : (t.saying msg').saying msg = t.saying (msg ++ msg') := by
  simp [saying]

/-- What the computation has come to once it could hear `heard`, and the peer has neither ended the stream nor let a
message fail. -/
def after : Speech α → Bytes → Turn α
  | done a, heard => ⟨.ok a, heard, []⟩
  | failed e, heard => ⟨.err e, heard, []⟩
  | say msg next, heard => (next.after heard).saying msg
  | hear n next, heard => if n ≤ heard.length then (next (heard.take n)).after (heard.drop n) else ⟨.pending, [], []⟩

theorem after_hear_append {n : Nat} {next : Bytes → Speech α} (bs : Bytes) (h : bs.length = n) (rest : Bytes) :
    (hear n next).after (bs ++ rest) = (next bs).after rest := by
  subst h
  rw [after, if_pos (by rw [List.length_append]; omega), List.take_left, List.drop_left]

/-- **The computation does what it is said to.** -/
theorem run_after (x : Speech α) {s : TcpStream} (hs : s.ending = .stalled) (hw : s.writes = []) :
    ∃ t, x.run s = ((x.after s.unread).outcome, t) ∧ t.sent.flatten = s.sent.flatten ++ (x.after s.unread).said ∧
      ((x.after s.unread).outcome ≠ .pending → t.unread = (x.after s.unread).rest) := by
  induction x generalizing s with
  | done a => exact ⟨s, rfl, (List.append_nil _).symm, fun _ => rfl⟩
  | failed e => exact ⟨s, rfl, (List.append_nil _).symm, fun _ => rfl⟩
  | say msg next ih =>
    obtain ⟨t, hrun, hsent, hrest⟩ := ih (s := { s with sent := s.sent ++ [msg] }) hs hw
    refine ⟨t, (Async.bind_of_ok (a := ()) ?_).trans hrun, ?_, hrest⟩
    · rw [writeAll, hw]
    · rw [hsent]
      simp only [after, Turn.saying, List.flatten_append, List.flatten_singleton, List.append_assoc]
      rfl
  | hear n next ih =>
    rw [after]
    by_cases hn : n ≤ s.unread.length
    · rw [if_pos hn]
      obtain ⟨t, hread, hunread, honly⟩ := readExact_of_unread (List.take_append_drop n s.unread).symm
        (List.length_take_of_le hn)
      obtain ⟨u, hrun, hsent, hrest⟩ := ih (s.unread.take n) (s := t) (by rw [honly]; exact hs) (by rw [honly]; exact hw)
      rw [hunread] at hrun hsent hrest
      exact ⟨u, (Async.bind_of_ok hread).trans hrun, by rw [hsent, honly], hrest⟩
    · rw [if_neg hn]
      obtain ⟨t, hread, honly⟩ := readExact_stalled hs (Nat.lt_of_not_le hn)
      refine ⟨t, ?_, by rw [honly, List.append_nil], fun h => absurd rfl h⟩
      exact Async.bind_of_pending hread

/-- **What is done stays done**, and what arrives later is left. -/
theorem after_append (x : Speech α) (heard more : Bytes) :
    (x.after heard).outcome = .pending ∨
      x.after (heard ++ more) = { x.after heard with rest := (x.after heard).rest ++ more } := by
  induction x generalizing heard with
  | done a => exact .inr rfl
  | failed e => exact .inr rfl
  | say msg next ih =>
    rcases ih heard with h | h
    · exact .inl h
    · exact .inr (by rw [after, h, after]; rfl)
  | hear n next ih =>
    rw [after]
    by_cases hn : n ≤ heard.length
    · rw [if_pos hn, after, if_pos (by rw [List.length_append]; omega), List.take_append_of_le_length hn,
        List.drop_append_of_le_length hn]
      exact ih (heard.take n) (heard.drop n)
    · rw [if_neg hn]
      exact .inl rfl

/-- Hearing more, nothing is taken back. -/
theorem said_prefix_append (x : Speech α) (heard more : Bytes) :
    (x.after heard).said <+: (x.after (heard ++ more)).said := by
  induction x generalizing heard with
  | done a => exact List.prefix_rfl
  | failed e => exact List.prefix_rfl
  | say msg next ih => exact (List.prefix_append_right_inj msg).mpr (ih heard)
  | hear n next ih =>
    rw [after]
    by_cases hn : n ≤ heard.length
    · rw [if_pos hn, after, if_pos (by rw [List.length_append]; omega), List.take_append_of_le_length hn,
        List.drop_append_of_le_length hn]
      exact ih (heard.take n) (heard.drop n)
    · rw [if_neg hn]
      exact List.nil_prefix

end Speech

end RustStd
