import Wrongsv.L2Machine.TlsWrite

/-!
# `Write` of the TLS streams does not report what was written

`write` of `AnyTlsStream` (anytls/lib.rs:163-167) and, in the same words, of
`RealityTlsStream` (reality/tls.rs:71-75) gives the buffer to rustls, flushes, and returns
`buf.len()`, not the number of bytes rustls took; and a flush that fails is the result of
the call, though rustls has the bytes. A `WouldBlock` stands here for every error of the
socket.

What should hold (`Contract`): `Ok(n)` means that the first `n` bytes were taken, an error
that none were.

Fix: return what `writer().write` returned, and leave a `WouldBlock` to the next call.
-/
namespace Wrongsv.Bugs.TlsWriteContract
open L2.TlsWrite List

/-- The contract of `Write::write` for a call that turned `s` into `s'`. -/
def Contract (buf : Bytes) (s s' : Sender) : Except IoError Nat → Prop
  | .ok n => n ≤ buf.length ∧ s'.taken = s.taken ++ buf.take n
  | .error _ => s'.taken = s.taken

instance (buf : Bytes) (s s' : Sender) (r : Except IoError Nat) : Decidable (Contract buf s s' r) := by
  unfold Contract
  split <;> infer_instance

/-- How a call of `write` goes: how many bytes rustls takes, and what the socket does. -/
structure Attempt where
  accepted : Nat
  pushes : List Push
  deriving DecidableEq, Repr

/-- The attempt takes the whole buffer, or nothing if the queue it leaves meets a
`WouldBlock`. -/
def Attempt.Clean (layer : RecordLayer) (a : Attempt) (buf : Bytes) (s : Sender) : Prop :=
  a.accepted = if flushed (s.queue.append (layer.encode (buf.take a.accepted))).val.length a.pushes = none then 0
    else buf.length

/-- A call of `write` in a run. -/
structure Call where
  buf : Bytes
  before : Sender
  attempt : Attempt

/-- What the caller still has to write: everything after an error, and otherwise what is
behind the `n` bytes. -/
def remaining (buf : Bytes) : Except IoError Nat → Bytes
  | .ok n => buf.drop n
  | .error _ => buf

/-- `write_all` for each of the buffers, where the caller tries again after an error: the
calls, and the connection at the end unless there are too few attempts. -/
def sendAll (layer : RecordLayer) : List Attempt → List Bytes → Sender → List Call × Option Sender
  | [], buffers, s => ([], if ∀ b ∈ buffers, b = [] then some s else none)
  | a :: attempts, buffers, s =>
    match buffers.dropWhile (· = []) with
    | [] => ([], some s)
    | buf :: buffers =>
      let r := write layer a.accepted buf a.pushes s
      let run := sendAll layer attempts (remaining buf r.1 :: buffers) r.2.1
      (⟨buf, s, a⟩ :: run.1, run.2)

variable {layer : RecordLayer}

/-- Whatever a call returns, rustls has what it took. -/
theorem write_taken (layer : RecordLayer) (k : Nat) (buf : Bytes) (pushes : List Push) (s : Sender) :
    (write layer k buf pushes s).2.1.taken = s.taken ++ buf.take k ∧ (write layer k buf pushes s).1 =
      if flushed (s.queue.append (layer.encode (buf.take k))).val.length pushes = none then .error .wouldBlock
      else .ok buf.length := by
  have hnumbers := flush_flushed pushes ⟨s.received, s.queue.append (layer.encode (buf.take k))⟩
  unfold write
  cases hflush : flush pushes ⟨s.received, s.queue.append (layer.encode (buf.take k))⟩ with
  | mk r rest =>
    have htaken : rest.1.taken = s.taken ++ buf.take k := by
      rw [(flush_spec pushes hflush).1, Sender.taken, Wire.plaintext_append, layer.plaintext_encode, ← append_assoc]
      rfl
    rw [hflush] at hnumbers
    cases hf : flushed (s.queue.append (layer.encode (buf.take k))).val.length pushes with
    | none =>
      rw [hf] at hnumbers
      obtain ⟨s', rest', h⟩ := hnumbers
      cases h
      exact ⟨htaken, (if_pos rfl).symm⟩
    | some q =>
      rw [hf] at hnumbers
      obtain ⟨s', h, -⟩ := hnumbers
      cases h
      exact ⟨htaken, (if_neg (Option.some_ne_none q)).symm⟩

/-- **One call** keeps the contract exactly when the attempt is clean. -/
theorem contract_iff_clean {buf : Bytes} {a : Attempt} (haccepted : a.accepted ≤ buf.length) (s : Sender) :
    Contract buf s (write layer a.accepted buf a.pushes s).2.1 (write layer a.accepted buf a.pushes s).1 ↔
      a.Clean layer buf s := by
  obtain ⟨htaken, hresult⟩ := write_taken layer a.accepted buf a.pushes s
  unfold Attempt.Clean
  rw [hresult]
  split
  · show _ = _ ↔ _
    rw [htaken, append_right_eq_self, take_eq_nil_iff]
    refine ⟨fun h => h.elim id fun hbuf => ?_, .inl⟩
    rw [hbuf] at haccepted
    exact Nat.le_zero.mp haccepted
  · show _ ∧ _ = _ ↔ _
    rw [htaken, append_cancel_left_eq]
    refine ⟨fun h => ?_, fun h => ⟨Nat.le_refl _, by rw [h]⟩⟩
    have hlen := congrArg List.length h.2
    simp only [length_take] at hlen
    omega

theorem flatten_dropWhile_nil (buffers : List Bytes) :
    (buffers.dropWhile (· = [])).flatten = buffers.flatten := by
  induction buffers with
  | nil => rfl
  | cons b buffers ih => by_cases hb : b = [] <;> simp [hb, ih]

/-- A call that keeps the contract takes what the caller then leaves out. -/
theorem Contract.taken {buf : Bytes} {s s' : Sender} {r : Except IoError Nat}
    (h : Contract buf s s' r) : s'.taken ++ remaining buf r = s.taken ++ buf := by
  cases r with
  | error e => exact congrArg (· ++ buf) h
  | ok n =>
    show s'.taken ++ buf.drop n = _
    rw [h.2, append_assoc, take_append_drop]

/-- A run of clean attempts appends the buffers. -/
theorem sendAll_clean (attempts : List Attempt) {buffers : List Bytes} {s s' : Sender}
    (hclean : ∀ c ∈ (sendAll layer attempts buffers s).1,
      c.attempt.accepted ≤ c.buf.length ∧ c.attempt.Clean layer c.buf c.before)
    (h : (sendAll layer attempts buffers s).2 = some s') : s'.taken = s.taken ++ buffers.flatten := by
  fun_induction sendAll layer attempts buffers s with
  | case1 buffers s =>
    obtain ⟨hnil, heq⟩ := Option.ite_none_right_eq_some.mp h
    cases heq
    rw [List.flatten_eq_nil_iff.mpr hnil, append_nil]
  | case2 a attempts buffers s hnil =>
    cases h
    rw [← flatten_dropWhile_nil buffers, hnil, flatten_nil, append_nil]
  | case3 a attempts buffers s buf rest hrest r run ih =>
    obtain ⟨⟨haccepted, hfirst⟩, hlater⟩ := List.forall_mem_cons.mp hclean
    have hkept : Contract buf s r.2.1 r.1 := (contract_iff_clean haccepted s).mpr hfirst
    rw [ih hlater h, ← flatten_dropWhile_nil buffers, hrest, flatten_cons, flatten_cons, ←
      append_assoc, hkept.taken, append_assoc]

/-- **What holds**, for every behaviour of rustls and of the socket: a call keeps the
contract exactly when rustls takes the whole buffer and the socket the queue, or when the
socket is full and rustls takes nothing. A run of such calls appends the buffers. -/
theorem contract_iff (layer : RecordLayer) (buf : Bytes) (a : Attempt)
    (haccepted : a.accepted ≤ buf.length) (s : Sender) :
    let r := write layer a.accepted buf a.pushes s
    (Contract buf s r.2.1 r.1 ↔ a.Clean layer buf s) ∧
      ∀ attempts buffers s', (sendAll layer attempts buffers s).2 = some s' →
        (∀ c ∈ (sendAll layer attempts buffers s).1,
          c.attempt.accepted ≤ c.buf.length ∧ c.attempt.Clean layer c.buf c.before) →
        s'.taken = s.taken ++ buffers.flatten :=
  ⟨contract_iff_clean haccepted s, fun attempts _ _ h hclean => sendAll_clean attempts hclean h⟩

/-- One record for each piece of plaintext, as long as the piece. -/
def plainRecord : RecordLayer where
  encode p := ⟨p.map ([·]), fun u hu => by
    obtain ⟨b, -, rfl⟩ := List.mem_map.mp (List.mem_of_getLast? hu)
    exact cons_ne_nil b []⟩
  plaintext_encode p := by
    show (p.map ([·])).flatten = p
    rw [← flatMap_def]
    exact flatMap_singleton' p

/-- The socket takes two bytes and then the rest. -/
theorem contract_whole : (5 : Nat) ≤ 5 ∧ Contract [1, 2, 3, 4, 5] .new
    (write plainRecord 5 [1, 2, 3, 4, 5] [.accepts 2] .new).2.1 (write plainRecord 5 [1, 2, 3, 4, 5] [.accepts 2] .new).1 :=
  ⟨Nat.le_refl _, (contract_iff plainRecord [1, 2, 3, 4, 5] ⟨5, [.accepts 2]⟩ (Nat.le_refl _) .new).1.mpr rfl⟩

/-- **Counterexamples**: of two bytes rustls takes one, and the call reports two; the
socket is full for a moment, the call fails with both bytes taken, and the caller sends
them a second time. -/
theorem part_reported_whole :
    let part := write plainRecord 1 [1, 2] [] .new
    let full := write plainRecord 2 [1, 2] [.wouldBlock] .new
    let retried := sendAll plainRecord [⟨2, [.wouldBlock]⟩, ⟨2, []⟩] [[1, 2]] .new
    (part.1 = .ok 2 ∧ part.2.1.taken = [1] ∧ ¬ Contract [1, 2] .new part.2.1 part.1) ∧
    (full.1 = .error .wouldBlock ∧ full.2.1.taken = [1, 2] ∧ ¬ Contract [1, 2] .new full.2.1 full.1) ∧
    retried.2.map (·.taken) = some [1, 2, 1, 2] := by
  decide

end Wrongsv.Bugs.TlsWriteContract
