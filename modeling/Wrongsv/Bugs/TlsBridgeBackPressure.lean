import Wrongsv.L2Machine.TlsWrite

/-!
# A full TLS socket ends the bridge for HTTP/2

The socket is non-blocking for the reading side (server/handler/tls_relay.rs:43, 74-81).
`AnyTlsStream::write` gives the block to rustls and then flushes (anytls/lib.rs:163-177).
When the socket is full, `write` and `write_all` pass the `WouldBlock` on, though the block
was taken. The relay takes it for the end: it drops the connection with what is in the
queue, so a download that is faster than the client breaks off. `write` also reports the
whole buffer when rustls had room for a part of it.

Spec clause: the client decrypts the concatenation of the blocks, whatever the socket
refuses for a while.

Fix: on `WouldBlock` leave the queue for the next round of the loop, read no block until it
is flushed, and return from `write` what rustls took.
-/
namespace Wrongsv.Bugs.TlsBridgeBackPressure
open L2.TlsWrite List

/-- **What holds**, for all blocks and every behaviour of the socket: the client decrypts
the blocks if and only if each of them has room and its wire bytes leave before the
socket is full; a socket that always takes something is enough; and one that is full when
a block comes ends the relay. -/
theorem bridge_lossless_iff (layer : RecordLayer) (limit : Nat) (blocks : List Block)
    (pushes : List Push) : let r := tlsRelay layer limit blocks pushes .new
    (r.sender.received = (blocks.map Subtype.val).flatten ↔ Lossless layer limit 0 blocks pushes) ∧
    (Willing pushes → (∀ b ∈ blocks, b.val.length ≤ limit) →
      r.sender.received = (blocks.map Subtype.val).flatten) ∧
    (∀ (b : Block) (s : Sender), 0 < limit →
      (tlsRelay layer limit (b :: blocks) (.wouldBlock :: pushes) s).failed = true ∧
        (tlsRelay layer limit (b :: blocks) (.wouldBlock :: pushes) s).sender.received = s.received) := by
  intro r
  obtain ⟨hle, hfailed, hcontent⟩ : r.sender.taken.length + r.refused ≤ 0 + _ ∧ _ ∧ (_ → _ → r.sender.taken = [] ++ _) :=
    tlsRelay_spec blocks
  have hiff : r.sender.received = (blocks.map Subtype.val).flatten ↔ Lossless layer limit 0 blocks pushes := by
    have hnumbers : (r.failed = false ∧ r.refused = 0 ∧ r.sender.queue.val = []) ↔ Lossless layer limit 0 blocks pushes :=
      tlsRelay_lossless blocks pushes .new
    rw [← hnumbers]
    constructor
    · -- all bytes are received, so none are left for the queue or refused
      intro hreceived
      rw [Sender.taken, length_append, hreceived] at hle
      have hplain : r.sender.queue.plaintext = [] := List.length_eq_zero_iff.mp (by omega)
      refine ⟨?_, by omega, Wire.plaintext_eq_nil.mp hplain⟩
      cases hf : r.failed with
      | false => rfl
      | true => exact absurd hplain (hfailed hf)
    · rintro ⟨hfailed, hrefused, hqueue⟩
      have htaken := hcontent hfailed hrefused
      rw [Sender.taken, Wire.plaintext_eq_nil.mpr hqueue, append_nil] at htaken
      exact htaken
  exact ⟨hiff, fun hw hlimit => hiff.mpr (lossless_willing blocks hlimit hw),
    fun b s hlimit => tlsRelay_wouldBlock hlimit b blocks pushes s⟩

/-- One TLS 1.3 record for each piece of plaintext: 22 bytes more than the piece. -/
def oneRecord : RecordLayer where
  encode p := if h : p = [] then .empty else ⟨List.replicate (p.length + 21) [] ++ [p], fun u hu => by
    rw [List.getLast?_concat] at hu
    cases hu
    exact h⟩
  plaintext_encode p := by
    by_cases h : p = []
    · rw [dif_pos h, h]
      rfl
    · rw [dif_neg h]
      show (List.replicate (p.length + 21) [] ++ [p]).flatten = p
      rw [flatten_append, flatten_replicate_nil, nil_append, flatten_cons, flatten_nil,
        append_nil]

/-- **Counterexample**: two blocks of one byte, with the buffer limit of rustls.
The socket is full for one `write_tls`, at once or behind ten bytes of the first
record: the relay ends and the client decrypts nothing. -/
theorem full_socket_ends_relay :
    let blocks : List Block := [⟨[1], by decide⟩, ⟨[2], by decide⟩]
    let full := tlsRelay oneRecord 65536 blocks [.wouldBlock] .new
    let partly := tlsRelay oneRecord 65536 blocks [.accepts 10, .wouldBlock] .new
    (full.failed = true ∧ full.sender.received = [] ∧ full.sender.queue.val.length = 23) ∧
    (partly.failed = true ∧ partly.sender.received = [] ∧ partly.sender.queue.val.length = 13) := by
  decide +kernel

end Wrongsv.Bugs.TlsBridgeBackPressure
