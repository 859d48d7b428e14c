import Wrongsv.L2Machine.Vision.Reader

/-!
# Vision reader: bytes held back for the UUID

While a direction has not seen a UUID, `xtls_unpadding` (vless/vision.rs:184-212) decides on
every read anew whether one starts here. A read that agrees with the UUID so far is kept in
`initial_buffer`. The bytes come back only with a later read that differs, and then in one
piece:

* at EOF they are dropped (vision.rs:402-405);
* `read` copies at most the caller's buffer and drops the rest (:451-453);
* if later reads complete the UUID, what follows is decoded as a frame.

A stream that is not framed passes through exactly under the schedules that are `Clean`.
-/
namespace Wrongsv.Bugs.VisionHeldBytes
open L1.VisionFrame L2.Vision

theorem waiting_new : Waiting .new := ⟨⟨rfl, rfl, rfl⟩, .inl ⟨rfl, rfl⟩⟩

/-- **Pass-through.** Whatever the stream is, the reader returns it unchanged
if and only if every held-back piece is released in time and in full. -/
theorem readToEnd_eq_delivered_iff (u : Uuid) (up : Bool) (packets : Int) (xs : List InnerRead) :
    readToEnd (.new (.counting u packets) up) xs = delivered xs ↔ Clean true (.counting u packets) [] xs := by
  rw [readToEnd_eq_run, new_eq_readerAt]
  exact run_tail up xs (.counting u packets) .new waiting_new

/-! ## Counterexample -/

/-- The UUID 00 01 02 … 0f. -/
def countingUuid : Uuid := ⟨[0, 1, 2, 3, 4, 5, 6, 7, 8, 9, 10, 11, 12, 13, 14, 15], by decide⟩

/-- Seven bytes that are no UUID; the last read agrees with its first byte. -/
def plainReads : List InnerRead :=
  [⟨[0x47, 0x45, 0x54, 0x20, 0x2f], 64, by decide, by decide⟩, ⟨[0x00, 0x01], 64, by decide, by decide⟩]

/-- The second read never comes out. -/
theorem held_bytes_lost : delivered plainReads = [0x47, 0x45, 0x54, 0x20, 0x2f, 0x00, 0x01] ∧
      readToEnd (.new (.new countingUuid) true) plainReads = [0x47, 0x45, 0x54, 0x20, 0x2f] := by
  decide

end Wrongsv.Bugs.VisionHeldBytes
