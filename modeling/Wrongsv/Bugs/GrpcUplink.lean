import Wrongsv.L2Machine.Grpc.Uplink

/-!
# gRPC: empty hunks end the uplink, and a cut frame becomes data

`drive_incoming` sends the data of every hunk, and `GrpcStream::read` returns the length of
the message it takes out of the channel (server/handler/grpc.rs:169-181). An empty hunk
makes a read of `Ok(0)`, which the relay takes for the end of the stream. At the end of the
body `drive_incoming` sends what is left in its buffer, a part of a frame (:343-346), as if
it were data.

Spec clause: for any hunks and any cut of their frames into DATA chunks, the relay reads
the data of the complete hunks and no byte of a frame, and gets `Ok(0)` only after the
body has ended.

Fix: skip empty data; drop the buffer when the body ends inside a frame.
-/
namespace Wrongsv.Bugs.GrpcUplink
open Framing L1.GrpcHunk L2.GrpcUplink List

/-- However the bytes are cut into chunks and the parties take turns: what was read is
data, and at the end of stream all of it; the end of stream is that of the body; and it
comes. -/
def Faithful (c : HunkCodec) (u : Upload c) : Prop :=
  ∀ chunks : List Bytes, chunks.flatten = u.bytes → ∀ steps : List Step,
    let s := run c (State.start (chunks.map .data)) steps
    s.got <+: u.data ∧ (s.done = true → s.got = u.data ∧ s.driver = .ended) ∧
      ∀ size, ∃ n, (run c s (rounds size n)).done = true

section
variable {c : HunkCodec} {u : Upload c} {s : State} {taken coming : List Bytes}

/-! ## Uploads without either -/

theorem got_prefix (h : Inv c u s taken coming) : s.got <+: u.data ++ u.tail := by
  have hflat := congrArg List.flatten h.messages
  rw [flatten_append, ← h.got, u.messages_flatten, append_assoc] at hflat
  exact ⟨_, hflat⟩

/-- At the end of stream everything was read, if no message was empty. -/
theorem got_done (h : Inv c u s taken coming) (hne : [] ∉ u.messages) (hdone : s.done = true) :
    s.got = u.data ++ u.tail ∧ s.driver = .ended := by
  have htaken : [] ∉ taken := fun hmem => hne (by rw [← h.messages]; exact mem_append_left _ hmem)
  have hdrained := (h.done hdone).resolve_left htaken
  have hcoming : coming = [] := by
    cases h.driving with
    | reading _ _ driver => rw [hdrained.driver] at driver; cases driver
    | ended => rfl
  have hall : taken = u.messages := by
    simpa [hdrained.queue, hdrained.outbox, hcoming] using h.messages
  have hgot := h.got
  rw [hdrained.pending, append_nil, hall, u.messages_flatten] at hgot
  exact ⟨hgot, hdrained.driver⟩

theorem nil_mem_messages : [] ∈ u.messages ↔ ∃ h ∈ u.hunks, h.data = [] := by
  have htail : [] ∉ u.tailMessage := by
    unfold Upload.tailMessage
    split
    · simp
    · rename_i hne
      simpa using fun heq : [] = u.tail => hne heq.symm
  simp [Upload.messages, htail]

/-! ## Uploads with an empty hunk -/

theorem drain_bytes (c : HunkCodec) (u : Upload c) :
    (decoder c).drain u.bytes = (u.hunks.map Hunk.data, .ok u.tail) := by
  have hbytes : u.bytes ++ [] = Frame.stream (u.hunks.map Hunk.frame) ++ u.tail := by
    simp [Upload.bytes, Frame.stream, flatMap_map, Hunk.frame]
  obtain ⟨done, left, rest, hsplit, hdrain, hrest, hnone⟩ := Frame.drain_stream (u.cutFrame) _ _ hbytes
  obtain ⟨rfl, rfl⟩ := Frame.left_nil (by rw [← hrest, append_nil]) hnone
  rw [append_nil] at hsplit
  rw [hdrain, ← hsplit]
  simp [Hunk.frame]

/-- The relay reads every message at once; it stops at an empty one, with the body still
being read. -/
theorem stops_at_empty (messages : List Bytes) :
    ∀ {s : State}, s.outbox = messages → [] ∈ messages →
    s.driver = .reading → s.queue = [] → s.pending = [] → s.eof = false → s.done = false →
    ∃ steps, (run c s steps).done = true ∧ (run c s steps).driver = .reading := by
  induction messages with
  | nil => intro s _ hmem; simp at hmem
  | cons message messages ih =>
    intro s houtbox hmem hdriver hqueue hpending heof hdone
    let size : { n : Nat // 0 < n } := ⟨message.length + 1, Nat.succ_pos _⟩
    have hturn : run c s [.drive, .read size] = { s with outbox := messages }.deliver message := by
      have hdrive : drive c s = { s with outbox := messages, queue := [message] } := by
        simp [drive, houtbox, hqueue]
      have hread := @read_message { s with outbox := messages, queue := [message] } (message.length + 1) _ _
        hdone heof hpending rfl
      show read (message.length + 1) (drive c s) = _
      have hle : message.length ≤ message.length + 1 := Nat.le_succ _
      rw [hdrive, hread]
      simp [State.deliver, hqueue, hpending, take_of_length_le hle]
    by_cases hnil : message = []
    · exact ⟨[.drive, .read size], by rw [hturn]; simp [State.deliver, hnil], by rw [hturn]; exact hdriver⟩
    · have hmem' : [] ∈ messages := (List.mem_cons.mp hmem).resolve_left fun heq => hnil heq.symm
      obtain ⟨steps, hsteps⟩ := @ih ({ s with outbox := messages }.deliver message) rfl hmem' hdriver hqueue
        hpending heof (by simp [State.deliver, hnil])
      refine ⟨[.drive, .read size] ++ steps, ?_⟩
      have happend : run c s ([.drive, .read size] ++ steps) = run c (run c s [.drive, .read size]) steps :=
        foldl_append
      rw [happend, hturn]
      exact hsteps

end

/-- **Exactly the uploads without an empty hunk and without a cut frame.** -/
theorem faithful_iff (c : HunkCodec) (u : Upload c) :
    Faithful c u ↔ (∀ h ∈ u.hunks, h.data ≠ []) ∧ u.tail = [] := by
  constructor
  · intro hf
    have hempty : ∀ h ∈ u.hunks, h.data ≠ [] := by
      intro h hmem hnil
      -- all of the body in one chunk
      have hfirst : run c (State.start [.data u.bytes]) [.drive] =
          { State.start [] with buf := u.tail, outbox := u.hunks.map Hunk.data } := by
        simp [run, step, drive, State.start, drain_bytes]
      obtain ⟨steps, hdone, hdriver⟩ := stops_at_empty (c := c) (u.hunks.map Hunk.data)
        (s := { State.start [] with buf := u.tail, outbox := u.hunks.map Hunk.data }) rfl
        (List.mem_map.mpr ⟨h, hmem, hnil⟩) rfl rfl rfl rfl rfl
      have hrun := (hf [u.bytes] (by simp) (.drive :: steps)).2.1
      have hsplit : run c (State.start ([u.bytes].map .data)) (.drive :: steps) =
          run c (run c (State.start [.data u.bytes]) [.drive]) steps := rfl
      rw [hsplit, hfirst] at hrun
      rw [(hrun hdone).2] at hdriver
      cases hdriver
    refine ⟨hempty, ?_⟩
    have hne : [] ∉ u.messages := fun hmem => by
      obtain ⟨h, hh, hnil⟩ := nil_mem_messages.mp hmem
      exact hempty h hh hnil
    have hstart : Inv c u (State.start ([u.bytes].map .data)) [] u.messages := start_inv (by simp)
    obtain ⟨n, hn⟩ := (hf [u.bytes] (by simp) []).2.2 ⟨1, Nat.one_pos⟩
    obtain ⟨taken, coming, hinv⟩ := run_inv (rounds ⟨1, Nat.one_pos⟩ n) hstart
    have hgot := (got_done hinv hne hn).1
    rw [((hf [u.bytes] (by simp) (rounds ⟨1, Nat.one_pos⟩ n)).2.1 hn).1] at hgot
    simpa using hgot.symm
  · rintro ⟨hempty, htail⟩ chunks hchunks steps
    have hne : [] ∉ u.messages := fun hmem => by
      obtain ⟨h, hh, hnil⟩ := nil_mem_messages.mp hmem
      exact hempty h hh hnil
    obtain ⟨taken, coming, hinv⟩ := run_inv (c := c) steps (start_inv hchunks)
    refine ⟨?_, fun hdone => ?_, fun size => finishes size hinv⟩
    · have hpre := got_prefix hinv
      rwa [htail, append_nil] at hpre
    · have hgot := got_done hinv hne hdone
      rwa [htail, append_nil] at hgot

/-! ## Counterexamples -/

def hunkA : Hunk onlyData := ⟨[0x61], by decide⟩

def hunkEmpty : Hunk onlyData := .empty onlyData

def hunkB : Hunk onlyData := ⟨[0x62], by decide⟩

/-- Both in one: "a", nothing, "b". -/
def withEmpty : Upload onlyData := ⟨[hunkA, hunkEmpty, hunkB], [], ⟨hunkA, 0, by decide, rfl⟩⟩

/-- "a", and the header of a frame. -/
def withCut : Upload onlyData := ⟨[hunkA], [0, 0, 0, 0, 3], ⟨hunkB, 5, by decide, by decide⟩⟩

def buffer : { n : Nat // 0 < n } := ⟨32768, by decide⟩

/-- **An empty hunk, and a cut frame.** The relay stops after "a" while the body is still
being read; and it reads the header of the cut frame as data. -/
theorem empty_hunk_cut_frame :
    ((run onlyData (State.start [.data withEmpty.bytes]) (.drive :: rounds buffer 2)).got = [0x61] ∧
      (run onlyData (State.start [.data withEmpty.bytes]) (.drive :: rounds buffer 2)).done = true ∧
      (run onlyData (State.start [.data withEmpty.bytes]) (.drive :: rounds buffer 2)).driver = .reading) ∧
    ((run onlyData (State.start [.data withCut.bytes]) (.drive :: rounds buffer 4)).got = [0x61, 0, 0, 0, 0, 3] ∧
      (run onlyData (State.start [.data withCut.bytes]) (.drive :: rounds buffer 4)).done = true ∧
      withCut.data = [0x61]) := by
  decide +kernel

end Wrongsv.Bugs.GrpcUplink
