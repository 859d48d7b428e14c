import Wrongsv.L2Machine.AnyTls.SessionReader

/-!
# sing-anytls: partial reads are thrown away

`try_read_exact` (anytls/session.rs:78-131) counts in a local variable. When the socket
times out inside the header or the data of a frame, the next call fills the buffer from
offset zero again (:402-443), and what follows is read as if it started a header. A
timeout between the two is harmless (`Splits`).

Fix: keep the partly filled buffer across calls.
-/
namespace Wrongsv.Bugs.AnyTlsPartialReads
open L2.AnyTls List

/-- What the loop makes of a client's frames: all of them up to an ALERT. -/
def sessionOf : List ClientFrame → Session
  | [] => ⟨[], [], some .eof⟩
  | f :: frames =>
    if f.cmd = cmdAlert then ⟨[f.toFrame], [], some .alert⟩ else (sessionOf frames).handling f.toFrame

/-- The position `k` is inside the header or inside the data of one of the
frames the loop gets to see; the first of them starts at `o`. -/
def Splits (k : Nat) : Nat → List ClientFrame → Prop
  | _, [] => False
  | o, f :: frames =>
    (o < k ∧ k < o + 7) ∨ (o + 7 < k ∧ k < o + 7 + f.data.length) ∨
      (f.cmd ≠ cmdAlert ∧ Splits k (o + 7 + f.data.length) frames)

theorem Splits.lt {k : Nat} (frames : List ClientFrame) :
    ∀ {o : Nat}, Splits k o frames → o < k := by
  induction frames with
  | nil => intro o h; cases h
  | cons f frames ih =>
    intro o h
    rcases h with h | h | h
    · exact h.1
    · omega
    · have := ih h.2
      omega

/-! ## The data of a frame -/

theorem readData_go {data rest : Bytes} (o : Nat) (fuel : Nat) : ∀ (c : Tls),
    c.schedule.bytes = data ++ rest → c.schedule.later.length < fuel →
    let d := Tls.readData.go data.length fuel c
    (d.data = some data ∧ d.dropped = [] ∧ Schedule.Passed c.schedule d.conn.schedule o data.length) ∨
      (d.dropped ≠ [] ∧ ∃ k ∈ c.schedule.cuts o, o < k ∧ k < o + data.length) := by
  induction fuel with
  | zero => intro c _ h; cases h
  | succ fuel ih =>
    intro c hb hf
    obtain ⟨h1, h2⟩ := tryReadExact_schedule c data.length
    simp only [Tls.readData.go]
    rw [h1]
    by_cases hle : data.length ≤ c.schedule.avail.length
    · left
      rw [(Schedule.readExact_done hle o).1, hb, take_left]
      exact ⟨rfl, rfl, h2 ▸ Schedule.passed_readExact hle o⟩
    · obtain ⟨next, later, hl⟩ := Schedule.later_ne_nil (s := c.schedule) (by rw [hb]; simp) (Nat.not_le.mp hle)
      obtain ⟨h3, h4⟩ := Schedule.readExact_block (Nat.not_le.mp hle) hl o
      rw [h3] at h2 ⊢
      simp only at h2 ⊢
      by_cases havail : c.schedule.avail = []
      · have hs : c.schedule = ⟨[], next :: later⟩ := by rw [← havail, ← hl]
        have hb' : (c.tryReadExact data.length).2.schedule.bytes = data ++ rest := by
          rw [h2, ← hb, hs]
          rfl
        have hf' : (c.tryReadExact data.length).2.schedule.later.length < fuel := by
          simp_all
        rw [havail, nil_append]
        rcases ih _ hb' hf' with ⟨hd, hdrop, hp⟩ | ⟨hdrop, k, hk, hin⟩
        · rw [h2] at hp
          exact .inl ⟨hd, hdrop, hs ▸ hp.after_block⟩
        all_goals grind
      · right
        refine ⟨by simp [havail], o + c.schedule.avail.length, by rw [h4]; simp, ?_⟩
        grind

/-- **The data of a frame** arrives whole, or a `WouldBlock` inside it drops bytes. -/
theorem readData_spec (c : Tls) (data rest : Bytes) (hb : c.schedule.bytes = data ++ rest)
    (o : Nat) : let d := c.readData data.length
    (d.data = some data ∧ d.dropped = [] ∧ Schedule.Passed c.schedule d.conn.schedule o data.length) ∨
      (d.dropped ≠ [] ∧ ∃ k ∈ c.schedule.cuts o, o < k ∧ k < o + data.length) := by
  by_cases hz : data.length = 0
  · left
    rw [Tls.readData, if_pos hz, hz]
    exact ⟨by rw [eq_nil_of_length_eq_zero hz], rfl, .refl _ _⟩
  · grind [Tls.readData, readData_go]

/-! ## The loop -/

theorem encodeFrames_cons (f : ClientFrame) (frames : List ClientFrame) : encodeFrames
      (f :: frames) = frameHeader f.cmd f.sid f.data.length ++ (f.data ++ encodeFrames frames) := by
  simp [encodeFrames, Frame.encode]

/-- What holds of a run: the frames are handled and nothing is split, or
something is split and bytes are dropped. -/
def Outcome (s : Session) (sched : Schedule) (frames : List ClientFrame) (o : Nat) : Prop :=
  (s = sessionOf frames ∧ ∀ k ∈ sched.cuts o, ¬ Splits k o frames) ∨
    (s.dropped ≠ [] ∧ ∃ k ∈ sched.cuts o, Splits k o frames)

section
variable {f : ClientFrame} {frames : List ClientFrame} {sched : Schedule} {o : Nat}

/-- When header and data were read whole, a cut splits only a frame behind them. -/
theorem splits_cons_iff {behind rest : Schedule} {k : Nat}
    (hp : Schedule.Passed sched behind o 7) (hd : Schedule.Passed behind rest (o + 7) f.data.length)
    (hk : k ∈ sched.cuts o) :
    Splits k o (f :: frames) ↔ f.cmd ≠ cmdAlert ∧ k ∈ rest.cuts (o + 7 + f.data.length) ∧
      Splits k (o + 7 + f.data.length) frames := by
  constructor
  · rintro (h | h | ⟨ha, h⟩)
    · exact absurd h (hp.whole k hk)
    · exact absurd h (hd.whole k ((hp.cuts k h.1).mpr hk))
    · have hlt := h.lt
      exact ⟨ha, (hd.cuts k hlt).mpr ((hp.cuts k (by omega)).mpr hk), h⟩
  · rintro ⟨ha, -, h⟩
    exact .inr (.inr ⟨ha, h⟩)

/-- The header is there; the rest is the data and the frames behind it. -/
theorem outcome_header {c : Tls} {fuel : Nat} (hp : Schedule.Passed sched c.schedule o 7)
    (hb : c.schedule.bytes = f.data ++ encodeFrames frames)
    (ih : ∀ d : Tls, d.schedule.bytes = encodeFrames frames → d.schedule.weight ≤ c.schedule.weight →
      Outcome (sessionReaderLoop.go fuel d) d.schedule frames (o + 7 + f.data.length)) :
    Outcome
      (let d := c.readData f.data.length
       match d.data with
        | none => ⟨[], d.dropped, some .eof⟩
        | some data =>
          if f.cmd = cmdAlert then ⟨[⟨f.cmd, f.sid, data⟩], d.dropped, some .alert⟩
          else ((sessionReaderLoop.go fuel d.conn).handling ⟨f.cmd, f.sid, data⟩).dropping d.dropped)
      sched (f :: frames) o := by
  have hdata := readData_spec c f.data (encodeFrames frames) hb (o + 7)
  generalize c.readData f.data.length = d at hdata ⊢
  obtain ⟨dd, dropped, conn⟩ := d
  rcases hdata with ⟨rfl, rfl, hd⟩ | ⟨hdrop, k, hk, hin⟩
  · simp only at hd
    have hb' : conn.schedule.bytes = encodeFrames frames := by
      rw [hd.bytes, hb, drop_left]
    have hsplit := fun k => @splits_cons_iff f frames sched o c.schedule conn.schedule k hp hd
    by_cases ha : f.cmd = cmdAlert
    · refine .inl ⟨?_, fun k hk h => ((hsplit k hk).mp h).1 ha⟩
      rw [sessionOf, if_pos ha]
      simp only [if_pos ha]
    · simp only [if_neg ha]
      rcases ih conn hb' (by have := hd.weight; omega) with ⟨hs, hn⟩ | ⟨hdrop, k, hk, h⟩
      · refine .inl ⟨by rw [hs, sessionOf, if_neg ha]; rfl, fun k hk h => ?_⟩
        grind
      · have hlt := h.lt
        have hk' : k ∈ sched.cuts o := (hp.cuts k (by omega)).mp ((hd.cuts k hlt).mp hk)
        exact .inr ⟨by simpa [Session.dropping, Session.handling] using hdrop, k, hk',
          .inr (.inr ⟨ha, h⟩)⟩
  · have hk' : k ∈ sched.cuts o := (hp.cuts k hin.1).mp hk
    refine .inr ⟨?_, k, hk', .inr (.inl hin)⟩
    cases dd with
    | none => exact hdrop
    | some data =>
      split
      · exact hdrop
      · simp [Session.dropping, hdrop]

theorem Outcome.after_block {s : Session} {next : Bytes} {later : List Bytes}
    (h : Outcome s ⟨next, later⟩ frames o) : Outcome s ⟨[], next :: later⟩ frames o := by
  have hcuts : Schedule.cuts ⟨[], next :: later⟩ o = o :: Schedule.cuts ⟨next, later⟩ o := rfl
  unfold Outcome
  rcases h with ⟨he, hn⟩ | ⟨hdrop, k, hk, h⟩
  · refine .inl ⟨he, fun k hk h => ?_⟩
    rcases List.mem_cons.mp hk with rfl | hk
    · exact absurd h.lt (Nat.lt_irrefl _)
    · exact hn k hk h
  · grind

theorem outcome_cut_header (s : Session)
    (hb : sched.bytes = encodeFrames frames) (havail : sched.avail ≠ []) (hlt : sched.avail.length < 7)
    (hk : o + sched.avail.length ∈ sched.cuts o) : Outcome (s.dropping sched.avail) sched frames o := by
  cases frames with
  | nil => exact absurd (List.append_eq_nil_iff.mp hb).1 havail
  | cons f frames =>
    refine .inr ⟨by simp [Session.dropping, havail], _, hk, .inl ?_⟩
    have := List.length_pos_iff.mpr havail
    omega

theorem outcome_eof (o : Nat)
    (hb : sched.bytes = encodeFrames frames) (hlt : sched.avail.length < 7) (hl : sched.later = []) :
    Outcome ⟨[], [], some .eof⟩ sched frames o := by
  cases frames with
  | nil => exact .inl ⟨rfl, fun _ _ h => h⟩
  | cons f frames =>
    have hlen := congrArg List.length hb
    rw [encodeFrames_cons, Schedule.bytes, hl, flatten_nil, append_nil, length_append] at hlen
    have h7 : (frameHeader f.cmd f.sid f.data.length).length = 7 := rfl
    omega

end

theorem loop_spec (fuel : Nat) : ∀ (c : Tls) (frames : List ClientFrame) (o : Nat),
    c.schedule.bytes = encodeFrames frames → c.schedule.weight < fuel →
    Outcome (sessionReaderLoop.go fuel c) c.schedule frames o := by
  induction fuel with
  | zero => intro c frames o _ h; cases h
  | succ fuel ih =>
    intro c frames o hb hf
    obtain ⟨h1, h2⟩ := tryReadExact_schedule c 7
    simp only [sessionReaderLoop.go]
    rw [h1]
    by_cases hle : 7 ≤ c.schedule.avail.length
    · cases frames with
      | nil =>
        rw [(List.append_eq_nil_iff.mp hb).1] at hle
        cases hle
      | cons f frames =>
        rw [encodeFrames_cons] at hb
        have h3 := Schedule.readExact_done hle o
        have hp := Schedule.passed_readExact hle o
        rw [← h2] at hp
        have ht : (frameHeader f.cmd f.sid f.data.length ++ (f.data ++ encodeFrames frames)).take 7 =
            frameHeader f.cmd f.sid f.data.length := take_left' rfl
        rw [h3.1, hb, ht]
        simp only [parseHeader_frameHeader _ _ _ f.short]
        have hb' : (c.tryReadExact 7).2.schedule.bytes = f.data ++ encodeFrames frames := by
          rw [hp.bytes, hb]
          exact drop_left' rfl
        exact outcome_header hp hb' (fun d hd hw => ih d frames _ hd (by have := hp.weight; omega))
    · have hlt := Nat.not_le.mp hle
      cases hl : c.schedule.later with
      | nil =>
        rw [Schedule.readExact_eof hlt hl]
        exact outcome_eof o hb hlt hl
      | cons next later =>
        obtain ⟨h3, h4⟩ := Schedule.readExact_block hlt hl o
        rw [h3] at h2 ⊢
        simp only at h2 ⊢
        by_cases havail : c.schedule.avail = []
        · have hs : c.schedule = ⟨[], next :: later⟩ := by rw [← havail, ← hl]
          have hb' : (c.tryReadExact 7).2.schedule.bytes = encodeFrames frames := by
            rw [h2, ← hb, hs]
            rfl
          have hf' : (c.tryReadExact 7).2.schedule.weight < fuel := by
            rw [Schedule.weight, hb', h2]
            rw [Schedule.weight, hb, hl, length_cons] at hf
            simp only
            omega
          have hrest := ih _ frames o hb' hf'
          rw [h2] at hrest
          rw [havail, Session.dropping, nil_append, hs]
          exact hrest.after_block
        all_goals grind [outcome_cut_header]

/-! ## Result -/

/-- A connection that carries the frames of a client, cut up in any way. -/
structure Delivery (frames : List ClientFrame) where
  conn : Tls
  carries : conn.schedule.bytes = encodeFrames frames

/-- **Partial reads.** The loop handles exactly the frames of the client and
drops no byte if and only if no `WouldBlock` falls inside a header or inside
the data of a frame. -/
theorem reader_handles_frames_iff (frames : List ClientFrame) (d : Delivery frames) :
    sessionReaderLoop d.conn = sessionOf frames ↔ ∀ k ∈ d.conn.schedule.cuts 0, ¬ Splits k 0 frames := by
  have hdropped : ∀ fs : List ClientFrame, (sessionOf fs).dropped = [] := by
    intro fs
    induction fs with
    | nil => rfl
    | cons f fs ih =>
      unfold sessionOf
      split
      · rfl
      · exact ih
  rcases loop_spec (d.conn.schedule.weight + 1) d.conn frames 0 d.carries (Nat.lt_succ_self _) with
    ⟨he, hn⟩ | ⟨hdrop, k, hk, h⟩
  · exact ⟨fun _ => hn, fun _ => he⟩
  · constructor
    · intro he
      rw [sessionReaderLoop] at he
      exact absurd (by rw [he, hdropped]) hdrop
    · intro hn
      exact absurd h (hn k hk)

/-! ## Counterexample -/

/-- SYN for stream 1, then `hi` on it. -/
def twoFrames : List ClientFrame :=
  [⟨⟨cmdSyn, 1, []⟩, by decide⟩, ⟨⟨cmdPsh, 1, [0x68, 0x69]⟩, by decide⟩]

/-- The second header arrives in two records with a timeout between them. -/
def cutHeader : Delivery twoFrames where
  conn := ⟨[], [.record [1, 0, 0, 0, 1, 0, 0], .record [2, 0, 0], .wouldBlock,
    .record [0, 1, 0, 2, 0x68, 0x69]]⟩
  carries := by decide

/-- Three bytes are dropped and the PSH frame never arrives. -/
theorem cut_header_drops_frame : sessionReaderLoop ⟨encodeFrames twoFrames, []⟩ =
        ⟨[⟨cmdSyn, 1, []⟩, ⟨cmdPsh, 1, [0x68, 0x69]⟩], [], some .eof⟩ ∧
      sessionReaderLoop cutHeader.conn = ⟨[⟨cmdSyn, 1, []⟩], [2, 0, 0], some .eof⟩ := by
  decide

end Wrongsv.Bugs.AnyTlsPartialReads
