import Wrongsv.L2Machine.RequestTransport

/-!
# Request sessions: an old relay thread removes a new session

`spawn_vless_request_session` ends with `registry.remove(&session_id)`
(server/handler/request_transport.rs:420-436), which removes and closes whatever session is
registered under the id (:64-68), not the one the thread was started for. The id may have
been acquired again before: by the request whose cleanup has closed the expired session, or
by one that comes between the `session.close()` at the end of a relay and the `remove`.

Fix: let `remove` take the session, and remove the entry only if it is the same `Arc`.
-/
namespace Wrongsv.Bugs.RequestSessionReuse
open L2.RequestTransport

/-- The session is the one its id leads to. -/
def Registered (s : State) (n : Nat) : Prop := ∃ o, s.objects n = some o ∧ s.sessions o.id = some n

/-- A session that was open is closed, or one that was registered is not. -/
def Destroyed (s s' : State) (n : Nat) : Prop :=
  (s.isClosed n = false ∧ s'.isClosed n = true) ∨ (Registered s n ∧ ¬ Registered s' n)

/-- The event is one of the relay thread of session `n`. -/
def ByOwnThread (e : Event) (n : Nat) : Prop := ∃ now, e = .close n now ∨ e = .finish n now

/-- The event is a cleanup that finds session `n` idle for too long. -/
def ByOwnExpiry (cfg : Config) (s : State) (e : Event) (n : Nat) : Prop :=
  ∃ now o, e = .cleanup now ∧ s.objects n = some o ∧ cfg.idleTimeout ≠ 0 ∧ cfg.idleTimeout ≤ o.idleFor now

def Justified (cfg : Config) (s : State) (e : Event) (n : Nat) : Prop :=
  ByOwnThread e n ∨ ByOwnExpiry cfg s e n ∨ s.isClosed n = true

/-- The thread of session `m` runs, and the id of its session leads to a newer open one. -/
def Overtaken (s : State) (m n : Nat) : Prop :=
  ∃ o, s.objects m = some o ∧ o.running = true ∧ s.sessions o.id = some n ∧ m < n ∧ s.isClosed n = false

/-! ## What others see of a session -/

/-- The id and the flag of a session. -/
def face (s : State) (n : Nat) : Option (String × Bool) :=
  (s.objects n).map (fun o => (o.id, o.closed))

theorem isClosed_face (s : State) (n : Nat) : s.isClosed n = ((face s n).map (·.2)).getD true := by
  unfold State.isClosed face
  cases s.objects n <;> rfl

theorem registered_face (s : State) (n : Nat) :
    Registered s n ↔ ∃ p, face s n = some p ∧ s.sessions p.1 = some n := by
  constructor
  · rintro ⟨o, ho, hs⟩
    exact ⟨(o.id, o.closed), by rw [face, ho]; rfl, hs⟩
  · rintro ⟨p, hp, hs⟩
    obtain ⟨o, ho, rfl⟩ := Option.map_eq_some_iff.mp hp
    exact ⟨o, ho, hs⟩

/-- Nothing that others see changes: nothing is destroyed. -/
theorem not_destroyed_of_face {s s' : State} (hs : s'.sessions = s.sessions)
    (hf : ∀ n, face s' n = face s n) (n : Nat) : ¬ Destroyed s s' n := by
  rintro (⟨hopen, hclosed⟩ | ⟨hreg, hnot⟩)
  all_goals grind [isClosed_face, registered_face]

theorem face_update {f : RequestSession → RequestSession} (hf : ∀ o, (f o).id = o.id ∧ (f o).closed = o.closed)
    (s : State) (m n : Nat) : face (s.update m f) n = face s n :=
  map_update (fun o => (o.id, o.closed)) (fun o => Prod.ext (hf o).1 (hf o).2) s m n

theorem face_close_ne (s : State) {m n : Nat} (now : Nat) (hn : n ≠ m) :
    face (s.update m (·.close now)) n = face s n := by
  unfold face
  rw [update_objects_ne s m _ hn]

theorem registered_close (s : State) (m n now : Nat) (h : Registered s n) :
    Registered (s.update m (·.close now)) n := by
  obtain ⟨o, ho, hs⟩ := h
  by_cases hn : n = m
  · subst hn
    exact ⟨o.close now, by rw [update_objects_self, ho]; rfl, (congrArg s.sessions (keeps_close now o).1).trans hs⟩
  · exact ⟨o, by rw [update_objects_ne s m _ hn]; exact ho, hs⟩

/-! ## One event -/

theorem cleanup_justified {s : State} (cfg : Config) {n now : Nat}
    (h : Destroyed s (s.cleanupLocked cfg now) n) : Justified cfg s (.cleanup now) n := by
  -- an open session that is closed or dropped here is an idle one
  have hidle : ∀ o, s.objects n = some o → o.expired cfg now = true → Justified cfg s (.cleanup now) n := by
    intro o ho hexp
    cases hc : o.closed with
    | true =>
      exact .inr (.inr ((isClosed_of ho).trans hc))
    | false =>
      simp only [RequestSession.expired, hc, Bool.false_or, Bool.and_eq_true, decide_eq_true_eq] at hexp
      exact .inr (.inl ⟨now, o, rfl, ho, hexp⟩)
  rcases h with ⟨hopen, hclosed⟩ | ⟨⟨o, ho, hreg⟩, hnot⟩
  · cases ho : s.objects n with
    | none =>
      rw [State.isClosed, ho] at hopen
      cases hopen
    | some o =>
      refine hidle o ho ?_
      by_contra hexp
      have hsame : (s.cleanupLocked cfg now).isClosed n = s.isClosed n := by
        simp only [State.isClosed, State.cleanupLocked, ho, Option.map_some, Option.getD_some]
        rw [if_neg (fun hh => hexp hh.2.2)]
      rw [hsame, hopen] at hclosed
      cases hclosed
  · refine hidle o ho ?_
    by_contra hexp
    apply hnot
    refine ⟨o, ?_, ?_⟩
    · simp only [State.cleanupLocked, ho, Option.map_some]
      rw [if_neg (fun hh => hexp hh.2.2)]
    · show (s.sessions o.id).filter _ = some n
      rw [hreg, Option.filter_some, State.isExpired, ho, Option.map_some, Option.getD_some,
        (Bool.not_eq_true _).mp hexp]
      rfl

theorem close_justified {s : State} {n m now : Nat} (h : Destroyed s (s.update m (·.close now)) n) :
    n = m := by
  by_contra hn
  rcases h with ⟨hopen, hclosed⟩ | ⟨hreg, hnot⟩
  all_goals grind [isClosed_face, face_close_ne, registered_close]

/-- `remove` destroys what its id leads to, and nothing else. -/
theorem remove_destroys {s : State} {n : Nat} {id : String} {now : Nat}
    (h : Destroyed s (s.remove id now) n) : s.sessions id = some n := by
  unfold State.remove at h
  cases hm : s.sessions id with
  | none => grind [not_destroyed_of_face]
  | some m =>
    rw [hm] at h
    by_contra hne
    have hn : n ≠ m := fun hn => hne (by rw [hn])
    rcases h with ⟨hopen, hclosed⟩ | ⟨⟨o, ho, hreg⟩, hnot⟩
    · have hsame : face (State.update { s with sessions := s.sessions.remove id } m (·.close now)) n = face s n :=
        face_close_ne _ now hn
      grind [isClosed_face]
    · have hid : o.id ≠ id := by
        grind
      refine hnot ⟨o, ?_, (Table.remove_of_ne _ hid).trans hreg⟩
      exact (update_objects_ne _ m _ hn).trans ho

section
variable {s : State} (hinv : Inv s) (cfg : Config) {n : Nat}
include hinv

theorem lookup_justified {id : String} {now : Nat} (h : Destroyed s (s.lookup id now) n) :
    s.isClosed n = true := by
  unfold State.lookup at h
  split at h
  · exact absurd h (not_destroyed_of_face rfl (fun _ => rfl) n)
  by_contra hopen
  rw [Bool.not_eq_true] at hopen
  -- an open session is none of the id, and not the new one
  obtain ⟨o, ho⟩ : ∃ o, s.objects n = some o := by
    cases ho : s.objects n with
    | some o => exact ⟨o, rfl⟩
    | none =>
      rw [State.isClosed, ho] at hopen
      cases hopen
  have hne : n ≠ s.created := Nat.ne_of_lt (hinv.lt_created ho)
  have hobj : (s.objects.insert s.created (.new id now)) n = some o :=
    (Table.insert_of_ne _ hne _).trans ho
  have hoc : o.closed = false := (isClosed_of ho).symm.trans hopen
  have hreg := hinv.open_registered n o ho hoc
  have hid : o.id ≠ id := by
    grind
  rcases h with ⟨-, hclosed⟩ | ⟨-, hnot⟩
  · simp only [State.isClosed, State.grant, hobj, Option.map_some, Option.getD_some, hoc] at hclosed
    cases hclosed
  · exact hnot ⟨o, hobj, (Table.insert_of_ne _ hid _).trans hreg⟩

/-- **One event.** A session is destroyed for a reason of its own, or by the thread of
an older session of the same id. -/
theorem step_justified {e : Event} (h : Destroyed s (step cfg s e).2 n) :
    Justified cfg s e n ∨ ∃ m now, e = .finish m now ∧ Overtaken s m n := by
  -- these updates touch nothing that others see
  have hquiet : ∀ {s' : State} {m : Nat} {f : RequestSession → RequestSession}, s'.sessions = s.sessions →
      s'.objects = (s.update m f).objects → (∀ o, (f o).id = o.id ∧ (f o).closed = o.closed) →
      ¬ Destroyed s s' n := by
    intro s' m f hs ho hf
    refine not_destroyed_of_face hs (fun i => ?_) n
    rw [face, ho]
    exact face_update hf s m i
  have hdoes := step_does cfg s e
  generalize step cfg s e = r at hdoes h
  cases hdoes with
  | nothing => exact absurd h (not_destroyed_of_face rfl (fun _ => rfl) n)
  | cleaned => exact .inl (cleanup_justified cfg h)
  | looked => exact .inl (.inr (.inr (lookup_justified hinv h)))
  | submitted lease => exact absurd h (hquiet rfl rfl fun _ => ⟨rfl, rfl⟩)
  | answered lease object => exact absurd h (hquiet rfl rfl fun _ => ⟨rfl, rfl⟩)
  | wrote object isOpen room => exact absurd h (hquiet rfl rfl fun _ => ⟨rfl, rfl⟩)
  | closed =>
    cases close_justified h
    exact .inl (.inl ⟨_, .inl rfl⟩)
  | @finished m now o ho hrun =>
    have hface := fun k => face_update (f := (·.stop)) (fun _ => ⟨rfl, rfl⟩) s m k
    have hstop : Destroyed (s.update m (·.stop)) ((s.update m (·.stop)).remove o.id now) n := by
      rcases h with ⟨hopen, hclosed⟩ | ⟨hreg, hnot⟩
      · exact .inl ⟨by rw [isClosed_face, hface, ← isClosed_face]; exact hopen, hclosed⟩
      · exact .inr ⟨by rw [registered_face, hface, update_sessions, ← registered_face]; exact hreg, hnot⟩
    have hn := remove_destroys hstop
    by_cases hmn : n = m
    · subst hmn
      exact .inl (.inl ⟨now, .inr rfl⟩)
    · cases hc : s.isClosed n with
      | true => exact .inl (.inr (.inr hc))
      | false =>
        have hle := hinv.newest o.id n m o hn ho rfl
        exact .inr ⟨m, now, rfl, o, ho, hrun, hn, by omega, hc⟩

/-- The other direction: the thread of an overtaken session closes the newer one. -/
theorem overtaken_destroys {m : Nat} (now : Nat) (h : Overtaken s m n) :
    Destroyed s (step cfg s (.finish m now)).2 n ∧ ¬ Justified cfg s (.finish m now) n := by
  obtain ⟨o, ho, hrun, hn, hlt, hopen⟩ := h
  refine ⟨.inl ⟨hopen, ?_⟩, ?_⟩
  · obtain ⟨o', ho', -⟩ := hinv.filed o.id n hn
    have hne : n ≠ m := by omega
    have hstop : (s.update m (·.stop)).objects n = some o' := (update_objects_ne s m _ hne).trans ho'
    simp only [step, State.byThread, ho, hrun, if_true, State.remove, update_sessions, hn]
    rw [State.isClosed, update_objects_self]
    grind [close_closed]
  · rintro (⟨t, h | h⟩ | ⟨t, o', h, -⟩ | hclosed)
    all_goals simp_all

end

/-- **Exactly when no thread is overtaken.** For every configuration and every run from
an empty registry: a session is closed or removed only by its own relay thread, by its own
idle expiry or after it was closed, if and only if no relay thread finishes while a newer
open session is registered under its id. -/
theorem sessions_kept_iff (cfg : Config) (events : List Event) :
    (∀ (before : List Event) (e : Event) (rest : List Event), events = before ++ e :: rest → ∀ n,
        Destroyed (after cfg .init before) (after cfg .init (before ++ [e])) n →
          Justified cfg (after cfg .init before) e n) ↔
      ∀ (before : List Event) (m now : Nat) (rest : List Event), events = before ++ .finish m now :: rest →
        ∀ n, ¬ Overtaken (after cfg .init before) m n := by
  have hsnoc : ∀ (before : List Event) (e : Event),
      after cfg .init (before ++ [e]) = (step cfg (after cfg .init before) e).2 := by
    intro before e
    simp only [after, List.foldl_append, List.foldl_cons, List.foldl_nil]
  constructor
  · intro hall before m now rest hev n hover
    obtain ⟨hdest, hnot⟩ := overtaken_destroys (inv_after cfg before inv_init) cfg now hover
    exact hnot (hall before _ rest hev n (by rw [hsnoc]; exact hdest))
  · intro hall before e rest hev n hdest
    rw [hsnoc] at hdest
    rcases step_justified (inv_after cfg before inv_init) cfg hdest with h | ⟨m, now, rfl, hover⟩
    · exact h
    · exact absurd hover (hall before m now rest hev n)

/-! ## Counterexample -/

/-- Idle for ten seconds is too long. -/
def tenSeconds : Config := ⟨65536, 1048576, 10⟩

/-- A request starts session 0. Eleven seconds later the next one finds it expired and
starts session 1 under the same id. Then the thread of session 0 notices. -/
def reused : List Event :=
  [.cleanup 0, .lookup "x" 0, .submit 0 [0x01] true 0, .cleanup 11, .lookup "x" 11,
    .submit 1 [0x02] true 11]

/-- Session 1 was open and registered, and the thread of session 0 has closed and removed
it. -/
theorem new_session_closed : (after tenSeconds .init reused).isClosed 1 = false ∧
      (after tenSeconds .init reused).sessions "x" = some 1 ∧
      (after tenSeconds .init (reused ++ [.finish 0 11])).isClosed 1 = true ∧
      (after tenSeconds .init (reused ++ [.finish 0 11])).sessions "x" = none := by
  decide

end Wrongsv.Bugs.RequestSessionReuse
