import Wrongsv.Core
import Wrongsv.Core.Table

/-!
# Request sessions

`server/handler/request_transport.rs` turns HTTP requests with a session id into a byte
stream: the registry leads an id to its `RequestSession`, a request puts its body into the
session and takes what is buffered for the client out of it, and a relay thread, started
with the session, is at the other end. When the thread is done it removes its id.

Session objects are told apart by their number (`Arc` identity), not by their id. A run is a
list of events in the order of the locks: both halves of `acquire`, the two halves of a
roundtrip, and what the relay thread of a session does. A call that waits happens when it
is done waiting. The uplink channel is only modelled as far as it can fail.

`Inv`: a session that is open is registered, and what is registered under an id is the
newest session of that id. `step_does` lists the effects of the events; everything about
runs is proved from it.
-/
namespace Wrongsv.L2.RequestTransport

/-- request_transport.rs:15-20; a timeout of zero is
none. -/
structure Config where
  maxResponseBytes : Nat
  maxBufferedResponseBytes : Nat
  idleTimeout : Nat
  deriving DecidableEq, Repr

/-- The limits of a session. -/
def Config.maxResponse (cfg : Config) : Nat := max cfg.maxResponseBytes 1

def Config.maxBuffered (cfg : Config) : Nat :=
  max (max cfg.maxBufferedResponseBytes cfg.maxResponseBytes) 1

/-! ## Sessions -/

/-- A session with the id it was created under and whether its relay thread runs. -/
structure RequestSession where
  id : String
  buffer : Bytes
  closed : Bool
  lastActivity : Nat
  running : Bool
  deriving DecidableEq, Repr

namespace RequestSession

def new (id : String) (now : Nat) : RequestSession := ⟨id, [], false, now, true⟩

def touch (now : Nat) (o : RequestSession) : RequestSession := { o with lastActivity := now }

def idleFor (now : Nat) (o : RequestSession) : Nat := now - o.lastActivity

def close (now : Nat) (o : RequestSession) : RequestSession :=
  if o.closed then o else { o.touch now with closed := true }

/-- request_transport.rs:179-197 -/
def readOutgoing (cfg : Config) (o : RequestSession) : Bytes × RequestSession :=
  (o.buffer.take cfg.maxResponse, { o with buffer := o.buffer.drop cfg.maxResponse })

inductive Push where
  | written (o : RequestSession)
  | blocked
  | brokenPipe

/-- request_transport.rs:199-214 -/
def pushOutgoing (cfg : Config) (block : Bytes) (now : Nat) (o : RequestSession) : Push :=
  if cfg.maxBuffered ≤ o.buffer.length ∧ o.closed = false then .blocked
  else if o.closed then .brokenPipe
  else .written { o.touch now with buffer := o.buffer ++ block }

/-- The test of `cleanup_locked`. -/
def expired (cfg : Config) (now : Nat) (o : RequestSession) : Bool :=
  o.closed || (cfg.idleTimeout ≠ 0 && cfg.idleTimeout ≤ o.idleFor now)

/-- The relay thread has returned. -/
def stop (o : RequestSession) : RequestSession := { o with running := false }

end RequestSession

/-! ## The registry and its users -/

/-- Where a roundtrip is: the session is acquired, the body is sent, or it is over. -/
inductive Phase where
  | acquired
  | reading
  | over
  deriving DecidableEq, Repr

structure Lease where
  session : Nat
  phase : Phase
  deriving DecidableEq, Repr

/-- The registry, and all sessions and leases there ever were. -/
structure State where
  sessions : Table String Nat
  objects : Table Nat RequestSession
  created : Nat
  leases : Table Nat Lease
  granted : Nat

def State.init : State := ⟨.empty, .empty, 0, .empty, 0⟩

namespace State

/-- Something happens to session `n`. -/
def update (s : State) (n : Nat) (f : RequestSession → RequestSession) : State :=
  { s with objects := Function.update s.objects n ((s.objects n).map f) }

def grant (s : State) (n : Nat) : State :=
  { s with leases := s.leases.insert s.granted ⟨n, .acquired⟩, granted := s.granted + 1 }

def setPhase (s : State) (k n : Nat) (phase : Phase) : State :=
  { s with leases := s.leases.insert k ⟨n, phase⟩ }

/-- The session is closed and not just idle; an unknown one counts as closed.
request_transport.rs:154-156 -/
def isClosed (s : State) (n : Nat) : Bool := ((s.objects n).map (·.closed)).getD true

def isExpired (s : State) (cfg : Config) (now n : Nat) : Bool :=
  ((s.objects n).map (·.expired cfg now)).getD true

/-- request_transport.rs:70-86 -/
def cleanupLocked (s : State) (cfg : Config) (now : Nat) : State :=
  { s with
    sessions := fun id => (s.sessions id).filter (fun n => !s.isExpired cfg now n)
    objects := fun n => (s.objects n).map fun o =>
      if s.sessions o.id = some n ∧ cfg.idleTimeout ≠ 0 ∧ o.expired cfg now = true then o.close now else o }

/-- `acquire` behind the cleanup: the session of the id if it is open, or a new one. -/
def lookup (s : State) (id : String) (now : Nat) : State :=
  match (s.sessions id).filter (fun n => !s.isClosed n) with
  | some n => s.grant n
  | none =>
    { s with
      sessions := s.sessions.insert id s.created
      objects := s.objects.insert s.created (.new id now)
      created := s.created + 1 }.grant s.created

def remove (s : State) (id : String) (now : Nat) : State :=
  match s.sessions id with
  | none => s
  | some n => { s with sessions := s.sessions.remove id }.update n (·.close now)

end State

/-- `submit` is the first half of `submit_roundtrip`, `sent` whether the relay thread
still takes bodies; `read` is the second half. `write`, `close` and `finish` are what
the relay thread of a session does. -/
inductive Event where
  | cleanup (now : Nat)
  | lookup (id : String) (now : Nat)
  | submit (lease : Nat) (body : Bytes) (sent : Bool) (now : Nat)
  | read (lease : Nat)
  | write (session : Nat) (block : Bytes) (now : Nat)
  | close (session now : Nat)
  | finish (session now : Nat)
  deriving DecidableEq, Repr

/-- What an event gives: a response for the client of a session, or a block that is
accepted from its relay thread. -/
inductive Output where
  | response (session : Nat) (body : Bytes)
  | accepted (session : Nat) (block : Bytes)
  deriving DecidableEq, Repr

/-- A step of the relay thread of session `n`, as long as there is one. -/
def State.byThread (s : State) (n : Nat) (act : RequestSession → Option Output × State) :
    Option Output × State :=
  match s.objects n with
  | none => (none, s)
  | some o => if o.running then act o else (none, s)

def step (cfg : Config) (s : State) : Event → Option Output × State
  | .cleanup now => (none, s.cleanupLocked cfg now)
  | .lookup id now => (none, s.lookup id now)
  -- mirrors request_transport.rs:128-141,160-175
  | .submit k body sent now =>
    match s.leases k with
    | some ⟨n, .acquired⟩ =>
      let phase := if body = [] ∨ (s.isClosed n = false ∧ sent = true) then Phase.reading else .over
      (none, (s.update n (·.touch now)).setPhase k n phase)
    | _ => (none, s)
  | .read k =>
    match s.leases k with
    | some ⟨n, .reading⟩ =>
      match s.objects n with
      | none => (none, s)
      | some o =>
        (some (.response n (o.readOutgoing cfg).1),
          (s.update n (fun o => (o.readOutgoing cfg).2)).setPhase k n .over)
    | _ => (none, s)
  | .write n block now =>
    s.byThread n fun o =>
      match o.pushOutgoing cfg block now with
      | .written o' => (some (.accepted n block), s.update n (fun _ => o'))
      | _ => (none, s)
  | .close n now => s.byThread n fun _ => (none, s.update n (·.close now))
  -- mirrors request_transport.rs:420-436
  | .finish n now => s.byThread n fun o => (none, (s.update n (·.stop)).remove o.id now)

/-- The state behind a run. -/
def after (cfg : Config) (s : State) (events : List Event) : State :=
  events.foldl (fun s e => (step cfg s e).2) s

/-! ## What always holds -/

structure Inv (s : State) : Prop where
  fresh : ∀ n, s.created ≤ n → s.objects n = none
  filed : ∀ id n, s.sessions id = some n → ∃ o, s.objects n = some o ∧ o.id = id
  newest : ∀ id n m o, s.sessions id = some n → s.objects m = some o → o.id = id → m ≤ n
  open_registered : ∀ n o, s.objects n = some o → o.closed = false → s.sessions o.id = some n

theorem inv_init : Inv .init :=
  ⟨fun _ _ => rfl, fun _ _ h => (nomatch h), fun _ _ _ _ h => (nomatch h), fun _ _ h => (nomatch h)⟩

section
variable (s : State) (n : Nat) (f : RequestSession → RequestSession)

@[simp] theorem update_objects_self : (s.update n f).objects n = (s.objects n).map f :=
  Function.update_self ..

theorem update_objects_ne {m : Nat} (h : m ≠ n) : (s.update n f).objects m = s.objects m :=
  Function.update_of_ne h ..

@[simp] theorem update_sessions : (s.update n f).sessions = s.sessions := rfl

theorem update_objects_some {m : Nat} {o : RequestSession} (h : (s.update n f).objects m = some o) :
    ∃ o₀, s.objects m = some o₀ ∧ (o = o₀ ∨ o = f o₀) := by
  grind [update_objects_self, update_objects_ne, Option.map_eq_some_iff]

end

variable {f : RequestSession → RequestSession}

theorem map_update {β : Type} (g : RequestSession → β)
    (hf : ∀ o, g (f o) = g o) (s : State) (n m : Nat) :
    ((s.update n f).objects m).map g = (s.objects m).map g := by
  by_cases hm : m = n
  · subst hm
    rw [update_objects_self, Option.map_map]
    exact congrArg (fun h => (s.objects m).map h) (funext hf)
  · rw [update_objects_ne s n f hm]

variable {s : State} {n : Nat} {o : RequestSession}

theorem isClosed_of (h : s.objects n = some o) : s.isClosed n = o.closed := by
  rw [State.isClosed, h]
  rfl

theorem Inv.lt_created (h : Inv s) (hn : s.objects n = some o) : n < s.created := by
  by_contra hle
  rw [h.fresh n (Nat.le_of_not_lt hle)] at hn
  cases hn

/-- What the code does to a session: it keeps its id, and is not opened again. -/
def Keeps (f : RequestSession → RequestSession) : Prop :=
  ∀ o, (f o).id = o.id ∧ ((f o).closed = false → o.closed = false)

theorem keeps_close (now : Nat) : Keeps (·.close now) := by
  intro o
  simp only [RequestSession.close]
  split
  · exact ⟨rfl, id⟩
  · exact ⟨rfl, fun h => nomatch h⟩

theorem keeps_of_eq (hid : ∀ o, (f o).id = o.id)
    (hclosed : ∀ o, (f o).closed = o.closed) : Keeps f :=
  fun o => ⟨hid o, fun h => (hclosed o).symm.trans h⟩

theorem close_closed (now : Nat) (o : RequestSession) : (o.close now).closed = true := by
  unfold RequestSession.close
  split
  · assumption
  · rfl

theorem Inv.update (h : Inv s) (n : Nat) (hf : Keeps f) :
    Inv (s.update n f) := by
  have hback : ∀ m o, (s.update n f).objects m = some o →
      ∃ o₀, s.objects m = some o₀ ∧ o.id = o₀.id ∧ (o.closed = false → o₀.closed = false) := by
    intro m o hm
    obtain ⟨o₀, h₀, rfl | rfl⟩ := update_objects_some s n f hm
    · exact ⟨_, h₀, rfl, id⟩
    · exact ⟨o₀, h₀, hf o₀⟩
  refine ⟨fun m hm => ?_, fun id m hm => ?_, fun id m k o hm hk hid => ?_, fun m o hm hopen => ?_⟩
  · cases hobj : (s.update n f).objects m with
    | none => rfl
    | some o =>
      obtain ⟨o₀, h₀, -⟩ := hback m o hobj
      rw [h.fresh m hm] at h₀
      cases h₀
  · obtain ⟨o, ho, hid⟩ := h.filed id m hm
    grind [update_objects_self, update_objects_ne]
  · obtain ⟨o₀, h₀, hid₀, -⟩ := hback k o hk
    exact h.newest id m k o₀ hm h₀ (hid₀.symm.trans hid)
  · obtain ⟨o₀, h₀, hid₀, hcl⟩ := hback m o hm
    rw [update_sessions, hid₀]
    exact h.open_registered m o₀ h₀ (hcl hopen)

/-- An id may be taken out of the registry when its session is closed. -/
theorem Inv.removeId (h : Inv s) {id : String} (hn : s.sessions id = some n)
    (hclosed : s.isClosed n = true) : Inv { s with sessions := s.sessions.remove id } := by
  refine ⟨h.fresh, fun id' m hm => ?_, fun id' m k o hm hk hid => ?_, fun m o hm hopen => ?_⟩
  · by_cases hid : id' = id
    · simp [hid] at hm
    · exact h.filed id' m ((Table.remove_of_ne _ hid).symm.trans hm)
  · by_cases hid' : id' = id
    · simp [hid'] at hm
    · exact h.newest id' m k o ((Table.remove_of_ne _ hid').symm.trans hm) hk hid
  · have hreg := h.open_registered m o hm hopen
    grind [isClosed_of, Option.some.injEq, Table.remove_of_ne]

theorem Inv.grant (h : Inv s) (n : Nat) : Inv (s.grant n) :=
  ⟨h.fresh, h.filed, h.newest, h.open_registered⟩

theorem Inv.setPhase (h : Inv s) (k n : Nat) (phase : Phase) : Inv (s.setPhase k n phase) :=
  ⟨h.fresh, h.filed, h.newest, h.open_registered⟩

theorem Inv.cleanupLocked (h : Inv s) (cfg : Config) (now : Nat) :
    Inv (s.cleanupLocked cfg now) := by
  have hback : ∀ m o, (s.cleanupLocked cfg now).objects m = some o →
      ∃ o₀, s.objects m = some o₀ ∧ o.id = o₀.id ∧ (o.closed = false → o₀ = o ∧ o₀.closed = false) ∧
        (s.sessions o₀.id = some m ∧ cfg.idleTimeout ≠ 0 ∧ o₀.expired cfg now = true → o.closed = true) := by
    intro m o hm
    obtain ⟨o₀, h₀, rfl⟩ := Option.map_eq_some_iff.mp hm
    refine ⟨o₀, h₀, ?_⟩
    split
    · refine ⟨(keeps_close now o₀).1, fun hc => ?_, fun _ => close_closed now o₀⟩
      rw [close_closed] at hc
      cases hc
    · simp_all
  have hsess : ∀ id m, (s.cleanupLocked cfg now).sessions id = some m →
      s.sessions id = some m ∧ s.isExpired cfg now m = false := by
    intro id m hm
    obtain ⟨hs, he⟩ := Option.filter_eq_some_iff.mp hm
    exact ⟨hs, by simpa using he⟩
  refine ⟨fun m hm => ?_, fun id m hm => ?_, fun id m k o hm hk hid => ?_, fun m o hm hopen => ?_⟩
  · show (s.objects m).map _ = none
    rw [h.fresh m hm]
    rfl
  · obtain ⟨o, ho, hid⟩ := h.filed id m (hsess id m hm).1
    refine ⟨_, congrArg (Option.map _) ho, ?_⟩
    dsimp only
    split
    · exact (keeps_close now o).1.trans hid
    · exact hid
  · obtain ⟨o₀, h₀, hid₀, -⟩ := hback k o hk
    exact h.newest id m k o₀ (hsess id m hm).1 h₀ (hid₀.symm.trans hid)
  · obtain ⟨o₀, h₀, hid₀, hcl, hexp⟩ := hback m o hm
    obtain ⟨rfl, hopen₀⟩ := hcl hopen
    have hreg := h.open_registered m o₀ h₀ hopen₀
    have hnot : o₀.expired cfg now = false := by
      by_contra he
      by_cases hz : cfg.idleTimeout = 0
      · simp [RequestSession.expired, hopen₀, hz] at he
      all_goals grind
    show (s.sessions o₀.id).filter _ = some m
    rw [hreg, Option.filter_some, State.isExpired, h₀, Option.map_some, Option.getD_some, hnot]
    rfl

theorem Inv.lookup (h : Inv s) (id : String) (now : Nat) : Inv (s.lookup id now) := by
  unfold State.lookup
  split
  · exact h.grant _
  apply Inv.grant
  -- whatever is registered under the id is closed
  have hclosed : ∀ n o, s.objects n = some o → o.id = id → o.closed = true := by
    intro n o hn hid
    by_contra hopen
    rw [Bool.not_eq_true] at hopen
    have hreg := h.open_registered n o hn hopen
    grind [isClosed_of]
  have hcases : ∀ m o, (s.objects.insert s.created (.new id now)) m = some o →
      (m = s.created ∧ o = .new id now) ∨ (m ≠ s.created ∧ s.objects m = some o) := by
    intro m o hm
    by_cases hmc : m = s.created
    · simp_all
    · rw [Table.insert_of_ne _ hmc] at hm
      exact .inr ⟨hmc, hm⟩
  refine ⟨fun m hm => ?_, fun id' m hm => ?_, fun id' m k o hm hk hid => ?_, fun m o hm hopen => ?_⟩
  · have hne : m ≠ s.created := by
      have : s.created + 1 ≤ m := hm
      omega
    exact (Table.insert_of_ne _ hne _).trans (h.fresh m (by have : s.created + 1 ≤ m := hm; omega))
  · by_cases hid : id' = id
    · subst hid
      simp only [Table.insert_self, Option.some.injEq] at hm
      subst hm
      exact ⟨_, Table.insert_self _ _ _, rfl⟩
    · simp only [Table.insert_of_ne _ hid] at hm
      obtain ⟨o, ho, ho'⟩ := h.filed id' m hm
      exact ⟨o, (Table.insert_of_ne _ (Nat.ne_of_lt (h.lt_created ho)) _).trans ho, ho'⟩
  · by_cases hid' : id' = id
    · subst hid'
      simp only [Table.insert_self, Option.some.injEq] at hm
      rcases hcases k o hk with ⟨rfl, -⟩ | ⟨-, ho⟩
      · omega
      · have := h.lt_created ho
        omega
    · simp only [Table.insert_of_ne _ hid'] at hm
      rcases hcases k o hk with ⟨-, rfl⟩ | ⟨-, ho⟩
      · exact absurd hid.symm hid'
      · exact h.newest id' m k o hm ho hid
  · rcases hcases m o hm with ⟨rfl, rfl⟩ | ⟨-, ho⟩
    · exact Table.insert_self _ _ _
    · have hne : o.id ≠ id := by
        grind
      exact (Table.insert_of_ne _ hne _).trans (h.open_registered m o ho hopen)

theorem Inv.remove (h : Inv s) (id : String) (now : Nat) : Inv (s.remove id now) := by
  unfold State.remove
  cases hn : s.sessions id with
  | none => exact h
  | some n =>
    -- the same as closing first and then removing
    have hup := h.update n (keeps_close now)
    have hclosed : (s.update n (·.close now)).isClosed n = true := by
      rw [State.isClosed, update_objects_self]
      cases s.objects n with
      | none => rfl
      | some o => exact close_closed now o
    exact hup.removeId (by rw [update_sessions]; exact hn) hclosed

/-! ## What an event does -/

/-- The effects an event can have. -/
inductive Does (cfg : Config) (s : State) : Event → Option Output × State → Prop where
  | nothing {e : Event} : Does cfg s e (none, s)
  | cleaned {now : Nat} : Does cfg s (.cleanup now) (none, s.cleanupLocked cfg now)
  | looked {id : String} {now : Nat} : Does cfg s (.lookup id now) (none, s.lookup id now)
  | submitted {k n : Nat} {body : Bytes} {sent : Bool} {now : Nat} {phase : Phase}
      (lease : s.leases k = some ⟨n, .acquired⟩) :
      Does cfg s (.submit k body sent now) (none, (s.update n (·.touch now)).setPhase k n phase)
  | answered {k n : Nat} {o : RequestSession} (lease : s.leases k = some ⟨n, .reading⟩)
      (object : s.objects n = some o) :
      Does cfg s (.read k) (some (.response n (o.buffer.take cfg.maxResponse)),
        (s.update n fun o => { o with buffer := o.buffer.drop cfg.maxResponse }).setPhase k n .over)
  | wrote {n : Nat} {block : Bytes} {now : Nat} {o : RequestSession} (object : s.objects n = some o)
      (isOpen : o.closed = false) (room : o.buffer.length < cfg.maxBuffered) :
      Does cfg s (.write n block now) (some (.accepted n block),
        s.update n fun o => { o.touch now with buffer := o.buffer ++ block })
  | closed {n now : Nat} : Does cfg s (.close n now) (none, s.update n (·.close now))
  | finished {n now : Nat} {o : RequestSession} (object : s.objects n = some o) (running : o.running = true) :
      Does cfg s (.finish n now) (none, (s.update n (·.stop)).remove o.id now)

theorem does_byThread {cfg : Config} {e : Event} {act : RequestSession → Option Output × State}
    (hact : ∀ o, s.objects n = some o → o.running = true → Does cfg s e (act o)) :
    Does cfg s e (s.byThread n act) := by
  unfold State.byThread
  split
  · exact .nothing
  rename_i o ho
  split
  · rename_i hrun
    exact hact o ho hrun
  · exact .nothing

theorem step_does (cfg : Config) (s : State) (e : Event) : Does cfg s e (step cfg s e) := by
  cases e with
  | cleanup now => exact .cleaned
  | lookup id now => exact .looked
  | submit k body sent now =>
    simp only [step]
    split
    · rename_i hl
      exact .submitted hl
    · exact .nothing
  | read k =>
    simp only [step]
    split
    · rename_i hl
      split
      · exact .nothing
      · rename_i ho
        exact .answered hl ho
    · exact .nothing
  | write n block now =>
    refine does_byThread fun o ho _ => ?_
    simp only [RequestSession.pushOutgoing]
    by_cases hfull : cfg.maxBuffered ≤ o.buffer.length ∧ o.closed = false
    · rw [if_pos hfull]
      exact .nothing
    · rw [if_neg hfull]
      cases hc : o.closed with
      | true => exact .nothing
      | false =>
        -- the session found is the one that is written back
        have hsame : s.update n (fun _ => { o.touch now with buffer := o.buffer ++ block }) =
            s.update n (fun o => { o.touch now with buffer := o.buffer ++ block }) := by
          simp only [State.update, ho, Option.map_some]
        grind [Does]
  | close n now => exact does_byThread fun _ _ _ => .closed
  | finish n now => exact does_byThread fun _ ho hrun => .finished ho hrun

theorem Inv.step (h : Inv s) (cfg : Config) (e : Event) : Inv (step cfg s e).2 := by
  -- these updates touch neither the id nor the flag
  have hquiet : ∀ {n : Nat} {f : RequestSession → RequestSession}, (∀ o, (f o).id = o.id) →
      (∀ o, (f o).closed = o.closed) → Inv (s.update n f) := fun hid hclosed => h.update _ (keeps_of_eq hid hclosed)
  have hdoes := step_does cfg s e
  generalize RequestTransport.step cfg s e = r at hdoes ⊢
  cases hdoes with
  | nothing => exact h
  | cleaned => exact h.cleanupLocked cfg _
  | looked => exact h.lookup _ _
  | submitted lease =>
    apply Inv.setPhase
    exact hquiet (fun _ => rfl) (fun _ => rfl)
  | answered lease object => grind [Inv.setPhase]
  | wrote object isOpen room => exact hquiet (fun _ => rfl) (fun _ => rfl)
  | closed => exact h.update _ (keeps_close _)
  | finished object running =>
    apply Inv.remove
    exact hquiet (fun _ => rfl) (fun _ => rfl)

theorem inv_after (cfg : Config) (events : List Event) :
    ∀ {s : State}, Inv s → Inv (after cfg s events) := by
  induction events with
  | nil => intro s h; exact h
  | cons e events ih => intro s h; exact ih (h.step cfg e)

end Wrongsv.L2.RequestTransport
