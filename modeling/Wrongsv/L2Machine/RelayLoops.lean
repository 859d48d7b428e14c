import Wrongsv.Core

/-!
# Relays between a client and a target

The relays of server/handler after a session has been set up. Most are one loop in one
thread that turns from one side to the other; they differ in which side comes first,
whether a side is read until nothing is left, whether the client's read waits, and what an
end of stream means (`Shape`). `relay_raw` has a thread for each direction.

`Wires` is what has arrived from both sides and was not read yet. The two sides act whenever
they want (`Outside`); a read of the target that finds nothing is a timeout, which ends
`relay_raw` and no other. Reads and writes do not fail else; a write to a channel adapter that has seen the client's end of stream
does (`brokenAfterEof`). What Vision makes of a block does not matter here: `forwarded` are
the bytes of the target that were written towards the client.

Results: `move_effect`, `run_inv`, `reaches_rest`, `raw_run_inv`.
-/
namespace Wrongsv.L2.RelayLoops
open List

/-! ## The two sides -/

abbrev Block := { b : Bytes // b ≠ [] }

def Block.byte (b : UInt8) : Block := ⟨[b], by simp⟩

structure Wires where
  target : List Block
  targetClosed : Bool
  client : List Bytes
  clientClosed : Bool
  /-- all that the target has sent -/
  sent : Bytes
  deriving DecidableEq, Repr

inductive Outside where
  | targetSends (b : Block)
  | targetCloses
  | clientSends (chunk : Bytes)
  | clientCloses
  deriving DecidableEq, Repr

def Wires.empty : Wires := ⟨[], false, [], false, []⟩

/-- Who has closed sends no more. -/
def Wires.outside (w : Wires) : Outside → Wires
  | .targetSends b => if w.targetClosed then w else { w with target := w.target ++ [b], sent := w.sent ++ b.val }
  | .targetCloses => { w with targetClosed := true }
  | .clientSends chunk => if w.clientClosed then w else { w with client := w.client ++ [chunk] }
  | .clientCloses => { w with clientClosed := true }

def unread (blocks : List Block) : Bytes := blocks.flatMap Subtype.val

/-! ## Relays in general -/

/-- A relay with states `R`; `M` says which of its threads moves. -/
structure Relay (R M : Type) where
  start : R
  /-- chunks the client's side can bring -/
  admits : Bytes → Bool
  move : M → R → Wires → R × Wires
  ended : R → Bool
  forwarded : R → Bytes
  move_sent : ∀ m r w, (move m r w).2.sent = w.sent
  move_targetClosed : ∀ m r w, (move m r w).2.targetClosed = w.targetClosed

structure State (R : Type) where
  relay : R
  wires : Wires
  deriving DecidableEq, Repr

inductive Event (M : Type) where
  | outside (o : Outside)
  | move (m : M)
  deriving DecidableEq, Repr

namespace Relay

variable {R M : Type} (relay : Relay R M)

def admitsEvent : Outside → Bool
  | .clientSends chunk => relay.admits chunk
  | _ => true

def step (s : State R) : Event M → State R
  | .outside o => if relay.admitsEvent o then { s with wires := s.wires.outside o } else s
  | .move m =>
    if relay.ended s.relay then s
    else ⟨(relay.move m s.relay s.wires).1, (relay.move m s.relay s.wires).2⟩

def run (s : State R) (events : List (Event M)) : State R := events.foldl relay.step s

def init : State R := ⟨relay.start, .empty⟩

/-- The relay, with nothing coming from outside. -/
def alone (m : M) (s : State R) (n : Nat) : State R := relay.run s (List.replicate n (.move m))

theorem run_append (s : State R) (front later : List (Event M)) :
    relay.run s (front ++ later) = relay.run (relay.run s front) later := foldl_append

theorem run_induction {P : State R → Prop} (hstep : ∀ s e, P s → P (relay.step s e))
    (events : List (Event M)) : ∀ {s : State R}, P s → P (relay.run s events) := by
  induction events with
  | nil => exact fun h => h
  | cons e events ih => exact fun h => ih (hstep _ e h)

theorem run_ended {s : State R} (h : relay.ended s.relay = true) (events : List (Event M)) :
    (relay.run s events).relay = s.relay := by
  refine relay.run_induction (P := fun s' => s'.relay = s.relay) (fun s' e hs => ?_) events rfl
  cases e with
  | outside o =>
    rw [step]
    split
    · exact hs
    · exact hs
  | move m =>
    rw [step, hs, if_pos h]
    exact hs

theorem step_move {s : State R} (h : relay.ended s.relay = false) (m : M) : relay.step s (.move m) =
    ⟨(relay.move m s.relay s.wires).1, (relay.move m s.relay s.wires).2⟩ := by
  rw [step, if_neg (by rw [h]; exact Bool.false_ne_true)]

theorem step_move_wires (s : State R) (m : M) : (relay.step s (.move m)).wires.sent = s.wires.sent ∧
      (relay.step s (.move m)).wires.targetClosed = s.wires.targetClosed := by
  rw [step]
  split
  · exact ⟨rfl, rfl⟩
  · exact ⟨relay.move_sent _ _ _, relay.move_targetClosed _ _ _⟩

end Relay

/-- What the sides do in a run. -/
def Event.outside? {M : Type} : Event M → Option Outside
  | .outside o => some o
  | .move _ => none

/-- The target sends `d` and closes, the client does nothing. -/
def Downloads {M : Type} (later : List (Event M)) (d : Bytes) : Prop :=
  ∃ blocks : List Block, unread blocks = d ∧
    later.filterMap Event.outside? = blocks.map .targetSends ++ [.targetCloses]

section
variable {R M : Type} {relay : Relay R M}

theorem run_moves {later : List (Event M)} (h : later.filterMap Event.outside? = []) (s : State R) :
    (relay.run s later).wires.sent = s.wires.sent ∧
      (relay.run s later).wires.targetClosed = s.wires.targetClosed := by
  induction later generalizing s with
  | nil => exact ⟨rfl, rfl⟩
  | cons e later ih =>
    cases e with
    | outside o => simp [Event.outside?] at h
    | move m =>
      obtain ⟨hsent, hclosed⟩ := relay.step_move_wires s m
      obtain ⟨hsent', hclosed'⟩ := ih (by simpa [Event.outside?] using h) (relay.step s (.move m))
      exact ⟨hsent'.trans hsent, hclosed'.trans hclosed⟩

theorem run_downloads {later : List (Event M)} : ∀ {s : State R} {blocks : List Block},
    s.wires.targetClosed = false →
    later.filterMap Event.outside? = blocks.map .targetSends ++ [.targetCloses] →
    (relay.run s later).wires.sent = s.wires.sent ++ unread blocks ∧
      (relay.run s later).wires.targetClosed = true := by
  induction later with
  | nil =>
    intro s blocks _ h
    simp at h
  | cons e later ih =>
    intro s blocks hopen h
    cases e with
    | move m =>
      obtain ⟨hsent, hclosed⟩ := relay.step_move_wires s m
      have hrest := @ih (relay.step s (.move m)) blocks (hclosed.trans hopen) h
      rw [hsent] at hrest
      exact hrest
    | outside o =>
      cases blocks with
      | nil =>
        simp only [filterMap_cons, Event.outside?, map_nil, nil_append, List.cons.injEq] at h
        obtain ⟨rfl, hrest⟩ := h
        obtain ⟨hsent, hclosed⟩ := run_moves hrest (relay.step s (.outside .targetCloses))
        refine ⟨hsent.trans ?_, hclosed.trans rfl⟩
        simp [unread, Relay.step, Relay.admitsEvent, Wires.outside]
      | cons b blocks =>
        simp only [filterMap_cons, Event.outside?, map_cons, cons_append, List.cons.injEq] at h
        obtain ⟨rfl, hrest⟩ := h
        have hstep : relay.step s (.outside (.targetSends b)) =
            { s with wires := { s.wires with target := s.wires.target ++ [b], sent := s.wires.sent ++ b.val } } := by
          simp [Relay.step, Relay.admitsEvent, Wires.outside, hopen]
        have hlater := @ih (relay.step s (.outside (.targetSends b))) blocks (by rw [hstep]; exact hopen) hrest
        simpa [unread, hstep, Relay.run, append_assoc] using hlater

end

/-! ## Loops -/

/-- Why a loop has ended. -/
inductive End where
  | targetEof
  | clientEof
  /-- both, in a loop that goes on after one of them -/
  | bothEof
  /-- a write to an adapter that has seen the client's end of stream -/
  | brokenPipe
  deriving DecidableEq, Repr

/-- The read a loop is at. -/
inductive Pc where
  | target
  | client
  | ended (why : End)
  deriving DecidableEq, Repr

structure Shape where
  first : Pc
  /-- after a block the target is read again -/
  drainsTarget : Bool
  /-- after a chunk the client is read again -/
  drainsClient : Bool
  /-- the client is read from a channel: the read waits, and no bytes are `Ok(0)` -/
  waits : Bool
  /-- a chunk can have no bytes -/
  emptyChunks : Bool
  /-- the client's end of stream is not the end of the loop -/
  halfClose : Bool
  brokenAfterEof : Bool
  deriving DecidableEq, Repr

structure Loop where
  pc : Pc
  /-- the target's end of stream has been read -/
  downDone : Bool
  /-- `eof` of the adapter -/
  eof : Bool
  forwarded : Bytes
  /-- what was read from the client and goes to the target -/
  up : Bytes
  deriving DecidableEq, Repr

/-- `Ok(0)` of the client. -/
def Shape.clientEof (shape : Shape) (l : Loop) : Loop :=
  if shape.halfClose then
    if l.downDone then { l with pc := .ended .bothEof } else { l with pc := .target }
  else { l with pc := .ended .clientEof }

def Shape.move (shape : Shape) (l : Loop) (w : Wires) : Loop × Wires :=
  match l.pc with
  | .ended _ => (l, w)
  | .target =>
    match w.target with
    | block :: rest =>
      if shape.brokenAfterEof && l.eof then ({ l with pc := .ended .brokenPipe }, { w with target := rest })
      else ({ l with forwarded := l.forwarded ++ block.val, pc := if shape.drainsTarget then
        .target else .client }, { w with target := rest })
    | [] =>
      if w.targetClosed then
        -- a loop that survives the client's end of stream looks at the client once more
        if shape.halfClose then ({ l with downDone := true, pc := .client }, w)
        else ({ l with pc := .ended .targetEof }, w)
      else ({ l with pc := .client }, w)
  | .client =>
    match w.client with
    | chunk :: rest =>
      if shape.waits && chunk.isEmpty then (shape.clientEof l, { w with client := rest })
      else ({ l with up := l.up ++ chunk, pc := if shape.drainsClient then .client else .target },
        { w with client := rest })
    | [] =>
      if w.clientClosed then (shape.clientEof { l with eof := true }, w)
      else if shape.waits then (l, w)
      else ({ l with pc := .target }, w)

def Loop.ended (l : Loop) : Bool :=
  match l.pc with
  | .ended _ => true
  | _ => false

theorem Shape.move_wires (shape : Shape) (l : Loop) (w : Wires) :
    (shape.move l w).2.sent = w.sent ∧ (shape.move l w).2.targetClosed = w.targetClosed ∧
      (shape.move l w).2.clientClosed = w.clientClosed := by
  grind [Shape.move]

def Shape.relay (shape : Shape) : Relay Loop Unit where
  start := ⟨shape.first, false, false, [], []⟩
  admits := fun chunk => shape.emptyChunks || !chunk.isEmpty
  move := fun _ => shape.move
  ended := Loop.ended
  forwarded := Loop.forwarded
  move_sent := fun _ l w => (shape.move_wires l w).1
  move_targetClosed := fun _ l w => (shape.move_wires l w).2.1

/-- server/handler/quic.rs:179-223,348-375 -/
def relayQuicRaw : Shape := ⟨.target, true, false, true, false, false, true⟩

/-- server/handler/webtransport.rs:211-255,385-412 -/
def relayWtRaw : Shape := ⟨.target, true, false, true, false, false, true⟩

/-- server/handler/quic.rs:380-482 -/
def relayQuicVision : Shape := ⟨.target, true, true, true, false, true, true⟩

/-- server/handler/webtransport.rs:417-519 -/
def relayWtVision : Shape := ⟨.target, true, true, true, false, true, true⟩

/-- Hunks can be empty, and writing goes on after the client's end of stream.
server/handler/grpc.rs:158-196,584-658 -/
def relayGrpcVision : Shape := ⟨.target, true, true, true, true, true, false⟩

/-- The client's socket has a read timeout; a read may complete no record.
server/handler/reality.rs:199-247 -/
def relayReality : Shape := ⟨.client, false, false, false, true, false, false⟩

/-- server/handler/anytls.rs:400-435 -/
def relaySingRaw : Shape := ⟨.target, false, false, false, true, false, false⟩

/-- server/handler/tls_relay.rs:64-89; the target is the local socket -/
def tlsRelay : Shape := ⟨.client, false, false, false, true, false, false⟩

/-! ## Two threads -/

/-- Which thread moves. `expire`: the read of the target has waited for the 300 seconds that
its callers set (vless.rs:139, httpupgrade.rs:403). -/
inductive Thread where
  | up
  | down
  | expire
  deriving DecidableEq, Repr

structure Threads where
  upEnded : Bool
  downEnded : Bool
  timedOut : Bool
  forwarded : Bytes
  up : Bytes
  deriving DecidableEq, Repr

def relayRawMove : Thread → Threads → Wires → Threads × Wires
  | .up, r, w =>
    if r.upEnded then (r, w)
    else
      match w.client with
      | chunk :: rest => ({ r with up := r.up ++ chunk }, { w with client := rest })
      | [] => if w.clientClosed then ({ r with upEnded := true }, w) else (r, w)
  | .down, r, w =>
    if r.downEnded then (r, w)
    else
      match w.target with
      | block :: rest => ({ r with forwarded := r.forwarded ++ block.val }, { w with target := rest })
      | [] => if w.targetClosed then ({ r with downEnded := true }, w) else (r, w)
  | .expire, r, w =>
    -- any `Err` of the read ends the thread
    if r.downEnded || w.targetClosed || !w.target.isEmpty then (r, w)
    else ({ r with downEnded := true, timedOut := true }, w)

theorem relayRawMove_wires (t : Thread) (r : Threads) (w : Wires) : (relayRawMove t r w).2.sent =
    w.sent ∧ (relayRawMove t r w).2.targetClosed = w.targetClosed := by
  unfold relayRawMove
  repeat' split
  all_goals exact ⟨rfl, rfl⟩

/-- server/handler/relay.rs:332-387 -/
def relayRaw : Relay Threads Thread where
  start := ⟨false, false, false, [], []⟩
  admits := fun chunk => !chunk.isEmpty
  move := relayRawMove
  ended := fun r => r.upEnded && r.downEnded
  forwarded := Threads.forwarded
  move_sent := fun t r w => (relayRawMove_wires t r w).1
  move_targetClosed := fun t r w => (relayRawMove_wires t r w).2

/-! ## What a loop does -/

section
variable {shape : Shape} {l l' : Loop} {w w' : Wires}

/-- The effects of a step of a loop that has not ended. -/
inductive Effect (shape : Shape) (l : Loop) (w : Wires) : Loop → Wires → Prop where
  | forwards (block : Block) (rest : List Block) (pc : l.pc = .target) (target : w.target = block :: rest)
      (unbroken : (shape.brokenAfterEof && l.eof) = false) :
      Effect shape l w
        { l with forwarded := l.forwarded ++ block.val, pc := if shape.drainsTarget then .target else .client }
        { w with target := rest }
  | breaks (block : Block) (rest : List Block) (pc : l.pc = .target) (target : w.target = block :: rest)
      (broken : shape.brokenAfterEof = true) (eof : l.eof = true) :
      Effect shape l w { l with pc := .ended .brokenPipe } { w with target := rest }
  | targetEof (pc : l.pc = .target) (target : w.target = []) (closed : w.targetClosed = true)
      (halfClose : shape.halfClose = false) : Effect shape l w { l with pc := .ended .targetEof } w
  | downDone (pc : l.pc = .target) (target : w.target = []) (closed : w.targetClosed = true)
      (halfClose : shape.halfClose = true) : Effect shape l w { l with downDone := true, pc := .client } w
  | timeout (pc : l.pc = .target) (target : w.target = []) (running : w.targetClosed = false) :
      Effect shape l w { l with pc := .client } w
  | chunk (chunk : Bytes) (rest : List Bytes) (pc : l.pc = .client) (client : w.client = chunk :: rest) :
      Effect shape l w { l with up := l.up ++ chunk, pc := if shape.drainsClient then .client else .target }
        { w with client := rest }
  | emptyChunk (rest : List Bytes) (pc : l.pc = .client) (client : w.client = [] :: rest)
      (waits : shape.waits = true) : Effect shape l w (shape.clientEof l) { w with client := rest }
  | clientEof (pc : l.pc = .client) (client : w.client = []) (closed : w.clientClosed = true) :
      Effect shape l w (shape.clientEof { l with eof := true }) w
  | wait (pc : l.pc = .client) (client : w.client = []) (running : w.clientClosed = false)
      (waits : shape.waits = true) : Effect shape l w l w
  | wouldBlock (pc : l.pc = .client) (client : w.client = []) (running : w.clientClosed = false)
      (waits : shape.waits = false) : Effect shape l w { l with pc := .target } w

theorem Effect.of_move {l' : Loop} {w' : Wires} (h : Effect shape l w l' w') (hmove : shape.move l w = (l', w')) :
    Effect shape l w (shape.move l w).1 (shape.move l w).2 := by
  rw [hmove]
  exact h

theorem move_effect (h : l.ended = false) :
    Effect shape l w (shape.move l w).1 (shape.move l w).2 := by
  cases hpc : l.pc with
  | ended why => simp [Loop.ended, hpc] at h
  | target =>
    cases htarget : w.target with
    | cons block rest =>
      cases hbroken : shape.brokenAfterEof && l.eof with
      | true =>
        have hboth := Bool.and_eq_true_iff.mp hbroken
        exact (Effect.breaks block rest hpc htarget hboth.1 hboth.2).of_move
          (by simp [Shape.move, hpc, htarget, hbroken])
      | false =>
        exact (Effect.forwards block rest hpc htarget hbroken).of_move
          (by simp [Shape.move, hpc, htarget, hbroken])
    | nil =>
      cases hclosed : w.targetClosed with
      | false => exact (Effect.timeout hpc htarget hclosed).of_move (by simp [Shape.move, hpc, htarget, hclosed])
      | true =>
        cases hhalf : shape.halfClose with
        | false =>
          exact (Effect.targetEof hpc htarget hclosed hhalf).of_move (by simp [Shape.move, hpc, htarget, hclosed, hhalf])
        | true =>
          exact (Effect.downDone hpc htarget hclosed hhalf).of_move (by simp [Shape.move, hpc, htarget, hclosed, hhalf])
  | client =>
    cases hclient : w.client with
    | cons chunk rest =>
      cases hempty : shape.waits && chunk.isEmpty with
      | true =>
        rw [Bool.and_eq_true, List.isEmpty_iff] at hempty
        obtain ⟨hwaits, rfl⟩ := hempty
        exact (Effect.emptyChunk rest hpc hclient hwaits).of_move (by simp [Shape.move, hpc, hclient, hwaits])
      | false => exact (Effect.chunk chunk rest hpc hclient).of_move (by simp [Shape.move, hpc, hclient, hempty])
    | nil =>
      cases hclosed : w.clientClosed with
      | true => exact (Effect.clientEof hpc hclient hclosed).of_move (by simp [Shape.move, hpc, hclient, hclosed])
      | false =>
        cases hwaits : shape.waits with
        | true =>
          exact (Effect.wait hpc hclient hclosed hwaits).of_move (by simp [Shape.move, hpc, hclient, hclosed, hwaits])
        | false =>
          exact (Effect.wouldBlock hpc hclient hclosed hwaits).of_move
            (by simp [Shape.move, hpc, hclient, hclosed, hwaits])

/-- What every effect gives holds after a step. -/
theorem move_rule {P : Loop → Wires → Prop} (h : l.ended = false)
    (heffect : ∀ l' w', Effect shape l w l' w' → P l' w') : P (shape.move l w).1 (shape.move l w).2 :=
  heffect _ _ (move_effect h)

/-! ## What always holds -/

/-- Why a loop can have ended. -/
def Reason (shape : Shape) (w : Wires) : End → Prop
  | .targetEof | .bothEof => w.targetClosed = true ∧ w.target = []
  | .clientEof => shape.halfClose = false ∧ (w.clientClosed = true ∨ shape.emptyChunks = true)
  | .brokenPipe => shape.brokenAfterEof = true ∧ w.clientClosed = true

theorem Reason.mono {why : End} (h : Reason shape w why)
    (htarget : w.targetClosed = true ∧ w.target = [] → w'.targetClosed = true ∧ w'.target = [])
    (hclient : w.clientClosed = true → w'.clientClosed = true) : Reason shape w' why := by
  cases why with
  | targetEof => exact htarget h
  | bothEof => exact htarget h
  | clientEof => exact ⟨h.1, h.2.imp hclient id⟩
  | brokenPipe => exact ⟨h.1, hclient h.2⟩

structure Inv (shape : Shape) (l : Loop) (w : Wires) : Prop where
  /-- only the block of a failed write is lost -/
  kept : ∃ lost, l.forwarded ++ (lost ++ unread w.target) = w.sent ∧ (lost ≠ [] → l.pc = .ended .brokenPipe)
  eof : l.eof = true → w.clientClosed = true ∧ w.client = []
  downDone : l.downDone = true → w.targetClosed = true ∧ w.target = []
  reason : ∀ why, l.pc = .ended why → Reason shape w why
  admitted : ∀ chunk ∈ w.client, shape.relay.admits chunk = true

theorem unread_append (blocks : List Block) (b : Block) :
    unread (blocks ++ [b]) = unread blocks ++ b.val := by
  simp [unread]

theorem unread_cons (b : Block) (blocks : List Block) :
    unread (b :: blocks) = b.val ++ unread blocks := by
  simp [unread]

theorem nothing_lost (h : l.forwarded ++ unread w.target = w.sent) : ∃ lost,
    l.forwarded ++ (lost ++ unread w.target) = w.sent ∧ (lost ≠ [] → l.pc = .ended .brokenPipe) :=
  ⟨[], h, fun hne => absurd rfl hne⟩

theorem Inv.kept_live (h : Inv shape l w) (hlive : l.ended = false) :
    l.forwarded ++ unread w.target = w.sent := by
  obtain ⟨lost, hkept, hlost⟩ := h.kept
  have hnone : lost = [] := by
    by_contra hne
    simp [Loop.ended, hlost hne] at hlive
  rwa [hnone] at hkept

theorem init_inv (shape : Shape) (hfirst : ∀ why, shape.first ≠ .ended why) :
    Inv shape shape.relay.init.relay shape.relay.init.wires where
  kept := nothing_lost rfl
  eof := fun h => nomatch h
  downDone := fun h => nomatch h
  reason := fun why h => absurd h (hfirst why)
  admitted := fun _ h => nomatch h

theorem outside_inv (h : Inv shape l w) {o : Outside} (ho : shape.relay.admitsEvent o = true) :
    Inv shape l (w.outside o) := by
  cases o with
  | targetSends b =>
    by_cases hclosed : w.targetClosed = true
    · simpa [Wires.outside, hclosed] using h
    · have heq : w.outside (.targetSends b) = { w with target := w.target ++ [b], sent := w.sent ++ b.val } := by
        simp [Wires.outside, hclosed]
      obtain ⟨lost, hkept, hlost⟩ := h.kept
      rw [heq]
      refine ⟨⟨lost, ?_, hlost⟩, h.eof, fun hd => absurd (h.downDone hd).1 hclosed,
        fun why hwhy => (h.reason why hwhy).mono (fun ht => absurd ht.1 hclosed) id, h.admitted⟩
      simp [unread_append, ← hkept]
  | targetCloses =>
    exact ⟨h.kept, h.eof, fun hd => ⟨rfl, (h.downDone hd).2⟩,
      fun why hwhy => (h.reason why hwhy).mono (fun ht => ⟨rfl, ht.2⟩) id, h.admitted⟩
  | clientSends chunk =>
    by_cases hclosed : w.clientClosed = true
    · simpa [Wires.outside, hclosed] using h
    · have heq : w.outside (.clientSends chunk) = { w with client := w.client ++ [chunk] } := by
        simp [Wires.outside, hclosed]
      rw [heq]
      refine ⟨h.kept, fun he => absurd (h.eof he).1 hclosed, h.downDone,
        fun why hwhy => (h.reason why hwhy).mono id id, fun c hc => ?_⟩
      rcases List.mem_append.mp hc with hc | hc
      · exact h.admitted c hc
      · rw [List.mem_singleton.mp hc]
        exact ho
  | clientCloses =>
    exact ⟨h.kept, fun he => ⟨rfl, (h.eof he).2⟩, h.downDone,
      fun why hwhy => (h.reason why hwhy).mono id fun _ => rfl, h.admitted⟩

/-- The client's `Ok(0)`. -/
theorem clientEof_inv (h : Inv shape l w) (hlive : l.ended = false)
    (hwhy : w.clientClosed = true ∨ shape.emptyChunks = true) : Inv shape (shape.clientEof l) w := by
  have hkept := h.kept_live hlive
  unfold Shape.clientEof
  split
  · split
    · rename_i hdown
      exact ⟨nothing_lost hkept, h.eof, h.downDone,
        fun why hend => by cases hend; exact h.downDone hdown, h.admitted⟩
    · exact ⟨nothing_lost hkept, h.eof, h.downDone, (fun _ hwhy => nomatch hwhy), h.admitted⟩
  · rename_i hhalf
    exact ⟨nothing_lost hkept, h.eof, h.downDone,
      fun why hend => by cases hend; exact ⟨by simpa using hhalf, hwhy⟩, h.admitted⟩

/-- **A step keeps the invariant.** -/
theorem move_inv (h : Inv shape l w) (hlive : l.ended = false) :
    Inv shape (shape.move l w).1 (shape.move l w).2 := by
  have hkept := h.kept_live hlive
  have hadmitted : ∀ {chunk : Bytes} {rest : List Bytes}, w.client = chunk :: rest →
      ∀ c ∈ rest, shape.relay.admits c = true := fun hc c hmem =>
    h.admitted c (by rw [hc]; exact mem_cons_of_mem _ hmem)
  have hnoEof : ∀ {chunk : Bytes} {rest : List Bytes}, w.client = chunk :: rest → l.eof ≠ true := fun hc he => by
    rw [(h.eof he).2] at hc
    cases hc
  have hnotDone : ∀ {block : Block} {rest : List Block}, w.target = block :: rest → l.downDone ≠ true := fun ht hd => by
    rw [(h.downDone hd).2] at ht
    cases ht
  refine move_rule hlive fun l' w' heffect => ?_
  cases heffect with
  | forwards block rest pc target unbroken =>
    rw [target, unread_cons, ← append_assoc] at hkept
    refine ⟨nothing_lost hkept, h.eof, fun hd => absurd hd (hnotDone target), fun why hwhy => ?_, h.admitted⟩
    split at hwhy <;> cases hwhy
  | breaks block rest pc target broken eof =>
    rw [target, unread_cons] at hkept
    refine ⟨⟨block.val, hkept, fun _ => rfl⟩, h.eof, fun hd => absurd hd (hnotDone target), fun why
      hwhy => ?_, h.admitted⟩
    cases hwhy
    exact ⟨broken, (h.eof eof).1⟩
  | targetEof pc target closed halfClose =>
    refine ⟨nothing_lost hkept, h.eof, h.downDone, fun why hwhy => ?_, h.admitted⟩
    cases hwhy
    exact ⟨closed, target⟩
  | downDone pc target closed halfClose =>
    exact ⟨nothing_lost hkept, h.eof, fun _ => ⟨closed, target⟩,
      (fun _ hwhy => nomatch hwhy), h.admitted⟩
  | timeout pc target running =>
    exact ⟨nothing_lost hkept, h.eof, h.downDone, (fun _ hwhy => nomatch hwhy), h.admitted⟩
  | chunk chunk rest pc client =>
    refine ⟨nothing_lost hkept, fun he => absurd he (hnoEof client), h.downDone,
      fun why hwhy => ?_, hadmitted client⟩
    split at hwhy <;> cases hwhy
  | emptyChunk rest pc client waits =>
    refine clientEof_inv (w := { w with client := rest }) ⟨nothing_lost hkept,
      fun he => absurd he (hnoEof client), h.downDone, fun why hwhy => ?_, hadmitted client⟩ hlive (.inr ?_)
    · rw [pc] at hwhy
      cases hwhy
    · simpa [Shape.relay] using h.admitted [] (by rw [client]; exact mem_cons_self)
  | clientEof pc client closed =>
    refine clientEof_inv (l := { l with eof := true }) ⟨nothing_lost hkept,
      fun _ => ⟨closed, client⟩, h.downDone, fun why hwhy => ?_, h.admitted⟩ hlive (.inl closed)
    simp only [pc] at hwhy
    cases hwhy
  | wait => exact h
  | wouldBlock pc client running waits =>
    exact ⟨nothing_lost hkept, h.eof, h.downDone, (fun _ hwhy => nomatch hwhy), h.admitted⟩

variable {s : State Loop}

/-- **Every run keeps it.** -/
theorem run_inv (h : Inv shape s.relay s.wires) (events : List (Event Unit)) :
    Inv shape (shape.relay.run s events).relay (shape.relay.run s events).wires := by
  refine shape.relay.run_induction (P := fun s => Inv shape s.relay s.wires) (fun s e hs => ?_) events h
  cases e with
  | outside o =>
    rw [Relay.step]
    split
    · exact outside_inv hs ‹_›
    · exact hs
  | move m =>
    cases hlive : s.relay.ended with
    | true =>
      rw [Relay.step, if_pos (show shape.relay.ended s.relay = true from hlive)]
      exact hs
    | false =>
      rw [shape.relay.step_move (show shape.relay.ended s.relay = false from hlive)]
      exact move_inv hs hlive

theorem Inv.forwarded_le (h : Inv shape l w) : l.forwarded.length ≤ w.sent.length := by
  obtain ⟨lost, hkept, -⟩ := h.kept
  rw [← hkept, length_append]
  omega

/-- A loop that ended with the target's end of stream has forwarded everything. -/
theorem Inv.forwarded_eq (h : Inv shape l w)
    (hend : l.pc = .ended .targetEof ∨ l.pc = .ended .bothEof) : l.forwarded = w.sent := by
  obtain ⟨lost, hkept, hlost⟩ := h.kept
  have hnone : lost = [] := by
    grind
  have htarget : w.target = [] := by
    rcases hend with hend | hend
    · exact (h.reason _ hend).2
    · exact (h.reason _ hend).2
  simpa [hnone, htarget, unread] using hkept

/-! ## A loop left alone -/

/-- Everything of the client has been read, and the loop turns to it. -/
def AtRest (s : State Loop) : Prop := s.relay.pc = .client ∧ s.wires.client = []

def Pc.weight : Pc → Nat
  | .target => 1
  | _ => 0

/-- Blocks and chunks that are left, and the way to the client. -/
def weight (s : State Loop) : Nat :=
  2 * (s.wires.target.length + s.wires.client.length) + s.relay.pc.weight

/-- What does not change when the sides do nothing. -/
structure Same (s s' : State Loop) : Prop where
  sent : s'.wires.sent = s.wires.sent
  targetClosed : s'.wires.targetClosed = s.wires.targetClosed
  clientClosed : s'.wires.clientClosed = s.wires.clientClosed

theorem Same.refl (s : State Loop) : Same s s := ⟨rfl, rfl, rfl⟩

theorem Same.trans {s' s'' : State Loop} (h : Same s s') (h' : Same s' s'') : Same s s'' :=
  ⟨h'.sent.trans h.sent, h'.targetClosed.trans h.targetClosed, h'.clientClosed.trans h.clientClosed⟩

theorem step_same (shape : Shape) (s : State Loop) : Same s (shape.relay.step s (.move ())) := by
  rw [Relay.step]
  split
  · exact .refl s
  · obtain ⟨hsent, htarget, hclient⟩ := shape.move_wires s.relay s.wires
    exact ⟨hsent, htarget, hclient⟩

theorem clientEof_weight (shape : Shape) (l : Loop) : (shape.clientEof l).pc.weight ≤ 1 := by
  unfold Shape.clientEof
  repeat' split
  all_goals simp [Pc.weight]

theorem step_weight (hlive : s.relay.ended = false) (hopen : s.wires.targetClosed = false)
    (hrest : ¬ AtRest s) : (shape.relay.step s (.move ())).relay.ended = true ∨
      weight (shape.relay.step s (.move ())) < weight s := by
  rw [shape.relay.step_move (show shape.relay.ended s.relay = false from hlive)]
  refine move_rule (P := fun l w => l.ended = true ∨ weight ⟨l, w⟩ < weight s) hlive fun l' w' heffect => ?_
  cases heffect with
  | forwards block rest pc target unbroken => grind [weight, Pc.weight]
  | breaks => exact .inl rfl
  | targetEof pc target closed => rw [hopen] at closed; cases closed
  | downDone pc target closed => rw [hopen] at closed; cases closed
  | timeout pc target running =>
    refine .inr ?_
    simp only [weight, pc, Pc.weight]
    omega
  | chunk chunk rest pc client => grind [weight, Pc.weight]
  | emptyChunk rest pc client waits =>
    refine .inr ?_
    have := clientEof_weight shape s.relay
    grind [weight]
  | clientEof pc client closed => exact absurd ⟨pc, client⟩ hrest
  | wait pc client running waits => exact absurd ⟨pc, client⟩ hrest
  | wouldBlock pc client running waits => exact absurd ⟨pc, client⟩ hrest

theorem alone_same (shape : Shape) (n : Nat) :
    ∀ s : State Loop, Same s (shape.relay.alone () s n) := by
  induction n with
  | zero => exact Same.refl
  | succ n ih => exact fun s => (step_same shape s).trans (ih _)

/-- **A loop left alone** ends, or gets to its rest. -/
theorem reaches_rest (shape : Shape) (hlive : s.relay.ended = false)
    (hopen : s.wires.targetClosed = false) :
    ∃ n, (shape.relay.alone () s n).relay.ended = true ∨
      ((shape.relay.alone () s n).relay.ended = false ∧ AtRest (shape.relay.alone () s n)) := by
  induction hw : weight s using Nat.strongRecOn generalizing s with
  | _ k ih =>
    by_cases hrest : AtRest s
    · exact ⟨0, .inr ⟨hlive, hrest⟩⟩
    · rcases @step_weight shape s hlive hopen hrest with hend | hlt
      · exact ⟨1, .inl hend⟩
      · cases hlive' : (shape.relay.step s (.move ())).relay.ended with
        | true => exact ⟨1, .inl hlive'⟩
        | false =>
          have hopen' := (step_same shape s).targetClosed.trans hopen
          obtain ⟨n, hn⟩ := ih _ (hw ▸ hlt) hlive' hopen' rfl
          exact ⟨n + 1, hn⟩

end

/-! ## Both directions at once -/

/-- What always holds of `relay_raw`. -/
structure RawInv (s : State Threads) : Prop where
  kept : s.relay.forwarded ++ unread s.wires.target = s.wires.sent
  downEnded : s.relay.downEnded = true →
    s.relay.timedOut = true ∨ (s.wires.targetClosed = true ∧ s.wires.target = [])

theorem raw_move_inv {t : Thread} {r : Threads} {w : Wires} (h : RawInv ⟨r, w⟩) :
    RawInv ⟨(relayRawMove t r w).1, (relayRawMove t r w).2⟩ := by
  obtain ⟨hkept, hdown⟩ := h
  cases t with
  | up =>
    rw [relayRawMove]
    repeat' split
    all_goals exact ⟨hkept, hdown⟩
  | down =>
    rw [relayRawMove]
    split
    · exact ⟨hkept, hdown⟩
    rename_i hrunning
    split
    · rename_i block rest htarget
      refine ⟨?_, fun hd => absurd hd hrunning⟩
      simpa [htarget, unread_cons] using hkept
    · rename_i htarget
      split
      · rename_i hclosed
        exact ⟨hkept, fun _ => .inr ⟨hclosed, htarget⟩⟩
      · exact ⟨hkept, hdown⟩
  | expire =>
    rw [relayRawMove]
    split
    · exact ⟨hkept, hdown⟩
    · exact ⟨hkept, fun _ => .inl rfl⟩

theorem raw_outside_inv {s : State Threads} (h : RawInv s) (o : Outside) :
    RawInv { s with wires := s.wires.outside o } := by
  obtain ⟨hkept, hdown⟩ := h
  cases o with
  | targetSends b =>
    by_cases hclosed : s.wires.targetClosed = true
    · exact ⟨by simpa [Wires.outside, hclosed] using hkept, by simpa [Wires.outside, hclosed] using hdown⟩
    · refine ⟨?_, fun hd => (hdown hd).imp id fun hc => absurd hc.1 hclosed⟩
      simp [Wires.outside, hclosed, unread_append, ← hkept]
  | targetCloses => exact ⟨hkept, fun hd => (hdown hd).imp id fun hc => ⟨rfl, hc.2⟩⟩
  | clientSends chunk =>
    by_cases hclosed : s.wires.clientClosed = true
    · exact ⟨by simpa [Wires.outside, hclosed] using hkept, by simpa [Wires.outside, hclosed] using hdown⟩
    · exact ⟨by simpa [Wires.outside, hclosed] using hkept, by simpa [Wires.outside, hclosed] using hdown⟩
  | clientCloses => exact ⟨hkept, hdown⟩

theorem raw_run_inv {s : State Threads} (h : RawInv s) (events : List (Event Thread)) :
    RawInv (relayRaw.run s events) := by
  refine relayRaw.run_induction (P := RawInv) (fun s e hs => ?_) events h
  cases e with
  | outside o =>
    rw [Relay.step]
    split
    · exact raw_outside_inv hs o
    · exact hs
  | move t =>
    rw [Relay.step]
    split
    · exact hs
    · exact raw_move_inv hs

theorem raw_init_inv : RawInv relayRaw.init := ⟨rfl, fun h => nomatch h⟩

theorem raw_step_timedOut {e : Event Thread} (h : e ≠ .move .expire) (s : State Threads) :
    (relayRaw.step s e).relay.timedOut = s.relay.timedOut := by
  cases e with
  | outside o =>
    rw [Relay.step]
    split <;> rfl
  | move t =>
    rw [Relay.step]
    split
    · rfl
    show (relayRawMove t s.relay s.wires).1.timedOut = _
    cases t with
    | expire => exact absurd rfl h
    | _ =>
      rw [relayRawMove]
      repeat' split
      all_goals rfl

theorem raw_run_timedOut (events : List (Event Thread)) : (∀ e ∈ events, e ≠ .move .expire) →
    ∀ s : State Threads, (relayRaw.run s events).relay.timedOut = s.relay.timedOut := by
  induction events with
  | nil => exact fun _ _ => rfl
  | cons e events ih =>
    intro h s
    exact (ih (fun e' he => h e' (.tail _ he)) _).trans (raw_step_timedOut (h e (.head _)) s)

/-- A download thread that has ended forwards no more. -/
theorem raw_run_forwarded {s : State Threads} (h : s.relay.downEnded = true) (events : List (Event Thread)) :
    (relayRaw.run s events).relay.forwarded = s.relay.forwarded := by
  refine (relayRaw.run_induction (P := fun s' => s'.relay.downEnded = true ∧ s'.relay.forwarded =
    s.relay.forwarded) (fun s' e hs => ?_) events ⟨h, rfl⟩).2
  cases e with
  | outside o =>
    rw [Relay.step]
    split <;> exact hs
  | move t =>
    rw [Relay.step]
    split
    · exact hs
    show (relayRawMove t s'.relay s'.wires).1.downEnded = true ∧ (relayRawMove t s'.relay s'.wires).1.forwarded = _
    cases t with
    | up =>
      rw [relayRawMove]
      repeat' split
      all_goals exact hs
    | _ => simpa [relayRawMove, hs.1] using hs

/-! ## Reached states -/

/-- A state that a relay gets to, before its end and while the target is connected. -/
structure Running {R M : Type} (relay : Relay R M) where
  events : List (Event M)
  live : relay.ended (relay.run relay.init events).relay = false
  targetOpen : (relay.run relay.init events).wires.targetClosed = false

def Running.state {R M : Type} {relay : Relay R M} (s : Running relay) : State R :=
  relay.run relay.init s.events

theorem Running.inv {shape : Shape} (hfirst : ∀ why, shape.first ≠ .ended why) (s : Running shape.relay) :
    Inv shape s.state.relay s.state.wires := run_inv (init_inv shape hfirst) s.events

end Wrongsv.L2.RelayLoops
