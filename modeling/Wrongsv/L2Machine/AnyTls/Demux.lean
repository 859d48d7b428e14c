import Wrongsv.L2Machine.AnyTls.SingSession

/-!
# sing-anytls: demultiplexing

What a stream thread is given is what the client pushed to its stream, and nothing
another stream is sent changes it.

One conservation law carries the first part: what a stream has returned, what is left
of its buffer and what is in its channel are together what was pushed to it
(`transcript_stream`). The second part is a frame property: an operation looks at the
entries of its own id and writes no other (`apply_frame`, `apply_sees`), so a run with
the operations of one id left out gives the same results to all others
(`transcript_erase`).
-/
namespace Wrongsv.L2.AnyTls
open List

/-! ## What is asked -/

def Op.opens (sid : UInt32) : Op → Bool
  | .syn sid' => sid' = sid
  | _ => false

/-- A FIN of the client that is handled, or one of the server that is written. -/
def Op.finishes (sid : UInt32) : Op → Bool
  | .fin sid' => sid' = sid
  | _ => false

def Op.pushed (sid : UInt32) : Op → Bytes
  | .psh sid' data => if sid' = sid then data else []
  | _ => []

/-- The PSH payloads between the SYN of an id and the first FIN for it. -/
def payloads (sid : UInt32) (ops : List Op) : Bytes :=
  ((ops.dropWhile (fun o => !o.opens sid)).tail.takeWhile (fun o => !o.finishes sid)).flatMap (·.pushed sid)

/-- The chunk that stream `n` of an id gets from a read. -/
def chunkFor (sid : UInt32) (n : Nat) : Op × Option ReadResult → Bytes
  | (.read sid' n' _, some (.chunk data)) => if sid' = sid ∧ n' = n then data else []
  | _ => []

/-- All chunks a stream has returned, one behind the other. -/
def returned (sid : UInt32) (n : Nat) (log : List (Op × Option ReadResult)) : Bytes :=
  log.flatMap (chunkFor sid n)

def OpenedOnce (ops : List Op) : Prop := ∀ sid, ops.count (.syn sid) ≤ 1

/-- The operations that are not on this id. -/
def erase (sid : UInt32) (ops : List Op) : List Op := ops.filter (fun o => o.sid ≠ some sid)

/-! ## One id at a time -/

section
variable (s : SingSession) {sid sid' : UInt32} (h : sid ≠ sid')
include h

theorem setStream_opened_ne (n : Nat) (stream : SingStream) :
    (s.setStream sid' n stream).opened sid = s.opened sid := Function.update_of_ne h ..

theorem deliverData_opened_ne (data : Bytes) :
    (s.deliverData sid' data).opened sid = s.opened sid := by
  unfold SingSession.deliverData
  grind [setStream_opened_ne]

end

variable (s : SingSession)

theorem deliverData_streams (sid : UInt32) (data : Bytes) :
    (s.deliverData sid data).streams = s.streams := by
  unfold SingSession.deliverData
  split
  · rfl
  · split <;> rfl

variable {sid : UInt32}

/-- **Frame.** An operation on another id changes nothing. -/
theorem apply_frame {op : Op} {sid' : UInt32} (hop : op.sid = some sid') (h : sid ≠ sid') :
    (op.apply s).2.streams sid = s.streams sid ∧ (op.apply s).2.opened sid = s.opened sid := by
  cases op with
  | syn j =>
    cases hop
    exact ⟨Table.insert_of_ne _ h _, Function.update_of_ne h ..⟩
  | psh j data =>
    cases hop
    exact ⟨congrFun (deliverData_streams s _ data) sid, deliverData_opened_ne s h data⟩
  | fin j =>
    cases hop
    exact ⟨Table.remove_of_ne _ h, rfl⟩
  | read j n call =>
    cases hop
    simp only [Op.apply]
    split
    · exact ⟨rfl, rfl⟩
    · exact ⟨rfl, setStream_opened_ne s h _ _⟩
  | stop => cases hop

section
variable {s s' : SingSession} {op : Op} {sid : UInt32}

theorem apply_sees (hop : op.sid = some sid)
    (hs : s.streams sid = s'.streams sid) (ho : s.opened sid = s'.opened sid) :
    (op.apply s).1 = (op.apply s').1 ∧ (op.apply s).2.streams sid = (op.apply s').2.streams sid ∧
      (op.apply s).2.opened sid = (op.apply s').2.opened sid := by
  have hset : ∀ n stream, (s.setStream sid n stream).opened sid = (s'.setStream sid n stream).opened sid := by
    intro n stream
    simp only [SingSession.setStream, Function.update_self, ho]
  cases op with
  | syn j =>
    cases hop
    simp only [Op.apply, SingSession.createStream, Table.insert_self, Function.update_self, ho, and_self]
  | psh j data =>
    cases hop
    refine ⟨rfl, by simp only [Op.apply, deliverData_streams, hs], ?_⟩
    simp only [Op.apply, SingSession.deliverData, hs, ho]
    grind
  | fin j =>
    cases hop
    simp only [Op.apply, SingSession.closeStream, Table.remove_self, ho, and_self]
  | read j n call =>
    cases hop
    simp only [Op.apply, hs, ho]
    split
    · exact ⟨rfl, hs, ho⟩
    · exact ⟨rfl, hs, hset _ _⟩
  | stop => cases hop

/-- Two sessions that only the streams of `sid` can tell apart. -/
def AgreeOff (sid : UInt32) (s s' : SingSession) : Prop :=
  ∀ i, i ≠ sid → s.streams i = s'.streams i ∧ s.opened i = s'.opened i

theorem AgreeOff.apply_other (h : AgreeOff sid s s') (hop : op.sid = some sid) :
    AgreeOff sid (op.apply s).2 s' := by
  intro i hi
  obtain ⟨hs, ho⟩ := apply_frame s hop hi
  rw [hs, ho]
  exact h i hi

theorem AgreeOff.apply_same (h : AgreeOff sid s s') (hop : op.sid ≠ some sid) :
    (op.apply s).1 = (op.apply s').1 ∧ AgreeOff sid (op.apply s).2 (op.apply s').2 := by
  cases hj : op.sid with
  | none =>
    cases op with
    | stop => exact ⟨rfl, fun i hi => ⟨rfl, (h i hi).2⟩⟩
    | _ => cases hj
  | some j =>
    have hne : j ≠ sid := fun heq => hop (by rw [hj, heq])
    obtain ⟨hresult, hstreams, hopened⟩ := apply_sees hj (h j hne).1 (h j hne).2
    refine ⟨hresult, fun i hi => ?_⟩
    by_cases hij : i = j
    · rw [hij]
      exact ⟨hstreams, hopened⟩
    · obtain ⟨hs, ho⟩ := apply_frame s hj hij
      obtain ⟨hs', ho'⟩ := apply_frame s' hj hij
      rw [hs, ho, hs', ho']
      exact h i hi

/-- **Leaving out one id.** The others get the same results. -/
theorem transcript_erase (sid : UInt32) (ops : List Op) :
    ∀ (s s' : SingSession), AgreeOff sid s s' →
    (transcript s ops).filter (fun e => e.1.sid ≠ some sid) = transcript s' (erase sid ops) := by
  induction ops with
  | nil => intro s s' _; rfl
  | cons op ops ih =>
    intro s s' h
    by_cases hop : op.sid = some sid
    · have hrest := ih _ _ (h.apply_other hop)
      grind [transcript, erase]
    · obtain ⟨hresult, hagree⟩ := h.apply_same hop
      grind [transcript, erase]

end

/-! ## One stream -/

/-- What is still to be read from a stream. -/
def SingStream.pending (st : SingStream) : Bytes := st.buffer.drop st.bufPos ++ st.queue.flatten

/-- The bytes of a result. -/
def ReadResult.bytes : ReadResult → Bytes
  | .chunk data => data
  | _ => []

/-- A read takes what it returns from the front of what is pending, and only reports a
stream closed that has nothing pending and no sender. -/
theorem receive_spec {onEmpty : ReadResult} (hempty : onEmpty.bytes = []) (connected : Bool)
    (st : SingStream) (hclosed : st.closed = true → st.pending = [] ∧ connected = false) :
    (st.receive onEmpty connected).1.bytes ++ (st.receive onEmpty connected).2.pending = st.pending ∧
      ((st.receive onEmpty connected).2.closed = true →
        (st.receive onEmpty connected).2.pending = [] ∧ connected = false) := by
  unfold SingStream.receive
  by_cases hc : st.closed = true
  · rw [if_pos hc]
    exact ⟨rfl, hclosed⟩
  · rw [if_neg hc]
    by_cases hb : st.bufPos < st.buffer.length
    · grind [ReadResult.bytes, SingStream.pending]
    · have hdrop : st.buffer.drop st.bufPos = [] := drop_of_length_le (by omega)
      grind [ReadResult.bytes, SingStream.pending]

theorem call_spec (call : ReadCall) (connected : Bool) (st : SingStream)
    (hclosed : st.closed = true → st.pending = [] ∧ connected = false) :
    (call.run connected st).1.bytes ++ (call.run connected st).2.pending = st.pending ∧
      ((call.run connected st).2.closed = true → (call.run connected st).2.pending = [] ∧ connected = false) := by
  cases call with
  | readChunk => exact receive_spec rfl connected st hclosed
  | tryReadChunk => exact receive_spec rfl connected st hclosed

/-- What takes the sender of a stream out of the map: a FIN, the id opened again, the
end of the session. -/
def Op.ends (sid : UInt32) (op : Op) : Bool := op.finishes sid || op.opens sid || (op == .stop)

/-- Stream `n` of an id as the session has it, with the sender in the map or not. -/
structure At (s : SingSession) (sid : UInt32) (n : Nat) (st : SingStream) (connected : Bool) : Prop where
  stream : (s.opened sid)[n]? = some st
  sender : decide (s.streams sid = some n) = connected
  sound : st.closed = true → st.pending = [] ∧ connected = false

theorem At.lt {s : SingSession} {n : Nat} {st : SingStream} {connected : Bool}
    (h : At s sid n st connected) : n < (s.opened sid).length := by
  obtain ⟨hlt, -⟩ := List.getElem?_eq_some_iff.mp h.stream
  exact hlt

theorem setStream_self (sid : UInt32) {n : Nat} (h : n < (s.opened sid).length)
    (stream : SingStream) : ((s.setStream sid n stream).opened sid)[n]? = some stream := by
  simp only [SingSession.setStream, Function.update_self]
  exact List.getElem?_set_self h

/-- An operation on another id neither ends, feeds nor reads a stream. -/
theorem quiet_of_ne {op : Op} {sid' : UInt32} (hop : op.sid = some sid') (h : sid ≠ sid') (n : Nat)
    (result : Option ReadResult) :
    op.ends sid = false ∧ op.pushed sid = [] ∧ chunkFor sid n (op, result) = [] := by
  have hne : sid' ≠ sid := fun heq => h heq.symm
  cases op with
  | syn j | fin j =>
    cases hop
    simp [Op.ends, Op.finishes, Op.opens, Op.pushed, chunkFor, hne]
  | psh j data =>
    cases hop
    simp [Op.ends, Op.finishes, Op.opens, Op.pushed, chunkFor, hne]
  | read j m call =>
    cases hop
    refine ⟨rfl, rfl, ?_⟩
    unfold chunkFor
    grind
  | stop => cases hop

/-- What a stream has returned and what is pending grows by what is pushed while its
sender is in the map. -/
def Grows (s : SingSession) (sid : UInt32) (n : Nat) (st : SingStream) (connected : Bool) (op : Op) : Prop :=
  ∃ st', At (op.apply s).2 sid n st' (connected && !op.ends sid) ∧
    chunkFor sid n (op, (op.apply s).1) ++ st'.pending = st.pending ++ (if connected then op.pushed sid else [])

section
variable {s : SingSession} {sid : UInt32} {n : Nat} {st : SingStream} {connected : Bool}

theorem At.psh_connected (h : At s sid n st true) (data : Bytes) :
    Grows s sid n st true (.psh sid data) := by
  have hlt := h.lt
  obtain ⟨hstream, hsender, hsound⟩ := h
  have hmap : s.streams sid = some n := of_decide_eq_true hsender
  have hopen : st.closed ≠ true := fun hc => nomatch (hsound hc).2
  refine ⟨{ st with queue := st.queue ++ [data] }, ⟨?_, ?_, fun hc => absurd hc hopen⟩, ?_⟩
  · simp only [Op.apply, SingSession.deliverData, hmap, hstream]
    exact setStream_self s sid hlt _
  · simp only [Op.apply, deliverData_streams]
    exact hsender
  · simp [chunkFor, SingStream.pending, Op.pushed]

theorem At.psh_disconnected (h : At s sid n st false) (data : Bytes) :
    Grows s sid n st false (.psh sid data) := by
  obtain ⟨hstream, hsender, hsound⟩ := h
  refine ⟨st, ⟨?_, ?_, hsound⟩, by simp [chunkFor]⟩
  · simp only [Op.apply, SingSession.deliverData]
    split
    · exact hstream
    rename_i m hm
    split
    · exact hstream
    · simp only [SingSession.setStream, Function.update_self]
      grind
  · simp only [Op.apply, deliverData_streams]
    exact hsender

variable (h : At s sid n st connected)
include h

theorem At.other_id {op : Op} {j : UInt32} (hj : op.sid = some j) (hne : sid ≠ j) :
    Grows s sid n st connected op := by
  obtain ⟨hstream, hsender, hsound⟩ := h
  obtain ⟨hs, ho⟩ := apply_frame s hj hne
  obtain ⟨hends, hpushed, hchunk⟩ := quiet_of_ne hj hne n (op.apply s).1
  refine ⟨st, ⟨by rw [ho]; exact hstream, by rw [hs, hends]; simpa using hsender, ?_⟩, ?_⟩
  all_goals simp_all

theorem At.stop : Grows s sid n st connected .stop := by
  obtain ⟨hstream, -, hsound⟩ := h
  refine ⟨st, ⟨hstream, by simp [Op.apply, Op.ends], ?_⟩, ?_⟩
  · simp_all
  · simp [chunkFor, Op.pushed]

theorem At.syn : Grows s sid n st connected (.syn sid) := by
  have hlt := h.lt
  obtain ⟨hstream, -, hsound⟩ := h
  refine ⟨st, ⟨?_, ?_, ?_⟩, ?_⟩
  · simp only [Op.apply, SingSession.createStream, Function.update_self]
    grind
  · have hold : (s.opened sid).length ≠ n := by omega
    simp [Op.apply, SingSession.createStream, Op.ends, Op.opens, hold]
  · simp_all
  · simp [chunkFor, Op.pushed]

theorem At.fin : Grows s sid n st connected (.fin sid) := by
  obtain ⟨hstream, -, hsound⟩ := h
  refine ⟨st, ⟨hstream, ?_, ?_⟩, ?_⟩
  · simp [Op.apply, SingSession.closeStream, Op.ends, Op.finishes]
  · simp_all
  · simp [chunkFor, Op.pushed]

theorem At.read_self (call : ReadCall) : Grows s sid n st connected (.read sid n call) := by
  have hlt := h.lt
  obtain ⟨hstream, hsender, hsound⟩ := h
  have hends : (Op.read sid n call).ends sid = false := rfl
  obtain ⟨hbytes, hclosed⟩ := call_spec call connected st hsound
  rw [Grows, hends, Bool.not_false, Bool.and_true]
  refine ⟨(call.run connected st).2, ⟨?_, ?_, hclosed⟩, ?_⟩
  · simp only [Op.apply, hstream, hsender]
    exact setStream_self s sid hlt _
  · simp only [Op.apply, hstream]
    exact hsender
  · have hchunk : chunkFor sid n (.read sid n call, ((Op.read sid n call).apply s).1) =
        (call.run connected st).1.bytes := by
      simp only [Op.apply, hstream, hsender]
      cases (call.run connected st).1 with
      | chunk data => simp [chunkFor, ReadResult.bytes]
      | none | blocked => rfl
    rw [hchunk, hbytes]
    simp [Op.pushed]

theorem At.read_other {m : Nat} (hmn : m ≠ n) (call : ReadCall) :
    Grows s sid n st connected (.read sid m call) := by
  obtain ⟨hstream, hsender, hsound⟩ := h
  have hends : (Op.read sid m call).ends sid = false := rfl
  rw [Grows, hends, Bool.not_false, Bool.and_true]
  refine ⟨st, ⟨?_, ?_, hsound⟩, ?_⟩
  · simp only [Op.apply]
    split
    · exact hstream
    simp only [SingSession.setStream, Function.update_self]
    rw [List.getElem?_set_ne hmn]
    exact hstream
  · have hmap : ((Op.read sid m call).apply s).2.streams = s.streams := by
      simp only [Op.apply]
      split <;> rfl
    rw [hmap]
    exact hsender
  · have hchunk : chunkFor sid n (.read sid m call, ((Op.read sid m call).apply s).1) = [] := by
      unfold chunkFor
      grind
    rw [hchunk]
    simp [Op.pushed]

/-- **One operation.** -/
theorem At.apply (op : Op) : Grows s sid n st connected op := by
  by_cases hop : ∃ j, op.sid = some j ∧ sid ≠ j
  · obtain ⟨j, hj, hne⟩ := hop
    exact h.other_id hj hne
  · have hown : ∀ j, op.sid = some j → j = sid := by
      simp_all
    cases op with
    | stop => exact h.stop
    | syn j =>
      obtain rfl := hown j rfl
      exact h.syn
    | fin j =>
      obtain rfl := hown j rfl
      exact h.fin
    | psh j data =>
      obtain rfl := hown j rfl
      cases connected with
      | true => exact h.psh_connected data
      | false => exact h.psh_disconnected data
    | read j m call =>
      obtain rfl := hown j rfl
      by_cases hmn : m = n
      · subst hmn
        exact h.read_self call
      · exact h.read_other hmn call

end

/-- What is pushed to a stream until its sender is taken out of the map. -/
def collected (sid : UInt32) (ops : List Op) : Bytes :=
  (ops.takeWhile (fun o => !o.ends sid)).flatMap (·.pushed sid)

theorem collected_cons (sid : UInt32) (op : Op) (ops : List Op) :
    collected sid (op :: ops) = if op.ends sid then [] else op.pushed sid ++ collected sid ops := by
  unfold collected
  rw [takeWhile_cons]
  cases op.ends sid <;> rfl

theorem pushed_of_ends {op : Op} (h : op.ends sid = true) : op.pushed sid = [] := by
  cases op with
  | psh j data => cases h
  | _ => rfl

/-- **Conservation along a run.** -/
theorem transcript_stream (sid : UInt32) (n : Nat) (ops : List Op) : ∀ (s : SingSession)
    (st : SingStream) (connected : Bool), At s sid n st connected → ∃ st' connected',
    At (after s ops) sid n st' connected' ∧ returned sid n (transcript s ops) ++ st'.pending =
        st.pending ++ (if connected then collected sid ops else []) := by
  induction ops with
  | nil =>
    intro s st connected h
    refine ⟨st, connected, h, ?_⟩
    cases connected <;> simp [returned, transcript, collected]
  | cons op ops ih =>
    intro s st connected h
    obtain ⟨st₁, h₁, hstep⟩ := h.apply op
    obtain ⟨st', connected', h', hrest⟩ := ih _ st₁ _ h₁
    refine ⟨st', connected', h', ?_⟩
    have hcons : returned sid n (transcript s (op :: ops)) =
        chunkFor sid n (op, (op.apply s).1) ++ returned sid n (transcript (op.apply s).2 ops) := rfl
    rw [hcons, append_assoc, hrest, ← append_assoc, hstep, append_assoc, collected_cons]
    grind [pushed_of_ends]

/-! ## Whole sessions -/

theorem transcript_append (a b : List Op) : ∀ (s : SingSession),
    transcript s (a ++ b) = transcript s a ++ transcript (after s a) b := by
  induction a with
  | nil => intro s; rfl
  | cons op a ih => intro s; exact congrArg (_ :: ·) (ih _)

theorem after_append (a b : List Op) : after s (a ++ b) = after (after s a) b := foldl_append

theorem opened_length (sid : UInt32) (ops : List Op) : ∀ (s : SingSession),
    ((after s ops).opened sid).length = (s.opened sid).length + ops.count (.syn sid) := by
  have hset : ∀ (s : SingSession) (j : UInt32) (m : Nat) (stream : SingStream),
      ((s.setStream j m stream).opened sid).length = (s.opened sid).length := by
    intro s j m stream
    by_cases hj : sid = j
    · subst hj
      simp only [SingSession.setStream, Function.update_self, length_set]
    · rw [setStream_opened_ne s hj]
  induction ops with
  | nil => intro s; rfl
  | cons op ops ih =>
    intro s
    have hstep : ((op.apply s).2.opened sid).length = (s.opened sid).length + if op = .syn sid then 1 else 0 := by
      cases op with
      | syn j =>
        by_cases hj : sid = j
        · subst hj
          simp [Op.apply, SingSession.createStream]
        · rw [(apply_frame s rfl hj).2, if_neg (fun h => hj (by cases h; rfl))]
          rfl
      | psh j data =>
        simp only [Op.apply, SingSession.deliverData, reduceCtorEq, if_false, Nat.add_zero]
        grind
      | fin j => rfl
      | read j m call => grind [Op.apply]
      | stop => rfl
    grind [after]

theorem returned_unopened (n : Nat) (ops : List Op) : ∀ (s : SingSession), .syn sid ∉ ops →
    s.opened sid = [] → returned sid n (transcript s ops) = [] := by
  induction ops with
  | nil => intro s _ _; rfl
  | cons op ops ih =>
    intro s hnot hnil
    obtain ⟨hop, hrest⟩ := not_or.mp (mt List.mem_cons.mpr hnot)
    have hlen := opened_length sid [op] s
    rw [count_eq_zero_of_not_mem (fun hmem => hop (List.mem_singleton.mp hmem)), hnil] at hlen
    have hnext : (op.apply s).2.opened sid = [] := eq_nil_of_length_eq_zero hlen
    have hchunk : chunkFor sid n (op, (op.apply s).1) = [] := by
      unfold chunkFor
      grind [Op.apply]
    show chunkFor sid n (op, (op.apply s).1) ++ returned sid n (transcript (op.apply s).2 ops) = []
    rw [hchunk, ih _ hrest hnext]
    rfl

/-! ## The loop -/

def Op.isRead : Op → Bool
  | .read .. => true
  | _ => false

/-- Behind the end of the session there are only reads. -/
def ReadsBehindStop : List Op → Prop
  | [] => True
  | op :: ops => (op = .stop → ∀ o ∈ ops, o.isRead = true) ∧ ReadsBehindStop ops

theorem ReadsBehindStop.of_append {rest : List Op} : ∀ (before : List Op), ReadsBehindStop
    (before ++ rest) → ReadsBehindStop rest
  | [], h => h
  | _ :: before, h => of_append before h.2

theorem operations_stopped (actions : List Action) : ∀ (l : Loop), l.pc = .stopped →
    ∀ o ∈ operations l actions, o.isRead = true := by
  induction actions with
  | nil => intro l _ o ho; cases ho
  | cons a actions ih =>
    intro l hl o ho
    rw [operations, mem_append] at ho
    cases a with
    | loop io =>
      have hstep : loopStep io l = ([], l) := by
        unfold loopStep
        rw [hl]
      grind [act]
    | queue job => grind [act]
    | read sid n call =>
      rcases ho with ho | ho
      · cases List.mem_singleton.mp ho
        rfl
      · exact ih l hl o ho

/-- An action gives at most one operation, and `stop` only when the loop ends. -/
theorem act_ops (l : Loop) (a : Action) :
    (act l a).1 = [] ∨ (∃ op, (act l a).1 = [op] ∧ op ≠ .stop) ∨
      ((act l a).1 = [.stop] ∧ (act l a).2.pc = .stopped) := by
  cases a with
  | queue job => exact .inl rfl
  | read sid n call => exact .inr (.inl ⟨_, rfl, fun h => nomatch h⟩)
  | loop io =>
    simp only [act, loopStep]
    grind [handleFrame, applyOutgoingStreamState]

/-- **The end of the loop is the end of the frames.** -/
theorem operations_readsBehindStop (actions : List Action) : ∀ (l : Loop),
    ReadsBehindStop (operations l actions) := by
  induction actions with
  | nil => intro l; trivial
  | cons a actions ih =>
    intro l
    rw [operations]
    rcases act_ops l a with h | ⟨op, h, hop⟩ | ⟨h, hpc⟩
    · rw [h]
      exact ih _
    · rw [h]
      exact ⟨fun hstop => absurd hstop hop, ih _⟩
    · rw [h]
      exact ⟨fun _ => operations_stopped actions _ hpc, ih _⟩

theorem pushed_of_isRead {op : Op} (h : op.isRead = true) : op.pushed sid = [] := by
  cases op with
  | read j n call => rfl
  | _ => cases h

/-- For an id that is not opened again only a FIN cuts off what is pushed. -/
theorem collected_eq (ops : List Op) (hstop : ReadsBehindStop ops) (hsyn : .syn sid ∉ ops) :
    collected sid ops = (ops.takeWhile (fun o => !o.finishes sid)).flatMap (·.pushed sid) := by
  induction ops with
  | nil => rfl
  | cons op ops ih =>
    obtain ⟨hop, hrest⟩ := not_or.mp (mt List.mem_cons.mpr hsyn)
    rw [collected_cons, takeWhile_cons]
    by_cases hfin : op.finishes sid = true
    · simp [Op.ends, hfin]
    · have hopens : op.opens sid = false := by
        cases op with
        | syn j => exact decide_eq_false (fun h => hop (by rw [h]))
        | _ => rfl
      by_cases hs : op = .stop
      · have hreads := hstop.1 hs
        have hnil : (ops.takeWhile (fun o => !o.finishes sid)).flatMap (·.pushed sid) = [] := by
          rw [flatMap_eq_nil_iff]
          exact fun o ho => pushed_of_isRead (hreads o (takeWhile_subset _ ho))
        subst hs
        simpa [Op.ends, Op.finishes, Op.pushed] using hnil
      · have hends : op.ends sid = false := by simp [Op.ends, hfin, hopens, hs]
        simp only [hends, hfin, Bool.false_eq_true, if_false, Bool.not_false, if_true, flatMap_cons,
          ih hstop.2 hrest]

theorem payloads_eq {before rest : List Op} (hbefore : .syn sid ∉ before) :
    payloads sid (before ++ .syn sid :: rest) =
      (rest.takeWhile (fun o => !o.finishes sid)).flatMap (·.pushed sid) := by
  have hdrop : (before ++ .syn sid :: rest).dropWhile (fun o => !o.opens sid) = .syn sid :: rest := by
    induction before with
    | nil => simp [Op.opens]
    | cons op before ih =>
      obtain ⟨hop, hrest⟩ := not_or.mp (mt List.mem_cons.mpr hbefore)
      have hopens : op.opens sid = false := by
        cases op with
        | syn j => exact decide_eq_false (fun h => hop (by rw [h]))
        | _ => rfl
      simp_all
  unfold payloads
  rw [hdrop, tail_cons]

/-- A stream of an id that is opened once: what it has returned and what is pending. -/
theorem returned_pending {ops : List Op} (hstop : ReadsBehindStop ops) (honce : OpenedOnce ops)
    {n : Nat} {st : SingStream} (hst : ((after .new ops).opened sid)[n]? = some st) :
    returned sid n (transcript .new ops) ++ st.pending = payloads sid ops ∧
      At (after .new ops) sid n st (decide ((after .new ops).streams sid = some n)) := by
  have hcount : ((after .new ops).opened sid).length = ops.count (.syn sid) := by
    rw [opened_length]
    exact Nat.zero_add _
  have hn : n < ops.count (.syn sid) := by
    grind
  have hle := honce sid
  obtain ⟨before, rest, rfl, hbefore⟩ :=
    eq_append_cons_of_mem (List.count_pos_iff.mp (Nat.lt_of_le_of_lt (Nat.zero_le n) hn))
  rw [count_append, count_cons_self] at hn hle
  have hrest : .syn sid ∉ rest := List.count_eq_zero.mp (by omega)
  have hzero : n = 0 := by omega
  subst hzero
  -- the stream is new behind its SYN, and connected
  have hempty : (after .new before).opened sid = [] := by
    apply eq_nil_of_length_eq_zero
    rw [opened_length, count_eq_zero_of_not_mem hbefore]
    rfl
  have hat : At ((Op.syn sid).apply (after .new before)).2 sid 0 .new true := by
    refine ⟨?_, ?_, fun hc => nomatch hc⟩
    · simp [Op.apply, SingSession.createStream, hempty]
    · simp [Op.apply, SingSession.createStream, hempty]
  have hstoprest : ReadsBehindStop rest := (hstop.of_append before).2
  obtain ⟨st', connected, hat', hlaw⟩ := transcript_stream sid 0 rest _ _ _ hat
  rw [after_append] at hst
  have hsame : st = st' := Option.some.inj (hst.symm.trans hat'.stream)
  subst hsame
  refine ⟨?_, ?_⟩
  rotate_left
  · rw [after_append]
    exact ⟨hat'.stream, rfl, fun hc => ⟨(hat'.sound hc).1, hat'.sender.trans (hat'.sound hc).2⟩⟩
  rw [payloads_eq hbefore, ← collected_eq rest hstoprest hrest, transcript_append]
  have hsplit : returned sid 0 (transcript .new before ++ transcript (after .new before) (.syn sid :: rest)) =
      returned sid 0 (transcript .new before) ++
        returned sid 0 (transcript ((Op.syn sid).apply (after .new before)).2 rest) := by
    unfold returned
    rw [flatMap_append]
    rfl
  rw [hsplit, returned_unopened 0 before .new hbefore rfl, nil_append, hlaw]
  rfl

/-! ## Progress -/

/-- The reads it takes to get what is pending: one for the rest of the buffer, and one
for each chunk in the channel. -/
def SingStream.needs (st : SingStream) : Nat :=
  if st.closed then 0 else (if st.bufPos < st.buffer.length then 1 else 0) + st.queue.length

theorem pending_of_needs {st : SingStream} (hopen : st.closed = false) (h : st.needs = 0) :
    st.pending = [] := by
  simp only [SingStream.needs, hopen, Bool.false_eq_true, if_false] at h
  have hqueue : st.queue = [] := eq_nil_of_length_eq_zero (by omega)
  have hbuffer : ¬ st.bufPos < st.buffer.length := fun hlt => by simp only [if_pos hlt] at h; omega
  rw [SingStream.pending, hqueue, drop_of_length_le (Nat.le_of_not_lt hbuffer)]
  rfl

/-- A read makes progress, and one that finds nothing and no sender reports the stream
closed. -/
theorem call_progress (call : ReadCall) (connected : Bool) (st : SingStream) :
    (call.run connected st).2.needs ≤ st.needs - 1 ∧
      (st.needs = 0 → connected = false → (call.run connected st).2.closed = true) := by
  have hreceive : ∀ onEmpty, (st.receive onEmpty connected).2.needs ≤ st.needs - 1 ∧
      (st.needs = 0 → connected = false → (st.receive onEmpty connected).2.closed = true) := by
    intro onEmpty
    unfold SingStream.receive SingStream.needs
    cases hclosed : st.closed with
    | true => simp [hclosed]
    | false =>
      by_cases hb : st.bufPos < st.buffer.length
      · simp [hb]
      · cases hq : st.queue with
        | cons data queue => simp [hb]
        | nil => cases connected <;> simp [hclosed, hb, hq]
  cases call with
  | readChunk => exact hreceive .blocked
  | tryReadChunk => exact hreceive .none

/-- **A thread that goes on reading gets everything**, and finds the stream closed once
its sender is gone. -/
theorem reads_drain (sid : UInt32) (n : Nat) (calls : List ReadCall) : ∀ {s : SingSession}
    {st : SingStream} {connected : Bool}, At s sid n st connected → st.needs ≤ calls.length →
    ∃ st', At (after s (calls.map (.read sid n))) sid n st' connected ∧ st'.pending = [] ∧
      (connected = false → st.needs < calls.length ∨ st.closed = true → st'.closed = true) := by
  induction calls with
  | nil =>
    intro s st connected h hlen
    refine ⟨st, h, ?_, fun _ hor => hor.resolve_left (Nat.not_lt_zero _)⟩
    cases hclosed : st.closed with
    | true => exact (h.sound hclosed).1
    | false => exact pending_of_needs hclosed (Nat.le_zero.mp hlen)
  | cons call calls ih =>
    intro s st connected h hlen
    have hat : At ((Op.read sid n call).apply s).2 sid n (call.run connected st).2 connected := by
      have hrun : ((Op.read sid n call).apply s).2 = s.setStream sid n (call.run connected st).2 := by
        simp only [Op.apply, h.stream, h.sender]
      rw [hrun]
      exact ⟨setStream_self s sid h.lt _, h.sender, (call_spec call connected st h.sound).2⟩
    obtain ⟨hneeds, hfound⟩ := call_progress call connected st
    rw [length_cons] at hlen ⊢
    obtain ⟨st', hat', hpending, hclosed⟩ := ih hat (by omega)
    refine ⟨st', hat', hpending, fun hgone hor => hclosed hgone ?_⟩
    by_cases hzero : st.needs = 0
    · exact .inr (hfound hzero hgone)
    · refine .inl ?_
      rcases hor with hlt | hc
      · omega
      · exact absurd (if_pos hc) hzero

theorem operations_reads (sid : UInt32) (n : Nat) (calls : List ReadCall) (actions : List Action) :
    ∀ l : Loop,
    operations l (actions ++ calls.map (.read sid n)) = operations l actions ++ calls.map (.read sid n) := by
  have hreads : ∀ l : Loop, operations l (calls.map (.read sid n)) = calls.map (.read sid n) := by
    intro l
    induction calls with
    | nil => rfl
    | cons call calls ih => exact congrArg (_ :: ·) ih
  induction actions with
  | nil => exact hreads
  | cons a actions ih =>
    intro l
    rw [cons_append, operations, operations, ih, append_assoc]

/-- **Demultiplexing is faithful.** For every run of the loop, the stream threads and
the writers in which no id is opened twice, what a stream has returned is the front of
the payloads pushed to its id between the SYN and the first FIN, and all of them once it
reports closed. From any point on, as many reads as there are chunks return all of them,
and one more reports the stream closed if its sender is gone. And two runs that do the
same on all ids but one give the same results to the streams of all others, whatever is
pushed to that one. -/
theorem demultiplexing_faithful (actions : List Action) :
    (OpenedOnce (operations .start actions) → ∀ (sid : UInt32) (n : Nat) (st : SingStream),
      ((after .new (operations .start actions)).opened sid)[n]? = some st →
        (returned sid n (transcript .new (operations .start actions)) ++ st.pending =
            payloads sid (operations .start actions)) ∧
          (st.closed = true → returned sid n (transcript .new (operations .start actions)) =
            payloads sid (operations .start actions)) ∧
          ∀ calls : List ReadCall, st.needs ≤ calls.length →
            returned sid n (transcript .new (operations .start
                (actions ++ calls.map (.read sid n)))) = payloads sid (operations .start actions) ∧
              ((after .new (operations .start actions)).streams sid ≠ some n → st.needs < calls.length →
                ∃ st', ((after .new (operations .start (actions ++ calls.map (.read sid n)))).opened
                  sid)[n]? = some st' ∧ st'.closed = true)) ∧
      ∀ (actions' : List Action) (sid : UInt32),
        erase sid (operations .start actions) = erase sid (operations .start actions') →
          (transcript .new (operations .start actions)).filter (fun e => e.1.sid ≠ some sid) =
            (transcript .new (operations .start actions')).filter (fun e => e.1.sid ≠ some sid) := by
  constructor
  · intro honce sid n st hst
    obtain ⟨hlaw, hat⟩ := returned_pending (operations_readsBehindStop actions .start) honce hst
    refine ⟨hlaw, fun hc => ?_, fun calls hcalls => ?_⟩
    · rw [(hat.sound hc).1, append_nil] at hlaw
      exact hlaw
    · obtain ⟨st', hat', hpending, hclosed⟩ := reads_drain sid n calls hat hcalls
      rw [operations_reads, after_append]
      refine ⟨?_, fun hgone hlt => ⟨st', hat'.stream, hclosed (decide_eq_false hgone) (.inl hlt)⟩⟩
      -- what the reads return was pending
      obtain ⟨last, _, hlast, hreads⟩ := transcript_stream sid n (calls.map (.read sid n)) _ st _ hat
      have hnone : collected sid (calls.map (.read sid n)) = [] := by
        refine flatMap_eq_nil_iff.mpr fun op hop => ?_
        obtain ⟨call, -, rfl⟩ := mem_map.mp (takeWhile_subset _ hop)
        rfl
      rw [Option.some.inj (hlast.stream.symm.trans hat'.stream), hpending, hnone, ite_self,
        append_nil, append_nil] at hreads
      rw [transcript_append, returned, flatMap_append, ← hlaw, ← hreads]
      rfl
  · intro actions' sid heq
    have hrefl : AgreeOff sid .new .new := fun i _ => ⟨rfl, rfl⟩
    rw [transcript_erase sid _ _ _ hrefl, heq, transcript_erase sid _ _ _ hrefl]

/-- The loop reads SYN 1, PSH 1 "a", SYN 2, PSH 2 "b", then writes the FIN that the
thread of stream 1 has queued, and drops PSH 1 "c", which was already on its way. -/
def crossingFin : List Action :=
  let frame (cmd : UInt8) (sid : UInt32) (data : Bytes) : List Action :=
    [.loop (.ok (frameHeader cmd sid data.length)), .loop .wouldBlock, .loop (.ok data), .loop
      .wouldBlock, .loop .wouldBlock]
  frame cmdSyn 1 [] ++ frame cmdPsh 1 [0x61] ++ [.read 1 0 .readChunk] ++ frame cmdSyn 2 [] ++
    frame cmdPsh 2 [0x62] ++
    [.loop (.ok (frameHeader cmdPsh 1 1)), .queue ⟨cmdFin, 1, []⟩, .loop (.ok []), .loop
      .wouldBlock, .loop (.ok [0x63]), .loop .wouldBlock, .loop .wouldBlock] ++
    [.read 2 0 .tryReadChunk, .read 1 0 .tryReadChunk]

/-- Stream 1 has returned "a" and is closed, stream 2 has returned "b" and is open. -/
theorem crossing_fin_returned :
    operations .start crossingFin = [.syn 1, .psh 1 [0x61], .read 1 0 .readChunk, .syn 2, .psh 2
        [0x62], .fin 1, .psh 1 [0x63], .read 2 0 .tryReadChunk, .read 1 0 .tryReadChunk] ∧
      payloads 1 (operations .start crossingFin) = [0x61] ∧
      returned 1 0 (transcript .new (operations .start crossingFin)) = [0x61] := by
  have hops : operations .start crossingFin = [.syn 1, .psh 1 [0x61], .read 1 0 .readChunk, .syn 2,
      .psh 2 [0x62], .fin 1, .psh 1 [0x63], .read 2 0 .tryReadChunk, .read 1 0 .tryReadChunk] := by decide
  have hpay : payloads 1 (operations .start crossingFin) = [0x61] := by rw [hops]; decide
  have honce : OpenedOnce (operations .start crossingFin) := by
    intro sid
    rw [hops]
    simp only [count_cons, count_nil, beq_iff_eq, Op.syn.injEq, reduceCtorEq, if_false]
    by_cases h1 : (1 : UInt32) = sid
    · rw [if_pos h1, if_neg (fun h2 => absurd (h2.trans h1.symm) (by decide))]
    · rw [if_neg h1]
      split <;> decide
  refine ⟨hops, hpay, ?_⟩
  have hst : ((after .new (operations .start crossingFin)).opened 1)[0]? = some ⟨[], [0x61], 1, true⟩ := by
    decide
  exact ((demultiplexing_faithful crossingFin).1 honce 1 0 _ hst).2.1 rfl

end Wrongsv.L2.AnyTls
