import Haptics.Proofs.Fleet.Chronicle
import Haptics.Proofs.Session.LifeCycle
/-!
# Visits

A session in the midst of a server: its client sends messages, its worker and its
forwarding of events make their steps, it is closed, and meanwhile others act on
the fleet and on the emitter, all in any order. `Visit` is the session with its
fleet and the audience of the events, a log of what outsiders see, and the events
that the forwarding took. `Session.Took` and `Session.Worked` list what a message
and a step of the worker come to, `Session.Does` what any move does to the session,
and `Visit.step_does` says that the list is complete.
-/

namespace Haptics

/-! ## Records -/

namespace Entry

theorem mem_messages {m : Message} {es : List Entry} : m ∈ messages es ↔ .sent m ∈ es := by
  rw [messages, List.mem_filterMap]
  constructor
  · rintro ⟨e, he, hm⟩
    cases e with
    | sent m' =>
      cases hm
      exact he
    | _ => cases hm
  · intro h
    exact ⟨_, h, rfl⟩

theorem sent_mem_map {m : Message} {outputs : List Output} :
    .sent m ∈ outputs.map Output.entry ↔ .sent m ∈ outputs := by
  rw [List.mem_map]
  constructor
  · rintro ⟨o, ho, hm⟩
    cases o with
    | sent m' =>
      cases hm
      exact ho
    | closed reason => cases hm
  · intro h
    exact ⟨_, h, rfl⟩

/-- Messages that are turned away are not answered. -/
theorem messages_late (late : List Message) : messages (late.map (.received · false)) = [] := by
  simp [messages, message?, List.filterMap_map, Function.comp_def]

/-- The owner does not learn of messages that are turned away. -/
theorem reasons_late (late : List Message) : reasons (late.map (.received · false)) = [] := by
  simp [reasons, reason?, List.filterMap_map, Function.comp_def]

end Entry

/-! ## Payloads -/

namespace ErrorCode

/-- The code of an error that a session survives. -/
def Mild (code : ErrorCode) : Prop :=
  code ≠ .ok ∧ (code.category = .deviceError ∨ code.category = .transportError)

theorem Mild.category_ne {code : ErrorCode} (h : code.Mild) :
    code.category ≠ .protocolViolation := by
  obtain ⟨-, h | h⟩ := h <;> rw [h] <;> decide

end ErrorCode

/-- **Every fault of a device or of its link is one that a session survives.** -/
theorem Fault.mild (e : Fault) : e.code.Mild := by
  cases e <;> simp [code, ErrorCode.Mild, ErrorCode.category]

theorem Violation.category (v : Violation) : v.code.category = .protocolViolation := by
  cases v <;> rfl

namespace Payload

/-- If it is an error, it is one that a session survives. -/
def Mild (p : Payload) : Prop := ∀ code text, p = .error code text → code.Mild

/-- What a session answers to a message at once and goes on. -/
def Routine : Payload → Prop
  | handshakeReply .. | deviceListReply _ => True
  | error code _ => code = .unrecognizedMessage
  | _ => False

theorem Routine.mild {p : Payload} (h : p.Routine) : p.Mild := by
  rintro code text rfl
  cases (h : code = .unrecognizedMessage)
  exact ⟨nofun, Or.inl rfl⟩

end Payload

theorem Command.mild_result (c : Command) (device : UInt32)
    (answer : Except Fault (List Reading)) : (c.result device answer).Mild := by
  intro code text h
  cases answer with
  | error e =>
    cases h
    exact e.mild
  | ok readings => cases c <;> cases h

theorem StopReport.mild_result (r : StopReport) : r.result.Mild := by
  intro code text h
  unfold StopReport.result at h
  split at h
  · cases h
  · rename_i first _ _
    cases h
    exact first.fault.mild

namespace Session

variable {s s' : Session} {m : Message} {now : Time} {entries : List DeviceEntry}

/-! ## Messages -/

/-- **What a message comes to.** -/
inductive Took (s : Session) (m : Message) : Reaction → Prop
  /-- Messages are not taken any more. -/
  | refused (hshut : s.open? = false) : Took s m { alive := false, session := s }
  /-- The message violates the rules of the conversation. -/
  | violated {v : Violation} {now : Time} (hopen : s.open? = true) :
    Took s m
      { alive := false, session := ({ s with lastActivity := now } : Session).ended v.code
        outputs := [.sent ⟨m.id, .error v.code v.message⟩, .closed v.code] }
  /-- The session goes on, perhaps with a request more and with an answer. -/
  | answered {s' : Session} {outputs : List Output} (hopen : s.open? = true)
    (hphase : s'.phase = .ready)
    (hlike : s'.running = s.running ∧ s'.subscription = s.subscription ∧ s'.stage = s.stage)
    (hwork : ∀ w ∈ s'.work, w ∈ s.work ∨ w.id ≠ 0)
    (houtputs : ∀ o ∈ outputs, ∃ p : Payload, o = .sent ⟨m.id, p⟩ ∧ p.Routine) :
    Took s m { alive := true, session := s', outputs }

/-- A violation is the last that is sent, and is sent for the message at hand. -/
theorem took_violate (hopen : s.open? = true) (m : Message) (v : Violation) (now : Time) :
    s.Took m (({ s with lastActivity := now } : Session).violate m.id v) := by
  have hphase : ({ s with lastActivity := now } : Session).phase ≠ .closed := (open?_iff.1 hopen).1
  rw [violate_eq hphase]
  exact .violated hopen

theorem took_greet (hopen : s.open? = true) (m : Message) (now : Time) :
    s.Took m (s.greet m now) := by
  unfold greet
  split
  · split
    · exact took_violate hopen m _ s.lastActivity
    · dsimp only
      split
      · exact took_violate hopen m _ s.lastActivity
      · refine .answered hopen rfl ⟨rfl, rfl, rfl⟩ (fun _ hw => Or.inl hw) fun o ho => ?_
        rw [send_eq (ne_closed_of_ready rfl), List.mem_singleton] at ho
        exact ⟨_, ho, trivial⟩
  · exact took_violate hopen m _ s.lastActivity

theorem took_accept (hready : s.phase = .ready) (hopen : s.open? = true) (hid : m.id ≠ 0)
    (hfree : m.id ∉ s.outstanding) (now : Time) (entries : List DeviceEntry) (r : Request) :
    s.Took m (({ s with lastActivity := now } : Session).accept m.id entries r) := by
  have hphase : ({ s with lastActivity := now } : Session).phase ≠ .closed := (open?_iff.1 hopen).1
  cases r with
  | deviceList =>
    rw [accept_deviceList hphase hfree]
    refine .answered hopen hready ⟨rfl, rfl, rfl⟩ (fun _ hw => Or.inl hw) fun o ho => ?_
    rw [List.mem_singleton] at ho
    exact ⟨_, ho, trivial⟩
  | task t =>
    refine .answered hopen hready ⟨rfl, rfl, rfl⟩ (fun w hw => ?_) nofun
    rcases List.mem_append.1 hw with hw | hw
    · exact Or.inl hw
    · rw [List.mem_singleton.1 hw]
      exact Or.inr hid

/-- A session that is ready answers nothing else at once but a violation, a list or an
unrecognized message. -/
theorem took_serve (hready : s.phase = .ready) (hopen : s.open? = true) (m : Message)
    (now : Time) (entries : List DeviceEntry) : s.Took m (s.serve m now entries) := by
  have hphase : ({ s with lastActivity := now } : Session).phase ≠ .closed := (open?_iff.1 hopen).1
  unfold serve
  dsimp only
  split
  · exact .answered hopen hready ⟨rfl, rfl, rfl⟩ (fun _ hw => Or.inl hw) nofun
  · refine .answered hopen hready ⟨rfl, rfl, rfl⟩ (fun _ hw => Or.inl hw) fun o ho => ?_
    rw [send_eq hphase, List.mem_singleton] at ho
    exact ⟨_, ho, rfl⟩
  · exact took_violate hopen m _ now
  · split
    · exact took_violate hopen m _ now
    · split
      · exact took_violate hopen m _ now
      · split
        · exact took_violate hopen m _ now
        · exact took_accept hready hopen ‹_› ‹_› now entries _

/-- **A message is refused, is a violation, or is answered or left to the worker.** -/
theorem took_receive (s : Session) (m : Message) (now : Time) (entries : List DeviceEntry) :
    s.Took m (s.receive m now entries) := by
  by_cases hopen : s.open? = true
  · rw [receive, if_pos hopen]
    cases hphase : s.phase with
    | awaitingHandshake => exact took_greet hopen m now
    | ready => exact took_serve hphase hopen m now entries
    | closed => exact absurd hphase (open?_iff.1 hopen).1
  · rw [receive, if_neg hopen]
    exact .refused (by simpa using hopen)

/-- What is not understood is answered by an error. -/
theorem receive_unrecognized (hs : s.Serving) (hm : m.payload = .unrecognized) (now : Time)
    (entries : List DeviceEntry) :
    s.receive m now entries =
      { alive := true, session := { s with lastActivity := now }
        outputs :=
          [.sent ⟨m.id, .error .unrecognizedMessage "Unrecognized message kind"⟩] } := by
  have hphase : ({ s with lastActivity := now } : Session).phase ≠ .closed :=
    ne_closed_of_ready hs.1
  have hanswer : s.answer s.phase m now entries = s.serve m now entries := by
    rw [hs.1]
    rfl
  rw [receive, if_pos hs.open?, hanswer]
  simp only [serve, hm, send_eq hphase]

/-! ## The worker -/

end Session

namespace Stage

/-- The work that the worker is at. -/
def work? : Stage → Option Work
  | idle => none
  | taken w | cleared w | sweeping w _ | executed w _ | restopping w _ _ | settled w _ => some w

/-- The result that the worker has. -/
def result? : Stage → Option Payload
  | executed _ p | restopping _ p _ | settled _ p => some p
  | _ => none

end Stage

namespace Session

/-- **What a step of the worker does to the session**, and what it sends. -/
inductive Worked (s : Session) : Session → List Output → Prop
  /-- The oldest work is taken. -/
  | took {w : Work} {rest : List Work} (hwork : s.work = w :: rest) :
    Worked s { s with work := rest, stage := .taken w } []
  /-- The work goes on or is given up. -/
  | moved {stage : Stage} (hwork : ∀ w, stage.work? = some w → s.stage.work? = some w)
    (hresult : ∀ p, stage.result? = some p → s.stage.result? = some p ∨ p.Mild) :
    Worked s { s with stage } []
  /-- The result is sent to those who wait for it. -/
  | replied {w : Work} {p : Payload} (hopen : s.phase ≠ .closed) (hid : w.id ∈ s.outstanding)
    (hstage : s.stage = .settled w p) :
    Worked s { s with outstanding := s.outstanding.erase w.id, stage := .idle } [.sent ⟨w.id, p⟩]

variable {s s' : Session}

/-- **A step of the worker is one of these**, and what it sends is mild. -/
theorem worked_workStep {L : Type} [Link L] {f : Fleet L} {turn : Turn L}
    (h : s.workStep f = some turn) : s.Worked turn.session turn.outputs := by
  unfold workStep at h
  split at h
  · rename_i hstage
    split at h
    · split at h
      · cases h
      · cases h
        exact .took ‹_›
    · cases h
  · rename_i w hstage
    have hw : s.stage.work? = some w := by rw [hstage]; rfl
    split at h
    · cases h
      exact .moved (fun _ h => by rw [hw]; exact h) nofun
    · cases h
      exact .moved nofun nofun
  · rename_i w hstage
    have hw : s.stage.work? = some w := by rw [hstage]; rfl
    split at h
    · rename_i device c _
      cases h
      refine .moved (fun _ h => by rw [hw]; exact h) fun p hp => Or.inr ?_
      cases hp
      exact c.mild_result device _
    · cases h
      exact .moved (fun _ h => by rw [hw]; exact h) nofun
  · rename_i w sweep hstage
    have hw : s.stage.work? = some w := by rw [hstage]; rfl
    split at h
    · cases h
      refine .moved (fun _ h => by rw [hw]; exact h) fun p hp => Or.inr ?_
      cases hp
      exact sweep.report.mild_result
    · cases h
      exact .moved (fun _ h => by rw [hw]; exact h) nofun
  · rename_i w result hstage
    have hw : s.stage.work? = some w := by rw [hstage]; rfl
    have hp : s.stage.result? = some result := by rw [hstage]; rfl
    split at h <;> cases h <;>
      exact .moved (fun _ h => by rw [hw]; exact h) fun _ h => Or.inl (by rw [hp]; exact h)
  · rename_i w result sweep hstage
    have hw : s.stage.work? = some w := by rw [hstage]; rfl
    have hp : s.stage.result? = some result := by rw [hstage]; rfl
    split at h <;> cases h <;>
      exact .moved (fun _ h => by rw [hw]; exact h) fun _ h => Or.inl (by rw [hp]; exact h)
  · rename_i w result hstage
    by_cases hgone : s.phase = .closed ∨ w.id ∉ s.outstanding
    · have hreply : s.reply w.id result = (s, []) := if_pos hgone
      rw [hreply] at h
      cases h
      exact .moved nofun nofun
    · have hreply : s.reply w.id result =
          ({ s with outstanding := s.outstanding.erase w.id }, [.sent ⟨w.id, result⟩]) :=
        if_neg hgone
      rw [hreply] at h
      cases h
      rw [not_or, not_not] at hgone
      exact .replied hgone.1 hgone.2 hstage

/-! ## Listening -/

/-- The event that the forwarding takes in its next turn. -/
def hears (s : Session) (m : Emitter) : Option Event :=
  match s.subscription with
  | none => none
  | some id =>
    if !s.running then none
    else if (m.queue? id).any (·.overflowed) then none
    else (m.pop id).1

/-! ## Whatever a session does -/

/-- **What a session can do in one move**, with the entries that are made of it. -/
inductive Does (s : Session) : List Entry → Session → Prop
  | took {m : Message} {r : Reaction} (h : s.Took m r) :
    Does s (.received m r.alive :: r.outputs.map Output.entry) r.session
  | worked {s' : Session} {outputs : List Output} (h : s.Worked s' outputs) :
    Does s (outputs.map Output.entry) s'
  /-- The threads of the session start or end, or the silence of the client is claimed. -/
  | switched {running pingClaimed : Bool} {subscription : Option SubscriptionId} :
    Does s [] { s with running, pingClaimed, subscription }
  | forwarded {e : DeviceEvent} (hphase : s.phase = .ready) : Does s [.sent e.message] s
  | closed {reason : ErrorCode} (hopen : s.phase ≠ .closed) :
    Does s [.closed reason] (s.ended reason)

/-- What is left of a closed session: it has its reason, its terms and its ids still, and
has only turned messages away. -/
structure Lingers (s : Session) (es : List Entry) (s' : Session) : Prop where
  closed : s'.phase = .closed
  reason : s'.closeReason = s.closeReason
  terms : s'.terms = s.terms
  ids : s'.outstanding = s.outstanding
  late : ∃ late : List Message, es = late.map (.received · false)

/-- **A closed session stays so**, whatever it does. -/
theorem Does.lingers {es : List Entry} (h : s.Does es s') (hc : s.phase = .closed) :
    s.Lingers es s' := by
  have hshut : ¬ s.open? = true := by
    intro hopen
    exact (open?_iff.1 hopen).1 hc
  cases h with
  | @took m r h =>
    cases h with
    | refused => exact ⟨hc, rfl, rfl, rfl, [m], rfl⟩
    | violated hopen => exact absurd hopen hshut
    | answered hopen => exact absurd hopen hshut
  | worked h =>
    cases h with
    | took => exact ⟨hc, rfl, rfl, rfl, [], rfl⟩
    | moved => exact ⟨hc, rfl, rfl, rfl, [], rfl⟩
    | replied hopen => exact absurd hc hopen
  | switched => exact ⟨hc, rfl, rfl, rfl, [], rfl⟩
  | forwarded hready => exact absurd hc (ne_closed_of_ready hready)
  | closed hopen => exact absurd hc hopen

/-- A change of the threads, the claim and the subscription. -/
theorem does_switch (s : Session) (running pingClaimed : Bool)
    (subscription : Option SubscriptionId) :
    s.Does [] { s with running, pingClaimed, subscription } := .switched

theorem Does.rested (s : Session) : s.Does [] s :=
  does_switch s s.running s.pingClaimed s.subscription

theorem does_close (s : Session) (reason : ErrorCode) :
    s.Does ((s.close reason).2.map Output.entry) (s.close reason).1 := by
  by_cases h : s.phase = .closed
  · rw [close_closed h]
    exact .rested s
  · rw [close_eq h]
    exact .closed h

theorem does_start (s : Session) (emitter : Option Emitter) :
    s.Does [] (s.start emitter).1 := by
  unfold start
  split
  · exact .rested s
  · cases emitter with
    | none => exact does_switch s true s.pingClaimed s.subscription
    | some m =>
      exact does_switch s true s.pingClaimed (m.subscribe {} s.terms.eventQueueSize).1

theorem does_join (s : Session) (emitter : Option Emitter) : s.Does [] (s.join emitter).1 :=
  does_switch s false s.pingClaimed none

theorem does_claim (s : Session) (now : Time) : s.Does [] (s.claim now).2 := by
  unfold claim
  split
  · exact does_switch s s.running true s.subscription
  · exact .rested s

/-- What is forwarded is an event, which answers nothing. -/
theorem does_listen (s : Session) (m : Emitter) :
    s.Does ((s.listen m).2.2.map Output.entry) (s.listen m).1 := by
  unfold listen
  split
  · exact .rested s
  · split
    · exact .rested s
    · split
      · exact does_close s .cancelled
      · split
        · exact .rested s
        · rename_i e _ _
          unfold forward
          split
          · rename_i hphase
            rw [send_eq (ne_closed_of_ready hphase)]
            exact .forwarded hphase
          · exact .rested s

end Session

/-! ## Visits -/

/-- A session with its fleet and the audience of the events, what is on record of it,
and the events that its forwarding took, each with the phase it was taken in. -/
structure Visit (L : Type) where
  session : Session
  fleet : Fleet L
  audience : Audience
  log : List Entry := []
  heard : List (Event × Phase) := []

namespace Visit

/-- What can happen to a session, and around it. -/
inductive Move (L : Type)
  | start
  | join
  | receive (m : Message) (now : Time)
  /-- The next step of the worker, with the times at which its events are emitted. -/
  | work (now : DeviceEvent → Int)
  /-- One turn of the forwarding of events. -/
  | listen
  | close (reason : ErrorCode)
  /-- The silence of the client is claimed, if it is too long. A safety stop and a close
  follow, which are moves of their own. -/
  | claim (now : Time)
  /-- Somebody else does something with the fleet. -/
  | call (c : Fleet.Call L) (now : DeviceEvent → Int)
  /-- An event is emitted, or another subscriber does something. -/
  | occur (o : Audience.Occurrence)

variable {L : Type} [Link L]

/-- One move. -/
def step (x : Visit L) : Move L → Visit L
  | .start =>
    let (session, emitter) := x.session.start (some x.audience.emitter)
    { x with session, audience := { x.audience with
        emitter := emitter.getD x.audience.emitter } }
  | .join =>
    let (session, emitter) := x.session.join (some x.audience.emitter)
    { x with session, audience := { x.audience with
        emitter := emitter.getD x.audience.emitter } }
  | .receive m now =>
    let r := x.session.receive m now x.fleet.entries
    { x with session := r.session,
             log := x.log ++ .received m r.alive :: r.outputs.map Output.entry }
  | .work now =>
    match x.session.workStep x.fleet with
    | none => x
    | some turn =>
      { x with
        session := turn.session
        fleet := turn.fleet
        audience := x.audience.run (Broadcast.emits (Fleet.emittedIn turn.trace) now)
        log := x.log ++ turn.outputs.map Output.entry }
  | .listen =>
    let (session, emitter, outputs) := x.session.listen x.audience.emitter
    { x with
      session
      audience := { x.audience with emitter }
      log := x.log ++ outputs.map Output.entry
      heard := x.heard ++
        (x.session.hears x.audience.emitter).toList.map fun e => (e, x.session.phase) }
  | .close reason =>
    let (session, outputs) := x.session.close reason
    { x with session, log := x.log ++ outputs.map Output.entry }
  | .claim now => { x with session := (x.session.claim now).2 }
  | .call c now =>
    { x with
      fleet := x.fleet.after c
      audience := x.audience.run (Broadcast.emits (x.fleet.told c) now) }
  | .occur o => { x with audience := x.audience.step o }

def run (x : Visit L) (moves : List (Move L)) : Visit L := moves.foldl step x

/-- A fresh session, with any fleet and any audience. -/
def begin (name : String) (terms : Terms) (t : Time) (f : Fleet L) (a : Audience) : Visit L :=
  { session := { name, terms, lastActivity := t }, fleet := f, audience := a }

/-- **Every move is one of the things that a session does.** -/
theorem step_does (x : Visit L) (mv : Move L) :
    ∃ es, (x.step mv).log = x.log ++ es ∧ x.session.Does es (x.step mv).session := by
  cases mv with
  | start =>
    exact ⟨[], (List.append_nil _).symm,
      Session.does_start x.session (some x.audience.emitter)⟩
  | join =>
    exact ⟨[], (List.append_nil _).symm,
      Session.does_join x.session (some x.audience.emitter)⟩
  | receive m now => exact ⟨_, rfl, .took (Session.took_receive _ _ _ _)⟩
  | work now =>
    simp only [step]
    cases h : x.session.workStep x.fleet with
    | none => exact ⟨[], (List.append_nil _).symm, .rested _⟩
    | some turn => exact ⟨_, rfl, .worked (Session.worked_workStep h)⟩
  | listen => exact ⟨_, rfl, Session.does_listen _ _⟩
  | close reason => exact ⟨_, rfl, Session.does_close _ _⟩
  | claim now => exact ⟨[], (List.append_nil _).symm, Session.does_claim _ _⟩
  | call c now => exact ⟨[], (List.append_nil _).symm, .rested _⟩
  | occur o => exact ⟨[], (List.append_nil _).symm, .rested _⟩

/-- What is kept by whatever a session does holds after every run. -/
theorem run_induction {P : Session → List Entry → Prop}
    (hstep : ∀ s log es s', P s log → s.Does es s' → P s' (log ++ es)) {x : Visit L}
    (hx : P x.session x.log) (moves : List (Move L)) :
    P (x.run moves).session (x.run moves).log := by
  induction moves generalizing x with
  | nil => exact hx
  | cons mv moves ih =>
    obtain ⟨es, hlog, hdoes⟩ := x.step_does mv
    refine ih (x := x.step mv) ?_
    rw [hlog]
    exact hstep _ _ _ _ hx hdoes

/-- **A closed session only turns messages away.** -/
theorem closed_run {x : Visit L} (hc : x.session.phase = .closed) (moves : List (Move L)) :
    (x.run moves).session.phase = .closed ∧
      (x.run moves).session.closeReason = x.session.closeReason ∧
      ∃ late : List Message, (x.run moves).log = x.log ++ late.map (.received · false) := by
  refine run_induction (P := fun s log => s.phase = .closed ∧
    s.closeReason = x.session.closeReason ∧
    ∃ late : List Message, log = x.log ++ late.map (.received · false)) ?_ ?_ moves
  · rintro s log es s' ⟨hphase, hreason, late, hlog⟩ hdoes
    have hlingers := hdoes.lingers hphase
    obtain ⟨more, hes⟩ := hlingers.late
    refine ⟨hlingers.closed, hlingers.reason.trans hreason, late ++ more, ?_⟩
    rw [hlog, hes, List.map_append, List.append_assoc]
  · exact ⟨hc, rfl, [], (List.append_nil _).symm⟩

end Visit

end Haptics
