import Haptics.Proofs.Fleet.Call
import Haptics.Proofs.Session.Iteration
import Haptics.Proofs.Session.Talk
import Haptics.Session.Conversation
import Haptics.Session.Listening
/-!
# Courses of a session

A session in a run of calls, each made in one go and in any order: messages,
iterations of the worker and of the forwarding of events, closes, and the two
halves of a check of the silence; the fleet and the emitter may change between
them. `Course` is the session with all of that, and a log of what outsiders see.
`Session.Did` lists what a call can come to, and `Course.step_did` says that the
list is complete: whatever holds of every run is read off it.
-/

namespace Haptics

/-! ## Entries -/

/-- What is put on record of a session. -/
inductive Entry
  /-- A message was handed over, and the session said whether it goes on. -/
  | received (m : Message) (alive : Bool)
  /-- The worker ran a task. -/
  | ran (w : Work)
  /-- A message was sent. -/
  | sent (m : Message)
  /-- The owner was told of the close. -/
  | closed (reason : ErrorCode)
deriving DecidableEq

/-- An output on record. -/
def Output.entry : Output → Entry
  | sent m => .sent m
  | closed reason => .closed reason

/-! ## What a session does -/

namespace Session

/-- The session after it was closed. -/
def ended (s : Session) (reason : ErrorCode) : Session :=
  { s with phase := .closed, closeReason := reason, outstanding := [], work := [],
           running := false }

/-- Whether the session is ready and nobody has claimed the silence of its client. -/
def Serving (s : Session) : Prop := s.phase = .ready ∧ s.pingClaimed = false

instance (s : Session) : Decidable s.Serving := inferInstanceAs (Decidable (_ ∧ _))

/-- **What a session can do in one call**, with the entries that are made of it. -/
inductive Did : Session → List Entry → Session → Prop
  | rested {s : Session} : Did s [] s
  /-- The threads of the session start or end. -/
  | switched {s : Session} {running : Bool} {subscription : Option SubscriptionId}
    (hopen : running = true → s.phase ≠ .closed) : Did s [] { s with running, subscription }
  /-- The handshake succeeds. -/
  | greeted {s : Session} {m : Message} {now : Time} {clientName : String}
    {low high version : UInt32} (hphase : s.phase = .awaitingHandshake)
    (hopen : s.open? = true) (hm : m.payload = .handshakeRequest clientName low high) :
    Did s
      [.received m true,
        .sent ⟨m.id, .handshakeReply s.terms.serverName version s.terms.maxPingTimeMs⟩]
      { s with phase := .ready, version, clientName, lastActivity := now }
  /-- A message violates the rules of the conversation. -/
  | violated {s : Session} {m : Message} {v : Violation} {now : Time} (hopen : s.open? = true) :
    Did s [.received m false, .sent ⟨m.id, .error v.code v.message⟩, .closed v.code]
      ({ s with lastActivity := now }.ended v.code)
  /-- The client shows a sign of life. -/
  | pinged {s : Session} {m : Message} {now : Time} (hs : s.Serving) (hm : m.payload = .ping) :
    Did s [.received m true] { s with lastActivity := now }
  /-- A message is not understood. -/
  | puzzled {s : Session} {m : Message} {now : Time} {code : ErrorCode} {text : String}
    (hs : s.Serving) (hm : m.payload = .unrecognized) :
    Did s [.received m true, .sent ⟨m.id, .error code text⟩] { s with lastActivity := now }
  /-- The devices are listed. -/
  | listed {s : Session} {m : Message} {now : Time} {entries : List DeviceEntry}
    (hs : s.Serving) (hid : m.id ≠ 0) (hfree : m.id ∉ s.outstanding)
    (hm : m.payload = .deviceListRequest) :
    Did s [.received m true, .sent ⟨m.id, .deviceListReply entries⟩]
      { s with lastActivity := now }
  /-- A task is accepted. -/
  | accepted {s : Session} {m : Message} {now : Time} {t : Task} {commanded : List UInt32}
    (hs : s.Serving) (hid : m.id ≠ 0) (hfree : m.id ∉ s.outstanding)
    (hm : m.payload.request? = some (.task t)) :
    Did s [.received m true]
      { s with lastActivity := now, outstanding := s.outstanding ++ [m.id], commanded,
               work := s.work ++ [⟨m.id, t⟩] }
  /-- A message comes too late. -/
  | ignored {s : Session} {m : Message} (hshut : s.open? = false) : Did s [.received m false] s
  /-- A task is run and replied to. -/
  | served {s : Session} {w : Work} {rest : List Work} {p : Payload} (hs : s.Serving)
    (hwork : s.work = w :: rest) (hid : w.id ∈ s.outstanding) (hp : w.task.Answers p) :
    Did s [.ran w, .sent ⟨w.id, p⟩]
      { s with work := rest, outstanding := s.outstanding.erase w.id }
  /-- A task is run for which nobody waits. -/
  | wasted {s : Session} {w : Work} {rest : List Work} (hs : s.Serving)
    (hwork : s.work = w :: rest) (hid : w.id ∉ s.outstanding) :
    Did s [.ran w] { s with work := rest }
  /-- A task is dropped. -/
  | dropped {s : Session} {w : Work} {rest : List Work} (hs : ¬ s.Serving)
    (hwork : s.work = w :: rest) : Did s [] { s with work := rest }
  /-- An event is forwarded. -/
  | forwarded {s : Session} {e : DeviceEvent} (hphase : s.phase = .ready) :
    Did s [.sent e.message] s
  | closed {s : Session} {reason : ErrorCode} (hopen : s.phase ≠ .closed) :
    Did s [.closed reason] (s.ended reason)
  /-- The silence of the client is claimed. -/
  | claimed {s : Session} (hs : s.Serving) : Did s [] { s with pingClaimed := true }

variable {s : Session}

/-- Who closes an open session ends it and tells the owner, once. -/
theorem close_eq (h : s.phase ≠ .closed) (reason : ErrorCode) :
    s.close reason = (s.ended reason, [.closed reason]) := if_neg h

theorem send_eq (h : s.phase ≠ .closed) (m : Message) : s.send m = [.sent m] := if_neg h

/-- Messages are taken until the close and until the silence is claimed. -/
theorem open?_iff : s.open? = true ↔ s.phase ≠ .closed ∧ s.pingClaimed = false := by
  simp [open?]

theorem ne_closed_of_ready (h : s.phase = .ready) : s.phase ≠ .closed := by
  rw [h]
  decide

theorem Serving.open? (h : s.Serving) : s.open? = true :=
  open?_iff.2 ⟨ne_closed_of_ready h.1, h.2⟩

/-- A violation is answered first, and then the session closes with its code. -/
theorem violate_eq (h : s.phase ≠ .closed) (id : UInt32) (v : Violation) :
    s.violate id v =
      { alive := false, session := s.ended v.code
        outputs := [.sent ⟨id, .error v.code v.message⟩, .closed v.code] } := by
  unfold violate
  rw [close_eq h, send_eq h]
  rfl

theorem violate_closed (h : s.phase = .closed) (id : UInt32) (v : Violation) :
    s.violate id v = { alive := false, session := s } := by
  unfold violate
  rw [close_closed h, send, if_pos h]
  rfl

/-! ## Calls one by one -/

/-- A close that comes again does nothing. -/
theorem did_close (s : Session) (reason : ErrorCode) :
    s.Did ((s.close reason).2.map Output.entry) (s.close reason).1 := by
  by_cases h : s.phase = .closed
  · rw [close_closed h]
    exact .rested
  · rw [close_eq h]
    exact .closed h

theorem did_start (s : Session) (emitter : Option Emitter) :
    s.Did [] (s.start emitter).1 := by
  unfold start
  split
  · exact .rested
  · rename_i h
    have hopen : s.phase ≠ .closed := fun hc => h (Or.inl hc)
    cases emitter with
    | none =>
      have hruns : s.Did [] { s with running := true, subscription := s.subscription } :=
        .switched fun _ => hopen
      exact hruns
    | some m => exact .switched fun _ => hopen

theorem did_join (s : Session) (emitter : Option Emitter) : s.Did [] (s.join emitter).1 :=
  .switched fun h => nomatch h

/-- Only a session that is serving its client can be found silent. -/
theorem did_claim (s : Session) (now : Time) : s.Did [] (s.claim now).2 := by
  unfold claim
  split
  · rename_i hsilent
    have hs : s.Serving := by
      simp only [silent, Bool.and_eq_true, decide_eq_true_eq, Bool.not_eq_true'] at hsilent
      exact ⟨hsilent.1.1.1, hsilent.1.2⟩
    exact .claimed hs
  · exact .rested

/-- Forwarding sends one event, or closes a session that cannot keep up, or does nothing. -/
theorem did_listen (s : Session) (m : Emitter) :
    s.Did ((s.listen m).2.2.map Output.entry) (s.listen m).1 := by
  unfold listen
  split
  · exact .rested
  · split
    · exact .rested
    · split
      · exact did_close s .cancelled
      · split
        · exact .rested
        · rename_i e _ _
          unfold forward
          split
          · rename_i hphase
            rw [send_eq (ne_closed_of_ready hphase)]
            exact .forwarded hphase
          · exact .rested

/-- What a call to the worker leaves on record. -/
theorem did_iterate {L : Type} [Link L] (s : Session) (f : Fleet L) :
    s.Did ((s.iterate f).1.toList.map .ran ++ (s.iterate f).2.outputs.map Output.entry)
      (s.iterate f).2.session := by
  unfold iterate
  split
  · split
    · exact .rested
    · rename_i w rest hwork
      dsimp only
      split
      · rename_i hs
        have hopen := ne_closed_of_ready hs.1
        by_cases hid : w.id ∈ s.outstanding
        · have hreply : ({ s with work := rest } : Session).reply w.id (w.task.run f).answer =
              ({ s with work := rest, outstanding := s.outstanding.erase w.id },
                [.sent ⟨w.id, (w.task.run f).answer⟩]) := by
            refine if_neg fun h => ?_
            rcases h with h | h
            · exact hopen h
            · exact h hid
          rw [hreply]
          exact .served hs hwork hid (w.task.answers_run f)
        · have hreply : ({ s with work := rest } : Session).reply w.id (w.task.run f).answer =
              ({ s with work := rest }, []) := if_pos (Or.inr hid)
          rw [hreply]
          exact .wasted hs hwork hid
      · rename_i hs
        exact .dropped hs hwork
  · exact .rested

/-- A violation closes an open session. -/
theorem did_violate (ho : s.open? = true) (m : Message) (v : Violation) (now : Time) :
    s.Did (.received m (({ s with lastActivity := now } : Session).violate m.id v).alive ::
        (({ s with lastActivity := now } : Session).violate m.id v).outputs.map Output.entry)
      (({ s with lastActivity := now } : Session).violate m.id v).session := by
  have hopen : ({ s with lastActivity := now } : Session).phase ≠ .closed := (open?_iff.1 ho).1
  rw [violate_eq hopen]
  exact .violated ho

/-- Before the handshake a message is a handshake that succeeds, or a violation. -/
theorem did_greet (hphase : s.phase = .awaitingHandshake) (ho : s.open? = true) (m : Message)
    (now : Time) :
    s.Did (.received m (s.greet m now).alive :: (s.greet m now).outputs.map Output.entry)
      (s.greet m now).session := by
  unfold greet
  split
  · rename_i hm
    split
    · exact did_violate ho m _ s.lastActivity
    · dsimp only
      split
      · exact did_violate ho m _ s.lastActivity
      · exact .greeted hphase ho hm
  · exact did_violate ho m _ s.lastActivity

/-- The only request that is answered at once is the one for the devices. -/
theorem eq_deviceListRequest {p : Payload} (h : p.request? = some .deviceList) :
    p = .deviceListRequest := by
  cases p with
  | deviceListRequest => rfl
  | _ => cases h

/-- The list of the devices is sent at once, and its id is free again. -/
theorem accept_deviceList (hopen : s.phase ≠ .closed) {id : UInt32}
    (hfree : id ∉ s.outstanding) (entries : List DeviceEntry) :
    s.accept id entries .deviceList =
      { alive := true, session := s, outputs := [.sent ⟨id, .deviceListReply entries⟩] } := by
  have herase : (s.outstanding ++ [id]).erase id = s.outstanding := by
    rw [List.erase_append_right _ hfree, List.erase_cons_head, List.append_nil]
  have hreply : ({ s with outstanding := s.outstanding ++ [id] } : Session).reply id
      (.deviceListReply entries) = (s, [.sent ⟨id, .deviceListReply entries⟩]) := by
    unfold reply
    rw [if_neg]
    · dsimp only
      rw [herase]
    · rintro (h | h)
      · exact hopen h
      · exact h (List.mem_append_right _ (List.mem_singleton_self id))
  unfold accept
  dsimp only
  rw [hreply]

/-- **What a message comes to in a session that is ready**: the cases are the checks that it is put
to, in their order, and then the requests. -/
theorem did_serve (hs : s.Serving) (m : Message) (now : Time) (entries : List DeviceEntry) :
    s.Did (.received m (s.serve m now entries).alive ::
        (s.serve m now entries).outputs.map Output.entry)
      (s.serve m now entries).session := by
  have ho := hs.open?
  have hopen : ({ s with lastActivity := now } : Session).phase ≠ .closed := (open?_iff.1 ho).1
  unfold serve
  dsimp only
  split
  · rename_i hm
    exact .pinged hs hm
  · rename_i hm
    rw [send_eq hopen]
    exact .puzzled hs hm
  · exact did_violate ho m _ now
  · split
    · exact did_violate ho m _ now
    · rename_i r hr
      split
      · exact did_violate ho m _ now
      · rename_i hid
        split
        · exact did_violate ho m _ now
        · rename_i hfree
          cases r with
          | deviceList =>
            rw [accept_deviceList hopen hfree]
            exact .listed hs hid hfree (eq_deviceListRequest hr)
          | task t => exact .accepted hs hid hfree hr

/-- A message is taken as the phase of the session has it, or is ignored. -/
theorem did_receive (s : Session) (m : Message) (now : Time) (entries : List DeviceEntry) :
    s.Did (.received m (s.receive m now entries).alive ::
        (s.receive m now entries).outputs.map Output.entry)
      (s.receive m now entries).session := by
  by_cases ho : s.open? = true
  · rw [receive, if_pos ho]
    cases hphase : s.phase with
    | awaitingHandshake => exact did_greet hphase ho m now
    | ready => exact did_serve ⟨hphase, (open?_iff.1 ho).2⟩ m now entries
    | closed => exact absurd hphase (open?_iff.1 ho).1
  · rw [receive, if_neg ho]
    exact .ignored (by simpa using ho)

end Session

/-! ## Courses -/

/-- A session with its fleet and its emitter, and what is on record of it. -/
structure Course (L : Type) where
  session : Session
  fleet : Fleet L
  emitter : Option Emitter
  log : List Entry := []

namespace Course

/-- The calls of a session, and what others do meanwhile. -/
inductive Call (L : Type)
  | start
  | join
  | receive (m : Message) (now : Time)
  /-- One iteration of the worker. -/
  | work
  /-- One iteration of the forwarding of events. -/
  | listen
  | close (reason : ErrorCode)
  /-- The first half of a check of the silence. -/
  | claim (now : Time)
  /-- The second half of a check. -/
  | pingStop
  /-- Something happens to the fleet. -/
  | fleet (c : Fleet.Call L)
  /-- Events are emitted, and others subscribe to them or take them. -/
  | emitter (m : Option Emitter)

variable {L : Type} [Link L]

/-- One call. -/
def step (x : Course L) : Call L → Course L
  | .start =>
    let (session, emitter) := x.session.start x.emitter
    { x with session, emitter }
  | .join =>
    let (session, emitter) := x.session.join x.emitter
    { x with session, emitter }
  | .receive m now =>
    let r := x.session.receive m now x.fleet.entries
    { x with session := r.session,
             log := x.log ++ .received m r.alive :: r.outputs.map Output.entry }
  | .work =>
    let (ran, turn) := x.session.iterate x.fleet
    { x with session := turn.session, fleet := turn.fleet,
             log := x.log ++ (ran.toList.map .ran ++ turn.outputs.map Output.entry) }
  | .listen =>
    match x.emitter with
    | none => x
    | some m =>
      let (session, m, outputs) := x.session.listen m
      { x with session, emitter := some m, log := x.log ++ outputs.map Output.entry }
  | .close reason =>
    let (session, outputs) := x.session.close reason
    { x with session, log := x.log ++ outputs.map Output.entry }
  | .claim now => { x with session := (x.session.claim now).2 }
  | .pingStop =>
    let turn := x.session.pingStop x.fleet
    { x with session := turn.session, fleet := turn.fleet,
             log := x.log ++ turn.outputs.map Output.entry }
  | .fleet c => { x with fleet := x.fleet.after c }
  | .emitter m => { x with emitter := m }

def run (x : Course L) (calls : List (Call L)) : Course L := calls.foldl step x

/-- A fresh session, with any fleet and any emitter. -/
def begin (name : String) (terms : Terms) (t : Time) (f : Fleet L) (m : Option Emitter) :
    Course L :=
  { session := { name, terms, lastActivity := t }, fleet := f, emitter := m }

/-- **Every call is one of the things that a session does.** -/
theorem step_did (x : Course L) (c : Call L) :
    ∃ es, (x.step c).log = x.log ++ es ∧ x.session.Did es (x.step c).session := by
  cases c with
  | start => exact ⟨[], (List.append_nil _).symm, Session.did_start _ x.emitter⟩
  | join => exact ⟨[], (List.append_nil _).symm, Session.did_join _ x.emitter⟩
  | receive m now => exact ⟨_, rfl, Session.did_receive _ _ _ _⟩
  | work => exact ⟨_, rfl, Session.did_iterate _ _⟩
  | listen =>
    simp only [step]
    cases x.emitter with
    | none => exact ⟨[], (List.append_nil _).symm, .rested⟩
    | some m => exact ⟨_, rfl, Session.did_listen _ _⟩
  | close reason => exact ⟨_, rfl, Session.did_close _ _⟩
  | claim now => exact ⟨[], (List.append_nil _).symm, Session.did_claim _ _⟩
  | pingStop => exact ⟨_, rfl, Session.did_close _ .pingTimeout⟩
  | fleet c => exact ⟨[], (List.append_nil _).symm, .rested⟩
  | emitter m => exact ⟨[], (List.append_nil _).symm, .rested⟩

/-- What holds of a fresh session, and is kept by whatever a session does, holds in every
run. -/
theorem run_induction {P : Session → List Entry → Prop}
    (hstep : ∀ s log es s', P s log → s.Did es s' → P s' (log ++ es)) {x : Course L}
    (hx : P x.session x.log) (calls : List (Call L)) :
    P (x.run calls).session (x.run calls).log := by
  induction calls generalizing x with
  | nil => exact hx
  | cons c calls ih =>
    obtain ⟨es, hlog, hdid⟩ := x.step_did c
    refine ih (x := x.step c) ?_
    rw [hlog]
    exact hstep _ _ _ _ hx hdid

end Course

end Haptics
