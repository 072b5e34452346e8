import Haptics.Link.Simulated
import Haptics.Proofs.Event.Account
import Haptics.Proofs.Session.Visit
import Haptics.Server.Journal
/-!
# Attendance

A session that has subscribed to the events takes them one by one, in its own time,
while events are emitted and everybody else goes on. `Visit.Attends` puts the accounts
of its queue together with what the session told its client; it is kept by every move
(`Attends.step`) and read off in `Attendance`. `Visit.attendance_of_run` is the main
statement: a session that is ready misses no event, or it is closed.
-/

namespace Haptics

open Entry

/-! ## What a client is told of events -/

namespace Entry

/-- The messages that tell of events. -/
def tellings (log : List Entry) : List Message := (messages log).filter Message.tellsOfEvent

theorem tellings_append (log es : List Entry) :
    tellings (log ++ es) = tellings log ++ tellings es := by
  rw [tellings, messages_append, List.filter_append]
  rfl

/-- Nothing is told if everything that is sent is something else. -/
theorem tellings_eq_nil {es : List Entry} (h : ∀ m, .sent m ∈ es → m.tellsOfEvent = false) :
    tellings es = [] := by
  refine List.filter_eq_nil_iff.2 fun m hm => ?_
  rw [h m (mem_messages.1 hm)]
  exact Bool.false_ne_true

end Entry

theorem DeviceEvent.tellsOfEvent_message (e : DeviceEvent) : e.message.tellsOfEvent = true := by
  cases e <;> rfl

theorem Payload.Routine.tellsOfEvent {id : UInt32} {p : Payload} (h : p.Routine) :
    Message.tellsOfEvent ⟨id, p⟩ = false := by
  rw [Message.tellsOfEvent, Bool.and_eq_false_iff]
  right
  cases p with
  | deviceAdded | deviceRemoved | sensorReading => exact False.elim h
  | _ => rfl

theorem Message.not_tellsOfEvent {m : Message} (h : m.id ≠ 0) : m.tellsOfEvent = false := by
  rw [tellsOfEvent, decide_eq_false h, Bool.false_and]

namespace Session

variable {s s' : Session} {log es : List Entry}

/-- No request has the id that nothing replies to. -/
def Numbered (s : Session) : Prop :=
  ∀ w, w ∈ s.work ∨ s.stage.work? = some w → w.id ≠ 0

/-- What a session keeps of its threads and of its requests in a move of its own. -/
structure Minds (s s' : Session) : Prop where
  subscription : s'.subscription = s.subscription
  running : (s.running = true ↔ s.phase ≠ .closed) → (s'.running = true ↔ s'.phase ≠ .closed)
  numbered : s.Numbered → s'.Numbered
  phase : s.phase.Leads s'.phase

theorem Minds.refl (s : Session) : s.Minds s := ⟨rfl, id, id, .stay _⟩

theorem minds_ended (hopen : s.phase ≠ .closed) (reason : ErrorCode) :
    s.Minds (s.ended reason) := by
  refine ⟨rfl, fun _ => iff_of_false Bool.false_ne_true (not_not_intro rfl), fun hn w hw => ?_,
    .closed hopen⟩
  rcases hw with hw | hw
  · exact absurd hw List.not_mem_nil
  · exact hn w (Or.inr hw)

theorem minds_close (s : Session) (reason : ErrorCode) : s.Minds (s.close reason).1 := by
  by_cases h : s.phase = .closed
  · rw [close_closed h]
    exact .refl s
  · rw [close_eq h]
    exact minds_ended h reason

theorem minds_claim (s : Session) (now : Time) : s.Minds (s.claim now).2 := by
  unfold claim
  split
  · exact ⟨rfl, id, id, .stay _⟩
  · exact .refl s

/-- A message neither starts nor ends the forwarding of events, unless it closes the session. -/
theorem Took.minds {m : Message} {r : Reaction} (h : s.Took m r) : s.Minds r.session := by
  cases h with
  | refused => exact .refl s
  | @violated v now hopen =>
    have hphase : s.phase ≠ .closed := (open?_iff.1 hopen).1
    have hended := minds_ended (s := { s with lastActivity := now }) hphase v.code
    exact ⟨hended.subscription, hended.running, hended.numbered, hended.phase⟩
  | @answered s' _ hopen hready hlike hwork _ =>
    obtain ⟨hrunning, hsubscription, hstage⟩ := hlike
    refine ⟨hsubscription, fun hs => ?_, fun hn w hw => ?_, ?_⟩
    · rw [hrunning, hs]
      exact iff_of_true (open?_iff.1 hopen).1 (ne_closed_of_ready hready)
    · rcases hw with hw | hw
      · rcases hwork w hw with hold | hnew
        · exact hn w (Or.inl hold)
        · exact hnew
      · rw [hstage] at hw
        exact hn w (Or.inr hw)
    · rw [hready]
      cases hphase : s.phase with
      | awaitingHandshake => exact .ready
      | ready => exact .stay _
      | closed => exact absurd hphase (open?_iff.1 hopen).1

theorem Worked.minds {outputs : List Output} (h : s.Worked s' outputs) : s.Minds s' := by
  cases h with
  | @took w rest hwork =>
    refine ⟨rfl, id, fun hn w' hw => ?_, .stay _⟩
    rcases hw with hw | hw
    · exact hn w' (Or.inl (hwork ▸ List.mem_cons_of_mem w hw))
    · cases hw
      exact hn w (Or.inl (hwork ▸ List.mem_cons_self))
  | moved hwork =>
    refine ⟨rfl, id, fun hn w hw => ?_, .stay _⟩
    rcases hw with hw | hw
    · exact hn w (Or.inl hw)
    · exact hn w (Or.inr (hwork w hw))
  | replied =>
    refine ⟨rfl, id, fun hn w hw => ?_, .stay _⟩
    rcases hw with hw | hw
    · exact hn w (Or.inl hw)
    · cases hw

/-- Answers to messages tell of no event. -/
theorem Took.tellings {m : Message} {r : Reaction} (h : s.Took m r) :
    tellings (.received m r.alive :: r.outputs.map Output.entry) = [] := by
  refine tellings_eq_nil fun m' hm' => ?_
  rw [List.mem_cons, sent_mem_map] at hm'
  rcases hm' with hm' | hm'
  · cases hm'
  · cases h with
    | refused => exact absurd hm' List.not_mem_nil
    | violated =>
      simp only [List.mem_cons, Output.sent.injEq, reduceCtorEq, List.not_mem_nil, or_false] at hm'
      rw [hm', Message.tellsOfEvent, Bool.and_false]
    | answered _ _ _ _ houtputs =>
      obtain ⟨p, hp, hroutine⟩ := houtputs _ hm'
      cases hp
      exact hroutine.tellsOfEvent

/-- Nor do replies of the worker. -/
theorem Worked.tellings {outputs : List Output} (h : s.Worked s' outputs) (hn : s.Numbered) :
    tellings (outputs.map Output.entry) = [] := by
  refine tellings_eq_nil fun m hm => ?_
  rw [sent_mem_map] at hm
  cases h with
  | took => exact absurd hm List.not_mem_nil
  | moved => exact absurd hm List.not_mem_nil
  | @replied w p _ _ hstage =>
    have hsent := List.mem_singleton.1 hm
    cases hsent
    exact Message.not_tellsOfEvent (hn w (Or.inr (by rw [hstage]; rfl)))

theorem tellings_close (s : Session) (reason : ErrorCode) :
    Entry.tellings ((s.close reason).2.map Output.entry) = [] := by
  unfold close
  split <;> rfl

/-- **What a turn of the forwarding comes to**: it is over, it finds that events were
lost, or it takes the oldest event, if there is one. -/
theorem listen_cases {m : Emitter} {id : SubscriptionId} {q : EventQueue}
    (hsub : s.subscription = some id) (hfind : m.find? id = some ⟨id, {}, q⟩) :
    (s.running = false ∧ s.listen m = (s, m, []) ∧ s.hears m = none) ∨
      (s.running = true ∧ q.overflowed = true ∧
        s.listen m = ((s.close .cancelled).1, m, (s.close .cancelled).2) ∧ s.hears m = none) ∨
      (s.running = true ∧ q.overflowed = false ∧
        s.listen m = (s, m.setQueue id q.pop.2, q.pop.1.elim [] s.forward) ∧
        s.hears m = q.pop.1) := by
  have hpop : m.pop id = (q.pop.1, m.setQueue id q.pop.2) := Emitter.pop_eq hfind
  have hqueue : m.queue? id = some q := by rw [Emitter.queue?_eq, hfind, Option.map_some]
  unfold listen hears
  simp only [hsub, hqueue, hpop, Option.any_some]
  cases hrunning : s.running with
  | false => exact Or.inl ⟨rfl, rfl, rfl⟩
  | true =>
    right
    cases hover : q.overflowed with
    | true => exact Or.inl ⟨rfl, rfl, rfl, rfl⟩
    | false =>
      right
      refine ⟨rfl, rfl, ?_, rfl⟩
      cases hfirst : q.pop.1 <;> simp

/-- An event is told to a client that is served, and to no other. -/
theorem tellings_forward (s : Session) (e : Event) :
    Entry.tellings ((s.forward e).map Output.entry) =
      if s.phase = .ready then [e.body.message] else [] := by
  unfold forward
  split
  · rename_i hready
    rw [send_eq (ne_closed_of_ready hready)]
    have htells := e.body.tellsOfEvent_message
    simp [Entry.tellings, messages, message?, Output.entry, htells]
  · rfl

end Session

theorem Phase.Leads.eq_ready {p : Phase} (h : p.Leads .ready) (hne : p ≠ .awaitingHandshake) :
    p = .ready := by
  cases h with
  | stay => rfl
  | ready => exact absurd rfl hne

/-! ## Attendance -/

namespace Visit

open Session

variable {L : Type} [Link L] {base x : Visit L} {owed news lost : List Event}
  {id : SubscriptionId} {q : EventQueue} {heard : List (Event × Phase)}

/-- **What every move keeps of a subscribed session**, since a point `base` at which the
events `owed` were waiting: `heard` were taken since, and `news` were emitted. -/
structure Attends (base : Visit L) (owed : List Event) (id : SubscriptionId) (x : Visit L)
    (q : EventQueue) (heard : List (Event × Phase)) (news lost : List Event) : Prop where
  alone : x.audience.Alone id q
  subscription : x.session.subscription = some id
  running : x.session.running = true ↔ x.session.phase ≠ .closed
  numbered : x.session.Numbered
  heard_eq : x.heard = base.heard ++ heard
  emitted_eq : x.audience.emitted = base.audience.emitted ++ news
  accounts : q.Accounts (owed ++ news) (heard.map Prod.fst) lost
  told : tellings x.log = tellings base.log ++
    (heard.filter fun p => p.2 = .ready).map fun p => p.1.body.message
  /-- A session that was ready is so until it is closed. -/
  steady : base.session.phase = .ready → x.session.phase ≠ .awaitingHandshake ∧
    (x.session.phase = .ready → ∀ p ∈ heard, p.2 = .ready)

omit [Link L] in
/-- A move of the session or of others in which the forwarding takes nothing. -/
theorem Attends.move (h : Attends base owed id x q heard news lost) {y : Visit L}
    {es : List Entry} (os : List Audience.Occurrence) (hminds : x.session.Minds y.session)
    (haudience : y.audience = x.audience.run os) (hheard : y.heard = x.heard)
    (hlog : y.log = x.log ++ es) (hes : tellings es = []) :
    ∃ q' news' more, Attends base owed id y q' heard news' (lost ++ more) := by
  obtain ⟨q', new, more, halone, hemitted, haccounts⟩ := h.alone.run h.accounts os
  rw [← haudience] at halone hemitted
  rw [List.append_assoc] at haccounts
  refine ⟨q', news ++ new, more, halone, hminds.subscription.trans h.subscription,
    hminds.running h.running, hminds.numbered h.numbered, hheard.trans h.heard_eq, ?_, haccounts,
    ?_, fun hready => ?_⟩
  · rw [hemitted, h.emitted_eq, List.append_assoc]
  · rw [hlog, tellings_append, hes, List.append_nil, h.told]
  · obtain ⟨hgreeted, hphases⟩ := h.steady hready
    refine ⟨fun hawait => ?_, fun hready' => ?_⟩
    · have hbefore := hminds.phase
      rw [hawait] at hbefore
      exact hgreeted hbefore.eq_awaitingHandshake
    · have hbefore := hminds.phase
      rw [hready'] at hbefore
      exact hphases (hbefore.eq_ready hgreeted)

/-- **The forwarding takes the oldest event**, and tells of it if the session is ready. -/
theorem Attends.pop (h : Attends base owed id x q heard news lost) (hover : q.overflowed = false)
    (hlisten : x.session.listen x.audience.emitter =
      (x.session, x.audience.emitter.setQueue id q.pop.2, q.pop.1.elim [] x.session.forward))
    (hhears : x.session.hears x.audience.emitter = q.pop.1) :
    Attends base owed id (x.step .listen) q.pop.2
      (heard ++ q.pop.1.toList.map fun e => (e, x.session.phase)) news lost := by
  have haccounts := h.accounts.pop hover
  simp only [step]
  rw [hlisten, hhears]
  refine ⟨h.alone.setQueue q.pop.2, h.subscription, h.running, h.numbered, ?_, h.emitted_eq, ?_,
    ?_, fun hready => ?_⟩
  · rw [h.heard_eq, List.append_assoc]
  · have htaken : (heard ++ q.pop.1.toList.map fun e => (e, x.session.phase)).map Prod.fst =
        heard.map Prod.fst ++ q.pop.1.toList := by
      rw [List.map_append, List.map_map]
      simp [Function.comp_def]
    rw [htaken]
    exact haccounts
  · rw [tellings_append, h.told, List.filter_append, List.map_append, List.append_assoc]
    cases q.pop.1 with
    | none => rfl
    | some e =>
      rw [Option.elim_some, tellings_forward]
      by_cases hready : x.session.phase = .ready
      · simp [hready]
      · simp [hready]
  · obtain ⟨hgreeted, hphases⟩ := h.steady hready
    refine ⟨hgreeted, fun hready' p hp => ?_⟩
    rcases List.mem_append.1 hp with hp | hp
    · exact hphases hready' p hp
    · obtain ⟨e, -, rfl⟩ := List.mem_map.1 hp
      exact hready'

/-- The session is attended to whatever happens. -/
theorem Attends.step (h : Attends base owed id x q heard news lost) {mv : Move L}
    (hmv : mv ≠ .join) :
    ∃ q' heard' news' more, Attends base owed id (x.step mv) q' heard' news' (lost ++ more) := by
  have hsame (hstep : x.step mv = x) :
      ∃ q' heard' news' more,
        Attends base owed id (x.step mv) q' heard' news' (lost ++ more) := by
    rw [hstep]
    exact ⟨q, heard, news, [], by rwa [List.append_nil]⟩
  have hmove {es : List Entry} (os : List Audience.Occurrence)
      (hminds : x.session.Minds (x.step mv).session)
      (haudience : (x.step mv).audience = x.audience.run os)
      (hheard : (x.step mv).heard = x.heard) (hlog : (x.step mv).log = x.log ++ es)
      (hes : tellings es = []) :
      ∃ q' heard' news' more,
        Attends base owed id (x.step mv) q' heard' news' (lost ++ more) := by
    obtain ⟨q', news', more, h'⟩ := h.move os hminds haudience hheard hlog hes
    exact ⟨q', heard, news', more, h'⟩
  have hlog : x.log = x.log ++ [] := (List.append_nil _).symm
  cases mv with
  | join => exact absurd rfl hmv
  | start =>
    -- the session is closed or runs already
    have hno : x.session.phase = .closed ∨ x.session.running = true := by
      by_cases hc : x.session.phase = .closed
      · exact Or.inl hc
      · exact Or.inr (h.running.2 hc)
    have hstart : x.session.start (some x.audience.emitter) =
        (x.session, some x.audience.emitter) := if_pos hno
    refine hsame ?_
    simp only [Visit.step]
    rw [hstart]
    rfl
  | receive m now =>
    have htook := x.session.took_receive m now x.fleet.entries
    exact hmove [] htook.minds rfl rfl rfl htook.tellings
  | work now =>
    cases hwork : x.session.workStep x.fleet with
    | none =>
      refine hsame ?_
      simp only [Visit.step, hwork]
    | some turn =>
      have hworked := worked_workStep hwork
      have hstep : x.step (.work now) =
          { x with
            session := turn.session
            fleet := turn.fleet
            audience := x.audience.run (Broadcast.emits (Fleet.emittedIn turn.trace) now)
            log := x.log ++ turn.outputs.map Output.entry } := by
        simp only [Visit.step, hwork]
      rw [hstep] at hmove ⊢
      exact hmove _ hworked.minds rfl rfl rfl (hworked.tellings h.numbered)
  | listen =>
    rcases listen_cases h.subscription h.alone.found with
      ⟨-, hlisten, hhears⟩ | ⟨-, -, hlisten, hhears⟩ | ⟨-, hover, hlisten, hhears⟩
    · refine hsame ?_
      simp only [Visit.step]
      rw [hlisten, hhears]
      simp
    · have hstep : x.step .listen =
          { x with
            session := (x.session.close .cancelled).1
            log := x.log ++ (x.session.close .cancelled).2.map Output.entry } := by
        simp only [Visit.step]
        rw [hlisten, hhears]
        simp
      rw [hstep] at hmove ⊢
      exact hmove [] (minds_close _ _) rfl rfl rfl (tellings_close _ _)
    · have hpop := h.pop hover hlisten hhears
      rw [← List.append_nil lost] at hpop
      exact ⟨_, _, news, [], hpop⟩
  | close reason => exact hmove [] (minds_close _ _) rfl rfl rfl (tellings_close _ _)
  | claim now => exact hmove [] (minds_claim _ _) rfl rfl hlog rfl
  | call c now => exact hmove (Broadcast.emits (x.fleet.told c) now) (.refl _) rfl rfl hlog rfl
  | occur o => exact hmove [o] (.refl _) rfl rfl hlog rfl

/-- **The session is attended to throughout.** -/
theorem Attends.run (h : Attends base owed id x q heard news lost) {moves : List (Move L)}
    (hmoves : .join ∉ moves) :
    ∃ q' heard' news' more,
      Attends base owed id (x.run moves) q' heard' news' (lost ++ more) := by
  induction moves generalizing x q heard news lost with
  | nil => exact ⟨q, heard, news, [], by rwa [List.append_nil]⟩
  | cons mv moves ih =>
    rw [List.mem_cons, not_or] at hmoves
    obtain ⟨q', heard', news', more, h'⟩ := h.step (Ne.symm hmoves.1)
    obtain ⟨q'', heard'', news'', more', h''⟩ := ih h' hmoves.2
    rw [List.append_assoc] at h''
    exact ⟨q'', heard'', news'', more ++ more', h''⟩

omit [Link L] in
/-- What is due at a point is what waits there and was lost before, and whatever is emitted
from then on. -/
theorem Attends.rebase (h : Attends base owed id x q heard news lost) :
    Attends x (q.items ++ lost) id x q [] [] lost where
  alone := h.alone
  subscription := h.subscription
  running := h.running
  numbered := h.numbered
  heard_eq := (List.append_nil _).symm
  emitted_eq := (List.append_nil _).symm
  accounts := ⟨List.append_nil _, h.accounts.closed_eq, h.accounts.overflowed_iff,
    h.accounts.waiting⟩
  told := (List.append_nil _).symm
  steady hready := by
    refine ⟨?_, fun _ p hp => absurd hp List.not_mem_nil⟩
    rw [hready]
    decide

/-! ## The start -/

theorem orderly_start (hx : x.audience.Orderly) : (x.step .start).audience.Orderly := by
  simp only [Visit.step, Session.start]
  split
  · exact hx
  · dsimp only
    cases hfull : x.audience.emitter.full with
    | true =>
      rw [Emitter.subscribe_full hfull]
      exact hx
    | false =>
      rw [Emitter.subscribe_room hfull]
      exact (hx.alone _).orderly

theorem orderly_join (hx : x.audience.Orderly) : (x.step .join).audience.Orderly := by
  simp only [Visit.step, Session.join]
  cases x.session.subscription with
  | none => exact hx
  | some id => exact hx.of_spares (Audience.spares_unsubscribe _ id)

theorem orderly_listen (hx : x.audience.Orderly) : (x.step .listen).audience.Orderly := by
  have hpop (id : SubscriptionId) :
      ({ x.audience with emitter := (x.audience.emitter.pop id).2 } : Audience).Orderly :=
    hx.of_spares (Audience.own_pop.spares (.attached id) x.audience.emitter)
  simp only [Visit.step, Session.listen]
  split
  · exact hx
  · rename_i id _
    split
    · exact hx
    · split
      · exact hx
      · have hp := hpop id
        split <;> rename_i heq <;> rw [heq] at hp <;> exact hp

/-- Whatever happens, the audience is orderly. -/
theorem orderly_step (hx : x.audience.Orderly) (mv : Move L) :
    (x.step mv).audience.Orderly := by
  cases mv with
  | start => exact orderly_start hx
  | join => exact orderly_join hx
  | receive m now => exact hx
  | work now =>
    simp only [Visit.step]
    cases x.session.workStep x.fleet with
    | none => exact hx
    | some turn => exact hx.run _
  | listen => exact orderly_listen hx
  | close reason => exact hx
  | claim now => exact hx
  | call c now => exact hx.run _
  | occur o => exact hx.step o

/-- **The audience stays orderly** while sessions come, listen and go. -/
theorem orderly_run (hx : x.audience.Orderly) (moves : List (Move L)) :
    (x.run moves).audience.Orderly := by
  induction moves generalizing x with
  | nil => exact hx
  | cons mv moves ih => exact ih (orderly_step hx mv)

theorem numbered_does {s s' : Session} {es : List Entry} (hn : s.Numbered) (h : s.Does es s') :
    s'.Numbered := by
  cases h with
  | took h => exact h.minds.numbered hn
  | worked h => exact h.minds.numbered hn
  | switched => exact hn
  | forwarded => exact hn
  | closed hopen => exact (minds_ended hopen _).numbered hn

/-- **A session that starts attends to what is emitted from then on**, if the emitter has
room for it. -/
theorem attends_start (hx : x.audience.Orderly) (hn : x.session.Numbered)
    (hopen : x.session.phase ≠ .closed) (hidle : x.session.running = false)
    (hroom : x.audience.emitter.full = false) :
    ∃ id q, Attends (x.step .start) [] id (x.step .start) q [] [] [] := by
  have hstart : x.session.start (some x.audience.emitter) =
      ({ x.session with running := true, subscription := some x.audience.emitter.nextSubscription },
        some (x.audience.emitter.granting {} x.session.terms.eventQueueSize)) := by
    unfold Session.start
    rw [if_neg (by simp [hopen, hidle])]
    dsimp only
    rw [Emitter.subscribe_room hroom]
  have hstep : x.step .start =
      { x with
        session := { x.session with
          running := true, subscription := some x.audience.emitter.nextSubscription }
        audience := { x.audience with
          emitter := x.audience.emitter.granting {} x.session.terms.eventQueueSize } } := by
    simp only [Visit.step]
    rw [hstart]
    rfl
  rw [hstep]
  refine ⟨_, _, hx.alone x.session.terms.eventQueueSize, rfl, iff_of_true rfl hopen, hn,
    (List.append_nil _).symm, (List.append_nil _).symm, ⟨rfl, rfl, ?_, ?_⟩, ?_, fun hready => ?_⟩
  · exact iff_of_false Bool.false_ne_true (not_not_intro rfl)
  · exact fun hne => absurd rfl hne
  · exact (List.append_nil _).symm
  · refine ⟨?_, fun _ p hp => absurd hp List.not_mem_nil⟩
    change x.session.phase = .ready at hready
    change x.session.phase ≠ .awaitingHandshake
    rw [hready]
    decide

/-! ## Whole runs -/

/-- The queue of the session's subscription. -/
def queue? (x : Visit L) : Option EventQueue :=
  x.session.subscription.bind x.audience.emitter.queue?

/-- The events that wait for the forwarding. -/
def waiting (x : Visit L) : List Event := x.queue?.elim [] EventQueue.items

/-- Whether the queue had to reject an event. -/
def overflowed (x : Visit L) : Bool := x.queue?.any (·.overflowed)

/-- The events that were taken since a point, each with the phase it was taken in. -/
def heardSince (x base : Visit L) : List (Event × Phase) := x.heard.drop base.heard.length

/-- The events that were emitted since a point. -/
def emittedSince (x base : Visit L) : List Event :=
  x.audience.emitted.drop base.audience.emitted.length

/-- **What a session makes of the events** since it started, at a point that a run has led
to. -/
structure Attendance (start x : Visit L) : Prop where
  /-- The events taken and those that wait come without a gap. -/
  gapless : (x.heardSince start).map Prod.fst ++ x.waiting <+: x.emittedSince start
  /-- They are all, exactly as long as none was rejected. -/
  complete_iff : (x.heardSince start).map Prod.fst ++ x.waiting = x.emittedSince start ↔
    x.overflowed = false
  /-- The client is told of those that were taken in a ready session, in order. -/
  told : tellings x.log = tellings start.log ++
    ((x.heardSince start).filter fun p => p.2 = .ready).map fun p => p.1.body.message
  /-- Once an event was rejected, the next turn of the forwarding closes the session, and
  nothing is sent from then on. -/
  overflow : x.overflowed = true → x.session.phase ≠ .closed →
    (x.step .listen).session.phase = .closed ∧
      (x.step .listen).session.closeReason = .cancelled ∧
      (x.step .listen).log = x.log ++ [.closed .cancelled] ∧
      ∀ later, messages ((x.step .listen).run later).log = messages x.log
  /-- A session that is ready now and later has told of all that was waiting and that was
  emitted in between, once nothing waits any more. -/
  drained : ∀ later, .join ∉ later → x.session.phase = .ready →
    (x.run later).session.phase = .ready → (x.run later).waiting = [] →
      tellings (x.run later).log = tellings x.log ++
        (x.waiting ++ (x.run later).emittedSince x).map fun e => e.body.message

omit [Link L] in
theorem Attends.reads (h : Attends base owed id x q heard news lost) :
    x.waiting = q.items ∧ x.overflowed = q.overflowed ∧ x.heardSince base = heard ∧
      x.emittedSince base = news := by
  have hqueue : x.queue? = some q := by
    rw [queue?, h.subscription, Option.bind_some, Emitter.queue?_eq, h.alone.found,
      Option.map_some]
  refine ⟨?_, ?_, ?_, ?_⟩
  · rw [waiting, hqueue, Option.elim_some]
  · rw [overflowed, hqueue, Option.any_some]
  · rw [heardSince, h.heard_eq, List.drop_left]
  · rw [emittedSince, h.emitted_eq, List.drop_left]

/-- A rejected event closes the session. -/
theorem Attends.overflow (h : Attends base owed id x q heard news lost)
    (hover : q.overflowed = true) (hopen : x.session.phase ≠ .closed) :
    (x.step .listen).session.phase = .closed ∧
      (x.step .listen).session.closeReason = .cancelled ∧
      (x.step .listen).log = x.log ++ [.closed .cancelled] ∧
      ∀ later, messages ((x.step .listen).run later).log = messages x.log := by
  have hrunning := h.running.2 hopen
  have hlisten : x.session.listen x.audience.emitter =
      (x.session.ended .cancelled, x.audience.emitter, [.closed .cancelled]) := by
    rcases listen_cases h.subscription h.alone.found with
      ⟨hoff, -⟩ | ⟨-, -, hlisten, -⟩ | ⟨-, hfine, -⟩
    · rw [hrunning] at hoff
      cases hoff
    · rw [hlisten, close_eq hopen]
    · rw [hover] at hfine
      cases hfine
  have hsession : (x.step .listen).session = x.session.ended .cancelled := by
    simp only [Visit.step]
    rw [hlisten]
  have hlog : (x.step .listen).log = x.log ++ [.closed .cancelled] := by
    simp only [Visit.step]
    rw [hlisten]
    rfl
  have hclosed : (x.step .listen).session.phase = .closed := by
    rw [hsession]
    rfl
  refine ⟨hclosed, by rw [hsession]; rfl, hlog, fun later => ?_⟩
  obtain ⟨-, -, late, hlate⟩ := closed_run hclosed later
  rw [hlate, hlog, messages_append, messages_append, messages_late, List.append_nil]
  exact List.append_nil _

/-- **A session that stays ready misses nothing.** -/
theorem Attends.drained (h : Attends base owed id x q heard news lost) {later : List (Move L)}
    (hlater : .join ∉ later) (hready : x.session.phase = .ready)
    (hready' : (x.run later).session.phase = .ready) (hdrained : (x.run later).waiting = []) :
    tellings (x.run later).log = tellings x.log ++
      (x.waiting ++ (x.run later).emittedSince x).map fun e => e.body.message := by
  obtain ⟨q', heard', news', more, h'⟩ := h.rebase.run hlater
  obtain ⟨hwaiting', -, -, hnews'⟩ := h'.reads
  have hnil : q'.items = [] := hwaiting'.symm.trans hdrained
  -- a queue that had lost an event would still be full
  have hlost : lost ++ more = [] := by
    by_contra hne
    exact h'.accounts.waiting hne hnil
  have hdue := h'.accounts.due_eq
  rw [hnil, hlost, (List.append_eq_nil_iff.1 hlost).1, List.append_nil, List.append_nil,
    List.append_nil] at hdue
  have hall : (heard'.filter fun p => p.2 = .ready) = heard' := by
    refine List.filter_eq_self.2 fun p hp => ?_
    exact decide_eq_true ((h'.steady hready).2 hready' p hp)
  rw [h'.told, hall, hnews', h.reads.1, hdue, List.map_map]
  rfl

theorem Attends.attendance (h : Attends base [] id x q heard news lost) :
    Attendance base x := by
  obtain ⟨hwaiting, hover, hheard, hnews⟩ := h.reads
  have hdue := h.accounts.due_eq
  rw [List.nil_append] at hdue
  refine ⟨?_, ?_, ?_, fun hlost hopen => ?_, fun later => h.drained⟩
  · rw [hwaiting, hheard, hnews, hdue]
    exact List.prefix_append _ _
  · rw [hwaiting, hheard, hnews, hover, ← Bool.not_eq_true, h.accounts.overflowed_iff, not_not,
      hdue]
    exact List.self_eq_append_right
  · rw [hheard]
    exact h.told
  · exact h.overflow (hover.symm.trans hlost) hopen

/-- A run leads to it, from a fresh session and an emitter to which nothing has happened. -/
def Reached (x : Visit L) : Prop :=
  ∃ name terms t f defaultQueueSize maxSubscribers moves,
    x = (begin name terms t f (.opening defaultQueueSize maxSubscribers)).run moves

/-- **A live session misses no event**, whatever it is asked and whatever happens around it,
from the start at which the emitter has room for it. -/
theorem attendance_of_run (hx : x.Reached) (hopen : x.session.phase ≠ .closed)
    (hidle : x.session.running = false) (hroom : x.audience.emitter.full = false)
    {after : List (Move L)} (hafter : .join ∉ after) :
    Attendance (x.step .start) ((x.step .start).run after) := by
  obtain ⟨name, terms, t, f, defaultQueueSize, maxSubscribers, moves, rfl⟩ := hx
  have horderly := orderly_run
    (x := begin name terms t f (.opening defaultQueueSize maxSubscribers))
    (Audience.orderly_opening defaultQueueSize maxSubscribers) moves
  have hbegin : (begin name terms t f
      (.opening defaultQueueSize maxSubscribers)).session.Numbered := by
    rintro w (hw | hw)
    · exact absurd hw List.not_mem_nil
    · cases hw
  have hnumbered := run_induction (P := fun s _ => s.Numbered)
    (fun _ _ _ _ hn hdoes => numbered_does hn hdoes) hbegin moves
  obtain ⟨id, q, hstart⟩ := attends_start horderly hnumbered hopen hidle hroom
  obtain ⟨q', heard, news, more, hrun⟩ := hstart.run hafter
  exact hrun.attendance

/-- A session whose queue has room for one event. -/
def visitor : Visit SimulatedLink := begin "client" { eventQueueSize := 1 } 0 {} (.opening 0 0)

/-- Its client comes, and two events are emitted before the forwarding has its turn. -/
def crowd : List (Move SimulatedLink) :=
  [.receive ⟨1, .handshakeRequest "c" 1 2⟩ 0, .occur (.emit (.removed 0 "a") 0),
    .occur (.emit (.removed 1 "b") 0), .listen]

/-- The second is rejected, and the session closes. -/
theorem attendance_of_run_crowd :
    Attendance (visitor.step .start) ((visitor.step .start).run crowd) ∧
      ((visitor.step .start).run crowd).log =
        [.received ⟨1, .handshakeRequest "c" 1 2⟩ true,
          .sent ⟨1, .handshakeReply "tactile" 2 1000⟩, .closed .cancelled] :=
  ⟨attendance_of_run ⟨"client", { eventQueueSize := 1 }, 0, {}, 0, 0, [], rfl⟩ (by decide) rfl rfl
    (by simp [crowd]), by decide +kernel⟩

end Visit

end Haptics
