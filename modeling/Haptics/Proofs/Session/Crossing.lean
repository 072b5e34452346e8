import Haptics.Link.Simulated
import Haptics.Proofs.Session.Visit
import Mathlib.Data.List.Perm.Basic
/-!
# Closes that cross a message

A call that brings a message first finds whether messages are still taken, and then
answers in the phase that it has read. A close may fall between the two, and the answer
does not look at the phase again. `Crossing` is a visit in which messages are handled
in these two steps, any number of them at a time. `Crossing.closed_step` says what can
still happen to a closed session: a handshake that is under way opens it again, a
request that is under way leaves its id behind, and everything else leaves it alone.
`Crossing.endings_of_run` is the main statement, with the exact conditions under which
a close is the end.
-/

namespace Haptics

open Entry

/-! ## Messages -/

/-- A request with an id to reply to. -/
def Message.Requests (m : Message) : Prop := m.payload.request? ≠ none ∧ m.id ≠ 0

/-- A handshake that these terms have a version for. -/
def Terms.Welcomes (t : Terms) (m : Message) : Prop :=
  m.id ≠ 0 ∧ ∃ clientName low high, m.payload = .handshakeRequest clientName low high ∧
    low ≤ high ∧ max low t.minVersion ≤ min high t.maxVersion

namespace Entry

theorem reasons_sent {outputs : List Output} (h : ∀ o ∈ outputs, ∃ m, o = .sent m) :
    reasons (outputs.map Output.entry) = [] := by
  rw [reasons, List.filterMap_map, List.filterMap_eq_nil_iff]
  intro o ho
  obtain ⟨m, rfl⟩ := h o ho
  rfl

end Entry

namespace Session

variable {s s' : Session} {m : Message} {es : List Entry} {phase : Phase}

/-! ## Answers -/

/-- A welcome handshake makes a session ready, whatever its phase is by now. -/
theorem greet_of_welcomes (h : s.terms.Welcomes m) (now : Time) :
    ∃ clientName version, s.greet m now =
      { alive := true
        session := { s with phase := .ready, version, clientName, lastActivity := now }
        outputs :=
          [.sent ⟨m.id, .handshakeReply s.terms.serverName version s.terms.maxPingTimeMs⟩] } := by
  obtain ⟨hid, clientName, low, high, hm, hrange, hoverlap⟩ := h
  refine ⟨clientName, min high s.terms.maxVersion, ?_⟩
  have hfits : ¬ (high < low ∨ min high s.terms.maxVersion < max low s.terms.minVersion) := by
    rw [not_or, UInt32.not_lt, UInt32.not_lt]
    exact ⟨hrange, hoverlap⟩
  simp only [greet, hm, if_neg hid, if_neg hfits]
  rfl

/-- Anything else is a violation. -/
theorem greet_of_not_welcomes (h : ¬ s.terms.Welcomes m) (now : Time) :
    ∃ v, s.greet m now = s.violate m.id v := by
  unfold greet
  split
  · rename_i clientName low high hm
    split
    · exact ⟨_, rfl⟩
    · rename_i hid
      dsimp only
      split
      · exact ⟨_, rfl⟩
      · rename_i hfits
        rw [not_or, UInt32.not_lt, UInt32.not_lt] at hfits
        exact absurd ⟨hid, clientName, low, high, hm, hfits.1, hfits.2⟩ h
  · exact ⟨_, rfl⟩

/-- **What a message past the handshake comes to**, whatever the phase is by now. -/
inductive Served (s : Session) (m : Message) : Reaction → Prop
  | violated {v : Violation} {now : Time} :
    Served s m (({ s with lastActivity := now } : Session).violate m.id v)
  /-- The session goes on. -/
  | went {s' : Session} {outputs : List Output} (hphase : s'.phase = s.phase)
    (hterms : s'.terms = s.terms) (hsent : ∀ o ∈ outputs, ∃ m, o = .sent m)
    (hsilent : s.phase = .closed → outputs = [])
    (hids : s'.outstanding = s.outstanding ∨ m.Requests) :
    Served s m { alive := true, session := s', outputs }

theorem served_accept (hreq : m.Requests) (now : Time) (entries : List DeviceEntry)
    (r : Request) :
    s.Served m (({ s with lastActivity := now } : Session).accept m.id entries r) := by
  cases r with
  | deviceList =>
    simp only [accept, reply]
    split
    · exact .went rfl rfl nofun (fun _ => rfl) (Or.inr hreq)
    · rename_i hopen
      rw [not_or] at hopen
      refine .went rfl rfl (fun o ho => ?_) (fun hc => absurd hc hopen.1) (Or.inr hreq)
      exact ⟨_, List.mem_singleton.1 ho⟩
  | task t => exact .went rfl rfl nofun (fun _ => rfl) (Or.inr hreq)

theorem served_serve (s : Session) (m : Message) (now : Time) (entries : List DeviceEntry) :
    s.Served m (s.serve m now entries) := by
  unfold serve
  dsimp only
  split
  · exact .went rfl rfl nofun (fun _ => rfl) (Or.inl rfl)
  · refine .went rfl rfl (fun o ho => ?_) (fun hc => if_pos hc) (Or.inl rfl)
    unfold send at ho
    split at ho
    · exact absurd ho List.not_mem_nil
    · exact ⟨_, List.mem_singleton.1 ho⟩
  · exact .violated
  · split
    · exact .violated
    · rename_i r hr
      split
      · exact .violated
      · rename_i hid
        split
        · exact .violated
        · exact served_accept ⟨by rw [hr]; exact Option.some_ne_none r, hid⟩ now entries r

/-- A request that is served after the close leaves its id behind. -/
theorem serve_requests (hc : s.phase = .closed) (hreq : m.Requests)
    (hfree : m.id ∉ s.outstanding) (now : Time) (entries : List DeviceEntry) :
    (s.serve m now entries).session.outstanding = s.outstanding ++ [m.id] := by
  obtain ⟨hsome, hid⟩ := hreq
  have hnot {p : Payload} (hm : m.payload = p) : p.request? ≠ none := hm ▸ hsome
  unfold serve
  dsimp only
  split
  · exact absurd rfl (hnot ‹_›)
  · exact absurd rfl (hnot ‹_›)
  · exact absurd rfl (hnot ‹_›)
  · split
    · rename_i hnone
      exact absurd hnone hsome
    · rename_i r _
      rw [if_neg hid, if_neg hfree]
      cases r with
      | deviceList => simp only [accept, reply, hc, true_or, if_true]
      | task t => rfl

theorem answer_eq_serve (h : phase ≠ .awaitingHandshake) (s : Session) (m : Message)
    (now : Time) (entries : List DeviceEntry) :
    s.answer phase m now entries = s.serve m now entries := by
  cases phase with
  | awaitingHandshake => exact absurd rfl h
  | ready => rfl
  | closed => rfl

/-! ## What every step keeps to -/

/-- **What every step keeps to**, whatever it crosses. -/
structure Keeps (s : Session) (es : List Entry) (s' : Session) : Prop where
  /-- The owner is told of a close by the step that closes the session, and by no other. -/
  told : reasons es =
    if s.phase ≠ .closed ∧ s'.phase = .closed then [s'.closeReason] else []
  /-- The handshake is not awaited again. -/
  past : s.phase ≠ .awaitingHandshake → s'.phase ≠ .awaitingHandshake

/-- A step that closes nothing. -/
theorem keeps_of_quiet (hes : reasons es = []) (hphase : s'.phase = s.phase ∨ s'.phase = .ready) :
    s.Keeps es s' where
  told := by
    rw [hes, if_neg]
    rintro ⟨hopen, hc⟩
    rcases hphase with h | h <;> rw [h] at hc
    · exact hopen hc
    · cases hc
  past hs := by
    rcases hphase with h | h <;> rw [h]
    · exact hs
    · decide

theorem keeps_of_closed (hopen : s.phase ≠ .closed) (hc : s'.phase = .closed)
    (hes : reasons es = [s'.closeReason]) : s.Keeps es s' where
  told := by rw [hes, if_pos ⟨hopen, hc⟩]
  past _ := by
    rw [hc]
    decide

theorem keeps_violate (s : Session) (m : Message) (v : Violation) :
    s.Keeps
      (.received m (s.violate m.id v).alive :: (s.violate m.id v).outputs.map Output.entry)
      (s.violate m.id v).session := by
  by_cases hc : s.phase = .closed
  · rw [violate_closed hc]
    exact keeps_of_quiet rfl (Or.inl rfl)
  · rw [violate_eq hc]
    exact keeps_of_closed hc rfl rfl

/-- So the closes that the owner is told of are counted. -/
theorem Keeps.count (h : s.Keeps es s') :
    (reasons es).length + (if s.phase = .closed then 1 else 0) =
      (if s.phase = .closed ∧ s'.phase ≠ .closed then 1 else 0) +
        if s'.phase = .closed then 1 else 0 := by
  rw [h.told]
  by_cases hc : s.phase = .closed <;> by_cases hc' : s'.phase = .closed <;> simp [hc, hc']

theorem Does.keeps (h : s.Does es s') : s.Keeps es s' := by
  cases h with
  | @took m r h =>
    cases h with
    | refused => exact keeps_of_quiet rfl (Or.inl rfl)
    | violated hopen => exact keeps_of_closed (open?_iff.1 hopen).1 rfl rfl
    | answered _ hready _ _ houtputs =>
      refine keeps_of_quiet (reasons_sent fun o ho => ?_) (Or.inr hready)
      obtain ⟨p, hp, -⟩ := houtputs o ho
      exact ⟨_, hp⟩
  | worked h =>
    cases h with
    | took => exact keeps_of_quiet rfl (Or.inl rfl)
    | moved => exact keeps_of_quiet rfl (Or.inl rfl)
    | replied => exact keeps_of_quiet rfl (Or.inl rfl)
  | switched => exact keeps_of_quiet rfl (Or.inl rfl)
  | forwarded => exact keeps_of_quiet rfl (Or.inl rfl)
  | closed hopen => exact keeps_of_closed hopen rfl rfl

theorem keeps_answer (s : Session) (phase : Phase) (m : Message) (now : Time)
    (entries : List DeviceEntry) :
    s.Keeps
      (.received m (s.answer phase m now entries).alive ::
        (s.answer phase m now entries).outputs.map Output.entry)
      (s.answer phase m now entries).session := by
  by_cases hphase : phase = .awaitingHandshake
  · rw [hphase, answer]
    by_cases hw : s.terms.Welcomes m
    · obtain ⟨clientName, version, hgreet⟩ := greet_of_welcomes hw now
      rw [hgreet]
      exact keeps_of_quiet rfl (Or.inr rfl)
    · obtain ⟨v, hgreet⟩ := greet_of_not_welcomes hw now
      rw [hgreet]
      exact keeps_violate s m v
  · rw [answer_eq_serve hphase]
    have hserved := s.served_serve m now entries
    generalize s.serve m now entries = r at hserved ⊢
    cases hserved with
    | @violated v now =>
      obtain ⟨htold, hpast⟩ := keeps_violate { s with lastActivity := now } m v
      exact ⟨htold, hpast⟩
    | went hsame _ hsent => exact keeps_of_quiet (reasons_sent hsent) (Or.inl hsame)

/-! ## Closed sessions -/

/-- **An answer after the close**, unless it is to a welcome handshake: nothing is sent,
and the session stays closed. A request leaves its id behind. -/
theorem answer_closed (hc : s.phase = .closed)
    (hnot : phase = .awaitingHandshake → ¬ s.terms.Welcomes m) (now : Time)
    (entries : List DeviceEntry) :
    (s.answer phase m now entries).session.phase = .closed ∧
      (s.answer phase m now entries).session.terms = s.terms ∧
      (s.answer phase m now entries).outputs = [] ∧
      ((s.answer phase m now entries).session.outstanding = s.outstanding ∨
        phase ≠ .awaitingHandshake ∧ m.Requests) := by
  by_cases hphase : phase = .awaitingHandshake
  · obtain ⟨v, hgreet⟩ := greet_of_not_welcomes (hnot hphase) now
    rw [hphase, answer, hgreet, violate_closed hc]
    exact ⟨hc, rfl, rfl, Or.inl rfl⟩
  · rw [answer_eq_serve hphase]
    have hserved := s.served_serve m now entries
    generalize s.serve m now entries = r at hserved ⊢
    cases hserved with
    | @violated v now =>
      have hclosed : ({ s with lastActivity := now } : Session).phase = .closed := hc
      rw [violate_closed hclosed]
      exact ⟨hc, rfl, rfl, Or.inl rfl⟩
    | went hsame hterms _ hsilent hids =>
      exact ⟨hsame.trans hc, hterms, hsilent hc, hids.imp_right fun hreq => ⟨hphase, hreq⟩⟩

end Session

/-! ## Crossings -/

/-- A visit, with the messages that are under way. Each was still taken in the phase that
stands beside it, and has yet to be answered. -/
structure Crossing (L : Type) extends Visit L where
  pending : List (Message × Phase) := []

namespace Crossing

/-- The two steps of a message, and all else that happens in a visit. -/
inductive Move (L : Type)
  /-- A call finds whether the message it brings is still taken. -/
  | hear (m : Message)
  /-- One of the calls answers its message. -/
  | answer (call : Nat) (now : Time)
  | other (mv : Visit.Move L)

variable {L : Type} [Link L]

/-- One move. -/
def step (x : Crossing L) : Move L → Crossing L
  | .hear m =>
    if x.session.open? then { x with pending := x.pending ++ [(m, x.session.phase)] }
    else { x with log := x.log ++ [.received m false] }
  | .answer call now =>
    match x.pending[call]? with
    | none => x
    | some (m, phase) =>
      let r := x.session.answer phase m now x.fleet.entries
      { x with
        session := r.session
        log := x.log ++ .received m r.alive :: r.outputs.map Output.entry
        pending := x.pending.eraseIdx call }
  | .other mv => { x with toVisit := x.toVisit.step mv }

def run (x : Crossing L) (moves : List (Move L)) : Crossing L := moves.foldl step x

/-- A fresh session, with any fleet and any audience. -/
def begin (name : String) (terms : Terms) (t : Time) (f : Fleet L) (a : Audience) : Crossing L :=
  { toVisit := .begin name terms t f a }

/-- How often a closed session is opened again. -/
def reopenings (x : Crossing L) : List (Move L) → Nat
  | [] => 0
  | mv :: moves =>
    (if x.session.phase = .closed ∧ (x.step mv).session.phase ≠ .closed then 1 else 0) +
      (x.step mv).reopenings moves

/-! ## What is under way -/

section

omit [Link L]

/-- The calls that will answer as before the handshake. -/
def greetings (x : Crossing L) : Nat := x.pending.countP fun call => call.2 = .awaitingHandshake

/-- A handshake that these terms welcome is under way. -/
def Welcomed (x : Crossing L) : Prop :=
  ∃ m, (m, Phase.awaitingHandshake) ∈ x.pending ∧ x.session.terms.Welcomes m

/-- A request is under way that will be answered as after the handshake. -/
def Requested (x : Crossing L) : Prop :=
  ∃ m phase, (m, phase) ∈ x.pending ∧ phase ≠ .awaitingHandshake ∧ m.Requests

/-- Nobody hears of the session any more. -/
structure Stays (x y : Crossing L) : Prop where
  closed : y.session.phase = .closed
  unsent : messages y.log = messages x.log
  untold : reasons y.log = reasons x.log

/-- `y` is what is left of a closed session after moves that leave it alone. -/
structure Rests (x y : Crossing L) : Prop extends Stays x y where
  terms : y.session.terms = x.session.terms
  pending : y.pending ⊆ x.pending
  ids : y.session.outstanding = x.session.outstanding ∨ x.Requested

variable {x y z : Crossing L}

theorem Rests.refl (hc : x.session.phase = .closed) : Rests x x where
  closed := hc
  unsent := rfl
  untold := rfl
  terms := rfl
  pending := List.Subset.refl _
  ids := Or.inl rfl

theorem Rests.welcomed (h : Rests x y) : y.Welcomed → x.Welcomed := by
  rintro ⟨m, hm, hw⟩
  rw [h.terms] at hw
  exact ⟨m, h.pending hm, hw⟩

theorem Rests.requested (h : Rests x y) : y.Requested → x.Requested := by
  rintro ⟨m, phase, hm, hreq⟩
  exact ⟨m, phase, h.pending hm, hreq⟩

theorem Rests.trans (h₁ : Rests x y) (h₂ : Rests y z) : Rests x z where
  closed := h₂.closed
  unsent := h₂.unsent.trans h₁.unsent
  untold := h₂.untold.trans h₁.untold
  terms := h₂.terms.trans h₁.terms
  pending := List.Subset.trans h₂.pending h₁.pending
  ids := by
    rcases h₂.ids with hids | hreq
    · rw [hids]
      exact h₁.ids
    · exact Or.inr (h₁.requested hreq)

end

/-! ## Moves one by one -/

variable {x : Crossing L}

/-- A message with nothing between its two steps is one that is handled in one go. -/
theorem step_answer_hear (x : Crossing L) (m : Message) (now : Time) :
    (x.step (.hear m)).step (.answer x.pending.length now) =
      x.step (.other (.receive m now)) := by
  by_cases hopen : x.session.open? = true
  · have hlast : (x.pending ++ [(m, x.session.phase)])[x.pending.length]? =
        some (m, x.session.phase) := by simp
    have herase : (x.pending ++ [(m, x.session.phase)]).eraseIdx x.pending.length =
        x.pending := by
      rw [List.eraseIdx_append_of_length_le (Nat.le_refl _), Nat.sub_self]
      exact List.append_nil _
    simp only [step, Visit.step, Session.receive, if_pos hopen, hlast, herase]
  · have hnone : x.pending[x.pending.length]? = none := by simp
    simp only [step, Visit.step, Session.receive, if_neg hopen, hnone]
    rfl

/-- **Every move keeps to what every step keeps to.** -/
theorem step_keeps (x : Crossing L) (mv : Move L) :
    ∃ es, (x.step mv).log = x.log ++ es ∧ x.session.Keeps es (x.step mv).session := by
  have hrest : x.session.Keeps [] x.session := Session.keeps_of_quiet rfl (Or.inl rfl)
  cases mv with
  | hear m =>
    simp only [step]
    split
    · exact ⟨[], (List.append_nil _).symm, hrest⟩
    · exact ⟨_, rfl, Session.keeps_of_quiet rfl (Or.inl rfl)⟩
  | answer call now =>
    simp only [step]
    split
    · exact ⟨[], (List.append_nil _).symm, hrest⟩
    · exact ⟨_, rfl, Session.keeps_answer _ _ _ _ _⟩
  | other mv =>
    obtain ⟨es, hlog, hdoes⟩ := x.toVisit.step_does mv
    exact ⟨es, hlog, hdoes.keeps⟩

/-- A welcome handshake that was under way is answered, and the session is ready. -/
def Reopens (x : Crossing L) (mv : Move L) : Prop :=
  ∃ call now m version, mv = .answer call now ∧
    x.pending[call]? = some (m, .awaitingHandshake) ∧ x.session.terms.Welcomes m ∧
    (x.step mv).session.phase = .ready ∧
    (x.step mv).log = x.log ++ [.received m true, .sent ⟨m.id, .handshakeReply
      x.session.terms.serverName version x.session.terms.maxPingTimeMs⟩]

/-- An answer to a welcome handshake does not ask whether the session is closed. -/
theorem reopens_answer {call : Nat} {m : Message}
    (hcall : x.pending[call]? = some (m, .awaitingHandshake))
    (hw : x.session.terms.Welcomes m) (now : Time) : x.Reopens (.answer call now) := by
  obtain ⟨clientName, version, hgreet⟩ := Session.greet_of_welcomes hw now
  refine ⟨call, now, m, version, rfl, hcall, hw, ?_, ?_⟩ <;>
    simp only [step, hcall, Session.answer, hgreet]
  rfl

/-- **What a move does to a closed session**: it opens it again, or leaves it alone. -/
theorem closed_step (hc : x.session.phase = .closed) (mv : Move L) :
    x.Reopens mv ∨ Rests x (x.step mv) := by
  cases mv with
  | hear m =>
    have hshut : x.session.open? = false := Session.open?_eq_false (Or.inl hc)
    right
    simp only [step, hshut, Bool.false_eq_true, if_false]
    refine ⟨⟨hc, ?_, ?_⟩, rfl, List.Subset.refl _, Or.inl rfl⟩
    · rw [messages_append]
      exact List.append_nil _
    · rw [reasons_append]
      exact List.append_nil _
  | answer call now =>
    cases hcall : x.pending[call]? with
    | none =>
      right
      simp only [step, hcall]
      exact .refl hc
    | some heard =>
      obtain ⟨m, phase⟩ := heard
      by_cases hwelcome : phase = .awaitingHandshake ∧ x.session.terms.Welcomes m
      · obtain ⟨rfl, hw⟩ := hwelcome
        exact Or.inl (reopens_answer hcall hw now)
      · right
        obtain ⟨hphase, hterms, hsilent, hids⟩ :=
          Session.answer_closed hc (not_and.1 hwelcome) now x.fleet.entries
        simp only [step, hcall, hsilent]
        refine ⟨⟨hphase, ?_, ?_⟩, hterms, List.eraseIdx_subset, hids.imp_right fun hreq => ?_⟩
        · rw [messages_append]
          exact List.append_nil _
        · rw [reasons_append]
          exact List.append_nil _
        · exact ⟨m, phase, List.mem_of_getElem? hcall, hreq⟩
  | other mv =>
    right
    obtain ⟨es, hlog, hdoes⟩ := x.toVisit.step_does mv
    have hlingers := hdoes.lingers hc
    obtain ⟨late, rfl⟩ := hlingers.late
    refine ⟨⟨hlingers.closed, ?_, ?_⟩, hlingers.terms, List.Subset.refl _, Or.inl hlingers.ids⟩
    · simp only [step, hlog, messages_append, messages_late, List.append_nil]
    · simp only [step, hlog, reasons_append, reasons_late, List.append_nil]

/-! ## Runs -/

/-- **A close is the end if no welcome handshake is under way.** -/
theorem rests_run (hc : x.session.phase = .closed) (hnone : ¬ x.Welcomed)
    (moves : List (Move L)) : Rests x (x.run moves) := by
  induction moves generalizing x with
  | nil => exact .refl hc
  | cons mv moves ih =>
    rcases closed_step hc mv with ⟨call, now, m, -, -, hcall, hw, -⟩ | hrests
    · exact absurd ⟨m, List.mem_of_getElem? hcall, hw⟩ hnone
    · exact hrests.trans (ih hrests.closed (mt hrests.welcomed hnone))

/-- The owner is told of every close. -/
theorem told_run (x : Crossing L) (moves : List (Move L)) :
    (reasons (x.run moves).log).length + (if x.session.phase = .closed then 1 else 0) =
      (reasons x.log).length + x.reopenings moves +
        if (x.run moves).session.phase = .closed then 1 else 0 := by
  induction moves generalizing x with
  | nil => rfl
  | cons mv moves ih =>
    obtain ⟨es, hlog, hkeeps⟩ := x.step_keeps mv
    have hcount := hkeeps.count
    have hrest := ih (x.step mv)
    rw [hlog, reasons_append, List.length_append] at hrest
    rw [reopenings]
    change (reasons ((x.step mv).run moves).log).length + _ = _ + _ +
      if ((x.step mv).run moves).session.phase = .closed then 1 else 0
    omega

/-- A session that is opened again uses up a call that was heard before the handshake. -/
theorem greetings_step (hpast : x.session.phase ≠ .awaitingHandshake) (mv : Move L) :
    (if x.session.phase = .closed ∧ (x.step mv).session.phase ≠ .closed then 1 else 0) +
      (x.step mv).greetings ≤ x.greetings := by
  split
  · rename_i hopened
    rcases closed_step hopened.1 mv with ⟨call, now, m, -, rfl, hcall, -⟩ | hrests
    · -- the call that is answered was one of them
      obtain ⟨hlt, hget⟩ := List.getElem?_eq_some_iff.1 hcall
      have hperm := List.getElem_cons_eraseIdx_perm hlt
      rw [hget] at hperm
      simp only [step, hcall, greetings]
      rw [← hperm.countP_eq, List.countP_cons_of_pos (by simp), Nat.add_comm]
    · exact absurd hrests.closed hopened.2
  · rw [Nat.zero_add]
    cases mv with
    | hear m =>
      simp only [step]
      split
      · simp [greetings, hpast]
      · exact Nat.le_refl _
    | answer call now =>
      simp only [step]
      split
      · exact Nat.le_refl _
      · exact (List.eraseIdx_sublist _ _).countP_le
    | other mv => exact Nat.le_refl _

theorem reopenings_le (hpast : x.session.phase ≠ .awaitingHandshake) (moves : List (Move L)) :
    x.reopenings moves ≤ x.greetings := by
  induction moves generalizing x with
  | nil => exact Nat.zero_le _
  | cons mv moves ih =>
    obtain ⟨es, -, hkeeps⟩ := x.step_keeps mv
    have hrest := ih (hkeeps.past hpast)
    have hstep := greetings_step hpast mv
    rw [reopenings]
    omega

/-- **What the closes come to** in a run, and what may come of them in later ones. -/
structure Endings (start : Crossing L) (moves : List (Move L)) : Prop where
  /-- The owner is told of the close, and once more for each time that the session was
  opened again. -/
  told : (reasons (start.run moves).log).length = start.reopenings moves +
    if (start.run moves).session.phase = .closed then 1 else 0
  /-- Only a welcome handshake that was under way opens a closed session. Its reply is then
  sent after the close. -/
  reopened : ∀ mv, (start.run moves).session.phase = .closed →
    ((start.run moves).step mv).session.phase ≠ .closed → (start.run moves).Reopens mv
  /-- It takes a call of its own, heard before the handshake, for each time. -/
  few : (start.run moves).session.phase ≠ .awaitingHandshake → ∀ later,
    (start.run moves).reopenings later ≤ (start.run moves).greetings
  /-- A close is the end exactly if no such handshake is under way. -/
  final_iff : (start.run moves).session.phase = .closed →
    ((∀ later, Stays (start.run moves) ((start.run moves).run later)) ↔
      ¬ (start.run moves).Welcomed)
  /-- And nobody waits for a reply from then on exactly if no request is under way either. -/
  empty_iff : (start.run moves).session.phase = .closed →
    (start.run moves).session.outstanding = [] →
      ((∀ later, Stays (start.run moves) ((start.run moves).run later) ∧
          ((start.run moves).run later).session.outstanding = []) ↔
        ¬ (start.run moves).Welcomed ∧ ¬ (start.run moves).Requested)

/-- A welcome handshake that is under way undoes the close. -/
theorem not_stays_of_welcomed (h : x.Welcomed) : ∃ later, ¬ Stays x (x.run later) := by
  obtain ⟨m, hm, hw⟩ := h
  obtain ⟨call, hcall⟩ := List.getElem?_of_mem hm
  refine ⟨[.answer call 0], fun hstays => ?_⟩
  obtain ⟨-, -, -, -, -, -, -, hready, -⟩ := reopens_answer hcall hw 0
  exact Session.ne_closed_of_ready hready hstays.closed

/-- A request that is under way leaves its id behind. -/
theorem outstanding_of_requested (h : x.Requested) (hc : x.session.phase = .closed)
    (hempty : x.session.outstanding = []) :
    ∃ later, (x.run later).session.outstanding ≠ [] := by
  obtain ⟨m, phase, hm, hphase, hreq⟩ := h
  obtain ⟨call, hcall⟩ := List.getElem?_of_mem hm
  have hfree : m.id ∉ x.session.outstanding := by
    rw [hempty]
    exact List.not_mem_nil
  refine ⟨[.answer call 0], ?_⟩
  change (x.step (.answer call 0)).session.outstanding ≠ []
  simp only [step, hcall, Session.answer_eq_serve hphase]
  rw [Session.serve_requests hc hreq hfree]
  simp

theorem final_iff (hc : x.session.phase = .closed) :
    (∀ later, Stays x (x.run later)) ↔ ¬ x.Welcomed := by
  constructor
  · intro hstays hw
    obtain ⟨later, hnot⟩ := not_stays_of_welcomed hw
    exact hnot (hstays later)
  · exact fun hnone later => (rests_run hc hnone later).toStays

theorem empty_iff (hc : x.session.phase = .closed) (hempty : x.session.outstanding = []) :
    (∀ later, Stays x (x.run later) ∧ (x.run later).session.outstanding = []) ↔
      ¬ x.Welcomed ∧ ¬ x.Requested := by
  constructor
  · intro hall
    refine ⟨(final_iff hc).1 fun later => (hall later).1, fun hreq => ?_⟩
    obtain ⟨later, hne⟩ := outstanding_of_requested hreq hc hempty
    exact hne (hall later).2
  · rintro ⟨hnone, hfree⟩ later
    have hrests := rests_run hc hnone later
    exact ⟨hrests.toStays, (hrests.ids.resolve_right hfree).trans hempty⟩

/-- **A close is the end unless it crosses a message**, in every run, with any number of
messages under way. -/
theorem endings_of_run (name : String) (terms : Terms) (t : Time) (f : Fleet L) (a : Audience)
    (moves : List (Move L)) : Endings (begin name terms t f a) moves where
  told := by
    have htold := told_run (begin name terms t f a) moves
    have hopen : (begin name terms t f a).session.phase ≠ .closed := Phase.noConfusion
    have hnone : (reasons (begin name terms t f a).log).length = 0 := rfl
    rwa [if_neg hopen, hnone, Nat.add_zero, Nat.zero_add] at htold
  reopened mv hc hopened := by
    rcases closed_step hc mv with hreopens | hrests
    · exact hreopens
    · exact absurd hrests.closed hopened
  few hpast := reopenings_le hpast
  final_iff := final_iff
  empty_iff := empty_iff

/-- A close crosses the handshake. -/
def crossed : Crossing SimulatedLink :=
  (begin "client" {} 0 {} (.opening 0 0)).run
    [.other .start, .hear ⟨1, .handshakeRequest "c" 1 1⟩, .other (.close .cancelled)]

/-- A close crosses a request. -/
def strayed : Crossing SimulatedLink :=
  (begin "client" {} 0 {} (.opening 0 0)).run
    [.other .start, .hear ⟨1, .handshakeRequest "c" 1 1⟩, .answer 0 0,
      .hear ⟨2, .stopAllRequest⟩, .other (.close .cancelled)]

/-- The first session is opened again, and its owner is told of a second close; the second
has an id outstanding. -/
theorem closes_crossed :
    crossed.session.phase = .closed ∧
      (crossed.run [.answer 0 0]).session.phase = .ready ∧
      (crossed.run [.answer 0 0, .other (.close .ok)]).log =
        [.closed .cancelled, .received ⟨1, .handshakeRequest "c" 1 1⟩ true,
          .sent ⟨1, .handshakeReply "tactile" 1 1000⟩, .closed .ok] ∧
      strayed.session.phase = .closed ∧ strayed.session.outstanding = [] ∧
      (strayed.run [.answer 0 1]).session.phase = .closed ∧
      (strayed.run [.answer 0 1]).session.outstanding = [2] := by
  decide +kernel

end Crossing

end Haptics
