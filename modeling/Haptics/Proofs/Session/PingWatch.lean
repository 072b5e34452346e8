import Haptics.Link.Simulated
import Haptics.Proofs.Session.Scene
import Haptics.Proofs.Session.Silence
/-!
# The watch over silence

A session in a run of calls, each done in one go and at any time: messages, steps
of the worker, closes and checks of the silence, where a check may also be made in
two halves, the claim and what follows it up. `Vigil` is the session with its
fleet and a log of what matters. `exact_of_run` is the main statement: a check
fires exactly when it should, at most one fires, the one that fires makes one
stop of the scope and the session is closed with it, and from the moment it fires
the session is deaf.
-/

namespace Haptics

/-! ## Marks -/

/-- What is put on record of a session. -/
inductive Mark
  /-- The handshake was made, or a message was taken by the ready session. -/
  | heard (t : Time)
  /-- A check fired. -/
  | fired
  /-- A fired check was followed up by a safety stop, in which this happened. -/
  | swept (trace : List Happening)
  | closed (reason : ErrorCode)
deriving DecidableEq

namespace Mark

def time? : Mark → Option Time
  | heard t => some t
  | _ => none

def isSwept : Mark → Bool
  | swept _ => true
  | _ => false

/-- When the client was last heard of. -/
def lastHeard (log : List Mark) : Option Time := log.reverse.findSome? time?

theorem lastHeard_append (log marks : List Mark) :
    lastHeard (log ++ marks) = (lastHeard marks).or (lastHeard log) := by
  rw [lastHeard, List.reverse_append, List.findSome?_append]
  rfl

/-- The mark of a message that was taken. -/
def hearing (s s' : Session) (now : Time) : List Mark :=
  if s.pingClaimed = false ∧
      (s.phase = .ready ∨ s.phase = .awaitingHandshake ∧ s'.phase = .ready) then [.heard now]
  else []

/-- The mark of a session that closes. -/
def closing (s s' : Session) : List Mark :=
  if s.phase ≠ .closed ∧ s'.phase = .closed then [.closed s'.closeReason] else []

variable {s s' : Session}

theorem mem_closing {m : Mark} (h : m ∈ closing s s') :
    s'.phase = .closed ∧ m = .closed s'.closeReason := by
  unfold closing at h
  split at h
  · rename_i hc
    exact ⟨hc.2, List.mem_singleton.1 h⟩
  · exact absurd h List.not_mem_nil

/-- A close is no sign of life. -/
theorem lastHeard_closing : lastHeard (closing s s') = none := by
  unfold closing
  split <;> rfl

theorem closed_mem_closing (h : s.phase ≠ .closed) (h' : s'.phase = .closed) :
    .closed s'.closeReason ∈ closing s s' := by
  rw [closing, if_pos ⟨h, h'⟩]
  exact List.mem_singleton_self _

/-- A session that was closed does not close. -/
theorem closing_of_closed (h : s.phase = .closed) : closing s s' = [] :=
  if_neg fun hc => hc.1 h

theorem closing_close (s : Session) (reason : ErrorCode) :
    closing s (s.close reason).1 = if s.phase = .closed then [] else [.closed reason] := by
  by_cases hp : s.phase = .closed
  · rw [if_pos hp, closing_of_closed hp]
  · rw [if_neg hp, closing, if_pos ⟨hp, Session.phase_close s reason⟩,
      Session.closeReason_close, if_neg hp]

/-- Nor does one that goes on. -/
theorem closing_of_open (h : s'.phase = .ready) : closing s s' = [] :=
  if_neg fun hc => by rw [h] at hc; cases hc.2

end Mark

/-! ## Vigils -/

/-- A session with its fleet. A claimed silence is pending until it is followed up. -/
structure Vigil (L : Type) where
  session : Session
  fleet : Fleet L
  pending : Bool := false
  log : List Mark := []

namespace Vigil

open Mark

/-- The calls of a session, and others of its fleet. -/
inductive Call (L : Type)
  | start (emitter : Option Emitter)
  | join
  | receive (m : Message) (now : Time)
  | work
  | close (reason : ErrorCode)
  /-- The first half of a check. -/
  | claim (now : Time)
  /-- The second half of a check that fired. -/
  | pingStop
  | check (now : Time)
  | fleet (c : Fleet.Call L)

variable {L : Type} [Link L]

/-- One call. -/
def step (x : Vigil L) : Call L → Vigil L
  | .start emitter => { x with session := (x.session.start emitter).1 }
  | .join => { x with session := (x.session.join none).1 }
  | .receive m now =>
    let session := (x.session.receive m now x.fleet.entries).session
    { x with session, log := x.log ++ hearing x.session session now ++ closing x.session session }
  | .work =>
    match x.session.workStep x.fleet with
    | none => x
    | some turn => { x with session := turn.session, fleet := turn.fleet }
  | .close reason =>
    let session := (x.session.close reason).1
    { x with session, log := x.log ++ closing x.session session }
  | .claim now =>
    match x.session.claim now with
    | (true, session) => { x with session, pending := true, log := x.log ++ [.fired] }
    | (false, session) => { x with session }
  | .pingStop =>
    if x.pending then
      let turn := x.session.pingStop x.fleet
      { session := turn.session, fleet := turn.fleet,
        log := x.log ++ .swept turn.trace :: closing x.session turn.session }
    else x
  | .check now =>
    match x.session.checkPing x.fleet now with
    | (true, turn) =>
      { x with session := turn.session, fleet := turn.fleet,
               log := x.log ++ .fired :: .swept turn.trace :: closing x.session turn.session }
    | (false, turn) => { x with session := turn.session, fleet := turn.fleet }
  | .fleet c => { x with fleet := x.fleet.after c }

def run (x : Vigil L) (calls : List (Call L)) : Vigil L := calls.foldl step x

/-- A fresh session, with any fleet. -/
def begin (name : String) (terms : Terms) (t : Time) (f : Fleet L) : Vigil L :=
  { session := { name, terms, lastActivity := t }, fleet := f }

/-! ## The invariant -/

/-- **What every call keeps.** -/
structure Inv (terms : Terms) (x : Vigil L) : Prop where
  terms : x.session.terms = terms
  /-- The session knows when its client was last heard of. -/
  activity : x.session.phase = .ready → lastHeard x.log = some x.session.lastActivity
  claimed : x.session.pingClaimed = true ↔ .fired ∈ x.log
  once : x.log.count .fired ≤ 1
  /-- Every check that fired was followed up, or is pending. -/
  sweeps : x.log.countP isSwept + (if x.pending then 1 else 0) = x.log.count .fired
  closed : ∀ r, .closed r ∈ x.log → x.session.phase = .closed ∧ x.session.closeReason = r
  ended : x.session.phase = .closed → ∃ r, .closed r ∈ x.log
  /-- The follow-up closes the session, if nothing did before. -/
  swept : ∀ pre trace post, x.log = pre ++ .swept trace :: post →
    x.session.phase = .closed ∧
      ((∀ r, .closed r ∉ pre) → x.session.closeReason = .pingTimeout)

variable {terms : Terms} {x : Vigil L}

omit [Link L] in
theorem inv_begin (name : String) (terms : Terms) (t : Time) (f : Fleet L) :
    Inv terms (begin name terms t f) where
  terms := rfl
  activity h := by simp [begin] at h
  claimed := by simp [begin]
  once := by simp [begin]
  sweeps := by simp [begin]
  closed r h := by simp [begin] at h
  ended h := by simp [begin] at h
  swept pre trace post h := by simp [begin] at h

omit [Link L] in
/-- Calls without a bearing on the silence of the client. -/
theorem Inv.still (h : x.Inv terms) {s : Session} (hs : x.session.Still s) (f : Fleet L) :
    Inv terms { x with session := s, fleet := f } where
  terms := hs.terms.trans h.terms
  activity hp := by
    rw [h.activity (hs.phase ▸ hp), hs.activity]
  claimed := by
    rw [← h.claimed, ← hs.claimed]
  once := h.once
  sweeps := h.sweeps
  closed r hr := by
    rw [hs.phase, hs.reason]
    exact h.closed r hr
  ended hp := h.ended (hs.phase ▸ hp)
  swept pre trace post heq := by
    rw [hs.phase, hs.reason]
    exact h.swept pre trace post heq

omit [Link L] in
/-- Before the session is closed there was no follow-up, and no close is on
record. -/
theorem Inv.of_open (h : x.Inv terms) (ho : x.session.phase ≠ .closed) :
    (∀ trace, .swept trace ∉ x.log) ∧ ∀ r, .closed r ∉ x.log := by
  refine ⟨fun trace hmem => ?_, fun r hmem => ho (h.closed r hmem).1⟩
  obtain ⟨pre, post, heq⟩ := List.append_of_mem hmem
  exact ho (h.swept pre trace post heq).1

omit [Link L] in
/-- **An open session that goes on or closes**, with marks of the client's signs
of life. -/
theorem Inv.move (h : x.Inv terms) (ho : x.session.phase ≠ .closed) {s : Session}
    {marks : List Mark} (hterms : s.terms = x.session.terms)
    (hclaimed : s.pingClaimed = x.session.pingClaimed) (hmarks : ∀ m ∈ marks, ∃ t, m = .heard t)
    (hactivity : s.phase = .ready → lastHeard (x.log ++ marks) = some s.lastActivity) :
    Inv terms { x with session := s, log := x.log ++ (marks ++ closing x.session s) } := by
  obtain ⟨hnosweep, hnoclose⟩ := h.of_open ho
  -- nothing new was fired or followed up, and the one close there may be is on record
  have hnew : ∀ m ∈ marks ++ closing x.session s,
      (∃ t, m = .heard t) ∨ s.phase = .closed ∧ m = .closed s.closeReason := by
    intro m hm
    rcases List.mem_append.1 hm with hm | hm
    · exact Or.inl (hmarks m hm)
    · exact Or.inr (mem_closing hm)
  have hfired : .fired ∉ marks ++ closing x.session s := by
    intro hm
    rcases hnew _ hm with ⟨t, ht⟩ | ⟨-, ht⟩ <;> cases ht
  have hswept : ∀ m ∈ marks ++ closing x.session s, ¬ isSwept m = true := by
    intro m hm
    rcases hnew m hm with ⟨t, rfl⟩ | ⟨-, rfl⟩ <;> exact Bool.false_ne_true
  refine ⟨hterms.trans h.terms, fun hp => ?_, ?_, ?_, ?_, fun r hr => ?_, fun hp => ?_,
    fun pre trace post heq => ?_⟩
  · rw [closing_of_open hp, List.append_nil]
    exact hactivity hp
  · rw [hclaimed, h.claimed, List.mem_append]
    exact ⟨Or.inl, fun hm => hm.resolve_right hfired⟩
  · rw [List.count_append, List.count_eq_zero.2 hfired]
    exact h.once
  · rw [List.count_append, List.count_eq_zero.2 hfired, List.countP_append,
      List.countP_eq_zero.2 hswept]
    exact h.sweeps
  · rcases List.mem_append.1 hr with hr | hr
    · exact absurd hr (hnoclose r)
    · rcases hnew _ hr with ⟨t, ht⟩ | ⟨hp, ht⟩
      · cases ht
      · cases ht
        exact ⟨hp, rfl⟩
  · exact ⟨s.closeReason, List.mem_append_right _ (List.mem_append_right _
      (closed_mem_closing ho hp))⟩
  · rcases split_append heq with ⟨mid, hlog, -⟩ | ⟨mid, hmore, -⟩
    · exact absurd (hlog ▸ by simp) (hnosweep trace)
    · have hm : Mark.swept trace ∈ marks ++ closing x.session s := by rw [hmore]; simp
      exact absurd rfl (hswept _ hm)

theorem Inv.receive (h : x.Inv terms) (m : Message) (now : Time) :
    Inv terms (x.step (.receive m now)) := by
  simp only [step, List.append_assoc]
  by_cases ho : x.session.open? = true
  · have hopen : x.session.phase ≠ .closed ∧ x.session.pingClaimed = false := by
      simpa [Session.open?] using ho
    have hheard := Session.heard_receive ho m now x.fleet.entries
    refine h.move hopen.1 hheard.terms hheard.claimed (fun mark hm => ?_) fun hp => ?_
    · unfold hearing at hm
      split at hm
      · exact ⟨now, List.mem_singleton.1 hm⟩
      · exact absurd hm List.not_mem_nil
    · -- the session was ready, or it has become so
      have hnow := hheard.outcome.resolve_right (by rw [hp]; exact fun hc => by cases hc)
      have hmark : hearing x.session (x.session.receive m now x.fleet.entries).session now =
          [.heard now] := by
        refine if_pos ⟨hopen.2, ?_⟩
        cases hphase : x.session.phase with
        | awaitingHandshake => exact Or.inr ⟨rfl, hp⟩
        | ready => exact Or.inl rfl
        | closed => exact absurd hphase hopen.1
      rw [hmark, lastHeard_append, hnow.2]
      rfl
  · -- nothing comes of the message
    have hshut : x.session.open? = false := by simpa using ho
    have hnone : hearing x.session x.session now = [] ∧ closing x.session x.session = [] := by
      refine ⟨if_neg fun hh => ho ?_, if_neg fun hc => hc.1 hc.2⟩
      have hopen : x.session.phase ≠ .closed := by
        rcases hh.2 with hp | ⟨hp, -⟩ <;> rw [hp] <;> exact fun hc => by cases hc
      simp [Session.open?, hopen, hh.1]
    rw [Session.receive_deaf hshut, hnone.1, hnone.2, List.append_nil, List.append_nil]
    exact h

omit [Link L] in
/-- **A close from anywhere.** -/
theorem Inv.close (h : x.Inv terms) (reason : ErrorCode) :
    Inv terms { x with session := (x.session.close reason).1,
                       log := x.log ++ closing x.session (x.session.close reason).1 } := by
  by_cases ho : x.session.phase = .closed
  · have hsame : (x.session.close reason).1 = x.session := by rw [Session.close, if_pos ho]
    rw [hsame, closing_of_closed ho, List.append_nil]
    exact h
  · have ht := Session.talks_close x.session reason
    have hmove : Inv terms { x with
        session := (x.session.close reason).1
        log := x.log ++ ([] ++ closing x.session (x.session.close reason).1) } := by
      refine h.move ho ht.terms ht.claimed (fun m hm => absurd hm List.not_mem_nil) fun hp => ?_
      rw [Session.phase_close] at hp
      cases hp
    exact hmove

/-! ## Checks -/

omit [Link L] in
theorem Inv.unfired (h : x.Inv terms) (hc : x.session.pingClaimed = false) :
    x.log.count .fired = 0 ∧ x.log.countP isSwept = 0 ∧ x.pending = false := by
  have hcount : x.log.count .fired = 0 := by
    refine List.count_eq_zero.2 fun hm => ?_
    rw [h.claimed.2 hm] at hc
    cases hc
  have hsweeps := h.sweeps
  rw [hcount] at hsweeps
  refine ⟨hcount, by omega, ?_⟩
  cases hp : x.pending with
  | false => rfl
  | true => simp [hp] at hsweeps

theorem step_claim (x : Vigil L) (now : Time) :
    x.step (.claim now) =
      if x.session.silent now = true then
        { x with session := { x.session with pingClaimed := true }, pending := true,
                 log := x.log ++ [.fired] }
      else x := by
  by_cases hs : x.session.silent now = true
  · simp only [step, Session.claim, hs, if_true]
  · simp only [step, Session.claim, hs]
    rfl

/-- **A check that fires has its follow-up pending.** -/
theorem Inv.claim (h : x.Inv terms) (now : Time) : Inv terms (x.step (.claim now)) := by
  rw [step_claim]
  split
  · rename_i hs
    -- no check has fired before, so none was followed up
    have hclaimed := (Session.silent_iff.1 hs).2.2.1
    obtain ⟨hcount, hnone, -⟩ := h.unfired hclaimed
    refine ⟨h.terms, fun hp => ?_, by simp, ?_, ?_, fun r hr => ?_, fun hp => ?_,
      fun pre trace post heq => ?_⟩
    · rw [lastHeard_append]
      exact h.activity hp
    · rw [List.count_append, hcount]
      exact Nat.le_refl 1
    · rw [List.count_append, List.countP_append, hcount, hnone]
      rfl
    · exact h.closed r (by simpa using hr)
    · obtain ⟨r, hr⟩ := h.ended hp
      exact ⟨r, List.mem_append_left _ hr⟩
    · rcases split_append heq with ⟨mid, hlog, -⟩ | ⟨mid, hmore, -⟩
      · exact h.swept pre trace mid hlog
      · have hm : Mark.swept trace ∈ [Mark.fired] := by rw [hmore]; simp
        simp at hm
  · exact h

omit [Link L] in
/-- **The follow-up of a check that fired**, whatever its stop did to the fleet: the
session is closed, unless it is by then. -/
theorem Inv.follow (h : x.Inv terms) (hpending : x.pending = true) (f : Fleet L)
    (trace : List Happening) :
    Inv terms {
      session := (x.session.close .pingTimeout).1
      fleet := f
      log := x.log ++ .swept trace :: closing x.session (x.session.close .pingTimeout).1 } := by
  have ht := Session.talks_close x.session .pingTimeout
  have hphase := Session.phase_close x.session .pingTimeout
  have hreason := Session.closeReason_close x.session .pingTimeout
  generalize (x.session.close .pingTimeout).1 = s at ht hphase hreason ⊢
  have hfired : .fired ∉ Mark.swept trace :: closing x.session s := by
    intro hm
    rcases List.mem_cons.1 hm with hm | hm
    · cases hm
    · cases (mem_closing hm).2
  have hclosing : ∀ m ∈ closing x.session s, ¬ isSwept m = true := by
    intro m hm
    rw [(mem_closing hm).2]
    exact Bool.false_ne_true
  refine ⟨ht.terms.trans h.terms, fun hp => ?_, ?_, ?_, ?_, fun r hr => ⟨hphase, ?_⟩, fun _ => ?_,
    fun pre tr post heq => ⟨hphase, fun hno => ?_⟩⟩
  · have hready : s.phase = .ready := hp
    rw [hphase] at hready
    cases hready
  · rw [ht.claimed, h.claimed, List.mem_append]
    exact ⟨Or.inl, fun hm => hm.resolve_right hfired⟩
  · rw [List.count_append, List.count_eq_zero.2 hfired]
    exact h.once
  · have hsweeps := h.sweeps
    rw [if_pos hpending] at hsweeps
    rw [List.count_append, List.count_eq_zero.2 hfired, List.countP_append, List.countP_cons,
      List.countP_eq_zero.2 hclosing]
    exact hsweeps
  · rcases List.mem_append.1 hr with hr | hr
    · obtain ⟨hp, hr⟩ := h.closed r hr
      rw [hreason, if_pos hp, hr]
    · rcases List.mem_cons.1 hr with hr | hr
      · cases hr
      · cases (mem_closing hr).2
        rfl
  · by_cases hp : x.session.phase = .closed
    · obtain ⟨r, hr⟩ := h.ended hp
      exact ⟨r, List.mem_append_left _ hr⟩
    · have hc := closed_mem_closing hp hphase
      exact ⟨_, List.mem_append_right _ (List.mem_cons_of_mem _ hc)⟩
  · -- without a close on record the session was open until now
    rw [hreason]
    rcases split_append heq with ⟨mid, hlog, -⟩ | ⟨mid, -, rfl⟩
    · obtain ⟨hp, hr⟩ := h.swept pre tr mid hlog
      rw [if_pos hp, hr hno]
    · refine if_neg fun hp => ?_
      obtain ⟨r, hr⟩ := h.ended hp
      exact hno r (List.mem_append_left _ hr)

theorem Inv.pingStop (h : x.Inv terms) : Inv terms (x.step .pingStop) := by
  simp only [Vigil.step]
  split
  · rename_i hpending
    exact h.follow hpending _ _
  · exact h

/-- A check is a claim and its follow-up. -/
theorem Inv.step_check (h : x.Inv terms) (now : Time) :
    x.step (.check now) =
      if x.session.silent now = true then (x.step (.claim now)).step .pingStop else x := by
  by_cases hs : x.session.silent now = true
  · have hpending := (h.unfired (Session.silent_iff.1 hs).2.2.1).2.2
    rw [if_pos hs, step_claim, if_pos hs]
    simp only [step, Session.checkPing, Session.claim, hs, if_true, hpending,
      List.append_assoc, List.singleton_append]
    rfl
  · rw [if_neg hs]
    simp only [step, Session.checkPing, Session.claim, hs]
    rfl

theorem Inv.check (h : x.Inv terms) (now : Time) : Inv terms (x.step (.check now)) := by
  rw [h.step_check]
  split
  · exact (h.claim now).pingStop
  · exact h

/-! ## Whole runs -/

/-- **Every call keeps the invariant.** -/
theorem Inv.step (h : x.Inv terms) (c : Call L) : Inv terms (x.step c) := by
  cases c with
  | start emitter => exact h.still (Session.still_start x.session emitter) x.fleet
  | join => exact h.still (Session.still_join x.session none) x.fleet
  | receive m now => exact h.receive m now
  | work =>
    simp only [Vigil.step]
    split
    · exact h
    · rename_i turn hturn
      exact h.still (Session.still_workStep hturn) turn.fleet
  | close reason => exact h.close reason
  | claim now => exact h.claim now
  | pingStop => exact h.pingStop
  | check now => exact h.check now
  | fleet c => exact h.still ⟨rfl, rfl, rfl, rfl, rfl⟩ (x.fleet.after c)

theorem Inv.run_calls (h : x.Inv terms) (calls : List (Call L)) : Inv terms (x.run calls) := by
  induction calls generalizing x with
  | nil => exact h
  | cons c calls ih => exact ih (h.step c)

/-- The stop of the scope in the terms: of all devices, or of those that the session
was asked to command. -/
def scopeStop (terms : Terms) (x : Vigil L) : Outcome L StopReport :=
  match terms.stopScope with
  | .global => x.fleet.stopAll
  | .session => x.fleet.stopDevices (x.session.commanded.map UInt32.toNat)

/-- **The watch over silence is exact.** -/
structure Exact (terms : Terms) (x : Vigil L) : Prop where
  /-- A check fires if and only if the session is ready and there is a limit, no check
  has fired yet, and the whole milliseconds since the handshake or the last message
  are more than the limit. -/
  fires : ∀ now, (x.session.checkPing x.fleet now).1 = true ↔
    x.session.phase = .ready ∧ terms.maxPingTimeMs ≠ 0 ∧ .fired ∉ x.log ∧
      ∃ t, lastHeard x.log = some t ∧ (terms.maxPingTimeMs.toNat : Int) < (now - t).tdiv 1000
  /-- The first half of a check fires when the whole of it would. -/
  claims : ∀ now, (x.session.claim now).1 = (x.session.checkPing x.fleet now).1
  once : x.log.count .fired ≤ 1
  /-- A check that fires makes one stop of the scope, and closes the session. -/
  checked : ∀ now, (x.session.checkPing x.fleet now).1 = true →
    (x.step (.check now)).fleet = (x.scopeStop terms).fleet ∧
      (x.step (.check now)).log = x.log ++ [.fired, .swept (x.scopeStop terms).trace,
        .closed .pingTimeout]
  /-- So does the second half of a check, which may find the session closed. -/
  followed : x.pending = true →
    (x.step .pingStop).fleet = (x.scopeStop terms).fleet ∧
      (x.step .pingStop).log = x.log ++ .swept (x.scopeStop terms).trace ::
        if x.session.phase = .closed then [] else [.closed .pingTimeout]
  /-- No other stops are made: as many as checks fired, but for the one that is pending. -/
  sweeps : x.log.countP isSwept + (if x.pending then 1 else 0) = x.log.count .fired
  /-- After the stop the session is closed, because of the silence unless it was closed
  for another reason before. -/
  ends : ∀ pre trace post, x.log = pre ++ .swept trace :: post →
    x.session.phase = .closed ∧ (∀ r, .closed r ∈ pre → x.session.closeReason = r) ∧
      ((∀ r, .closed r ∉ pre) → x.session.closeReason = .pingTimeout)
  /-- Every message to a ready session starts the interval anew. -/
  restarts : x.session.phase = .ready → .fired ∉ x.log → ∀ m now,
    (x.step (.receive m now)).session.lastActivity = now ∧
      lastHeard (x.step (.receive m now)).log = some now
  /-- From the moment a check fires, messages change nothing. -/
  deaf : .fired ∈ x.log → ∀ m now entries,
    x.session.receive m now entries = { alive := false, session := x.session }

/-- **The second half of a check makes one stop of the scope.** -/
theorem Inv.followed (h : x.Inv terms) (hpending : x.pending = true) :
    (x.step .pingStop).fleet = (x.scopeStop terms).fleet ∧
      (x.step .pingStop).log = x.log ++ .swept (x.scopeStop terms).trace ::
        if x.session.phase = .closed then [] else [.closed .pingTimeout] := by
  have hstop : x.session.safetyStop x.fleet = x.scopeStop terms := by
    refine (Session.safetyStop_eq x.session x.fleet).trans ?_
    rw [h.terms]
    unfold scopeStop
    cases terms.stopScope <;> rfl
  simp only [Vigil.step]
  rw [if_pos hpending, ← hstop]
  refine ⟨rfl, ?_⟩
  rw [← closing_close]
  rfl

/-- So does a whole check, and the session was not closed before. -/
theorem Inv.checked (h : x.Inv terms) {now : Time} (hs : x.session.silent now = true) :
    (x.step (.check now)).fleet = (x.scopeStop terms).fleet ∧
      (x.step (.check now)).log = x.log ++ [.fired, .swept (x.scopeStop terms).trace,
        .closed .pingTimeout] := by
  have hclaim := h.claim now
  have hphase : x.session.phase ≠ .closed := by
    rw [(Session.silent_iff.1 hs).1]
    exact fun hc => by cases hc
  rw [h.step_check, if_pos hs]
  rw [step_claim, if_pos hs] at hclaim ⊢
  obtain ⟨hfleet, hlog⟩ := hclaim.followed rfl
  refine ⟨hfleet, hlog.trans ?_⟩
  rw [if_neg hphase, List.append_assoc]
  rfl

/-- **Every message to a ready session starts the interval anew.** -/
theorem Inv.restarts (h : x.Inv terms) (hp : x.session.phase = .ready) (hno : .fired ∉ x.log)
    (m : Message) (now : Time) :
    (x.step (.receive m now)).session.lastActivity = now ∧
      lastHeard (x.step (.receive m now)).log = some now := by
  have hclaimed : x.session.pingClaimed = false := by
    simpa using mt h.claimed.1 hno
  have hopen : x.session.open? = true := by simp [Session.open?, hp, hclaimed]
  simp only [Vigil.step]
  constructor
  · rw [Session.receive, if_pos hopen, hp]
    exact Session.lastActivity_serve x.session m now x.fleet.entries
  · rw [lastHeard_append, lastHeard_closing, lastHeard_append, hearing,
      if_pos ⟨hclaimed, Or.inl hp⟩]
    rfl

/-- **What the invariant comes to.** -/
theorem Inv.exact (h : x.Inv terms) : Exact terms x where
  fires now := by
    rw [Session.checkPing_fst, Session.silent_iff, h.terms, Session.silentMs]
    constructor
    · rintro ⟨hp, hlimit, hclaimed, hlong⟩
      have hno : .fired ∉ x.log := fun hm => by
        rw [h.claimed.2 hm] at hclaimed
        cases hclaimed
      exact ⟨hp, hlimit, hno, _, h.activity hp, hlong⟩
    · rintro ⟨hp, hlimit, hno, t, ht, hlong⟩
      rw [h.activity hp] at ht
      cases ht
      exact ⟨hp, hlimit, by simpa using mt h.claimed.1 hno, hlong⟩
  claims now := by rw [Session.claim_fst, Session.checkPing_fst]
  once := h.once
  checked now hfires := by
    rw [Session.checkPing_fst] at hfires
    exact h.checked hfires
  followed := h.followed
  sweeps := h.sweeps
  ends pre trace post heq := by
    obtain ⟨hp, hreason⟩ := h.swept pre trace post heq
    refine ⟨hp, fun r hr => (h.closed r ?_).2, hreason⟩
    rw [heq]
    exact List.mem_append_left _ hr
  restarts := h.restarts
  deaf hm m now entries :=
    Session.receive_deaf (Session.open?_eq_false (Or.inr (h.claimed.2 hm))) m now entries

/-- **The watch over silence is exact in every run** of a session, with any fleet and
any links. -/
theorem exact_of_run (name : String) (terms : Terms) (t : Time) (f : Fleet L)
    (calls : List (Call L)) : Exact terms ((begin name terms t f).run calls) :=
  ((inv_begin name terms t f).run_calls calls).exact

/-- A client commands a device, is heard of once more in time, and is then silent for
too long. It is heard of again and the session is closed before the follow-up. -/
def lapsed : Vigil SimulatedLink :=
  (begin "client" { stopScope := .session } 0
    ((({ rulebook := .builtin } : Fleet SimulatedLink).after (.addLink { device := {} })).after
      (.register ⟨"sim", "A", "LVS-Nora"⟩ [] (some 0)))).run
    [.start none, .receive ⟨1, .handshakeRequest "c" 1 1⟩ 0,
      .receive ⟨2, .deviceCommand 0 (.actuate .vibrate [{ value := .one }])⟩ 10,
      .check 1000009, .receive ⟨0, .ping⟩ 1000010, .check 2001009, .claim 2001010,
      .receive ⟨0, .ping⟩ 2001011, .check 9000000, .close .ok, .pingStop]

/-- One check fires, and one stop follows it up. -/
theorem exact_of_run_lapsed :
    lapsed.log.filter (!isSwept ·) =
        [.heard 0, .heard 10, .heard 1000010, .fired, .closed .ok] ∧
      lapsed.log.countP isSwept = 1 ∧ lapsed.session.phase = .closed ∧
        ∀ pre trace post, lapsed.log = pre ++ .swept trace :: post →
          .closed .ok ∈ pre → lapsed.session.closeReason = .ok :=
  ⟨by decide +kernel, by decide +kernel, by decide +kernel,
    fun pre trace post heq => ((exact_of_run _ _ _ _ _).ends pre trace post heq).2.1 .ok⟩

end Vigil

end Haptics
