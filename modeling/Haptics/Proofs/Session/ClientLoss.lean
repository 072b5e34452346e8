import Haptics.Proofs.Session.Course
import Haptics.Proofs.Session.LastStop
import Haptics.Proofs.Session.Silence
/-!
# Clients that are lost

A client is lost when it falls silent, and when its connection ends. In the first
case the watchdog stops the devices and then closes the session. In the second the
session is closed, and that is all: `Left` is kept by whatever happens next, and no
step of such a session or of its watchdog touches a device. So a device that was
running when the connection ended runs on, until somebody else stops it.
-/

namespace Haptics

open Deed

/-! ## Closed sessions -/

/-- A message that is answered after the close leaves the session closed and at rest. -/
theorem Session.serve_closed {s : Session} (h : s.phase = .closed) (m : Message) (now : Time)
    (entries : List DeviceEntry) :
    (s.serve m now entries).session.phase = .closed ∧
      (s.serve m now entries).session.running = s.running := by
  have hviolate (v : Violation) :
      (({ s with lastActivity := now } : Session).violate m.id v).session =
        { s with lastActivity := now } := by
    have hclosed : ({ s with lastActivity := now } : Session).phase = .closed := h
    unfold violate
    rw [close_closed hclosed]
  unfold serve
  dsimp only
  split
  · exact ⟨h, rfl⟩
  · exact ⟨h, rfl⟩
  · rw [hviolate]
    exact ⟨h, rfl⟩
  · split
    · rw [hviolate]
      exact ⟨h, rfl⟩
    · rename_i r _
      split
      · rw [hviolate]
        exact ⟨h, rfl⟩
      · split
        · rw [hviolate]
          exact ⟨h, rfl⟩
        · cases r with
          | deviceList =>
            -- the reply is dropped, and its id stays
            simp only [accept, reply, h, true_or, if_true, and_self]
          | task t => exact ⟨h, rfl⟩

/-- A command to a device that was never stopped is not followed by a stop. -/
theorem Deed.Owes.of_mem {log : List Deed} {i : Nat} {trace : List Happening}
    (h : commanded i trace ∈ log) (hno : ∀ trace', stopped i trace' ∉ log) : Owes log i := by
  obtain ⟨pre, post, rfl⟩ := List.append_of_mem h
  exact ⟨pre, trace, post, rfl, fun trace' hmem =>
    hno trace' (List.mem_append_right _ (List.mem_cons_of_mem _ hmem))⟩

namespace Scene

variable {L : Type} [Link L] {x : Scene L}

/-- **Every command to a device that is still connected was followed by a stop of it.** -/
def Quiet (x : Scene L) : Prop := ∀ i, x.fleet.connected i = true → ¬ Owes x.log i

/-! ## Sessions that were left -/

/-- A session that was closed while its worker was idle, and before anyone had claimed
the silence of its client. -/
structure Left (x : Scene L) : Prop where
  closed : x.session.phase = .closed
  halted : x.session.running = false
  unclaimed : x.session.pingClaimed = false
  idle : x.session.stage = .idle
  watching : x.watch = .watching
  heard : ∀ call ∈ x.heard, call.2 = .ready

/-- **Nobody looks after a session that was left**: the log stays as it is, and the
devices are in the hands of others. -/
theorem Left.step (h : x.Left) (m : Move L) :
    (x.step m).Left ∧ (x.step m).log = x.log ∧ (x.step m).happened = x.happened ∧
      (x.step m).fleet = m.call?.toList.foldl Fleet.after x.fleet := by
  -- most steps find nothing to do
  have hstay (hsame : x.step m = x) (hcall : m.call? = none) :
      (x.step m).Left ∧ (x.step m).log = x.log ∧ (x.step m).happened = x.happened ∧
        (x.step m).fleet = m.call?.toList.foldl Fleet.after x.fleet := by
    rw [hsame, hcall]
    exact ⟨h, rfl, rfl, rfl⟩
  cases m with
  | start emitter =>
    have hsame : x.session.start emitter = (x.session, emitter) := if_pos (Or.inl h.closed)
    exact hstay (by simp only [Scene.step, hsame]) rfl
  | join => exact ⟨⟨h.closed, rfl, h.unclaimed, h.idle, h.watching, h.heard⟩, rfl, rfl, rfl⟩
  | hear m =>
    have hshut : x.session.open? = false := Session.open?_eq_false (Or.inl h.closed)
    exact hstay (by simp only [Scene.step, hshut, Bool.false_eq_true, if_false]) rfl
  | answer call now =>
    cases hcall : x.heard[call]? with
    | none => exact hstay (by simp only [Scene.step, hcall]) rfl
    | some heard =>
      -- the call found the session ready, and answers although it is closed now
      obtain ⟨m, phase⟩ := heard
      have hphase : phase = .ready := h.heard _ (List.mem_of_getElem? hcall)
      have htalks := x.session.talks_answer .ready m now x.fleet.entries
      have hserve := Session.serve_closed h.closed m now x.fleet.entries
      simp only [Scene.step, hcall, hphase]
      refine ⟨⟨hserve.1, hserve.2.trans h.halted, htalks.claimed.trans h.unclaimed,
        htalks.stage.trans h.idle, h.watching, fun c hc => ?_⟩, trivial, trivial, rfl⟩
      exact h.heard c (List.mem_of_mem_eraseIdx hc)
  | close reason =>
    have hsame := Session.close_closed h.closed reason
    exact hstay (by simp only [Scene.step, hsame]) rfl
  | work =>
    have hnone : x.session.workStep x.fleet = none := by
      simp only [Session.workStep, h.idle, h.halted, Bool.false_eq_true, if_false]
    exact hstay (by simp only [Scene.step, hnone]) rfl
  | claim now =>
    have hsame : x.session.claim now = (false, x.session) := by
      simp [Session.claim, Session.silent, h.closed]
    exact hstay (by simp only [Scene.step, hsame]) rfl
  | follow => exact hstay (by simp only [Scene.step, Scene.follow, h.watching]) rfl
  | call c =>
    exact ⟨⟨h.closed, h.halted, h.unclaimed, h.idle, h.watching, h.heard⟩, rfl, rfl, rfl⟩

theorem Left.run (h : x.Left) (moves : List (Move L)) :
    (x.run moves).Left ∧ (x.run moves).log = x.log ∧ (x.run moves).happened = x.happened ∧
      (x.run moves).fleet = (moves.filterMap Move.call?).foldl Fleet.after x.fleet := by
  induction moves generalizing x with
  | nil => exact ⟨h, rfl, rfl, rfl⟩
  | cons m moves ih =>
    obtain ⟨hleft, hlog, hhappened, hfleet⟩ := h.step m
    obtain ⟨hleft', hlog', hhappened', hfleet'⟩ := ih hleft
    refine ⟨hleft', hlog'.trans hlog, hhappened'.trans hhappened, hfleet'.trans ?_⟩
    rw [hfleet, List.filterMap_cons]
    cases m.call? <;> rfl

/-- A connection that ends leaves the session. -/
theorem Inv.left_close (h : x.Inv) (hphase : x.session.phase ≠ .closed)
    (hclaimed : x.session.pingClaimed = false) (hidle : x.session.stage = .idle)
    (hheard : ∀ call ∈ x.heard, call.2 = .ready) (reason : ErrorCode) :
    (x.step (.close reason)).Left := by
  have hwatch : x.watch = .watching := by
    refine Decidable.by_contra fun hne => ?_
    rw [h.claimed_iff.2 hne] at hclaimed
    cases hclaimed
  simp only [Scene.step, Session.close_eq hphase]
  exact ⟨rfl, rfl, hclaimed, hidle, hwatch, hheard⟩

/-! ## Losses -/

/-- **What becomes of the devices of a client that is lost**, after some moves. -/
structure Losses (start : Scene L) (moves : List (Move L)) : Prop where
  /-- After a claimed silence they are all stopped. -/
  silent : (start.run moves).watch = .done → (start.run moves).session.stage = .idle →
    (start.run moves).Quiet
  /-- What the session and its watchdog made happen is on record, as a command of a task or as
  a stop. -/
  accounted : (start.run moves).Accounted
  /-- A stop of a device that is still connected handed all its stop writes to its link. -/
  handed : start.fleet.Sound → start.Lawful moves → (start.run moves).Handed
  /-- After the end of a connection the session and its watchdog do nothing more. Whatever
  was commanded and not stopped before is not stopped by them. -/
  unplugged : (start.run moves).session.phase = .ready →
    (start.run moves).session.pingClaimed = false → (start.run moves).session.stage = .idle →
    (∀ call ∈ (start.run moves).heard, call.2 = .ready) → ∀ reason more,
      (((start.run moves).step (.close reason)).run more).session.phase = .closed ∧
        (((start.run moves).step (.close reason)).run more).log = (start.run moves).log ∧
        (((start.run moves).step (.close reason)).run more).happened =
          (start.run moves).happened ∧
        (((start.run moves).step (.close reason)).run more).fleet =
          (more.filterMap Move.call?).foldl Fleet.after (start.run moves).fleet

theorem Inv.unplugged (h : x.Inv) (hphase : x.session.phase = .ready)
    (hclaimed : x.session.pingClaimed = false) (hidle : x.session.stage = .idle)
    (hheard : ∀ call ∈ x.heard, call.2 = .ready) (reason : ErrorCode) (more : List (Move L)) :
    ((x.step (.close reason)).run more).session.phase = .closed ∧
      ((x.step (.close reason)).run more).log = x.log ∧
      ((x.step (.close reason)).run more).happened = x.happened ∧
      ((x.step (.close reason)).run more).fleet =
        (more.filterMap Move.call?).foldl Fleet.after x.fleet := by
  have hopen := Session.ne_closed_of_ready hphase
  obtain ⟨hleft, hlog, hhappened, hfleet⟩ :=
    (h.left_close hopen hclaimed hidle hheard reason).run more
  exact ⟨hleft.closed, hlog, hhappened, hfleet⟩

/-- **Only a silent client leaves quiet devices behind**, in every run and with any fleet
and links. -/
theorem losses_of_run (name : String) (terms : Terms) (t : Time) (f : Fleet L)
    (moves : List (Move L)) : Losses (begin name terms t f) moves := by
  have hinv := (inv_begin name terms t f).run_moves moves
  have hnone : (begin name terms t f).Handed := fun _ _ hmem => absurd hmem List.not_mem_nil
  exact ⟨fun hdone hidle _ hc => hinv.settled hdone hidle hc,
    (accounted_of_fresh rfl rfl).run moves, fun hs hl => hnone.run hs hl, hinv.unplugged⟩

/-- A device is told to vibrate, and then the connection ends. -/
def unplugged (scope : StopScope) : Scene SimulatedLink :=
  (begin "client" { stopScope := scope } 0 lone).run
    [.start none, .hear ⟨1, .handshakeRequest "c" 1 1⟩, .answer 0 0,
      .hear ⟨2, .deviceCommand 0 vibrate⟩, .answer 0 10, .work, .work, .work, .work, .work,
      .close .cancelled]

/-- It vibrates on, whatever the scope of the stops: the last that its link has accepted is
the write of the command. -/
theorem unplugged_runs_on :
    ((unplugged .global).session.phase = .closed ∧ ¬ (unplugged .global).Quiet ∧
        (unplugged .global).fleet.links.map SimulatedLink.writes = [[strong]]) ∧
      (unplugged .session).session.phase = .closed ∧ ¬ (unplugged .session).Quiet ∧
        (unplugged .session).fleet.links.map SimulatedLink.writes = [[strong]] := by
  have hlog (scope : StopScope) : (unplugged scope).log =
      [.checked ⟨2, .command 0 vibrate⟩ true, .ran ⟨2, .command 0 vibrate⟩,
        .commanded 0 [landed strong]] := by
    cases scope <;> decide +kernel
  have hrunning (scope : StopScope) : (unplugged scope).fleet.connected 0 = true := by
    cases scope <;> decide +kernel
  -- no stop is on record, so the command is not followed by one
  have howes (scope : StopScope) : Deed.Owes (unplugged scope).log 0 := by
    have hmem : .commanded 0 [landed strong] ∈ (unplugged scope).log := by
      rw [hlog]
      simp
    refine .of_mem hmem fun trace' => ?_
    rw [hlog]
    simp
  refine ⟨⟨by decide +kernel, fun h => ?_, by decide +kernel⟩, by decide +kernel, fun h => ?_,
    by decide +kernel⟩
  · exact h 0 (hrunning .global) (howes .global)
  · exact h 0 (hrunning .session) (howes .session)

end Scene

end Haptics
