import Haptics.Session.Worker
/-!
# Iterations of the worker

One task of a worker in one go. `Session.iterate` takes the oldest task from the
queue, runs it if the session still wants it, and replies; `works_iterate` says
that this is what the steps of the worker come to, if nobody comes between them.
-/

namespace Haptics

variable {L : Type} [Link L]

/-- Runs a task on the fleet and gives what its client is told. -/
def Task.run (t : Task) (f : Fleet L) : Outcome L Payload :=
  match t with
  | .command device c =>
    let out := f.dispatch device.toNat c
    { answer := c.result device out.answer, fleet := out.fleet, trace := out.trace }
  | .stopAll =>
    let out := f.stopAll
    { answer := out.answer.result, fleet := out.fleet, trace := out.trace }

/-- What fits a task as its answer: an error, or what was asked for, of the device that it
was asked of. -/
def Task.Answers (t : Task) (p : Payload) : Prop :=
  (∃ code text, p = .error code text) ∨
    match t with
    | .command device (.readSensor _) => ∃ readings, p = .sensorReading device readings
    | .command device _ => p = .commandResult device
    | .stopAll => p = .ok

/-- **A task is answered by what fits it.** -/
theorem Task.answers_run (t : Task) (f : Fleet L) : t.Answers (t.run f).answer := by
  cases t with
  | command device c =>
    show (Task.command device c).Answers (c.result device (f.dispatch device.toNat c).answer)
    cases (f.dispatch device.toNat c).answer with
    | error e => exact Or.inl ⟨e.code, e.message, rfl⟩
    | ok readings =>
      right
      cases c with
      | readSensor index => exact ⟨readings, rfl⟩
      | _ => rfl
  | stopAll =>
    show Task.stopAll.Answers f.stopAll.answer.result
    unfold StopReport.result
    split
    · exact Or.inr rfl
    · exact Or.inl ⟨_, _, rfl⟩

namespace Session

/-- One task of the worker in one go: the work that was run, if any, and what it leaves
behind. -/
def iterate (s : Session) (f : Fleet L) : Option Work × Turn L :=
  if s.running then
    match s.work with
    | [] => (none, { session := s, fleet := f })
    | w :: rest =>
      let s := { s with work := rest }
      if s.phase = .ready ∧ s.pingClaimed = false then
        let out := w.task.run f
        let (s, outputs) := s.reply w.id out.answer
        (some w, { session := s, fleet := out.fleet, outputs, trace := out.trace })
      else (none, { session := s, fleet := f })
  else (none, { session := s, fleet := f })

/-! ## Steps in a row -/

/-- One turn, and then another. -/
def Turn.andThen (first later : Turn L) : Turn L :=
  { later with outputs := first.outputs ++ later.outputs, trace := first.trace ++ later.trace }

/-- Some steps of a worker in a row, with nobody coming between them. -/
inductive Works : Session → Fleet L → Turn L → Prop
  | rest (s : Session) (f : Fleet L) : Works s f { session := s, fleet := f }
  | step {s : Session} {f : Fleet L} {turn later : Turn L} (h : s.workStep f = some turn)
    (hlater : Works turn.session turn.fleet later) : Works s f (turn.andThen later)

variable {s s' : Session} {f : Fleet L} {w : Work}

/-- A step that leaves the fleet alone and moves the worker to another stage. -/
theorem Works.move (s' : Session) (stage : Stage) {later : Turn L}
    (h : s.workStep f = some (s'.atStage f stage))
    (hlater : Works { s' with stage } f later) : Works s f later := by
  have hall : Works s f ((s'.atStage f stage).andThen later) := Works.step h hlater
  exact hall

/-- A reply takes no notice of the stage of the worker. -/
theorem reply_atStage (s : Session) (stage : Stage) (id : UInt32) (p : Payload) :
    ({ s with stage } : Session).reply id p =
      ({ (s.reply id p).1 with stage }, (s.reply id p).2) := by
  unfold reply
  split <;> rfl

/-- The reply is the last step. -/
theorem works_settled (s : Session) (f : Fleet L) (w : Work) (result : Payload) :
    Works { s with stage := .settled w result } f
      { session := { (s.reply w.id result).1 with stage := .idle }, fleet := f
        outputs := (s.reply w.id result).2 } := by
  have hstep : ({ s with stage := .settled w result } : Session).workStep f = some
      { session := { (s.reply w.id result).1 with stage := .idle }, fleet := f
        outputs := (s.reply w.id result).2 } := by
    simp only [workStep, reply_atStage]
  have hall := Works.step hstep (Works.rest _ _)
  simp only [Turn.andThen, List.append_nil] at hall
  exact hall

/-- A task that was run is replied to, unless the silence of the client was claimed. -/
theorem works_executed {s : Session} (hunclaimed : s.pingClaimed = false) (f : Fleet L)
    (w : Work) (result : Payload) :
    Works { s with stage := .executed w result } f
      { session := { (s.reply w.id result).1 with stage := .idle }, fleet := f
        outputs := (s.reply w.id result).2 } := by
  refine Works.move s (.settled w result) ?_ (works_settled s f w result)
  simp only [workStep]
  exact if_neg (by simp [hunclaimed])

/-- A sweep of the worker does what a sweep does. -/
theorem works_sweeping {report : StopReport} {targets : List Nat} {later : Turn L}
    (hstage : s.stage = .sweeping w { report, targets })
    (hlater : Works { s with stage := .executed w (f.sweep report targets).answer.result }
      (f.sweep report targets).fleet later) :
    Works s f { later with trace := (f.sweep report targets).trace ++ later.trace } := by
  induction targets generalizing s f report with
  | nil =>
    refine Works.move s (.executed w report.result) ?_ hlater
    simp only [workStep, hstage]
  | cons i rest ih =>
    -- one target is stopped, and the others are left to the steps that follow
    have hstep : s.workStep f = some (s.sweepOn f { report, targets := i :: rest } i rest
        (.sweeping w)) := by
      simp only [workStep, hstage]
    have hrest := ih (s := (s.sweepOn f { report, targets := i :: rest } i rest
      (.sweeping w)).session) rfl hlater
    have hall := Works.step hstep hrest
    simp only [Turn.andThen, sweepOn, List.nil_append, ← List.append_assoc] at hall
    exact hall

/-- A task that is still wanted is run and replied to. -/
theorem works_cleared {s : Session} (hunclaimed : s.pingClaimed = false) (f : Fleet L)
    (w : Work) :
    Works { s with stage := .cleared w } f
      { session := { (s.reply w.id (w.task.run f).answer).1 with stage := .idle }
        fleet := (w.task.run f).fleet
        outputs := (s.reply w.id (w.task.run f).answer).2
        trace := (w.task.run f).trace } := by
  cases htask : w.task with
  | command device c =>
    have hexecuted := works_executed hunclaimed (f.dispatch device.toNat c).fleet w
      (c.result device (f.dispatch device.toNat c).answer)
    have hstep : ({ s with stage := .cleared w } : Session).workStep f = some
        { session := { s with
            stage := .executed w (c.result device (f.dispatch device.toNat c).answer) }
          fleet := (f.dispatch device.toNat c).fleet
          trace := (f.dispatch device.toNat c).trace } := by
      simp only [workStep, htask]
    have hall := Works.step hstep hexecuted
    simp only [Turn.andThen, List.nil_append, List.append_nil] at hall
    exact hall
  | stopAll =>
    have hexecuted := works_executed hunclaimed f.stopAll.fleet w f.stopAll.answer.result
    have hswept := works_sweeping (s := { s with stage := .sweeping w { targets := _ } }) rfl
      hexecuted
    rw [List.append_nil] at hswept
    refine Works.move s (.sweeping w { targets := f.connectedIndices }) ?_ hswept
    simp only [workStep, htask]
    rfl

/-- **An iteration is what the steps of an idle worker come to**, if nobody comes between
them. -/
theorem works_iterate (hidle : s.stage = .idle) (f : Fleet L) : Works s f (s.iterate f).2 := by
  unfold iterate
  split
  · rename_i hrunning
    split
    · exact Works.rest s f
    · rename_i w rest hwork
      have htake : s.workStep f = some (({ s with work := rest } : Session).atStage f
          (.taken w)) := by
        simp only [workStep, hidle, hrunning, if_true, hwork]
      refine Works.move _ _ htake ?_
      dsimp only
      split
      · rename_i hwanted
        -- the check passes, and the task runs its course
        have hcleared := works_cleared (s := { s with work := rest }) hwanted.2 f w
        have hsame : ({ (({ s with work := rest } : Session).reply w.id (w.task.run f).answer).1
            with stage := .idle } : Session) =
            (({ s with work := rest } : Session).reply w.id (w.task.run f).answer).1 := by
          unfold reply
          split <;> simp only [hidle]
        rw [hsame] at hcleared
        refine Works.move { s with work := rest } (.cleared w) ?_ hcleared
        simp only [workStep]
        exact if_pos hwanted
      · rename_i hunwanted
        -- the task is dropped, and the worker is idle as before
        have hsame : ({ s with work := rest, stage := .idle } : Session) =
            { s with work := rest } := by
          rw [← hidle]
        have hdropped : Works { s with work := rest, stage := .idle } f
            { session := { s with work := rest }, fleet := f } := by
          rw [hsame]
          exact Works.rest _ f
        refine Works.move { s with work := rest } .idle ?_ hdropped
        simp only [workStep]
        exact if_neg hunwanted
  · exact Works.rest s f

end Session

end Haptics
