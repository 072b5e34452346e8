import Haptics.Proofs.Fleet.Call
import Haptics.Proofs.Session.Talk
import Haptics.Session.Worker
/-!
# Scenes

A session with its worker, its watchdog, the calls that bring it messages and
whatever else happens to the fleet, in any order of their steps. The watchdog
claims the silence of the client, stops the devices one by one and closes the
session; the worker may be anywhere in its task meanwhile. `Scene` is the state
of all of them, with a log of their deeds and with all that their steps made
happen. The log leaves nothing of it out (`Scene.recounts_step`). What is said of
deeds is said of logs that grow: `Owes`, `Passed`, `Gated` and `Tasked`, each with
what more deeds make of it.
-/

namespace Haptics

namespace Fleet

variable {L : Type} [Link L]

/-- A sweep counts an attempt for every connected device, and for no other. -/
theorem attempted_stopOne (f : Fleet L) (r : StopReport) (i : Nat) :
    (f.stopOne r i).answer.attempted = r.attempted + if f.connected i then 1 else 0 := by
  unfold stopOne connected
  split
  · rename_i hd
    simp [hd]
  · rename_i d hd
    rw [hd]
    cases hc : d.connected with
    | false => simp [hc]
    | true =>
      simp only [Bool.not_true, Bool.false_eq_true, if_false, Option.any_some, hc, if_true]
      split
      · rfl
      · split <;> rfl

end Fleet

/-! ## Deeds -/

/-- An entry of a log that was continued is an old one or a new one. -/
theorem split_append {α : Type} {log more pre post : List α} {d : α}
    (h : log ++ more = pre ++ d :: post) :
    (∃ mid, log = pre ++ d :: mid ∧ post = mid ++ more) ∨
      ∃ mid, more = mid ++ d :: post ∧ pre = log ++ mid := by
  rcases List.append_eq_append_iff.1 h with ⟨mid, hpre, hmore⟩ | ⟨mid, hlog, hpost⟩
  · -- the log ends before the entry
    exact Or.inr ⟨mid, hmore, hpre⟩
  · cases mid with
    | nil => exact Or.inr ⟨[], hpost.symm, by simpa using hlog.symm⟩
    | cons d' mid =>
      rw [List.cons_append, List.cons.injEq] at hpost
      obtain ⟨rfl, hpost⟩ := hpost
      exact Or.inl ⟨mid, hlog, hpost⟩

/-- What is put on record of a session and its watchdog. With a command and with a
stop goes all that happened on the links and in the fleet meanwhile. -/
inductive Deed
  /-- The worker checked whether a task is still wanted. -/
  | checked (w : Work) (wanted : Bool)
  /-- The worker ran a task. -/
  | ran (w : Work)
  /-- The worker ran a command on a connected device. -/
  | commanded (device : Nat) (trace : List Happening)
  /-- A safety stop or a sweep of the worker attempted to stop a device. -/
  | stopped (device : Nat) (trace : List Happening)
  /-- The watchdog claimed the silence of the client. -/
  | claimed
deriving DecidableEq

namespace Deed

variable {log deeds : List Deed} {i : Nat} {w : Work}

/-- What happened with a deed. -/
def trace : Deed → List Happening
  | commanded _ trace | stopped _ trace => trace
  | checked .. | ran _ | claimed => []

/-- A command to a device is not followed by a stop of it. -/
def Owes (log : List Deed) (i : Nat) : Prop :=
  ∃ pre trace post, log = pre ++ commanded i trace :: post ∧ ∀ trace', stopped i trace' ∉ post

theorem Owes.mem (h : Owes log i) : ∃ trace, commanded i trace ∈ log := by
  obtain ⟨pre, trace, post, rfl, -⟩ := h
  exact ⟨trace, by simp⟩

/-- What is owed after more deeds was commanded by them, or was owed before and
not stopped by them. -/
theorem owes_append (h : Owes (log ++ deeds) i) :
    (∃ trace, commanded i trace ∈ deeds) ∨ Owes log i ∧ ∀ trace, stopped i trace ∉ deeds := by
  obtain ⟨pre, trace, post, heq, hpost⟩ := h
  rcases split_append heq with ⟨mid, hlog, rfl⟩ | ⟨mid, rfl, -⟩
  · refine Or.inr ⟨⟨pre, trace, mid, hlog, fun trace' hmem => ?_⟩, fun trace' hmem => ?_⟩
    · exact hpost trace' (List.mem_append_left _ hmem)
    · exact hpost trace' (List.mem_append_right _ hmem)
  · exact Or.inl ⟨trace, by simp⟩

/-- The last check of the worker was of this task. It was wanted, and the
silence of the client was not claimed yet. -/
def Passed (log : List Deed) (w : Work) : Prop :=
  ∃ pre post, log = pre ++ checked w true :: post ∧ claimed ∉ pre ∧
    ∀ v wanted, checked v wanted ∉ post

/-- Deeds other than checks change nothing of that. -/
theorem Passed.append (h : Passed log w) (hno : ∀ v wanted, checked v wanted ∉ deeds) :
    Passed (log ++ deeds) w := by
  obtain ⟨pre, post, rfl, hclaimed, hpost⟩ := h
  refine ⟨pre, post ++ deeds, by simp, hclaimed, fun v wanted hmem => ?_⟩
  rcases List.mem_append.1 hmem with hmem | hmem
  · exact hpost v wanted hmem
  · exact hno v wanted hmem

/-- **Every task that was run had passed its check before the claim.** -/
def Gated (log : List Deed) : Prop :=
  ∀ pre w post, log = pre ++ ran w :: post → Passed pre w

theorem Gated.append (h : Gated log)
    (hran : ∀ pre w post, deeds = pre ++ ran w :: post → Passed (log ++ pre) w) :
    Gated (log ++ deeds) := by
  intro pre w post heq
  rcases split_append heq with ⟨mid, hlog, -⟩ | ⟨mid, hdeeds, rfl⟩
  · exact h pre w mid hlog
  · exact hran mid w post hdeeds

theorem Gated.append_of_not_mem (h : Gated log) (hno : ∀ w, ran w ∉ deeds) :
    Gated (log ++ deeds) := by
  refine h.append fun pre w post hdeeds => absurd ?_ (hno w)
  rw [hdeeds]
  simp

/-- **Every command was sent for the task that was run right before**, to the device that it
is for. -/
def Tasked (log : List Deed) : Prop :=
  ∀ pre i trace post, log = pre ++ commanded i trace :: post →
    ∃ before w device c, pre = before ++ [ran w] ∧ w.task = .command device c ∧ device.toNat = i

theorem tasked_of_not_mem (hno : ∀ i trace, commanded i trace ∉ log) : Tasked log := by
  intro pre i trace post heq
  refine absurd ?_ (hno i trace)
  rw [heq]
  simp

theorem Tasked.append (h : Tasked log) (hdeeds : Tasked deeds) : Tasked (log ++ deeds) := by
  intro pre i trace post heq
  rcases split_append heq with ⟨mid, hlog, -⟩ | ⟨mid, hmore, rfl⟩
  · exact h pre i trace mid hlog
  · obtain ⟨before, w, device, c, rfl, htask, hi⟩ := hdeeds mid i trace post hmore
    exact ⟨log ++ before, w, device, c, (List.append_assoc ..).symm, htask, hi⟩

end Deed

/-! ## Scenes -/

/-- How far the watchdog is with a silent client. -/
inductive Watch
  | watching
  /-- The silence is claimed. -/
  | claimed
  /-- The safety stop is under way. -/
  | stopping (sweep : Sweep)
  /-- Only the close is left. -/
  | stopped
  | done
deriving DecidableEq

/-- A session with its fleet, its watchdog and the calls that bring it messages.
A call has read the phase of the session when it found that messages are still
taken, and will answer in that phase. -/
structure Scene (L : Type) where
  session : Session
  fleet : Fleet L
  heard : List (Message × Phase) := []
  watch : Watch := .watching
  log : List Deed := []
  /-- What the steps of the worker and of the watchdog made happen on the links and in
  the fleet. -/
  happened : List Happening := []

/-- The steps of all that take part. -/
inductive Move (L : Type)
  | start (emitter : Option Emitter)
  | join
  /-- A call finds whether the message it brings is still taken. -/
  | hear (m : Message)
  /-- One of the calls answers its message. -/
  | answer (call : Nat) (now : Time)
  | close (reason : ErrorCode)
  /-- The next step of the worker. -/
  | work
  /-- The watchdog looks at the time. -/
  | claim (now : Time)
  /-- The next step of the watchdog after a claim. -/
  | follow
  /-- Something else happens to the fleet. -/
  | call (c : Fleet.Call L)

/-- What others do to the fleet in a step. -/
def Move.call? {L : Type} : Move L → Option (Fleet.Call L)
  | .call c => some c
  | _ => none

theorem Move.eq_call {L : Type} {m : Move L} {c : Fleet.Call L} (h : m.call? = some c) :
    m = .call c := by
  cases m <;> cases h
  rfl

section

variable {L : Type} [Link L]

/-- The deed of a sweep at its next target, if the report of the sweep counts an
attempt more. -/
def Fleet.stopDeeds (f : Fleet L) (sweep : Sweep) : List Deed :=
  match sweep.targets with
  | [] => []
  | i :: _ =>
    let out := f.stopOne sweep.report i
    if sweep.report.attempted < out.answer.attempted then [.stopped i out.trace] else []

/-- The deeds of the next step of a worker. -/
def Session.workDeeds (s : Session) (f : Fleet L) : List Deed :=
  match s.stage with
  | .taken w => [.checked w (s.phase = .ready ∧ s.pingClaimed = false)]
  | .cleared w =>
    .ran w ::
      match w.task with
      | .command device c =>
        if f.connected device.toNat then
          [.commanded device.toNat (f.dispatch device.toNat c).trace]
        else []
      | .stopAll => []
  | .sweeping _ sweep | .restopping _ _ sweep => f.stopDeeds sweep
  | _ => []

end

namespace Scene

variable {L : Type} [Link L]

/-- The next step of the watchdog after a claim. -/
def follow (x : Scene L) : Scene L :=
  match x.watch with
  | .watching | .done => x
  | .claimed => { x with watch := .stopping { targets := x.session.stopTargets x.fleet } }
  | .stopping sweep =>
    match sweep.targets with
    | [] => { x with watch := .stopped }
    | i :: rest =>
      let out := x.fleet.stopOne sweep.report i
      { x with fleet := out.fleet, watch := .stopping { report := out.answer, targets := rest },
               log := x.log ++ x.fleet.stopDeeds sweep, happened := x.happened ++ out.trace }
  | .stopped => { x with session := (x.session.close .pingTimeout).1, watch := .done }

/-- One step of any of those that take part. -/
def step (x : Scene L) : Move L → Scene L
  | .start emitter => { x with session := (x.session.start emitter).1 }
  | .join => { x with session := (x.session.join none).1 }
  | .hear m => if x.session.open? then { x with heard := x.heard ++ [(m, x.session.phase)] } else x
  | .answer call now =>
    match x.heard[call]? with
    | none => x
    | some (m, phase) =>
      { x with session := (x.session.answer phase m now x.fleet.entries).session,
               heard := x.heard.eraseIdx call }
  | .close reason => { x with session := (x.session.close reason).1 }
  | .work =>
    match x.session.workStep x.fleet with
    | none => x
    | some turn =>
      { x with session := turn.session, fleet := turn.fleet,
               log := x.log ++ x.session.workDeeds x.fleet,
               happened := x.happened ++ turn.trace }
  | .claim now =>
    match x.session.claim now with
    | (true, session) => { x with session, watch := .claimed, log := x.log ++ [.claimed] }
    | (false, session) => { x with session }
  | .follow => x.follow
  | .call c => { x with fleet := x.fleet.after c }

/-- Steps one after the other. -/
def run (x : Scene L) (moves : List (Move L)) : Scene L := moves.foldl step x

/-- The time leads to a claim, or nothing comes of it. -/
theorem step_claim (x : Scene L) (now : Time) :
    x.step (.claim now) =
      if x.session.silent now = true then
        { x with session := { x.session with pingClaimed := true }, watch := .claimed,
                 log := x.log ++ [.claimed] }
      else x := by
  by_cases hs : x.session.silent now = true
  · simp only [step, Session.claim, hs, if_true]
  · simp only [step, Session.claim, hs]
    rfl

end Scene

/-! ## The log and what happened -/

section

variable {L : Type} [Link L]

/-- A sweep puts a stop on record for every target that is connected, and for no other. -/
theorem Fleet.stopDeeds_cons (f : Fleet L) {sweep : Sweep} {i : Nat} {rest : List Nat}
    (h : sweep.targets = i :: rest) :
    f.stopDeeds sweep =
      if f.connected i then [.stopped i (f.stopOne sweep.report i).trace] else [] := by
  have hcounts := f.attempted_stopOne sweep.report i
  rw [stopDeeds, h]
  dsimp only
  cases hc : f.connected i with
  | true =>
    rw [hc, if_pos rfl] at hcounts
    rw [if_pos (by omega), if_pos rfl]
  | false =>
    rw [hc, if_neg Bool.false_ne_true] at hcounts
    rw [if_neg (by omega), if_neg Bool.false_ne_true]

theorem Fleet.stopDeeds_nil (f : Fleet L) {sweep : Sweep} (h : sweep.targets = []) :
    f.stopDeeds sweep = [] := by
  rw [stopDeeds, h]

/-- What happens at a target that is not connected is nothing, so nothing is lost. -/
theorem Fleet.trace_stopDeeds (f : Fleet L) {sweep : Sweep} {i : Nat} {rest : List Nat}
    (h : sweep.targets = i :: rest) :
    (f.stopDeeds sweep).flatMap Deed.trace = (f.stopOne sweep.report i).trace := by
  rw [f.stopDeeds_cons h]
  cases hc : f.connected i with
  | true => simp [Deed.trace]
  | false => simp [(Fleet.stopOne_passed hc sweep.report).2]

/-- The deeds of a sweep are stops of connected devices. -/
theorem Fleet.mem_stopDeeds {f : Fleet L} {sweep : Sweep} {d : Deed} (h : d ∈ f.stopDeeds sweep) :
    ∃ i r, d = .stopped i (f.stopOne r i).trace ∧ f.connected i = true := by
  cases ht : sweep.targets with
  | nil =>
    rw [f.stopDeeds_nil ht] at h
    exact absurd h List.not_mem_nil
  | cons i rest =>
    rw [f.stopDeeds_cons ht] at h
    split at h
    · rename_i hc
      exact ⟨i, sweep.report, List.mem_singleton.1 h, hc⟩
    · exact absurd h List.not_mem_nil

/-- A sweep commands nothing. -/
theorem Fleet.tasked_stopDeeds (f : Fleet L) (sweep : Sweep) : Deed.Tasked (f.stopDeeds sweep) := by
  refine Deed.tasked_of_not_mem fun i trace hmem => ?_
  obtain ⟨j, r, heq, -⟩ := mem_stopDeeds hmem
  cases heq

/-- A worker that sends a command has just begun with the task. -/
theorem Session.tasked_workDeeds (s : Session) (f : Fleet L) : Deed.Tasked (s.workDeeds f) := by
  unfold workDeeds
  split
  · exact Deed.tasked_of_not_mem fun i trace hmem => by simp at hmem
  · rename_i w _
    cases htask : w.task with
    | stopAll => exact Deed.tasked_of_not_mem fun i trace hmem => by simp at hmem
    | command device c =>
      dsimp only
      split
      · intro pre i trace post heq
        -- the deeds are two, and the command is the second
        rcases List.cons_eq_append_iff.1 heq with ⟨rfl, hhead⟩ | ⟨before, rfl, htail⟩
        · cases hhead
        · obtain ⟨rfl, hcommand⟩ | ⟨_, rfl, hnil⟩ := List.cons_eq_append_iff.1 htail
          · cases hcommand
            exact ⟨[], w, device, c, rfl, htask, rfl⟩
          · simp at hnil
      · exact Deed.tasked_of_not_mem fun i trace hmem => by simp at hmem
  · exact f.tasked_stopDeeds _
  · exact f.tasked_stopDeeds _
  · exact Deed.tasked_of_not_mem fun i trace hmem => absurd hmem List.not_mem_nil

/-- **The deeds of a worker account for all that its step makes happen.** -/
theorem Session.trace_workDeeds {s : Session} {f : Fleet L} {turn : Session.Turn L}
    (h : s.workStep f = some turn) : (s.workDeeds f).flatMap Deed.trace = turn.trace := by
  unfold workStep at h
  unfold workDeeds
  cases hstage : s.stage with
  | idle =>
    simp only [hstage] at h ⊢
    split at h
    · split at h <;> cases h
      rfl
    · cases h
  | taken w =>
    simp only [hstage] at h ⊢
    split at h <;> cases h <;> rfl
  | cleared w =>
    simp only [hstage] at h ⊢
    cases htask : w.task with
    | command device c =>
      simp only [htask] at h ⊢
      cases h
      cases hc : f.connected device.toNat with
      | true => simp [Deed.trace]
      | false => simp [Deed.trace, (Fleet.dispatch_passed hc c).2]
    | stopAll =>
      simp only [htask] at h ⊢
      cases h
      rfl
  | sweeping w sweep =>
    simp only [hstage] at h ⊢
    split at h <;> rename_i ht <;> cases h
    · rw [f.stopDeeds_nil ht]
      rfl
    · exact f.trace_stopDeeds ht
  | executed w result =>
    simp only [hstage] at h ⊢
    split at h <;> cases h <;> rfl
  | restopping w result sweep =>
    simp only [hstage] at h ⊢
    split at h <;> rename_i ht <;> cases h
    · rw [f.stopDeeds_nil ht]
      rfl
    · exact f.trace_stopDeeds ht
  | settled w result =>
    simp only [hstage] at h ⊢
    cases h
    rfl

/-- A step of a worker leaves the fleet alone, or does to it what a call does. -/
theorem Session.fleet_workStep {s : Session} {f : Fleet L} {turn : Session.Turn L}
    (h : s.workStep f = some turn) :
    turn.fleet = f ∨ ∃ c : Fleet.Call L, c.Legal f ∧ turn.fleet = f.after c := by
  unfold workStep at h
  split at h
  · split at h
    · split at h <;> cases h
      exact Or.inl rfl
    · cases h
  · split at h <;> cases h <;> exact Or.inl rfl
  · split at h <;> cases h
    · rename_i device c _
      exact Or.inr ⟨.dispatch device.toNat c, trivial, rfl⟩
    · exact Or.inl rfl
  · split at h <;> cases h
    · exact Or.inl rfl
    · exact Or.inr ⟨.stopDevices [_], trivial, f.fleet_stopOne _ _⟩
  · split at h <;> cases h <;> exact Or.inl rfl
  · split at h <;> cases h
    · exact Or.inl rfl
    · exact Or.inr ⟨.stopDevices [_], trivial, f.fleet_stopOne _ _⟩
  · cases h
    exact Or.inl rfl

/-- The stops of a worker are stops of connected devices. -/
theorem Session.stopped_mem_workDeeds {s : Session} {f : Fleet L} {i : Nat}
    {trace : List Happening} (h : .stopped i trace ∈ s.workDeeds f) :
    f.connected i = true ∧ ∃ r, trace = (f.stopOne r i).trace := by
  have hsweep {sweep : Sweep} (h : .stopped i trace ∈ f.stopDeeds sweep) :
      f.connected i = true ∧ ∃ r, trace = (f.stopOne r i).trace := by
    obtain ⟨j, r, heq, hc⟩ := Fleet.mem_stopDeeds h
    cases heq
    exact ⟨hc, r, rfl⟩
  unfold workDeeds at h
  split at h
  · simp at h
  · rcases List.mem_cons.1 h with h | h
    · cases h
    · split at h
      · split at h <;> simp at h
      · exact absurd h List.not_mem_nil
  · exact hsweep h
  · exact hsweep h
  · exact absurd h List.not_mem_nil

end

namespace Scene

variable {L : Type} [Link L] {x y : Scene L} {deeds : List Deed}

/-- Some deeds lead from `x` to `y`, and account for all that happened meanwhile by the
session and its watchdog. -/
structure Recounts (x y : Scene L) (deeds : List Deed) : Prop where
  log : y.log = x.log ++ deeds
  happened : y.happened = x.happened ++ deeds.flatMap Deed.trace
  tasked : Deed.Tasked deeds
  /-- Stops are of connected devices, and what happened with each is what a stop comes to. -/
  stops : ∀ i trace, .stopped i trace ∈ deeds →
    x.fleet.connected i = true ∧ ∃ r, trace = (x.fleet.stopOne r i).trace

/-- Where nothing is put on record, nothing happened. -/
theorem Recounts.nil (hlog : y.log = x.log) (hhappened : y.happened = x.happened) :
    Recounts x y [] := by
  refine ⟨?_, ?_, Deed.tasked_of_not_mem fun _ _ => List.not_mem_nil,
    fun _ _ hmem => absurd hmem List.not_mem_nil⟩
  · rw [hlog, List.append_nil]
  · rw [hhappened, List.flatMap_nil, List.append_nil]

theorem recounts_follow (x : Scene L) : ∃ deeds, Recounts x x.follow deeds := by
  unfold follow
  split
  · exact ⟨[], .nil rfl rfl⟩
  · exact ⟨[], .nil rfl rfl⟩
  · exact ⟨[], .nil rfl rfl⟩
  · rename_i sweep hw
    split
    · exact ⟨[], .nil rfl rfl⟩
    · rename_i i rest hcons
      refine ⟨x.fleet.stopDeeds sweep, rfl, ?_, x.fleet.tasked_stopDeeds sweep,
        fun j trace hmem => ?_⟩
      · rw [x.fleet.trace_stopDeeds hcons]
      · obtain ⟨k, r, heq, hc⟩ := Fleet.mem_stopDeeds hmem
        cases heq
        exact ⟨hc, r, rfl⟩
  · exact ⟨[], .nil rfl rfl⟩

/-- **No step leaves anything out of the log.** -/
theorem recounts_step (x : Scene L) (m : Move L) : ∃ deeds, Recounts x (x.step m) deeds := by
  cases m with
  | start emitter => exact ⟨[], .nil rfl rfl⟩
  | join => exact ⟨[], .nil rfl rfl⟩
  | close reason => exact ⟨[], .nil rfl rfl⟩
  | call c => exact ⟨[], .nil rfl rfl⟩
  | follow => exact x.recounts_follow
  | hear m =>
    simp only [step]
    split <;> exact ⟨[], .nil rfl rfl⟩
  | answer call now =>
    simp only [step]
    split <;> exact ⟨[], .nil rfl rfl⟩
  | claim now =>
    rw [step_claim]
    split
    · refine ⟨[.claimed], rfl, ?_, Deed.tasked_of_not_mem fun i trace hmem => by simp at hmem,
        fun i trace hmem => by simp at hmem⟩
      exact (List.append_nil _).symm
    · exact ⟨[], .nil rfl rfl⟩
  | work =>
    simp only [step]
    split
    · exact ⟨[], .nil rfl rfl⟩
    · rename_i turn hturn
      refine ⟨x.session.workDeeds x.fleet, rfl, ?_, x.session.tasked_workDeeds x.fleet,
        fun i trace hmem => Session.stopped_mem_workDeeds hmem⟩
      rw [Session.trace_workDeeds hturn]

/-- **All that a session and its watchdog make happen is accounted for**, with a command or
with a stop, and every command with a task. -/
structure Accounted (x : Scene L) : Prop where
  happened : x.happened = x.log.flatMap Deed.trace
  tasked : Deed.Tasked x.log

omit [Link L] in
/-- Where nothing was done yet, there is nothing to account for. -/
theorem accounted_of_fresh (hlog : x.log = []) (hhappened : x.happened = []) : x.Accounted := by
  refine ⟨?_, Deed.tasked_of_not_mem fun i trace => ?_⟩
  · rw [hlog, hhappened]
    rfl
  · rw [hlog]
    exact List.not_mem_nil

theorem Accounted.run (h : x.Accounted) (moves : List (Move L)) : (x.run moves).Accounted := by
  induction moves generalizing x with
  | nil => exact h
  | cons m moves ih =>
    obtain ⟨deeds, hdeeds⟩ := x.recounts_step m
    refine ih (x := x.step m) ⟨?_, ?_⟩
    · rw [hdeeds.happened, hdeeds.log, List.flatMap_append, h.happened]
    · rw [hdeeds.log]
      exact h.tasked.append hdeeds.tasked

/-! ## The fleet of a scene -/

/-- **What a step does to the fleet is nothing, or what a call does to it.** -/
theorem fleet_step (x : Scene L) {m : Move L} (hm : m.call? = none) :
    (x.step m).fleet = x.fleet ∨
      ∃ c : Fleet.Call L, c.Legal x.fleet ∧ (x.step m).fleet = x.fleet.after c := by
  cases m with
  | call c => cases hm
  | start | join | close => exact Or.inl rfl
  | hear m =>
    rw [step]
    split <;> exact Or.inl rfl
  | answer call now =>
    rw [step]
    split <;> exact Or.inl rfl
  | work =>
    rw [step]
    split
    · exact Or.inl rfl
    · rename_i turn hturn
      exact Session.fleet_workStep hturn
  | claim now =>
    rw [step_claim]
    split <;> exact Or.inl rfl
  | follow =>
    rw [step, follow]
    split
    · exact Or.inl rfl
    · exact Or.inl rfl
    · exact Or.inl rfl
    · split
      · exact Or.inl rfl
      · exact Or.inr ⟨.stopDevices [_], trivial, x.fleet.fleet_stopOne _ _⟩
    · exact Or.inl rfl

/-- **A device stays what it is through every step.** -/
theorem evolves_step (x : Scene L) (m : Move L) : x.fleet.Evolves (x.step m).fleet := by
  cases hm : m.call? with
  | some c =>
    obtain rfl := Move.eq_call hm
    exact Fleet.evolves_after x.fleet c
  | none =>
    rcases x.fleet_step hm with hsame | ⟨c, -, heq⟩
    · rw [hsame]
      exact .refl _
    · rw [heq]
      exact Fleet.evolves_after x.fleet c

/-- Devices are registered with links that are there. -/
def Lawful : Scene L → List (Move L) → Prop
  | _, [] => True
  | x, v :: moves => (∀ c, v = .call c → c.Legal x.fleet) ∧ (x.step v).Lawful moves

/-- Where nobody else does anything to the fleet, nothing unlawful is done. -/
theorem lawful_of_alone {moves : List (Move L)} (h : moves.filterMap Move.call? = []) :
    x.Lawful moves := by
  induction moves generalizing x with
  | nil => trivial
  | cons v moves ih =>
    rw [List.filterMap_eq_nil_iff, List.forall_mem_cons, ← List.filterMap_eq_nil_iff] at h
    refine ⟨fun c heq => ?_, ih h.2⟩
    rw [heq] at h
    cases h.1

/-- A lawful step keeps a fleet sound. -/
theorem sound_step (hs : x.fleet.Sound) {v : Move L}
    (hv : ∀ c, v = .call c → c.Legal x.fleet) : (x.step v).fleet.Sound := by
  cases hm : v.call? with
  | some c =>
    obtain rfl := Move.eq_call hm
    exact (Fleet.updates_after (hv c rfl)).sound hs
  | none =>
    rcases x.fleet_step hm with hsame | ⟨c, hc, heq⟩
    · rw [hsame]
      exact hs
    · rw [heq]
      exact (Fleet.updates_after hc).sound hs

theorem sound_run (hs : x.fleet.Sound) {moves : List (Move L)} (hl : x.Lawful moves) :
    (x.run moves).fleet.Sound := by
  induction moves generalizing x with
  | nil => exact hs
  | cons v moves ih => exact ih (sound_step hs hl.1) hl.2

/-! ## The watchdog by itself -/

/-- The watchdog makes some steps in a row. -/
def followed (x : Scene L) : Nat → Scene L
  | 0 => x
  | n + 1 => x.follow.followed n

/-- The safety stop of the watchdog, if nobody comes between its steps. -/
theorem followed_stopping {x : Scene L} {report : StopReport} {targets : List Nat}
    (hw : x.watch = .stopping { report, targets }) :
    ∃ n, (x.followed n).watch = .done ∧
      (x.followed n).session = (x.session.close .pingTimeout).1 ∧
      (x.followed n).fleet = (x.fleet.sweep report targets).fleet := by
  induction targets generalizing x report with
  | nil =>
    refine ⟨2, ?_⟩
    have hfirst : x.follow = { x with watch := .stopped } := by simp only [follow, hw]
    rw [followed, followed, hfirst]
    exact ⟨rfl, rfl, rfl⟩
  | cons i rest ih =>
    -- one target is stopped, and the others are left to the steps that follow
    have hnext : x.follow.watch =
        .stopping { report := (x.fleet.stopOne report i).answer, targets := rest } := by
      simp only [follow, hw]
    have hsession : x.follow.session = x.session := by simp only [follow, hw]
    have hfleet : x.follow.fleet = (x.fleet.stopOne report i).fleet := by simp only [follow, hw]
    obtain ⟨n, hdone, hsame, hswept⟩ := ih hnext
    rw [hsession] at hsame
    rw [hfleet] at hswept
    exact ⟨n + 1, hdone, hsame, hswept⟩

/-- **If nobody comes between its steps, the watchdog does what `pingStop` does.** -/
theorem followed_claimed {x : Scene L} (hw : x.watch = .claimed) :
    ∃ n, (x.followed n).watch = .done ∧
      (x.followed n).session = (x.session.pingStop x.fleet).session ∧
      (x.followed n).fleet = (x.session.pingStop x.fleet).fleet := by
  have hnext : x.follow.watch = .stopping { targets := x.session.stopTargets x.fleet } := by
    simp only [follow, hw]
  have hsession : x.follow.session = x.session := by simp only [follow, hw]
  have hfleet : x.follow.fleet = x.fleet := by simp only [follow, hw]
  obtain ⟨n, hdone, hsame, hswept⟩ := followed_stopping hnext
  rw [hsession] at hsame
  rw [hfleet] at hswept
  exact ⟨n + 1, hdone, hsame, hswept⟩

end Scene

end Haptics
