import Haptics.Proofs.Session.LastStop
/-!
# Stops of what was commanded

A session may stop only what it was asked to command. The record it goes by is
made when a command is accepted, while the worker runs the command later and the
watchdog stops devices whenever it has to. `Recording` is kept by every step of
all of them: the record names the devices of the accepted commands and no
others, every task that was run is on it, and no stop under way has a target
outside of it. `covers_of_run` is the main statement; with it goes `sweep_passes`,
what a sweep comes to whether or not devices share their links.
-/

namespace Haptics

open Deed

variable {L : Type}

/-! ## Sweeps, with links apart or not -/

namespace Fleet

/-- The sweep of some targets: each is stopped on its own link, and everything that
belongs to no target is left as it is. Targets that share a link find it as the one
before has left it. -/
structure Passes [Link L] (f : Fleet L) (r : StopReport) (out : Outcome L StopReport)
    (os : List (Online L)) : Prop where
  present : ∀ o ∈ os, f.devices[o.index]? = some o.device ∧ o.device.connected = true ∧
    o.device.link = some o.id
  trace : out.trace = os.flatMap Online.trace
  adds : r.Adds out.answer os
  devices : ∀ i, i ∉ os.map Online.index → out.fleet.devices[i]? = f.devices[i]?
  leads : ∀ i, i ∉ os.map Online.index →
    ∀ k, out.fleet.byKey.get? k = some i ↔ f.byKey.get? k = some i
  links : ∀ id, id ∉ os.map Online.id → out.fleet.links[id]? = f.links[id]?

variable [Link L] {f : Fleet L} {os : List (Online L)}

/-- **What a sweep over connected devices comes to.** -/
theorem sweep_passes (hs : f.Sound) {is : List Nat} (hn : is.Nodup)
    (hc : ∀ i ∈ is, f.connected i = true) (r : StopReport) :
    ∃ os, os.map Online.index = is ∧ f.Passes r (f.sweep r is) os := by
  induction is generalizing f r with
  | nil =>
    exact ⟨[], rfl, fun _ ho => absurd ho List.not_mem_nil, rfl, .nil r, fun _ _ => rfl,
      fun _ _ _ => Iff.rfl, fun _ _ => rfl⟩
  | cons i is ih =>
    obtain ⟨hi, hn⟩ := List.nodup_cons.1 hn
    obtain ⟨d, hd, hconn⟩ := connected_iff.1 (hc i List.mem_cons_self)
    obtain ⟨id, hlt, hlink⟩ := hs.linked hd hconn
    let o : Online L := ⟨i, d, id, f.links[id]⟩
    have ho : f.Holds o := ⟨hd, hconn, hlink, List.getElem?_eq_getElem hlt⟩
    obtain ⟨hadds, htrace, hswept⟩ := stopOne_online hs ho r
    -- the targets that follow are as they were, their links apart
    have hdev : ∀ j, j ≠ i → (f.stopOne r i).fleet.devices[j]? = f.devices[j]? :=
      fun j hj => hswept.devices j (by simpa using hj)
    have hne : ∀ j ∈ is, j ≠ i := fun j hj heq => hi (heq ▸ hj)
    have hc' : ∀ j ∈ is, (f.stopOne r i).fleet.connected j = true := by
      intro j hj
      rw [Fleet.connected, hdev j (hne j hj)]
      exact hc j (List.mem_cons_of_mem i hj)
    obtain ⟨os, rfl, hp⟩ :=
      ih ((updates_stopOne f r i).sound hs) hn hc' (f.stopOne r i).answer
    refine ⟨o :: os, rfl, fun o' ho' => ?_, ?_, hadds.cons hp.adds, fun j hj => ?_,
      fun j hj k => ?_, fun l hl => ?_⟩
    · rcases List.mem_cons.1 ho' with rfl | ho'
      · exact ⟨hd, hconn, hlink⟩
      · obtain ⟨hd', hrest⟩ := hp.present o' ho'
        rw [hdev _ (hne _ (List.mem_map_of_mem ho'))] at hd'
        exact ⟨hd', hrest⟩
    · rw [sweep, List.flatMap_cons, ← htrace, ← hp.trace]
    · simp only [List.map_cons, List.mem_cons, not_or] at hj
      rw [sweep, hp.devices j hj.2, hdev j hj.1]
    · simp only [List.map_cons, List.mem_cons, not_or] at hj
      rw [sweep, hp.leads j hj.2, hswept.leads j (by simpa using hj.1)]
    · simp only [List.map_cons, List.mem_cons, not_or] at hl
      rw [sweep, hp.links l hl.2, hswept.links l (by simpa using hl.1)]

end Fleet

/-! ## Accepting commands -/

namespace Session

variable {s : Session}

/-- The device of the command that a message has accepted, in the phase that was
read before: a command with an id that is neither 0 nor in use. -/
def admits (s : Session) (phase : Phase) (m : Message) : Option UInt32 :=
  match phase, m.payload with
  | .awaitingHandshake, _ => none
  | _, .deviceCommand device _ => if m.id = 0 ∨ m.id ∈ s.outstanding then none else some device
  | _, _ => none

/-- Nothing was put on record between `s` and `s'`, and no command entered the queue. -/
structure Unrecorded (s s' : Session) : Prop where
  commanded : s'.commanded = s.commanded
  queue : ∀ w, s'.work = s.work ++ [w] → w.task = .stopAll

theorem unrecorded_of_eq {s s' : Session} (hc : s'.commanded = s.commanded)
    (hw : s'.work = s.work) : s.Unrecorded s' where
  commanded := hc
  queue w hq := absurd (congrArg List.length (hw.symm.trans hq)) (by simp)

theorem unrecorded_close (s : Session) (reason : ErrorCode) :
    s.Unrecorded (s.close reason).1 := by
  unfold close
  split
  · exact unrecorded_of_eq rfl rfl
  · exact ⟨rfl, fun w hw => absurd (congrArg List.length hw) (by simp)⟩

theorem unrecorded_violate (s : Session) (id : UInt32) (v : Violation) :
    s.Unrecorded (s.violate id v).session := unrecorded_close s v.code

theorem unrecorded_reply (s : Session) (id : UInt32) (payload : Payload) :
    s.Unrecorded (s.reply id payload).1 := by
  unfold reply
  split <;> exact unrecorded_of_eq rfl rfl

theorem unrecorded_start (s : Session) (emitter : Option Emitter) :
    s.Unrecorded (s.start emitter).1 := by
  unfold start
  split
  · exact unrecorded_of_eq rfl rfl
  · cases emitter <;> exact unrecorded_of_eq rfl rfl

theorem unrecorded_greet (s : Session) (m : Message) (now : Time) :
    s.Unrecorded (s.greet m now).session := by
  unfold greet
  split
  · split
    · exact unrecorded_violate s _ _
    · dsimp only
      split
      · exact unrecorded_violate s _ _
      · exact unrecorded_of_eq rfl rfl
  · exact unrecorded_violate s _ _

/-- A command with a free id is put on record and into the queue at once. -/
theorem serve_command {m : Message} {device : UInt32} {c : Command}
    (hp : m.payload = .deviceCommand device c) (hid : m.id ≠ 0) (hfree : m.id ∉ s.outstanding)
    (now : Time) (entries : List DeviceEntry) :
    (s.serve m now entries).session.commanded = enterOnce device s.commanded ∧
      (s.serve m now entries).session.work = s.work ++ [⟨m.id, .command device c⟩] := by
  simp [serve, hp, Payload.request?, hid, hfree, accept]

/-- Everything else that a client can say leaves the record as it is. -/
theorem unrecorded_serve {m : Message}
    (h : ∀ device c, m.payload = .deviceCommand device c → m.id = 0 ∨ m.id ∈ s.outstanding)
    (now : Time) (entries : List DeviceEntry) :
    s.Unrecorded (s.serve m now entries).session := by
  have hviolate : ∀ v, s.Unrecorded
      (({ s with lastActivity := now } : Session).violate m.id v).session := fun v =>
    let hv := unrecorded_violate { s with lastActivity := now } m.id v
    ⟨hv.commanded, hv.queue⟩
  unfold serve
  dsimp only
  split
  · exact unrecorded_of_eq rfl rfl
  · exact unrecorded_of_eq rfl rfl
  · exact hviolate _
  · split
    · exact hviolate _
    · rename_i r hr
      split
      · exact hviolate _
      · rename_i hid
        split
        · exact hviolate _
        · rename_i hfree
          cases r with
          | deviceList =>
            have hreply := unrecorded_reply
              { s with lastActivity := now, outstanding := s.outstanding ++ [m.id] } m.id
              (.deviceListReply entries)
            exact ⟨hreply.commanded, hreply.queue⟩
          | task t =>
            cases t with
            | stopAll =>
              refine ⟨rfl, fun w hw => ?_⟩
              have hlast := List.append_cancel_left hw
              rw [← List.singleton_inj.1 hlast]
            | command device c =>
              -- such a message was ruled out
              have hp : m.payload = .deviceCommand device c := by
                cases hm : m.payload <;> simp_all [Payload.request?]
              rcases h device c hp with h | h
              · exact absurd h hid
              · exact absurd h hfree

/-- **An answer puts the device of the command that it accepts on record**, and that
command into the queue. -/
theorem answer_of_admits {phase : Phase} {m : Message} {device : UInt32}
    (h : s.admits phase m = some device) (now : Time) (entries : List DeviceEntry) :
    ∃ c, m.payload = .deviceCommand device c ∧
      (s.answer phase m now entries).session.commanded = enterOnce device s.commanded ∧
      (s.answer phase m now entries).session.work = s.work ++ [⟨m.id, .command device c⟩] := by
  have hanswer : s.answer phase m now entries = s.serve m now entries := by
    cases phase with
    | awaitingHandshake => cases h
    | ready | closed => rfl
  unfold admits at h
  split at h
  · cases h
  · rename_i c _ hp
    split at h
    · cases h
    · rename_i hno
      rw [not_or] at hno
      cases h
      rw [hanswer]
      exact ⟨c, hp, serve_command hp hno.1 hno.2 now entries⟩
  · cases h

/-- **Any other answer leaves the record as it is.** -/
theorem answer_of_not_admits {phase : Phase} {m : Message} (h : s.admits phase m = none)
    (now : Time) (entries : List DeviceEntry) :
    s.Unrecorded (s.answer phase m now entries).session := by
  unfold answer
  split
  · exact unrecorded_greet s m now
  · rename_i hphase
    refine unrecorded_serve (fun device c hp => Decidable.by_contra fun hno => ?_) now entries
    unfold admits at h
    split at h
    · exact hphase rfl
    · rename_i hp'
      rw [hp] at hp'
      cases hp'
      rw [if_neg hno] at h
      cases h
    · rename_i hother
      exact hother device c hp

theorem admits_eq_none {phase : Phase} {m : Message} (h : m.id = 0 ∨ m.id ∈ s.outstanding) :
    s.admits phase m = none := by
  unfold admits
  split
  · rfl
  · exact if_pos h
  · rfl

/-- **Exactly the accepted commands enter the queue.** -/
theorem admits_eq_some_iff (s : Session) (phase : Phase) (m : Message) (now : Time)
    (entries : List DeviceEntry) (device : UInt32) :
    s.admits phase m = some device ↔
      ∃ c, (s.answer phase m now entries).session.work =
        s.work ++ [⟨m.id, .command device c⟩] := by
  constructor
  · intro h
    obtain ⟨c, -, -, hwork⟩ := answer_of_admits h now entries
    exact ⟨c, hwork⟩
  · rintro ⟨c, hwork⟩
    cases h : s.admits phase m with
    | none => cases (answer_of_not_admits h now entries).queue _ hwork
    | some device' =>
      obtain ⟨c', -, -, hwork'⟩ := answer_of_admits h now entries
      have hlast := List.singleton_inj.1 (List.append_cancel_left (hwork'.symm.trans hwork))
      cases hlast
      rfl

/-! ## The worker -/

variable {f : Fleet L}

/-- A session that stops its own devices only has no others as targets. -/
theorem stopTargets_of_session (h : s.terms.stopScope = .session) :
    s.stopTargets f = f.among (s.commanded.map UInt32.toNat) := by
  rw [stopTargets, h]

/-- In the scope of a session its safety stop is for what it has on record, and for nothing
else. -/
theorem mem_commanded_of_stopTargets (h : s.terms.stopScope = .session) {i : Nat}
    (hi : i ∈ s.stopTargets f) : i ∈ s.commanded.map UInt32.toNat := by
  rw [stopTargets_of_session h, Fleet.among, List.mem_filter] at hi
  exact of_decide_eq_true hi.2

variable [Link L]

theorem ran_mem_workDeeds {w : Work} (h : ran w ∈ s.workDeeds f) : s.stage = .cleared w := by
  unfold workDeeds at h
  split at h
  · simp at h
  · rename_i v hstage
    rcases List.mem_cons.1 h with h | h
    · cases h
      exact hstage
    · split at h
      · split at h <;> simp at h
      · simp at h
  · obtain ⟨i, r, heq, -⟩ := Fleet.mem_stopDeeds h
    cases heq
  · obtain ⟨i, r, heq, -⟩ := Fleet.mem_stopDeeds h
    cases heq
  · simp at h

/-- What a step of the worker leaves of the things that a stop goes by. -/
structure WorkKeeps (s : Session) (f : Fleet L) (turn : Turn L) : Prop where
  terms : turn.session.terms = s.terms
  commanded : turn.session.commanded = s.commanded
  claimed : turn.session.pingClaimed = s.pingClaimed
  /-- The targets of a second stop are those of a safety stop. -/
  targets : ∀ w result sweep, turn.session.stage = .restopping w result sweep →
    ∀ i ∈ sweep.targets, i ∈ s.stopTargets f ∨
      ∃ sweep', s.stage = .restopping w result sweep' ∧ i ∈ sweep'.targets

omit [Link L] in
theorem workKeeps_atStage {stage : Stage} (h : ∀ w result sweep, stage ≠ .restopping w result sweep) :
    s.WorkKeeps f (s.atStage f stage) :=
  ⟨rfl, rfl, rfl, fun w result sweep hs => absurd hs (h w result sweep)⟩

theorem workKeeps_sweepOn {sweep : Sweep} {i : Nat} {rest : List Nat} {stage : Sweep → Stage}
    (h : ∀ report w result sweep', stage { report, targets := rest } = .restopping w result sweep' →
      ∀ j ∈ sweep'.targets, ∃ sweep'', s.stage = .restopping w result sweep'' ∧
        j ∈ sweep''.targets) :
    s.WorkKeeps f (s.sweepOn f sweep i rest stage) :=
  ⟨rfl, rfl, rfl, fun w result sweep' hs j hj => Or.inr (h _ w result sweep' hs j hj)⟩

/-- **The worker adds nothing to the record** of what was commanded, and stops only what a safety
stop would. -/
theorem workKeeps_workStep {turn : Turn L} (h : s.workStep f = some turn) :
    s.WorkKeeps f turn := by
  unfold workStep at h
  split at h
  · split at h
    · split at h
      · cases h
      · cases h
        exact ⟨rfl, rfl, rfl, fun _ _ _ hs => (nomatch hs)⟩
    · cases h
  · split at h
    · cases h
      exact workKeeps_atStage (by simp)
    · cases h
      exact workKeeps_atStage (by simp)
  · split at h
    · rename_i device c _
      cases h
      exact ⟨rfl, rfl, rfl, fun _ _ _ hs => (nomatch hs)⟩
    · cases h
      exact workKeeps_atStage (by simp)
  · rename_i w sweep hstage
    split at h
    · cases h
      exact workKeeps_atStage (by simp)
    · rename_i i rest _
      cases h
      exact workKeeps_sweepOn fun _ _ _ _ hs => nomatch hs
  · split at h
    · cases h
      refine ⟨rfl, rfl, rfl, fun w result sweep hs i hi => Or.inl ?_⟩
      cases hs
      exact hi
    · cases h
      exact workKeeps_atStage (by simp)
  · rename_i w result sweep hstage
    split at h
    · cases h
      exact workKeeps_atStage (by simp)
    · rename_i i rest hcons
      cases h
      refine workKeeps_sweepOn fun report w result sweep' hs j hj => ?_
      cases hs
      exact ⟨sweep, hstage, hcons ▸ List.mem_cons_of_mem i hj⟩
  · rename_i w result hstage
    have htalk := talks_reply s w.id result
    have hsame := (unrecorded_reply s w.id result).commanded
    cases h
    exact ⟨htalk.terms, hsame, htalk.claimed, fun _ _ _ hs => (nomatch hs)⟩

end Session

/-! ## Scenes -/

namespace Scene

variable [Link L] {x : Scene L}

/-- The device of the command that a step accepts. -/
def accepts (x : Scene L) : Move L → Option UInt32
  | .answer call _ => (x.heard[call]?).bind fun (m, phase) => x.session.admits phase m
  | _ => none

/-- The devices of all commands that are accepted in some steps. -/
def accepted (x : Scene L) : List (Move L) → List UInt32
  | [] => []
  | v :: moves => (x.accepts v).toList ++ (x.step v).accepted moves

/-- **A step puts the device of the command that it accepts on record.** -/
theorem mem_commanded_step (x : Scene L) (v : Move L) (d : UInt32) :
    d ∈ (x.step v).session.commanded ↔
      d ∈ x.session.commanded ∨ x.accepts v = some d := by
  have hsame : ∀ {y : Scene L}, x.step v = y → y.session.commanded = x.session.commanded →
      x.accepts v = none → (d ∈ (x.step v).session.commanded ↔
        d ∈ x.session.commanded ∨ x.accepts v = some d) := by
    intro y hy hc hnone
    rw [hy, hc, hnone]
    simp
  cases v with
  | start emitter => exact hsame rfl (Session.unrecorded_start _ _).commanded rfl
  | join => exact hsame rfl rfl rfl
  | hear m =>
    refine hsame rfl ?_ rfl
    simp only [step]
    split <;> rfl
  | answer call now =>
    simp only [step, accepts]
    cases hcall : x.heard[call]? with
    | none => simp
    | some entry =>
      obtain ⟨m, phase⟩ := entry
      simp only [Option.bind_some]
      cases hm : x.session.admits phase m with
      | none =>
        rw [(Session.answer_of_not_admits hm now _).commanded]
        simp
      | some device =>
        obtain ⟨c, -, hc, -⟩ := Session.answer_of_admits hm now x.fleet.entries
        rw [hc, mem_enterOnce, or_comm, Option.some_inj, eq_comm (a := d)]
  | close reason => exact hsame rfl (Session.unrecorded_close _ _).commanded rfl
  | work =>
    refine hsame rfl ?_ rfl
    simp only [step]
    split
    · rfl
    · rename_i turn hturn
      exact (Session.workKeeps_workStep hturn).commanded
  | claim now =>
    refine hsame (step_claim x now) ?_ rfl
    split <;> rfl
  | follow =>
    refine hsame rfl ?_ rfl
    simp only [step, follow]
    split
    · rfl
    · rfl
    · rfl
    · split <;> rfl
    · exact (Session.unrecorded_close _ _).commanded
  | call c => exact hsame rfl rfl rfl

/-- **The record after a run**: what was on it, and what was accepted since. -/
theorem mem_commanded_run (x : Scene L) (moves : List (Move L)) (d : UInt32) :
    d ∈ (x.run moves).session.commanded ↔ d ∈ x.session.commanded ∨ d ∈ x.accepted moves := by
  induction moves generalizing x with
  | nil => simp [run, accepted]
  | cons v moves ih =>
    rw [run, List.foldl_cons, ← run, ih, mem_commanded_step, accepted, List.mem_append,
      Option.mem_toList, or_assoc]

/-! ## What goes by the record -/

/-- **What every step keeps**: the record covers what the worker has run, and no stop
under way goes beyond it. -/
structure Recording (x : Scene L) : Prop where
  scope : x.session.terms.stopScope = .session
  ran : ∀ w, ran w ∈ x.log → x.session.Recorded w
  watchdog : ∀ sweep, x.watch = .stopping sweep →
    ∀ i ∈ sweep.targets, i ∈ x.session.commanded.map UInt32.toNat
  worker : ∀ w result sweep, x.session.stage = .restopping w result sweep →
    ∀ i ∈ sweep.targets, i ∈ x.session.commanded.map UInt32.toNat

omit [Link L] in
/-- Talk adds to the record at most. -/
theorem Recording.talk (h : x.Recording) {s : Session} (ht : x.session.Talks s)
    (heard : List (Message × Phase)) :
    ({ x with session := s, heard } : Scene L).Recording where
  scope := ht.terms ▸ h.scope
  ran w hw := (h.ran w hw).mono ht.commanded
  watchdog sweep hw i hi :=
    List.map_subset UInt32.toNat (fun _ hd => ht.commanded _ hd) (h.watchdog sweep hw i hi)
  worker w result sweep hs i hi :=
    List.map_subset UInt32.toNat (fun _ hd => ht.commanded _ hd)
      (h.worker w result sweep (ht.stage ▸ hs) i hi)

theorem Recording.work (h : x.Recording) (hi : x.Inv) : (x.step .work).Recording := by
  simp only [step]
  split
  · exact h
  · rename_i turn hturn
    have hk := Session.workKeeps_workStep hturn
    have hc := hk.commanded
    refine ⟨hk.terms ▸ h.scope, fun w hw device c ht => ?_, fun sweep hw => ?_,
      fun w result sweep hs i hi => ?_⟩
    · rw [hc]
      rcases List.mem_append.1 hw with hw | hw
      · exact h.ran w hw device c ht
      · -- what is run now was on record since it was queued
        have hstage := Session.ran_mem_workDeeds hw
        exact hi.ahead w (by rw [hstage]; rfl) device c ht
    · rw [hc]
      exact h.watchdog sweep hw
    · rw [hc]
      rcases hk.targets w result sweep hs i hi with hi | ⟨sweep', hs', hi⟩
      · exact Session.mem_commanded_of_stopTargets h.scope hi
      · exact h.worker w result sweep' hs' i hi

theorem Recording.follow (h : x.Recording) : x.follow.Recording := by
  unfold Scene.follow
  split
  · exact h
  · exact h
  · refine ⟨h.scope, h.ran, fun sweep hw i hi => ?_, h.worker⟩
    cases hw
    exact Session.mem_commanded_of_stopTargets h.scope hi
  · rename_i sweep hw
    split
    · exact ⟨h.scope, h.ran, fun _ hw => (nomatch hw), h.worker⟩
    · rename_i i rest hcons
      refine ⟨h.scope, fun w hmem => ?_, fun sweep' hw' j hj => ?_, h.worker⟩
      · rcases List.mem_append.1 hmem with hmem | hmem
        · exact h.ran w hmem
        · obtain ⟨j, r, heq, -⟩ := Fleet.mem_stopDeeds hmem
          cases heq
      · cases hw'
        exact h.watchdog sweep hw j (hcons ▸ List.mem_cons_of_mem i hj)
  · have hclosed := h.talk (Session.talks_close x.session .pingTimeout) x.heard
    exact ⟨hclosed.scope, hclosed.ran, fun _ hw => (nomatch hw), hclosed.worker⟩

/-- **Every step keeps the record**, of everyone who takes part. -/
theorem Recording.step (h : x.Recording) (hi : x.Inv) (v : Move L) : (x.step v).Recording := by
  cases v with
  | start emitter => exact h.talk (Session.talks_start x.session emitter) x.heard
  | join => exact h.talk (Session.talks_join x.session none) x.heard
  | hear m =>
    simp only [Scene.step]
    split
    · exact h.talk (Session.Talks.refl x.session) _
    · exact h
  | answer call now =>
    simp only [Scene.step]
    split
    · exact h
    · exact h.talk (Session.talks_answer x.session _ _ now _) _
  | close reason => exact h.talk (Session.talks_close x.session reason) x.heard
  | work => exact h.work hi
  | claim now =>
    rw [step_claim]
    split
    · exact ⟨h.scope, fun w hw => h.ran w (by simpa using hw), fun _ hw => (by cases hw), h.worker⟩
    · exact h
  | follow => exact h.follow
  | call c => exact ⟨h.scope, h.ran, h.watchdog, h.worker⟩

theorem Recording.run (h : x.Recording) (hi : x.Inv) (moves : List (Move L)) :
    (x.run moves).Recording := by
  induction moves generalizing x with
  | nil => exact h
  | cons v moves ih => exact ih (h.step hi v) (hi.step v)

/-! ## After a claim -/

/-- Once the silence is claimed it stays claimed, and no further message is heard. -/
theorem deaf_step (hc : x.session.pingClaimed = true) (v : Move L) :
    (x.step v).session.pingClaimed = true ∧ (x.step v).heard.Sublist x.heard := by
  cases v with
  | start emitter => exact ⟨(Session.talks_start _ _).claimed.trans hc, .refl _⟩
  | join => exact ⟨hc, .refl _⟩
  | hear m =>
    have hopen : x.session.open? = false := by simp [Session.open?, hc]
    simp only [step, hopen, Bool.false_eq_true, if_false]
    exact ⟨hc, .refl _⟩
  | answer call now =>
    simp only [step]
    split
    · exact ⟨hc, .refl _⟩
    · exact ⟨(Session.talks_answer _ _ _ _ _).claimed.trans hc, List.eraseIdx_sublist _ _⟩
  | close reason => exact ⟨(Session.talks_close _ _).claimed.trans hc, .refl _⟩
  | work =>
    simp only [step]
    split
    · exact ⟨hc, .refl _⟩
    · rename_i turn hturn
      exact ⟨(Session.workKeeps_workStep hturn).claimed.trans hc, .refl _⟩
  | claim now =>
    rw [step_claim]
    split
    · exact ⟨rfl, .refl _⟩
    · exact ⟨hc, .refl _⟩
  | follow =>
    simp only [step, follow]
    split
    · exact ⟨hc, .refl _⟩
    · exact ⟨hc, .refl _⟩
    · exact ⟨hc, .refl _⟩
    · split <;> exact ⟨hc, .refl _⟩
    · exact ⟨(Session.talks_close _ _).claimed.trans hc, .refl _⟩
  | call c => exact ⟨hc, .refl _⟩

theorem deaf_run (hc : x.session.pingClaimed = true) (moves : List (Move L)) :
    (x.run moves).heard.Sublist x.heard := by
  induction moves generalizing x with
  | nil => exact .refl _
  | cons v moves ih =>
    obtain ⟨hc', hsub⟩ := deaf_step hc v
    exact (ih hc').trans hsub

/-- Without a call under way nothing is accepted after a claim. -/
theorem accepted_eq_nil (hc : x.session.pingClaimed = true) (hh : x.heard = [])
    (moves : List (Move L)) : x.accepted moves = [] := by
  induction moves generalizing x with
  | nil => rfl
  | cons v moves ih =>
    obtain ⟨hc', hsub⟩ := deaf_step hc v
    have hnone : x.accepts v = none := by
      cases v with
      | answer call now => simp [accepts, hh]
      | _ => rfl
    rw [accepted, hnone, ih hc' (List.sublist_nil.1 (hh ▸ hsub))]
    rfl

end Scene

/-! ## The main statement -/

/-- **What a safety stop of a session in `f` does**, with the targets `os`. -/
structure StopsCommanded [Link L] (s : Session) (f : Fleet L) (os : List (Online L)) : Prop where
  /-- The targets are the devices on record that are connected; an index that no
  device ever had, or whose device was removed, is passed over. -/
  targets : ∀ i, i ∈ os.map Online.index ↔
    i ∈ s.commanded.map UInt32.toNat ∧ f.connected i = true
  ascending : (os.map Online.index).Pairwise (· < ·)
  /-- Each is stopped, with all of its stop writes, and nothing else happens. -/
  passes : f.Passes {} (s.safetyStop f) os
  handed : ∀ o ∈ os, handed (Fleet.trafficOn o.id o.trace) = o.device.protocol.stopFrames
  attempted : (s.safetyStop f).answer.attempted = os.length
  /-- **No other connected device is touched**, nor its link if it has one of its own. -/
  others : f.LinksApart → ∀ i d id, i ∉ s.commanded.map UInt32.toNat →
    f.devices[i]? = some d → d.link = some id →
      (s.safetyStop f).fleet.devices[i]? = some d ∧
      (s.safetyStop f).fleet.links[id]? = f.links[id]? ∧
      Fleet.trafficOn id (s.safetyStop f).trace = []

theorem stopsCommanded [Link L] {s : Session} {f : Fleet L} (hf : f.Sound)
    (hs : s.terms.stopScope = .session) : ∃ os, StopsCommanded s f os := by
  have hmem : ∀ i, i ∈ s.stopTargets f ↔
      i ∈ s.commanded.map UInt32.toNat ∧ f.connected i = true := by
    intro i
    rw [Session.stopTargets_of_session hs, Fleet.among, List.mem_filter,
      Fleet.mem_connectedIndices, decide_eq_true_eq, and_comm]
  have hasc : (s.stopTargets f).Pairwise (· < ·) := by
    rw [Session.stopTargets_of_session hs]
    exact (Fleet.pairwise_connectedIndices f).filter _
  obtain ⟨os, hos, hp⟩ := Fleet.sweep_passes hf (hasc.imp Nat.ne_of_lt)
    (fun i hi => ((hmem i).1 hi).2) {}
  refine ⟨os, fun i => by rw [hos]; exact hmem i, by rw [hos]; exact hasc, hp,
    fun o _ => Fleet.handed_trace o, hp.adds.attempted.trans (Nat.zero_add _),
    fun ha i d id hi hd hl => ?_⟩
  have hindex : i ∉ os.map Online.index := fun h => hi ((hmem i).1 (hos ▸ h)).1
  have hid : id ∉ os.map Online.id := by
    intro h
    obtain ⟨o, ho, rfl⟩ := List.mem_map.1 h
    obtain ⟨hod, -, hol⟩ := hp.present o ho
    rw [ha.index_eq hd hod hl hol] at hindex
    exact hindex (List.mem_map_of_mem ho)
  exact ⟨(hp.devices i hindex).trans hd, hp.links id hid, by
    rw [Session.safetyStop, hp.trace, Fleet.trafficOn_flatMap_of_not_mem hid]⟩

namespace Scene

variable [Link L]

/-- **What a session has on record as commanded after some moves, and what its
safety stop does then.** -/
structure Covers (start : Scene L) (moves : List (Move L)) : Prop where
  /-- The record is exactly what was accepted so far. -/
  exact : ∀ d, d ∈ (start.run moves).session.commanded ↔ d ∈ start.accepted moves
  /-- A command is accepted exactly if it enters the queue of the worker with its answer. -/
  queued : ∀ call now m phase, (start.run moves).heard[call]? = some (m, phase) → ∀ d,
    (start.run moves).accepts (.answer call now) = some d ↔
      ∃ c, ((start.run moves).step (.answer call now)).session.work =
        (start.run moves).session.work ++ [⟨m.id, .command d c⟩]
  /-- A message with id 0 or with an id in use is not. -/
  refused : ∀ call now m phase, (start.run moves).heard[call]? = some (m, phase) →
    m.id = 0 ∨ m.id ∈ (start.run moves).session.outstanding →
      (start.run moves).accepts (.answer call now) = none
  /-- A message that comes after a claim is not heard, so the record does not change
  any more once the calls under way are answered. -/
  late : (start.run moves).session.pingClaimed = true → ∀ more,
    ((start.run moves).run more).heard.Sublist (start.run moves).heard ∧
      ((start.run moves).heard = [] → ∀ d,
        d ∈ ((start.run moves).run more).session.commanded ↔
          d ∈ (start.run moves).session.commanded)
  /-- Every device that the worker has dispatched a command to is on record. -/
  dispatched : ∀ w d c, ran w ∈ (start.run moves).log → w.task = .command d c →
    d ∈ (start.run moves).session.commanded
  /-- So are the targets of every safety stop that is under way. -/
  watchdog : ∀ sweep, (start.run moves).watch = .stopping sweep →
    ∀ i ∈ sweep.targets, i ∈ (start.run moves).session.commanded.map UInt32.toNat
  worker : ∀ w result sweep, (start.run moves).session.stage = .restopping w result sweep →
    ∀ i ∈ sweep.targets, i ∈ (start.run moves).session.commanded.map UInt32.toNat
  /-- **A safety stop now is for every device that was written to and is still
  connected, and for no device that is not on record.** -/
  stop : ∃ os, StopsCommanded (start.run moves).session (start.run moves).fleet os ∧
    ∀ w d c, ran w ∈ (start.run moves).log → w.task = .command d c →
      (start.run moves).fleet.connected d.toNat = true → d.toNat ∈ os.map Online.index

/-- **A stop in the scope of a session covers exactly what the session commanded**, in
every run with whatever happens to the fleet, and with every rulebook. -/
theorem covers_of_run {b : Rulebook} {f : Fleet L} (hf : Fleet.Reached b f) (name : String)
    {terms : Terms} (hscope : terms.stopScope = .session) (t : Time) (moves : List (Move L))
    (hl : (begin name terms t f).Lawful moves) : (begin name terms t f).Covers moves := by
  have hbegin : (begin name terms t f).Recording :=
    ⟨hscope, fun w hw => absurd hw List.not_mem_nil, fun _ hw => (nomatch hw),
      fun _ _ _ hs => (nomatch hs)⟩
  have hrec := hbegin.run (inv_begin name terms t f) moves
  have hsound := sound_run (x := begin name terms t f) hf.sound hl
  obtain ⟨os, hos⟩ := stopsCommanded hsound hrec.scope
  refine ⟨fun d => ?_, fun call now m phase hcall d => ?_, fun call now m phase hcall hid => ?_,
    fun hc more => ⟨deaf_run hc more, fun hh d => ?_⟩,
    fun w d c hw ht => hrec.ran w hw d c ht, hrec.watchdog, hrec.worker, os, hos,
    fun w d c hw ht hconn => ?_⟩
  · rw [mem_commanded_run]
    simp [begin]
  · simp only [accepts, step, hcall, Option.bind_some]
    exact Session.admits_eq_some_iff _ phase m now _ d
  · simp only [accepts, hcall, Option.bind_some]
    exact Session.admits_eq_none hid
  · rw [mem_commanded_run, accepted_eq_nil hc hh]
    simp
  · have hmem := hrec.ran w hw d c ht
    exact (hos.targets d.toNat).2 ⟨List.mem_map_of_mem hmem, hconn⟩

/-- A client commands one of two devices and one that was never there, and falls
silent after its first command was run. -/
def stray : List (Move SimulatedLink) :=
  [.start none, .hear ⟨1, .handshakeRequest "c" 1 1⟩, .answer 0 0,
    .hear ⟨2, .deviceCommand 0 (.actuate .vibrate [{ value := .one }])⟩, .answer 0 10,
    .hear ⟨3, .deviceCommand 7 .stop⟩, .answer 0 20, .work, .work, .work, .claim 2000000,
    .hear ⟨4, .deviceCommand 1 .stop⟩, .answer 0 2000001,
    .call (.register ⟨"sim", "C", "Launch"⟩ [] (some 0))]

/-- Only the first device is stopped. -/
theorem covers_stray :
    (begin "client" { stopScope := .session } 0 Fleet.pair).Covers stray ∧
      ((begin "client" { stopScope := .session } 0 Fleet.pair).run stray).session.commanded =
        [0, 7] ∧
      ((begin "client" { stopScope := .session } 0 Fleet.pair).run stray).session.stopTargets
        ((begin "client" { stopScope := .session } 0 Fleet.pair).run stray).fleet = [0] := by
  have hpair : Fleet.Reached .builtin Fleet.pair :=
    .call (.call (.call (.call .start trivial) Nat.zero_lt_one) trivial) Nat.one_lt_two
  refine ⟨covers_of_run hpair "client" rfl 0 stray ?_, by decide +kernel, by decide +kernel⟩
  -- the last of the moves is the only call
  repeat' first | exact trivial | refine And.intro (fun c hc => ?_) ?_ | cases hc
  exact (by decide +kernel : 0 < 2)

end Scene

end Haptics
