import Haptics.Link.Simulated
import Haptics.Proofs.Fleet.StopSweep
import Haptics.Proofs.Session.Scene
/-!
# The last stop

After a claimed silence the stop is the last thing a session does to a device.
`Scene.Inv` is kept by every step of everyone who takes part: a connected device
that was commanded and not stopped since is still to be stopped, by the watchdog
or by the worker. So once both have finished there is no such device:
`last_stop`. Nor is any task run that was not wanted any more when it was
checked. That a stop is on record means that it was carried out, with the stop
writes that the device still has (`Scene.Handed`).
-/

namespace Haptics

open Deed

variable {L : Type}

/-! ## Safety stops -/

/-- **A safety stop is for every connected device that is on record**, in either
scope. -/
theorem Session.mem_stopTargets {s : Session} {f : Fleet L} {i : Nat}
    (hc : f.connected i = true) (hi : i ∈ s.commanded.map UInt32.toNat) :
    i ∈ s.stopTargets f := by
  unfold Session.stopTargets
  split
  · exact Fleet.mem_connectedIndices.2 hc
  · rw [Fleet.among, List.mem_filter]
    exact ⟨Fleet.mem_connectedIndices.2 hc, decide_eq_true hi⟩

/-- All that happened is the stop of a device: all its stop writes were handed to its link,
in order, and no other link was touched. -/
def Device.StoppedBy (d : Device) (trace : List Happening) : Prop :=
  ∃ id, d.link = some id ∧ handed (Fleet.trafficOn id trace) = d.protocol.stopFrames ∧
    ∀ id', id' ≠ id → Fleet.trafficOn id' trace = []

/-- A device that is still connected has the link and the stop writes that it had. -/
theorem Device.StoppedBy.becomes {d d' : Device} {trace : List Happening}
    (h : d.StoppedBy trace) (hb : d.Becomes d') (hc : d'.connected = true) :
    d'.StoppedBy trace := by
  obtain ⟨id, hl, hhanded, hothers⟩ := h
  exact ⟨id, (hb.connected hc).2.trans hl, hhanded.trans hb.alike.stopFrames.symm, hothers⟩

/-- **The stop of a target of a sweep is carried out**, whatever its link makes of it. -/
theorem Fleet.stoppedBy_stopOne [Link L] {f : Fleet L} (hs : f.Sound) {i : Nat} {d : Device}
    (hd : f.devices[i]? = some d) (hc : d.connected = true) (r : StopReport) :
    d.StoppedBy (f.stopOne r i).trace := by
  obtain ⟨id, hlt, hl⟩ := hs.linked hd hc
  let o : Online L := ⟨i, d, id, f.links[id]⟩
  have ho : f.Holds o := ⟨hd, hc, hl, List.getElem?_eq_getElem hlt⟩
  obtain ⟨-, htrace, -⟩ := Fleet.stopOne_online hs ho r
  rw [htrace]
  exact ⟨id, hl, Fleet.handed_trace o, fun id' hne => Fleet.trafficOn_trace_ne (Ne.symm hne)⟩

namespace Scene

/-! ## The invariant -/

/-- The watchdog will stop a device, if only there is a claim. -/
def WatchStops (watch : Watch) (i : Nat) : Prop :=
  watch = .watching ∨ watch = .claimed ∨ ∃ sweep, watch = .stopping sweep ∧ i ∈ sweep.targets

/-- The worker will stop a device after its task. -/
def WorkerStops (s : Session) (i : Nat) : Prop :=
  (s.pingClaimed = true ∧ ∃ w result, s.stage = .executed w result) ∨
    ∃ w result sweep, s.stage = .restopping w result sweep ∧ i ∈ sweep.targets

/-- The task that a worker is about to run. -/
def ahead : Stage → Option Work
  | .taken w | .cleared w => some w
  | _ => none

/-- **What every step keeps.** -/
structure Inv (x : Scene L) : Prop where
  /-- The silence is claimed once the watchdog has begun. -/
  claimed_iff : x.session.pingClaimed = true ↔ x.watch ≠ .watching
  claimed_log : claimed ∈ x.log → x.session.pingClaimed = true
  /-- Work that waits and work that is about to be run is on record, and so is
  every device that was commanded. -/
  work : ∀ w ∈ x.session.work, x.session.Recorded w
  ahead : ∀ w, ahead x.session.stage = some w → x.session.Recorded w
  commanded : ∀ i trace, commanded i trace ∈ x.log →
    i < x.fleet.devices.length ∧ i ∈ x.session.commanded.map UInt32.toNat
  /-- Tasks are run after their check only. -/
  cleared : ∀ w, x.session.stage = .cleared w → Passed x.log w
  gated : Gated x.log
  /-- **Whatever is owed will be done.** -/
  covered : ∀ i, x.fleet.connected i = true → Owes x.log i →
    WatchStops x.watch i ∨ WorkerStops x.session i

/-- A fresh session, with any fleet. -/
def begin (name : String) (terms : Terms) (t : Time) (f : Fleet L) : Scene L :=
  { session := { name, terms, lastActivity := t }, fleet := f }

theorem inv_begin (name : String) (terms : Terms) (t : Time) (f : Fleet L) :
    (begin name terms t f).Inv where
  claimed_iff := by simp [begin]
  claimed_log h := by simp [begin] at h
  work w hw := by simp [begin] at hw
  ahead w hw := by simp [begin, Scene.ahead] at hw
  commanded i trace hi := by simp [begin] at hi
  cleared w hw := by simp [begin] at hw
  gated pre w post h := by simp [begin] at h
  covered i _ ho := by
    obtain ⟨trace, hmem⟩ := ho.mem
    simp [begin] at hmem

variable {x : Scene L}

/-- A stop is owed only to devices that there are, and that are on record. -/
theorem Inv.owed (h : x.Inv) {i : Nat} (ho : Owes x.log i) :
    i < x.fleet.devices.length ∧ i ∈ x.session.commanded.map UInt32.toNat := by
  obtain ⟨trace, hmem⟩ := ho.mem
  exact h.commanded i trace hmem

/-- **Talk keeps the invariant**: it changes neither the log nor what anyone is at. -/
theorem Inv.talk (h : x.Inv) {s : Session} (ht : x.session.Talks s)
    (heard : List (Message × Phase)) : ({ x with session := s, heard } : Scene L).Inv where
  claimed_iff := by
    rw [← h.claimed_iff, ← ht.claimed]
  claimed_log hmem := ht.claimed.trans (h.claimed_log hmem)
  work w hw := by
    rcases ht.work w hw with hw | hw
    · exact (h.work w hw).mono ht.commanded
    · exact hw
  ahead w hw := (h.ahead w (ht.stage ▸ hw)).mono ht.commanded
  commanded i trace hi := by
    obtain ⟨hlt, hmem⟩ := h.commanded i trace hi
    obtain ⟨d, hd, rfl⟩ := List.mem_map.1 hmem
    exact ⟨hlt, List.mem_map_of_mem (ht.commanded d hd)⟩
  cleared w hw := h.cleared w (ht.stage ▸ hw)
  gated := h.gated
  covered i hc ho := by
    rcases h.covered i hc ho with hcov | hcov
    · exact Or.inl hcov
    · right
      unfold WorkerStops at hcov ⊢
      rw [ht.claimed, ht.stage]
      exact hcov

/-- **Whatever happens to the fleet keeps the invariant**: a device that is
connected was so before. -/
theorem Inv.evolve (h : x.Inv) {f : Fleet L} (he : x.fleet.Evolves f) :
    ({ x with fleet := f } : Scene L).Inv where
  claimed_iff := h.claimed_iff
  claimed_log := h.claimed_log
  work := h.work
  ahead := h.ahead
  commanded i trace hi := by
    obtain ⟨hlt, hmem⟩ := h.commanded i trace hi
    exact ⟨Nat.lt_of_lt_of_le hlt he.length_le, hmem⟩
  cleared := h.cleared
  gated := h.gated
  covered i hc ho := h.covered i (he.connected (h.owed ho).1 hc) ho

/-- What happened has no bearing on the invariant. -/
theorem Inv.happen (h : x.Inv) (happened : List Happening) :
    ({ x with happened } : Scene L).Inv :=
  ⟨h.claimed_iff, h.claimed_log, h.work, h.ahead, h.commanded, h.cleared, h.gated, h.covered⟩

/-- Deeds other than commands and claims keep the invariant. A task is put on
record as run after its check, and no check is made while a task is about to be
run. -/
theorem Inv.record (h : x.Inv) {deeds : List Deed} (hcom : ∀ i trace, .commanded i trace ∉ deeds)
    (hclaimed : .claimed ∉ deeds)
    (hran : ∀ pre w post, deeds = pre ++ ran w :: post → Passed (x.log ++ pre) w)
    (hchecked : ∀ w, x.session.stage = .cleared w → ∀ v ok, checked v ok ∉ deeds) :
    ({ x with log := x.log ++ deeds } : Scene L).Inv where
  claimed_iff := h.claimed_iff
  claimed_log hmem := by
    rcases List.mem_append.1 hmem with hmem | hmem
    · exact h.claimed_log hmem
    · exact absurd hmem hclaimed
  work := h.work
  ahead := h.ahead
  commanded i trace hi := by
    rcases List.mem_append.1 hi with hi | hi
    · exact h.commanded i trace hi
    · exact absurd hi (hcom i trace)
  cleared w hw := (h.cleared w hw).append (hchecked w hw)
  gated := h.gated.append hran
  covered i hc ho := by
    rcases owes_append ho with ⟨trace, hmem⟩ | ⟨ho, -⟩
    · exact absurd hmem (hcom i trace)
    · exact h.covered i hc ho

/-- **A step of the worker or of the watchdog from one stage to the next keeps
the invariant**, if no stop that is still owed gets lost with it. -/
theorem Inv.shift (h : x.Inv) {stage : Stage} {watch : Watch}
    (hwatch : watch = .watching ↔ x.watch = .watching)
    (hahead : ∀ w, Scene.ahead stage = some w → x.session.Recorded w)
    (hcleared : ∀ w, stage = .cleared w → Passed x.log w)
    (hcovered : ∀ i, x.fleet.connected i = true → Owes x.log i →
      WatchStops x.watch i ∨ WorkerStops x.session i →
        WatchStops watch i ∨ WorkerStops { x.session with stage } i) :
    ({ x with session := { x.session with stage }, watch } : Scene L).Inv where
  claimed_iff := h.claimed_iff.trans (not_congr hwatch.symm)
  claimed_log := h.claimed_log
  work := h.work
  ahead := hahead
  commanded := h.commanded
  cleared := hcleared
  gated := h.gated
  covered i hc ho := hcovered i hc ho (h.covered i hc ho)

/-- **A command that was run will be followed by a stop**: by that of the worker
if the silence is claimed, and by that of the watchdog if it is ever claimed. -/
theorem Inv.command (h : x.Inv) {w : Work} {result : Payload} {i : Nat}
    (hstage : x.session.stage = .executed w result) (hlt : i < x.fleet.devices.length)
    (hi : i ∈ x.session.commanded.map UInt32.toNat) (trace : List Happening) :
    ({ x with log := x.log ++ [.commanded i trace] } : Scene L).Inv where
  claimed_iff := h.claimed_iff
  claimed_log hmem := h.claimed_log (by simpa using hmem)
  work := h.work
  ahead := h.ahead
  commanded j trace hj := by
    rcases List.mem_append.1 hj with hj | hj
    · exact h.commanded j trace hj
    · cases List.mem_singleton.1 hj
      exact ⟨hlt, hi⟩
  cleared v hv := by
    rw [hstage] at hv
    cases hv
  gated := h.gated.append_of_not_mem (by simp)
  covered j hc ho := by
    rcases owes_append ho with hmem | ⟨ho, -⟩
    · -- with a claim the worker sees it before it replies, and without one the watchdog is still
      -- to make it
      by_cases hclaimed : x.session.pingClaimed = true
      · exact Or.inr (Or.inl ⟨hclaimed, w, result, hstage⟩)
      · exact Or.inl (Or.inl (Decidable.of_not_not (mt h.claimed_iff.2 hclaimed)))
    · exact h.covered j hc ho

/-! ## Stages of the worker -/

/-- The worker takes a task from the queue. -/
theorem Inv.take (h : x.Inv) {w : Work} {rest : List Work} (hstage : x.session.stage = .idle)
    (hwork : x.session.work = w :: rest) :
    ({ x with session := { x.session with work := rest, stage := .taken w } } : Scene L).Inv := by
  have hsub : ∀ v ∈ rest, v ∈ x.session.work := fun v hv => hwork ▸ List.mem_cons_of_mem w hv
  have htalk : x.session.Talks { x.session with work := rest } :=
    ⟨rfl, rfl, rfl, fun _ hd => hd, fun v hv => Or.inl (hsub v hv)⟩
  refine (h.talk htalk x.heard).shift Iff.rfl (fun v hv => ?_) (fun v hv => ?_)
    fun i hc ho hcov => ?_
  · cases hv
    exact h.work w (hwork ▸ List.mem_cons_self)
  · cases hv
  · rcases hcov with hcov | hcov
    · exact Or.inl hcov
    · simp [WorkerStops, hstage] at hcov

/-- The worker checks whether its task is still wanted. After a claim it is not. -/
theorem Inv.check (h : x.Inv) {w : Work} (hstage : x.session.stage = .taken w) (ok : Bool)
    (hok : ok = true → x.session.pingClaimed = false) :
    ({ x with session := { x.session with stage := if ok then .cleared w else .idle },
              log := x.log ++ [checked w ok] } : Scene L).Inv := by
  have hrecord : ({ x with log := x.log ++ [checked w ok] } : Scene L).Inv := by
    refine h.record (by simp) (by simp) (fun pre v post heq => ?_) (fun v hv => ?_)
    · cases pre with
      | nil => cases heq
      | cons d pre => simp at heq
    · rw [hstage] at hv
      cases hv
  refine hrecord.shift Iff.rfl (fun v hv => ?_) (fun v hv => ?_) fun i hc ho hcov => ?_
  · split at hv
    · cases hv
      exact h.ahead w (by rw [hstage]; rfl)
    · cases hv
  · split at hv
    · rename_i hwanted
      cases hv
      -- the check passed, so there was no claim
      have hunclaimed : claimed ∉ x.log := by
        intro hmem
        have htrue := h.claimed_log hmem
        rw [hok hwanted] at htrue
        cases htrue
      rw [hwanted]
      exact ⟨x.log, [], rfl, hunclaimed, fun _ _ => List.not_mem_nil⟩
    · cases hv
  · rcases hcov with hcov | hcov
    · exact Or.inl hcov
    · simp [WorkerStops, hstage] at hcov

/-- The worker runs a task that has passed its check. -/
theorem Inv.run (h : x.Inv) {w : Work} {stage : Stage} (hstage : x.session.stage = .cleared w)
    (hahead : Scene.ahead stage = none) :
    ({ x with session := { x.session with stage }, log := x.log ++ [ran w] } : Scene L).Inv := by
  have hrecord : ({ x with log := x.log ++ [ran w] } : Scene L).Inv := by
    refine h.record (by simp) (by simp) (fun pre v post heq => ?_) (fun v hv => by simp)
    cases pre with
    | nil =>
      cases heq
      rw [List.append_nil]
      exact h.cleared w hstage
    | cons d pre => simp at heq
  refine hrecord.shift Iff.rfl (fun v hv => ?_) (fun v hv => ?_) fun i hc ho hcov => ?_
  · rw [hahead] at hv
    cases hv
  · subst hv
    cases hahead
  · rcases hcov with hcov | hcov
    · exact Or.inl hcov
    · simp [WorkerStops, hstage] at hcov

/-- The worker goes on to a stage without a task ahead. -/
theorem Inv.turn (h : x.Inv) {stage : Stage} (hahead : Scene.ahead stage = none)
    (hcovered : ∀ i, x.fleet.connected i = true → Owes x.log i → WorkerStops x.session i →
      WatchStops x.watch i ∨ WorkerStops { x.session with stage } i) :
    ({ x with session := { x.session with stage } } : Scene L).Inv := by
  refine h.shift Iff.rfl (fun v hv => ?_) (fun v hv => ?_) fun i hc ho hcov => ?_
  · rw [hahead] at hv
    cases hv
  · subst hv
    cases hahead
  · rcases hcov with hcov | hcov
    · exact Or.inl hcov
    · exact hcovered i hc ho hcov

/-- A worker on its second stop will stop the targets that are left. -/
theorem workerStops_restopping {s : Session} {w : Work} {result : Payload} {sweep : Sweep}
    (hstage : s.stage = .restopping w result sweep) (i : Nat) :
    WorkerStops s i ↔ i ∈ sweep.targets := by
  constructor
  · rintro (⟨-, v, r, hstage'⟩ | ⟨v, r, sweep', hstage', hmem⟩)
    · rw [hstage] at hstage'
      cases hstage'
    · rw [hstage] at hstage'
      cases hstage'
      exact hmem
  · exact fun hmem => Or.inr ⟨w, result, sweep, hstage, hmem⟩

/-- Once the watchdog has followed a claim up and the worker is at rest, nothing is owed. -/
theorem Inv.settled (h : x.Inv) (hdone : x.watch = .done) (hidle : x.session.stage = .idle)
    {i : Nat} (hc : x.fleet.connected i = true) : ¬ Owes x.log i := by
  intro ho
  rcases h.covered i hc ho with hcov | hcov
  · simp [WatchStops, hdone] at hcov
  · simp [WorkerStops, hidle] at hcov

variable [Link L]

/-! ## Sweeps -/

/-- **One target of a sweep**: once it is stopped, what is still owed is owed to
others. -/
theorem Inv.stop (h : x.Inv) {sweep : Sweep} {i : Nat} {rest : List Nat}
    (ht : sweep.targets = i :: rest) :
    ({ x with fleet := (x.fleet.stopOne sweep.report i).fleet,
              log := x.log ++ x.fleet.stopDeeds sweep } : Scene L).Inv ∧
      ∀ j, (x.fleet.stopOne sweep.report i).fleet.connected j = true →
        Owes (x.log ++ x.fleet.stopDeeds sweep) j → j ≠ i := by
  have hev := (Fleet.updates_stopOne x.fleet sweep.report i).evolves
  -- all that is put on record are stops
  have hstops {d : Deed} (hd : d ∈ x.fleet.stopDeeds sweep) : ∃ j trace, d = stopped j trace := by
    obtain ⟨j, r, heq, -⟩ := Fleet.mem_stopDeeds hd
    exact ⟨j, _, heq⟩
  have hrecord : ({ x with log := x.log ++ x.fleet.stopDeeds sweep } : Scene L).Inv := by
    refine h.record (fun j trace hj => ?_) (fun hj => ?_) (fun pre w post heq => ?_)
      (fun w _ v ok hj => ?_)
    · obtain ⟨k, _, hk⟩ := hstops hj
      cases hk
    · obtain ⟨k, _, hk⟩ := hstops hj
      cases hk
    · have hj : ran w ∈ x.fleet.stopDeeds sweep := by rw [heq]; simp
      obtain ⟨k, _, hk⟩ := hstops hj
      cases hk
    · obtain ⟨k, _, hk⟩ := hstops hj
      cases hk
  refine ⟨hrecord.evolve hev, fun j hc ho hji => ?_⟩
  -- a target that is still connected was connected, so its stop is on record
  have hconn := hev.connected (hrecord.owed ho).1 hc
  rcases owes_append ho with ⟨trace, hmem⟩ | ⟨-, hno⟩
  · obtain ⟨k, _, hk⟩ := hstops hmem
    cases hk
  · rw [x.fleet.stopDeeds_cons ht, ← hji, if_pos hconn] at hno
    exact hno _ List.mem_cons_self

/-! ## The watchdog -/

/-- **A claim leaves everything to the watchdog.** -/
theorem Inv.claim (h : x.Inv) (now : Time) : (x.step (.claim now)).Inv := by
  rw [step_claim]
  split
  · refine ⟨by simp, fun _ => rfl, h.work, h.ahead, fun i trace hi => ?_, fun w hw => ?_, ?_, ?_⟩
    · exact h.commanded i trace (by simpa using hi)
    · exact (h.cleared w hw).append (by simp)
    · exact h.gated.append_of_not_mem (by simp)
    · exact fun i _ _ => Or.inl (Or.inr (Or.inl rfl))
  · exact h

/-- **A step of the watchdog keeps the invariant.** -/
theorem Inv.follow (h : x.Inv) : x.follow.Inv := by
  unfold Scene.follow
  split
  · exact h
  · exact h
  · rename_i hw
    -- what the claim has left to the watchdog becomes a target of its stop
    refine h.shift (by simp [hw]) h.ahead h.cleared fun i hc ho _ => ?_
    have hmem := Session.mem_stopTargets hc (h.owed ho).2
    exact Or.inl (Or.inr (Or.inr ⟨_, rfl, hmem⟩))
  · rename_i sweep hw
    split
    · rename_i hnil
      refine h.shift (by simp [hw]) h.ahead h.cleared fun i hc ho hcov => ?_
      rcases hcov with hcov | hcov
      · simp [WatchStops, hw, hnil] at hcov
      · exact Or.inr hcov
    · rename_i i rest hcons
      obtain ⟨hstop, hne⟩ := h.stop hcons
      refine Inv.happen (hstop.shift (by simp [hw]) h.ahead hstop.cleared fun j hc ho hcov => ?_) _
      -- the device that was stopped is owed nothing more, and the others are targets still
      rcases hcov with hcov | hcov
      · simp only [WatchStops, hw, hcons, reduceCtorEq, false_or, Watch.stopping.injEq,
          exists_eq_left', List.mem_cons] at hcov
        refine Or.inl (Or.inr (Or.inr ⟨_, rfl, ?_⟩))
        exact hcov.resolve_left (hne j hc ho)
      · exact Or.inr hcov
  · rename_i hw
    have hclosed := h.talk (Session.talks_close x.session .pingTimeout) x.heard
    refine hclosed.shift (by simp [hw]) hclosed.ahead hclosed.cleared fun i hc ho hcov => ?_
    rcases hcov with hcov | hcov
    · simp [WatchStops, hw] at hcov
    · exact Or.inr hcov

/-! ## The worker -/

/-- The worker runs a command. -/
theorem Inv.dispatch (h : x.Inv) {w : Work} {device : UInt32} {c : Command} {result : Payload}
    (hstage : x.session.stage = .cleared w) (htask : w.task = .command device c) :
    ({ x with
        session := { x.session with stage := .executed w result }
        fleet := (x.fleet.dispatch device.toNat c).fleet
        log := x.log ++ ran w ::
          if x.fleet.connected device.toNat then
            [.commanded device.toNat (x.fleet.dispatch device.toNat c).trace]
          else [] } : Scene L).Inv := by
  have hrun : ({ x with session := { x.session with stage := .executed w result },
                        log := x.log ++ [ran w] } : Scene L).Inv := h.run hstage rfl
  have hev := (Fleet.updates_dispatch x.fleet device.toNat c).evolves
  by_cases hc : x.fleet.connected device.toNat = true
  · -- the device was put on record when the task was accepted
    have hmem := h.ahead w (by rw [hstage]; rfl) device c htask
    have hcommand := hrun.command rfl (Fleet.lt_of_connected hc) (List.mem_map_of_mem hmem)
      (x.fleet.dispatch device.toNat c).trace
    have hdone := hcommand.evolve hev
    simp only [List.append_assoc, List.singleton_append] at hdone
    rw [if_pos hc]
    exact hdone
  · rw [if_neg hc]
    exact hrun.evolve hev

/-- The scene after a step of the worker, but for what happened. -/
def worked (x : Scene L) (turn : Session.Turn L) : Scene L :=
  { x with session := turn.session, fleet := turn.fleet,
           log := x.log ++ x.session.workDeeds x.fleet }

section

variable {turn : Session.Turn L} {w : Work} {result : Payload} {sweep : Sweep}

theorem Inv.worked_idle (h : x.Inv) (hstage : x.session.stage = .idle)
    (hturn : x.session.workStep x.fleet = some turn) : (x.worked turn).Inv := by
  simp only [Session.workStep, hstage] at hturn
  simp only [worked, Session.workDeeds, hstage, List.append_nil]
  split at hturn
  · split at hturn
    · cases hturn
    · rename_i w rest hwork
      cases hturn
      exact h.take hstage hwork
  · cases hturn

theorem Inv.worked_taken (h : x.Inv) (hstage : x.session.stage = .taken w)
    (hturn : x.session.workStep x.fleet = some turn) : (x.worked turn).Inv := by
  simp only [Session.workStep, hstage] at hturn
  simp only [worked, Session.workDeeds, hstage]
  split at hturn
  · rename_i hok
    cases hturn
    rw [decide_eq_true hok]
    exact h.check hstage true fun _ => hok.2
  · rename_i hok
    cases hturn
    rw [decide_eq_false hok]
    exact h.check hstage false fun hfalse => by cases hfalse

theorem Inv.worked_cleared (h : x.Inv) (hstage : x.session.stage = .cleared w)
    (hturn : x.session.workStep x.fleet = some turn) : (x.worked turn).Inv := by
  simp only [Session.workStep, hstage] at hturn
  simp only [worked, Session.workDeeds, hstage]
  cases htask : w.task with
  | command device c =>
    simp only [htask] at hturn
    cases hturn
    exact h.dispatch hstage htask
  | stopAll =>
    simp only [htask] at hturn
    cases hturn
    exact h.run hstage rfl

theorem Inv.worked_sweeping (h : x.Inv) (hstage : x.session.stage = .sweeping w sweep)
    (hturn : x.session.workStep x.fleet = some turn) : (x.worked turn).Inv := by
  simp only [Session.workStep, hstage] at hturn
  simp only [worked, Session.workDeeds, hstage]
  split at hturn
  · rename_i hnil
    cases hturn
    rw [x.fleet.stopDeeds_nil hnil, List.append_nil]
    refine h.turn rfl fun i hc ho hcov => ?_
    simp [WorkerStops, hstage] at hcov
  · rename_i i rest hcons
    cases hturn
    refine (h.stop hcons).1.turn rfl fun j hc ho hcov => ?_
    simp [WorkerStops, hstage] at hcov

/-- **A task that was overtaken by a claim is followed by one more stop**, of
everything that is still owed. -/
theorem Inv.worked_executed (h : x.Inv) (hstage : x.session.stage = .executed w result)
    (hturn : x.session.workStep x.fleet = some turn) : (x.worked turn).Inv := by
  simp only [Session.workStep, hstage] at hturn
  simp only [worked, Session.workDeeds, hstage, List.append_nil]
  split at hturn
  · cases hturn
    -- whatever the worker owes becomes a target of its stop
    refine h.turn rfl fun i hc ho _ => ?_
    have hmem := Session.mem_stopTargets hc (h.owed ho).2
    exact Or.inr (Or.inr ⟨_, _, _, rfl, hmem⟩)
  · rename_i hclaimed
    cases hturn
    refine h.turn rfl fun i hc ho hcov => ?_
    simp [WorkerStops, hstage, hclaimed] at hcov

theorem Inv.worked_restopping (h : x.Inv)
    (hstage : x.session.stage = .restopping w result sweep)
    (hturn : x.session.workStep x.fleet = some turn) : (x.worked turn).Inv := by
  simp only [Session.workStep, hstage] at hturn
  simp only [worked, Session.workDeeds, hstage]
  split at hturn
  · rename_i hnil
    cases hturn
    rw [x.fleet.stopDeeds_nil hnil, List.append_nil]
    refine h.turn rfl fun i hc ho hcov => ?_
    rw [workerStops_restopping hstage, hnil] at hcov
    exact absurd hcov List.not_mem_nil
  · rename_i i rest hcons
    cases hturn
    obtain ⟨hstop, hne⟩ := h.stop hcons
    -- the target that was stopped is owed no longer, the others are targets still
    refine hstop.turn rfl fun j hc ho hcov => Or.inr ?_
    rw [workerStops_restopping hstage, hcons, List.mem_cons] at hcov
    exact (workerStops_restopping rfl j).2 (hcov.resolve_left (hne j hc ho))

theorem Inv.worked_settled (h : x.Inv) (hstage : x.session.stage = .settled w result)
    (hturn : x.session.workStep x.fleet = some turn) : (x.worked turn).Inv := by
  simp only [Session.workStep, hstage] at hturn
  simp only [worked, Session.workDeeds, hstage, List.append_nil]
  cases hturn
  have hreply := Session.talks_reply x.session w.id result
  refine (h.talk hreply x.heard).turn rfl fun i hc ho hcov => ?_
  have hstage' := hreply.stage
  simp [WorkerStops, hstage', hstage] at hcov

end

/-- **A step of the worker keeps the invariant.** -/
theorem Inv.worker (h : x.Inv) : (x.step .work).Inv := by
  simp only [step]
  split
  · exact h
  · rename_i turn hturn
    cases hstage : x.session.stage with
    | idle => exact (h.worked_idle hstage hturn).happen _
    | taken w => exact (h.worked_taken hstage hturn).happen _
    | cleared w => exact (h.worked_cleared hstage hturn).happen _
    | sweeping w sweep => exact (h.worked_sweeping hstage hturn).happen _
    | executed w result => exact (h.worked_executed hstage hturn).happen _
    | restopping w result sweep => exact (h.worked_restopping hstage hturn).happen _
    | settled w result => exact (h.worked_settled hstage hturn).happen _

/-! ## Whole runs -/

/-- **Every step keeps the invariant.** -/
theorem Inv.step (h : x.Inv) (m : Move L) : (x.step m).Inv := by
  cases m with
  | start emitter => exact h.talk (Session.talks_start x.session emitter) x.heard
  | join => exact h.talk (Session.talks_join x.session none) x.heard
  | hear m =>
    simp only [Scene.step]
    split
    · exact h.talk (Session.Talks.refl x.session) _
    · exact h
  | answer call now =>
    simp only [Scene.step]
    split
    · exact h
    · exact h.talk (Session.talks_answer x.session _ _ now _) _
  | close reason => exact h.talk (Session.talks_close x.session reason) x.heard
  | work => exact h.worker
  | claim now => exact h.claim now
  | follow => exact h.follow
  | call c => exact h.evolve (Fleet.evolves_after x.fleet c)

theorem Inv.run_moves (h : x.Inv) (moves : List (Move L)) : (x.run moves).Inv := by
  induction moves generalizing x with
  | nil => exact h
  | cons m moves ih => exact ih (h.step m)

/-! ## Stops and the stop writes -/

/-- **Every stop on record of a device that is still connected was carried out.** -/
def Handed (x : Scene L) : Prop :=
  ∀ i trace, stopped i trace ∈ x.log → i < x.fleet.devices.length ∧
    ∀ d, x.fleet.devices[i]? = some d → d.connected = true → d.StoppedBy trace

/-- A device that is still connected was so at its stop, and by the same link. So what was
handed to the link then are the stop writes it has now. -/
theorem Handed.step (h : x.Handed) (hs : x.fleet.Sound) (m : Move L) : (x.step m).Handed := by
  obtain ⟨deeds, hdeeds⟩ := x.recounts_step m
  have hev := x.evolves_step m
  -- what holds of a device before the step holds of it afterwards
  have hafter {i : Nat} {trace : List Happening} (hlt : i < x.fleet.devices.length)
      (hbefore : ∀ d, x.fleet.devices[i]? = some d → d.connected = true → d.StoppedBy trace) :
      i < (x.step m).fleet.devices.length ∧
        ∀ d, (x.step m).fleet.devices[i]? = some d → d.connected = true → d.StoppedBy trace := by
    refine ⟨Nat.lt_of_lt_of_le hlt hev.length_le, fun d' hd' hc' => ?_⟩
    obtain ⟨d, hd, hb⟩ := hev.back hlt hd'
    exact (hbefore d hd (hb.connected hc').1).becomes hb hc'
  intro i trace hmem
  rw [hdeeds.log] at hmem
  rcases List.mem_append.1 hmem with hmem | hmem
  · obtain ⟨hlt, hbefore⟩ := h i trace hmem
    exact hafter hlt hbefore
  · obtain ⟨hc, r, rfl⟩ := hdeeds.stops i trace hmem
    exact hafter (Fleet.lt_of_connected hc) fun d hd hc => Fleet.stoppedBy_stopOne hs hd hc r

theorem Handed.run (h : x.Handed) (hs : x.fleet.Sound) {moves : List (Move L)}
    (hl : x.Lawful moves) : (x.run moves).Handed := by
  induction moves generalizing x with
  | nil => exact h
  | cons m moves ih => exact ih (h.step hs m) (sound_step hs hl.1) hl.2

/-! ## The main statement -/

/-- **The stop is the last thing a session does to a device**, at a point that a run has
led to. -/
structure StopsLast (x : Scene L) : Prop where
  /-- All that the session and its watchdog made happen on the links is on record, as a
  command of a task that was run or as a stop. -/
  accounted : x.Accounted
  /-- No task was run that was checked after the claim of a silence. -/
  gated : Gated x.log
  /-- Once the watchdog has followed a claim up and the worker is at rest, every command to
  a device that is still connected was followed by a stop of it, in which all its stop
  writes were handed to its link. -/
  stopped : x.watch = .done → x.session.stage = .idle →
    ∀ i d, x.fleet.devices[i]? = some d → d.connected = true →
      ∀ pre trace post, x.log = pre ++ .commanded i trace :: post →
        ∃ trace', .stopped i trace' ∈ post ∧ d.StoppedBy trace'

omit [Link L] in
theorem Inv.stopsLast (h : x.Inv) (hhanded : x.Handed) (haccounted : x.Accounted) :
    StopsLast x where
  accounted := haccounted
  gated := h.gated
  stopped hdone hidle i d hd hc pre trace post heq := by
    have hsettled := h.settled hdone hidle (Fleet.connected_iff.2 ⟨d, hd, hc⟩)
    obtain ⟨trace', hmem⟩ : ∃ trace', stopped i trace' ∈ post :=
      Classical.not_forall_not.1 fun hno => hsettled ⟨pre, trace, post, heq, hno⟩
    have hlog : stopped i trace' ∈ x.log := by
      rw [heq]
      exact List.mem_append_right _ (List.mem_cons_of_mem _ hmem)
    exact ⟨trace', hmem, (hhanded i trace' hlog).2 d hd hc⟩

/-- **The stop is the last thing a session does to a device**, in every run of a session, in
either scope of its stops, with every rulebook and whatever the links make of any write. -/
theorem last_stop {b : Rulebook} {f : Fleet L} (hf : Fleet.Reached b f) (name : String)
    (terms : Terms) (t : Time) {moves : List (Move L)}
    (hl : (begin name terms t f).Lawful moves) :
    StopsLast ((begin name terms t f).run moves) := by
  have hinv := (inv_begin name terms t f).run_moves moves
  have hnone : (begin name terms t f).Handed := fun _ _ hmem => absurd hmem List.not_mem_nil
  exact hinv.stopsLast (hnone.run hf.sound hl) ((accounted_of_fresh rfl rfl).run moves)

/-- A fleet with one device, of link 0. -/
def lone : Fleet SimulatedLink :=
  (({ rulebook := .builtin } : Fleet SimulatedLink).after (.addLink { device := {} })).after
    (.register ⟨"sim", "A", "LVS-Nora"⟩ [] (some 0))

/-- The device is to vibrate as strongly as it can. -/
def vibrate : Command := .actuate .vibrate [{ value := .one }]

/-- The write that has it do so. -/
def strong : Write := .ofText "tx" "Vibrate:20;"

/-- The writes that stop it. -/
def hush : List Write := [.ofText "tx" "Vibrate:0;", .ofText "tx" "Rotate:0;"]

/-- Its link accepts a write. -/
def landed (w : Write) : Happening := .traffic 0 (.wrote w true)

/-- A device is commanded before the claim and the command is run after the stop
of the watchdog. -/
def overtaken : Scene SimulatedLink :=
  (begin "client" { stopScope := .session } 0 lone).run
    [.start none, .hear ⟨1, .handshakeRequest "c" 1 1⟩, .answer 0 0,
      .hear ⟨2, .deviceCommand 0 vibrate⟩, .answer 0 10, .work, .work, .claim 2000000, .follow,
      .follow, .work, .follow, .follow, .work, .work, .work, .work]

/-- The worker stops the device once more, and its link accepts the stop writes after the
write of the command. -/
theorem last_stop_overtaken :
    StopsLast overtaken ∧ overtaken.watch = .done ∧ overtaken.session.stage = .idle ∧
      overtaken.fleet.connected 0 = true ∧
      overtaken.log.filter (fun d => d = .claimed ∨ d.trace ≠ []) =
        [.claimed, .stopped 0 (hush.map landed), .commanded 0 [landed strong],
          .stopped 0 (hush.map landed)] ∧
      overtaken.fleet.links.map SimulatedLink.writes = [hush ++ strong :: hush] := by
  have hlone : Fleet.Reached .builtin lone := .call (.call .start trivial) Nat.zero_lt_one
  -- none of the moves is a call
  exact ⟨last_stop hlone "client" { stopScope := .session } 0 (lawful_of_alone rfl),
    by decide +kernel, by decide +kernel, by decide +kernel, by decide +kernel, by decide +kernel⟩

end Scene

end Haptics
