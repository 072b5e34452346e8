import Haptics.Proofs.Session.Commons
import Haptics.Proofs.Session.LastStop
/-!
# One session of many

A party of a commons is in a scene of its own, with the fleet that it shares. What it
does itself is a move of that scene, or none (`Party.scene_act`), and whatever the others
do to the fleet is what a call does to it (`Party.fleet_act`). So a run of a commons is,
for each of its parties, a run of the party's scene (`Commons.leads_run`), and what is
proved of the runs of scenes holds of every session among any number of others:
`Commons.stopsLast_of_run` says so of the last stop.
-/

namespace Haptics

namespace Scene

variable {L : Type} [Link L] {x y z : Scene L}

/-! ## Lawful runs one after the other -/

/-- Lawful moves lead from one scene to another. -/
def Leads (x y : Scene L) : Prop := ∃ moves, x.Lawful moves ∧ x.run moves = y

theorem Leads.refl (x : Scene L) : x.Leads x := ⟨[], trivial, rfl⟩

/-- A call is one lawful move if it is legal. -/
theorem leads_call {c : Fleet.Call L} (hc : c.Legal x.fleet) : x.Leads (x.step (.call c)) := by
  refine ⟨[.call c], ⟨fun c' heq => ?_, trivial⟩, rfl⟩
  cases heq
  exact hc

/-- Any other move is. -/
theorem leads_step {m : Move L} (hm : m.call? = none) : x.Leads (x.step m) :=
  ⟨[m], lawful_of_alone (by simp [hm]), rfl⟩

theorem Leads.trans (h : x.Leads y) (h' : y.Leads z) : x.Leads z := by
  obtain ⟨moves, hl, rfl⟩ := h
  induction moves generalizing x with
  | nil => exact h'
  | cons m moves ih =>
    obtain ⟨moves', hl', heq⟩ := ih hl.2 h'
    exact ⟨m :: moves', ⟨hl.1, hl'⟩, heq⟩

end Scene

/-! ## Parties as scenes -/

namespace Act

variable {L : Type} {m : Emitter} {a : Act} {v : Move L}

/-- The move of a scene that an act is. The forwarding of events is none. -/
def move? (m : Emitter) : Act → Option (Move L)
  | .start => some (.start (some m))
  | .join => some .join
  | .hear msg => some (.hear msg)
  | .answer call now => some (.answer call now)
  | .listen => none
  | .close reason => some (.close reason)
  | .work => some .work
  | .claim now => some (.claim now)
  | .follow => some .follow

/-- No party does anything to the fleet but by its session and its watchdog. -/
theorem call?_move (h : a.move? m = some v) : v.call? = none := by
  cases a <;> cases h <;> rfl

theorem eq_listen (h : a.move? (L := L) m = none) : a = .listen := by
  cases a <;> first | rfl | cases h

end Act

namespace Party

variable {L : Type}

/-- A party with the fleet that it shares. What it made happen is what goes with its
deeds. -/
def scene (p : Party) (f : Fleet L) : Scene L :=
  { session := p.session, fleet := f, heard := p.heard, watch := p.watch, log := p.deeds,
    happened := p.deeds.flatMap Deed.trace }

variable [Link L]

/-- **The watchdog of a party is that of its scene.** -/
theorem scene_follow (p : Party) (f : Fleet L) (m : Emitter) :
    (p.follow f m).party.scene (p.follow f m).fleet = (p.scene f).follow := by
  have hwatch : (p.scene f).watch = p.watch := rfl
  unfold follow Scene.follow
  rw [hwatch]
  cases p.watch with
  | watching => rfl
  | claimed => rfl
  | stopped => rfl
  | done => rfl
  | stopping sweep =>
    cases ht : sweep.targets with
    | nil =>
      simp only [ht]
      rfl
    | cons i rest =>
      -- what happened at the target goes with the deed, if there is one
      have htrace := f.trace_stopDeeds ht
      simp only [scene, List.flatMap_append, htrace, ht]

/-- **What a party does is the move of its scene**, up to what it tells. -/
theorem scene_act {m : Emitter} {a : Act} {v : Move L} (h : a.move? m = some v) (p : Party)
    (f : Fleet L) :
    (p.act f m a).party.scene (p.act f m a).fleet = (p.scene f).step v := by
  cases a with
  | listen => cases h
  | start | join | close =>
    cases h
    rfl
  | follow =>
    cases h
    exact p.scene_follow f m
  | hear msg =>
    cases h
    have hopen : (p.scene f).session.open? = p.session.open? := rfl
    rw [act, Scene.step, hopen]
    cases p.session.open? <;> rfl
  | answer call now =>
    cases h
    have hheard : (p.scene f).heard = p.heard := rfl
    rw [act, Scene.step, hheard]
    cases p.heard[call]? <;> rfl
  | claim now =>
    cases h
    have hclaim : (p.scene f).session.claim now = p.session.claim now := rfl
    rw [act, Scene.step, hclaim]
    rcases p.session.claim now with ⟨_ | _, s⟩
    · rfl
    · simp [scene, Deed.trace]
  | work =>
    cases h
    have hwork : (p.scene f).session.workStep (p.scene f).fleet = p.session.workStep f := rfl
    rw [act, Scene.step, hwork]
    cases hturn : p.session.workStep f with
    | none => rfl
    | some turn =>
      -- what happened goes with the deeds of the turn
      have htrace := Session.trace_workDeeds hturn
      simp only [scene, tell, List.flatMap_append, htrace]

/-- What a party does leads its scene on. The forwarding of events has no move, and changes
nothing there unless it closes the session. -/
theorem leads_act (p : Party) (f : Fleet L) (m : Emitter) (a : Act) :
    (p.scene f).Leads ((p.act f m a).party.scene (p.act f m a).fleet) := by
  cases hv : a.move? (L := L) m with
  | some v =>
    rw [scene_act hv]
    exact Scene.leads_step (Act.call?_move hv)
  | none =>
    obtain rfl := Act.eq_listen hv
    rcases act_listen_cases p f m with heq | heq | ⟨id, q, outputs, -, heq⟩
    · rw [heq]
      exact .refl _
    · rw [heq]
      exact Scene.leads_step (m := .close .cancelled) rfl
    · rw [heq]
      exact .refl _

/-- **What a party does to the fleet is nothing, or what a call does to it.** -/
theorem fleet_act (p : Party) (f : Fleet L) (m : Emitter) (a : Act) :
    (p.act f m a).fleet = f ∨
      ∃ c : Fleet.Call L, c.Legal f ∧ (p.act f m a).fleet = f.after c := by
  cases hv : a.move? (L := L) m with
  | none =>
    obtain rfl := Act.eq_listen hv
    exact Or.inl rfl
  | some v =>
    have hfleet : (p.act f m a).fleet = ((p.scene f).step v).fleet :=
      congrArg Scene.fleet (scene_act hv p f)
    rw [hfleet]
    exact (p.scene f).fleet_step (Act.call?_move hv)

end Party

namespace Commons

variable {ι L : Type} [DecidableEq ι] [Link L] {x : Commons ι L} {i : ι}

/-! ## Runs -/

/-- A party of a commons with the fleet that all share. -/
def scene (x : Commons ι L) (i : ι) : Scene L := (x.party i).scene x.fleet

/-- Devices are registered with links that are there. -/
def Lawful : Commons ι L → List (Move ι L) → Prop
  | _, [] => True
  | x, mv :: moves => (∀ c now, mv = .call c now → c.Legal x.fleet) ∧ (x.step mv).Lawful moves

/-- Whoever moves, each party finds itself where moves of its scene lead. -/
theorem leads_move {mv : Move ι L} (hl : ∀ c now, mv = .call c now → c.Legal x.fleet) (i : ι) :
    (x.scene i).Leads ((x.step mv).scene i) := by
  -- to those who do not move, others do what a call does
  have hcalled {p : Party} {c : Fleet.Call L} (hc : c.Legal x.fleet) :
      (p.scene x.fleet).Leads (p.scene (x.fleet.after c)) := Scene.leads_call hc
  cases mv with
  | call c now => exact hcalled (hl c now rfl)
  | act j a now =>
    have hfleet : (x.step (.act j a now)).fleet = (x.effect j a).fleet := rfl
    by_cases hij : i = j
    · have hparty : (x.step (.act j a now)).party i = (x.effect j a).party := by
        rw [hij]
        exact party_settle_self x j _
      rw [scene, scene, hparty, hfleet, hij]
      exact Party.leads_act _ _ _ _
    · have hparty : (x.step (.act j a now)).party i = x.party i := party_settle_of_ne hij x _
      rw [scene, scene, hparty, hfleet]
      rcases (x.party j).fleet_act x.fleet x.audience.emitter a with hsame | ⟨c, hc, heq⟩
      · rw [effect, hsame]
        exact .refl _
      · rw [effect, heq]
        exact hcalled hc

/-- **A run of a commons is a run of the scene of each of its parties.** -/
theorem leads_run {moves : List (Move ι L)} (hl : x.Lawful moves) (i : ι) :
    (x.scene i).Leads ((x.run moves).scene i) := by
  induction moves generalizing x with
  | nil => exact .refl _
  | cons mv moves ih => exact (leads_move hl.1 i).trans (ih (x := x.step mv) hl.2)

/-- **Of any number of sessions that share a fleet, each has the last stop of its own.** -/
theorem stopsLast_of_run {b : Rulebook} {f : Fleet L} (hf : Fleet.Reached b f)
    (name : ι → String) (terms : ι → Terms) (arrival : ι → Time) (size : Nat)
    {moves : List (Move ι L)} (hl : (opening name terms arrival f size).Lawful moves) (i : ι) :
    Scene.StopsLast (((opening name terms arrival f size).run moves).scene i) := by
  obtain ⟨own, hown, heq⟩ := leads_run hl i
  have hinv := (Scene.inv_begin (name i) (terms i) (arrival i) f).run_moves own
  have hnone : (Scene.begin (name i) (terms i) (arrival i) f).Handed :=
    fun _ _ hmem => absurd hmem List.not_mem_nil
  rw [← heq]
  exact hinv.stopsLast (hnone.run hf.sound hown) ((Scene.accounted_of_fresh rfl rfl).run own)

end Commons

end Haptics
