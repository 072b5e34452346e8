import Haptics.Proofs.Server.Teardown
import Haptics.Service.Basic
/-!
# Everything is stopped before it is let go

A teardown can always be finished (`Sure.ends`). Once it is over, every scan event that
was accepted has been applied, every session is closed and joined, and no device is
connected; each device that was connected before the stop had its stop writes attempted
before it was disconnected, and nothing happened on any link since (`shuts_of_run`).
The same holds if the server is shut down in one go, while workers still wait on held
links.
-/

namespace Haptics

open Relation

variable {L : Type}

namespace Service

theorem shutDown_of_ended {v : Service} (h : v.ended = true) : v.shutDown = v := by
  rw [shutDown, if_pos h]

/-- A service that was shut down knows that it was. -/
theorem ended_shutDown (v : Service) : v.shutDown.ended = true := by
  unfold shutDown
  split
  · assumption
  · rfl

end Service

namespace Teardown

variable [Link L] {x y : Teardown L} {before : Server L}

/-! ## Finishing a teardown -/

/-- Whether a move is one that its thread makes anyway: an answer, a step of a worker, a
safety stop that follows a claim, a scan event applied, or a step of the teardown. -/
def Move.due : Move L → Bool
  | .answer _ | .work _ | .follow _ | .discover | .proceed => true
  | _ => false

/-- A teardown can be finished by moves that are due. -/
def Ends (x : Teardown L) : Prop :=
  ∃ moves : List (Move L), (∀ mv ∈ moves, mv.due = true) ∧
    ∃ before, (x.run moves).progress = .ended before

theorem ends_of_step (mv : Move L) (hmv : mv.due = true) (h : (x.step mv).Ends) : x.Ends := by
  obtain ⟨moves, hdue, hended⟩ := h
  refine ⟨mv :: moves, fun mv' hmem => ?_, hended⟩
  rcases List.mem_cons.1 hmem with rfl | hmem
  · exact hmv
  · exact hdue mv' hmem

/-- The next step of the teardown is known. -/
theorem Sure.ends_of_proceed (hx : x.Sure) (hstep : x.proceed = y) (h : y.Sure → y.Ends) :
    x.Ends := by
  subst hstep
  exact ends_of_step .proceed rfl (h hx.proceed)

theorem ends_of_links (hx : x.Sure) (hp : x.progress = .links before) : x.Ends := by
  have hstep : x.proceed =
      { x with server := x.server.released, progress := .ended before } := by
    rw [proceed, hp]
  exact hx.ends_of_proceed hstep fun _ => ⟨[], by simp, before, rfl⟩

theorem ends_of_devices (hx : x.Sure) (hp : x.progress = .devices) : x.Ends := by
  have hstep : x.proceed =
      { x with server := x.server.stopped, progress := .links x.server } := by
    rw [proceed, hp]
  exact hx.ends_of_proceed hstep fun hy => ends_of_links hy rfl

/-- The scan events that wait are applied one by one. -/
theorem ends_of_discovery (hx : x.Sure) (hp : x.progress = .discovery) : x.Ends := by
  induction hes : x.server.scans.items generalizing x with
  | nil =>
    have hstep : x.proceed =
        { x with server := x.server.stopDiscovery, progress := .devices } := by
      rw [proceed, hp]
      exact if_pos hes
    exact hx.ends_of_proceed hstep fun hy => ends_of_devices hy rfl
  | cons e es ih =>
    have hrunning : x.server.discovery.running = true := by rw [hx.running, hp]; rfl
    have hstep : x.step .discover =
        { x with server := x.server.discoverTurn, applied := x.applied ++ [e] } := by
      rw [step, if_pos hrunning, hes]
    have hitems := (Server.advances_discoverTurn hx.proper hes).items
    have hsure := hx.step .discover
    refine ends_of_step .discover rfl ?_
    rw [hstep] at hsure ⊢
    exact ih hsure hp (List.cons.inj (hes.symm.trans hitems)).2.symm

theorem ends_of_scans (hx : x.Sure) (hp : x.progress = .scans) : x.Ends := by
  have hstep : x.proceed =
      { x with server := x.server.closeScans, progress := .discovery } := by
    rw [proceed, hp]
  exact hx.ends_of_proceed hstep fun hy => ends_of_discovery hy rfl

/-- The safety stops under way are followed up one by one. -/
theorem ends_of_monitor (hx : x.Sure) (hp : x.progress = .monitor) : x.Ends := by
  induction hn : x.claims.length generalizing x with
  | zero =>
    have hstep : x.proceed =
        { x with server := x.server.stopMonitor, progress := .scans } := by
      rw [proceed, hp]
      exact if_pos (List.length_eq_zero_iff.1 hn)
    exact hx.ends_of_proceed hstep fun hy => ends_of_scans hy rfl
  | succ n ih =>
    obtain ⟨name, hname⟩ := List.exists_mem_of_length_pos (Nat.lt_of_sub_eq_succ hn)
    have hstep : x.step (.follow name) =
        { x with server := x.server.pingStop name, claims := x.claims.erase name } := by
      rw [step, if_pos hname]
    have hsure := hx.step (.follow name)
    refine ends_of_step (.follow name) rfl ?_
    rw [hstep] at hsure ⊢
    refine ih hsure hp ?_
    change (x.claims.erase name).length = n
    rw [List.length_erase_of_mem hname, hn]
    rfl

section Sessions

variable {name : String} {left : List String}

omit [Link L] in
/-- Where nothing is left to be answered, it is the worker that does not rest. -/
theorem busy_of_not_rests (hquiet : x.heard = []) (hrests : x.rests name ≠ true) :
    ∃ seat, x.server.seats.get? name = some seat ∧
      (seat.session.phase = .closed → seat.session.stage ≠ .idle) := by
  rw [Ne, rests_iff, hquiet] at hrests
  push Not at hrests
  exact hrests fun call hcall => absurd hcall List.not_mem_nil

variable (hleft : ∀ {y : Teardown L}, y.Sure → y.progress = .sessions left → y.Ends)
include hleft

/-- A session that rests is joined, and the next one is up. -/
theorem ends_of_rests (hx : x.Sure) (hp : x.progress = .sessions (name :: left)) (hrests : x.rests name = true) :
    x.Ends := by
  have hstep : x.proceed =
      { x with server := x.server.join name, progress := .sessions left } := by
    rw [proceed, hp]
    exact if_pos hrests
  exact hx.ends_of_proceed hstep fun hy => hleft hy rfl

/-- **The worker of a closed session gets on until it rests.** -/
theorem ends_of_closed (hx : x.Sure) (hp : x.progress = .sessions (name :: left)) (hquiet : x.heard = [])
    (hclosed : ∀ seat, x.server.seats.get? name = some seat → seat.session.phase = .closed) :
    x.Ends := by
  by_cases hrests : x.rests name = true
  · exact ends_of_rests hleft hx hp hrests
  obtain ⟨seat, hs, hbusy⟩ := busy_of_not_rests hquiet hrests
  -- by induction on what is left to do for the worker
  induction hn : seat.session.effort using WellFoundedLT.induction generalizing x seat with
  | ind n ih =>
    have hwork := hx.step (.work name)
    refine ends_of_step (.work name) rfl ?_
    by_cases hrests' : (x.step (.work name)).rests name = true
    · exact ends_of_rests hleft hwork hp hrests'
    obtain ⟨seat', hs', hbusy'⟩ :=
      busy_of_not_rests (x := x.step (.work name)) hquiet hrests'
    have heffort := Server.effort_workOnce hx.proper.named hs (hbusy (hclosed seat hs)) hs'
    refine ih _ (hn ▸ heffort) hwork hp hquiet (fun seat'' hs'' => ?_) hrests' seat' hs' hbusy' rfl
    obtain ⟨f, trace, hgoes, -⟩ := Server.goes_workOnce hx.proper.named name
    obtain ⟨seat₀, hs₀, habides⟩ := hgoes.seats name seat'' hs''
    exact habides.closed (hclosed seat₀ hs₀)

/-- A session to which nobody is talking is closed. -/
theorem ends_of_quiet (hx : x.Sure) (hp : x.progress = .sessions (name :: left)) (hquiet : x.heard = []) :
    x.Ends := by
  by_cases hrests : x.rests name = true
  · exact ends_of_rests hleft hx hp hrests
  have hstep : x.proceed = { x with server := x.server.close name .cancelled } := by
    rw [proceed, hp]
    exact if_neg hrests
  exact hx.ends_of_proceed hstep fun hy => ends_of_closed hleft hy hp hquiet fun seat hs =>
    Server.closed_close hx.proper.named hs

/-- What a session heard is answered first. -/
theorem ends_of_session (hx : x.Sure) (hp : x.progress = .sessions (name :: left)) : x.Ends := by
  induction hn : x.heard.length generalizing x with
  | zero => exact ends_of_quiet hleft hx hp (List.length_eq_zero_iff.1 hn)
  | succ n ih =>
    obtain ⟨call, hcall⟩ := List.exists_mem_of_length_pos (Nat.lt_of_sub_eq_succ hn)
    have hstep : x.step (.answer call) =
        { x with server := x.server.answer call.name call.phase call.message,
                 heard := x.heard.erase call } := by
      rw [step, if_pos hcall]
    have hsure := hx.step (.answer call)
    refine ends_of_step (.answer call) rfl ?_
    rw [hstep] at hsure ⊢
    refine ih hsure hp ?_
    change (x.heard.erase call).length = n
    rw [List.length_erase_of_mem hcall, hn]
    rfl

end Sessions

theorem ends_of_sessions {left : List String} (hx : x.Sure) (hp : x.progress = .sessions left) :
    x.Ends := by
  induction left generalizing x with
  | nil =>
    have hstep : x.proceed = { x with progress := .monitor } := by rw [proceed, hp]
    exact hx.ends_of_proceed hstep fun hy => ends_of_monitor hy rfl
  | cons name left ih => exact ends_of_session (fun hy hq => ih hy hq) hx hp

/-- **A teardown can always be finished.** -/
theorem Sure.ends (hx : x.Sure) : x.Ends := by
  cases hp : x.progress with
  | up =>
    have hstep : x.proceed = { x with progress := .sessions x.server.seats.keys } := by
      rw [Teardown.proceed, hp]
    exact hx.ends_of_proceed hstep fun hy => ends_of_sessions hy rfl
  | sessions left => exact ends_of_sessions hx hp
  | monitor => exact ends_of_monitor hx hp
  | scans => exact ends_of_scans hx hp
  | discovery => exact ends_of_discovery hx hp
  | devices => exact ends_of_devices hx hp
  | links before => exact ends_of_links hx hp
  | ended before => exact ⟨[], by simp, before, hp⟩

/-! ## From the stop to the end -/

/-- The devices were stopped when the server was `before`, and nothing was done since. -/
structure Halted (before : Server L) (x : Teardown L) : Prop where
  drained : before.Drained
  /-- Whatever was accepted had been applied. -/
  processed : before.discovery.processed = x.accepted.length
  devices : x.server.fleet.devices = before.fleet.stopAll.fleet.devices
  happened : x.server.happened = before.happened ++ before.fleet.stopAll.trace

/-- The devices were stopped when the server was `before`, then they were disconnected,
and nothing was done since. -/
structure Ended (before : Server L) (x : Teardown L) : Prop where
  drained : before.Drained
  processed : before.discovery.processed = x.accepted.length
  applied : x.applied = x.accepted
  server : x.server.Drained
  silent : ∀ call ∈ x.heard, x.server.seats.get? call.name = none
  dark : x.server.fleet.Dark
  happened : ∃ f : Fleet L, f.devices = before.fleet.stopAll.fleet.devices ∧
    x.server.happened =
      before.happened ++ (before.fleet.stopAll.trace ++ f.disconnectAll.trace)

/-- **Between the stop and the disconnection nothing is done to the devices.** -/
theorem Halted.did (h : Halted before x) (hx : x.Sure) (hp : x.progress = .links before)
    (hd : x.Did y) : Halted before y := by
  have hgone : ∀ name seat, x.server.seats.get? name = some seat →
      seat.session.Gone ∧ ∀ call ∈ x.heard, call.name ≠ name :=
    fun name seat hs => hx.gone name seat hs (by rw [hp]; exact id)
  cases hd with
  | still hgoes hheard hclaims =>
    refine { h with devices := ?_, happened := ?_ }
    · exact (congrArg Fleet.devices hgoes.fleet).trans h.devices
    · exact hgoes.happened.trans ((List.append_nil _).trans h.happened)
  | acts hgoes hacts hclaims hwho =>
    rcases hwho with hwho | ⟨name, seat, hs, hstays⟩
    · exact absurd (hx.unclaimed (by rw [hp]; rfl)) hwho
    · exact absurd (hgone name seat hs).1 hstays
  | hears call hs hopen => exact absurd (hgone _ _ hs).1.closed hopen
  | enters hwho hheard hchanges =>
    rcases hwho with hup | ⟨call, hcall, hname, seat, hs⟩
    · rw [hp] at hup
      cases hup
    · exact absurd hname ((hgone _ seat hs).2 call hcall)
  | offers hlegal hopen =>
    rw [hx.shut (by rw [hp]; rfl)] at hopen
    cases hopen
  | applies hitems hrunning =>
    rw [hx.running, hp] at hrunning
    cases hrunning
  | @calls c hlegal hallows =>
    have hgoes := Server.goes_changed hx.proper.named (x.server.fleet.after c)
      (x.server.fleet.trace c)
    rw [hp] at hallows
    -- only links change, and the devices know nothing of it
    have hbehind : (x.server.fleet.after c).devices = x.server.fleet.devices ∧
        x.server.fleet.trace c = [] := by
      cases c with
      | addLink link => exact ⟨rfl, rfl⟩
      | disturb id change => exact ⟨rfl, rfl⟩
      | _ => cases hallows
    refine { h with devices := ?_, happened := ?_ }
    · exact (congrArg Fleet.devices hgoes.fleet).trans (hbehind.1.trans h.devices)
    · refine hgoes.happened.trans ?_
      rw [hbehind.2, List.append_nil]
      exact h.happened

/-- Operations after which still no device is connected, and that tell of nothing. -/
theorem Ended.goes (h : Ended before x) {f : Fleet L} {s : Server L} {heard : List Heard}
    {claims : List String} (hgoes : x.server.Goes f [] s) (hupdates : x.server.fleet.Updates f)
    (hdark : f.Dark) (hheard : heard ⊆ x.heard) :
    Ended before { x with server := s, heard, claims } := by
  obtain ⟨g, hg, hhappened⟩ := h.happened
  refine { h with server := h.server.advance (hgoes.advances hupdates),
                  silent := fun call hcall => ?_, dark := hgoes.fleet ▸ hdark,
                  happened := ⟨g, hg, ?_⟩ }
  · rw [Option.eq_none_iff_forall_ne_some]
    intro seat' hs'
    obtain ⟨seat, hs, -⟩ := hgoes.seats _ seat' hs'
    rw [h.silent call (hheard hcall)] at hs
    cases hs
  · exact hgoes.happened.trans ((List.append_nil _).trans hhappened)

/-- **After the end nothing happens any more.** -/
theorem Ended.did (h : Ended before x) (hp : x.progress = .ended before) (hd : x.Did y) :
    Ended before y := by
  cases hd with
  | still hgoes hheard hclaims => exact h.goes hgoes ReflTransGen.refl h.dark hheard
  | acts hgoes hacts hclaims hwho =>
    obtain ⟨rfl, rfl⟩ := hacts.dark h.dark
    exact h.goes hgoes ReflTransGen.refl h.dark (List.Subset.refl _)
  | hears call hs hopen => exact absurd (h.server.closed _ _ hs) hopen
  | enters hwho hheard hchanges =>
    rcases hwho with hup | ⟨call, hcall, rfl, seat, hs⟩
    · rw [hp] at hup
      cases hup
    · rw [h.silent call hcall] at hs
      cases hs
  | offers hlegal hopen =>
    rw [h.server.shut] at hopen
    cases hopen
  | applies hitems hrunning =>
    rw [h.server.halted] at hrunning
    cases hrunning
  | @calls c hlegal hallows =>
    rw [hp] at hallows
    have hother : ∀ i services link, c ≠ .register i services link := by
      rintro i services link rfl
      cases hallows
    obtain ⟨hdark, htrace⟩ := h.dark.call h.server.proper.sound hother
    have hgoes := Server.goes_changed h.server.proper.named (x.server.fleet.after c)
      (x.server.fleet.trace c)
    rw [htrace] at hgoes ⊢
    exact h.goes hgoes (Fleet.updates_after hlegal) hdark (List.Subset.refl _)

/-- The devices are stopped. -/
theorem Sure.halted (hx : x.Sure) (hp : x.progress = .devices) :
    Halted x.server { x with server := x.server.stopped, progress := .links x.server } := by
  have ha : x.progress.applies = false := by rw [hp]; rfl
  have hgoes := Server.goes_onFleet hx.proper.named Fleet.stopAll
  refine ⟨hx.drained ha, ?_, congrArg Fleet.devices hgoes.fleet, hgoes.happened⟩
  exact hx.processed.trans (congrArg List.length (hx.applied ha))

/-- The devices are disconnected. -/
theorem Halted.ended (h : Halted before x) (hx : x.Sure) (hp : x.progress = .links before) :
    Ended before { x with server := x.server.released, progress := .ended before } := by
  have ha : x.progress.applies = false := by rw [hp]; rfl
  have hgoes := Server.goes_onFleet hx.proper.named Fleet.disconnectAll
  have hclear := hgoes.advances (ReflTransGen.single .clear)
  refine { drained := h.drained, processed := h.processed, applied := hx.applied ha,
           server := (hx.drained ha).advance hclear, silent := fun call hcall => ?_,
           dark := hgoes.fleet ▸ Fleet.dark_disconnectAll _,
           happened := ⟨x.server.fleet, h.devices, ?_⟩ }
  · rw [Option.eq_none_iff_forall_ne_some]
    intro seat' hs'
    obtain ⟨seat, hs, -⟩ := hgoes.seats _ seat' hs'
    exact (hx.gone _ seat hs (Progress.not_keeps_of_applies ha _)).2 call hcall rfl
  · refine hgoes.happened.trans ?_
    rw [h.happened, List.append_assoc]

/-- **What is known of a teardown** once the devices are stopped. -/
structure Late (x : Teardown L) : Prop where
  links : ∀ before, x.progress = .links before → Halted before x
  ended : ∀ before, x.progress = .ended before → Ended before x

theorem late_of_early (h : x.progress.early = true) : x.Late := by
  constructor
  · intro before hlinks
    rw [hlinks] at h
    cases h
  · intro before hended
    rw [hended] at h
    cases h

theorem Late.proceed (h : x.Late) (hx : x.Sure) : x.proceed.Late := by
  unfold Teardown.proceed
  split
  · exact late_of_early rfl
  · exact late_of_early rfl
  · rename_i hp
    split
    · exact late_of_early rfl
    · exact late_of_early (congrArg Progress.early hp)
  · split
    · exact late_of_early rfl
    · exact h
  · exact late_of_early rfl
  · split
    · exact late_of_early rfl
    · exact h
  · rename_i hp
    refine ⟨fun before hlinks => ?_, fun before hended => ?_⟩
    · cases hlinks
      exact hx.halted hp
    · cases hended
  · rename_i before hp
    refine ⟨fun before' hlinks => ?_, fun before' hended => ?_⟩
    · cases hlinks
    · cases hended
      exact (h.links before hp).ended hx hp
  · exact h

theorem Late.did (h : x.Late) (hx : x.Sure) (hd : x.Did y) : y.Late := by
  have hp : y.progress = x.progress := by cases hd <;> rfl
  exact ⟨fun before hlinks =>
      (h.links before (hp ▸ hlinks)).did hx (hp ▸ hlinks) hd,
    fun before hended => (h.ended before (hp ▸ hended)).did (hp ▸ hended) hd⟩

theorem Late.step (h : x.Late) (hx : x.Sure) (mv : Move L) : (x.step mv).Late := by
  by_cases hmv : mv = .proceed
  · subst hmv
    exact h.proceed hx
  · exact h.did hx (did_step hx.proper.named hmv)

theorem Late.run (h : x.Late) (hx : x.Sure) (moves : List (Move L)) : (x.run moves).Late := by
  induction moves generalizing x with
  | nil => exact h
  | cons mv moves ih => exact ih (h.step hx mv) (hx.step mv)

/-! ## The teardown as a whole -/

/-- **Everything was stopped before it was let go.** When its devices were stopped, the
server was `before`. -/
structure Torn (before : Server L) (x : Teardown L) : Prop where
  /-- By then every session was closed, and nothing waited in the queue or would. -/
  drained : before.Drained
  /-- Whatever the queue had accepted was applied by then. -/
  processed : before.discovery.processed = x.accepted.length
  applied : x.applied = x.accepted
  closed : x.server.Closed
  dark : x.server.fleet.Dark
  count : x.server.fleet.byKey.size = 0
  /-- On the links of the devices that were connected then, the stop writes and after them
  the disconnection are the last to happen. On other links nothing happens any more. -/
  released : before.fleet.LinksApart → ∃ trace os,
    x.server.happened = before.happened ++ trace ∧ before.fleet.Released trace os

theorem Ended.torn (h : Ended before x) : Torn before x where
  drained := h.drained
  processed := h.processed
  applied := h.applied
  closed := h.server.closed
  dark := h.dark
  count := h.dark.size_byKey h.server.proper.sound
  released ha := by
    obtain ⟨f, hf, hhappened⟩ := h.happened
    obtain ⟨os, hos⟩ := Fleet.released_of_sound h.drained.proper.sound ha hf
    exact ⟨_, os, hhappened, hos⟩

theorem Ended.run (h : Ended before x) (hp : x.progress = .ended before) (moves : List (Move L)) :
    Ended before (x.run moves) := by
  induction moves generalizing x with
  | nil => exact h
  | cons mv moves ih =>
    by_cases hmv : mv = .proceed
    · subst hmv
      have hstep : x.step .proceed = x := by rw [step, proceed, hp]
      exact ih (hstep.symm ▸ h) (hstep.symm ▸ hp)
    · have hd := did_step h.server.proper.named hmv
      have hprogress : (x.step mv).progress = x.progress := by
        generalize x.step mv = y at hd
        cases hd <;> rfl
      exact ih (h.did hp hd) (hprogress.trans hp)

/-- The server is shut down in one go. -/
def shutDown (x : Teardown L) : Teardown L :=
  { x with server := x.server.shutDown, progress := .ended x.server.drained,
           applied := x.applied ++ x.server.scans.items }

theorem Sure.ended_shutDown (hx : x.Sure) (hup : x.progress = .up) (hquiet : x.heard = []) :
    Ended x.server.drained x.shutDown := by
  have hrunning : x.server.discovery.running = true := by rw [hx.running, hup]; rfl
  obtain ⟨hdrained, hprocessed⟩ := Server.drained_drained hx.proper hrunning
  rw [shutDown, Server.shutDown_eq]
  generalize x.server.drained = s at hdrained hprocessed ⊢
  have hstop : s.Goes s.fleet.stopAll.fleet s.fleet.stopAll.trace s.stopped :=
    Server.goes_onFleet hdrained.proper.named Fleet.stopAll
  have hstopped := hdrained.advance (hstop.advances (Fleet.updates_sweep ..))
  have hrelease : s.stopped.Goes s.stopped.fleet.disconnectAll.fleet
      s.stopped.fleet.disconnectAll.trace s.stopped.released :=
    Server.goes_onFleet hstopped.proper.named Fleet.disconnectAll
  refine { drained := hdrained, processed := ?_, applied := hx.history.symm,
           server := hstopped.advance (hrelease.advances (ReflTransGen.single .clear)),
           silent := fun call hcall => ?_, dark := hrelease.fleet ▸ Fleet.dark_disconnectAll _,
           happened := ⟨s.stopped.fleet, congrArg Fleet.devices hstop.fleet, ?_⟩ }
  · change s.discovery.processed = x.accepted.length
    rw [hprocessed, hx.processed, hx.history, List.length_append]
  · have hcall : call ∈ x.heard := hcall
    rw [hquiet] at hcall
    cases hcall
  · refine hrelease.happened.trans ?_
    rw [hstop.happened, List.append_assoc]

/-- **What a shut-down does**, whatever state it begins in. -/
structure Shuts (x : Teardown L) : Prop where
  /-- The teardown can be finished by moves that are due. -/
  ends : x.Ends
  /-- Once it is over everything was stopped before it was let go, and it stays that way. -/
  ended : ∀ before, x.progress = .ended before → Torn before x
  /-- No thread of a session is left. -/
  joined : ∀ before, x.progress = .ended before →
    ∀ name seat, x.server.seats.get? name = some seat → seat.session.Gone
  /-- To tear down once more does nothing. -/
  again : ∀ before, x.progress = .ended before → x.proceed = x
  /-- In one go it comes to the same, though workers may then wait on held links. -/
  atOnce : x.progress = .up → x.heard = [] →
    ∀ moves, Torn x.server.drained (x.shutDown.run moves)

/-- **A shut-down stops everything before it lets go.** From a server with its discovery
running, whatever clients, workers, scanners, the watch and the links do before it and
during it. A second one does nothing. -/
theorem shuts_of_run (b : Rulebook) (emitter : Option Emitter) (size : Nat)
    (moves : List (Move L)) :
    ((begin b emitter size).run moves).Shuts ∧ ∀ v : Service, v.shutDown.shutDown = v.shutDown := by
  have hbegin : (begin b emitter size : Teardown L).Sure := sure_begin b emitter size
  have hx := hbegin.run moves
  have hlate := (late_of_early (x := begin b emitter size) rfl).run hbegin moves
  refine ⟨⟨hx.ends, fun before hp => (hlate.ended before hp).torn, fun before hp name seat hs => ?_,
    fun before hp => ?_, fun hup hquiet later => ?_⟩, fun v => ?_⟩
  · exact (hx.gone name seat hs (by rw [hp]; exact id)).1
  · rw [proceed, hp]
  · exact ((hx.ended_shutDown hup hquiet).run rfl later).torn
  · exact Service.shutDown_of_ended v.ended_shutDown

/-- A client has a command run while the server is torn down, its ping is answered after
its session was closed, and a device out of reach that was found before the queue was
closed is registered only then. -/
def lateFind : List (Move SimulatedLink) :=
  [.call (.addLink { device := {} }), .report (.found ⟨"sim", "A", "LVS-Nora"⟩ [] (some 0)),
    .discover, .connect "c" {} true true, .hear "c" ⟨1, .handshakeRequest "client" 1 1⟩,
    .answer ⟨"c", ⟨1, .handshakeRequest "client" 1 1⟩, .awaitingHandshake⟩,
    .hear "c" ⟨2, .deviceCommand 0 (.actuate .vibrate [{ value := .one }])⟩,
    .answer ⟨"c", ⟨2, .deviceCommand 0 (.actuate .vibrate [{ value := .one }])⟩, .ready⟩,
    .work "c", .hear "c" ⟨3, .ping⟩, .work "c",
    .call (.addLink { device := {}, inReach := false }),
    .report (.found ⟨"sim", "B", "CycSA"⟩ [] (some 1)), .proceed, .proceed,
    .answer ⟨"c", ⟨3, .ping⟩, .ready⟩, .work "c", .work "c", .work "c", .proceed, .proceed,
    .proceed, .proceed, .report (.lost ⟨"sim", "A", "LVS-Nora"⟩), .discover, .proceed, .proceed,
    .proceed]

/-- The command comes first, then the stop, and the device that was found late is covered. -/
theorem shuts_lateFind :
    ∃ before, ((begin .builtin (some {}) 2).run lateFind).progress = .ended before ∧
      Torn before ((begin .builtin (some {}) 2).run lateFind) ∧ before.fleet.LinksApart ∧
      before.fleet.connectedIndices = [0, 1] := by
  refine ⟨_, rfl, (shuts_of_run _ _ _ lateFind).1.ended _ rfl, ?_, ?_⟩
  · decide +kernel
  · decide +kernel

end Teardown

end Haptics
