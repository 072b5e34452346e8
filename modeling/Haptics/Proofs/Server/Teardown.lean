import Haptics.Proofs.Server.Effects
/-!
# The teardown of a server

A server that is torn down while others still act on it. The thread that tears it down
makes its steps (`Teardown.proceed`) between those of clients, workers, scanners and the
watch, and waits where it has to: for the reader and the worker of a session that it
closed, for safety stops that are under way, for the scan events in the queue. `Did` is
what a step of the others comes to, and `Sure` what holds at every time: of each part of
the server, what it is once the teardown is past it.
-/

namespace Haptics

open Relation

variable {L : Type}

/-! ## Sessions of a server -/

namespace Server

variable {s s' s'' : Server L} {name : String}

/-- Opens a session, starts it and has it watched. -/
def connect [Link L] (s : Server L) (name : String) (terms : Terms) (listens notifies : Bool) :
    Server L :=
  ((s.addSession name terms listens notifies).start name).2.watch name

/-- Answers a message in the phase that was read before. -/
def answer (s : Server L) (name : String) (phase : Phase) (m : Message) : Server L :=
  match s.seats.get? name with
  | none => s
  | some seat =>
    let r := seat.session.answer phase m s.now s.fleet.entries
    s.enter seat r.session r.outputs

/-- A message that is answered at once is received. -/
theorem answer_eq_receive [Link L] {seat : Seat} (hs : s.seats.get? name = some seat)
    (hopen : seat.session.open? = true) (m : Message) :
    s.answer name seat.session.phase m = (s.receive name m).2 := by
  rw [answer, receive, hs]
  dsimp only
  rw [Session.receive, if_pos hopen]

/-- One session is opened or makes a step, and the others are as before. -/
structure Changes (name : String) (s s' : Server L) : Prop where
  fleet : s'.fleet = s.fleet
  scans : s'.scans = s.scans
  discovery : s'.discovery = s.discovery
  happened : s'.happened = s.happened
  named : s.Named → s'.Named
  others : ∀ name' seat, name' ≠ name → s'.seats.get? name' = some seat →
    s.seats.get? name' = some seat

theorem Changes.refl (name : String) (s : Server L) : Changes name s s :=
  ⟨rfl, rfl, rfl, rfl, id, fun _ _ _ h => h⟩

/-- Several steps of one session are a step of it. -/
theorem Changes.trans (h : Changes name s s') (h' : Changes name s' s'') :
    Changes name s s'' where
  fleet := h'.fleet.trans h.fleet
  scans := h'.scans.trans h.scans
  discovery := h'.discovery.trans h.discovery
  happened := h'.happened.trans h.happened
  named hn := h'.named (h.named hn)
  others name' seat hne hs := h.others name' seat hne (h'.others name' seat hne hs)

theorem changes_insert (seat : Seat) (hname : seat.session.name = name)
    (hseats : s'.seats = s.seats.insert name seat) (hfleet : s'.fleet = s.fleet)
    (hscans : s'.scans = s.scans) (hdiscovery : s'.discovery = s.discovery)
    (hhappened : s'.happened = s.happened) : Changes name s s' where
  fleet := hfleet
  scans := hscans
  discovery := hdiscovery
  happened := hhappened
  named hn name' seat' hs := by
    rw [hseats, Table.get?_insert] at hs
    split at hs
    · rename_i heq
      cases hs
      exact hname.trans heq.symm
    · exact hn name' seat' hs
  others name' seat' hne hs := by
    rwa [hseats, Table.get?_insert, if_neg hne] at hs

/-- What a session tells is left at its own seat. -/
theorem changes_enter {session : Session} (hname : session.name = name) (seat : Seat)
    (outputs : List Output) : Changes name s (s.enter seat session outputs) := by
  subst hname
  refine changes_insert { seat with session } rfl rfl rfl rfl rfl ?_
  rw [enter, happened_note, happenings_notes, List.append_nil]
  rfl

theorem changes_answer (hn : s.Named) (name : String) (phase : Phase) (m : Message) :
    Changes name s (s.answer name phase m) := by
  unfold answer
  split
  · exact .refl name s
  · rename_i seat hs
    exact changes_enter ((Session.name_answer ..).trans (hn name seat hs)) _ _

theorem name_start (s : Session) (emitter : Option Emitter) :
    (s.start emitter).1.name = s.name := by
  unfold Session.start
  split
  · rfl
  · split <;> rfl

theorem changes_start [Link L] {seat : Seat} (hs : s.seats.get? name = some seat)
    (hname : seat.session.name = name) : Changes name s (s.start name).2 := by
  rw [start, hs]
  dsimp only
  have hbase (emitter : Option Emitter) : Changes name s { s with emitter } :=
    ⟨rfl, rfl, rfl, rfl, id, fun _ _ _ h => h⟩
  exact (hbase _).trans (changes_enter ((name_start ..).trans hname) _ _)

theorem changes_watch [Link L] (s : Server L) (name : String) : Changes name s (s.watch name) := by
  unfold watch
  split
  · exact .refl name s
  · exact ⟨rfl, rfl, rfl, rfl, id, fun _ _ _ h => h⟩

theorem changes_connect [Link L] (s : Server L) (name : String) (terms : Terms)
    (listens notifies : Bool) : Changes name s (s.connect name terms listens notifies) := by
  have hadd : Changes name s (s.addSession name terms listens notifies) :=
    changes_insert _ rfl rfl rfl rfl rfl rfl
  have hseat : (s.addSession name terms listens notifies).seats.get? name = some _ :=
    Table.get?_insert_self ..
  exact (hadd.trans (changes_start hseat rfl)).trans (changes_watch _ name)

end Server

/-! ## Teardowns -/

namespace Teardown

/-- A message that a session heard, with the phase it heard it in. -/
structure Heard where
  name : String
  message : Message
  phase : Phase
deriving DecidableEq, Repr

/-- How far a teardown is. -/
inductive Progress (L : Type)
  /-- It has not begun. -/
  | up
  /-- Sessions are closed and joined one after the other, and these are left. -/
  | sessions (left : List String)
  /-- The watch over silent clients is to be stopped. -/
  | monitor
  /-- The queue of scan events is to be closed. -/
  | scans
  /-- What waits in the queue is to be applied. -/
  | discovery
  /-- The devices are to be stopped. -/
  | devices
  /-- The devices are to be disconnected. Before they were stopped the server was this. -/
  | links (before : Server L)
  | ended (before : Server L)

namespace Progress

/-- Whether a session may still be at work. -/
def keeps : Progress L → String → Prop
  | up, _ => True
  | sessions left, name => name ∈ left
  | _, _ => False

/-- Whether clients are still watched. -/
def watched : Progress L → Bool
  | up | sessions _ | monitor => true
  | _ => false

/-- Whether scan events are still accepted. -/
def accepts : Progress L → Bool
  | up | sessions _ | monitor | scans => true
  | _ => false

/-- Whether scan events are still applied. -/
def applies : Progress L → Bool
  | up | sessions _ | monitor | scans | discovery => true
  | _ => false

/-- Whether the devices are still to be stopped. -/
def early : Progress L → Bool
  | links _ | ended _ => false
  | _ => true

/-- Whether others may do something to the fleet. Between the stop and the disconnection
only links change, and afterwards no device is registered. -/
def allows : Progress L → Fleet.Call L → Bool
  | links _, .addLink _ | links _, .disturb .. => true
  | links _, _ => false
  | ended _, .register .. => false
  | _, _ => true

theorem accepts_of_applies {p : Progress L} (h : p.applies = false) : p.accepts = false := by
  cases p <;> first | rfl | cases h

theorem not_keeps_of_applies {p : Progress L} (h : p.applies = false) (name : String) :
    ¬ p.keeps name := by
  cases p <;> first | exact id | cases h

end Progress

end Teardown

/-- A server, the threads around it, and the thread that tears it down. -/
structure Teardown (L : Type) where
  server : Server L
  progress : Teardown.Progress L := .up
  /-- The messages that are being answered. -/
  heard : List Teardown.Heard := []
  /-- The sessions whose silence was claimed; the safety stop follows. -/
  claims : List String := []
  /-- Every scan event that the queue accepted. -/
  accepted : List ScanEvent := []
  /-- Every scan event that was applied. -/
  applied : List ScanEvent := []

namespace Teardown

/-- What the threads do, one step at a time. -/
inductive Move (L : Type)
  /-- A client connects. -/
  | connect (name : String) (terms : Terms) (listens notifies : Bool)
  /-- The session of a client that has left is dropped. -/
  | reap (name : String)
  /-- A session hears a message of its client. -/
  | hear (name : String) (m : Message)
  | answer (call : Heard)
  /-- An event is forwarded to a client. -/
  | forward (name : String)
  | close (name : String) (reason : ErrorCode)
  /-- The worker of a session makes a step. -/
  | work (name : String)
  /-- The watch looks at a client. -/
  | claim (name : String)
  /-- The watch follows up a silence that it claimed. -/
  | follow (name : String)
  | channel (name : String) (change : Channel → Channel)
  | releaseChannel (name : String)
  /-- From now on writes on these links have to wait. -/
  | hold (links : List LinkId)
  | time (now : Time)
  /-- A scanner reports something. -/
  | report (e : ScanEvent)
  /-- The discovery applies a scan event. -/
  | discover
  /-- Others do something to the fleet, or to a link behind it. -/
  | call (c : Fleet.Call L)
  /-- The teardown makes a step. -/
  | proceed

variable [Link L]

/-- A server that has just been started, with its discovery and its watch. -/
def begin (b : Rulebook) (emitter : Option Emitter) (size : Nat) : Teardown L where
  server := ({ fleet := { rulebook := b }, emitter, scans := { size } } : Server L)
    |>.startDiscovery.startMonitor

omit [Link L] in
/-- Whether the threads of a session have come to their end: nothing it heard is left to be
answered, it is closed, and its worker is idle. -/
def rests (x : Teardown L) (name : String) : Bool :=
  x.heard.all (·.name ≠ name) && (x.server.seats.get? name).all fun seat =>
    seat.session.phase = .closed && seat.session.stage = .idle

/-- **The next step of the teardown.** A session is joined once its threads have come to
their end; while it does not rest it is closed, again if it has to be. -/
def proceed (x : Teardown L) : Teardown L :=
  match x.progress with
  | .up => { x with progress := .sessions x.server.seats.keys }
  | .sessions [] => { x with progress := .monitor }
  | .sessions (name :: left) =>
    if x.rests name then { x with server := x.server.join name, progress := .sessions left }
    else { x with server := x.server.close name .cancelled }
  | .monitor =>
    if x.claims = [] then { x with server := x.server.stopMonitor, progress := .scans } else x
  | .scans => { x with server := x.server.closeScans, progress := .discovery }
  | .discovery =>
    if x.server.scans.items = [] then
      { x with server := x.server.stopDiscovery, progress := .devices }
    else x
  | .devices => { x with server := x.server.stopped, progress := .links x.server }
  | .links before => { x with server := x.server.released, progress := .ended before }
  | .ended _ => x

/-- A move that cannot be made now changes nothing. -/
def step (x : Teardown L) : Move L → Teardown L
  | .connect name terms listens notifies =>
    match x.progress with
    | .up =>
      if x.server.seats.contains name then x
      else { x with server := x.server.connect name terms listens notifies }
    | _ => x
  | .reap name =>
    match x.progress with
    | .up => if x.rests name then { x with server := x.server.dismiss name } else x
    | _ => x
  | .hear name m =>
    match x.server.seats.get? name with
    | none => x
    | some seat =>
      if seat.session.open? then
        { x with heard := x.heard ++ [{ name, message := m, phase := seat.session.phase }] }
      else x
  | .answer call =>
    if call ∈ x.heard then
      { x with server := x.server.answer call.name call.phase call.message,
               heard := x.heard.erase call }
    else x
  | .forward name => { x with server := x.server.listenTurn name }
  | .close name reason => { x with server := x.server.close name reason }
  | .work name => { x with server := x.server.workOnce name }
  | .claim name =>
    if x.progress.watched then
      let (claimed, server) := x.server.claimPing name
      { x with server, claims := if claimed then name :: x.claims else x.claims }
    else x
  | .follow name =>
    if name ∈ x.claims then
      { x with server := x.server.pingStop name, claims := x.claims.erase name }
    else x
  | .channel name change => { x with server := x.server.onChannel name change }
  | .releaseChannel name => { x with server := x.server.releaseChannel name }
  | .hold links => { x with server := { x.server with heldLinks := links } }
  | .time now => { x with server := { x.server with now } }
  | .report e =>
    if e.Legal x.server.fleet then
      let (accepted, server) := x.server.pushScan e
      { x with server, accepted := if accepted then x.accepted ++ [e] else x.accepted }
    else x
  | .discover =>
    if x.server.discovery.running then
      match x.server.scans.items with
      | [] => x
      | e :: _ => { x with server := x.server.discoverTurn, applied := x.applied ++ [e] }
    else x
  | .call c =>
    if x.progress.allows c ∧ c.Legal x.server.fleet then
      { x with server := ({ x.server with fleet := x.server.fleet.after c } : Server L).publish
                 (x.server.fleet.trace c) }
    else x
  | .proceed => x.proceed

/-- The state that moves lead to. -/
def run (x : Teardown L) (moves : List (Move L)) : Teardown L := moves.foldl step x

/-! ## What the moves of others come to -/

/-- **What a move comes to** that is no step of the teardown. -/
inductive Did (x : Teardown L) : Teardown L → Prop
  /-- The devices are left alone. -/
  | still {s : Server L} {heard : List Heard} {claims : List String}
    (h : x.server.Goes x.server.fleet [] s) (hheard : heard ⊆ x.heard)
    (hclaims : x.progress.watched = false → claims ⊆ x.claims) :
    Did x { x with server := s, heard, claims }
  /-- A worker makes a step, or a claim is followed up. -/
  | acts {f : Fleet L} {trace : List Happening} {s : Server L} {claims : List String}
    (h : x.server.Goes f trace s) (hacts : x.server.fleet.Acts f trace)
    (hclaims : claims ⊆ x.claims)
    (hwho : x.claims ≠ [] ∨
      ∃ name seat, x.server.seats.get? name = some seat ∧ ¬ seat.session.Gone) :
    Did x { x with server := s, claims }
  | hears (call : Heard) {seat : Seat} (hs : x.server.seats.get? call.name = some seat)
    (hopen : seat.session.phase ≠ .closed) : Did x { x with heard := x.heard ++ [call] }
  /-- A session is opened, or answers what it heard. -/
  | enters {name : String} {s : Server L} {heard : List Heard}
    (hwho : x.progress = .up ∨
      ∃ call ∈ x.heard, call.name = name ∧ ∃ seat, x.server.seats.get? name = some seat)
    (hheard : heard ⊆ x.heard) (h : x.server.Changes name s) :
    Did x { x with server := s, heard }
  | offers {e : ScanEvent} (hlegal : e.Legal x.server.fleet)
    (hopen : x.server.scans.closed = false) :
    Did x { x with server := { x.server with scans := { x.server.scans with
                                 items := x.server.scans.items ++ [e] } },
                   accepted := x.accepted ++ [e] }
  | applies {e : ScanEvent} {es : List ScanEvent} (hitems : x.server.scans.items = e :: es)
    (hrunning : x.server.discovery.running = true) :
    Did x { x with server := x.server.discoverTurn, applied := x.applied ++ [e] }
  | calls {c : Fleet.Call L} (hlegal : c.Legal x.server.fleet)
    (hallows : x.progress.allows c = true) :
    Did x { x with server := ({ x.server with fleet := x.server.fleet.after c } :
                     Server L).publish (x.server.fleet.trace c) }

variable {x y : Teardown L}

theorem did_refl (x : Teardown L) : x.Did x :=
  .still (.refl _) (List.Subset.refl _) fun _ => List.Subset.refl _

theorem did_server {s : Server L} (h : x.server.Goes x.server.fleet [] s) :
    x.Did { x with server := s } :=
  .still h (List.Subset.refl _) fun _ => List.Subset.refl _

theorem did_hear (name : String) (m : Message) : x.Did (x.step (.hear name m)) := by
  rw [step]
  split
  · exact did_refl x
  · rename_i seat hs
    split
    · rename_i hopen
      have hopen : seat.session.phase ≠ .closed := by
        intro hc
        rw [Session.open?, hc] at hopen
        cases hopen
      exact .hears { name, message := m, phase := seat.session.phase } hs hopen
    · exact did_refl x

/-- A message is answered by a session that is there, or is dropped. -/
theorem did_answer (hn : x.server.Named) (call : Heard) : x.Did (x.step (.answer call)) := by
  rw [step]
  split
  · rename_i hcall
    cases hs : x.server.seats.get? call.name with
    | none =>
      -- the session is not there any more, and its message is dropped
      have hsame : x.server.answer call.name call.phase call.message = x.server := by
        rw [Server.answer, hs]
      rw [hsame]
      exact .still (.refl _) List.erase_subset fun _ => List.Subset.refl _
    | some seat =>
      exact .enters (.inr ⟨call, hcall, rfl, seat, hs⟩) List.erase_subset
        (Server.changes_answer hn ..)
  · exact did_refl x

/-- A worker acts for a session that is not gone. -/
theorem did_work (hn : x.server.Named) (name : String) : x.Did (x.step (.work name)) := by
  by_cases hgone : ∀ seat, x.server.seats.get? name = some seat → seat.session.Gone
  · have hsame : x.step (.work name) = x := by
      rw [step, Server.workOnce_of_gone hgone]
    rw [hsame]
    exact did_refl x
  · push Not at hgone
    obtain ⟨seat, hs, hgone⟩ := hgone
    obtain ⟨f, trace, hgoes, hacts⟩ := Server.goes_workOnce hn name
    exact .acts hgoes hacts (List.Subset.refl _) (.inr ⟨name, seat, hs, hgone⟩)

/-- What is reported is offered to a queue that may refuse it. -/
theorem did_report (e : ScanEvent) : x.Did (x.step (.report e)) := by
  rw [step]
  split
  · rename_i hlegal
    rw [Server.pushScan, ScanQueue.push]
    by_cases hfull : x.server.scans.closed ∨
        x.server.scans.capacity ≤ x.server.scans.items.length
    · rw [if_pos hfull]
      exact did_refl x
    · rw [if_neg hfull]
      have hopen : x.server.scans.closed = false := by
        rw [← Bool.not_eq_true]
        exact fun hc => hfull (.inl hc)
      exact .offers hlegal hopen
  · exact did_refl x

/-- **Every move of others is one of these.** -/
theorem did_step (hn : x.server.Named) {mv : Move L} (hmv : mv ≠ .proceed) :
    x.Did (x.step mv) := by
  cases mv with
  | connect name terms listens notifies =>
    rw [step]
    split
    · rename_i hup
      split
      · exact did_refl x
      · exact .enters (.inl hup) (List.Subset.refl _) (Server.changes_connect ..)
    · exact did_refl x
  | reap name =>
    rw [step]
    split
    · split
      · exact did_server (Server.goes_dismiss hn name)
      · exact did_refl x
    · exact did_refl x
  | hear name m => exact did_hear name m
  | answer call => exact did_answer hn call
  | forward name => exact did_server (Server.goes_listenTurn hn name)
  | close name reason => exact did_server (Server.goes_close hn name reason)
  | work name => exact did_work hn name
  | claim name =>
    rw [step]
    split
    · rename_i hwatched
      refine .still (Server.goes_claimPing hn name) (List.Subset.refl _) fun hw => ?_
      rw [hwatched] at hw
      cases hw
    · exact did_refl x
  | follow name =>
    rw [step]
    split
    · rename_i hname
      obtain ⟨f, trace, hgoes, hacts⟩ := Server.goes_pingStop hn name
      exact .acts hgoes hacts List.erase_subset (.inl (List.ne_nil_of_mem hname))
    · exact did_refl x
  | channel name change => exact did_server (Server.goes_onChannel ..)
  | releaseChannel name => exact did_server (Server.goes_releaseChannel hn name)
  | hold links => exact did_server (Server.goes_aside rfl rfl rfl rfl rfl)
  | time now => exact did_server (Server.goes_aside rfl rfl rfl rfl rfl)
  | report e => exact did_report e
  | discover =>
    rw [step]
    split
    · rename_i hrunning
      split
      · exact did_refl x
      · rename_i e es hitems
        exact .applies hitems hrunning
    · exact did_refl x
  | call c =>
    rw [step]
    split
    · rename_i hc
      exact .calls hc.2 hc.1
    · exact did_refl x
  | proceed => exact absurd rfl hmv

/-! ## What holds at every time -/

/-- **What a teardown can be sure of.** -/
structure Sure (x : Teardown L) : Prop where
  proper : x.server.Proper
  /-- What was accepted was applied, or it waits. -/
  history : x.accepted = x.applied ++ x.server.scans.items
  processed : x.server.discovery.processed = x.applied.length
  /-- A session that was joined is gone, and hears nothing. -/
  gone : ∀ name seat, x.server.seats.get? name = some seat → ¬ x.progress.keeps name →
    seat.session.Gone ∧ ∀ call ∈ x.heard, call.name ≠ name
  unclaimed : x.progress.watched = false → x.claims = []
  shut : x.progress.accepts = false → x.server.scans.closed = true
  running : x.server.discovery.running = x.progress.applies
  /-- Nothing waits when scan events are no longer applied. -/
  spent : x.progress.applies = false → x.server.scans.items = []

/-- Operations that leave the scan events alone. -/
theorem Sure.advance (hx : x.Sure) {s : Server L} {heard : List Heard} {claims : List String}
    (h : x.server.Advances [] s) (hheard : heard ⊆ x.heard)
    (hclaims : x.progress.watched = false → claims ⊆ x.claims) :
    Sure { x with server := s, heard, claims } where
  proper := h.proper hx.proper
  history := hx.history.trans (congrArg (x.applied ++ ·) h.items)
  processed := h.processed.trans hx.processed
  gone name seat' hs' hkeeps := by
    obtain ⟨seat, hs, habides⟩ := h.seats name seat' hs'
    obtain ⟨hgone, hquiet⟩ := hx.gone name seat hs hkeeps
    exact ⟨habides.gone hgone, fun call hcall => hquiet call (hheard hcall)⟩
  unclaimed hw := List.subset_nil.1 (hx.unclaimed hw ▸ hclaims hw)
  shut ha := h.closed.trans (hx.shut ha)
  running := h.running.trans hx.running
  spent ha := h.items.symm.trans (hx.spent ha)

omit [Link L] in
theorem Sure.hears (hx : x.Sure) {call : Heard} {seat : Seat}
    (hs : x.server.seats.get? call.name = some seat) (hopen : seat.session.phase ≠ .closed) :
    Sure { x with heard := x.heard ++ [call] } := by
  refine { hx with gone := fun name seat' hs' hkeeps => ?_ }
  obtain ⟨hgone, hquiet⟩ := hx.gone name seat' hs' hkeeps
  refine ⟨hgone, fun call' hcall' => ?_⟩
  rcases List.mem_append.1 hcall' with hcall' | hcall'
  · exact hquiet call' hcall'
  · -- a session that is gone is closed, and hears nothing more
    obtain rfl := List.mem_singleton.1 hcall'
    rintro rfl
    cases hs.symm.trans hs'
    exact hopen hgone.closed

omit [Link L] in
/-- A session that is gone does not come back, so a step is one of another. -/
theorem Sure.enters (hx : x.Sure) {name : String} {s : Server L} {heard : List Heard}
    (hwho : x.progress = .up ∨
      ∃ call ∈ x.heard, call.name = name ∧ ∃ seat, x.server.seats.get? name = some seat)
    (hheard : heard ⊆ x.heard) (h : x.server.Changes name s) :
    Sure { x with server := s, heard } where
  proper := ⟨h.named hx.proper.named, h.fleet ▸ hx.proper.sound,
    fun e he => h.fleet ▸ hx.proper.legal e (h.scans ▸ he)⟩
  history := h.scans ▸ hx.history
  processed := (congrArg Discovery.processed h.discovery).trans hx.processed
  gone name' seat' hs' hkeeps := by
    -- the session that changed is not one of those that are gone
    have hkept : name' ≠ name := by
      rintro rfl
      rcases hwho with hup | ⟨call, hcall, hname, seat, hs⟩
      · change ¬ x.progress.keeps name' at hkeeps
        rw [hup] at hkeeps
        exact hkeeps trivial
      · exact (hx.gone name' seat hs hkeeps).2 call hcall hname
    obtain ⟨hgone, hquiet⟩ := hx.gone name' seat' (h.others name' seat' hkept hs') hkeeps
    exact ⟨hgone, fun call hcall => hquiet call (hheard hcall)⟩
  unclaimed := hx.unclaimed
  shut ha := (congrArg ScanQueue.closed h.scans).trans (hx.shut ha)
  running := (congrArg Discovery.running h.discovery).trans hx.running
  spent ha := (congrArg ScanQueue.items h.scans).trans (hx.spent ha)

omit [Link L] in
theorem Sure.offers (hx : x.Sure) {e : ScanEvent} (hlegal : e.Legal x.server.fleet)
    (hopen : x.server.scans.closed = false) :
    Sure { x with server := { x.server with scans := { x.server.scans with
                                items := x.server.scans.items ++ [e] } },
                  accepted := x.accepted ++ [e] } := by
  refine { hx with proper := ⟨hx.proper.named, hx.proper.sound, fun e' he' => ?_⟩,
                   history := ?_, spent := fun ha => ?_ }
  · rcases List.mem_append.1 he' with he' | he'
    · exact hx.proper.legal e' he'
    · obtain rfl := List.mem_singleton.1 he'
      exact hlegal
  · change x.accepted ++ [e] = x.applied ++ (x.server.scans.items ++ [e])
    rw [hx.history, List.append_assoc]
  · -- the queue is closed before it is drained
    rw [hx.shut (Progress.accepts_of_applies ha)] at hopen
    cases hopen

/-- An event that is applied leaves the queue, and the history as it was. -/
theorem Sure.applies (hx : x.Sure) {e : ScanEvent} {es : List ScanEvent}
    (hitems : x.server.scans.items = e :: es) (hrunning : x.server.discovery.running = true) :
    Sure { x with server := x.server.discoverTurn, applied := x.applied ++ [e] } := by
  have h := Server.advances_discoverTurn hx.proper hitems
  exact
    { proper := h.proper hx.proper
      history := by
        change x.accepted = x.applied ++ [e] ++ x.server.discoverTurn.scans.items
        rw [hx.history, h.items, List.append_assoc]
      processed := by
        change x.server.discoverTurn.discovery.processed = (x.applied ++ [e]).length
        rw [h.processed, hx.processed, List.length_append]
      gone := fun name seat' hs' hkeeps => by
        obtain ⟨seat, hs, habides⟩ := h.seats name seat' hs'
        obtain ⟨hgone, hquiet⟩ := hx.gone name seat hs hkeeps
        exact ⟨habides.gone hgone, hquiet⟩
      unclaimed := hx.unclaimed
      shut := fun ha => h.closed.trans (hx.shut ha)
      running := h.running.trans hx.running
      spent := fun ha => by
        have happlies := hx.running.symm.trans hrunning
        rw [ha] at happlies
        cases happlies }

/-- **No move of others shakes it.** -/
theorem Sure.did (hx : x.Sure) (h : x.Did y) : y.Sure := by
  cases h with
  | still h hheard hclaims => exact hx.advance h.advances_still hheard hclaims
  | acts h hacts hclaims hwho =>
    exact hx.advance (h.advances hacts.updates) (List.Subset.refl _) fun _ => hclaims
  | hears call hs hopen => exact hx.hears hs hopen
  | enters hwho hheard h => exact hx.enters hwho hheard h
  | offers hlegal hopen => exact hx.offers hlegal hopen
  | applies hitems hrunning => exact hx.applies hitems hrunning
  | @calls c hlegal hallows =>
    have h := Server.goes_changed hx.proper.named (x.server.fleet.after c) (x.server.fleet.trace c)
    exact hx.advance (h.advances (Fleet.updates_after hlegal)) (List.Subset.refl _)
      fun _ => List.Subset.refl _

omit [Link L] in
theorem rests_iff {name : String} : x.rests name = true ↔
    (∀ call ∈ x.heard, call.name ≠ name) ∧ ∀ seat, x.server.seats.get? name = some seat →
      seat.session.phase = .closed ∧ seat.session.stage = .idle := by
  simp [rests, Option.all_eq_true]

/-- The teardown goes on, and the scan events are treated as before. -/
theorem Sure.onward (hx : x.Sure) {s : Server L} {p : Progress L} (h : x.server.Advances [] s)
    (hkeeps : ∀ name, x.progress.keeps name → p.keeps name)
    (haccepts : p.accepts = x.progress.accepts) (happlies : p.applies = x.progress.applies)
    (hunclaimed : p.watched = false → x.claims = []) :
    Sure { x with server := s, progress := p } :=
  have hs := hx.advance h (List.Subset.refl x.heard) fun _ => List.Subset.refl x.claims
  { hs with
    gone := fun name seat hs' hnot => hs.gone name seat hs' fun hk => hnot (hkeeps name hk)
    unclaimed := hunclaimed
    shut := fun ha => hs.shut (haccepts.symm.trans ha)
    running := hs.running.trans happlies.symm
    spent := fun ha => hs.spent (happlies.symm.trans ha) }

/-- The next session is joined. -/
theorem Sure.join (hx : x.Sure) {name : String} {left : List String}
    (hp : x.progress = .sessions (name :: left)) (hrests : x.rests name = true) :
    Sure { x with server := x.server.join name, progress := .sessions left } := by
  obtain ⟨hquiet, hidle⟩ := rests_iff.1 hrests
  have hn := hx.proper.named
  have hrunning := hx.running
  rw [hp] at hrunning
  have hjoin := (Server.goes_join hn name).advances_still
  have hs := hx.advance hjoin (List.Subset.refl x.heard) fun _ => List.Subset.refl x.claims
  refine { hs with gone := fun name' seat' hs' hkeeps => ?_, unclaimed := nofun, shut := nofun,
                   running := hjoin.running.trans hrunning, spent := nofun }
  by_cases heq : name' = name
  · subst heq
    exact ⟨Server.gone_join hn hs' hidle, hquiet⟩
  · refine hs.gone name' seat' hs' fun hleft => ?_
    have hleft : name' ∈ name :: left := by rwa [hp] at hleft
    exact (List.mem_cons.1 hleft).elim heq hkeeps

omit [Link L] in
/-- The queue is closed. -/
theorem Sure.closeScans (hx : x.Sure) (hp : x.progress = .scans) :
    Sure { x with server := x.server.closeScans, progress := .discovery } := by
  have hgone := hx.gone
  have hunclaimed := hx.unclaimed
  have hrunning := hx.running
  rw [hp] at hgone hunclaimed hrunning
  exact
    { proper := ⟨hx.proper.named, hx.proper.sound, hx.proper.legal⟩
      history := hx.history
      processed := hx.processed
      gone := hgone
      unclaimed := hunclaimed
      shut := fun _ => rfl
      running := hrunning
      spent := nofun }

/-- With nothing left to be applied the discovery just stops. -/
theorem stopDiscovery_of_spent {s : Server L} (h : s.scans.items = []) :
    s.stopDiscovery = { s with discovery := { s.discovery with running := false } } := by
  have hdiscover : s.discover = s := by
    rw [Server.discover, h]
    exact ite_self _
  rw [Server.stopDiscovery, hdiscover]

/-- The discovery is stopped. -/
theorem Sure.stopDiscovery (hx : x.Sure) (hp : x.progress = .discovery)
    (hempty : x.server.scans.items = []) :
    Sure { x with server := x.server.stopDiscovery, progress := .devices } := by
  have hgone := hx.gone
  have hunclaimed := hx.unclaimed
  have hshut := hx.shut
  rw [hp] at hgone hunclaimed hshut
  rw [stopDiscovery_of_spent hempty]
  exact
    { proper := ⟨hx.proper.named, hx.proper.sound, hx.proper.legal⟩
      history := hx.history
      processed := hx.processed
      gone := hgone
      unclaimed := hunclaimed
      shut := hshut
      running := rfl
      spent := fun _ => hempty }

/-- **Nor does a step of the teardown.** -/
theorem Sure.proceed (hx : x.Sure) : x.proceed.Sure := by
  have hn := hx.proper.named
  have hunclaimed := hx.unclaimed
  rw [Teardown.proceed]
  cases hp : x.progress with
  | up =>
    have hrunning := hx.running
    rw [hp] at hrunning
    refine { hx with gone := fun name seat hs hkeeps => ?_, unclaimed := nofun, shut := nofun,
                     running := hrunning, spent := nofun }
    -- every session is to be joined
    exact absurd (Table.mem_keys_of_get? hs) hkeeps
  | sessions left =>
    cases left with
    | nil =>
      exact hx.onward (.refl _) (by rw [hp]; exact fun _ => List.not_mem_nil) (by rw [hp]; rfl)
        (by rw [hp]; rfl) nofun
    | cons name left =>
      dsimp only
      split
      · rename_i hrests
        exact hx.join hp hrests
      · rw [← hp]
        exact hx.advance (Server.goes_close hn name .cancelled).advances_still
          (List.Subset.refl _) fun _ => List.Subset.refl _
  | monitor =>
    dsimp only
    split
    · rename_i hclaims
      have hstop : x.server.Goes x.server.fleet [] x.server.stopMonitor :=
        Server.goes_aside rfl rfl rfl rfl rfl
      exact hx.onward hstop.advances_still (by rw [hp]; exact fun _ => id) (by rw [hp]; rfl)
        (by rw [hp]; rfl) fun _ => hclaims
    · exact hx
  | scans => exact hx.closeScans hp
  | discovery =>
    dsimp only
    split
    · rename_i hempty
      exact hx.stopDiscovery hp hempty
    · exact hx
  | devices =>
    rw [hp] at hunclaimed
    have hstop := Server.goes_onFleet hn Fleet.stopAll
    exact hx.onward (hstop.advances (Fleet.updates_sweep ..)) (by rw [hp]; exact fun _ => id)
      (by rw [hp]; rfl) (by rw [hp]; rfl) hunclaimed
  | links before =>
    rw [hp] at hunclaimed
    have hrelease := Server.goes_onFleet hn Fleet.disconnectAll
    exact hx.onward (hrelease.advances (ReflTransGen.single .clear))
      (by rw [hp]; exact fun _ => id) (by rw [hp]; rfl) (by rw [hp]; rfl) hunclaimed
  | ended before => exact hx

/-- **Every move keeps what a teardown can be sure of.** -/
theorem Sure.step (hx : x.Sure) (mv : Move L) : (x.step mv).Sure := by
  by_cases hmv : mv = .proceed
  · subst hmv
    exact hx.proceed
  · exact hx.did (did_step hx.proper.named hmv)

/-- **What a teardown can be sure of holds along every run.** -/
theorem Sure.run (hx : x.Sure) (moves : List (Move L)) : (x.run moves).Sure := by
  induction moves generalizing x with
  | nil => exact hx
  | cons mv moves ih => exact ih (hx.step mv)

omit [Link L] in
/-- Once scan events are no longer applied, the server is drained. -/
theorem Sure.drained (hx : x.Sure) (ha : x.progress.applies = false) : x.server.Drained where
  proper := hx.proper
  closed name seat hs := (hx.gone name seat hs (Progress.not_keeps_of_applies ha name)).1.closed
  shut := hx.shut (Progress.accepts_of_applies ha)
  spent := hx.spent ha
  halted := hx.running.trans ha

omit [Link L] in
theorem Sure.applied (hx : x.Sure) (ha : x.progress.applies = false) : x.applied = x.accepted := by
  rw [hx.history, hx.spent ha, List.append_nil]

omit [Link L] in
theorem sure_begin (b : Rulebook) (emitter : Option Emitter) (size : Nat) :
    (begin b emitter size : Teardown L).Sure where
  proper := ⟨fun _ _ h => (nomatch h), Fleet.sound_start b, fun _ h => (nomatch h)⟩
  history := rfl
  processed := rfl
  gone _ _ h := nomatch h
  unclaimed _ := rfl
  shut := nofun
  running := rfl
  spent _ := rfl

end Teardown

end Haptics
