import Haptics.Proofs.Fleet.Release
import Haptics.Proofs.Session.Silence
import Haptics.Server.Shutdown
import Mathlib.Data.Prod.Lex
/-!
# What the operations of a server come to

Most operations of a server let its sessions make a step and tell of what happened to
the fleet. `Goes` is what they have in common: the fleet, what was told of it, and the
sessions, which stay what they are. A worker and a safety stop do to the fleet what
`Fleet.Acts` says. `Advances` is what several operations come to, with the scan events
that were applied on the way; `drained_drained` is what the first half of a shut-down
comes to.
-/

namespace Haptics

open Relation

variable {L α : Type}

/-! ## Sessions -/

/-- How far a stage is from the end of the task, and the devices it is still for. -/
def Stage.left : Stage → ℕ × ℕ
  | .idle => (0, 0)
  | .settled .. => (1, 0)
  | .restopping _ _ sweep => (2, sweep.targets.length)
  | .executed .. => (3, 0)
  | .sweeping _ sweep => (4, sweep.targets.length)
  | .cleared _ => (5, 0)
  | .taken _ => (6, 0)

namespace Session

variable {s s' s'' : Session}

/-- The session is closed and joined, and its worker is idle. -/
structure Gone (s : Session) : Prop where
  closed : s.phase = .closed
  running : s.running = false
  idle : s.stage = .idle

/-- What is left to do for the worker. -/
def effort (s : Session) : ℕ ×ₗ ℕ ×ₗ ℕ := toLex (s.work.length, toLex s.stage.left)

/-- A worker that gets on with its task has less left to do, while no work is added. -/
theorem effort_lt_of_stage (hwork : s'.work = s.work)
    (hstage : toLex s'.stage.left < toLex s.stage.left) : s'.effort < s.effort := by
  rw [effort, effort, hwork]
  exact Prod.Lex.toLex_lt_toLex.2 (.inr ⟨rfl, hstage⟩)

/-- The session has the same name, it is closed or gone if it was, and its worker has no
more to do. -/
structure Abides (s s' : Session) : Prop where
  name : s'.name = s.name
  closed : s.phase = .closed → s'.phase = .closed
  gone : s.Gone → s'.Gone
  effort : s'.effort ≤ s.effort

theorem Abides.refl (s : Session) : s.Abides s := ⟨rfl, id, id, le_refl _⟩

theorem Abides.trans (h : s.Abides s') (h' : s'.Abides s'') : s.Abides s'' :=
  ⟨h'.name.trans h.name, fun hc => h'.closed (h.closed hc), fun hg => h'.gone (h.gone hg),
    h'.effort.trans h.effort⟩

theorem abides_close (s : Session) (reason : ErrorCode) : s.Abides (s.close reason).1 := by
  unfold close
  split
  · exact .refl s
  · rename_i hopen
    refine ⟨rfl, fun hc => absurd hc hopen, fun hg => absurd hg.closed hopen, ?_⟩
    -- the queued work is dropped
    exact Prod.Lex.toLex_mono ⟨Nat.zero_le _, le_refl _⟩

/-- **What listening comes to**: a session that forwards nothing rests, one whose queue has
overflowed is closed, and any other takes an event from its queue. -/
theorem listen_outcome (s : Session) (m : Emitter) :
    (s.listen m = (s, m, []) ∧ ∀ id, s.running = true → s.subscription ≠ some id) ∨
    ∃ id, s.running = true ∧ s.subscription = some id ∧
      (s.listen m = ((s.close .cancelled).1, m, (s.close .cancelled).2) ∧
          (m.queue? id).any (·.overflowed) = true ∨
        (∃ outputs, s.listen m = (s, (m.pop id).2, outputs)) ∧
          (m.queue? id).any (·.overflowed) = false) := by
  unfold listen
  split
  · rename_i hnone
    refine .inl ⟨rfl, fun id _ hid => ?_⟩
    rw [hnone] at hid
    cases hid
  · rename_i id hid
    split
    · rename_i hstopped
      exact .inl ⟨rfl, fun _ hrun _ => by simp [hrun] at hstopped⟩
    · rename_i hgoes
      refine .inr ⟨id, by simpa using hgoes, hid, ?_⟩
      split
      · rename_i hover
        exact .inl ⟨rfl, hover⟩
      · rename_i hkept
        refine .inr ⟨?_, by simpa using hkept⟩
        split
        · rename_i heq
          exact ⟨[], by rw [heq]⟩
        · rename_i heq
          exact ⟨_, by rw [heq]⟩

/-- To listen is to send or to close, and the session abides. -/
theorem abides_listen (s : Session) (m : Emitter) : s.Abides (s.listen m).1 := by
  rcases s.listen_outcome m with ⟨hrests, -⟩ | ⟨id, -, -, ⟨hcloses, -⟩ | ⟨⟨outputs, htakes⟩, -⟩⟩
  · rw [hrests]
    exact .refl s
  · rw [hcloses]
    exact s.abides_close .cancelled
  · rw [htakes]
    exact .refl s

theorem abides_join (s : Session) (emitter : Option Emitter) : s.Abides (s.join emitter).1 :=
  ⟨rfl, id, fun hg => ⟨hg.closed, rfl, hg.idle⟩, le_refl _⟩

theorem abides_claim (s : Session) (now : Time) : s.Abides (s.claim now).2 := by
  unfold claim
  split
  · exact ⟨rfl, id, fun hg => ⟨hg.closed, hg.running, hg.idle⟩, le_refl _⟩
  · exact .refl s

theorem abides_reply (s : Session) (id : UInt32) (payload : Payload) :
    s.Abides (s.reply id payload).1 := by
  unfold reply
  split
  · exact .refl s
  · exact ⟨rfl, fun hc => hc, fun hg => ⟨hg.closed, hg.running, hg.idle⟩, le_refl _⟩

theorem name_close (s : Session) (reason : ErrorCode) : (s.close reason).1.name = s.name :=
  (s.abides_close reason).name

theorem name_violate (s : Session) (id : UInt32) (v : Violation) :
    (s.violate id v).session.name = s.name := s.name_close v.code

theorem name_accept (s : Session) (id : UInt32) (entries : List DeviceEntry) (r : Request) :
    (s.accept id entries r).session.name = s.name := by
  cases r with
  | deviceList => exact (abides_reply ..).name
  | task t => rfl

/-- **A session keeps its name**, whatever it answers. -/
theorem name_answer (s : Session) (phase : Phase) (m : Message) (now : Time)
    (entries : List DeviceEntry) : (s.answer phase m now entries).session.name = s.name := by
  have hserve : (s.serve m now entries).session.name = s.name := by
    unfold serve
    dsimp only
    split
    · rfl
    · rfl
    · exact name_violate ..
    · split
      · exact name_violate ..
      · split
        · exact name_violate ..
        · split
          · exact name_violate ..
          · exact name_accept ..
  cases phase with
  | awaitingHandshake =>
    change (s.greet m now).session.name = s.name
    unfold greet
    split
    · split
      · exact name_violate ..
      · dsimp only
        split
        · exact name_violate ..
        · rfl
    · exact name_violate ..
  | ready => exact hserve
  | closed => exact hserve

variable [Link L] {f g : Fleet L} {turn : Turn L}

/-- **What a step of a worker comes to.** The session was not gone, and less is left to
do. -/
structure GetsOn (s : Session) (f : Fleet L) (turn : Turn L) : Prop where
  abides : s.Abides turn.session
  stays : ¬ s.Gone
  acts : f.Acts turn.fleet turn.trace
  effort : turn.session.effort < s.effort

omit [Link L] in
/-- The end of a task is nowhere before it. -/
theorem busy_of_left {stage stage' : Stage} (hstage : s.stage = stage)
    (hleft : toLex stage'.left < toLex stage.left) : s.stage ≠ .idle := by
  rintro hidle
  rw [← hstage, hidle] at hleft
  rcases Prod.Lex.toLex_lt_toLex.1 hleft with hlt | ⟨-, hlt⟩
  · exact Nat.not_lt_zero _ hlt
  · exact Nat.not_lt_zero _ hlt

/-- The worker goes from a stage to one that is nearer to the end. -/
theorem getsOn_onward {stage stage' : Stage} (hstage : s.stage = stage)
    (hleft : toLex stage'.left < toLex stage.left) {trace : List Happening}
    (hacts : f.Acts g trace) :
    s.GetsOn f { session := { s with stage := stage' }, fleet := g, trace } :=
  have hbusy := busy_of_left hstage hleft
  have heffort : ({ s with stage := stage' } : Session).effort < s.effort :=
    effort_lt_of_stage rfl (hstage ▸ hleft)
  ⟨⟨rfl, id, fun hg => absurd hg.idle hbusy, heffort.le⟩, fun hg => hbusy hg.idle, hacts, heffort⟩

/-- A reply ends a task. -/
theorem getsOn_reply {w : Work} {result : Payload} (hstage : s.stage = .settled w result)
    (outputs : List Output) :
    s.GetsOn f { session := { (s.reply w.id result).1 with stage := .idle }, fleet := f,
                 outputs } := by
  have hleft : toLex Stage.idle.left < toLex (Stage.settled w result).left :=
    Prod.Lex.toLex_lt_toLex.2 (.inl Nat.one_pos)
  have hbusy := busy_of_left hstage hleft
  have hreply := abides_reply s w.id result
  have hwork : (s.reply w.id result).1.work = s.work := by
    unfold reply
    split <;> rfl
  have heffort : ({ (s.reply w.id result).1 with stage := .idle } : Session).effort < s.effort :=
    effort_lt_of_stage hwork (hstage ▸ hleft)
  exact ⟨⟨hreply.name, hreply.closed, fun hg => absurd hg.idle hbusy, heffort.le⟩,
    fun hg => hbusy hg.idle, .refl f, heffort⟩

/-- A task is taken from the queue. -/
theorem getsOn_take {w : Work} {rest : List Work} (hrunning : s.running = true)
    (hwork : s.work = w :: rest) :
    s.GetsOn f { session := { s with work := rest, stage := .taken w }, fleet := f } := by
  have hstays : ¬ s.Gone := fun hg => Bool.false_ne_true (hg.running.symm.trans hrunning)
  have heffort : ({ s with work := rest, stage := .taken w } : Session).effort < s.effort := by
    rw [effort, effort, hwork]
    exact Prod.Lex.toLex_lt_toLex.2 (.inl (Nat.lt_succ_self _))
  exact ⟨⟨rfl, id, fun hg => absurd hg hstays, heffort.le⟩, hstays, .refl f, heffort⟩

/-- **A step of a worker.** -/
theorem getsOn_workStep (h : s.workStep f = some turn) : s.GetsOn f turn := by
  -- a later stage of the task, or the next device of a sweep
  have hlater {m n j k : ℕ} (hmn : m.blt n = true) : toLex (m, j) < toLex (n, k) :=
    Prod.Lex.toLex_lt_toLex.2 (.inl (Nat.le_of_ble_eq_true hmn))
  have hnext {n : ℕ} {i : Nat} {is targets : List Nat} (ht : targets = i :: is) :
      toLex (n, is.length) < toLex (n, targets.length) :=
    Prod.Lex.toLex_lt_toLex.2 (.inr ⟨rfl, ht ▸ Nat.lt_succ_self _⟩)
  unfold workStep at h
  split at h
  · split at h
    · split at h <;> cases h
      exact getsOn_take ‹_› ‹_›
    · cases h
  · rename_i hstage
    split at h <;> cases h
    · exact getsOn_onward hstage (hlater rfl) (.refl f)
    · exact getsOn_onward hstage (hlater rfl) (.refl f)
  · rename_i hstage
    split at h <;> cases h
    · exact getsOn_onward hstage (hlater rfl) (Fleet.acts_dispatch f _ _)
    · exact getsOn_onward hstage (hlater rfl) (.refl f)
  · rename_i hstage
    split at h <;> cases h
    · exact getsOn_onward hstage (hlater rfl) (.refl f)
    · exact getsOn_onward hstage (hnext ‹_›) (Fleet.acts_stopOne f _ _)
  · rename_i hstage
    split at h <;> cases h
    · exact getsOn_onward hstage (hlater rfl) (.refl f)
    · exact getsOn_onward hstage (hlater rfl) (.refl f)
  · rename_i hstage
    split at h <;> cases h
    · exact getsOn_onward hstage (hlater rfl) (.refl f)
    · exact getsOn_onward hstage (hnext ‹_›) (Fleet.acts_stopOne f _ _)
  · rename_i hstage
    cases h
    exact getsOn_reply hstage _

/-- A worker that is not idle has a step to make. -/
theorem workStep_of_busy (h : s.stage ≠ .idle) (f : Fleet L) : ∃ turn, s.workStep f = some turn := by
  unfold workStep
  split
  · rename_i hidle
    exact absurd hidle h
  all_goals first | exact ⟨_, rfl⟩ | (split <;> exact ⟨_, rfl⟩)

end Session

/-! ## Scan events -/

/-- A device is found with a link of the fleet, if with any. -/
def ScanEvent.Legal (f : Fleet L) : ScanEvent → Prop
  | .found _ _ (some id) => id < f.links.length
  | _ => True

instance (f : Fleet L) (e : ScanEvent) : Decidable (e.Legal f) :=
  match e with
  | .found _ _ (some id) => inferInstanceAs (Decidable (id < f.links.length))
  | .found _ _ none => inferInstanceAs (Decidable True)
  | .lost _ => inferInstanceAs (Decidable True)
  | .notification .. => inferInstanceAs (Decidable True)

/-- No link is lost. -/
theorem ScanEvent.Legal.mono {f g : Fleet L} {e : ScanEvent} (h : e.Legal f)
    (he : f.Evolves g) : e.Legal g := by
  cases e with
  | found i services link =>
    cases link with
    | none => trivial
    | some id => exact Nat.lt_of_lt_of_le h he.links_le
  | lost i => trivial
  | notification i endpoint data => trivial

/-- **A scan event that is applied comes down to updates of the fleet.** -/
theorem Fleet.updates_discover [Link L] {f : Fleet L} {e : ScanEvent} (h : e.Legal f) :
    f.Updates (f.discover e).fleet := by
  cases e with
  | found i services link =>
    refine updates_register fun id hid => ?_
    subst hid
    exact h
  | lost i => exact updates_unregister f i
  | notification i endpoint data =>
    have hsame : (f.discover (.notification i endpoint data)).fleet = f := f.fleet_notify i data
    rw [hsame]

/-! ## Operations -/

/-- The happening that an entry of a journal tells of. -/
def Note.happening? : Note → Option Happening
  | .happened h => some h
  | _ => none

namespace Server

variable {s s' s'' : Server L} {f g : Fleet L} {trace trace' : List Happening} {name : String}

/-- What happened to the fleet so far. -/
def happened (s : Server L) : List Happening := s.journal.filterMap Note.happening?

theorem happened_note (s : Server L) (notes : List Note) :
    (s.note notes).happened = s.happened ++ notes.filterMap Note.happening? :=
  List.filterMap_append

/-- What a session puts out is nothing that happened to the fleet. -/
theorem happenings_notes (seat : Seat) (outputs : List Output) :
    (seat.notes outputs).filterMap Note.happening? = [] := by
  rw [List.filterMap_eq_nil_iff]
  intro n hn
  obtain ⟨o, -, ho⟩ := List.mem_filterMap.1 hn
  cases o with
  | sent m =>
    dsimp only at ho
    split at ho <;> cases ho
    rfl
  | closed reason =>
    dsimp only at ho
    split at ho <;> cases ho
    rfl

/-- Every session sits under its name. -/
def Named (s : Server L) : Prop :=
  ∀ name seat, s.seats.get? name = some seat → seat.session.name = name

/-- There are no new sessions, and those that are there have stayed what they were. -/
def Abides (s s' : Server L) : Prop :=
  ∀ name seat', s'.seats.get? name = some seat' →
    ∃ seat, s.seats.get? name = some seat ∧ seat.session.Abides seat'.session

theorem Abides.of_seats (h : s'.seats = s.seats) : s.Abides s' :=
  fun _ seat' hs => ⟨seat', h ▸ hs, .refl _⟩

theorem Abides.trans (h : s.Abides s') (h' : s'.Abides s'') : s.Abides s'' := by
  intro name seat'' hs''
  obtain ⟨seat', hs', habides'⟩ := h' name seat'' hs''
  obtain ⟨seat, hs, habides⟩ := h name seat' hs'
  exact ⟨seat, hs, habides.trans habides'⟩

theorem Abides.named (h : s.Abides s') (hn : s.Named) : s'.Named := by
  intro name seat' hs'
  obtain ⟨seat, hs, habides⟩ := h name seat' hs'
  exact habides.name.trans (hn name seat hs)

/-- A session makes a step. -/
theorem abides_enter (hn : s.Named) {seat : Seat} (hs : s.seats.get? name = some seat)
    {session : Session} (habides : seat.session.Abides session) (seat' : Seat)
    (outputs : List Output) : s.Abides (s.enter seat' session outputs) := by
  intro name' seat'' hs''
  have hname : session.name = name := habides.name.trans (hn name seat hs)
  have hread : (s.enter seat' session outputs).seats.get? name' =
      if name' = session.name then some { seat' with session } else s.seats.get? name' :=
    Table.get?_insert ..
  rw [hread] at hs''
  split at hs''
  · rename_i heq
    cases hs''
    rw [heq, hname]
    exact ⟨seat, hs, habides⟩
  · exact ⟨seat'', hs'', .refl _⟩

/-- The session that has made a step. -/
theorem get?_enter (s : Server L) (seat : Seat) {session : Session} (hname : session.name = name)
    (outputs : List Output) :
    (s.enter seat session outputs).seats.get? name = some { seat with session } :=
  (Table.get?_insert ..).trans (if_pos hname.symm)

/-- **What an operation of a server comes to**: the fleet is `f` afterwards and `trace`
was told of it, the scan events wait as before, and the sessions have stayed what they
were. -/
structure Goes (s : Server L) (f : Fleet L) (trace : List Happening) (s' : Server L) : Prop where
  fleet : s'.fleet = f
  scans : s'.scans = s.scans
  discovery : s'.discovery = s.discovery
  happened : s'.happened = s.happened ++ trace
  seats : s.Abides s'

/-- An operation that changes none of this. -/
theorem goes_aside (hfleet : s'.fleet = s.fleet) (hscans : s'.scans = s.scans)
    (hdiscovery : s'.discovery = s.discovery) (hjournal : s'.journal = s.journal)
    (hseats : s'.seats = s.seats) : s.Goes s.fleet [] s' where
  fleet := hfleet
  scans := hscans
  discovery := hdiscovery
  happened := by rw [Server.happened, hjournal, List.append_nil, Server.happened]
  seats := .of_seats hseats

theorem Goes.refl (s : Server L) : s.Goes s.fleet [] s := goes_aside rfl rfl rfl rfl rfl

theorem Goes.trans (h : s.Goes f trace s') (h' : s'.Goes g trace' s'') :
    s.Goes g (trace ++ trace') s'' where
  fleet := h'.fleet
  scans := h'.scans.trans h.scans
  discovery := h'.discovery.trans h.discovery
  happened := by rw [h'.happened, h.happened, List.append_assoc]
  seats := h.seats.trans h'.seats

/-- An operation that leaves the fleet alone, after another. -/
theorem Goes.still (h : s.Goes f trace s') (h' : s'.Goes s'.fleet [] s'') :
    s.Goes f trace s'' := by
  have hboth := h.trans h'
  rwa [List.append_nil, h.fleet] at hboth

/-- A session that abides goes back to its seat, and the fleet is left alone. -/
theorem goes_enter (hn : s.Named) {seat : Seat} (hs : s.seats.get? name = some seat)
    {session : Session} (habides : seat.session.Abides session) (seat' : Seat)
    (outputs : List Output) : s.Goes s.fleet [] (s.enter seat' session outputs) where
  fleet := rfl
  scans := rfl
  discovery := rfl
  happened := by
    rw [enter, happened_note, happenings_notes]
    rfl
  seats := abides_enter hn hs habides seat' outputs

/-- **A turn of the forwarding**: the session listens, unless it is not there, there is no emitter
or a message to its client is stuck. -/
theorem listenTurn_cases (s : Server L) (name : String) :
    s.listenTurn name = s ∧ (∀ seat m, s.seats.get? name = some seat → s.emitter = some m →
      seat.channel.stuck ≠ none) ∨
    ∃ seat m channel outputs, s.seats.get? name = some seat ∧ s.emitter = some m ∧
      seat.channel.stuck = none ∧
      s.listenTurn name = ({ s with emitter := some (seat.session.listen m).2.1 } :
        Server L).enter { seat with channel } (seat.session.listen m).1 outputs := by
  unfold listenTurn
  split
  · rename_i seat m hs hm
    split
    · rename_i hstuck
      refine .inl ⟨rfl, fun seat' m' hs' _ hfree => ?_⟩
      rw [hs] at hs'
      cases hs'
      rw [hfree] at hstuck
      cases hstuck
    · rename_i hfree
      have hfree : seat.channel.stuck = none := by simpa using hfree
      dsimp only
      split
      · exact .inr ⟨seat, m, _, _, hs, hm, hfree, rfl⟩
      · exact .inr ⟨seat, m, _, _, hs, hm, hfree, rfl⟩
  · rename_i hnot
    exact .inl ⟨rfl, fun seat m hs hm => absurd hm (hnot seat m hs)⟩

/-- Who listens does nothing to the fleet. -/
theorem goes_listenTurn (hn : s.Named) (name : String) :
    s.Goes s.fleet [] (s.listenTurn name) := by
  rcases s.listenTurn_cases name with ⟨hsame, -⟩ | ⟨seat, m, channel, outputs, hs, -, -, hturn⟩
  · rw [hsame]
    exact .refl s
  · have hbase : s.Goes s.fleet [] { s with emitter := some (seat.session.listen m).2.1 } :=
      goes_aside rfl rfl rfl rfl rfl
    rw [hturn]
    exact hbase.still (goes_enter (hbase.seats.named hn) hs (seat.session.abides_listen m) _ _)

theorem goes_listen (hn : s.Named) (name : String) : s.Goes s.fleet [] (s.listen name) := by
  rw [listen]
  generalize s.backlog name + 1 = n
  induction n with
  | zero => exact .refl s
  | succ n ih =>
    have hturn := goes_listenTurn (ih.seats.named hn) name
    exact ih.still hturn

theorem goes_listenAll (hn : s.Named) : s.Goes s.fleet [] s.listenAll := by
  rw [listenAll]
  generalize s.seats.entries = entries
  induction entries generalizing s with
  | nil => exact .refl s
  | cons e entries ih =>
    have hfirst := goes_listen hn e.1
    exact hfirst.still (ih (hfirst.seats.named hn))

/-- Whatever happened to the fleet is told of, and changes nothing else. -/
theorem goes_publish (hn : s.Named) (trace : List Happening) :
    s.Goes s.fleet trace (s.publish trace) := by
  induction trace generalizing s with
  | nil => exact .refl s
  | cons h trace ih =>
    have hfirst : s.Goes s.fleet [h] (s.publishOne h) := by
      have hnote : s.Goes s.fleet [h] (s.note [.happened h]) :=
        ⟨rfl, rfl, rfl, happened_note s _, .of_seats rfl⟩
      cases h with
      | traffic id t => exact hnote
      | emitted body =>
        have hemit : s.Goes s.fleet [.emitted body]
            { s.note [.happened (.emitted body)] with
              emitter := s.emitter.map (·.emit body 0) } :=
          ⟨rfl, rfl, rfl, happened_note s _, .of_seats rfl⟩
        exact hemit.still (goes_listenAll (hemit.seats.named hn))
    have hrest := ih (hfirst.seats.named hn)
    rw [hfirst.fleet] at hrest
    exact hfirst.trans hrest

/-- A fleet that was changed, with what happened to it. -/
theorem goes_changed (hn : s.Named) (f : Fleet L) (trace : List Happening) :
    s.Goes f trace (({ s with fleet := f } : Server L).publish trace) := by
  have h := goes_publish (s := { s with fleet := f }) hn trace
  exact ⟨h.fleet, h.scans, h.discovery, h.happened, h.seats⟩

theorem goes_onFleet (hn : s.Named) (op : Fleet L → Outcome L α) :
    s.Goes (op s.fleet).fleet (op s.fleet).trace (s.onFleet op).2 := goes_changed hn _ _

/-- **A turn of a session does to the server what it does to the fleet**, and tells of it. -/
theorem goes_commit (hn : s.Named) {seat : Seat} (hs : s.seats.get? name = some seat)
    {turn : Session.Turn L} (habides : seat.session.Abides turn.session) :
    s.Goes turn.fleet turn.trace (s.commit seat turn) := by
  have henter := goes_enter (s := { s with fleet := turn.fleet }) hn hs habides seat turn.outputs
  have h := goes_publish (henter.seats.named hn) turn.trace
  rw [henter.fleet] at h
  have hboth := henter.trans h
  exact ⟨hboth.fleet, hboth.scans, hboth.discovery, hboth.happened, hboth.seats⟩

/-- The session that has made a step may only be told of events. -/
theorem abides_commit (hn : s.Named) {seat seat' : Seat} (hs : s.seats.get? name = some seat)
    {turn : Session.Turn L} (habides : seat.session.Abides turn.session)
    (hs' : (s.commit seat turn).seats.get? name = some seat') :
    turn.session.Abides seat'.session := by
  have hname : turn.session.name = name := habides.name.trans (hn name seat hs)
  have henter := abides_enter (s := { s with fleet := turn.fleet }) hn hs habides seat turn.outputs
  obtain ⟨seat'', hs'', htold⟩ := (goes_publish (henter.named hn) turn.trace).seats name seat' hs'
  rw [get?_enter _ seat hname] at hs''
  cases hs''
  exact htold

theorem goes_close (hn : s.Named) (name : String) (reason : ErrorCode) :
    s.Goes s.fleet [] (s.close name reason) := by
  unfold close
  split
  · exact .refl s
  · rename_i seat hs
    exact goes_enter hn hs (seat.session.abides_close reason) _ _

theorem goes_join (hn : s.Named) (name : String) : s.Goes s.fleet [] (s.join name) := by
  unfold join
  split
  · exact .refl s
  · rename_i seat hs
    have hbase : s.Goes s.fleet [] { s with emitter := (seat.session.join s.emitter).2 } :=
      goes_aside rfl rfl rfl rfl rfl
    have henter := goes_enter (hbase.seats.named hn) hs
      (seat.session.abides_join s.emitter)
    exact hbase.still (henter _ _)

/-- A closed session with an idle worker is gone once it is joined. -/
theorem gone_join (hn : s.Named) {seat' : Seat}
    (hs' : (s.join name).seats.get? name = some seat')
    (hrests : ∀ seat, s.seats.get? name = some seat →
      seat.session.phase = .closed ∧ seat.session.stage = .idle) : seat'.session.Gone := by
  obtain ⟨seat, hs, -⟩ := (goes_join hn name).seats name seat' hs'
  have hname : (seat.session.join s.emitter).1.name = name := hn name seat hs
  have hread : (s.join name).seats.get? name =
      some { seat with session := (seat.session.join s.emitter).1 } := by
    rw [join, hs]
    exact get?_enter _ seat hname []
  rw [hread] at hs'
  cases hs'
  exact ⟨(hrests seat hs).1, rfl, (hrests seat hs).2⟩

theorem goes_dismiss (hn : s.Named) (name : String) : s.Goes s.fleet [] (s.dismiss name) := by
  have hjoin := goes_join hn name
  have herase : (s.join name).Goes (s.join name).fleet [] (s.dismiss name) := by
    refine ⟨rfl, rfl, rfl, (List.append_nil _).symm, fun name' seat hs => ?_⟩
    have hread : (s.dismiss name).seats.get? name' =
        if name' = name then none else (s.join name).seats.get? name' := Table.get?_erase ..
    rw [hread] at hs
    split at hs
    · cases hs
    · exact ⟨seat, hs, .refl _⟩
  exact hjoin.still herase

theorem goes_claimPing (hn : s.Named) (name : String) :
    s.Goes s.fleet [] (s.claimPing name).2 := by
  unfold claimPing
  split
  · exact .refl s
  · rename_i seat hs
    exact goes_enter hn hs (seat.session.abides_claim s.now) _ _

theorem goes_onChannel (s : Server L) (name : String) (change : Channel → Channel) :
    s.Goes s.fleet [] (s.onChannel name change) where
  fleet := rfl
  scans := rfl
  discovery := rfl
  happened := (List.append_nil _).symm
  seats := by
    intro name' seat' hs'
    have hread : (s.onChannel name change).seats.get? name' = if name' = name then
        (s.seats.get? name).map fun seat => { seat with channel := change seat.channel }
        else s.seats.get? name' := Table.get?_modify ..
    rw [hread] at hs'
    split at hs'
    · rename_i heq
      obtain ⟨seat, hs, rfl⟩ := Option.map_eq_some_iff.1 hs'
      exact ⟨seat, heq ▸ hs, .refl _⟩
    · exact ⟨seat', hs', .refl _⟩

theorem goes_releaseChannel (hn : s.Named) (name : String) :
    s.Goes s.fleet [] (s.releaseChannel name) := by
  unfold releaseChannel
  split
  · exact .refl s
  · rename_i seat hs
    exact goes_enter hn hs (.refl seat.session) _ _

/-! ## Closing every session -/

/-- Every session is closed. -/
def Closed (s : Server L) : Prop :=
  ∀ name seat, s.seats.get? name = some seat → seat.session.phase = .closed

theorem Abides.closed (h : s.Abides s') (hc : s.Closed) : s'.Closed := by
  intro name seat' hs'
  obtain ⟨seat, hs, habides⟩ := h name seat' hs'
  exact habides.closed (hc name seat hs)

theorem closeAll_eq (s : Server L) (reason : ErrorCode) :
    s.closeAll reason = s.seats.keys.foldl (fun s name => s.close name reason) s := by
  rw [closeAll, Table.keys, List.foldl_map]

theorem goes_closes (hn : s.Named) (names : List String) (reason : ErrorCode) :
    s.Goes s.fleet [] (names.foldl (fun s name => s.close name reason) s) := by
  induction names generalizing s with
  | nil => exact .refl s
  | cons name names ih =>
    have hfirst := goes_close hn name reason
    exact hfirst.still (ih (hfirst.seats.named hn))

theorem closed_close (hn : s.Named) {reason : ErrorCode} {seat : Seat}
    (hs : (s.close name reason).seats.get? name = some seat) : seat.session.phase = .closed := by
  obtain ⟨seat', hs', -⟩ := (goes_close hn name reason).seats name seat hs
  have hname : (seat'.session.close reason).1.name = name :=
    (seat'.session.abides_close reason).name.trans (hn name seat' hs')
  have hread : (s.close name reason).seats.get? name =
      some { seat' with session := (seat'.session.close reason).1 } := by
    rw [close, hs']
    exact get?_enter s seat' hname _
  rw [hread] at hs
  cases hs
  exact Session.phase_close _ _

/-- Of sessions that are closed one after the other, those closed early stay so. -/
theorem closed_closes (hn : s.Named) {names : List String} (hname : name ∈ names)
    {reason : ErrorCode} {seat : Seat}
    (hs : (names.foldl (fun s name => s.close name reason) s).seats.get? name = some seat) :
    seat.session.phase = .closed := by
  induction names generalizing s with
  | nil => cases hname
  | cons first names ih =>
    have hn' := (goes_close hn first reason).seats.named hn
    rcases List.mem_cons.1 hname with rfl | hname
    · -- it stays closed while others are closed
      obtain ⟨seat', hs', habides⟩ := (goes_closes hn' names reason).seats name seat hs
      exact habides.closed (closed_close hn hs')
    · exact ih hn' hname hs

theorem goes_closeAll (hn : s.Named) (reason : ErrorCode) :
    s.Goes s.fleet [] (s.closeAll reason) := by
  rw [closeAll_eq]
  exact goes_closes hn _ reason

/-- **Every session is closed.** -/
theorem closed_closeAll (hn : s.Named) (reason : ErrorCode) : (s.closeAll reason).Closed := by
  intro name seat hs
  obtain ⟨seat', hs', -⟩ := (goes_closeAll hn reason).seats name seat hs
  rw [closeAll_eq] at hs
  exact closed_closes hn (Table.mem_keys_of_get? hs') hs

/-! ## Steps that touch devices -/

variable [Link L]

/-- A safety stop sweeps devices and closes its session. -/
theorem goes_pingStop (hn : s.Named) (name : String) :
    ∃ f trace, s.Goes f trace (s.pingStop name) ∧ s.fleet.Acts f trace := by
  unfold pingStop
  split
  · exact ⟨_, _, .refl s, .refl _⟩
  · rename_i seat hs
    exact ⟨_, _, goes_commit hn hs (seat.session.abides_close .pingTimeout),
      Fleet.acts_sweep s.fleet _ _⟩

/-- One step of the worker of a session, once nothing keeps it waiting. -/
def workOnce (name : String) (s : Server L) : Server L :=
  match s.seats.get? name with
  | none => s
  | some seat =>
    match seat.session.workStep s.fleet with
    | none => s
    | some turn => ({ s with stalled := s.stalled.erase name } : Server L).commit seat turn

theorem workOnce_eq {seat : Seat} {turn : Session.Turn L} (hs : s.seats.get? name = some seat)
    (hturn : seat.session.workStep s.fleet = some turn) :
    s.workOnce name = ({ s with stalled := s.stalled.erase name } : Server L).commit seat turn := by
  rw [workOnce, hs]
  dsimp only
  rw [hturn]

/-- A worker waits, begins to wait or makes its step. -/
theorem workTurn_cases (s : Server L) (name : String) :
    s.workTurn name = s ∨ (∃ stalled, s.workTurn name = { s with stalled }) ∨
      s.workTurn name = s.workOnce name := by
  unfold workTurn
  split
  · exact .inl rfl
  · rename_i seat hs
    split
    · exact .inl rfl
    · rename_i turn hturn
      rw [workOnce_eq hs hturn]
      dsimp only
      split
      · split
        · exact .inl rfl
        · split
          · exact .inr (.inl ⟨_, rfl⟩)
          · exact .inr (.inr rfl)
      · split
        · exact .inl rfl
        · exact .inr (.inr rfl)

/-- **A worker acts on the fleet and on nothing else** but its own session. -/
theorem goes_workOnce (hn : s.Named) (name : String) :
    ∃ f trace, s.Goes f trace (s.workOnce name) ∧ s.fleet.Acts f trace := by
  have hrest : ∃ f trace, s.Goes f trace s ∧ s.fleet.Acts f trace := ⟨_, _, .refl s, .refl _⟩
  unfold workOnce
  split
  · exact hrest
  · rename_i seat hs
    split
    · exact hrest
    · rename_i turn hturn
      have hstep := Session.getsOn_workStep hturn
      have hbase : s.Goes s.fleet [] { s with stalled := s.stalled.erase name } :=
        goes_aside rfl rfl rfl rfl rfl
      have hcommit := goes_commit (hbase.seats.named hn) hs hstep.abides
      exact ⟨_, _, hbase.trans hcommit, hstep.acts⟩

/-- **A worker that is not idle gets on**: less is left to do. -/
theorem effort_workOnce (hn : s.Named) {seat seat' : Seat} (hs : s.seats.get? name = some seat)
    (hbusy : seat.session.stage ≠ .idle)
    (hs' : (s.workOnce name).seats.get? name = some seat') :
    seat'.session.effort < seat.session.effort := by
  obtain ⟨turn, hturn⟩ := Session.workStep_of_busy hbusy s.fleet
  have hstep := Session.getsOn_workStep hturn
  rw [workOnce_eq hs hturn] at hs'
  have habides := abides_commit (s := { s with stalled := s.stalled.erase name }) hn hs
    hstep.abides hs'
  exact lt_of_le_of_lt habides.effort hstep.effort

/-- The worker of a session that is gone makes no step. -/
theorem workOnce_of_gone
    (hgone : ∀ seat, s.seats.get? name = some seat → seat.session.Gone) :
    s.workOnce name = s := by
  unfold workOnce
  split
  · rfl
  · rename_i seat hs
    split
    · rfl
    · rename_i turn hturn
      exact absurd (hgone seat hs) (Session.getsOn_workStep hturn).stays

theorem goes_workTurn (hn : s.Named) (name : String) :
    ∃ f trace, s.Goes f trace (s.workTurn name) ∧ s.fleet.Acts f trace := by
  rcases s.workTurn_cases name with heq | ⟨stalled, heq⟩ | heq
  · rw [heq]
    exact ⟨_, _, .refl s, .refl _⟩
  · rw [heq]
    exact ⟨_, _, goes_aside rfl rfl rfl rfl rfl, .refl _⟩
  · rw [heq]
    exact goes_workOnce hn name

/-! ## Several operations -/

/-- **A server is proper**: its sessions sit under their names, its fleet is sound, and
the scan events that wait are about links of the fleet. -/
structure Proper (s : Server L) : Prop where
  named : s.Named
  sound : s.fleet.Sound
  legal : ∀ e ∈ s.scans.items, e.Legal s.fleet

/-- **What several operations come to**: the scan events `es` were applied, nothing else
became of the queue, and the sessions have stayed what they were. -/
structure Advances (s : Server L) (es : List ScanEvent) (s' : Server L) : Prop where
  updates : s.fleet.Updates s'.fleet
  items : s.scans.items = es ++ s'.scans.items
  closed : s'.scans.closed = s.scans.closed
  running : s'.discovery.running = s.discovery.running
  processed : s'.discovery.processed = s.discovery.processed + es.length
  seats : s.Abides s'

variable {es es' : List ScanEvent} {e : ScanEvent}

theorem Advances.refl (s : Server L) : s.Advances [] s :=
  ⟨ReflTransGen.refl, rfl, rfl, rfl, rfl, .of_seats rfl⟩

theorem Advances.trans (h : s.Advances es s') (h' : s'.Advances es' s'') :
    s.Advances (es ++ es') s'' where
  updates := h.updates.trans h'.updates
  items := by rw [h.items, h'.items, List.append_assoc]
  closed := h'.closed.trans h.closed
  running := h'.running.trans h.running
  processed := by
    rw [h'.processed, h.processed, List.length_append]
    omega
  seats := h.seats.trans h'.seats

/-- Operations that apply no scan event, after others. -/
theorem Advances.tail (h : s.Advances es s') (h' : s'.Advances [] s'') : s.Advances es s'' := by
  have hboth := h.trans h'
  rwa [List.append_nil] at hboth

theorem Advances.proper (h : s.Advances es s') (hp : s.Proper) : s'.Proper where
  named := h.seats.named hp.named
  sound := h.updates.sound hp.sound
  legal e he := (hp.legal e (h.items ▸ List.mem_append_right es he)).mono h.updates.evolves

theorem Goes.advances (h : s.Goes f trace s') (hu : s.fleet.Updates f) : s.Advances [] s' where
  updates := h.fleet ▸ hu
  items := (congrArg ScanQueue.items h.scans).symm
  closed := congrArg ScanQueue.closed h.scans
  running := congrArg Discovery.running h.discovery
  processed := congrArg Discovery.processed h.discovery
  seats := h.seats

theorem Goes.advances_still (h : s.Goes s.fleet [] s') : s.Advances [] s' :=
  h.advances ReflTransGen.refl

/-- Work leaves the scan events alone. -/
theorem advances_workTurn (hp : s.Proper) (name : String) :
    s.Advances [] (s.workTurn name) := by
  obtain ⟨f, trace, hgoes, hacts⟩ := goes_workTurn hp.named name
  exact hgoes.advances hacts.updates

theorem advances_work (hp : s.Proper) (name : String) : s.Advances [] (s.work name) := by
  rw [work]
  generalize s.workBound name = n
  induction n with
  | zero => exact .refl s
  | succ n ih => exact ih.tail (advances_workTurn (ih.proper hp) name)

theorem advances_workAll (hp : s.Proper) : s.Advances [] s.workAll := by
  rw [workAll]
  generalize s.stalled.entries.map Prod.fst ++ s.seats.entries.map Prod.fst = names
  induction names generalizing s with
  | nil => exact .refl s
  | cons name names ih =>
    have hfirst := advances_work hp name
    exact hfirst.tail (ih (hfirst.proper hp))

theorem advances_joinFinished (hp : s.Proper) : s.Advances [] s.joinFinished := by
  rw [joinFinished]
  generalize s.seats.entries = entries
  induction entries generalizing s with
  | nil => exact .refl s
  | cons e entries ih =>
    have hfirst : s.Advances [] (if Seat.finished e.2 then s.join e.1 else s) := by
      split
      · exact (goes_join hp.named e.1).advances_still
      · exact .refl s
    exact hfirst.tail (ih (hfirst.proper hp))

/-- The oldest scan event is applied. -/
theorem advances_discoverTurn (hp : s.Proper) (hitems : s.scans.items = e :: es) :
    s.Advances [e] s.discoverTurn := by
  have hturn : s.discoverTurn =
      ({ s with scans := { s.scans with items := es } } : Server L).applyScan e := by
    rw [discoverTurn, ScanQueue.pop, hitems]
  have hu : s.fleet.Updates (s.fleet.discover e).fleet :=
    Fleet.updates_discover (hp.legal e (hitems ▸ List.mem_cons_self))
  have hgoes := goes_onFleet (s := { s with scans := { s.scans with items := es } }) hp.named
    fun f => f.discover e
  have hscans : s.discoverTurn.scans = { s.scans with items := es } := hturn ▸ hgoes.scans
  have hdiscovery : s.discoverTurn.discovery =
      { s.discovery with processed := s.discovery.processed + 1 } := by
    rw [hturn]
    exact congrArg (fun d : Discovery => { d with processed := d.processed + 1 }) hgoes.discovery
  refine ⟨?_, ?_, by rw [hscans], by rw [hdiscovery], by rw [hdiscovery]; rfl, ?_⟩
  · rw [hturn]
    exact hgoes.fleet ▸ hu
  · rw [hscans, hitems]
    rfl
  · rw [hturn]
    exact hgoes.seats

/-- All scan events that wait are applied. -/
theorem advances_discover (hp : s.Proper) (hrunning : s.discovery.running = true) :
    s.Advances s.scans.items s.discover := by
  have heach : ∀ n, n ≤ s.scans.items.length →
      s.Advances (s.scans.items.take n) (n.repeat discoverTurn s) := by
    intro n hn
    induction n with
    | zero => exact .refl s
    | succ n ih =>
      have hbefore := ih (by omega)
      have hrest : (n.repeat discoverTurn s).scans.items =
          s.scans.items[n] :: s.scans.items.drop (n + 1) := by
        have hsplit := hbefore.items
        rw [← List.drop_eq_getElem_cons (by omega)]
        exact List.append_cancel_left (hsplit.symm.trans (List.take_append_drop n _).symm)
      have hturn := advances_discoverTurn (hbefore.proper hp) hrest
      have hboth := hbefore.trans hturn
      rwa [List.take_append_getElem] at hboth
  have hall := heach _ (Nat.le_refl _)
  rw [List.take_length] at hall
  rwa [discover, if_pos hrunning]

/-- **Settling applies the scan events that wait.** -/
theorem advances_settle (hp : s.Proper) (hrunning : s.discovery.running = true) :
    s.Advances s.scans.items s.settle := by
  have hlisten := (goes_listenAll hp.named).advances_still
  have hitems : s.listenAll.scans.items = s.scans.items := hlisten.items.symm
  have hp' := hlisten.proper hp
  have hdiscover := advances_discover hp' (hlisten.running.trans hrunning)
  rw [hitems] at hdiscover
  have hp'' := hdiscover.proper hp'
  have hwork := advances_workAll hp''
  have hjoin := advances_joinFinished (hwork.proper hp'')
  exact (hlisten.trans hdiscover).tail (hwork.tail hjoin)

/-! ## The parts of a shut-down -/

/-- The server at the time when its devices are stopped: sessions are closed, and scan
events are applied. -/
def drained (s : Server L) : Server L :=
  ((s.closeAll .cancelled).settle).stopMonitor.closeScans.stopDiscovery

/-- The devices are stopped. -/
def stopped (s : Server L) : Server L := (s.onFleet Fleet.stopAll).2

/-- The devices are disconnected. -/
def released (s : Server L) : Server L := (s.onFleet Fleet.disconnectAll).2

/-- **A shut-down has three parts**, one after the other. -/
theorem shutDown_eq (s : Server L) : s.shutDown = s.drained.stopped.released := by
  rw [shutDown, drained, stopped, released]

/-- A server is drained: its sessions are closed, and no scan event waits or will. -/
structure Drained (s : Server L) : Prop where
  proper : s.Proper
  closed : s.Closed
  shut : s.scans.closed = true
  spent : s.scans.items = []
  halted : s.discovery.running = false

/-- A server that is drained stays so while no scan event is applied. -/
theorem Drained.advance (hd : s.Drained) (h : s.Advances [] s') : s'.Drained where
  proper := h.proper hd.proper
  closed := h.seats.closed hd.closed
  shut := h.closed.trans hd.shut
  spent := h.items.symm.trans hd.spent
  halted := h.running.trans hd.halted

/-- With no scan event waiting, only flags are left to be set. -/
theorem Proper.drained (hp : s.Proper) (hc : s.Closed) (hempty : s.scans.items = []) :
    s.stopMonitor.closeScans.stopDiscovery.Drained ∧
      s.stopMonitor.closeScans.stopDiscovery.discovery.processed = s.discovery.processed := by
  have hnone : s.stopMonitor.closeScans.discover = s.stopMonitor.closeScans := by
    have hitems : s.stopMonitor.closeScans.scans.items = [] := hempty
    rw [discover, hitems]
    exact ite_self _
  rw [stopDiscovery, hnone]
  refine ⟨⟨⟨hp.named, hp.sound, fun e he => ?_⟩, hc, rfl, hempty, rfl⟩, rfl⟩
  have he : e ∈ s.scans.items := he
  rw [hempty] at he
  cases he

/-- **Before its devices are stopped, a server is drained.** -/
theorem drained_drained (hp : s.Proper) (hrunning : s.discovery.running = true) :
    s.drained.Drained ∧
      s.drained.discovery.processed = s.discovery.processed + s.scans.items.length := by
  have hclose := goes_closeAll hp.named .cancelled
  have hp' := hclose.advances_still.proper hp
  have hsettle := advances_settle hp' (hclose.discovery ▸ hrunning)
  have hclosed := hsettle.seats.closed (closed_closeAll hp.named .cancelled)
  have hempty : (s.closeAll .cancelled).settle.scans.items = [] :=
    List.self_eq_append_right.1 hsettle.items
  obtain ⟨hdrained, hprocessed⟩ := (hsettle.proper hp').drained hclosed hempty
  refine ⟨hdrained, hprocessed.trans ?_⟩
  rw [hsettle.processed, hclose.discovery, hclose.scans]

end Server

end Haptics
