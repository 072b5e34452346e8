import Haptics.Proofs.Fleet.SteadyStops
import Haptics.Proofs.Server.Attention
/-!
# What becomes of sessions during safety stops

`Server.Fares` is what safety stops make of the sessions of a server: some are closed for the
silence of their clients, and while events are told of, one whose queue has overflowed is closed
as well, if the server was behind with events (`fares_publish`). Every other session is left as it
is, and no seat comes or goes.
-/

namespace Haptics

/-! ## Sessions -/

namespace Session

/-- A session is closed once. -/
theorem close_close (s : Session) (reason reason' : ErrorCode) :
    ((s.close reason).1.close reason').1 = (s.close reason).1 := by
  rw [close_closed (phase_close s reason)]

/-- The scope of a safety stop stays what it is when the session is closed. -/
theorem stopTargets_close {L : Type} (s : Session) (reason : ErrorCode) (f : Fleet L) :
    (s.close reason).1.stopTargets f = s.stopTargets f := by
  unfold close
  split <;> rfl

end Session

/-! ## Queues that have overflowed -/

namespace Emitter

/-- Every queue that has overflowed is there still. -/
def Spoils (m m' : Emitter) : Prop :=
  ∀ id s, m.find? id = some s → s.queue.overflowed = true →
    ∃ s', m'.find? id = some s' ∧ s'.queue.overflowed = true

theorem Spoils.refl (m : Emitter) : m.Spoils m := fun _ s hs hover => ⟨s, hs, hover⟩

/-- An event that is emitted can overflow queues, and mends none. -/
theorem spoils_emit (m : Emitter) (body : DeviceEvent) (t : Int) : m.Spoils (m.emit body t) := by
  intro id s hs hover
  refine ⟨_, (find?_emit body t).trans (congrArg _ hs), ?_⟩
  unfold offer
  split
  · unfold EventQueue.push
    split
    · exact hover
    · split
      · rfl
      · exact hover
  · exact hover

theorem spoils_pop (m : Emitter) (id : SubscriptionId) : m.Spoils (m.pop id).2 := by
  intro id' s hs hover
  cases hq : m.find? id with
  | none =>
    rw [pop, queue?_eq, hq]
    exact ⟨s, hs, hover⟩
  | some q =>
    have hpop : q.queue.pop.2.overflowed = q.queue.overflowed := q.queue.length_pop.2
    rw [pop_eq hq, find?_setQueue, hs, Option.map_some]
    by_cases hid : id' = id
    · rw [if_pos hid]
      rw [hid, hq] at hs
      cases hs
      exact ⟨_, rfl, hpop.trans hover⟩
    · rw [if_neg hid]
      exact ⟨s, rfl, hover⟩

end Emitter

/-- **A turn of the forwarding** leaves the session as it is, or closes it since its queue has
overflowed. -/
theorem Session.listen_fate (s : Session) (m : Emitter) :
    ((s.listen m).1 = s ∨ (s.listen m).1 = (s.close .cancelled).1 ∧ s.Forwards ∧ ∃ id sub,
      s.subscription = some id ∧ m.find? id = some sub ∧ sub.queue.overflowed = true) ∧
      m.Spoils (s.listen m).2.1 := by
  rcases s.listen_outcome m with
    ⟨hrests, -⟩ | ⟨id, hrun, hid, ⟨hcloses, hover⟩ | ⟨⟨outputs, htakes⟩, -⟩⟩
  · rw [hrests]
    exact ⟨Or.inl rfl, .refl m⟩
  · rw [hcloses]
    refine ⟨?_, .refl m⟩
    by_cases hclosed : s.phase = .closed
    · -- it is closed already
      exact Or.inl (congrArg Prod.fst (close_closed hclosed .cancelled))
    · obtain ⟨q, hq, hover⟩ := (Option.any_eq_true _ _).1 hover
      obtain ⟨sub, hsub, rfl⟩ := Option.map_eq_some_iff.1 ((Emitter.queue?_eq m id).symm.trans hq)
      exact Or.inr ⟨rfl, ⟨hrun, hclosed⟩, id, sub, hid, hsub, hover⟩
  · rw [htakes]
    exact ⟨Or.inl rfl, Emitter.spoils_pop m id⟩

namespace Server

variable {L : Type} {s s' s'' : Server L} {name : String} {names names' : List String}
  {told : Prop} {seat seat' : Seat}

/-- The queue of a session has overflowed. -/
def Overrun (s : Server L) (name : String) : Prop :=
  ∃ q, s.queue? name = some q ∧ q.overflowed = true

theorem overrun_iff : s.Overrun name ↔ ∃ seat m id sub, s.seats.get? name = some seat ∧
    s.emitter = some m ∧ seat.session.subscription = some id ∧ m.find? id = some sub ∧
      sub.queue.overflowed = true := by
  constructor
  · rintro ⟨q, hq, hover⟩
    obtain ⟨seat, m, id, sub, hs, hm, hid, hsub, rfl⟩ := queue?_iff.1 hq
    exact ⟨seat, m, id, sub, hs, hm, hid, hsub, hover⟩
  · rintro ⟨seat, m, id, sub, hs, hm, hid, hsub, hover⟩
    exact ⟨sub.queue, queue?_iff.2 ⟨seat, m, id, sub, hs, hm, hid, hsub, rfl⟩, hover⟩

/-- Whatever became of the emitter, its queues that have overflowed are there still. -/
def Spoils (s s' : Server L) : Prop :=
  ∀ m, s.emitter = some m → ∃ m', s'.emitter = some m' ∧ m.Spoils m'

theorem spoils_of_emitter (h : s'.emitter = s.emitter) : s.Spoils s' :=
  fun m hm => ⟨m, h.trans hm, .refl m⟩

/-- A session that was overrun stays so as long as it keeps its subscription. -/
theorem Overrun.mono (h : s.Overrun name) (hspoils : s.Spoils s')
    (hseat : ∀ seat, s.seats.get? name = some seat → ∃ seat', s'.seats.get? name = some seat' ∧
      seat'.session.subscription = seat.session.subscription) : s'.Overrun name := by
  rw [overrun_iff] at h ⊢
  obtain ⟨seat, m, id, sub, hs, hm, hid, hfind, hover⟩ := h
  obtain ⟨m', hm', hkeep⟩ := hspoils m hm
  obtain ⟨sub', hfind', hover'⟩ := hkeep id sub hfind hover
  obtain ⟨seat', hs', hsub⟩ := hseat seat hs
  exact ⟨seat', m', id, sub', hs', hm', hsub.trans hid, hfind', hover'⟩

/-! ## What safety stops make of sessions -/

/-- **What becomes of the sessions of a server** while the silence of the clients of `names` is
followed up. No seat comes or goes. The sessions of `names` are closed for the silence, and
another one only if events are told of and its queue has overflowed. -/
structure Fares (s : Server L) (names : List String) (told : Prop) (s' : Server L) : Prop where
  monitor : s'.monitor = s.monitor
  absent : ∀ name, s.seats.get? name = none → s'.seats.get? name = none
  seats : ∀ name seat, s.seats.get? name = some seat →
    ∃ seat', s'.seats.get? name = some seat' ∧ seat'.number = seat.number ∧
      (seat'.session =
          (if name ∈ names then (seat.session.close .pingTimeout).1 else seat.session) ∨
        told ∧ s'.Overrun name ∧ seat'.session = (seat.session.close .cancelled).1)
  overrun : ∀ name, s.Overrun name → s'.Overrun name

theorem Fares.refl (s : Server L) (told : Prop) : s.Fares [] told s :=
  ⟨rfl, fun _ h => h, fun _ seat h => ⟨seat, h, rfl, Or.inl (if_neg List.not_mem_nil).symm⟩,
    fun _ h => h⟩

/-- **What became of a session stays so**, since no session is closed twice. -/
theorem Fares.trans (h : s.Fares names told s') (h' : s'.Fares names' told s'') :
    s.Fares (names ++ names') told s'' where
  monitor := h'.monitor.trans h.monitor
  absent name hnone := h'.absent name (h.absent name hnone)
  seats name seat hs := by
    obtain ⟨seat', hs', hnumber, hfate⟩ := h.seats name seat hs
    obtain ⟨seat'', hs'', hnumber', hfate'⟩ := h'.seats name seat' hs'
    refine ⟨seat'', hs'', hnumber'.trans hnumber, ?_⟩
    rcases hfate with hfate | ⟨htold, hover, hfate⟩
    · rw [hfate] at hfate'
      by_cases hname : name ∈ names
      · -- closed already, so nothing more becomes of it
        rw [if_pos hname, Session.close_close, Session.close_close, ite_self] at hfate'
        rw [if_pos (List.mem_append_left _ hname)]
        exact Or.inl (hfate'.elim id fun hdrop => hdrop.2.2)
      · have hlater : name ∈ names ++ names' ↔ name ∈ names' := by
          rw [List.mem_append, or_iff_right hname]
        rw [if_neg hname] at hfate'
        rw [if_congr hlater rfl rfl]
        exact hfate'
    · rw [hfate, Session.close_close, Session.close_close, ite_self] at hfate'
      exact Or.inr ⟨htold, h'.overrun name hover, hfate'.elim id fun hdrop => hdrop.2.2⟩
  overrun name hover := h'.overrun name (h.overrun name hover)

theorem Fares.mono {told' : Prop} (h : s.Fares names told s') (htold : told → told') :
    s.Fares names told' s' where
  monitor := h.monitor
  absent := h.absent
  seats name seat hs := by
    obtain ⟨seat', hs', hnumber, hfate⟩ := h.seats name seat hs
    exact ⟨seat', hs', hnumber, hfate.imp_right fun hdrop => ⟨htold hdrop.1, hdrop.2⟩⟩
  overrun := h.overrun

theorem Fares.named (h : s.Fares names told s') (hn : s.Named) : s'.Named := by
  intro name seat' hs'
  cases hs : s.seats.get? name with
  | none =>
    rw [h.absent name hs] at hs'
    cases hs'
  | some seat =>
    obtain ⟨seat'', hs'', -, hfate⟩ := h.seats name seat hs
    rw [hs'] at hs''
    cases hs''
    rw [← hn name seat hs]
    rcases hfate with hfate | ⟨-, -, hfate⟩
    · rw [hfate]
      split
      · exact (seat.session.abides_close .pingTimeout).name
      · rfl
    · rw [hfate]
      exact (seat.session.abides_close .cancelled).name

/-- **The scope of a safety stop stays what it is**, whatever becomes of its session. -/
theorem Fares.scope (h : s.Fares names told s') (hs : s.seats.get? name = some seat) :
    ∃ seat', s'.seats.get? name = some seat' ∧
      ∀ f : Fleet L, seat'.session.stopTargets f = seat.session.stopTargets f := by
  obtain ⟨seat', hs', -, hfate⟩ := h.seats name seat hs
  refine ⟨seat', hs', fun f => ?_⟩
  rcases hfate with hfate | ⟨-, -, hfate⟩
  · rw [hfate]
    split
    · exact Session.stopTargets_close _ _ f
    · rfl
  · rw [hfate]
    exact Session.stopTargets_close _ _ f

/-- No session makes a step. -/
theorem fares_aside (hseats : s'.seats = s.seats) (hmonitor : s'.monitor = s.monitor)
    (hspoils : s.Spoils s') : s.Fares [] told s' where
  monitor := hmonitor
  absent _ hnone := hseats ▸ hnone
  seats _ seat hs := ⟨seat, hseats ▸ hs, rfl, Or.inl (if_neg List.not_mem_nil).symm⟩
  overrun _ hover := hover.mono hspoils fun seat hs => ⟨seat, hseats ▸ hs, rfl⟩

/-- One session makes a step, and the others are as before. -/
theorem fares_insert (hs : s.seats.get? name = some seat)
    (hseats : s'.seats = s.seats.insert name seat') (hnumber : seat'.number = seat.number)
    (hsub : seat'.session.subscription = seat.session.subscription)
    (hmonitor : s'.monitor = s.monitor) (hspoils : s.Spoils s')
    (hnames : ∀ name', name' ∈ names → name' = name)
    (hfate : seat'.session =
        (if name ∈ names then (seat.session.close .pingTimeout).1 else seat.session) ∨
      told ∧ s.Overrun name ∧ seat'.session = (seat.session.close .cancelled).1) :
    s.Fares names told s' := by
  have hread : ∀ name', s'.seats.get? name' =
      if name' = name then some seat' else s.seats.get? name' := fun name' => by
    rw [hseats, Table.get?_insert]
  have hover : ∀ name', s.Overrun name' → s'.Overrun name' := by
    intro name' hover
    refine hover.mono hspoils fun seat'' hs'' => ?_
    rw [hread]
    by_cases hname : name' = name
    · rw [hname, hs] at hs''
      cases hs''
      exact ⟨seat', if_pos hname, hsub⟩
    · exact ⟨seat'', (if_neg hname).trans hs'', rfl⟩
  refine ⟨hmonitor, fun name' hnone => ?_, fun name' seat'' hs'' => ?_, hover⟩
  · rw [hread, if_neg, hnone]
    rintro rfl
    rw [hs] at hnone
    cases hnone
  · rw [hread]
    by_cases hname : name' = name
    · rw [hname, hs] at hs''
      cases hs''
      rw [hname, if_pos rfl]
      exact ⟨seat', rfl, hnumber,
        hfate.imp_right fun hdrop => ⟨hdrop.1, hover _ hdrop.2.1, hdrop.2.2⟩⟩
    · rw [if_neg hname, hs'', if_neg fun hmem => hname (hnames name' hmem)]
      exact ⟨seat'', rfl, rfl, Or.inl rfl⟩

/-- **Who takes one event fares as it did**, unless its queue has overflowed. -/
theorem fares_listenTurn (hn : s.Named) (htold : ¬ s.KeepsUp 1 name → told) :
    s.Fares [] told (s.listenTurn name) := by
  rcases s.listenTurn_cases name with
    ⟨hsame, -⟩ | ⟨seat, m, channel, outputs, hs, hm, hfree, hturn⟩
  · rw [hsame]
    exact .refl s told
  · obtain ⟨hfate, hspoils⟩ := seat.session.listen_fate m
    have hname : (seat.session.listen m).1.name = name :=
      (seat.session.abides_listen m).name.trans (hn name seat hs)
    rw [hturn]
    refine fares_insert hs (congrArg (s.seats.insert · _) hname) rfl
      (seat.session.subscription_listen m) rfl (fun m' hm' => ?_)
      (fun _ hmem => absurd hmem List.not_mem_nil) ?_
    · rw [hm] at hm'
      cases hm'
      exact ⟨_, rfl, hspoils⟩
    · rw [if_neg List.not_mem_nil]
      refine hfate.imp_right ?_
      rintro ⟨heq, hforwards, id, sub, hid, hfind, hover⟩
      refine ⟨htold fun hkeeps => ?_,
        overrun_iff.2 ⟨seat, m, id, sub, hs, hm, hid, hfind, hover⟩, heq⟩
      have hkept := (hkeeps seat sub.queue hs
        (queue?_iff.2 ⟨seat, m, id, sub, hs, hm, hid, hfind, rfl⟩) hforwards hfree).2
      exact Bool.false_ne_true (hkept.symm.trans hover)

theorem fares_listen (hn : s.Named) (htold : ¬ s.KeepsUp 1 name → told) :
    s.Fares [] told (s.listen name) := by
  rw [listen]
  generalize s.backlog name + 1 = n
  induction n with
  | zero => exact .refl s told
  | succ n ih =>
    refine ih.trans (fares_listenTurn (ih.named hn) fun hbehind => htold fun hkeeps => ?_)
    exact hbehind (hkeeps.listenTurns hn name n)

theorem fares_listenAll (hn : s.Named) (htold : ¬ (∀ name, s.KeepsUp 1 name) → told) :
    s.Fares [] told s.listenAll := by
  rw [listenAll]
  generalize s.seats.entries = entries
  induction entries generalizing s with
  | nil => exact .refl s told
  | cons e entries ih =>
    have hfirst := fares_listen hn fun hbehind => htold fun hkeeps => hbehind (hkeeps e.1)
    refine hfirst.trans (ih (hfirst.named hn) fun hbehind => htold fun hkeeps => hbehind ?_)
    exact fun name => (hkeeps name).listen hn e.1

/-- **Only events bear on sessions**, of all that is told of a fleet, and only on a server that was
behind with them. -/
theorem fares_publish (hn : s.Named) (trace : List Happening) :
    s.Fares [] (Fleet.emittedIn trace ≠ [] ∧ ¬ s.Attentive) (s.publish trace) := by
  induction trace generalizing s with
  | nil => exact .refl s _
  | cons h trace ih =>
    have hfirst : s.Fares [] (Fleet.emittedIn (h :: trace) ≠ [] ∧ ¬ s.Attentive)
        (s.publishOne h) := by
      cases h with
      | traffic id t => exact fares_aside rfl rfl (spoils_of_emitter rfl)
      | emitted body =>
        have hemit : s.Fares [] (Fleet.emittedIn (.emitted body :: trace) ≠ [] ∧ ¬ s.Attentive)
            { s.note [.happened (.emitted body)] with
              emitter := s.emitter.map (·.emit body 0) } :=
          fares_aside rfl rfl fun m hm =>
            ⟨_, congrArg (Option.map (·.emit body 0)) hm, Emitter.spoils_emit m body 0⟩
        refine hemit.trans (fares_listenAll (hemit.named hn) fun hbehind => ?_)
        refine ⟨List.cons_ne_nil _ _, fun hattentive => hbehind ?_⟩
        refine hattentive.emit ?_ body 0 ?_
        · rfl
        · rfl
    refine hfirst.trans ((ih (hfirst.named hn)).mono fun ⟨htold, hbehind⟩ => ?_)
    refine ⟨fun hnone => ?_, fun hattentive => ?_⟩
    · have hrest := (Fleet.emittedIn_append [h] trace).symm.trans hnone
      exact htold (List.append_eq_nil_iff.1 hrest).2
    · exact hbehind (attentive_publish hn hattentive [h])

end Server

end Haptics
