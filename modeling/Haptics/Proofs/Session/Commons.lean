import Haptics.Proofs.Event.Audience
import Haptics.Proofs.Fleet.Chronicle
import Haptics.Proofs.Session.Scene
import Mathlib.Logic.Function.Basic
/-!
# Sessions that share a fleet

Any number of sessions with one fleet and one emitter, in any order of their
steps. A session whose worker runs no task and whose client's silence is never
claimed is not noticed by the others: the run without its steps leaves them, the
fleet and the events as they are (`undisturbed_of_run`). The two runs differ in
the numbers of subscriptions only, so what is compared is sessions up to that
number (`Session.under`) and what waits under it (`Party.seat`).
-/

namespace Haptics

open Deed

/-! ## Sessions up to the number of their subscription -/

namespace Session

variable {L : Type} {s : Session} {k : Option SubscriptionId}

/-- The session with another number for its subscription, or with none. -/
def under (s : Session) (k : Option SubscriptionId) : Session := { s with subscription := k }

@[simp] theorem under_subscription (s : Session) : s.under s.subscription = s := rfl

@[simp] theorem under_under (s : Session) (k k' : Option SubscriptionId) :
    (s.under k).under k' = s.under k' := rfl

theorem close_under (s : Session) (k : Option SubscriptionId) (reason : ErrorCode) :
    (s.under k).close reason = ((s.close reason).1.under k, (s.close reason).2) := by
  unfold close
  by_cases hc : s.phase = .closed
  · rw [if_pos hc, if_pos (show (s.under k).phase = .closed from hc)]
  · rw [if_neg hc, if_neg (show (s.under k).phase ≠ .closed from hc)]
    rfl

theorem violate_under (s : Session) (k : Option SubscriptionId) (id : UInt32) (v : Violation) :
    (s.under k).violate id v =
      { s.violate id v with session := (s.violate id v).session.under k } := by
  unfold violate
  rw [close_under]
  rfl

theorem reply_under (s : Session) (k : Option SubscriptionId) (id : UInt32) (payload : Payload) :
    (s.under k).reply id payload = ((s.reply id payload).1.under k, (s.reply id payload).2) := by
  unfold reply
  by_cases hc : s.phase = .closed ∨ id ∉ s.outstanding
  · rw [if_pos hc, if_pos (show (s.under k).phase = .closed ∨ id ∉ (s.under k).outstanding from hc)]
  · rw [if_neg hc,
      if_neg (show ¬ ((s.under k).phase = .closed ∨ id ∉ (s.under k).outstanding) from hc)]
    rfl

theorem greet_under (s : Session) (k : Option SubscriptionId) (m : Message) (now : Time) :
    (s.under k).greet m now =
      { s.greet m now with session := (s.greet m now).session.under k } := by
  have hviolate := violate_under s k
  have hterms : (s.under k).terms = s.terms := rfl
  unfold greet
  rw [hterms]
  cases m.payload with
  | handshakeRequest clientName minVersion maxVersion =>
    dsimp only
    split
    · exact hviolate _ _
    · split
      · exact hviolate _ _
      · rfl
  | _ => exact hviolate _ _

theorem accept_under (s : Session) (k : Option SubscriptionId) (id : UInt32)
    (entries : List DeviceEntry) (r : Request) :
    (s.under k).accept id entries r =
      { s.accept id entries r with session := (s.accept id entries r).session.under k } := by
  cases r with
  | deviceList =>
    have hreply := reply_under { s with outstanding := s.outstanding ++ [id] } k id
      (.deviceListReply entries)
    simp only [under] at hreply
    simp only [accept, under, hreply]
  | task t => rfl

theorem serve_under (s : Session) (k : Option SubscriptionId) (m : Message) (now : Time)
    (entries : List DeviceEntry) :
    (s.under k).serve m now entries =
      { s.serve m now entries with session := (s.serve m now entries).session.under k } := by
  have hviolate := violate_under { s with lastActivity := now } k
  have haccept := accept_under { s with lastActivity := now } k
  have houtstanding : (s.under k).outstanding = s.outstanding := rfl
  unfold serve
  dsimp only
  rw [houtstanding]
  split
  · rfl
  · rfl
  · exact hviolate _ _
  · split
    · exact hviolate _ _
    · split
      · exact hviolate _ _
      · split
        · exact hviolate _ _
        · exact haccept _ _ _

/-- **No answer depends on the number of the subscription.** -/
theorem answer_under (s : Session) (k : Option SubscriptionId) (phase : Phase) (m : Message)
    (now : Time) (entries : List DeviceEntry) :
    (s.under k).answer phase m now entries =
      { s.answer phase m now entries with
        session := (s.answer phase m now entries).session.under k } := by
  unfold answer
  cases phase with
  | awaitingHandshake => exact greet_under s k m now
  | ready => exact serve_under s k m now entries
  | closed => exact serve_under s k m now entries

theorem claim_under (s : Session) (k : Option SubscriptionId) (now : Time) :
    (s.under k).claim now = ((s.claim now).1, (s.claim now).2.under k) := by
  have hsilent : (s.under k).silent now = s.silent now := rfl
  unfold claim
  rw [hsilent]
  cases s.silent now <;> rfl

/-- **No step of the worker depends on it.** -/
theorem workStep_under [Link L] (s : Session) (k : Option SubscriptionId) (f : Fleet L) :
    (s.under k).workStep f =
      (s.workStep f).map fun turn => { turn with session := turn.session.under k } := by
  have hstage : (s.under k).stage = s.stage := rfl
  have hrunning : (s.under k).running = s.running := rfl
  have hwork : (s.under k).work = s.work := rfl
  have hphase : (s.under k).phase = s.phase := rfl
  have hclaimed : (s.under k).pingClaimed = s.pingClaimed := rfl
  unfold workStep
  rw [hstage]
  cases s.stage with
  | idle =>
    dsimp only
    rw [hrunning, hwork]
    cases s.running with
    | false => rfl
    | true => cases s.work <;> rfl
  | taken w =>
    dsimp only
    rw [hphase, hclaimed]
    split <;> rfl
  | cleared w =>
    dsimp only
    cases w.task <;> rfl
  | sweeping w sweep =>
    dsimp only
    cases sweep.targets <;> rfl
  | executed w result =>
    dsimp only
    rw [hclaimed]
    cases s.pingClaimed <;> rfl
  | restopping w result sweep =>
    dsimp only
    cases sweep.targets <;> rfl
  | settled w result =>
    dsimp only
    rw [reply_under]
    rfl

end Session

/-! ## Workers before a task -/

/-- The worker has not begun to run a task. -/
inductive Stage.BeforeTask : Stage → Prop
  | idle : BeforeTask .idle
  | taken (w : Work) : BeforeTask (.taken w)
  | cleared (w : Work) : BeforeTask (.cleared w)

/-- A step of a worker that runs no task leaves the fleet alone. -/
theorem Session.workStep_beforeTask [Link L] {s : Session} {f : Fleet L} {turn : Turn L}
    (hs : s.stage.BeforeTask) (hran : ∀ w, ran w ∉ s.workDeeds f)
    (h : s.workStep f = some turn) :
    turn.session.stage.BeforeTask ∧ turn.fleet = f ∧ turn.trace = [] := by
  generalize hstage : s.stage = stage at hs
  cases hs with
  | idle =>
    simp only [workStep, hstage] at h
    split at h
    · split at h
      · cases h
      · cases h
        exact ⟨.taken _, rfl, rfl⟩
    · cases h
  | taken w =>
    simp only [workStep, hstage] at h
    split at h
    · cases h
      exact ⟨.cleared w, rfl, rfl⟩
    · cases h
      exact ⟨.idle, rfl, rfl⟩
  | cleared w => exact absurd (by simp [workDeeds, hstage]) (hran w)

/-! ## Parties -/

/-- A subscriber without its number. -/
def Subscriber.unnumbered (s : Subscriber) : Subscriber := { s with id := 0 }

/-- A session with the calls that bring it messages and its watchdog, what it told its
client and its owner, and what is on record of it. -/
structure Party where
  session : Session
  heard : List (Message × Phase) := []
  watch : Watch := .watching
  outputs : List Output := []
  deeds : List Deed := []
deriving DecidableEq

/-- The steps of a party. -/
inductive Act
  | start
  | join
  /-- A call finds whether the message it brings is still taken. -/
  | hear (m : Message)
  /-- One of the calls answers its message. -/
  | answer (call : Nat) (now : Time)
  /-- One turn of the forwarding of events. -/
  | listen
  | close (reason : ErrorCode)
  /-- The next step of the worker. -/
  | work
  /-- The watchdog looks at the time. -/
  | claim (now : Time)
  /-- The next step of the watchdog after a claim. -/
  | follow
deriving DecidableEq

/-- Whether an act has to do with the subscription to events. -/
def Act.subscribes : Act → Bool
  | .start | .join | .listen => true
  | _ => false

/-- What an act leaves behind. -/
structure Effect (L : Type) where
  party : Party
  fleet : Fleet L
  emitter : Emitter
  trace : List Happening := []

namespace Party

/-- The party with another number for its subscription, or with none. -/
def under (p : Party) (k : Option SubscriptionId) : Party :=
  { p with session := p.session.under k }

/-- The number of its subscription. -/
def number (p : Party) : Option SubscriptionId := p.session.subscription

theorem under_number (p : Party) : p.under p.number = p := rfl

/-- What does not depend on the number of the subscription leaves it as it is. -/
theorem number_eq_of_under {p : Party} {g : Party → Party}
    (hg : ∀ k, g (p.under k) = (g p).under k) : (g p).number = p.number := by
  have heq := hg p.number
  rw [under_number] at heq
  rw [heq]
  rfl

/-- What waits for a party: its subscriber at the emitter, but for the number. -/
def seat (p : Party) (m : Emitter) : Option (Option Subscriber) :=
  p.number.map fun id => (m.find? id).map Subscriber.unnumbered

theorem seat_none {p : Party} (hn : p.number = none) (m : Emitter) : p.seat m = none := by
  rw [seat, hn]
  rfl

theorem seat_some {p : Party} {id : SubscriptionId} (hn : p.number = some id) (m : Emitter) :
    p.seat m = some ((m.find? id).map Subscriber.unnumbered) := by
  rw [seat, hn]
  rfl

/-- The party with more outputs. -/
def tell (p : Party) (outputs : List Output) : Party := { p with outputs := p.outputs ++ outputs }

/-- The party after its session was closed. -/
def close (p : Party) (reason : ErrorCode) : Party :=
  { p with session := (p.session.close reason).1 }.tell (p.session.close reason).2

variable [Link L]

/-- The next step of the watchdog after a claim. -/
def follow (p : Party) (f : Fleet L) (m : Emitter) : Effect L :=
  match p.watch with
  | .watching | .done => { party := p, fleet := f, emitter := m }
  | .claimed =>
    { party := { p with watch := .stopping { targets := p.session.stopTargets f } }
      fleet := f, emitter := m }
  | .stopping sweep =>
    match sweep.targets with
    | [] => { party := { p with watch := .stopped }, fleet := f, emitter := m }
    | i :: rest =>
      let out := f.stopOne sweep.report i
      { party := { p with watch := .stopping { report := out.answer, targets := rest }
                          deeds := p.deeds ++ f.stopDeeds sweep }
        fleet := out.fleet, emitter := m, trace := out.trace }
  | .stopped =>
    { party := { p.close .pingTimeout with watch := .done }, fleet := f, emitter := m }

/-- A party acts. -/
def act (p : Party) (f : Fleet L) (m : Emitter) : Act → Effect L
  | .start =>
    let (session, emitter) := p.session.start (some m)
    { party := { p with session }, fleet := f, emitter := emitter.getD m }
  | .join =>
    let (session, emitter) := p.session.join (some m)
    { party := { p with session }, fleet := f, emitter := emitter.getD m }
  | .hear msg =>
    if p.session.open? then
      { party := { p with heard := p.heard ++ [(msg, p.session.phase)] }, fleet := f, emitter := m }
    else { party := p, fleet := f, emitter := m }
  | .answer call now =>
    match p.heard[call]? with
    | none => { party := p, fleet := f, emitter := m }
    | some (msg, phase) =>
      let r := p.session.answer phase msg now f.entries
      { party := { p with session := r.session, heard := p.heard.eraseIdx call }.tell r.outputs
        fleet := f, emitter := m }
  | .listen =>
    let (session, emitter, outputs) := p.session.listen m
    { party := { p with session }.tell outputs, fleet := f, emitter }
  | .close reason => { party := p.close reason, fleet := f, emitter := m }
  | .work =>
    match p.session.workStep f with
    | none => { party := p, fleet := f, emitter := m }
    | some turn =>
      { party := { p with session := turn.session
                          deeds := p.deeds ++ p.session.workDeeds f }.tell turn.outputs
        fleet := turn.fleet, emitter := m, trace := turn.trace }
  | .claim now =>
    match p.session.claim now with
    | (true, session) =>
      { party := { p with session, watch := .claimed, deeds := p.deeds ++ [.claimed] }
        fleet := f, emitter := m }
    | (false, session) => { party := { p with session }, fleet := f, emitter := m }
  | .follow => p.follow f m

variable {p p' : Party} {f : Fleet L} {m m' : Emitter} {a : Act}

omit [Link L] in
theorem close_under (p : Party) (k : Option SubscriptionId) (reason : ErrorCode) :
    (p.under k).close reason = (p.close reason).under k := by
  have hsession : (p.under k).session = p.session.under k := rfl
  simp only [close, hsession, Session.close_under]
  rfl

omit [Link L] in
theorem number_close (p : Party) (reason : ErrorCode) : (p.close reason).number = p.number :=
  number_eq_of_under (g := fun p => p.close reason) fun k => close_under p k reason

/-- **An act that has nothing to do with the subscription** depends neither on its number
nor on the emitter, and leaves both as they are. -/
theorem act_under (ha : a.subscribes = false) (p : Party) (k : Option SubscriptionId)
    (f : Fleet L) (m m' : Emitter) :
    (p.under k).act f m' a =
      { p.act f m a with party := (p.act f m a).party.under k, emitter := m' } := by
  cases a with
  | start => cases ha
  | join => cases ha
  | listen => cases ha
  | hear msg =>
    have hopen : (p.under k).session.open? = p.session.open? := rfl
    simp only [act, hopen]
    cases p.session.open? <;> rfl
  | answer call now =>
    have hheard : (p.under k).heard = p.heard := rfl
    have hsession : (p.under k).session = p.session.under k := rfl
    simp only [act, hheard]
    cases p.heard[call]? with
    | none => rfl
    | some c =>
      simp only [hsession, Session.answer_under]
      rfl
  | close reason =>
    simp only [act, close_under]
  | work =>
    have hsession : (p.under k).session = p.session.under k := rfl
    simp only [act, hsession, Session.workStep_under]
    cases p.session.workStep f <;> rfl
  | claim now =>
    have hsession : (p.under k).session = p.session.under k := rfl
    simp only [act, hsession, Session.claim_under]
    cases p.session.claim now with
    | mk b s => cases b <;> rfl
  | follow =>
    have hwatch : (p.under k).watch = p.watch := rfl
    simp only [act, follow, hwatch]
    cases p.watch with
    | watching => rfl
    | done => rfl
    | claimed => rfl
    | stopping sweep =>
      dsimp only
      cases sweep.targets <;> rfl
    | stopped =>
      simp only [close_under]
      rfl

/-- Such an act leaves the number and the emitter as they were. -/
theorem act_still (ha : a.subscribes = false) :
    (p.act f m a).party.number = p.number ∧ (p.act f m a).emitter = m := by
  refine ⟨number_eq_of_under (g := fun p => (p.act f m a).party) fun k => ?_,
    congrArg Effect.emitter (act_under ha p p.number f m m)⟩
  exact congrArg Effect.party (act_under ha p k f m m)

/-! ## What the acts on a subscription come to -/

/-- The effect of an act that leaves everything as it is. -/
def rests (p : Party) (f : Fleet L) (m : Emitter) : Effect L :=
  { party := p, fleet := f, emitter := m }

theorem act_start_again (h : p.session.phase = .closed ∨ p.session.running = true) :
    p.act f m .start = p.rests f m := by
  have hstart : p.session.start (some m) = (p.session, some m) := if_pos h
  rw [act, hstart]
  rfl

theorem act_start (h : ¬ (p.session.phase = .closed ∨ p.session.running = true))
    (hroom : m.full = false) :
    p.act f m .start =
      { party := { p with session := { p.session with
          running := true, subscription := some m.nextSubscription } }
        fleet := f, emitter := m.granting {} p.session.terms.eventQueueSize } := by
  have hstart : p.session.start (some m) =
      ({ p.session with running := true, subscription := some m.nextSubscription },
        some (m.granting {} p.session.terms.eventQueueSize)) := by
    rw [Session.start, if_neg h]
    simp only [Emitter.subscribe_room hroom]
  rw [act, hstart]
  rfl

theorem act_join :
    p.act f m .join =
      { party := { p with session := { p.session with running := false, subscription := none } }
        fleet := f, emitter := p.number.elim m m.unsubscribe } := by
  simp only [act, Session.join, number]
  cases p.session.subscription <;> rfl

theorem act_listen_idle (h : p.session.running = false ∨ p.number.bind m.find? = none) :
    p.act f m .listen = p.rests f m := by
  have hlisten : p.session.listen m = (p.session, m, []) := by
    unfold Session.listen
    cases hn : p.session.subscription with
    | none => rfl
    | some id =>
      dsimp only
      rcases h with h | h
      · rw [h]
        rfl
      · have hfind : m.find? id = none := by simpa [number, hn] using h
        rw [Emitter.pop, Emitter.queue?_eq, hfind]
        simp
  simp [act, hlisten, rests, tell]

/-- A party that listens is closed if its queue has overflowed, and takes one event otherwise. -/
theorem act_listen {id : SubscriptionId} {s : Subscriber} (hr : p.session.running = true)
    (hn : p.number = some id) (hs : m.find? id = some s) :
    p.act f m .listen =
      if s.queue.overflowed then
        { party := p.close .cancelled, fleet := f, emitter := m }
      else
        { party := p.tell (s.queue.pop.1.elim [] p.session.forward)
          fleet := f, emitter := m.setQueue id s.queue.pop.2 } := by
  have hn : p.session.subscription = some id := hn
  simp only [act, Session.listen, hn, hr, Emitter.queue?_eq, hs, Option.map_some, Option.any_some,
    Emitter.pop_eq hs]
  cases s.queue.overflowed with
  | true => rfl
  | false => cases hpop : s.queue.pop.1 <;> simp

/-- A turn of the forwarding rests, closes the session or takes the oldest event. -/
theorem act_listen_cases (p : Party) (f : Fleet L) (m : Emitter) :
    p.act f m .listen = p.rests f m ∨ p.act f m .listen = (p.close .cancelled).rests f m ∨
      ∃ id q outputs, p.number = some id ∧
        p.act f m .listen = (p.tell outputs).rests f (m.setQueue id q) := by
  by_cases hr : p.session.running = false
  · exact Or.inl (act_listen_idle (Or.inl hr))
  cases hs : p.number.bind m.find? with
  | none => exact Or.inl (act_listen_idle (Or.inr hs))
  | some s =>
    obtain ⟨id, hn, hs⟩ := Option.bind_eq_some_iff.1 hs
    rw [act_listen (Bool.not_eq_false _ ▸ hr) hn hs]
    split
    · exact Or.inr (Or.inl rfl)
    · exact Or.inr (Or.inr ⟨id, _, _, hn, rfl⟩)

/-! ## Parties that are alike -/

/-- Two parties, each with its emitter, differ in the numbers of their subscriptions only. -/
structure Like (p : Party) (m : Emitter) (p' : Party) (m' : Emitter) : Prop where
  party : p' = p.under p'.number
  seat : p'.seat m' = p.seat m

end Party

/-- An emitter that has room for everybody, and numbers that it did not grant belong to
nobody. -/
structure Emitter.Roomy (m : Emitter) : Prop where
  unlimited : m.maxSubscribers = 0
  free : ∀ id, m.nextSubscription ≤ id → m.find? id = none

theorem Emitter.Roomy.full_eq {m : Emitter} (h : m.Roomy) : m.full = false := by
  simp [Emitter.full, h.unlimited]

theorem Emitter.Roomy.find?_granted {m : Emitter} (h : m.Roomy) (f : EventFilter) (asked : Nat) :
    (m.granting f asked).find? m.nextSubscription =
      some ⟨m.nextSubscription, f, { size := m.grantedSize asked }⟩ := by
  rw [Emitter.find?_granting, h.free _ (Nat.le_refl _), if_pos rfl]
  rfl

/-- Two effects that differ in the numbers of subscriptions only. -/
structure Effect.Like {L : Type} (e e' : Effect L) : Prop where
  party : e.party.Like e.emitter e'.party e'.emitter
  fleet : e'.fleet = e.fleet
  trace : e'.trace = e.trace

namespace Party

variable [Link L] {p p' : Party} {f : Fleet L} {m m' : Emitter} {a : Act}

omit [Link L] in
theorem Like.rests (h : p.Like m p' m') (f : Fleet L) : (p.rests f m).Like (p'.rests f m') :=
  ⟨h, rfl, rfl⟩

/-- What does not depend on the number of the subscription is alike in both. -/
theorem Like.under_eq (h : p.Like m p' m') {α : Type} {g : Party → α}
    (hg : ∀ k, g (p.under k) = g p) : g p' = g p := by
  rw [h.party, hg]

omit [Link L] in
/-- Both have a subscriber at their emitters, and their subscribers are alike, or neither has
one. -/
theorem Like.seated (h : p.Like m p' m') :
    (p.number.bind m.find? = none ∧ p'.number.bind m'.find? = none) ∨
      ∃ id s id' s', p.number = some id ∧ m.find? id = some s ∧ p'.number = some id' ∧
        m'.find? id' = some s' ∧ s'.unnumbered = s.unnumbered := by
  have hseat := h.seat
  cases hn : p.number with
  | none =>
    cases hn' : p'.number with
    | none => exact Or.inl ⟨rfl, rfl⟩
    | some id' =>
      rw [seat_none hn, seat_some hn'] at hseat
      cases hseat
  | some id =>
    cases hn' : p'.number with
    | none =>
      rw [seat_some hn, seat_none hn'] at hseat
      cases hseat
    | some id' =>
      rw [seat_some hn, seat_some hn', Option.some.injEq] at hseat
      cases hs : m.find? id with
      | none =>
        rw [hs, Option.map_none, Option.map_eq_none_iff] at hseat
        exact Or.inl ⟨hs, hseat⟩
      | some s =>
        rw [hs, Option.map_some, Option.map_eq_some_iff] at hseat
        obtain ⟨s', hs', heq⟩ := hseat
        exact Or.inr ⟨id, s, id', s', rfl, hs, rfl, hs', heq⟩

omit [Link L] in
/-- What is done to both is done to parties that are alike. -/
theorem Like.map (h : p.Like m p' m') {g : Party → Party}
    (hg : ∀ p k, g (p.under k) = (g p).under k) : (g p).Like m (g p') m' := by
  have hnumber : ∀ p, (g p).number = p.number := fun p => number_eq_of_under (hg p)
  refine ⟨?_, ?_⟩
  · rw [hnumber, ← hg, ← h.party]
  · have hseat : ∀ p m, (g p).seat m = p.seat m := fun p m => by
      rw [Party.seat, hnumber, Party.seat]
    rw [hseat, hseat, h.seat]

/-- **What has nothing to do with the subscription is done alike.** -/
theorem Like.still (h : p.Like m p' m') (ha : a.subscribes = false) :
    (p.act f m a).Like (p'.act f m' a) := by
  obtain ⟨hn, hm⟩ := act_still (p := p) (f := f) (m := m) ha
  have heq := act_under ha p p'.number f m m'
  rw [← h.party] at heq
  rw [heq]
  refine ⟨⟨rfl, ?_⟩, rfl, rfl⟩
  have hseat : (p.act f m a).party.seat (p.act f m a).emitter = p.seat m := by
    rw [Party.seat, Party.seat, hn, hm]
  exact h.seat.trans hseat.symm

theorem Like.start (h : p.Like m p' m') (hm : m.Roomy) (hm' : m'.Roomy)
    (hsize : m'.defaultQueueSize = m.defaultQueueSize) :
    (p.act f m .start).Like (p'.act f m' .start) := by
  have hphase : p'.session.phase = p.session.phase :=
    h.under_eq (g := fun p => p.session.phase) fun _ => rfl
  have hrunning : p'.session.running = p.session.running :=
    h.under_eq (g := fun p => p.session.running) fun _ => rfl
  have hterms : p'.session.terms = p.session.terms :=
    h.under_eq (g := fun p => p.session.terms) fun _ => rfl
  by_cases hno : p.session.phase = .closed ∨ p.session.running = true
  · rw [act_start_again hno, act_start_again (by rwa [hphase, hrunning])]
    exact h.rests f
  · rw [act_start hno hm.full_eq, act_start (by rwa [hphase, hrunning]) hm'.full_eq]
    refine ⟨⟨?_, ?_⟩, rfl, rfl⟩
    · rw [h.party]
      rfl
    · -- the new subscribers have the same terms, and queues of the same size
      refine (seat_some rfl _).trans ?_
      refine Eq.trans ?_ (seat_some rfl _).symm
      dsimp only
      rw [hm.find?_granted, hm'.find?_granted, hterms, Emitter.grantedSize, Emitter.grantedSize,
        hsize]
      rfl

theorem Like.listen (h : p.Like m p' m') : (p.act f m .listen).Like (p'.act f m' .listen) := by
  have hrunning : p'.session.running = p.session.running :=
    h.under_eq (g := fun p => p.session.running) fun _ => rfl
  rcases h.seated with ⟨hnone, hnone'⟩ | ⟨id, s, id', s', hn, hs, hn', hs', heq⟩
  · rw [act_listen_idle (Or.inr hnone), act_listen_idle (Or.inr hnone')]
    exact h.rests f
  cases hr : p.session.running with
  | false =>
    rw [act_listen_idle (Or.inl hr), act_listen_idle (Or.inl (hrunning.trans hr))]
    exact h.rests f
  | true =>
    have hqueue : s'.queue = s.queue :=
      (congrArg Subscriber.queue heq : s'.unnumbered.queue = s.unnumbered.queue)
    rw [act_listen hr hn hs, act_listen (hrunning.trans hr) hn' hs', hqueue]
    cases s.queue.overflowed with
    | true =>
      rw [if_pos rfl, if_pos rfl]
      exact ⟨h.map (g := fun q => q.close .cancelled) fun p k => close_under p k _, rfl, rfl⟩
    | false =>
      have hforward : p'.session.forward = p.session.forward :=
        h.under_eq (g := fun p => p.session.forward) fun _ => rfl
      have hmap := h.map (g := fun q => q.tell (s.queue.pop.1.elim [] p.session.forward))
        fun _ _ => rfl
      rw [if_neg Bool.false_ne_true, if_neg Bool.false_ne_true, hforward]
      refine ⟨⟨hmap.party, ?_⟩, rfl, rfl⟩
      refine (seat_some hn' _).trans (Eq.trans ?_ (seat_some hn _).symm)
      rw [Emitter.find?_setQueue_self hs, Emitter.find?_setQueue_self hs']
      have hsub := congrArg (fun t : Subscriber => { t with queue := s.queue.pop.2 }) heq
      exact congrArg (fun t => some (some t)) hsub

/-- **Parties that are alike act alike**, each with its own emitter. -/
theorem Like.act (h : p.Like m p' m') (hm : m.Roomy) (hm' : m'.Roomy)
    (hsize : m'.defaultQueueSize = m.defaultQueueSize) (a : Act) :
    (p.act f m a).Like (p'.act f m' a) := by
  cases a with
  | start => exact h.start hm hm' hsize
  | join =>
    rw [act_join, act_join]
    refine ⟨⟨?_, rfl⟩, rfl, rfl⟩
    rw [h.party]
    rfl
  | listen => exact h.listen
  | hear msg => exact h.still rfl
  | answer call now => exact h.still rfl
  | close reason => exact h.still rfl
  | work => exact h.still rfl
  | claim now => exact h.still rfl
  | follow => exact h.still rfl

/-! ## What an act leaves of the emitter -/

/-- The effect of an act on the emitter is confined to the place of the party there: its own
subscriber, or a new one. -/
structure Confined (p : Party) (m : Emitter) (e : Effect L) : Prop where
  roomy : e.emitter.Roomy
  nextEvent : e.emitter.nextEvent = m.nextEvent
  defaultQueueSize : e.emitter.defaultQueueSize = m.defaultQueueSize
  grows : m.nextSubscription ≤ e.emitter.nextSubscription
  others : ∀ id, id < m.nextSubscription → p.number ≠ some id →
    e.emitter.find? id = m.find? id
  number : ∀ id, e.party.number = some id →
    p.number = some id ∨ m.nextSubscription ≤ id ∧ id < e.emitter.nextSubscription

omit [Link L] in
theorem confined_still {e : Effect L} (hm : m.Roomy) (hn : e.party.number = p.number)
    (he : e.emitter = m) : p.Confined m e := by
  refine ⟨?_, by rw [he], by rw [he], ?_, fun id _ _ => by rw [he],
    fun id hid => Or.inl (hn.symm.trans hid)⟩ <;> rw [he]
  exact hm

omit [Link L] in
theorem confined_spares {e : Effect L} {id : SubscriptionId} (hm : m.Roomy)
    (hn : p.number = some id) (hs : Audience.Spares (.attached id) m e.emitter)
    (hlimit : e.emitter.maxSubscribers = m.maxSubscribers)
    (hown : ∀ id', e.party.number = some id' → p.number = some id') : p.Confined m e where
  roomy := ⟨hlimit.trans hm.unlimited, fun id' hle =>
    hs.missing id' (hm.free id' (hs.nextSubscription ▸ hle))⟩
  nextEvent := hs.nextEvent
  defaultQueueSize := hs.defaultQueueSize
  grows := Nat.le_of_eq hs.nextSubscription.symm
  others id' _ hne := hs.others id' fun heq => hne (by cases heq; exact hn)
  number id' hid := Or.inl (hown id' hid)

/-- **An act reaches no other place at the emitter.** -/
theorem confined_act (hm : m.Roomy) (p : Party) (f : Fleet L) (a : Act) :
    p.Confined m (p.act f m a) := by
  have hstill (ha : a.subscribes = false) : p.Confined m (p.act f m a) :=
    confined_still hm (act_still ha).1 (act_still ha).2
  cases a with
  | start =>
    by_cases hno : p.session.phase = .closed ∨ p.session.running = true
    · rw [act_start_again hno]
      exact confined_still hm rfl rfl
    · rw [act_start hno hm.full_eq]
      refine ⟨⟨hm.unlimited, fun id hle => ?_⟩, rfl, rfl, Nat.le_succ _, fun id hlt _ => ?_,
        fun id hid => Or.inr ?_⟩
      · have hle : m.nextSubscription + 1 ≤ id := hle
        rw [Emitter.find?_granting, hm.free id (Nat.le_of_succ_le hle), if_neg (Nat.ne_of_lt hle)]
        rfl
      · rw [Emitter.find?_granting, if_neg (Nat.ne_of_gt hlt), Option.or_none]
      · cases hid
        exact ⟨Nat.le_refl _, Nat.lt_succ_self _⟩
  | join =>
    rw [act_join]
    cases hn : p.number with
    | none => exact confined_still hm hn.symm rfl
    | some id =>
      exact confined_spares hm hn (Audience.spares_unsubscribe m id) rfl fun _ hid => by cases hid
  | listen =>
    rcases act_listen_cases p f m with heq | heq | ⟨id, q, outputs, hn, heq⟩
    · rw [heq]
      exact confined_still hm rfl rfl
    · rw [heq]
      exact confined_still hm (number_close p .cancelled) rfl
    · rw [heq]
      exact confined_spares hm hn (Audience.spares_setQueue m id q) rfl fun _ hid => hid
  | hear msg => exact hstill rfl
  | answer call now => exact hstill rfl
  | close reason => exact hstill rfl
  | work => exact hstill rfl
  | claim now => exact hstill rfl
  | follow => exact hstill rfl

omit [Link L] in
/-- What waits for others is not reached. -/
theorem Confined.seat {e : Effect L} (h : p.Confined m e) {q : Party}
    (hq : ∀ id, q.number = some id → id < m.nextSubscription ∧ p.number ≠ some id) :
    q.seat e.emitter = q.seat m := by
  cases hn : q.number with
  | none => rw [seat_none hn, seat_none hn]
  | some id =>
    obtain ⟨hlt, hne⟩ := hq id hn
    rw [seat_some hn, seat_some hn, h.others id hlt hne]

omit [Link L] in
/-- Every event is offered to what waits, whatever its number. -/
theorem seat_emit (p : Party) (m : Emitter) (body : DeviceEvent) (t : Int) :
    p.seat (m.emit body t) =
      (p.seat m).map (Option.map (Emitter.offer ⟨m.nextEvent, body, t⟩)) := by
  have hoffer (s : Subscriber) : (Emitter.offer ⟨m.nextEvent, body, t⟩ s).unnumbered =
      Emitter.offer ⟨m.nextEvent, body, t⟩ s.unnumbered := by
    unfold Emitter.offer
    by_cases hw : s.filter.wants body
    · rw [if_pos hw, if_pos (show s.unnumbered.filter.wants body from hw)]
      rfl
    · rw [if_neg hw, if_neg (show ¬ s.unnumbered.filter.wants body from hw)]
  cases hn : p.number with
  | none => rw [seat_none hn, seat_none hn]; rfl
  | some id =>
    rw [seat_some hn, seat_some hn, Emitter.find?_emit, Option.map_some, Option.map_map,
      Option.map_map]
    congr 2
    funext s
    exact hoffer s

/-! ## Parties that run nothing -/

/-- The worker is idle or before a task, and the watchdog has nothing to do. -/
structure Calm (p : Party) : Prop where
  watch : p.watch = .watching
  stage : p.session.stage.BeforeTask

/-- On record is neither a task that was run nor the claim of a silence. -/
structure Harmless (p : Party) : Prop where
  ran : ∀ w, .ran w ∉ p.deeds
  claimed : .claimed ∉ p.deeds

/-- Deeds are put on record, and none is taken off. -/
theorem deeds_act (p : Party) (f : Fleet L) (m : Emitter) (a : Act) :
    ∃ deeds, (p.act f m a).party.deeds = p.deeds ++ deeds := by
  have hsame : ∃ deeds, p.deeds = p.deeds ++ deeds := ⟨[], (List.append_nil _).symm⟩
  cases a with
  | start => exact hsame
  | join => exact hsame
  | listen => exact hsame
  | close reason => exact hsame
  | hear msg =>
    rw [act]
    split <;> exact hsame
  | answer call now =>
    rw [act]
    split <;> exact hsame
  | work =>
    rw [act]
    split
    · exact hsame
    · exact ⟨_, rfl⟩
  | claim now =>
    rw [act]
    split
    · exact ⟨_, rfl⟩
    · exact hsame
  | follow =>
    rw [act, follow]
    split
    · exact hsame
    · exact hsame
    · exact hsame
    · split
      · exact hsame
      · exact ⟨_, rfl⟩
    · exact hsame

/-- What a party did not do in the end it did not do before. -/
theorem Harmless.of_act (h : (p.act f m a).party.Harmless) : p.Harmless := by
  obtain ⟨deeds, hdeeds⟩ := deeds_act p f m a
  have hmem : ∀ d ∈ p.deeds, d ∈ (p.act f m a).party.deeds := fun d hd => by
    rw [hdeeds]
    exact List.mem_append_left _ hd
  exact ⟨fun w hw => h.ran w (hmem _ hw), fun hw => h.claimed (hmem _ hw)⟩

omit [Link L] in
theorem Calm.talk (h : p.Calm) {q : Party} (hw : q.watch = p.watch)
    (ht : p.session.Talks q.session) : q.Calm :=
  ⟨hw.trans h.watch, ht.stage ▸ h.stage⟩

/-- **An act of a party that runs nothing leaves the fleet alone.** -/
theorem Calm.act (h : p.Calm) (hq : (p.act f m a).party.Harmless) :
    (p.act f m a).party.Calm ∧ (p.act f m a).fleet = f ∧ (p.act f m a).trace = [] := by
  cases a with
  | start => exact ⟨h.talk rfl (Session.talks_start p.session (some m)), rfl, rfl⟩
  | join => exact ⟨h.talk rfl (Session.talks_join p.session (some m)), rfl, rfl⟩
  | listen =>
    rcases act_listen_cases p f m with heq | heq | ⟨id, q, outputs, hn, heq⟩
    · rw [heq]
      exact ⟨h, rfl, rfl⟩
    · rw [heq]
      exact ⟨h.talk rfl (Session.talks_close p.session .cancelled), rfl, rfl⟩
    · rw [heq]
      exact ⟨h.talk rfl (.refl _), rfl, rfl⟩
  | close reason => exact ⟨h.talk rfl (Session.talks_close p.session reason), rfl, rfl⟩
  | hear msg =>
    rw [Party.act]
    split
    · exact ⟨h.talk rfl (.refl _), rfl, rfl⟩
    · exact ⟨h, rfl, rfl⟩
  | answer call now =>
    rw [Party.act]
    split
    · exact ⟨h, rfl, rfl⟩
    · exact ⟨h.talk rfl (Session.talks_answer _ _ _ _ _), rfl, rfl⟩
  | work =>
    rw [Party.act] at hq ⊢
    cases hwork : p.session.workStep f with
    | none => exact ⟨h, rfl, rfl⟩
    | some turn =>
      simp only [hwork] at hq ⊢
      have hran : ∀ w, ran w ∉ p.session.workDeeds f :=
        fun w hw => hq.ran w (List.mem_append_right _ hw)
      obtain ⟨hstage, hfleet, htrace⟩ := Session.workStep_beforeTask h.stage hran hwork
      exact ⟨⟨h.watch, hstage⟩, hfleet, htrace⟩
  | claim now =>
    rw [Party.act] at hq ⊢
    cases hclaim : p.session.claim now with
    | mk b s =>
      simp only [hclaim] at hq ⊢
      cases b with
      | true => exact absurd (List.mem_append_right _ (List.mem_singleton.2 rfl)) hq.claimed
      | false =>
        have hsame : s = p.session := by
          unfold Session.claim at hclaim
          split at hclaim <;> cases hclaim
          rfl
        rw [hsame]
        exact ⟨h, rfl, rfl⟩
  | follow =>
    rw [Party.act, follow, h.watch]
    exact ⟨h, rfl, rfl⟩

end Party

/-! ## Commons -/

/-- Parties that share a fleet, the audience of its events, and what happened so far. -/
structure Commons (ι L : Type) where
  party : ι → Party
  fleet : Fleet L
  audience : Audience
  happened : List Happening := []

namespace Commons

/-- What happens where a fleet is shared, with the times at which events are emitted. -/
inductive Move (ι L : Type)
  /-- One of the parties acts. -/
  | act (i : ι) (a : Act) (now : DeviceEvent → Int)
  /-- Somebody else does something with the fleet. -/
  | call (c : Fleet.Call L) (now : DeviceEvent → Int)

variable {ι L : Type}

/-- Emits some events. -/
def tell (x : Commons ι L) (es : List DeviceEvent) (now : DeviceEvent → Int) : Commons ι L :=
  { x with audience := x.audience.run (Broadcast.emits es now) }

/-- Fresh sessions with any fleet, and an emitter without a limit to its subscribers. -/
def opening (name : ι → String) (terms : ι → Terms) (arrival : ι → Time) (f : Fleet L)
    (defaultQueueSize : Nat) : Commons ι L :=
  { party := fun i =>
      { session := { name := name i, terms := terms i, lastActivity := arrival i } }
    fleet := f, audience := .opening defaultQueueSize 0 }

variable {x y : Commons ι L} {b i : ι}

/-! ## Places apart -/

/-- Every party has its own place at an emitter that has room for all. -/
structure Apart (x : Commons ι L) : Prop where
  roomy : x.audience.emitter.Roomy
  granted : ∀ i id, (x.party i).number = some id → id < x.audience.emitter.nextSubscription
  apart : ∀ i j id, (x.party i).number = some id → (x.party j).number = some id → i = j

theorem apart_opening (name : ι → String) (terms : ι → Terms) (arrival : ι → Time)
    (f : Fleet L) (size : Nat) : (opening name terms arrival f size).Apart where
  roomy := ⟨rfl, fun _ _ => rfl⟩
  granted _ _ h := nomatch h
  apart _ _ _ h := nomatch h

theorem Apart.tell (h : x.Apart) (es : List DeviceEvent) (now : DeviceEvent → Int) :
    (x.tell es now).Apart := by
  induction es generalizing x with
  | nil => exact h
  | cons e es ih =>
    refine ih (x := { x with audience := x.audience.step (.emit e (now e)) })
      ⟨⟨h.roomy.unlimited, fun id hle => ?_⟩, h.granted, h.apart⟩
    have hfree : x.audience.emitter.find? id = none := h.roomy.free id hle
    refine (Emitter.find?_emit _ _).trans ?_
    rw [hfree]
    rfl

/-- What one party does reaches nobody else's place. -/
theorem Apart.seat_eq (h : x.Apart) {e : Effect L}
    (hc : (x.party i).Confined x.audience.emitter e) {j : ι} (hj : j ≠ i) :
    (x.party j).seat e.emitter = (x.party j).seat x.audience.emitter :=
  hc.seat fun id hid => ⟨h.granted j id hid, fun hid' => hj (h.apart j i id hid hid')⟩

/-! ## Two commons that differ in one party -/

/-- Two commons are the same for everybody except `b`, but for the numbers of
subscriptions. -/
structure Alike (b : ι) (x y : Commons ι L) : Prop where
  party : ∀ i, i ≠ b →
    (x.party i).Like x.audience.emitter (y.party i) y.audience.emitter
  fleet : y.fleet = x.fleet
  happened : y.happened = x.happened
  emitted : y.audience.emitted = x.audience.emitted
  nextEvent : y.audience.emitter.nextEvent = x.audience.emitter.nextEvent
  defaultQueueSize : y.audience.emitter.defaultQueueSize = x.audience.emitter.defaultQueueSize

theorem alike_refl (b : ι) (x : Commons ι L) : Alike b x x :=
  ⟨fun _ _ => ⟨rfl, rfl⟩, rfl, rfl, rfl, rfl, rfl⟩

/-- Events reach everybody in both. -/
theorem Alike.tell (h : Alike b x y) (es : List DeviceEvent) (now : DeviceEvent → Int) :
    Alike b (x.tell es now) (y.tell es now) := by
  induction es generalizing x y with
  | nil => exact h
  | cons e es ih =>
    refine ih (x := { x with audience := x.audience.step (.emit e (now e)) })
      (y := { y with audience := y.audience.step (.emit e (now e)) })
      ⟨fun i hi => ⟨(h.party i hi).party, ?_⟩, h.fleet, h.happened, ?_,
        congrArg Nat.succ h.nextEvent, h.defaultQueueSize⟩
    · refine (Party.seat_emit _ _ _ _).trans (Eq.trans ?_ (Party.seat_emit _ _ _ _).symm)
      rw [(h.party i hi).seat, h.nextEvent]
    · have hnext : y.audience.next e (now e) = x.audience.next e (now e) := by
        rw [Audience.next, h.nextEvent]
        rfl
      exact congrArg₂ (fun es e => es ++ [e]) h.emitted hnext

/-! ## Moves -/

variable [DecidableEq ι]

/-- Whether a move is an act of a party. -/
def Move.isOf (b : ι) : Move ι L → Bool
  | .act i .. => i = b
  | .call .. => false

/-- What a party leaves behind takes effect, its events apart. -/
def settle (x : Commons ι L) (i : ι) (e : Effect L) : Commons ι L :=
  { party := Function.update x.party i e.party, fleet := e.fleet
    audience := { x.audience with emitter := e.emitter }
    happened := x.happened ++ e.trace }

/-- What somebody else does with the fleet takes effect, its events apart. -/
def called [Link L] (x : Commons ι L) (c : Fleet.Call L) : Commons ι L :=
  { x with fleet := x.fleet.after c, happened := x.happened ++ x.fleet.trace c }

theorem party_settle_self (x : Commons ι L) (i : ι) (e : Effect L) :
    (x.settle i e).party i = e.party := Function.update_self ..

theorem party_settle_of_ne {j : ι} (hj : j ≠ i) (x : Commons ι L) (e : Effect L) :
    (x.settle i e).party j = x.party j := Function.update_of_ne hj ..

/-- Whoever acts stays in its place, or gets a new one. -/
theorem Apart.settle (h : x.Apart) {e : Effect L}
    (hc : (x.party i).Confined x.audience.emitter e) : (x.settle i e).Apart := by
  have hnumber : ∀ j id, ((x.settle i e).party j).number = some id →
      (x.party j).number = some id ∨
        j = i ∧ x.audience.emitter.nextSubscription ≤ id ∧ id < e.emitter.nextSubscription := by
    intro j id hid
    by_cases hj : j = i
    · rw [hj, party_settle_self] at hid
      rw [hj]
      exact (hc.number id hid).imp_right fun h => ⟨rfl, h⟩
    · rw [party_settle_of_ne hj] at hid
      exact Or.inl hid
  refine ⟨hc.roomy, fun j id hid => ?_, fun j k id hj hk => ?_⟩
  · rcases hnumber j id hid with hid | ⟨-, -, hlt⟩
    · exact Nat.lt_of_lt_of_le (h.granted j id hid) hc.grows
    · exact hlt
  · -- a new number is none of the old ones
    rcases hnumber j id hj with hold | ⟨hji, hnew, -⟩
    · rcases hnumber k id hk with hold' | ⟨-, hnew, -⟩
      · exact h.apart j k id hold hold'
      · exact absurd (h.granted j id hold) (Nat.not_lt.2 hnew)
    · rcases hnumber k id hk with hold' | ⟨hki, -, -⟩
      · exact absurd (h.granted k id hold') (Nat.not_lt.2 hnew)
      · exact hji.trans hki.symm

/-- **What somebody else leaves behind takes effect in both.** -/
theorem Alike.settle (h : Alike b x y) (hx : x.Apart) (hy : y.Apart) {e e' : Effect L}
    (hlike : e.Like e') (hcx : (x.party i).Confined x.audience.emitter e)
    (hcy : (y.party i).Confined y.audience.emitter e') :
    Alike b (x.settle i e) (y.settle i e') := by
  refine ⟨fun j hj => ?_, hlike.fleet, congrArg₂ (· ++ ·) h.happened hlike.trace, h.emitted,
    ?_, ?_⟩
  · by_cases hji : j = i
    · rw [hji, party_settle_self, party_settle_self]
      exact hlike.party
    · rw [party_settle_of_ne hji, party_settle_of_ne hji]
      refine ⟨(h.party j hj).party, ?_⟩
      have hseat := (h.party j hj).seat
      rw [← hx.seat_eq hcx hji, ← hy.seat_eq hcy hji] at hseat
      exact hseat
  · exact hcy.nextEvent.trans (h.nextEvent.trans hcx.nextEvent.symm)
  · exact hcy.defaultQueueSize.trans (h.defaultQueueSize.trans hcx.defaultQueueSize.symm)

/-- **What `b` leaves behind is noticed by nobody else**, if the fleet is left alone. -/
theorem Alike.settle_left (h : Alike b x y) (hx : x.Apart) {e : Effect L}
    (hc : (x.party b).Confined x.audience.emitter e) (hfleet : e.fleet = x.fleet)
    (htrace : e.trace = []) : Alike b (x.settle b e) y := by
  have hhappened : (x.settle b e).happened = x.happened := by
    rw [Commons.settle, htrace, List.append_nil]
  refine ⟨fun j hj => ?_, h.fleet.trans hfleet.symm, h.happened.trans hhappened.symm, h.emitted,
    h.nextEvent.trans hc.nextEvent.symm, h.defaultQueueSize.trans hc.defaultQueueSize.symm⟩
  rw [party_settle_of_ne hj]
  refine ⟨(h.party j hj).party, ?_⟩
  have hseat := (h.party j hj).seat
  rw [← hx.seat_eq hc hj] at hseat
  exact hseat

variable [Link L]

/-- What a party would leave behind. -/
def effect (x : Commons ι L) (i : ι) (a : Act) : Effect L :=
  (x.party i).act x.fleet x.audience.emitter a

/-- One move. -/
def step (x : Commons ι L) : Move ι L → Commons ι L
  | .act i a now => (x.settle i (x.effect i a)).tell (Fleet.emittedIn (x.effect i a).trace) now
  | .call c now => (x.called c).tell (x.fleet.told c) now

def run (x : Commons ι L) (moves : List (Move ι L)) : Commons ι L := moves.foldl step x

omit [DecidableEq ι] in
theorem Apart.confined (h : x.Apart) (i : ι) (a : Act) :
    (x.party i).Confined x.audience.emitter (x.effect i a) :=
  Party.confined_act h.roomy (x.party i) x.fleet a

/-- Places stay apart. -/
theorem Apart.step (h : x.Apart) (mv : Move ι L) : (x.step mv).Apart := by
  cases mv with
  | act i a now => exact (h.settle (h.confined i a)).tell _ now
  | call c now =>
    exact Apart.tell (x := x.called c) ⟨h.roomy, h.granted, h.apart⟩ _ now

/-- **A move of anybody else is made in both.** -/
theorem Alike.step (h : Alike b x y) (hx : x.Apart) (hy : y.Apart) {mv : Move ι L}
    (hmv : mv.isOf b = false) : Alike b (x.step mv) (y.step mv) := by
  cases mv with
  | act i a now =>
    have hi : i ≠ b := of_decide_eq_false hmv
    have hlike : (x.effect i a).Like (y.effect i a) := by
      rw [effect, effect, h.fleet]
      exact (h.party i hi).act hx.roomy hy.roomy h.defaultQueueSize a
    have hsettled := h.settle hx hy hlike (hx.confined i a) (hy.confined i a)
    rw [Commons.step, Commons.step, hlike.trace]
    exact hsettled.tell _ now
  | call c now =>
    rw [Commons.step, Commons.step, h.fleet]
    have hfleet : (y.called c).fleet = (x.called c).fleet := congrArg (Fleet.after · c) h.fleet
    have hhappened : (y.called c).happened = (x.called c).happened := by
      rw [called, called, h.fleet, h.happened]
    exact Alike.tell (x := x.called c) (y := y.called c)
      ⟨h.party, hfleet, hhappened, h.emitted, h.nextEvent, h.defaultQueueSize⟩ _ now

/-- **An act of `b` is noticed by nobody else**, if it is calm and stays harmless. -/
theorem Alike.step_left (h : Alike b x y) (hx : x.Apart) (hcalm : (x.party b).Calm)
    {mv : Move ι L} (hmv : mv.isOf b = true) (hq : ((x.step mv).party b).Harmless) :
    Alike b (x.step mv) y ∧ ((x.step mv).party b).Calm := by
  cases mv with
  | call c now => cases hmv
  | act i a now =>
    obtain rfl : i = b := of_decide_eq_true hmv
    have hparty : (x.step (.act i a now)).party i = (x.effect i a).party :=
      party_settle_self x i _
    rw [hparty] at hq ⊢
    obtain ⟨hcalm', hfleet, htrace⟩ := hcalm.act hq
    refine ⟨?_, hcalm'⟩
    have htrace : (x.effect i a).trace = [] := htrace
    rw [Commons.step, htrace]
    exact h.settle_left hx (hx.confined i a) hfleet htrace

/-- A party that did not act is as it was. -/
theorem party_step {mv : Move ι L} (hmv : mv.isOf b = false) (x : Commons ι L) :
    (x.step mv).party b = x.party b := by
  cases mv with
  | call c now => rfl
  | act i a now => exact party_settle_of_ne (Ne.symm (of_decide_eq_false hmv)) x _

/-- A party that is harmless was so before. -/
theorem harmless_of_step {mv : Move ι L} (h : ((x.step mv).party b).Harmless) :
    (x.party b).Harmless := by
  cases hmv : mv.isOf b with
  | false => rwa [party_step hmv] at h
  | true =>
    cases mv with
    | call c now => cases hmv
    | act i a now =>
      obtain rfl : i = b := of_decide_eq_true hmv
      have hparty : (x.step (.act i a now)).party i = (x.effect i a).party :=
        party_settle_self x i _
      rw [hparty] at h
      exact h.of_act

/-- A party that ran nothing by the end of a run had run nothing at its beginning. -/
theorem harmless_of_run {moves : List (Move ι L)} (h : ((x.run moves).party b).Harmless) :
    (x.party b).Harmless := by
  induction moves generalizing x with
  | nil => exact h
  | cons mv moves ih => exact harmless_of_step (ih (x := x.step mv) h)

/-- **The run without the acts of `b` is alike.** -/
theorem Alike.run (h : Alike b x y) (hx : x.Apart) (hy : y.Apart) (hcalm : (x.party b).Calm)
    {moves : List (Move ι L)} (hq : ((x.run moves).party b).Harmless) :
    Alike b (x.run moves) (y.run (moves.filter fun mv => !mv.isOf b)) := by
  induction moves generalizing x y with
  | nil => exact h
  | cons mv moves ih =>
    have hnext : ((x.step mv).party b).Harmless := harmless_of_run (x := x.step mv) hq
    cases hmv : mv.isOf b with
    | false =>
      rw [List.filter_cons_of_pos (by simp [hmv])]
      refine ih (x := x.step mv) (y := y.step mv) (h.step hx hy hmv) (hx.step mv) (hy.step mv) ?_ hq
      rwa [party_step hmv]
    | true =>
      rw [List.filter_cons_of_neg (by simp [hmv])]
      obtain ⟨h', hcalm'⟩ := h.step_left hx hcalm hmv hnext
      exact ih (x := x.step mv) h' (hx.step mv) hy hcalm' hq

/-! ## The main statement -/

/-- **Whatever is the same for everybody except `b`.** -/
structure Undisturbed (b : ι) (x y : Commons ι L) : Prop where
  outputs : ∀ i, i ≠ b → (y.party i).outputs = (x.party i).outputs
  /-- Sessions have the same state, the same version, the same requests without a reply,
  the same record of commands, and whatever else they have but for the numbers of their
  subscriptions. -/
  session : ∀ i, i ≠ b →
    (y.party i).session = (x.party i).session.under (y.party i).session.subscription
  /-- The same events wait for them, or none can. -/
  waiting : ∀ i, i ≠ b →
    (y.party i).seat y.audience.emitter = (x.party i).seat x.audience.emitter
  heard : ∀ i, i ≠ b → (y.party i).heard = (x.party i).heard
  watch : ∀ i, i ≠ b → (y.party i).watch = (x.party i).watch
  deeds : ∀ i, i ≠ b → (y.party i).deeds = (x.party i).deeds
  /-- Every device and every link. -/
  fleet : y.fleet = x.fleet
  /-- What was written and read on the links, and what was told of the devices. -/
  happened : y.happened = x.happened
  emitted : y.audience.emitted = x.audience.emitted

omit [DecidableEq ι] [Link L] in
theorem Alike.undisturbed (h : Alike b x y) : Undisturbed b x y where
  outputs i hi := (h.party i hi).under_eq (g := Party.outputs) fun _ => rfl
  session i hi := congrArg Party.session (h.party i hi).party
  waiting i hi := (h.party i hi).seat
  heard i hi := (h.party i hi).under_eq (g := Party.heard) fun _ => rfl
  watch i hi := (h.party i hi).under_eq (g := Party.watch) fun _ => rfl
  deeds i hi := (h.party i hi).under_eq (g := Party.deeds) fun _ => rfl
  fleet := h.fleet
  happened := h.happened
  emitted := h.emitted

/-- **Sessions do not disturb each other.** The run without the acts of a party that runs
no task and whose client's silence is never claimed leaves everybody else, the fleet and
the events as they are. -/
theorem undisturbed_of_run (name : ι → String) (terms : ι → Terms) (arrival : ι → Time)
    (f : Fleet L) (size : Nat) (b : ι) (moves : List (Move ι L))
    (hran : ∀ w, .ran w ∉ (((opening name terms arrival f size).run moves).party b).deeds)
    (hclaimed : .claimed ∉ (((opening name terms arrival f size).run moves).party b).deeds) :
    Undisturbed b ((opening name terms arrival f size).run moves)
      ((opening name terms arrival f size).run (moves.filter fun mv => !mv.isOf b)) := by
  have hopening := apart_opening name terms arrival f size
  exact ((alike_refl b _).run hopening hopening ⟨rfl, .idle⟩ ⟨hran, hclaimed⟩).undisturbed

/-- Of two clients the second asks for a command and sends a second handshake before its
worker comes to it. The first is told of a device that comes later, and has another one
commanded. -/
def intrusion : List (Move Bool SimulatedLink) :=
  [.act true .start fun _ => 0, .act false .start fun _ => 0,
    .act true (.hear ⟨1, .handshakeRequest "d" 1 1⟩) fun _ => 0,
    .act true (.answer 0 0) fun _ => 0,
    .act false (.hear ⟨1, .handshakeRequest "c" 1 1⟩) fun _ => 0,
    .act false (.answer 0 0) fun _ => 0,
    .act true (.hear ⟨2, .deviceCommand 0 .stop⟩) fun _ => 0,
    .act true (.answer 0 1) fun _ => 0, .act true .work fun _ => 0,
    .act true (.hear ⟨3, .handshakeRequest "d" 1 1⟩) fun _ => 0,
    .act true (.answer 0 2) fun _ => 0, .act true .work fun _ => 0,
    .call (.addLink { device := {} }) fun _ => 0,
    .call (.register ⟨"sim", "C", "Launch"⟩ [] (some 2)) fun _ => 3,
    .act false .listen fun _ => 0,
    .act false (.hear ⟨2, .deviceCommand 0 (.actuate .vibrate [{ value := .one }])⟩) fun _ => 0,
    .act false (.answer 0 4) fun _ => 0, .act false .work fun _ => 0,
    .act false .work fun _ => 0, .act false .work fun _ => 0, .act false .work fun _ => 0,
    .act false .work fun _ => 0]

/-- The first client gets its reply in both runs, and the second is closed. -/
theorem undisturbed_intrusion :
    Undisturbed true
        ((opening (fun _ => "client") (fun _ => {}) (fun _ => 0) Fleet.pair 8).run intrusion)
        ((opening (fun _ => "client") (fun _ => {}) (fun _ => 0) Fleet.pair 8).run
          (intrusion.filter fun mv => !mv.isOf true)) ∧
      (((opening (fun _ => "client") (fun _ => {}) (fun _ => 0) Fleet.pair 8).run
        intrusion).party false).outputs.length = 3 ∧
      (((opening (fun _ => "client") (fun _ => {}) (fun _ => 0) Fleet.pair 8).run
        intrusion).party true).session.phase = .closed := by
  have hdeeds : (((opening (fun _ => "client") (fun _ => {}) (fun _ => 0) Fleet.pair 8).run
      intrusion).party true).deeds =
        [.checked ⟨2, .command 0 .stop⟩ false] := by decide +kernel
  refine ⟨undisturbed_of_run _ _ _ _ _ true intrusion ?_ ?_, by decide +kernel,
    by decide +kernel⟩
  · rw [hdeeds]
    simp
  · rw [hdeeds]
    simp

end Commons

end Haptics
