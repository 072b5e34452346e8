import Haptics.Proofs.Event.Audience
import Haptics.Proofs.Server.Effects
/-!
# Forwarding that keeps up

A server forwards events as they are emitted, so they wait for a session only while a message to
its client is stuck. `Server.Attentive` says so; it holds whenever all that waits has been
forwarded, whatever was before (`Server.attentive_listenAll`). A queue has room for one event at
least, so none overflows from there on (`Server.Attentive.emit`).
-/

namespace Haptics

/-! ## Queues -/

theorem EventQueue.overflowed_push {q : EventQueue} (hempty : q.items = [])
    (hkeeps : q.overflowed = false) (e : Event) :
    (q.push e).2.items.length ≤ 1 ∧ (q.push e).2.overflowed = false := by
  have hroom : ¬ q.capacity ≤ q.items.length := by
    rw [hempty, capacity, List.length_nil]
    omega
  rw [push, if_neg hroom]
  split
  · rw [hempty]
    exact ⟨Nat.zero_le 1, hkeeps⟩
  · rw [hempty]
    exact ⟨le_refl 1, hkeeps⟩

theorem EventQueue.length_pop (q : EventQueue) :
    q.pop.2.items.length = q.items.length - 1 ∧ q.pop.2.overflowed = q.overflowed := by
  unfold pop
  split <;> rename_i h
  · rw [h]
    exact ⟨rfl, rfl⟩
  · rw [h]
    exact ⟨rfl, rfl⟩

namespace Emitter

variable {m m' : Emitter} {id : SubscriptionId} {wanted : SubscriptionId → Prop}

/-- Nothing was put into a queue, and from those that are wanted an event was taken, unless there
was none. -/
def Took (m m' : Emitter) (wanted : SubscriptionId → Prop) : Prop :=
  ∀ id s', m'.find? id = some s' → ∃ s, m.find? id = some s ∧
    s'.queue.overflowed = s.queue.overflowed ∧ s'.queue.items.length ≤ s.queue.items.length ∧
    (wanted id → s'.queue.items.length ≤ s.queue.items.length - 1)

theorem took_nothing (hnone : ∀ id, ¬ wanted id) : m.Took m wanted :=
  fun id s hs => ⟨s, hs, rfl, le_refl _, fun hwanted => absurd hwanted (hnone id)⟩

theorem took_pop (hone : ∀ id', wanted id' → id' = id) : m.Took (m.pop id).2 wanted := by
  intro id' s' hs'
  cases hq : m.find? id with
  | none =>
    have hpop : m.pop id = (none, m) := by
      rw [pop, queue?_eq, hq]
      rfl
    rw [hpop] at hs'
    refine ⟨s', hs', rfl, le_refl _, fun hwanted => ?_⟩
    rw [hone id' hwanted, hq] at hs'
    cases hs'
  | some q =>
    rw [pop_eq hq, find?_setQueue] at hs'
    obtain ⟨s, hs, rfl⟩ := Option.map_eq_some_iff.1 hs'
    refine ⟨s, hs, ?_⟩
    by_cases hid : id' = id
    · rw [hid, hq] at hs
      cases hs
      obtain ⟨hlen, hover⟩ := q.queue.length_pop
      rw [if_pos hid]
      exact ⟨hover, hlen ▸ Nat.sub_le _ _, fun _ => hlen.le⟩
    · rw [if_neg hid]
      exact ⟨rfl, le_refl _, fun hwanted => absurd (hone id' hwanted) hid⟩

end Emitter

/-! ## Sessions -/

namespace Session

theorem subscription_close (s : Session) (reason : ErrorCode) :
    (s.close reason).1.subscription = s.subscription := by
  unfold close
  split <;> rfl

theorem subscription_listen (s : Session) (m : Emitter) :
    (s.listen m).1.subscription = s.subscription := by
  rcases s.listen_outcome m with ⟨hrests, -⟩ | ⟨id, -, -, ⟨hcloses, -⟩ | ⟨⟨outputs, htakes⟩, -⟩⟩
  · rw [hrests]
  · rw [hcloses]
    exact s.subscription_close .cancelled
  · rw [htakes]

/-- The session forwards events. -/
def Forwards (s : Session) : Prop := s.running = true ∧ s.phase ≠ .closed

/-- **A turn of the forwarding** takes one event from the queue of the session, unless the queue has
overflowed and the session is closed. -/
theorem listen_takes (s : Session) (m : Emitter) :
    ((s.listen m).1.Forwards → (s.listen m).1 = s ∧ ∀ id sub, s.subscription = some id →
      m.find? id = some sub → sub.queue.overflowed = false) ∧
    m.Took (s.listen m).2.1 fun id => (s.listen m).1.Forwards ∧ s.subscription = some id := by
  rcases s.listen_outcome m with
    ⟨hrests, hnot⟩ | ⟨id, -, hid, ⟨hcloses, -⟩ | ⟨⟨outputs, htakes⟩, hkept⟩⟩
  · rw [hrests]
    refine ⟨fun hforwards => ⟨rfl, fun id _ hid => absurd hid (hnot id hforwards.1)⟩,
      Emitter.took_nothing ?_⟩
    rintro id ⟨hforwards, hid⟩
    exact hnot id hforwards.1 hid
  · have hclosed : ¬ (s.close .cancelled).1.Forwards :=
      fun hforwards => hforwards.2 (phase_close s .cancelled)
    rw [hcloses]
    exact ⟨fun hforwards => absurd hforwards hclosed,
      Emitter.took_nothing fun id hwanted => hclosed hwanted.1⟩
  · rw [htakes]
    refine ⟨fun _ => ⟨rfl, fun id' sub hid' hsub => ?_⟩, Emitter.took_pop ?_⟩
    · rw [hid] at hid'
      cases hid'
      rw [Emitter.queue?_eq, hsub] at hkept
      exact hkept
    · rintro id' ⟨-, hid'⟩
      rw [hid] at hid'
      exact (Option.some.inj hid').symm

end Session

namespace Server

variable {L : Type} {s s' : Server L} {n : Nat} {name name' : String}

/-! ## Servers -/

/-- At most `n` events wait for a session and its queue has not overflowed, unless it forwards
none or a message to its client is stuck. -/
def KeepsUp (s : Server L) (n : Nat) (name : String) : Prop :=
  ∀ seat q, s.seats.get? name = some seat → s.queue? name = some q →
    seat.session.Forwards → seat.channel.stuck = none → q.items.length ≤ n ∧ q.overflowed = false

/-- **No event waits for a session** that forwards events and to whose client no message is
stuck. -/
def Attentive (s : Server L) : Prop := ∀ name, s.KeepsUp 0 name

theorem queue?_iff {q : EventQueue} :
    s.queue? name = some q ↔ ∃ seat m id sub, s.seats.get? name = some seat ∧
      s.emitter = some m ∧ seat.session.subscription = some id ∧ m.find? id = some sub ∧
        sub.queue = q := by
  simp only [queue?, bind, Option.bind_eq_some_iff, Emitter.queue?_eq, Option.map_eq_some_iff]
  constructor
  · rintro ⟨seat, hs, m, hm, id, hid, sub, hsub, hq⟩
    exact ⟨seat, m, id, sub, hs, hm, hid, hsub, hq⟩
  · rintro ⟨seat, m, id, sub, hs, hm, hid, hsub, hq⟩
    exact ⟨seat, hs, m, hm, id, hid, sub, hsub, hq⟩

theorem length_le_backlog {q : EventQueue} (hq : s.queue? name = some q) :
    q.items.length ≤ s.backlog name := by
  rw [backlog, hq]
  exact le_refl _

theorem KeepsUp.mono {k : Nat} (h : s.KeepsUp n name) (hk : n ≤ k) : s.KeepsUp k name := by
  intro seat q hs hq hforwards hfree
  obtain ⟨hlen, hover⟩ := h seat q hs hq hforwards hfree
  exact ⟨hlen.trans hk, hover⟩

/-- **What waits after a turn of the forwarding to a session**: one event less for that session, if
it still forwards any, and no more for the others. -/
theorem queue_of_listenTurn {seat' : Seat} {q' : EventQueue} (hn : s.Named)
    (hs' : (s.listenTurn name).seats.get? name' = some seat')
    (hq' : (s.listenTurn name).queue? name' = some q') (hforwards : seat'.session.Forwards)
    (hfree : seat'.channel.stuck = none) :
    ∃ seat q, s.seats.get? name' = some seat ∧ s.queue? name' = some q ∧
      seat.session.Forwards ∧ seat.channel.stuck = none ∧ q'.overflowed = q.overflowed ∧
      q'.items.length ≤ q.items.length ∧
      (name' = name → q'.items.length ≤ q.items.length - 1 ∧ q.overflowed = false) := by
  rcases s.listenTurn_cases name with
    ⟨hsame, hnot⟩ | ⟨seat, m, channel, outputs, hs, hm, hfree₀, hturn⟩
  · rw [hsame] at hs' hq'
    refine ⟨seat', q', hs', hq', hforwards, hfree, rfl, le_refl _, fun hname => ?_⟩
    obtain ⟨seat, m, -, -, hs, hm, -⟩ := queue?_iff.1 hq'
    rw [hs'] at hs
    cases hs
    rw [hname] at hs'
    exact absurd hfree (hnot seat' m hs' hm)
  · obtain ⟨hsame, htaken⟩ := seat.session.listen_takes m
    have hname : (seat.session.listen m).1.name = name :=
      (seat.session.abides_listen m).name.trans (hn name seat hs)
    have hread := Table.get?_insert s.seats (seat.session.listen m).1.name name'
      { seat with session := (seat.session.listen m).1, channel }
    rw [hturn] at hs' hq'
    obtain ⟨seat'', m', id, sub', hs'', hm', hid, hsub', rfl⟩ := queue?_iff.1 hq'
    rw [hs'] at hs''
    cases hs''
    cases hm'
    obtain ⟨sub, hsub, hover, hle, hless⟩ := htaken id sub' hsub'
    have hseat := hread.symm.trans hs'
    rw [hname] at hseat
    split at hseat
    · -- the session whose turn it was has not been closed, so an event was taken for it
      rename_i heq
      cases hseat
      obtain ⟨hstays, hkept⟩ := hsame hforwards
      rw [seat.session.subscription_listen m] at hid
      rw [heq]
      refine ⟨seat, sub.queue, hs, queue?_iff.2 ⟨seat, m, id, sub, hs, hm, hid, hsub, rfl⟩,
        hstays ▸ hforwards, hfree₀, hover, hle, fun _ => ?_⟩
      exact ⟨hless ⟨hforwards, hid⟩, hkept id sub hid hsub⟩
    · rename_i hne
      exact ⟨seat', sub.queue, hseat,
        queue?_iff.2 ⟨seat', m, id, sub, hseat, hm, hid, hsub, rfl⟩, hforwards, hfree, hover, hle,
        fun heq => absurd heq hne⟩

/-- Who kept up does so after a turn of the forwarding to anybody. -/
theorem KeepsUp.listenTurn (hn : s.Named) (h : s.KeepsUp n name') (name : String) :
    (s.listenTurn name).KeepsUp n name' := by
  intro seat' q' hs' hq' hforwards' hfree'
  obtain ⟨seat, q, hs, hq, hforwards, hfree, hover, hle, -⟩ :=
    queue_of_listenTurn hn hs' hq' hforwards' hfree'
  obtain ⟨hlen, hkept⟩ := h seat q hs hq hforwards hfree
  exact ⟨hle.trans hlen, hover.trans hkept⟩

/-- One event less waits for the session whose turn it is. -/
theorem keepsUp_listenTurn (hn : s.Named) (hfew : ∀ seat q, s.seats.get? name = some seat →
      s.queue? name = some q → seat.session.Forwards → seat.channel.stuck = none →
      q.items.length ≤ n) : (s.listenTurn name).KeepsUp (n - 1) name := by
  intro seat' q' hs' hq' hforwards' hfree'
  obtain ⟨seat, q, hs, hq, hforwards, hfree, hover, -, hless⟩ :=
    queue_of_listenTurn hn hs' hq' hforwards' hfree'
  obtain ⟨hone, hkept⟩ := hless rfl
  have hlen := hfew seat q hs hq hforwards hfree
  exact ⟨by omega, hover.trans hkept⟩

theorem KeepsUp.listenTurns (hn : s.Named) (h : s.KeepsUp n name') (name : String) (turns : Nat) :
    (turns.repeat (Server.listenTurn name) s).KeepsUp n name' := by
  have hboth : (turns.repeat (Server.listenTurn name) s).Named ∧
      (turns.repeat (Server.listenTurn name) s).KeepsUp n name' := by
    induction turns with
    | zero => exact ⟨hn, h⟩
    | succ turns ih =>
      exact ⟨(goes_listenTurn ih.1 name).seats.named ih.1, ih.2.listenTurn ih.1 name⟩
  exact hboth.2

theorem KeepsUp.listen (hn : s.Named) (h : s.KeepsUp n name') (name : String) :
    (s.listen name).KeepsUp n name' := h.listenTurns hn name _

/-- **After the forwarding to a session nothing waits for it**, whatever did before. -/
theorem keepsUp_listen (hn : s.Named) (name : String) : (s.listen name).KeepsUp 0 name := by
  -- each turn takes one of the events that waited at first
  have hturns : ∀ turns, ((turns + 1).repeat (Server.listenTurn name) s).Named ∧
      ((turns + 1).repeat (Server.listenTurn name) s).KeepsUp (s.backlog name - (turns + 1))
        name := by
    intro turns
    induction turns with
    | zero =>
      refine ⟨(goes_listenTurn hn name).seats.named hn, keepsUp_listenTurn hn ?_⟩
      exact fun _ q _ hq _ _ => length_le_backlog hq
    | succ turns ih =>
      obtain ⟨hn', hkeeps⟩ := ih
      refine ⟨(goes_listenTurn hn' name).seats.named hn', keepsUp_listenTurn hn' ?_⟩
      exact fun seat q hs hq hforwards hfree => (hkeeps seat q hs hq hforwards hfree).1
  refine (hturns (s.backlog name)).2.mono ?_
  omega

/-- **All that waits is forwarded.** -/
theorem attentive_listenAll (hn : s.Named) : s.listenAll.Attentive := by
  -- those whose turn is over keep up while the others have theirs
  have hforward : ∀ (entries : List (String × Seat)) {s : Server L}, s.Named →
      (∀ name, name ∉ entries.map Prod.fst → s.KeepsUp 0 name) →
        (entries.foldl (fun s e => s.listen e.1) s).Attentive := by
    intro entries
    induction entries with
    | nil => exact fun _ hrest name => hrest name List.not_mem_nil
    | cons e entries ih =>
      intro s hn hrest
      refine ih ((goes_listen hn e.1).seats.named hn) fun name hname => ?_
      by_cases heq : name = e.1
      · rw [heq]
        exact keepsUp_listen hn e.1
      · refine (hrest name fun hmem => ?_).listen hn e.1
        rcases List.mem_cons.1 hmem with hhead | htail
        · exact heq hhead
        · exact hname htail
  refine hforward _ hn fun name hname seat q hs => ?_
  exact absurd (Table.mem_keys_of_get? hs) hname

/-- Of an event that is emitted each session has at most one more. -/
theorem Attentive.emit (h : s.Attentive) (hseats : s'.seats = s.seats) (body : DeviceEvent)
    (t : Int) (hemitter : s'.emitter = s.emitter.map (·.emit body t)) (name : String) :
    s'.KeepsUp 1 name := by
  intro seat q' hs hq' hforwards hfree
  obtain ⟨seat', m', id, sub', hs', hm', hid, hsub', rfl⟩ := queue?_iff.1 hq'
  rw [hs] at hs'
  cases hs'
  rw [hseats] at hs
  rw [hemitter] at hm'
  obtain ⟨m, hm, rfl⟩ := Option.map_eq_some_iff.1 hm'
  rw [Emitter.find?_emit] at hsub'
  obtain ⟨sub, hsub, rfl⟩ := Option.map_eq_some_iff.1 hsub'
  obtain ⟨hlen, hkept⟩ := h name seat sub.queue hs
    (queue?_iff.2 ⟨seat, m, id, sub, hs, hm, hid, hsub, rfl⟩) hforwards hfree
  have hempty : sub.queue.items = [] := List.length_eq_zero_iff.1 (Nat.le_zero.1 hlen)
  unfold Emitter.offer
  split
  · exact EventQueue.overflowed_push hempty hkept _
  · exact ⟨hlen.trans (Nat.zero_le 1), hkept⟩

/-- A session that is there makes a step without forwarding anything. -/
theorem Attentive.enter (h : s.Attentive) {seat : Seat} {session : Session}
    (hs : s.seats.get? session.name = some seat)
    (hsub : session.subscription = seat.session.subscription)
    (hforwards : session.Forwards → seat.session.Forwards) (outputs : List Output) :
    (s.enter seat session outputs).Attentive := by
  intro name seat' q' hs' hq' hforwards' hfree'
  obtain ⟨seat'', m, id, sub, hs'', hm, hid, hfind, rfl⟩ := queue?_iff.1 hq'
  rw [hs'] at hs''
  cases hs''
  have hread := (Table.get?_insert s.seats session.name name
    { seat with session }).symm.trans hs'
  split at hread
  · rename_i heq
    cases hread
    exact h session.name seat sub.queue hs
      (queue?_iff.2 ⟨seat, m, id, sub, hs, hm, hsub.symm.trans hid, hfind, rfl⟩)
      (hforwards hforwards') hfree'
  · exact h name seat' sub.queue hread
      (queue?_iff.2 ⟨seat', m, id, sub, hread, hm, hid, hfind, rfl⟩) hforwards' hfree'

/-- **Events do not leave a server behind**, however many there are. -/
theorem attentive_publish (hn : s.Named) (h : s.Attentive) (trace : List Happening) :
    (s.publish trace).Attentive := by
  induction trace generalizing s with
  | nil => exact h
  | cons e trace ih =>
    have hnamed : (s.publishOne e).Named := (goes_publish hn [e]).seats.named hn
    refine ih hnamed ?_
    cases e with
    | traffic id t => exact h
    | emitted body =>
      refine attentive_listenAll ?_
      exact hn

end Server

end Haptics
