import Haptics.Proofs.Event.Audience
/-!
# Accounts of a queue

What became of the events that were due to one subscriber. `EventQueue.Accounts` says
it of the queue alone: some were taken, some wait, and from the first that the queue
had no room for all are lost. `Audience.Alone` says that nobody else has a hand in the
queue, and `Audience.Alone.run` is the main statement, that whatever is emitted is due
and whatever others do makes no difference.
-/

namespace Haptics

/-! ## One queue -/

/-- **What became of the events that were due** to a queue: some were taken, some wait,
and those from the first that it had no room for are lost. -/
structure EventQueue.Accounts (q : EventQueue) (due taken lost : List Event) : Prop where
  due_eq : due = taken ++ q.items ++ lost
  closed_eq : q.closed = q.overflowed
  overflowed_iff : q.overflowed = true ↔ lost ≠ []
  /-- A queue that has lost an event was full, and nobody took from it since. -/
  waiting : lost ≠ [] → q.items ≠ []

namespace EventQueue.Accounts

variable {q : EventQueue} {due taken lost : List Event}

theorem lost_eq (h : q.Accounts due taken lost) (hover : q.overflowed = false) : lost = [] := by
  refine Decidable.byContradiction fun hne => ?_
  have htrue := h.overflowed_iff.2 hne
  rw [hover] at htrue
  cases htrue

/-- An event that is offered is due, and what was lost stays lost. -/
theorem push (h : q.Accounts due taken lost) (e : Event) :
    ∃ more, (q.push e).2.Accounts (due ++ [e]) taken (lost ++ more) := by
  have hdue := h.due_eq
  cases hc : q.closed with
  | true =>
    -- the queue is closed, so it has lost events before
    have hover : q.overflowed = true := h.closed_eq ▸ hc
    have hlost : lost ≠ [] := h.overflowed_iff.1 hover
    rw [push_closed hc]
    refine ⟨[e], ?_, h.closed_eq, iff_of_true hover (by simp), fun _ => h.waiting hlost⟩
    rw [hdue, List.append_assoc _ lost]
  | false =>
    have hover : q.overflowed = false := h.closed_eq ▸ hc
    have hlost := h.lost_eq hover
    subst hlost
    rw [List.append_nil] at hdue
    rcases Nat.lt_or_ge q.items.length q.capacity with hroom | hfull
    · rw [push_room hc hroom]
      refine ⟨[], ?_, h.closed_eq, by simp [hover], fun hne => absurd rfl hne⟩
      rw [hdue, List.append_nil, List.append_nil, List.append_assoc]
    · rw [push_full hc hfull]
      refine ⟨[e], ?_, rfl, by simp, fun _ hnil => ?_⟩
      · rw [hdue]
        rfl
      · have hpos : 1 ≤ q.capacity := Nat.le_max_left 1 q.size
        rw [hnil, List.length_nil] at hfull
        omega

/-- The oldest event goes from those that wait to those that were taken. -/
theorem pop (h : q.Accounts due taken lost) (hover : q.overflowed = false) :
    q.pop.2.Accounts due (taken ++ q.pop.1.toList) lost := by
  have hdue := h.due_eq
  have hlost := h.lost_eq hover
  subst hlost
  rw [List.append_nil] at hdue
  rw [pop_eq]
  refine ⟨?_, h.closed_eq, by simp [hover], fun hne => absurd rfl hne⟩
  rw [hdue, List.append_nil, List.append_assoc]
  cases q.items <;> rfl

end EventQueue.Accounts

/-! ## A subscription in nobody's hands -/

namespace Audience

variable {x : Audience} {id : SubscriptionId} {q : EventQueue}

/-- A subscription to all events that no holder of the audience has. -/
structure Alone (x : Audience) (id : SubscriptionId) (q : EventQueue) : Prop where
  orderly : x.Orderly
  nobody : x.holders.get? id = none
  granted : id < x.emitter.nextSubscription
  found : x.emitter.find? id = some ⟨id, {}, q⟩

theorem Alone.emit (h : x.Alone id q) (body : DeviceEvent) (t : Int) :
    (x.step (.emit body t)).Alone id (q.push (x.next body t)).2 where
  orderly := h.orderly.step (.emit body t)
  nobody := h.nobody
  granted := h.granted
  found := by
    have hfind : (x.step (.emit body t)).emitter.find? id =
        (x.emitter.find? id).map (Emitter.offer (x.next body t)) := Emitter.find?_emit body t
    have hwants : ({} : EventFilter).wants body = true := rfl
    rw [hfind, h.found, Option.map_some, Emitter.offer]
    exact congrArg some (if_pos hwants)

/-- What holders do with their own subscriptions does not reach it. -/
theorem Alone.onHolder (h : x.Alone id q) {g} (hg : Own g) (id' : SubscriptionId) :
    (x.onHolder id' g).Alone id q := by
  cases hh : x.holders.get? id' with
  | none =>
    rw [onHolder_none hh]
    exact h
  | some h' =>
    have hne : id ≠ id' := by
      rintro rfl
      rw [h.nobody] at hh
      cases hh
    have hs := hg.spares h'.subscription x.emitter
    have hapart : h'.subscription ≠ .attached id := by
      intro hatt
      exact hne (h.orderly.own id' h' id hh hatt)
    have horderly : (x.onHolder id' g).Orderly := h.orderly.onHolder hg
    rw [onHolder_eq hh] at horderly ⊢
    refine ⟨horderly, ?_, hs.nextSubscription ▸ h.granted, (hs.others id hapart).trans h.found⟩
    rw [Table.get?_insert, if_neg hne]
    exact h.nobody

theorem Alone.act (h : x.Alone id q) (a : Act) : (x.act a).Alone id q := by
  cases a with
  | subscribe f size =>
    have horderly := h.orderly.subscribe f size
    rw [Audience.act] at horderly ⊢
    cases hfull : x.emitter.full with
    | true =>
      rw [Emitter.subscribe_full hfull]
      exact h
    | false =>
      rw [Emitter.subscribe_room hfull] at horderly ⊢
      refine ⟨horderly, ?_, Nat.lt_succ_of_lt h.granted, ?_⟩
      · dsimp only
        rw [Table.get?_insert, if_neg (Nat.ne_of_lt h.granted)]
        exact h.nobody
      · refine (Emitter.find?_granting ..).trans ?_
        rw [h.found]
        rfl
  | take id' => exact h.onHolder own_pop id'
  | close id' => exact h.onHolder own_shut id'
  | leave id' => exact h.onHolder own_unsubscribe id'

/-- What is done with a subscription that no holder has leaves the audience orderly. -/
theorem Orderly.of_spares (hx : x.Orderly) {s : Subscription} {m : Emitter}
    (hs : Spares s x.emitter m) : ({ x with emitter := m } : Audience).Orderly := by
  have hnext := hs.nextSubscription
  refine ⟨fun id hle => ?_, fun id hle => ?_, hx.own⟩
  · exact hs.missing id (hx.find?_eq id (hnext ▸ hle))
  · exact hx.get?_eq id (hnext ▸ hle)

/-- The subscriber itself changes its queue. -/
theorem Alone.setQueue (h : x.Alone id q) (q' : EventQueue) :
    ({ x with emitter := x.emitter.setQueue id q' } : Audience).Alone id q' :=
  ⟨h.orderly.of_spares (spares_setQueue x.emitter id q'), h.nobody, h.granted,
    Emitter.find?_setQueue_self h.found q'⟩

/-- A subscription that is granted to nobody among the holders. -/
theorem Orderly.alone (hx : x.Orderly) (size : Nat) :
    ({ x with emitter := x.emitter.granting {} size } : Audience).Alone
      x.emitter.nextSubscription { size := x.emitter.grantedSize size } := by
  have hnone := hx.find?_eq x.emitter.nextSubscription (Nat.le_refl _)
  refine ⟨⟨fun id hle => ?_, fun id hle => ?_, hx.own⟩, ?_, Nat.lt_succ_self _, ?_⟩
  · have hne : x.emitter.nextSubscription ≠ id := Nat.ne_of_lt hle
    refine (Emitter.find?_granting ..).trans ?_
    rw [hx.find?_eq id (Nat.le_of_succ_le hle), if_neg hne]
    rfl
  · exact hx.get?_eq id (Nat.le_of_succ_le hle)
  · exact hx.get?_eq _ (Nat.le_refl _)
  · refine (Emitter.find?_granting ..).trans ?_
    rw [hnone, if_pos rfl]
    rfl

/-- **Whatever is emitted is due**, and what others do changes nothing. -/
theorem Alone.run (h : x.Alone id q) {due taken lost : List Event}
    (hq : q.Accounts due taken lost) (os : List Occurrence) :
    ∃ q' news more, (x.run os).Alone id q' ∧ (x.run os).emitted = x.emitted ++ news ∧
      q'.Accounts (due ++ news) taken (lost ++ more) := by
  induction os generalizing x q due lost with
  | nil =>
    refine ⟨q, [], [], h, (List.append_nil _).symm, ?_⟩
    rw [List.append_nil, List.append_nil]
    exact hq
  | cons o os ih =>
    cases o with
    | emit body t =>
      obtain ⟨more, hpush⟩ := hq.push (x.next body t)
      obtain ⟨q', news, more', halone, hemitted, haccounts⟩ := ih (h.emit body t) hpush
      refine ⟨q', x.next body t :: news, more ++ more', halone, ?_, ?_⟩
      · have hstep : (x.step (.emit body t)).emitted = x.emitted ++ [x.next body t] := rfl
        rw [hstep, List.append_assoc] at hemitted
        exact hemitted
      · rw [List.append_assoc, List.append_assoc] at haccounts
        exact haccounts
    | act a =>
      obtain ⟨q', news, more, halone, hemitted, haccounts⟩ := ih (h.act a) hq
      refine ⟨q', news, more, halone, ?_, haccounts⟩
      rw [← (act_eq x a).2.2]
      exact hemitted

end Audience

end Haptics
