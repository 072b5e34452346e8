import Haptics.Event.Queue
/-!
# The delivery of one subscription

A subscription by itself: its queue, and what its holder took from it. It hears of
emitted events until it is left, and nothing else but its own holder acts on it.
What is delivered (`Delivery.received`) is what was taken with what still waits,
so that taking changes nothing of it. `told_cases` says what becomes of an event,
and `gapless` what whole runs deliver: the events that are wanted, in order and
without gaps, up to the one that meets a full queue or to the close.
-/

namespace Haptics

/-! ## Offering an event to a queue -/

namespace EventQueue

variable {q : EventQueue}

theorem push_closed (hc : q.closed = true) (e : Event) : q.push e = (false, q) := by
  rw [push, if_pos hc]

/-- An event that finds the queue full is lost, and closes the queue behind it. -/
theorem push_full (hc : q.closed = false) (hfull : q.capacity ≤ q.items.length) (e : Event) :
    q.push e = (false, { q with overflowed := true, closed := true }) := by
  rw [push, if_neg (by simp [hc]), if_pos hfull]

theorem push_room (hc : q.closed = false) (hroom : q.items.length < q.capacity) (e : Event) :
    q.push e = (true, { q with items := q.items ++ [e] }) := by
  rw [push, if_neg (by simp [hc]), if_neg (Nat.not_le.2 hroom)]

theorem pop_eq (q : EventQueue) : q.pop = (q.items.head?, { q with items := q.items.tail }) := by
  obtain ⟨size, items, overflowed, closed⟩ := q
  cases items <;> rfl

end EventQueue

/-- A subscription by itself. -/
structure Delivery where
  queue : EventQueue
  /-- Whether further events are heard of. -/
  attached : Bool := true
  taken : List Event := []
deriving DecidableEq, Repr

namespace Delivery

/-- What can happen to a subscription. -/
inductive Turn
  /-- An event is emitted. -/
  | told (e : Event)
  /-- The holder takes the oldest event. -/
  | take
  /-- The queue is closed. -/
  | close
  /-- The subscription ends, and its queue is closed. -/
  | leave
deriving DecidableEq, Repr

variable {d : Delivery} {f : EventFilter} {e : Event} {t : Turn} {ts : List Turn}

/-- One turn of a subscription to the events that a filter wants. -/
def turn (f : EventFilter) (d : Delivery) : Turn → Delivery
  | .told e =>
    if d.attached && f.wants e.body then { d with queue := (d.queue.push e).2 } else d
  | .take => { d with queue := d.queue.pop.2, taken := d.taken ++ d.queue.pop.1.toList }
  | .close => { d with queue := d.queue.close }
  | .leave => if d.attached then { d with queue := d.queue.close, attached := false } else d

/-- Several turns. -/
def run (f : EventFilter) (d : Delivery) (ts : List Turn) : Delivery := ts.foldl (turn f) d

/-- A subscription with a queue of some size, before its first turn. -/
def fresh (size : Nat) : Delivery := { queue := { size } }

/-- What was delivered: what was taken, and what still waits. -/
def received (d : Delivery) : List Event := d.taken ++ d.queue.items

/-- **What should be delivered**: the wanted events up to the end of the
subscription. -/
def meant (f : EventFilter) : List Turn → List Event
  | [] => []
  | .told e :: ts => if f.wants e.body then e :: meant f ts else meant f ts
  | .leave :: _ => []
  | .take :: ts | .close :: ts => meant f ts

/-- An event that is wanted meets a full queue that is still open. -/
def Meets (f : EventFilter) (d : Delivery) (e : Event) : Prop :=
  d.attached = true ∧ f.wants e.body = true ∧ d.queue.closed = false ∧
    d.queue.capacity ≤ d.queue.items.length

/-- That happens at some turn. -/
def Spills (f : EventFilter) (d : Delivery) (ts : List Turn) : Prop :=
  ∃ pre e post, ts = pre ++ .told e :: post ∧ Meets f (d.run f pre) e

/-- The queue is closed before the subscription ends. -/
def Shuts (ts : List Turn) : Prop := .close ∈ ts.takeWhile (· ≠ .leave)

/-- The events that are emitted. -/
def told (ts : List Turn) : List Event :=
  ts.filterMap fun
    | .told e => some e
    | _ => none

theorem meant_eq (f : EventFilter) (ts : List Turn) :
    meant f ts = (told (ts.takeWhile (· ≠ .leave))).filter fun e => f.wants e.body := by
  induction ts with
  | nil => rfl
  | cons t ts ih => cases t <;> simp_all [meant, told, List.filter_cons]

theorem run_append (ts us : List Turn) : d.run f (ts ++ us) = (d.run f ts).run f us :=
  List.foldl_append

/-! ## One turn -/

/-- **What becomes of an event**: it is not heard of, or it meets a full queue,
or there is room for it. -/
theorem told_cases (f : EventFilter) (d : Delivery) (e : Event) :
    (d.turn f (.told e) = d ∧
        (d.attached = false ∨ f.wants e.body = false ∨ d.queue.closed = true)) ∨
      (d.turn f (.told e) =
          { d with queue := { d.queue with overflowed := true, closed := true } } ∧
        Meets f d e) ∨
      (d.turn f (.told e) = { d with queue := { d.queue with items := d.queue.items ++ [e] } } ∧
        d.attached = true ∧ f.wants e.body = true ∧ d.queue.closed = false ∧
        d.queue.items.length < d.queue.capacity) := by
  rw [turn]
  cases ha : d.attached with
  | false => exact Or.inl ⟨rfl, Or.inl rfl⟩
  | true =>
    cases hw : f.wants e.body with
    | false => exact Or.inl ⟨rfl, Or.inr (Or.inl rfl)⟩
    | true =>
      rw [Bool.and_self, if_pos rfl]
      cases hc : d.queue.closed with
      | true =>
        rw [EventQueue.push_closed hc]
        exact Or.inl ⟨by rw [← ha], Or.inr (Or.inr rfl)⟩
      | false =>
        rcases Nat.lt_or_ge d.queue.items.length d.queue.capacity with hroom | hfull
        · rw [EventQueue.push_room hc hroom]
          exact Or.inr (Or.inr ⟨by rw [← ha], rfl, rfl, rfl, hroom⟩)
        · rw [EventQueue.push_full hc hfull]
          exact Or.inr (Or.inl ⟨by rw [← ha], ha, hw, hc, hfull⟩)

/-- An event that is told is delivered, at the end, or it is not. -/
theorem received_told (f : EventFilter) (d : Delivery) (e : Event) :
    (d.turn f (.told e)).received = d.received ∨
      f.wants e.body = true ∧ (d.turn f (.told e)).received = d.received ++ [e] := by
  rcases told_cases f d e with ⟨heq, -⟩ | ⟨heq, -⟩ | ⟨heq, -, hw, -⟩ <;> rw [heq]
  · exact Or.inl rfl
  · exact Or.inl rfl
  · exact Or.inr ⟨hw, (List.append_assoc ..).symm⟩

theorem turn_take : d.turn f .take =
    { d with
      queue := { d.queue with items := d.queue.items.tail }
      taken := d.taken ++ d.queue.items.head?.toList } := by
  rw [turn, EventQueue.pop_eq]

/-- The oldest event goes from one part of what was delivered to the other. -/
theorem received_take : (d.turn f .take).received = d.received := by
  rw [turn_take, received, received, List.append_assoc]
  cases d.queue.items <;> rfl

theorem received_leave : (d.turn f .leave).received = d.received := by
  rw [turn]
  split <;> rfl

theorem size_turn : (d.turn f t).queue.size = d.queue.size := by
  cases t with
  | told e => rcases told_cases f d e with ⟨heq, -⟩ | ⟨heq, -⟩ | ⟨heq, -⟩ <;> rw [heq]
  | take => rw [turn_take]
  | close => rfl
  | leave =>
    rw [turn]
    split <;> rfl

theorem capacity_turn : (d.turn f t).queue.capacity = d.queue.capacity := by
  rw [EventQueue.capacity, size_turn, EventQueue.capacity]

/-- A queue is marked by an event that it has no room for, and by nothing else. -/
theorem overflowed_turn : (d.turn f t).queue.overflowed = true ↔
    d.queue.overflowed = true ∨ ∃ e, t = .told e ∧ Meets f d e := by
  cases t with
  | told e =>
    simp only [Turn.told.injEq, exists_eq_left']
    rcases told_cases f d e with ⟨heq, hdeaf⟩ | ⟨heq, hmeets⟩ | ⟨heq, -, -, -, hroom⟩
    · rw [heq]
      refine ⟨Or.inl, ?_⟩
      rintro (hover | ⟨ha, hw, hc, -⟩)
      · exact hover
      · simp [ha, hw, hc] at hdeaf
    · rw [heq]
      exact iff_of_true rfl (Or.inr hmeets)
    · rw [heq]
      refine ⟨Or.inl, ?_⟩
      rintro (hover | ⟨-, -, -, hfull⟩)
      · exact hover
      · exact absurd hroom (Nat.not_lt.2 hfull)
  | take =>
    rw [turn_take]
    simp
  | close =>
    rw [turn]
    simp [EventQueue.close]
  | leave =>
    rw [turn]
    split <;> simp [EventQueue.close]

/-- What closes a queue. -/
theorem closed_turn (ha : d.attached = true) : (d.turn f t).queue.closed = true ↔
    d.queue.closed = true ∨ (∃ e, t = .told e ∧ Meets f d e) ∨ t = .close ∨ t = .leave := by
  cases t with
  | told e =>
    rcases told_cases f d e with ⟨heq, hdeaf⟩ | ⟨heq, hmeets⟩ | ⟨heq, -, -, -, hroom⟩
    · rw [heq]
      refine ⟨Or.inl, ?_⟩
      rintro (hc | ⟨e', he', -, hw, hc, -⟩ | h | h)
      · exact hc
      · cases he'
        simp [ha, hw, hc] at hdeaf
      · cases h
      · cases h
    · rw [heq]
      exact iff_of_true rfl (Or.inr (Or.inl ⟨e, rfl, hmeets⟩))
    · rw [heq]
      refine ⟨Or.inl, ?_⟩
      rintro (hc | ⟨e', he', -, -, -, hfull⟩ | h | h)
      · exact hc
      · exact absurd hroom (Nat.not_lt.2 hfull)
      · cases h
      · cases h
  | take =>
    rw [turn_take]
    simp
  | close => exact iff_of_true rfl (Or.inr (Or.inr (Or.inl rfl)))
  | leave =>
    rw [turn, if_pos ha]
    exact iff_of_true rfl (Or.inr (Or.inr (Or.inr rfl)))

/-- **Nothing is delivered to a closed queue.** -/
theorem received_turn_closed (hc : d.queue.closed = true) :
    (d.turn f t).queue.closed = true ∧ (d.turn f t).received = d.received := by
  cases t with
  | told e =>
    rcases told_cases f d e with ⟨heq, -⟩ | ⟨-, -, -, hopen, -⟩ | ⟨-, -, -, hopen, -⟩
    · rw [heq]
      exact ⟨hc, rfl⟩
    · rw [hc] at hopen
      cases hopen
    · rw [hc] at hopen
      cases hopen
  | take => exact ⟨by rw [turn_take]; exact hc, received_take⟩
  | close => exact ⟨rfl, rfl⟩
  | leave =>
    refine ⟨?_, received_leave⟩
    rw [turn]
    split
    · rfl
    · exact hc

theorem length_turn (h : d.queue.items.length ≤ d.queue.capacity) :
    (d.turn f t).queue.items.length ≤ (d.turn f t).queue.capacity := by
  rw [capacity_turn]
  cases t with
  | told e =>
    rcases told_cases f d e with ⟨heq, -⟩ | ⟨heq, -⟩ | ⟨heq, -, -, -, hroom⟩
    · rw [heq]
      exact h
    · rw [heq]
      exact h
    · rw [heq]
      simp only [List.length_append, List.length_singleton]
      omega
  | take =>
    rw [turn_take]
    simp only [List.length_tail]
    omega
  | close => exact h
  | leave =>
    rw [turn]
    split <;> exact h

/-- Events are heard of until the subscription ends. -/
theorem attached_turn :
    (d.turn f t).attached = true ↔ d.attached = true ∧ t ≠ .leave := by
  cases t with
  | told e =>
    have hsame : (d.turn f (.told e)).attached = d.attached := by
      rcases told_cases f d e with ⟨heq, -⟩ | ⟨heq, -⟩ | ⟨heq, -⟩ <;> rw [heq]
    simp [hsame]
  | take => simp [turn]
  | close => simp [turn]
  | leave =>
    rw [turn]
    split <;> simp_all

/-! ## Runs -/

/-- A spill is by the turn at hand, or by one of those that follow. -/
theorem spills_cons : Spills f d (t :: ts) ↔
    (∃ e, t = .told e ∧ Meets f d e) ∨ Spills f (d.turn f t) ts := by
  constructor
  · rintro ⟨pre, e, post, heq, hmeets⟩
    rcases List.cons_eq_append_iff.1 heq with ⟨rfl, hcons⟩ | ⟨pre', rfl, rfl⟩
    · cases hcons
      exact Or.inl ⟨e, rfl, hmeets⟩
    · exact Or.inr ⟨pre', e, post, rfl, hmeets⟩
  · rintro (⟨e, rfl, hmeets⟩ | ⟨pre, e, post, rfl, hmeets⟩)
    · exact ⟨[], e, ts, rfl, hmeets⟩
    · exact ⟨t :: pre, e, post, rfl, hmeets⟩

theorem shuts_cons : Shuts (t :: ts) ↔ t = .close ∨ t ≠ .leave ∧ Shuts ts := by
  cases t <;> simp [Shuts]

theorem capacity_run : (d.run f ts).queue.capacity = d.queue.capacity := by
  induction ts generalizing d with
  | nil => rfl
  | cons t ts ih => exact ih.trans capacity_turn

theorem length_run (f : EventFilter) (ts : List Turn)
    (h : d.queue.items.length ≤ d.queue.capacity) :
    (d.run f ts).queue.items.length ≤ (d.run f ts).queue.capacity := by
  induction ts generalizing d with
  | nil => exact h
  | cons t ts ih => exact ih (length_turn h)

/-- **A queue overflows exactly if a wanted event finds it open and full.** -/
theorem overflowed_run : (d.run f ts).queue.overflowed = true ↔
    d.queue.overflowed = true ∨ Spills f d ts := by
  induction ts generalizing d with
  | nil =>
    refine ⟨Or.inl, ?_⟩
    rintro (hover | ⟨pre, e, post, heq, -⟩)
    · exact hover
    · simp at heq
  | cons t ts ih =>
    have hrun : d.run f (t :: ts) = (d.turn f t).run f ts := rfl
    rw [hrun, ih, overflowed_turn, spills_cons, or_assoc]

/-- **Once a queue is closed, nothing more is delivered**, also if there is room
again. -/
theorem received_run_closed (f : EventFilter) (ts : List Turn) (hc : d.queue.closed = true) :
    (d.run f ts).queue.closed = true ∧ (d.run f ts).received = d.received := by
  induction ts generalizing d with
  | nil => exact ⟨hc, rfl⟩
  | cons t ts ih =>
    obtain ⟨hc', hreceived⟩ := received_turn_closed (f := f) (t := t) hc
    obtain ⟨hc'', hreceived'⟩ := ih hc'
    exact ⟨hc'', hreceived'.trans hreceived⟩

/-- A queue that is closed stays closed; a full queue, a close and the end of the
subscription close it. -/
theorem closed_run (ha : d.attached = true)
    (h : d.queue.closed = true ∨ Spills f d ts ∨ .close ∈ ts ∨ .leave ∈ ts) :
    (d.run f ts).queue.closed = true := by
  induction ts generalizing d with
  | nil =>
    rcases h with hc | ⟨pre, e, post, heq, -⟩ | h | h
    · exact hc
    · simp at heq
    · exact absurd h List.not_mem_nil
    · exact absurd h List.not_mem_nil
  | cons t ts ih =>
    change ((d.turn f t).run f ts).queue.closed = true
    cases hc : (d.turn f t).queue.closed with
    | true => exact (received_run_closed f ts hc).1
    | false =>
      -- this turn does not close the queue, so a later one does
      have hopen := mt (closed_turn (f := f) (t := t) ha).2 (by simp [hc])
      simp only [not_or] at hopen
      obtain ⟨hd, hmeets, hclose, hleave⟩ := hopen
      refine ih (attached_turn.2 ⟨ha, hleave⟩) (Or.inr ?_)
      rw [spills_cons, List.mem_cons, List.mem_cons] at h
      rcases h with h | (h | h) | (h | h) | (h | h)
      · exact absurd h hd
      · exact absurd h hmeets
      · exact Or.inl h
      · exact absurd h.symm hclose
      · exact Or.inr (Or.inl h)
      · exact absurd h.symm hleave
      · exact Or.inr (Or.inr h)

theorem not_spills_detached (ha : ¬ d.attached = true) : ¬ Spills f d ts := by
  induction ts generalizing d with
  | nil =>
    rintro ⟨pre, e, post, heq, -⟩
    simp at heq
  | cons t ts ih =>
    rw [spills_cons]
    rintro (⟨e, -, hmeets⟩ | hspills)
    · exact ha hmeets.1
    · exact ih (fun h => ha (attached_turn.1 h).1) hspills

/-- **A queue spills only if more is wanted than it has room for.** -/
theorem capacity_lt_of_spills (h : Spills f d ts) :
    d.queue.capacity < d.received.length + (meant f ts).length := by
  induction ts generalizing d with
  | nil =>
    obtain ⟨pre, e, post, heq, -⟩ := h
    simp at heq
  | cons t ts ih =>
    rcases spills_cons.1 h with ⟨e, rfl, -, hw, -, hfull⟩ | hrest
    · rw [meant, if_pos hw, received, List.length_append, List.length_cons]
      omega
    · have hlater := ih hrest
      rw [capacity_turn] at hlater
      cases t with
      | told e =>
        rcases received_told f d e with hsame | ⟨hw, hmore⟩
        · rw [hsame] at hlater
          rw [meant]
          split
          · rw [List.length_cons]
            omega
          · exact hlater
        · rw [hmore, List.length_append, List.length_singleton] at hlater
          rw [meant, if_pos hw, List.length_cons]
          omega
      | take =>
        rw [received_take] at hlater
        exact hlater
      | close => exact hlater
      | leave => exact absurd hrest (not_spills_detached fun h => (attached_turn.1 h).2 rfl)

/-- **What is meant is delivered, up to a part at the end**, and there is such a
part only after a spill or a close. -/
theorem exists_lost (f : EventFilter) (ts : List Turn) (ha : d.attached = true)
    (hc : d.queue.closed = false) :
    ∃ lost, (d.run f ts).received ++ lost = d.received ++ meant f ts ∧
      (lost ≠ [] → Spills f d ts ∨ Shuts ts) := by
  induction ts generalizing d with
  | nil => exact ⟨[], rfl, fun h => absurd rfl h⟩
  | cons t ts ih =>
    have hrun : d.run f (t :: ts) = (d.turn f t).run f ts := rfl
    rw [hrun, spills_cons, shuts_cons]
    cases t with
    | told e =>
      rcases told_cases f d e with ⟨heq, hdeaf⟩ | ⟨heq, hmeets⟩ | ⟨heq, -, hw, -, -⟩
      · -- the event is not wanted
        have hw : f.wants e.body = false := by simpa [ha, hc] using hdeaf
        obtain ⟨lost, hlost, hwhy⟩ := ih ha hc
        rw [heq, meant, if_neg (by simp [hw])]
        refine ⟨lost, hlost, fun hne => (hwhy hne).imp Or.inr fun h => Or.inr ⟨nofun, h⟩⟩
      · -- it meets a full queue, and all from it on is lost
        have hclosed := received_run_closed (d := d.turn f (.told e)) f ts (by rw [heq])
        refine ⟨meant f (.told e :: ts), ?_, fun _ => Or.inl (Or.inl ⟨e, rfl, hmeets⟩)⟩
        rw [hclosed.2, heq]
        rfl
      · obtain ⟨lost, hlost, hwhy⟩ := ih (d := d.turn f (.told e)) (by rw [heq]; exact ha)
          (by rw [heq]; exact hc)
        have hreceived : (d.turn f (.told e)).received = d.received ++ [e] := by
          rw [heq]
          exact (List.append_assoc ..).symm
        refine ⟨lost, ?_, fun hne => (hwhy hne).imp Or.inr fun h => Or.inr ⟨nofun, h⟩⟩
        rw [hlost, hreceived, meant, if_pos hw, List.append_assoc]
        rfl
    | take =>
      obtain ⟨lost, hlost, hwhy⟩ := ih (d := d.turn f .take) ha (by rw [turn_take]; exact hc)
      refine ⟨lost, ?_, fun hne => (hwhy hne).imp Or.inr fun h => Or.inr ⟨nofun, h⟩⟩
      rw [hlost, received_take, meant]
    | close =>
      have hclosed := received_run_closed (d := d.turn f .close) f ts rfl
      exact ⟨meant f ts, by rw [hclosed.2]; rfl, fun _ => Or.inr (Or.inl rfl)⟩
    | leave =>
      have hclosed := received_run_closed (d := d.turn f .leave) f ts
        (by rw [turn, if_pos ha]; rfl)
      refine ⟨[], ?_, fun h => absurd rfl h⟩
      rw [hclosed.2, received_leave, meant]

/-- **What a subscription with a queue of some size delivers**, after any turns. -/
structure Gapless (f : EventFilter) (size : Nat) (ts : List Turn) (d : Delivery) : Prop where
  /-- The wanted events come in order and without gaps. -/
  in_order : d.received <+: meant f ts
  bounded : d.queue.items.length ≤ max 1 size
  /-- All of them come, unless one meets a full queue or the queue is closed. -/
  complete : ¬ Spills f (fresh size) ts → ¬ Shuts ts → d.received = meant f ts
  /-- From then on nothing more comes. -/
  final : ∀ pre post, ts = pre ++ post →
    Spills f (fresh size) pre ∨ .close ∈ pre ∨ .leave ∈ pre →
      d.received = ((fresh size).run f pre).received
  overflowed_iff : d.queue.overflowed = true ↔ Spills f (fresh size) ts

/-- **What is delivered has no gaps**, whatever turns there are. -/
theorem gapless (f : EventFilter) (size : Nat) (ts : List Turn) :
    Gapless f size ts ((fresh size).run f ts) := by
  obtain ⟨lost, hlost, hwhy⟩ := exists_lost (d := fresh size) f ts rfl rfl
  have hmeant : (fresh size).received ++ meant f ts = meant f ts := rfl
  rw [hmeant] at hlost
  refine ⟨⟨lost, hlost⟩, ?_, fun hspill hshut => ?_, fun pre post hts hpre => ?_, ?_⟩
  · have hbound := length_run (d := fresh size) f ts (Nat.zero_le _)
    rw [capacity_run] at hbound
    exact hbound
  · have hnil : lost = [] := by
      refine Decidable.byContradiction fun hne => ?_
      rcases hwhy hne with h | h
      · exact hspill h
      · exact hshut h
    rw [← hlost, hnil, List.append_nil]
  · rw [hts, run_append]
    exact (received_run_closed f post (closed_run rfl (Or.inr hpre))).2
  · rw [overflowed_run]
    exact or_iff_right Bool.false_ne_true

end Delivery

end Haptics
