import Haptics.Proofs.Fleet.StopSweep
import Haptics.Server.Basic
/-!
# Scan events are applied once and in order

Scanners offer events to a queue, and a thread of its own, the pump, takes them from it
and applies them to the fleet. Any of them may act between two steps of the pump: `Pump`
is its state between steps, with what happened so far. `Place` says where the thread is:
it goes round one loop until it is told to stop or finds the queue closed and empty, and
then round a second one that takes what is left.

`Kept` holds of every run and says that no event is lost, applied twice or out of order.
`Winding` is what makes the end of the thread the end of the events: the queue is closed,
and the thread does not end with an event in it. `faithful_of_run` puts it together.
-/

namespace Haptics

/-! ## Events one after the other -/

namespace Fleet

variable {L : Type} [Link L]

/-- Applies scan events one after the other. -/
def discoverAll (f : Fleet L) (es : List ScanEvent) : Fleet L :=
  es.foldl (fun f e => (f.discover e).fleet) f

/-- What is told of scan events that are applied one after the other. -/
def toldOfAll (f : Fleet L) : List ScanEvent → List DeviceEvent
  | [] => []
  | e :: es => emittedIn (f.discover e).trace ++ toldOfAll (f.discover e).fleet es

theorem discoverAll_concat (f : Fleet L) (es : List ScanEvent) (e : ScanEvent) :
    f.discoverAll (es ++ [e]) = ((f.discoverAll es).discover e).fleet := by
  rw [discoverAll, List.foldl_append]
  rfl

theorem toldOfAll_concat (f : Fleet L) (es : List ScanEvent) (e : ScanEvent) :
    f.toldOfAll (es ++ [e]) =
      f.toldOfAll es ++ emittedIn ((f.discoverAll es).discover e).trace := by
  induction es generalizing f with
  | nil => exact List.append_nil _
  | cons e' es ih =>
    rw [List.cons_append, toldOfAll, ih, toldOfAll, List.append_assoc]
    rfl

end Fleet

/-! ## The queue -/

namespace ScanQueue

variable {q : ScanQueue} {e : ScanEvent}

/-- An offer is refused exactly if the queue is closed or full. -/
theorem refuses_iff :
    (q.push e).1 = false ↔ q.closed = true ∨ q.capacity ≤ q.items.length := by
  unfold push
  split <;> simp_all

/-- A queue that refuses an event stays as it is. -/
theorem push_of_refused (h : (q.push e).1 = false) : q.push e = (false, q) :=
  if_pos (refuses_iff.1 h)

/-- An event is accepted by an open queue with room, at its end. -/
theorem push_of_accepted (h : (q.push e).1 = true) :
    q.push e = (true, { q with items := q.items ++ [e] }) ∧ q.closed = false ∧
      q.items.length < q.capacity := by
  have hnot : ¬ (q.closed = true ∨ q.capacity ≤ q.items.length) := fun hrefused => by
    rw [refuses_iff.2 hrefused] at h
    cases h
  have hopen : q.closed = false := Bool.eq_false_iff.2 fun hclosed => hnot (.inl hclosed)
  exact ⟨if_neg hnot, hopen, Nat.lt_of_not_le fun hfull => hnot (.inr hfull)⟩

end ScanQueue

/-! ## The pump -/

namespace Pump

/-- Where the thread of a pump is. -/
inductive Place
  /-- There is no thread, or it was joined. -/
  | absent
  /-- About to look whether it is to go on. -/
  | checking
  /-- About to take an event. -/
  | popping
  /-- About to apply an event. -/
  | holding (e : ScanEvent)
  /-- It found no event, and is about to look whether the queue is closed. -/
  | doubting
  /-- In the second loop, about to take an event. -/
  | draining
  /-- In the second loop, about to apply an event. -/
  | finishing (e : ScanEvent)
  /-- It has come to its end. -/
  | done
deriving DecidableEq, Repr

/-- The event that the thread has in hand. -/
def Place.held : Place → List ScanEvent
  | holding e | finishing e => [e]
  | _ => []

/-- Whether the thread has left the first loop. -/
def Place.leaving : Place → Bool
  | draining | finishing _ | done => true
  | _ => false

/-- Whether there is no thread that acts. -/
def Place.ended : Place → Bool
  | absent | done => true
  | _ => false

theorem Place.held_of_ended {p : Place} (h : p.ended) : p.held = [] := by
  cases p with
  | absent | done => rfl
  | _ => cases h

end Pump

structure Pump (L : Type) where
  queue : ScanQueue := {}
  fleet : Fleet L := {}
  discovery : Discovery := {}
  place : Pump.Place := .absent
  /-- The events that the queue has accepted. -/
  accepted : List ScanEvent := []
  /-- The events that the thread has taken from it. -/
  popped : List ScanEvent := []
  applied : List ScanEvent := []
  /-- What was told of the devices. -/
  told : List DeviceEvent := []

namespace Pump

variable {L : Type} [Link L]

/-- A pump with a queue of a size that was asked for, before anything happened. -/
def fresh (size : Nat) (f : Fleet L) : Pump L := { queue := { size }, fleet := f }

inductive Move
  /-- A scanner offers an event. One that waits for room offers it when it waits no more. -/
  | offer (e : ScanEvent)
  | close
  | start
  /-- The first step of a stop: the thread is told to end. -/
  | halt
  /-- The last step of a stop, which waits for the thread to end. -/
  | join
  /-- A step of the thread. -/
  | turn
deriving DecidableEq, Repr

/-- Takes an event, if there is one. -/
def take (x : Pump L) (hold : ScanEvent → Place) (empty : Place) : Pump L :=
  match x.queue.pop with
  | (some e, queue) => { x with queue, popped := x.popped ++ [e], place := hold e }
  | (none, _) => { x with place := empty }

/-- Applies an event. -/
def apply (x : Pump L) (e : ScanEvent) (next : Place) : Pump L :=
  let out := x.fleet.discover e
  { x with
    fleet := out.fleet
    discovery := { x.discovery with processed := x.discovery.processed + 1 }
    applied := x.applied ++ [e]
    told := x.told ++ Fleet.emittedIn out.trace
    place := next }

/-- A step of the thread. -/
def turn (x : Pump L) : Pump L :=
  match x.place with
  | .absent | .done => x
  | .checking => { x with place := if x.discovery.running then .popping else .draining }
  | .popping => x.take .holding .doubting
  | .holding e => x.apply e .checking
  | .doubting => { x with place := if x.queue.closed then .draining else .checking }
  | .draining => x.take .finishing .done
  | .finishing e => x.apply e .draining

/-- Offers an event to the queue. -/
def offer (x : Pump L) (e : ScanEvent) : Pump L :=
  match x.queue.push e with
  | (true, queue) => { x with queue, accepted := x.accepted ++ [e] }
  | (false, _) => x

/-- Starts a thread, unless there is one. -/
def start (x : Pump L) : Pump L :=
  if x.discovery.running = false ∧ x.place = .absent then
    { x with discovery := { x.discovery with running := true }, place := .checking }
  else x

/-- Joins a thread that was told to end and did. -/
def join (x : Pump L) : Pump L :=
  if x.discovery.running = false ∧ x.place = .done then { x with place := .absent } else x

/-- A move. One that is not possible changes nothing. -/
def step (x : Pump L) : Move → Pump L
  | .offer e => x.offer e
  | .close => { x with queue := x.queue.close }
  | .start => x.start
  | .halt => { x with discovery := { x.discovery with running := false } }
  | .join => x.join
  | .turn => x.turn

def run (x : Pump L) (moves : List Move) : Pump L := moves.foldl step x

variable {x : Pump L} {size : Nat} {f : Fleet L} {m : Move} {moves : List Move}

/-- **What a step of the thread comes to.** -/
inductive Turns (x : Pump L) : Pump L → Prop
  | idle (hplace : x.place.ended) : Turns x x
  | goOn (hplace : x.place = .checking) (hrunning : x.discovery.running = true) :
    Turns x { x with place := .popping }
  | leave (hplace : x.place = .checking) (hrunning : x.discovery.running = false) :
    Turns x { x with place := .draining }
  | took {e : ScanEvent} {rest : List ScanEvent} (hplace : x.place = .popping)
    (hitems : x.queue.items = e :: rest) :
    Turns x { x with queue := { x.queue with items := rest }, popped := x.popped ++ [e],
                     place := .holding e }
  | missed (hplace : x.place = .popping) (hitems : x.queue.items = []) :
    Turns x { x with place := .doubting }
  | applied {e : ScanEvent} (hplace : x.place = .holding e) : Turns x (x.apply e .checking)
  | shut (hplace : x.place = .doubting) (hclosed : x.queue.closed = true) :
    Turns x { x with place := .draining }
  | again (hplace : x.place = .doubting) (hopen : x.queue.closed = false) :
    Turns x { x with place := .checking }
  | tookLast {e : ScanEvent} {rest : List ScanEvent} (hplace : x.place = .draining)
    (hitems : x.queue.items = e :: rest) :
    Turns x { x with queue := { x.queue with items := rest }, popped := x.popped ++ [e],
                     place := .finishing e }
  | ended (hplace : x.place = .draining) (hitems : x.queue.items = []) :
    Turns x { x with place := .done }
  | appliedLast {e : ScanEvent} (hplace : x.place = .finishing e) :
    Turns x (x.apply e .draining)

/-- **Every step of the thread is one of these.** -/
theorem turns_turn (x : Pump L) : x.Turns x.turn := by
  unfold turn
  split
  · rename_i hplace
    exact .idle (by rw [hplace]; rfl)
  · rename_i hplace
    exact .idle (by rw [hplace]; rfl)
  · rename_i hplace
    cases hrunning : x.discovery.running with
    | true => exact .goOn hplace hrunning
    | false => exact .leave hplace hrunning
  · rename_i hplace
    cases hitems : x.queue.items with
    | nil =>
      rw [take, ScanQueue.pop, hitems]
      exact .missed hplace hitems
    | cons e rest =>
      rw [take, ScanQueue.pop, hitems]
      exact .took hplace hitems
  · rename_i e hplace
    exact .applied hplace
  · rename_i hplace
    cases hclosed : x.queue.closed with
    | true => exact .shut hplace hclosed
    | false => exact .again hplace hclosed
  · rename_i hplace
    cases hitems : x.queue.items with
    | nil =>
      rw [take, ScanQueue.pop, hitems]
      exact .ended hplace hitems
    | cons e rest =>
      rw [take, ScanQueue.pop, hitems]
      exact .tookLast hplace hitems
  · rename_i e hplace
    exact .appliedLast hplace

omit [Link L] in
/-- An event that is offered is left out, or is the last one of an open queue. -/
theorem offer_eq (x : Pump L) (e : ScanEvent) :
    (x.offer e = x ∧ (x.queue.push e).1 = false) ∨
    (x.offer e = { x with queue := { x.queue with items := x.queue.items ++ [e] },
                                  accepted := x.accepted ++ [e] } ∧
      x.queue.closed = false ∧ x.queue.items.length < x.queue.capacity) := by
  cases hpush : (x.queue.push e).1 with
  | false =>
    refine .inl ⟨?_, rfl⟩
    rw [offer, ScanQueue.push_of_refused hpush]
  | true =>
    obtain ⟨heq, hopen, hroom⟩ := ScanQueue.push_of_accepted hpush
    refine .inr ⟨?_, hopen, hroom⟩
    rw [offer, heq]

/-! ## What every run keeps -/

/-- **No event is lost, applied twice or out of order.** -/
structure Kept (size : Nat) (f : Fleet L) (x : Pump L) : Prop where
  size_eq : x.queue.size = size
  length_le : x.queue.items.length ≤ x.queue.capacity
  accepted_eq : x.accepted = x.popped ++ x.queue.items
  popped_eq : x.popped = x.applied ++ x.place.held
  fleet_eq : x.fleet = f.discoverAll x.applied
  told_eq : x.told = f.toldOfAll x.applied
  processed_eq : x.discovery.processed = x.applied.length

theorem kept_fresh (size : Nat) (f : Fleet L) : (fresh size f).Kept size f where
  size_eq := rfl
  length_le := Nat.zero_le _
  accepted_eq := rfl
  popped_eq := rfl
  fleet_eq := rfl
  told_eq := rfl
  processed_eq := rfl

/-- The thread may go from one place to another with what it has in hand. -/
theorem Kept.go (h : x.Kept size f) (running : Bool) {p : Place} (hp : p.held = x.place.held) :
    Kept size f { x with discovery := { x.discovery with running }, place := p } where
  size_eq := h.size_eq
  length_le := h.length_le
  accepted_eq := h.accepted_eq
  popped_eq := hp ▸ h.popped_eq
  fleet_eq := h.fleet_eq
  told_eq := h.told_eq
  processed_eq := h.processed_eq

theorem Kept.took (h : x.Kept size f) {e : ScanEvent} {rest : List ScanEvent} {p : Place}
    (hitems : x.queue.items = e :: rest) (hheld : x.place.held = []) (hp : p.held = [e]) :
    Kept size f { x with queue := { x.queue with items := rest }, popped := x.popped ++ [e],
                         place := p } where
  size_eq := h.size_eq
  length_le := by
    have hlength := h.length_le
    rw [hitems, List.length_cons] at hlength
    dsimp only [ScanQueue.capacity] at hlength ⊢
    omega
  accepted_eq := by
    dsimp only
    rw [h.accepted_eq, hitems, List.append_assoc]
    rfl
  popped_eq := by
    dsimp only
    rw [h.popped_eq, hheld, hp, List.append_nil]
  fleet_eq := h.fleet_eq
  told_eq := h.told_eq
  processed_eq := h.processed_eq

/-- The event in hand is applied to the fleet, after all that were applied before. -/
theorem Kept.apply (h : x.Kept size f) {e : ScanEvent} {next : Place}
    (hheld : x.place.held = [e]) (hnext : next.held = []) : (x.apply e next).Kept size f where
  size_eq := h.size_eq
  length_le := h.length_le
  accepted_eq := h.accepted_eq
  popped_eq := by
    have hpopped := h.popped_eq
    rw [hheld] at hpopped
    dsimp only [Pump.apply]
    rw [hpopped, hnext, List.append_nil]
  fleet_eq := by
    dsimp only [Pump.apply]
    rw [Fleet.discoverAll_concat, ← h.fleet_eq]
  told_eq := by
    dsimp only [Pump.apply]
    rw [Fleet.toldOfAll_concat, ← h.fleet_eq, ← h.told_eq]
  processed_eq := by
    dsimp only [Pump.apply]
    rw [h.processed_eq, List.length_append, List.length_singleton]

/-- The thread loses no event between taking it and applying it. -/
theorem Kept.turn (h : x.Kept size f) : x.turn.Kept size f := by
  have hturns := x.turns_turn
  generalize x.turn = y at hturns ⊢
  cases hturns with
  | idle => exact h
  | goOn hplace | leave hplace | missed hplace | shut hplace | again hplace | ended hplace =>
    exact h.go x.discovery.running (by rw [hplace]; rfl)
  | took hplace hitems => exact h.took hitems (by rw [hplace]; rfl) rfl
  | tookLast hplace hitems => exact h.took hitems (by rw [hplace]; rfl) rfl
  | applied hplace => exact h.apply (by rw [hplace]; rfl) rfl
  | appliedLast hplace => exact h.apply (by rw [hplace]; rfl) rfl

theorem Kept.offer (h : x.Kept size f) (e : ScanEvent) : (x.offer e).Kept size f := by
  obtain ⟨heq, -⟩ | ⟨heq, -, hroom⟩ := x.offer_eq e
  · rw [heq]
    exact h
  · rw [heq]
    refine ⟨h.size_eq, ?_, ?_, h.popped_eq, h.fleet_eq, h.told_eq, h.processed_eq⟩
    · dsimp only [ScanQueue.capacity] at hroom ⊢
      rw [List.length_append, List.length_singleton]
      omega
    · dsimp only
      rw [h.accepted_eq, List.append_assoc]

theorem Kept.step (h : x.Kept size f) (m : Move) : (x.step m).Kept size f := by
  cases m with
  | offer e => exact h.offer e
  | close => exact ⟨h.size_eq, h.length_le, h.accepted_eq, h.popped_eq, h.fleet_eq, h.told_eq,
      h.processed_eq⟩
  | start =>
    by_cases hcan : x.discovery.running = false ∧ x.place = .absent
    · rw [Pump.step, Pump.start, if_pos hcan]
      exact h.go true (by rw [hcan.2]; rfl)
    · rw [Pump.step, Pump.start, if_neg hcan]
      exact h
  | halt => exact h.go false rfl
  | join =>
    by_cases hcan : x.discovery.running = false ∧ x.place = .done
    · rw [Pump.step, Pump.join, if_pos hcan]
      exact h.go x.discovery.running (by rw [hcan.2]; rfl)
    · rw [Pump.step, Pump.join, if_neg hcan]
      exact h
  | turn => exact h.turn

/-- **Nothing is lost or reordered** in any run. -/
theorem Kept.run (h : x.Kept size f) (moves : List Move) : (x.run moves).Kept size f := by
  induction moves generalizing x with
  | nil => exact h
  | cons m moves ih => exact ih (h.step m)

/-! ## Where the thread can be -/

/-- **A thread that was not told to end** is there, and has left its first loop only because
the queue is closed. -/
structure Placed (x : Pump L) : Prop where
  present : x.discovery.running → x.place ≠ .absent
  closed : x.discovery.running → x.place.leaving → x.queue.closed
  spent : x.discovery.running → x.place = .done → x.queue.items = []

omit [Link L] in
theorem placed_fresh (size : Nat) (f : Fleet L) : (fresh size f).Placed where
  present hrunning := nomatch hrunning
  closed hrunning := nomatch hrunning
  spent hrunning := nomatch hrunning

omit [Link L] in
theorem placed_of_halted (h : x.discovery.running = false) : x.Placed := by
  have hnot : ¬ x.discovery.running = true := by simp [h]
  exact ⟨fun hr => absurd hr hnot, fun hr => absurd hr hnot, fun hr => absurd hr hnot⟩

omit [Link L] in
/-- A thread in its first loop may be anywhere there. -/
theorem placed_of_staying (hpresent : x.place ≠ .absent) (hstays : x.place.leaving = false) :
    x.Placed where
  present _ := hpresent
  closed _ hleaving := by
    rw [hstays] at hleaving
    cases hleaving
  spent _ hdone := by
    rw [hdone] at hstays
    cases hstays

/-- The thread leaves its first loop when it is told to, or on a closed queue that it found
empty. -/
theorem Placed.turn (h : x.Placed) : x.turn.Placed := by
  have hturns := x.turns_turn
  generalize x.turn = y at hturns ⊢
  cases hturns with
  | idle => exact h
  | leave hplace hrunning =>
    -- it leaves its first loop here only because it was told to
    exact placed_of_halted hrunning
  | goOn | took | missed | applied | again => exact placed_of_staying nofun rfl
  | shut hplace hclosed => exact ⟨fun _ => nofun, fun _ _ => hclosed, fun _ => nofun⟩
  | tookLast hplace | appliedLast hplace =>
    exact ⟨fun _ => nofun, fun hr _ => h.closed hr (by rw [hplace]; rfl), fun _ => nofun⟩
  | ended hplace hitems =>
    exact ⟨fun _ => nofun, fun hr _ => h.closed hr (by rw [hplace]; rfl), fun _ _ => hitems⟩

theorem Placed.step (h : x.Placed) (m : Move) : (x.step m).Placed := by
  cases m with
  | offer e =>
    obtain ⟨heq, -⟩ | ⟨heq, hopen, -⟩ := x.offer_eq e
    · rw [Pump.step, heq]
      exact h
    · rw [Pump.step, heq]
      refine ⟨h.present, h.closed, fun hr hdone => ?_⟩
      -- a thread that ended has found the queue closed
      have hclosed := h.closed hr (by rw [show x.place = .done from hdone]; rfl)
      rw [hopen] at hclosed
      cases hclosed
  | close => exact ⟨h.present, fun _ _ => rfl, h.spent⟩
  | start =>
    by_cases hcan : x.discovery.running = false ∧ x.place = .absent
    · rw [Pump.step, Pump.start, if_pos hcan]
      exact placed_of_staying nofun rfl
    · rw [Pump.step, Pump.start, if_neg hcan]
      exact h
  | halt => exact placed_of_halted rfl
  | join =>
    by_cases hcan : x.discovery.running = false ∧ x.place = .done
    · rw [Pump.step, Pump.join, if_pos hcan]
      exact placed_of_halted hcan.1
    · rw [Pump.step, Pump.join, if_neg hcan]
      exact h
  | turn => exact h.turn

theorem Placed.run (h : x.Placed) (moves : List Move) : (x.run moves).Placed := by
  induction moves generalizing x with
  | nil => exact h
  | cons m moves ih => exact ih (h.step m)

/-! ## The end of the events -/

/-- **The events come to their end.** The queue is closed, and the thread does not end with
an event left. -/
structure Winding (x : Pump L) : Prop where
  closed : x.queue.closed = true
  spent : x.place.ended → x.queue.items = []

/-- Every event that was accepted is applied. -/
def Delivered (x : Pump L) : Prop := x.queue.items = [] ∧ x.place.held = []

/-- The number of steps that are left to a thread at most once the queue is closed. -/
def toDo (x : Pump L) : Nat :=
  match x.place with
  | .absent | .done => 0
  | .checking => 3 * x.queue.items.length + 4
  | .popping => 3 * x.queue.items.length + 3
  | .holding _ => 3 * x.queue.items.length + 5
  | .doubting | .finishing _ => 2 * x.queue.items.length + 2
  | .draining => 2 * x.queue.items.length + 1

omit [Link L] in
theorem offer_of_closed (h : x.queue.closed = true) (e : ScanEvent) : x.offer e = x := by
  obtain ⟨heq, -⟩ | ⟨-, hopen, -⟩ := x.offer_eq e
  · exact heq
  · rw [h] at hopen
    cases hopen

/-- **Nothing is accepted after the close.** -/
theorem closed_step (h : x.queue.closed = true) (m : Move) :
    (x.step m).queue.closed = true ∧ (x.step m).accepted = x.accepted := by
  cases m with
  | offer e =>
    rw [Pump.step, offer_of_closed h]
    exact ⟨h, rfl⟩
  | close => exact ⟨rfl, rfl⟩
  | start =>
    rw [Pump.step, Pump.start]
    split <;> exact ⟨h, rfl⟩
  | halt => exact ⟨h, rfl⟩
  | join =>
    rw [Pump.step, Pump.join]
    split <;> exact ⟨h, rfl⟩
  | turn =>
    rw [Pump.step]
    have hturns := x.turns_turn
    generalize x.turn = y at hturns ⊢
    cases hturns <;> exact ⟨h, rfl⟩

/-- A queue that is closed stays so, and accepts nothing more. -/
theorem closed_run (h : x.queue.closed = true) (moves : List Move) :
    (x.run moves).queue.closed = true ∧ (x.run moves).accepted = x.accepted := by
  induction moves generalizing x with
  | nil => exact ⟨h, rfl⟩
  | cons m moves ih =>
    obtain ⟨hclosed, haccepted⟩ := closed_step h m
    obtain ⟨hclosed', haccepted'⟩ := ih hclosed
    exact ⟨hclosed', haccepted'.trans haccepted⟩

omit [Link L] in
theorem Winding.delivered_of_ended (h : x.Winding) (hended : x.place.ended) : x.Delivered :=
  ⟨h.spent hended, Place.held_of_ended hended⟩

/-- A step leaves a thread less to do that has not ended. -/
theorem Winding.turn (h : x.Winding) :
    x.turn.Winding ∧ (x.Delivered → x.turn.Delivered) ∧
      (x.place.ended ∨ x.turn.toDo + 1 ≤ x.toDo) := by
  have hturns := x.turns_turn
  generalize x.turn = y at hturns ⊢
  cases hturns with
  | idle hended => exact ⟨h, id, .inl hended⟩
  | goOn hplace | leave hplace | shut hplace =>
    exact ⟨⟨h.closed, nofun⟩, fun hd => ⟨hd.1, rfl⟩, .inr (by simp only [toDo, hplace]; omega)⟩
  | again hplace hopen =>
    -- on a closed queue the thread does not go back
    exact absurd h.closed (by simp [hopen])
  | missed hplace hitems =>
    exact ⟨⟨h.closed, nofun⟩, fun hd => ⟨hd.1, rfl⟩,
      .inr (by simp only [toDo, hplace, hitems]; simp)⟩
  | ended hplace hitems =>
    exact ⟨⟨h.closed, fun _ => hitems⟩, fun hd => ⟨hd.1, rfl⟩,
      .inr (by simp only [toDo, hplace]; omega)⟩
  | took hplace hitems | tookLast hplace hitems =>
    refine ⟨⟨h.closed, nofun⟩, fun hd => ?_, .inr ?_⟩
    · rw [hd.1] at hitems
      cases hitems
    · simp only [toDo, hplace, hitems, List.length_cons]
      omega
  | applied hplace | appliedLast hplace =>
    refine ⟨⟨h.closed, nofun⟩, fun hd => ⟨hd.1, rfl⟩, .inr ?_⟩
    simp only [toDo, hplace, Pump.apply]
    omega

/-- **A step towards the end.** What is applied stays so, and until the thread ends, it has
less to do with each of its steps and no more with any other. -/
theorem Winding.step (h : x.Winding) (m : Move) :
    (x.step m).Winding ∧ (x.Delivered → (x.step m).Delivered) ∧
      (x.place.ended ∨ (x.step m).toDo + (if m = .turn then 1 else 0) ≤ x.toDo) := by
  have hsame : x.Winding ∧ (x.Delivered → x.Delivered) ∧ (x.place.ended ∨ x.toDo + 0 ≤ x.toDo) :=
    ⟨h, id, .inr (Nat.le_refl _)⟩
  cases m with
  | offer e =>
    rw [Pump.step, offer_of_closed h.closed]
    exact hsame
  | close => exact ⟨⟨rfl, h.spent⟩, id, .inr (Nat.le_refl _)⟩
  | start =>
    by_cases hcan : x.discovery.running = false ∧ x.place = .absent
    · rw [Pump.step, Pump.start, if_pos hcan]
      exact ⟨⟨h.closed, nofun⟩, fun hd => ⟨hd.1, rfl⟩, .inl (by rw [hcan.2]; rfl)⟩
    · rw [Pump.step, Pump.start, if_neg hcan]
      exact hsame
  | halt => exact ⟨⟨h.closed, h.spent⟩, id, .inr (Nat.le_refl _)⟩
  | join =>
    by_cases hcan : x.discovery.running = false ∧ x.place = .done
    · have hended : x.place.ended := by rw [hcan.2]; rfl
      rw [Pump.step, Pump.join, if_pos hcan]
      exact ⟨⟨h.closed, fun _ => h.spent hended⟩, fun hd => ⟨hd.1, rfl⟩, .inl hended⟩
    · rw [Pump.step, Pump.join, if_neg hcan]
      exact hsame
  | turn => exact h.turn

/-- **A thread that winds up goes on to do so**, whatever others do meanwhile. -/
theorem Winding.run (h : x.Winding) (moves : List Move) :
    (x.run moves).Winding ∧ (x.Delivered → (x.run moves).Delivered) := by
  induction moves generalizing x with
  | nil => exact ⟨h, id⟩
  | cons m moves ih =>
    obtain ⟨hwinds, hkeeps, -⟩ := h.step m
    obtain ⟨hwinds', hkeeps'⟩ := ih hwinds
    exact ⟨hwinds', fun hd => hkeeps' (hkeeps hd)⟩

/-- **The thread ends** if it gets to make its steps, whatever happens between them. -/
theorem Winding.ends (h : x.Winding) (hmany : x.toDo ≤ moves.count .turn) :
    ∃ first rest, moves = first ++ rest ∧ (x.run first).place.ended := by
  induction moves generalizing x with
  | nil =>
    have hzero : x.toDo = 0 := Nat.le_zero.1 hmany
    refine ⟨[], [], rfl, ?_⟩
    show x.place.ended = true
    cases hplace : x.place with
    | absent | done => rfl
    | _ => simp [toDo, hplace] at hzero
  | cons m moves ih =>
    obtain ⟨hwinds, -, hended | hless⟩ := h.step m
    · exact ⟨[], m :: moves, rfl, hended⟩
    · have hrest : (x.step m).toDo ≤ moves.count .turn := by
        rw [List.count_cons] at hmany
        by_cases hturn : m = .turn
        · rw [if_pos hturn] at hless
          rw [if_pos (beq_iff_eq.2 hturn)] at hmany
          omega
        · rw [if_neg hturn] at hless
          rw [if_neg fun hbeq => hturn (beq_iff_eq.1 hbeq)] at hmany
          omega
      obtain ⟨first, rest, hsplit, hended⟩ := ih hwinds hrest
      exact ⟨m :: first, rest, congrArg (m :: ·) hsplit, hended⟩

theorem run_append (x : Pump L) (ms ms' : List Move) :
    x.run (ms ++ ms') = (x.run ms).run ms' := List.foldl_append

/-- Where nothing waits and nothing is in hand, whatever was accepted is applied. -/
theorem Kept.applied_eq (h : x.Kept size f) (hd : x.Delivered) :
    x.applied = x.accepted := by
  rw [h.accepted_eq, h.popped_eq, hd.1, hd.2, List.append_nil, List.append_nil]

/-! ## Servers -/

/-- A server's discovery is as far as a pump. -/
structure Matches (x : Pump L) (s : Server L) : Prop where
  queue : x.queue = s.scans
  fleet : x.fleet = s.fleet
  discovery : x.discovery = s.discovery

variable {s : Server L}

omit [Link L] in
/-- Forwarding to clients leaves the discovery where it was. -/
theorem Matches.listenTurn (h : x.Matches s) (name : String) :
    x.Matches (s.listenTurn name) := by
  unfold Server.listenTurn
  split
  · split
    · exact h
    · dsimp only
      split <;> exact ⟨h.queue, h.fleet, h.discovery⟩
  · exact h

omit [Link L] in
theorem Matches.listen (h : x.Matches s) (name : String) : x.Matches (s.listen name) := by
  rw [Server.listen]
  generalize s.backlog name + 1 = n
  induction n with
  | zero => exact h
  | succ n ih => exact ih.listenTurn name

omit [Link L] in
theorem Matches.listenAll (h : x.Matches s) : x.Matches s.listenAll := by
  rw [Server.listenAll]
  generalize s.seats.entries = entries
  induction entries generalizing s with
  | nil => exact h
  | cons entry entries ih => exact ih (h.listen entry.1)

omit [Link L] in
theorem Matches.publish (h : x.Matches s) (trace : List Happening) :
    x.Matches (s.publish trace) := by
  induction trace generalizing s with
  | nil => exact h
  | cons happening trace ih =>
    refine ih ?_
    cases happening with
    | traffic => exact ⟨h.queue, h.fleet, h.discovery⟩
    | emitted body =>
      have hemit : x.Matches { s.note [.happened (.emitted body)] with
          emitter := s.emitter.map (·.emit body 0) } := ⟨h.queue, h.fleet, h.discovery⟩
      exact hemit.listenAll

/-- **A server applies a scan event** as three steps of a thread do. -/
theorem Matches.discoverTurn {e : ScanEvent} {rest : List ScanEvent} (h : x.Matches s)
    (hplace : x.place = .checking) (hrunning : x.discovery.running = true)
    (hitems : x.queue.items = e :: rest) :
    ∃ y, x.run [.turn, .turn, .turn] = y ∧ y.Matches s.discoverTurn ∧ y.place = .checking ∧
      y.discovery.running = true ∧ y.queue.items = rest := by
  have hturns : x.run [.turn, .turn, .turn] =
      Pump.apply { x with queue := { x.queue with items := rest }, popped := x.popped ++ [e],
                          place := .holding e } e .checking := by
    simp only [run, List.foldl_cons, List.foldl_nil, step, turn, hplace, hrunning, if_true, take,
      ScanQueue.pop, hitems]
  have hserver : s.discoverTurn =
      ({ s with scans := { s.scans with items := rest } } : Server L).applyScan e := by
    rw [Server.discoverTurn, ScanQueue.pop, ← h.queue, hitems]
  have hmatches : Matches { x with queue := { x.queue with items := rest },
                                   fleet := (x.fleet.discover e).fleet }
      ({ s with scans := { s.scans with items := rest },
                fleet := (s.fleet.discover e).fleet } : Server L) :=
    ⟨by rw [h.queue], by rw [h.fleet], h.discovery⟩
  obtain ⟨hqueue, hfleet, hdiscovery⟩ := hmatches.publish (s.fleet.discover e).trace
  refine ⟨_, hturns, ?_, rfl, hrunning, rfl⟩
  rw [hserver]
  exact ⟨hqueue, hfleet,
    congrArg (fun d : Discovery => { d with processed := d.processed + 1 }) hdiscovery⟩

/-- A server applies what waits one after the other. -/
theorem Matches.discover (h : x.Matches s) (hplace : x.place = .checking)
    (hrunning : x.discovery.running = true) :
    ∃ moves, (x.run moves).Matches s.discover ∧ (x.run moves).place = .checking ∧
      (x.run moves).discovery.running = true ∧ (x.run moves).queue.items = [] := by
  have heach : ∀ n, n ≤ x.queue.items.length → ∃ moves,
      (x.run moves).Matches (n.repeat Server.discoverTurn s) ∧
      (x.run moves).place = .checking ∧ (x.run moves).discovery.running = true ∧
      (x.run moves).queue.items = x.queue.items.drop n := by
    intro n hn
    induction n with
    | zero => exact ⟨[], h, hplace, hrunning, rfl⟩
    | succ n ih =>
      obtain ⟨moves, hmatches, hplace', hrunning', hitems⟩ := ih (by omega)
      rw [List.drop_eq_getElem_cons (by omega)] at hitems
      obtain ⟨y, hy, hmatches', hplace'', hrunning'', hitems'⟩ :=
        hmatches.discoverTurn hplace' hrunning' hitems
      rw [← run_append] at hy
      exact ⟨moves ++ [.turn, .turn, .turn], hy ▸ hmatches', hy ▸ hplace'', hy ▸ hrunning'',
        hy ▸ hitems'⟩
  obtain ⟨moves, hmatches, hplace', hrunning', hitems⟩ := heach _ (Nat.le_refl _)
  rw [List.drop_length] at hitems
  have hserver : s.discovery.running = true := h.discovery ▸ hrunning
  rw [Server.discover, if_pos hserver, ← h.queue]
  exact ⟨moves, hmatches, hplace', hrunning', hitems⟩

/-- **A server that stops its discovery** does what a pump does whose thread gets to make
all its steps. -/
theorem Matches.stopDiscovery (h : x.Matches s) (hplace : x.place = .checking)
    (hrunning : x.discovery.running = true) :
    ∃ moves, (x.run moves).Matches s.stopDiscovery ∧ (x.run moves).place = .absent ∧
      (x.run moves).Delivered := by
  obtain ⟨moves, hmatches, hplace', -, hitems⟩ := h.discover hplace hrunning
  refine ⟨moves ++ [.halt, .turn, .turn, .join], ?_⟩
  rw [run_append]
  generalize x.run moves = y at hmatches hplace' hitems
  have hend : y.run [.halt, .turn, .turn, .join] =
      { y with discovery := { y.discovery with running := false }, place := .absent } := by
    simp [run, step, turn, hplace', take, ScanQueue.pop, hitems, join]
  rw [hend]
  refine ⟨⟨hmatches.queue, hmatches.fleet, ?_⟩, rfl, hitems, rfl⟩
  exact congrArg (fun d : Discovery => { d with running := false }) hmatches.discovery

/-! ## The whole -/

/-- **Every event that is accepted is applied once, and in order.** -/
structure Faithful (size : Nat) (f : Fleet L) (x : Pump L) : Prop where
  /-- What was accepted is what was taken and what waits. -/
  accepted_eq : x.accepted = x.popped ++ x.queue.items
  /-- What was taken is what was applied and the event in hand. -/
  popped_eq : x.popped = x.applied ++ x.place.held
  length_le : x.queue.items.length ≤ max 1 size
  /-- The fleet and the events are those of applying the events one after the other. -/
  fleet_eq : x.fleet = f.discoverAll x.applied
  told_eq : x.told = f.toldOfAll x.applied
  processed_eq : x.discovery.processed = x.applied.length
  /-- With no event in hand everything that was taken is applied. -/
  settled : x.place.held = [] →
    x.fleet = f.discoverAll x.popped ∧ x.told = f.toldOfAll x.popped ∧
      x.discovery.processed = x.popped.length
  /-- An offer is refused exactly if the queue is closed or full, and then changes
  nothing. -/
  refused : ∀ e, (x.queue.push e).1 = false ↔
    x.queue.closed = true ∨ max 1 size ≤ x.queue.items.length
  unchanged : ∀ e, (x.queue.push e).1 = false → x.step (.offer e) = x
  /-- An event that is accepted is the last of the queue. -/
  entered : ∀ e, (x.queue.push e).1 = true →
    (x.step (.offer e)).queue.items = x.queue.items ++ [e] ∧
      (x.step (.offer e)).accepted = x.accepted ++ [e]
  /-- Nothing is accepted after the close. -/
  closed : x.queue.closed = true → ∀ moves,
    (x.run moves).queue.closed = true ∧ (x.run moves).accepted = x.accepted
  /-- What was accepted before the close is applied, if the thread gets to make its
  steps; and then the thread ends. -/
  delivered : x.queue.closed = true → x.place.ended = false → ∀ moves,
    x.toDo ≤ moves.count .turn →
    (x.run moves).applied = x.accepted ∧
      ∃ first rest, moves = first ++ rest ∧ (x.run first).place.ended
  /-- If the queue was closed before the pump is told to stop, everything that was accepted
  is applied and counted when its thread has ended. -/
  stopped : x.queue.closed = true → x.discovery.running = true → ∀ moves,
    ((x.step .halt).run moves).place.ended →
    ((x.step .halt).run moves).applied = x.accepted ∧
      ((x.step .halt).run moves).fleet = f.discoverAll x.accepted ∧
      ((x.step .halt).run moves).told = f.toldOfAll x.accepted ∧
      ((x.step .halt).run moves).discovery.processed = x.accepted.length
  /-- A server that stops its discovery does what the pump does. -/
  served : ∀ s : Server L, x.Matches s → x.place = .checking → x.discovery.running = true →
    ∃ moves, (x.run moves).Matches s.stopDiscovery ∧ (x.run moves).place = .absent ∧
      (x.run moves).Delivered

omit [Link L] in
/-- A thread that was not told to end does not leave an event behind on a closed queue. -/
theorem Placed.winding (h : x.Placed) (hclosed : x.queue.closed = true)
    (hrunning : x.discovery.running = true) : x.Winding := by
  refine ⟨hclosed, fun hended => ?_⟩
  cases hplace : x.place with
  | absent => exact absurd hplace (h.present hrunning)
  | done => exact h.spent hrunning hplace
  | _ =>
    rw [hplace] at hended
    cases hended

/-- **A pump is faithful to its queue** in every run, of any size and from any fleet on. -/
theorem faithful_of_run (size : Nat) (f : Fleet L) (moves : List Move) :
    ((fresh size f).run moves).Faithful size f := by
  have hkept := (kept_fresh size f).run moves
  have hplaced := (placed_fresh size f).run moves
  generalize (fresh size f).run moves = x at hkept hplaced
  have hcapacity : x.queue.capacity = max 1 size := by rw [ScanQueue.capacity, hkept.size_eq]
  constructor
  case accepted_eq => exact hkept.accepted_eq
  case popped_eq => exact hkept.popped_eq
  case length_le => exact hcapacity ▸ hkept.length_le
  case fleet_eq => exact hkept.fleet_eq
  case told_eq => exact hkept.told_eq
  case processed_eq => exact hkept.processed_eq
  case settled =>
    intro hheld
    have happlied : x.popped = x.applied := by rw [hkept.popped_eq, hheld, List.append_nil]
    rw [happlied]
    exact ⟨hkept.fleet_eq, hkept.told_eq, hkept.processed_eq⟩
  case refused => exact fun e => hcapacity ▸ ScanQueue.refuses_iff
  case unchanged =>
    intro e hrefused
    obtain ⟨heq, -⟩ | ⟨-, hopen, hroom⟩ := x.offer_eq e
    · exact heq
    · rcases ScanQueue.refuses_iff.1 hrefused with hclosed | hfull
      · rw [hopen] at hclosed
        cases hclosed
      · omega
  case entered =>
    intro e haccepted
    obtain ⟨-, hrefused⟩ | ⟨heq, -⟩ := x.offer_eq e
    · rw [haccepted] at hrefused
      cases hrefused
    · rw [Pump.step, heq]
      exact ⟨rfl, rfl⟩
  case closed => exact fun hclosed => closed_run hclosed
  case delivered =>
    intro hclosed hthread ms hmany
    have hwinds : x.Winding := ⟨hclosed, fun hended => by rw [hthread] at hended; cases hended⟩
    obtain ⟨first, rest, rfl, hended⟩ := hwinds.ends hmany
    have hfirst := (hwinds.run first).1
    have hdelivered := (hfirst.run rest).2 (hfirst.delivered_of_ended hended)
    rw [← run_append] at hdelivered
    refine ⟨?_, first, rest, rfl, hended⟩
    rw [(hkept.run _).applied_eq hdelivered, (closed_run hclosed _).2]
  case stopped =>
    intro hclosed hrunning ms hended
    have hwinds := ((hplaced.winding hclosed hrunning).step .halt).1
    have hkept' := (hkept.step .halt).run ms
    have hdelivered := (hwinds.run ms).1.delivered_of_ended hended
    have happlied : ((x.step .halt).run ms).applied = x.accepted := by
      rw [hkept'.applied_eq hdelivered, (closed_run hwinds.closed ms).2]
      rfl
    exact ⟨happlied, happlied ▸ hkept'.fleet_eq, happlied ▸ hkept'.told_eq,
      happlied ▸ hkept'.processed_eq⟩
  case served => exact fun s hmatches => hmatches.stopDiscovery

/-- A queue for one event refuses a second one, and what it has is applied after the close. -/
example (i j : Identity) :
    let x := (fresh 0 ({} : Fleet L)).run
      [.offer (.lost i), .offer (.lost j), .close, .start, .halt, .turn, .turn, .turn, .turn]
    x.accepted = [.lost i] ∧ x.applied = [.lost i] ∧ x.place = .done := by
  exact ⟨rfl, rfl, rfl⟩

end Pump

end Haptics
