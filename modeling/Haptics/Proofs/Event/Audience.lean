import Haptics.Event.Emitter
import Haptics.Proofs.Event.Delivery
import Haptics.Table
/-!
# The audience of an emitter

An emitter with the subscriptions that it granted, each in the hands of its
holder, while events are emitted and holders subscribe, take, close and leave in
any order. Of all that happens a subscription meets its own turns only
(`Audience.view`), and it fares as it would alone (`Audience.shows_run`).
`Audience.streams_of_run` puts this together with what a subscription alone
delivers.
-/

namespace Haptics

/-! ## Finding a subscriber -/

namespace Emitter

variable {m : Emitter} {id : SubscriptionId}

/-- The subscriber with a number. -/
def find? (m : Emitter) (id : SubscriptionId) : Option Subscriber :=
  m.subscribers.find? fun s => s.id = id

theorem queue?_eq (m : Emitter) (id : SubscriptionId) :
    m.queue? id = (m.find? id).map Subscriber.queue := rfl

/-- What leaves the numbers of subscribers alone can be done before looking for one or
afterwards. -/
theorem find?_map {g : Subscriber → Subscriber} (hg : ∀ s, (g s).id = s.id)
    (ss : List Subscriber) (id : SubscriptionId) :
    (ss.map g).find? (fun s => s.id = id) = (ss.find? fun s => s.id = id).map g := by
  rw [List.find?_map]
  congr 2
  funext s
  simp [hg]

/-- An emitted event is offered to every subscriber, under whatever number it is found. -/
theorem find?_emit (body : DeviceEvent) (t : Int) :
    (m.emit body t).find? id =
      (m.find? id).map (offer { id := m.nextEvent, body, timestampMs := t }) := by
  refine find?_map (fun s => ?_) m.subscribers id
  rw [offer]
  split <;> rfl

/-- A queue is set for the subscriber with its number, and for no other. -/
theorem find?_setQueue (m : Emitter) (id id' : SubscriptionId) (q : EventQueue) :
    (m.setQueue id' q).find? id =
      (m.find? id).map fun s => if id = id' then { s with queue := q } else s := by
  have hmap := find?_map (g := fun s => if s.id = id' then { s with queue := q } else s)
    (fun s => by split <;> rfl) m.subscribers id
  refine hmap.trans (Option.map_congr fun s hs => ?_)
  have hid : s.id = id := by simpa using List.find?_some hs
  rw [hid]

/-- Nobody is found any more under a number that was given up. -/
theorem find?_unsubscribe (m : Emitter) (id id' : SubscriptionId) :
    (m.unsubscribe id').find? id = if id = id' then none else m.find? id := by
  rw [find?, unsubscribe, List.find?_filter, find?]
  by_cases h : id = id'
  · rw [if_pos h, List.find?_eq_none]
    rintro s -
    simp only [decide_eq_true_eq, not_and]
    rintro hne rfl
    exact hne h
  · rw [if_neg h]
    congr 1
    funext s
    by_cases hs : s.id = id
    · simp [hs, h]
    · simp [hs]

theorem find?_setQueue_self {s : Subscriber} (hs : m.find? id = some s) (q : EventQueue) :
    (m.setQueue id q).find? id = some { s with queue := q } := by
  rw [find?_setQueue, hs, Option.map_some, if_pos rfl]

theorem pop_eq {s : Subscriber} (hs : m.find? id = some s) :
    m.pop id = (s.queue.pop.1, m.setQueue id s.queue.pop.2) := by
  rw [pop, queue?_eq, hs]
  rfl

/-- The size of the queue that a subscriber gets. -/
def grantedSize (m : Emitter) (asked : Nat) : Nat :=
  if 0 < asked then asked else m.defaultQueueSize

/-- The emitter after a subscription that it grants. -/
def granting (m : Emitter) (f : EventFilter) (asked : Nat) : Emitter :=
  { m with
    subscribers := m.subscribers ++ [⟨m.nextSubscription, f, { size := m.grantedSize asked }⟩]
    nextSubscription := m.nextSubscription + 1 }

/-- The number that is granted leads to a subscriber with an empty queue, unless somebody had
it. -/
theorem find?_granting (m : Emitter) (f : EventFilter) (asked : Nat) (id : SubscriptionId) :
    (m.granting f asked).find? id = (m.find? id).or (if m.nextSubscription = id then
      some ⟨m.nextSubscription, f, { size := m.grantedSize asked }⟩ else none) := by
  rw [find?, granting, List.find?_append, List.find?_singleton, find?]
  simp

theorem subscribe_room (h : m.full = false) (f : EventFilter) (asked : Nat) :
    m.subscribe f asked = (some m.nextSubscription, m.granting f asked) := by
  rw [subscribe, if_neg (by simp [h])]
  rfl

/-- An emitter that has no room left grants nothing and stays as it is. -/
theorem subscribe_full (h : m.full = true) (f : EventFilter) (asked : Nat) :
    m.subscribe f asked = (none, m) := by
  rw [subscribe, if_pos h]

end Emitter

/-- Closes the queue of a subscription to further events, wherever it is. -/
def Subscription.shut (s : Subscription) (m : Emitter) : Subscription × Emitter :=
  match s with
  | attached id => (s, (m.queue? id).elim m fun q => m.setQueue id q.close)
  | detached q => (detached q.close, m)
  | vacant => (s, m)

/-- A subscription in the hands of its holder, with the events taken from it. -/
structure Holder where
  subscription : Subscription
  taken : List Event := []
deriving DecidableEq, Repr

/-- An emitter with those who subscribed, and the events it emitted. -/
structure Audience where
  emitter : Emitter
  /-- The subscriptions granted, by their numbers. -/
  holders : Table SubscriptionId Holder := {}
  emitted : List Event := []

namespace Audience

/-- What holders do. -/
inductive Act
  | subscribe (filter : EventFilter) (queueSize : Nat)
  | take (id : SubscriptionId)
  | close (id : SubscriptionId)
  | leave (id : SubscriptionId)
deriving DecidableEq, Repr

/-- What happens to an emitter. -/
inductive Occurrence
  | emit (body : DeviceEvent) (timestampMs : Int)
  | act (a : Act)
deriving DecidableEq, Repr

/-- Lets a holder do something with its subscription. -/
def onHolder (x : Audience) (id : SubscriptionId)
    (g : Subscription → Emitter → Option Event × Subscription × Emitter) : Audience :=
  match x.holders.get? id with
  | none => x
  | some h =>
    let (e, s, m) := g h.subscription x.emitter
    { x with
      emitter := m
      holders := x.holders.insert id { subscription := s, taken := h.taken ++ e.toList } }

def act (x : Audience) : Act → Audience
  | .subscribe filter queueSize =>
    match x.emitter.subscribe filter queueSize with
    | (none, m) => { x with emitter := m }
    | (some id, m) =>
      { x with emitter := m, holders := x.holders.insert id { subscription := .attached id } }
  | .take id => x.onHolder id Subscription.pop
  | .close id => x.onHolder id fun s m => (none, s.shut m)
  | .leave id => x.onHolder id fun s m => (none, s.unsubscribe m)

/-- The event that is emitted next. -/
def next (x : Audience) (body : DeviceEvent) (timestampMs : Int) : Event :=
  { id := x.emitter.nextEvent, body, timestampMs }

def step (x : Audience) : Occurrence → Audience
  | .emit body t =>
    { x with emitter := x.emitter.emit body t, emitted := x.emitted ++ [x.next body t] }
  | .act a => x.act a

def run (x : Audience) (os : List Occurrence) : Audience := os.foldl step x

/-- An emitter to which nothing has happened. -/
def opening (defaultQueueSize maxSubscribers : Nat) : Audience :=
  { emitter := { defaultQueueSize, maxSubscribers } }

variable {x : Audience} {id id' : SubscriptionId} {f : EventFilter} {d : Delivery}

/-! ## What an act of a holder leaves alone -/

/-- What becomes of an emitter when something is done with a subscription: other
subscribers stay as they are, and so do the numbers. -/
structure Spares (s : Subscription) (m m' : Emitter) : Prop where
  defaultQueueSize : m'.defaultQueueSize = m.defaultQueueSize
  nextEvent : m'.nextEvent = m.nextEvent
  nextSubscription : m'.nextSubscription = m.nextSubscription
  others : ∀ id, s ≠ .attached id → m'.find? id = m.find? id
  missing : ∀ id, m.find? id = none → m'.find? id = none

theorem spares_self (s : Subscription) (m : Emitter) : Spares s m m :=
  ⟨rfl, rfl, rfl, fun _ _ => rfl, fun _ h => h⟩

theorem spares_setQueue (m : Emitter) (id : SubscriptionId) (q : EventQueue) :
    Spares (.attached id) m (m.setQueue id q) := by
  refine ⟨rfl, rfl, rfl, fun id' hne => ?_, fun id' hnone => ?_⟩
  · have hne' : id' ≠ id := fun h => hne (congrArg Subscription.attached h.symm)
    rw [Emitter.find?_setQueue]
    simp [hne']
  · rw [Emitter.find?_setQueue, hnone]
    rfl

theorem spares_unsubscribe (m : Emitter) (id : SubscriptionId) :
    Spares (.attached id) m (m.unsubscribe id) := by
  refine ⟨rfl, rfl, rfl, fun id' hne => ?_, fun id' hnone => ?_⟩
  · have hne' : id' ≠ id := fun h => hne (congrArg Subscription.attached h.symm)
    rw [Emitter.find?_unsubscribe, if_neg hne']
  · rw [Emitter.find?_unsubscribe, hnone]
    exact ite_self _

/-- What may be done with a subscription: the others are spared, and it is
attached afterwards only if it was. -/
structure Own (g : Subscription → Emitter → Option Event × Subscription × Emitter) : Prop where
  spares : ∀ s m, Spares s m (g s m).2.2
  attached : ∀ s m id, (g s m).2.1 = .attached id → s = .attached id

/-- Taking an event has to do with the own queue only. -/
theorem own_pop : Own Subscription.pop where
  spares s m := by
    cases s with
    | attached id =>
      simp only [Subscription.pop, Emitter.pop]
      split
      · exact spares_setQueue m id _
      · exact spares_self _ m
    | detached q => exact spares_self _ m
    | vacant => exact spares_self _ m
  attached s m id h := by
    cases s with
    | attached id' => exact h
    | detached q => cases h
    | vacant => cases h

theorem own_shut : Own fun s m => (none, s.shut m) where
  spares s m := by
    cases s with
    | attached id =>
      simp only [Subscription.shut]
      cases m.queue? id with
      | none => exact spares_self _ m
      | some q => exact spares_setQueue m id _
    | detached q => exact spares_self _ m
    | vacant => exact spares_self _ m
  attached s m id h := by
    cases s with
    | attached id' => exact h
    | detached q => cases h
    | vacant => cases h

/-- Who leaves has nothing attached afterwards, and takes nobody else along. -/
theorem own_unsubscribe : Own fun s m => (none, s.unsubscribe m) where
  spares s m := by
    cases s with
    | attached id => exact spares_unsubscribe m id
    | detached q => exact spares_self _ m
    | vacant => exact spares_self _ m
  attached s m id h := by
    cases s with
    | attached id' =>
      simp only [Subscription.unsubscribe] at h
      split at h <;> cases h
    | detached q => cases h
    | vacant => cases h

/-! ## Orderly audiences -/

/-- Numbers that were not granted yet belong to nobody, and what a holder has
attached is its own. -/
structure Orderly (x : Audience) : Prop where
  find?_eq : ∀ id, x.emitter.nextSubscription ≤ id → x.emitter.find? id = none
  get?_eq : ∀ id, x.emitter.nextSubscription ≤ id → x.holders.get? id = none
  own : ∀ id h id', x.holders.get? id = some h → h.subscription = .attached id' → id' = id

theorem orderly_opening (defaultQueueSize maxSubscribers : Nat) :
    (opening defaultQueueSize maxSubscribers).Orderly where
  find?_eq _ _ := rfl
  get?_eq _ _ := rfl
  own _ _ _ h := nomatch h

theorem onHolder_eq {h : Holder} (hh : x.holders.get? id = some h)
    (g : Subscription → Emitter → Option Event × Subscription × Emitter) :
    x.onHolder id g =
      { x with
        emitter := (g h.subscription x.emitter).2.2
        holders := x.holders.insert id
          { subscription := (g h.subscription x.emitter).2.1
            taken := h.taken ++ (g h.subscription x.emitter).1.toList } } := by
  rw [onHolder, hh]

theorem onHolder_none (hh : x.holders.get? id = none)
    (g : Subscription → Emitter → Option Event × Subscription × Emitter) :
    x.onHolder id g = x := by
  rw [onHolder, hh]

/-- No holder can attach what is not its own, whatever it does with what it has. -/
theorem Orderly.onHolder (hx : x.Orderly) {g} (hg : Own g) : (x.onHolder id g).Orderly := by
  cases hh : x.holders.get? id with
  | none =>
    rw [onHolder_none hh]
    exact hx
  | some h =>
    rw [onHolder_eq hh]
    have hs := hg.spares h.subscription x.emitter
    refine ⟨fun id' hle => ?_, fun id' hle => ?_, fun id' h' id'' hread hatt => ?_⟩
    · exact hs.missing id' (hx.find?_eq id' (hs.nextSubscription ▸ hle))
    · have hnone := hx.get?_eq id' (hs.nextSubscription ▸ hle)
      have hne : id' ≠ id := by
        rintro rfl
        rw [hh] at hnone
        cases hnone
      dsimp only
      rw [Table.get?_insert, if_neg hne, hnone]
    · dsimp only at hread
      rw [Table.get?_insert] at hread
      split at hread
      · rename_i heq
        cases hread
        rw [heq]
        exact hx.own id h id'' hh (hg.attached _ _ _ hatt)
      · exact hx.own id' h' id'' hread hatt

/-- The number that is granted next is new. -/
theorem Orderly.subscribe (hx : x.Orderly) (f : EventFilter) (size : Nat) :
    (x.act (.subscribe f size)).Orderly := by
  rw [act]
  cases hfull : x.emitter.full with
  | true =>
    rw [Emitter.subscribe_full hfull]
    exact hx
  | false =>
    rw [Emitter.subscribe_room hfull]
    -- the numbers that are new afterwards were new before
    have hold : ∀ id, (x.emitter.granting f size).nextSubscription ≤ id →
        x.emitter.nextSubscription ≤ id ∧ x.emitter.nextSubscription ≠ id :=
      fun id hle => ⟨Nat.le_of_succ_le hle, Nat.ne_of_lt hle⟩
    refine ⟨fun id hle => ?_, fun id hle => ?_, fun id h id' hread hatt => ?_⟩
    · obtain ⟨hle', hne⟩ := hold id hle
      rw [Emitter.find?_granting, hx.find?_eq id hle', if_neg hne]
      rfl
    · obtain ⟨hle', hne⟩ := hold id hle
      dsimp only
      rw [Table.get?_insert, if_neg (Ne.symm hne), hx.get?_eq id hle']
    · dsimp only at hread
      rw [Table.get?_insert] at hread
      split at hread
      · rename_i heq
        cases hread
        cases hatt
        exact heq.symm
      · exact hx.own id h id' hread hatt

/-- **What holders do keeps an audience orderly.** -/
theorem Orderly.act (hx : x.Orderly) (a : Act) : (x.act a).Orderly := by
  cases a with
  | subscribe f size => exact hx.subscribe f size
  | take id => exact hx.onHolder own_pop
  | close id => exact hx.onHolder own_shut
  | leave id => exact hx.onHolder own_unsubscribe

theorem Orderly.step (hx : x.Orderly) (o : Occurrence) : (x.step o).Orderly := by
  cases o with
  | emit body t =>
    refine ⟨fun id hle => ?_, hx.get?_eq, hx.own⟩
    have hnone := hx.find?_eq id hle
    rw [Audience.step, Emitter.find?_emit, hnone]
    rfl
  | act a => exact hx.act a

/-- **An audience stays orderly** through everything that happens. -/
theorem Orderly.run (hx : x.Orderly) (os : List Occurrence) : (x.run os).Orderly := by
  induction os generalizing x with
  | nil => exact hx
  | cons o os ih => exact ih (hx.step o)

/-! ## What a subscription meets -/

/-- The subscription under a number is as `d` says, and it is to the events that
`f` wants. -/
inductive Shows (x : Audience) (id : SubscriptionId) (f : EventFilter) : Delivery → Prop
  | attached {q : EventQueue} {taken : List Event}
    (hh : x.holders.get? id = some { subscription := .attached id, taken })
    (hs : x.emitter.find? id = some ⟨id, f, q⟩) :
    Shows x id f { queue := q, attached := true, taken }
  | detached {q : EventQueue} {taken : List Event}
    (hh : x.holders.get? id = some { subscription := .detached q, taken })
    (hs : x.emitter.find? id = none) :
    Shows x id f { queue := q, attached := false, taken }

/-- The turns of a subscription in an act. -/
def Act.view (id : SubscriptionId) : Act → List Delivery.Turn
  | .subscribe .. => []
  | .take id' => if id' = id then [.take] else []
  | .close id' => if id' = id then [.close] else []
  | .leave id' => if id' = id then [.leave] else []

/-- **The turns of a subscription in what happens**: every event that is emitted,
numbered from `n`, and what its own holder does. -/
def view (id : SubscriptionId) : Nat → List Occurrence → List Delivery.Turn
  | _, [] => []
  | n, .emit body t :: os => .told { id := n, body, timestampMs := t } :: view id (n + 1) os
  | n, .act a :: os => a.view id ++ view id n os

/-- An event that is emitted is told to the subscription, which keeps it if it is wanted. -/
theorem Shows.emit (h : x.Shows id f d) (body : DeviceEvent) (t : Int) :
    (x.step (.emit body t)).Shows id f (d.turn f (.told (x.next body t))) := by
  have hfind : (x.step (.emit body t)).emitter.find? id =
      (x.emitter.find? id).map (Emitter.offer (x.next body t)) := Emitter.find?_emit body t
  cases h with
  | @attached q taken hh hs =>
    rw [hs, Option.map_some, Emitter.offer] at hfind
    rw [Delivery.turn, Bool.true_and]
    dsimp only at hfind ⊢
    split at hfind
    · rename_i hw
      rw [if_pos hw]
      exact .attached hh hfind
    · rename_i hw
      rw [if_neg hw]
      exact .attached hh hfind
  | detached hh hs => exact .detached hh (by rw [hfind, hs]; rfl)

/-- What is done with another subscription is not met. -/
theorem Shows.other (hx : x.Orderly) (h : x.Shows id f d) (hne : id' ≠ id) {g} (hg : Own g) :
    (x.onHolder id' g).Shows id f d := by
  cases hh' : x.holders.get? id' with
  | none =>
    rw [onHolder_none hh']
    exact h
  | some h' =>
    rw [onHolder_eq hh']
    have hread : ∀ v : Holder, (x.holders.insert id' v).get? id = x.holders.get? id :=
      fun v => by rw [Table.get?_insert, if_neg (Ne.symm hne)]
    have hs' := hg.spares h'.subscription x.emitter
    cases h with
    | attached hh hs =>
      have hapart : h'.subscription ≠ .attached id := by
        intro hatt
        exact hne (hx.own id' h' id hh' hatt).symm
      exact .attached ((hread _).trans hh) ((hs'.others id hapart).trans hs)
    | detached hh hs => exact .detached ((hread _).trans hh) (hs'.missing id hs)

/-- A subscription of somebody else is not met. -/
theorem Shows.subscribe (hx : x.Orderly) (h : x.Shows id f d) (f' : EventFilter) (size : Nat) :
    (x.act (.subscribe f' size)).Shows id f d := by
  rw [Audience.act]
  cases hfull : x.emitter.full with
  | true =>
    rw [Emitter.subscribe_full hfull]
    exact h
  | false =>
    rw [Emitter.subscribe_room hfull]
    -- the number is granted already, so it is not the one that is granted now
    have hne : id ≠ x.emitter.nextSubscription := by
      rintro rfl
      have hnone := hx.get?_eq _ (Nat.le_refl _)
      cases h with
      | attached hh hs =>
        rw [hh] at hnone
        cases hnone
      | detached hh hs =>
        rw [hh] at hnone
        cases hnone
    have hread : ∀ v : Holder,
        (x.holders.insert x.emitter.nextSubscription v).get? id = x.holders.get? id :=
      fun v => by rw [Table.get?_insert, if_neg hne]
    have hfind : (x.emitter.granting f' size).find? id = x.emitter.find? id := by
      rw [Emitter.find?_granting, if_neg (Ne.symm hne), Option.or_none]
    cases h with
    | attached hh hs => exact .attached ((hread _).trans hh) (hfind.trans hs)
    | detached hh hs => exact .detached ((hread _).trans hh) (hfind.trans hs)

/-- What a holder takes is what the subscription alone would give. -/
theorem Shows.take (h : x.Shows id f d) : (x.act (.take id)).Shows id f (d.turn f .take) := by
  rw [Audience.act]
  cases h with
  | attached hh hs =>
    rw [onHolder_eq hh, Subscription.pop, Emitter.pop_eq hs]
    exact .attached (Table.get?_insert_self ..) (Emitter.find?_setQueue_self hs _)
  | detached hh hs =>
    rw [onHolder_eq hh, Subscription.pop]
    exact .detached (Table.get?_insert_self ..) hs

theorem Shows.close (h : x.Shows id f d) : (x.act (.close id)).Shows id f (d.turn f .close) := by
  rw [Audience.act]
  cases h with
  | attached hh hs =>
    rw [onHolder_eq hh, Subscription.shut, Emitter.queue?_eq, hs]
    refine .attached ?_ (Emitter.find?_setQueue_self hs _)
    rw [Table.get?_insert_self, Option.toList_none, List.append_nil]
  | detached hh hs =>
    rw [onHolder_eq hh, Subscription.shut]
    refine .detached ?_ hs
    rw [Table.get?_insert_self, Option.toList_none, List.append_nil]

/-- Who leaves keeps the queue as it is then, and is offered nothing more. -/
theorem Shows.leave (h : x.Shows id f d) : (x.act (.leave id)).Shows id f (d.turn f .leave) := by
  rw [Audience.act]
  cases h with
  | attached hh hs =>
    rw [onHolder_eq hh, Subscription.unsubscribe, Emitter.queue?_eq, hs]
    refine .detached ?_ ?_
    · rw [Table.get?_insert_self, Option.toList_none, List.append_nil]
      rfl
    · exact (Emitter.find?_unsubscribe ..).trans (if_pos rfl)
  | detached hh hs =>
    rw [onHolder_eq hh]
    refine .detached ?_ hs
    rw [Table.get?_insert_self, Option.toList_none, List.append_nil]
    rfl

/-- **Of what holders do a subscription meets its own turns only.** -/
theorem Shows.act (hx : x.Orderly) (h : x.Shows id f d) (a : Act) :
    (x.act a).Shows id f (d.run f (a.view id)) := by
  cases a with
  | subscribe f' size => exact h.subscribe hx f' size
  | take id' =>
    rw [Act.view]
    split
    · rename_i heq
      exact heq ▸ h.take
    · rename_i hne
      exact h.other hx hne own_pop
  | close id' =>
    rw [Act.view]
    split
    · rename_i heq
      exact heq ▸ h.close
    · rename_i hne
      exact h.other hx hne own_shut
  | leave id' =>
    rw [Act.view]
    split
    · rename_i heq
      exact heq ▸ h.leave
    · rename_i hne
      exact h.other hx hne own_unsubscribe

/-- Nothing that is done with a subscription changes the numbers of events. -/
theorem spares_onHolder {g} (hg : Own g) (id : SubscriptionId) :
    (x.onHolder id g).emitter.defaultQueueSize = x.emitter.defaultQueueSize ∧
      (x.onHolder id g).emitter.nextEvent = x.emitter.nextEvent := by
  cases hh : x.holders.get? id with
  | none =>
    rw [onHolder_none hh]
    exact ⟨rfl, rfl⟩
  | some h =>
    rw [onHolder_eq hh]
    have hs := hg.spares h.subscription x.emitter
    exact ⟨hs.defaultQueueSize, hs.nextEvent⟩

/-- What holders do leaves the numbers of events alone, and what was emitted. -/
theorem act_eq (x : Audience) (a : Act) :
    (x.act a).emitter.defaultQueueSize = x.emitter.defaultQueueSize ∧
      (x.act a).emitter.nextEvent = x.emitter.nextEvent ∧ (x.act a).emitted = x.emitted := by
  have hemitted : ∀ id g, (x.onHolder id g).emitted = x.emitted := by
    intro id g
    rw [onHolder]
    split <;> rfl
  cases a with
  | subscribe f size =>
    rw [act]
    cases hfull : x.emitter.full with
    | true =>
      rw [Emitter.subscribe_full hfull]
      exact ⟨rfl, rfl, rfl⟩
    | false =>
      rw [Emitter.subscribe_room hfull]
      exact ⟨rfl, rfl, rfl⟩
  | take id =>
    obtain ⟨hsize, hnext⟩ := spares_onHolder (x := x) own_pop id
    exact ⟨hsize, hnext, hemitted ..⟩
  | close id =>
    obtain ⟨hsize, hnext⟩ := spares_onHolder (x := x) own_shut id
    exact ⟨hsize, hnext, hemitted ..⟩
  | leave id =>
    obtain ⟨hsize, hnext⟩ := spares_onHolder (x := x) own_unsubscribe id
    exact ⟨hsize, hnext, hemitted ..⟩

theorem nextEvent_act (x : Audience) (a : Act) :
    (x.act a).emitter.nextEvent = x.emitter.nextEvent := (act_eq x a).2.1

/-- **A subscription fares as it would alone**, whatever happens. -/
theorem shows_run (hx : x.Orderly) (h : x.Shows id f d) (os : List Occurrence) :
    (x.run os).Shows id f (d.run f (view id x.emitter.nextEvent os)) := by
  induction os generalizing x d with
  | nil => exact h
  | cons o os ih =>
    cases o with
    | emit body t => exact ih (hx.step (.emit body t)) (h.emit body t)
    | act a =>
      have hrest := ih (hx.act a) (h.act hx a)
      rw [nextEvent_act, ← Delivery.run_append] at hrest
      exact hrest

/-- A subscription that was just granted. -/
theorem shows_subscribe (hx : x.Orderly) (hroom : x.emitter.full = false) (f : EventFilter)
    (asked : Nat) :
    (x.act (.subscribe f asked)).Shows x.emitter.nextSubscription f
      (Delivery.fresh (x.emitter.grantedSize asked)) := by
  rw [act, Emitter.subscribe_room hroom]
  refine .attached (Table.get?_insert_self ..) ?_
  refine (Emitter.find?_granting ..).trans ?_
  rw [hx.find?_eq _ (Nat.le_refl _), if_pos rfl]
  rfl

/-! ## What is emitted -/

/-- The events that are emitted in what happens, numbered from `n`. -/
def news : Nat → List Occurrence → List Event
  | _, [] => []
  | n, .emit body t :: os => { id := n, body, timestampMs := t } :: news (n + 1) os
  | n, .act _ :: os => news n os

/-- **What was emitted is the events that there were, in their order**, after those before. -/
theorem emitted_run (x : Audience) (os : List Occurrence) :
    (x.run os).emitted = x.emitted ++ news x.emitter.nextEvent os := by
  induction os generalizing x with
  | nil => exact (List.append_nil _).symm
  | cons o os ih =>
    cases o with
    | emit body t =>
      refine (ih (x.step (.emit body t))).trans ?_
      exact List.append_assoc ..
    | act a =>
      refine (ih (x.act a)).trans ?_
      rw [(act_eq x a).2.2, nextEvent_act]
      rfl

/-- **Events are numbered in a row.** -/
theorem ids_news (n : Nat) (os : List Occurrence) :
    (news n os).map Event.id = List.range' n (news n os).length := by
  induction os generalizing n with
  | nil => rfl
  | cons o os ih =>
    cases o with
    | emit body t =>
      rw [news, List.map_cons, ih, List.length_cons, List.range'_succ]
    | act a => exact ih n

/-- No number comes twice, and later events have higher ones. -/
theorem increasing_news (n : Nat) (os : List Occurrence) :
    (news n os).Pairwise fun e e' => e.id < e'.id := by
  refine List.pairwise_map.1 ?_
  rw [ids_news]
  exact List.pairwise_lt_range'

end Audience

end Haptics
