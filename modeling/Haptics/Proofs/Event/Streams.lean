import Haptics.Proofs.Event.Audience
import Mathlib.Data.List.TakeWhile
/-!
# The streams of an emitter

What holders get while an emitter emits, and its subscribers take, close, leave and
join in any order. `Audience.streams_of_run`: of the wanted events that are emitted
while it lasts a subscription delivers the first ones, in order and without gaps;
it delivers all of them unless one meets a full queue or the queue is closed, and
nothing from then on; and what the other subscribers do is nothing to it.
-/

namespace Haptics

/-- What a holder got: what it took, and what waits for it. -/
def Holder.received (h : Holder) (m : Emitter) : List Event :=
  h.taken ++ (h.subscription.queue? m).elim [] EventQueue.items

namespace Audience

variable {x : Audience} {id : SubscriptionId} {f : EventFilter} {d : Delivery} {c : Nat}
  {os : List Occurrence}

/-- What happens before a holder leaves. -/
def stay (id : SubscriptionId) (os : List Occurrence) : List Occurrence :=
  os.takeWhile (· ≠ .act (.leave id))

/-- The events that are emitted before a holder leaves, as far as they are wanted. -/
def wanted (x : Audience) (id : SubscriptionId) (f : EventFilter) (os : List Occurrence) :
    List Event :=
  ((x.run (stay id os)).emitted.drop x.emitted.length).filter fun e => f.wants e.body

/-- A wanted event meets a queue that is open and holds `c` events. -/
def Spills (x : Audience) (id : SubscriptionId) (f : EventFilter) (c : Nat)
    (os : List Occurrence) : Prop :=
  ∃ pre body t post q, os = pre ++ .emit body t :: post ∧ f.wants body = true ∧
    (x.run pre).emitter.queue? id = some q ∧ q.closed = false ∧ c ≤ q.items.length

/-! ## Turns and occurrences -/

/-- An act is one turn of a subscription, or none; it tells nothing. -/
theorem view_cases (id : SubscriptionId) (a : Act) :
    a.view id = [] ∨ ∃ t, a.view id = [t] ∧ ∀ e, t ≠ .told e := by
  cases a with
  | subscribe f size => exact Or.inl rfl
  | take id' | close id' | leave id' =>
    rw [Act.view]
    split
    · refine Or.inr ⟨_, rfl, fun e he => ?_⟩
      cases he
    · exact Or.inl rfl

theorem exists_view_append (id : SubscriptionId) (n : Nat) (pre post : List Occurrence) :
    ∃ ts, view id n (pre ++ post) = view id n pre ++ ts := by
  induction pre generalizing n with
  | nil => exact ⟨_, rfl⟩
  | cons o pre ih =>
    cases o with
    | emit body t =>
      obtain ⟨ts, hts⟩ := ih (n + 1)
      exact ⟨ts, congrArg _ hts⟩
    | act a =>
      obtain ⟨ts, hts⟩ := ih n
      exact ⟨ts, (congrArg _ hts).trans (List.append_assoc ..).symm⟩

theorem close_mem_view (id : SubscriptionId) (n : Nat) (os : List Occurrence) :
    .close ∈ view id n os ↔ .act (.close id) ∈ os := by
  induction os generalizing n with
  | nil => simp [view]
  | cons o os ih =>
    cases o with
    | emit body t => simp [view, ih]
    | act a => cases a <;> simp [view, Act.view, ih, eq_comm]

theorem leave_mem_view (id : SubscriptionId) (n : Nat) (os : List Occurrence) :
    .leave ∈ view id n os ↔ .act (.leave id) ∈ os := by
  induction os generalizing n with
  | nil => simp [view]
  | cons o os ih =>
    cases o with
    | emit body t => simp [view, ih]
    | act a => cases a <;> simp [view, Act.view, ih, eq_comm]

/-- The turns before a subscription ends are those of what happens before its holder
leaves. -/
theorem view_stay (id : SubscriptionId) (n : Nat) (os : List Occurrence) :
    view id n (stay id os) = (view id n os).takeWhile (· ≠ .leave) := by
  induction os generalizing n with
  | nil => rfl
  | cons o os ih =>
    cases o with
    | emit body t => simpa [view, stay] using ih (n + 1)
    | act a =>
      by_cases hleave : a = .leave id
      · simp [hleave, stay, view, Act.view]
      · have hview : ∀ t ∈ a.view id, t ≠ .leave := by
          cases a <;> simp_all [Act.view, eq_comm]
        rw [view, List.takeWhile_append_of_pos (by simpa using hview), ← ih]
        simp [stay, hleave, view]

theorem told_view (id : SubscriptionId) (n : Nat) (os : List Occurrence) :
    Delivery.told (view id n os) = news n os := by
  induction os generalizing n with
  | nil => rfl
  | cons o os ih =>
    cases o with
    | emit body t => exact congrArg _ (ih (n + 1))
    | act a =>
      refine Eq.trans ?_ (ih n)
      rcases view_cases id a with hnil | ⟨t, hone, hmute⟩
      · rw [view, hnil]
        rfl
      · rw [view, hone]
        cases t with
        | told e => exact absurd rfl (hmute e)
        | take | close | leave => rfl

theorem shuts_view (id : SubscriptionId) (n : Nat) (os : List Occurrence) :
    Delivery.Shuts (view id n os) ↔ .act (.close id) ∈ stay id os := by
  rw [Delivery.Shuts, ← view_stay, close_mem_view]

/-- **What is meant for a subscription** is what is emitted while it lasts and
wanted. -/
theorem meant_view (x : Audience) (id : SubscriptionId) (f : EventFilter)
    (os : List Occurrence) :
    Delivery.meant f (view id x.emitter.nextEvent os) = x.wanted id f os := by
  rw [Delivery.meant_eq, ← view_stay, told_view, wanted, emitted_run, List.drop_left]

/-! ## Spills -/

theorem spills_cons {o : Occurrence} : x.Spills id f c (o :: os) ↔
    (∃ body t q, o = .emit body t ∧ f.wants body = true ∧ x.emitter.queue? id = some q ∧
      q.closed = false ∧ c ≤ q.items.length) ∨ (x.step o).Spills id f c os := by
  constructor
  · rintro ⟨pre, body, t, post, q, heq, hspills⟩
    rcases List.cons_eq_append_iff.1 heq with ⟨rfl, hcons⟩ | ⟨pre', rfl, rfl⟩
    · cases hcons
      exact Or.inl ⟨body, t, q, rfl, hspills⟩
    · exact Or.inr ⟨pre', body, t, post, q, rfl, hspills⟩
  · rintro (⟨body, t, q, rfl, hspills⟩ | ⟨pre, body, t, post, q, rfl, hspills⟩)
    · exact ⟨[], body, t, os, q, rfl, hspills⟩
    · exact ⟨o :: pre, body, t, post, q, rfl, hspills⟩

/-- What an event meets when it is emitted. -/
theorem Shows.meets_iff (h : x.Shows id f d) (hc : d.queue.capacity = c) (e : Event) :
    Delivery.Meets f d e ↔ f.wants e.body = true ∧
      ∃ q, x.emitter.queue? id = some q ∧ q.closed = false ∧ c ≤ q.items.length := by
  rw [Emitter.queue?_eq, Delivery.Meets, hc]
  cases h with
  | attached hh hs => simp [hs]
  | detached hh hs => simp [hs]

theorem spills_view_append (id : SubscriptionId) (f : EventFilter) (a : Act) (d : Delivery)
    (ts : List Delivery.Turn) :
    Delivery.Spills f d (a.view id ++ ts) ↔ Delivery.Spills f (d.run f (a.view id)) ts := by
  rcases view_cases id a with hnil | ⟨t, hone, hmute⟩
  · rw [hnil]
    rfl
  · rw [hone, List.singleton_append, Delivery.spills_cons]
    refine or_iff_right ?_
    rintro ⟨e, rfl, -⟩
    exact hmute e rfl

/-- **A subscription spills when the audience says so.** -/
theorem spills_iff (hx : x.Orderly) (h : x.Shows id f d) (hc : d.queue.capacity = c)
    (os : List Occurrence) :
    x.Spills id f c os ↔ Delivery.Spills f d (view id x.emitter.nextEvent os) := by
  induction os generalizing x d with
  | nil =>
    refine iff_of_false ?_ ?_
    · rintro ⟨pre, body, t, post, q, heq, -⟩
      simp at heq
    · rintro ⟨pre, e, post, heq, -⟩
      simp [view] at heq
  | cons o os ih =>
    rw [spills_cons]
    cases o with
    | emit body t =>
      have hrest := ih (hx.step (.emit body t)) (h.emit body t) (Delivery.capacity_turn.trans hc)
      rw [hrest, view, Delivery.spills_cons]
      refine or_congr_left ?_
      simp only [Occurrence.emit.injEq, Delivery.Turn.told.injEq, exists_eq_left']
      rw [h.meets_iff hc]
      simp
    | act a =>
      have hrest := ih (hx.act a) (h.act hx a) (Delivery.capacity_run.trans hc)
      rw [nextEvent_act] at hrest
      rw [view, spills_view_append, ← hrest]
      exact or_iff_right nofun

/-! ## Streams -/

/-- What a subscription with a queue of some size gives its holder `h`, when
`later` happens after it was granted in `x`. A queue has room for one event at
least. -/
structure Streams (x : Audience) (id : SubscriptionId) (f : EventFilter) (size : Nat)
    (later : List Occurrence) (h : Holder) : Prop where
  /-- The wanted events come in order and without gaps. -/
  in_order : h.received (x.run later).emitter <+: x.wanted id f later
  increasing : (h.received (x.run later).emitter).Pairwise fun e e' => e.id < e'.id
  bounded : h.subscription.size (x.run later).emitter ≤ max 1 size
  /-- All of them come, unless one meets a full queue or the queue is closed. -/
  complete : ¬ x.Spills id f (max 1 size) later → .act (.close id) ∉ stay id later →
    h.received (x.run later).emitter = x.wanted id f later
  /-- From then on nothing more comes. -/
  final : ∀ pre post h', later = pre ++ post → (x.run pre).holders.get? id = some h' →
    x.Spills id f (max 1 size) pre ∨ .act (.close id) ∈ pre ∨ .act (.leave id) ∈ pre →
      h.received (x.run later).emitter = h'.received (x.run pre).emitter
  overflowed_iff : h.subscription.overflowed (x.run later).emitter = true ↔
    x.Spills id f (max 1 size) later
  /-- It is as if there were no other subscribers. -/
  alone : ∃ d, d = (Delivery.fresh size).run f (view id x.emitter.nextEvent later) ∧
    h.taken = d.taken ∧ h.subscription.queue? (x.run later).emitter = some d.queue

/-- What a holder reads of its subscription. -/
theorem Shows.exists_holder (h : x.Shows id f d) : ∃ h, x.holders.get? id = some h ∧
    h.taken = d.taken ∧ h.subscription.queue? x.emitter = some d.queue := by
  cases h with
  | attached hh hs =>
    refine ⟨_, hh, rfl, ?_⟩
    rw [Subscription.queue?, Emitter.queue?_eq, hs]
    rfl
  | detached hh hs => exact ⟨_, hh, rfl, rfl⟩

theorem received_eq {h : Holder} {m : Emitter} (htaken : h.taken = d.taken)
    (hqueue : h.subscription.queue? m = some d.queue) : h.received m = d.received := by
  rw [Holder.received, htaken, hqueue]
  rfl

theorem streams_of_shows {size : Nat} (hx : x.Orderly)
    (hfresh : x.Shows id f (Delivery.fresh size)) (later : List Occurrence) :
    ∃ h, (x.run later).holders.get? id = some h ∧ Streams x id f size later h := by
  have hshows := shows_run hx hfresh
  have hspills := spills_iff hx hfresh (c := max 1 size) rfl
  have hgapless := Delivery.gapless f size (view id x.emitter.nextEvent later)
  obtain ⟨h, hh, htaken, hqueue⟩ := (hshows later).exists_holder
  have hreceived := received_eq htaken hqueue
  have hin_order : h.received (x.run later).emitter <+: x.wanted id f later := by
    rw [hreceived, ← meant_view]
    exact hgapless.in_order
  refine ⟨h, hh, hin_order, ?_, ?_, ?_, ?_, ?_, _, rfl, htaken, hqueue⟩
  · -- events are numbered as they are emitted, and what is wanted is a part of them
    rw [wanted, emitted_run, List.drop_left] at hin_order
    have hsub := hin_order.sublist.trans List.filter_sublist
    exact (increasing_news _ _).sublist hsub
  · rw [Subscription.size, hqueue]
    exact hgapless.bounded
  · intro hspill hclose
    rw [hreceived, ← meant_view]
    exact hgapless.complete (mt (hspills later).2 hspill) (mt (shuts_view ..).1 hclose)
  · intro pre post h' hlater hh' hpre
    obtain ⟨h'', hh'', htaken', hqueue'⟩ := (hshows pre).exists_holder
    cases hh'.symm.trans hh''
    obtain ⟨ts, hts⟩ := exists_view_append id x.emitter.nextEvent pre post
    rw [hreceived, received_eq htaken' hqueue']
    refine hgapless.final _ ts (hlater ▸ hts) ?_
    rwa [← hspills pre, close_mem_view, leave_mem_view]
  · rw [Subscription.overflowed, hqueue, hspills later]
    exact hgapless.overflowed_iff

/-- **A queue that has room for all that is wanted** delivers all of it, unless it is
closed. -/
theorem received_of_room {size : Nat} (hx : x.Orderly)
    (hfresh : x.Shows id f (Delivery.fresh size)) {later : List Occurrence}
    (hclose : .act (.close id) ∉ later) (hroom : (x.wanted id f later).length ≤ max 1 size) :
    ∃ h, (x.run later).holders.get? id = some h ∧
      h.received (x.run later).emitter = x.wanted id f later := by
  obtain ⟨h, hh, hstreams⟩ := streams_of_shows hx hfresh later
  refine ⟨h, hh, hstreams.complete (fun hspills => ?_) fun hmem => ?_⟩
  · have hless := Delivery.capacity_lt_of_spills ((spills_iff hx hfresh rfl later).1 hspills)
    have hnone : (Delivery.fresh size).received.length = 0 := rfl
    rw [meant_view, hnone, Nat.zero_add] at hless
    exact Nat.not_lt.2 hroom hless
  · exact hclose (List.takeWhile_subset _ hmem)

/-- Who wants everything and stays wants all that is emitted. -/
theorem wanted_all (x : Audience) {later : List Occurrence}
    (hleave : .act (.leave id) ∉ later) :
    x.wanted id {} later = (x.run later).emitted.drop x.emitted.length := by
  have hstay : stay id later = later := by
    refine List.takeWhile_eq_self_iff.2 fun o ho => decide_eq_true ?_
    rintro rfl
    exact hleave ho
  rw [wanted, hstay]
  refine List.filter_eq_self.2 fun e _ => ?_
  cases e.body <;> rfl

/-- **Who subscribes first hears everything**, if there is room for it in the queue and
unless the queue is closed. -/
theorem received_first {defaultQueueSize maxSubscribers size : Nat} {later : List Occurrence}
    (hx : x = (opening defaultQueueSize maxSubscribers).run
      (.act (.subscribe {} size) :: later))
    (hclose : .act (.close 1) ∉ later) (hleave : .act (.leave 1) ∉ later)
    (hroom : x.emitted.length ≤ size) :
    ∃ h, x.holders.get? 1 = some h ∧ h.received x.emitter = x.emitted := by
  subst hx
  have horderly := orderly_opening defaultQueueSize maxSubscribers
  have hopen : (opening defaultQueueSize maxSubscribers).emitter.full = false := by
    cases maxSubscribers <;> simp [opening, Emitter.full]
  have hfresh := shows_subscribe horderly hopen {} size
  have hwanted := wanted_all ((opening defaultQueueSize maxSubscribers).act
    (.subscribe {} size)) hleave
  rw [(act_eq _ _).2.2] at hwanted
  have hsize :
      size ≤ max 1 ((opening defaultQueueSize maxSubscribers).emitter.grantedSize size) := by
    rw [Emitter.grantedSize]
    split <;> omega
  have hroom' := Nat.le_trans (Nat.le_of_eq (congrArg List.length hwanted))
    (Nat.le_trans hroom hsize)
  obtain ⟨h, hh, hreceived⟩ := received_of_room (horderly.act _) hfresh hclose hroom'
  exact ⟨h, hh, hreceived.trans hwanted⟩

theorem defaultQueueSize_run (x : Audience) (os : List Occurrence) :
    (x.run os).emitter.defaultQueueSize = x.emitter.defaultQueueSize := by
  induction os generalizing x with
  | nil => rfl
  | cons o os ih =>
    refine (ih (x.step o)).trans ?_
    cases o with
    | emit body t => rfl
    | act a => exact (act_eq x a).1

/-- **Every subscription streams without gaps**, whoever came before it and
whatever happens later. -/
theorem streams_of_run (defaultQueueSize maxSubscribers : Nat) (before : List Occurrence)
    (f : EventFilter) (asked : Nat) (later : List Occurrence)
    (hroom : ((opening defaultQueueSize maxSubscribers).run before).emitter.full = false) :
    let x := (opening defaultQueueSize maxSubscribers).run before
    let granted := x.act (.subscribe f asked)
    ∃ h, (granted.run later).holders.get? x.emitter.nextSubscription = some h ∧
      Streams granted x.emitter.nextSubscription f
        (if 0 < asked then asked else defaultQueueSize) later h := by
  intro x granted
  have hx : x.Orderly := (orderly_opening ..).run before
  have hfresh := shows_subscribe hx hroom f asked
  rw [Emitter.grantedSize, defaultQueueSize_run] at hfresh
  exact streams_of_shows (hx.act (.subscribe f asked)) hfresh later

/-- Events that come faster than one holder takes them, while another one closes. -/
def crowded : List Occurrence :=
  [.emit (.added 0 "Nora" {}) 10, .emit (.reading 0 []) 20, .emit (.removed 0 "Nora") 30,
    .act (.take 2), .act (.close 1), .emit (.added 1 "Onyx" {}) 40]

/-- The second of two subscribers wants no readings, and has room for one event, as it
asks for no size where none is the default. The second event that it wants is too
much for it, and it gets nothing more although it took the first one since. -/
theorem streams_of_run_crowded :
    let x := (opening 0 2).run [.act (.subscribe {} 3)]
    let granted := x.act (.subscribe { readings := false } 0)
    x.emitter.full = false ∧ ∃ h, (granted.run crowded).holders.get? 2 = some h ∧
      Streams granted 2 { readings := false } 0 crowded h ∧
      h.subscription.overflowed (granted.run crowded).emitter = true ∧
      (h.received (granted.run crowded).emitter).map Event.id = [1] ∧
      (granted.wanted 2 { readings := false } crowded).map Event.id = [1, 3, 4] := by
  intro x granted
  have hroom : x.emitter.full = false := rfl
  obtain ⟨h, hh, hstreams⟩ :=
    streams_of_run 0 2 [.act (.subscribe {} 3)] { readings := false } 0 crowded hroom
  have hread : (granted.run crowded).holders.get? 2 =
      some ⟨.attached 2, [⟨1, .added 0 "Nora" {}, 10⟩]⟩ := rfl
  cases hh.symm.trans hread
  exact ⟨hroom, _, hread, hstreams, by decide, by decide, by decide⟩

end Audience

end Haptics
