import Haptics.Proofs.Event.Streams
import Haptics.Proofs.Fleet.Story
import Haptics.Server.Basic
import Mathlib.Data.List.Nodup
/-!
# The chronicle of a fleet

A fleet with the emitter of its events, through any calls. Who hears the events
from the beginning on knows the devices: `replay` puts together from them what the
fleet lists, until all devices are disconnected at once. `chronicled_of_run` is the
main statement: how the events are numbered, which ones there are of each device
and in which order, what the events of one call are, and that they tell what the
fleet lists.
-/

namespace Haptics

/-! ## Listening to events -/

/-- What a listener knows of a device. -/
structure Known where
  index : Nat
  name : String
  capabilities : Capabilities
deriving DecidableEq, Repr

def DeviceInfo.known (d : DeviceInfo) : Known := ⟨d.index, d.identity.name, d.capabilities⟩

/-- What a listener makes of an event. -/
def hear (ks : List Known) : DeviceEvent → List Known
  | .added index name capabilities => ks ++ [⟨index, name, capabilities⟩]
  | .removed index _ => ks.filter fun k => k.index ≠ index
  | .reading .. => ks

/-- **What a listener knows** after some events. -/
def replay (es : List DeviceEvent) : List Known := es.foldl hear []

/-- The events about a device. -/
def about (i : Nat) (es : List DeviceEvent) : List DeviceEvent := es.filter (·.device = i)

/-- **The events of one device**: there are none before it is registered; it is
added, it reports readings, and it is removed or not. -/
inductive Life (i : Nat) : Option DeviceInfo → List DeviceEvent → Prop
  | unborn : Life i none []
  | present {d : DeviceInfo} {rss : List (List Reading)} (hrss : ∀ rs ∈ rss, rs ≠ []) :
    Life i (some d) (.added i d.identity.name d.capabilities :: rss.map (.reading i))
  /-- Nothing comes after the removal. -/
  | removed {d : DeviceInfo} {rss : List (List Reading)} (hrss : ∀ rs ∈ rss, rs ≠ [])
    (hc : d.connected = false) :
    Life i (some d) (.added i d.identity.name d.capabilities :: rss.map (.reading i) ++
      [.removed i d.identity.name])

section Life

variable {i : Nat} {d : DeviceInfo} {es : List DeviceEvent}

/-- A life begins with the addition of the device. -/
theorem Life.add (h : Life i none es) (d : DeviceInfo) :
    Life i (some d) (es ++ [.added i d.identity.name d.capabilities]) := by
  cases h
  exact @Life.present i d [] nofun

/-- Readings come while the device is connected, and so before any removal. -/
theorem Life.read (h : Life i (some d) es) (hc : d.connected = true) {rs : List Reading}
    (hrs : rs ≠ []) : Life i (some d) (es ++ [.reading i rs]) := by
  cases h with
  | @present _ rss hrss =>
    have hmap : rss.map (DeviceEvent.reading i) ++ [.reading i rs] =
        (rss ++ [rs]).map (.reading i) := by simp
    rw [List.cons_append, hmap]
    refine .present fun rs' hmem => ?_
    rcases List.mem_append.1 hmem with hmem | hmem
    · exact hrss rs' hmem
    · rw [List.mem_singleton.1 hmem]
      exact hrs
  | removed hrss hoff =>
    rw [hc] at hoff
    cases hoff

/-- A device that is removed was connected, so it had not been removed before. -/
theorem Life.remove (h : Life i (some d) es) (hc : d.connected = true) :
    Life i (some d.off) (es ++ [.removed i d.identity.name]) := by
  cases h with
  | present hrss => exact @Life.removed i d.off _ hrss rfl
  | removed hrss hoff =>
    rw [hc] at hoff
    cases hoff

/-- A device may be disconnected without an event. -/
theorem Life.off {o : Option DeviceInfo} (h : Life i o es) :
    Life i (o.map DeviceInfo.off) es := by
  cases h with
  | unborn => exact .unborn
  | @present d rss hrss => exact @Life.present i d.off rss hrss
  | @removed d rss hrss hc => exact @Life.removed i d.off rss hrss rfl

end Life

namespace Fleet

variable {L : Type} {ds ds' : List DeviceInfo} {e : DeviceEvent} {es es' : List DeviceEvent}
  {i : Nat} {d : DeviceInfo}

/-! ## Devices in their places -/

/-- Devices have their positions as their indices. -/
def Placed (ds : List DeviceInfo) : Prop := ds.map DeviceInfo.index = List.range ds.length

/-- A device carries the index under which it is found. -/
theorem Placed.index_eq (hp : Placed ds) (hd : ds[i]? = some d) : d.index = i := by
  obtain ⟨hlt, -⟩ := List.getElem?_eq_some_iff.1 hd
  have hread : (ds.map DeviceInfo.index)[i]? = some d.index := by
    rw [List.getElem?_map, hd]
    rfl
  rw [hp, List.getElem?_range hlt] at hread
  exact (Option.some.inj hread).symm

theorem Placed.off (hp : Placed ds) : Placed (ds.map DeviceInfo.off) := by
  rw [Placed, List.length_map, List.map_map, ← hp]
  rfl

/-- No event moves a device to another place: new ones are put at the end. -/
theorem Placed.tells (hp : Placed ds) (h : Tells ds e ds') : Placed ds' := by
  cases h with
  | added hindex hc =>
    rw [Placed, List.map_append, hp, List.length_append, List.length_singleton, List.range_succ,
      List.map_singleton, hindex]
  | reading hd hc hrs => exact hp
  | @removed i d hd hc =>
    rw [Placed, List.length_set, ← hp, List.map_set]
    refine List.ext_getElem? fun j => ?_
    rw [List.getElem?_set]
    split
    · rename_i hij
      subst hij
      rw [List.getElem?_map, hd]
      obtain ⟨hlt, -⟩ := List.getElem?_eq_some_iff.1 hd
      rw [if_pos (by simpa using hlt)]
      rfl
    · rfl

/-- The devices that are connected, as a listener knows them. -/
def listing (ds : List DeviceInfo) : List Known :=
  (ds.filter (·.connected)).map DeviceInfo.known

theorem listing_append (ds ds' : List DeviceInfo) :
    listing (ds ++ ds') = listing ds ++ listing ds' := by
  rw [listing, List.filter_append, List.map_append]
  rfl

theorem listing_cons (d : DeviceInfo) (ds : List DeviceInfo) :
    listing (d :: ds) = if d.connected then d.known :: listing ds else listing ds := by
  rw [listing, List.filter_cons]
  split <;> rfl

/-- **A removal takes one device off the list.** -/
theorem listing_set (hp : Placed ds) (hd : ds[i]? = some d) :
    listing (ds.set i d.off) = (listing ds).filter fun k => k.index ≠ i := by
  obtain ⟨hlt, hget⟩ := List.getElem?_eq_some_iff.1 hd
  obtain ⟨pre, post, hsplit, -, hset⟩ : ∃ pre post, ds = pre ++ ds[i] :: post ∧
    pre.length = i ∧ ds.set i d.off = pre ++ d.off :: post := List.exists_of_set hlt
  rw [hget] at hsplit
  have hindex : d.index = i := hp.index_eq hd
  -- all others have other indices
  have hnodup : (ds.map DeviceInfo.index).Nodup := hp ▸ List.nodup_range
  rw [hsplit, List.map_append, List.map_cons, List.nodup_middle, ← List.map_append,
    List.nodup_cons, hindex] at hnodup
  have hothers : ∀ k ∈ listing (pre ++ post), decide (k.index ≠ i) = true := by
    intro k hk
    obtain ⟨x, hx, rfl⟩ := List.mem_map.1 hk
    refine decide_eq_true fun heq => hnodup.1 ?_
    rw [← heq]
    exact List.mem_map_of_mem (List.mem_of_mem_filter hx)
  calc listing (ds.set i d.off)
    _ = listing (pre ++ post) := by
      rw [hset, listing_append, listing_cons, if_neg (by simp [DeviceInfo.off]), listing_append]
    _ = (listing (pre ++ post)).filter fun k => k.index ≠ i := (List.filter_eq_self.2 hothers).symm
    _ = (listing ds).filter fun k => k.index ≠ i := by
      rw [hsplit, listing_append, listing_append, listing_cons, List.filter_append,
        List.filter_append]
      split
      · rw [List.filter_cons_of_neg (by simp [DeviceInfo.known, hindex])]
      · rfl

/-- **A listener follows every event.** -/
theorem hear_listing (hp : Placed ds) (h : Tells ds e ds') : hear (listing ds) e = listing ds' := by
  cases h with
  | @added d hindex hc =>
    rw [listing_append, listing_cons, if_pos hc, hear, ← hindex]
    rfl
  | reading hd hc hrs => rfl
  | removed hd hc => exact (listing_set hp hd).symm

/-- So the devices that are connected stand in the order of their indices. -/
theorem Placed.pairwise (hp : Placed ds) :
    ((ds.filter (·.connected)).map DeviceInfo.index).Pairwise (· < ·) := by
  have hsub := (List.filter_sublist (l := ds) (p := (·.connected))).map DeviceInfo.index
  rw [hp] at hsub
  exact List.pairwise_lt_range.sublist hsub

/-! ## Stories from the beginning -/

theorem about_append (i : Nat) (es es' : List DeviceEvent) :
    about i (es ++ es') = about i es ++ about i es' := List.filter_append ..

theorem about_self (h : e.device = i) : about i [e] = [e] :=
  List.filter_cons_of_pos (decide_eq_true h)

theorem about_other (h : e.device ≠ i) : about i [e] = [] :=
  List.filter_cons_of_neg (by simpa using h)

/-- What all events so far say of the devices. -/
structure Tale (es : List DeviceEvent) (ds : List DeviceInfo) : Prop where
  placed : Placed ds
  added : es.filterMap DeviceEvent.added? = List.range ds.length
  life : ∀ i, Life i ds[i]? (about i es)

theorem tale_nil : Tale [] [] where
  placed := rfl
  added := rfl
  life _ := .unborn

/-- **One more event continues the tale.** It tells of one device, and the lives of the others go
on as they were. -/
theorem Tale.tells (ht : Tale es ds) (h : Tells ds e ds') : Tale (es ++ [e]) ds' where
  placed := ht.placed.tells h
  added := by
    rw [List.filterMap_append, ht.added]
    exact h.story.added
  life j := by
    have hlife := ht.life j
    rw [about_append]
    by_cases hj : e.device = j
    · subst hj
      rw [about_self rfl]
      cases h with
      | @added d hindex hc =>
        have hlife : Life ds.length ds[ds.length]? (about ds.length es) := hlife
        rw [List.getElem?_eq_none (Nat.le_refl _)] at hlife
        have hnew : (ds ++ [d])[ds.length]? = some d := List.getElem?_concat_length
        exact hnew ▸ hlife.add d
      | @reading i d rs hd hc hrs =>
        have hlife : Life i ds[i]? (about i es) := hlife
        rw [hd] at hlife
        exact hd ▸ hlife.read hc hrs
      | @removed i d hd hc =>
        have hlife : Life i ds[i]? (about i es) := hlife
        rw [hd] at hlife
        obtain ⟨hlt, -⟩ := List.getElem?_eq_some_iff.1 hd
        have hoff : (ds.set i d.off)[i]? = some d.off := List.getElem?_set_self hlt
        exact hoff ▸ hlife.remove hc
    · rw [about_other hj, List.append_nil, h.getElem?_other hj]
      exact hlife

/-- So does a whole story, event by event. -/
theorem Tale.story (ht : Tale es ds) (h : Story ds es' ds') : Tale (es ++ es') ds' := by
  induction h generalizing es with
  | nil ds =>
    rw [List.append_nil]
    exact ht
  | @cons ds ds' ds'' e es' hfirst _ ih =>
    have hrest := ih (ht.tells hfirst)
    rwa [List.append_assoc, List.singleton_append] at hrest

/-- All devices are disconnected, and nothing tells of it. -/
theorem Tale.off (ht : Tale es ds) : Tale es (ds.map DeviceInfo.off) where
  placed := ht.placed.off
  added := by
    rw [ht.added, List.length_map]
  life i := by
    rw [List.getElem?_map]
    exact (ht.life i).off

/-- A listener who knows the devices before a story knows them afterwards. -/
theorem hear_story (hp : Placed ds) (h : Story ds es ds') :
    es.foldl hear (listing ds) = listing ds' := by
  induction h with
  | nil ds => rfl
  | cons hfirst _ ih =>
    rw [List.foldl_cons, hear_listing hp hfirst]
    exact ih (hp.tells hfirst)

variable [Link L] {f : Fleet L}

/-- **What a call tells continues the tale**, also if it disconnects all devices and tells
nothing. -/
theorem Tale.after (ht : Tale es f.infos) (c : Call L) :
    Tale (es ++ f.told c) (f.after c).infos := by
  by_cases hc : c = .disconnectAll
  · rw [hc, told_disconnectAll, List.append_nil, Fleet.after, infos_disconnectAll]
    exact ht.off
  · exact ht.story (story_after f hc)

/-! ## The events of one call -/

/-- **The events of one call**: one for every device that it registers, and one for
every device that it removes. -/
structure Announced (f : Fleet L) (c : Call L) : Prop where
  /-- The devices that are added take the next indices. -/
  added : List.range f.devices.length ++ (f.told c).filterMap DeviceEvent.added? =
    List.range (f.after c).devices.length
  /-- A device that was connected and is so no longer is removed, by one event. -/
  removed : c ≠ .disconnectAll → ∀ i d, f.info? i = some d →
    (f.told c).filter (·.removes i) =
      if d.connected = true ∧ (f.after c).connected i = false then [.removed i d.identity.name]
      else []
  /-- A registration that creates a device tells of it, and any other of nothing. -/
  registered : ∀ i services link, c = .register i services link →
    (∃ capabilities, (f.register i services link).answer = .created f.devices.length ∧
        f.told c = [.added f.devices.length i.name capabilities]) ∨
      (∀ index, (f.register i services link).answer ≠ .created index) ∧ f.told c = []
  /-- The loss of a device is told once. -/
  unregistered : ∀ i, c = .unregister i →
    (∃ index name, (f.unregister i).answer = true ∧ f.told c = [.removed index name]) ∨
      (f.unregister i).answer = false ∧ f.told c = []
  quiet : c = .disconnectAll → f.told c = []

omit [Link L] in
theorem connected_eq (hd : f.infos[i]? = some d) : f.connected i = d.connected := by
  rw [infos, List.getElem?_map, Option.map_eq_some_iff] at hd
  obtain ⟨d', hd', rfl⟩ := hd
  rw [connected, hd']
  rfl

/-- **Every call announces what it adds and what it removes.** -/
theorem announced (f : Fleet L) (c : Call L) : f.Announced c where
  added := by
    rw [← length_infos, ← length_infos]
    by_cases hc : c = .disconnectAll
    · rw [hc, told_disconnectAll, Fleet.after, infos_disconnectAll, List.length_map]
      exact List.append_nil _
    · exact (story_after f hc).added
  removed hc i d hd := by
    rw [info?_eq] at hd
    obtain ⟨d', hd', -, hfilter⟩ := (story_after f hc).removes hd
    rw [hfilter, connected_eq hd']
  registered i services link hc := by
    rw [hc, told, trace]
    rcases register_cases f i services link with
      ⟨-, htrace, hanswer⟩ | ⟨p, id, -, -, htrace, hanswer⟩
    · rw [htrace]
      exact Or.inr ⟨hanswer, rfl⟩
    · rw [htrace]
      exact Or.inl ⟨p.capabilities, hanswer, rfl⟩
  unregistered i hc := by
    rw [hc, told, trace]
    rcases unregister_cases f i with ⟨-, htrace, hanswer⟩ | ⟨index, d, -, -, -, htrace, hanswer⟩
    · rw [htrace]
      exact Or.inr ⟨hanswer, rfl⟩
    · rw [htrace, emittedIn_remove]
      exact Or.inl ⟨index, _, hanswer, rfl⟩
  quiet hc := by
    rw [hc, told_disconnectAll]

end Fleet

/-! ## Broadcasts -/

/-- A fleet with the emitter of its events, and those who hear them. -/
structure Broadcast (L : Type) where
  fleet : Fleet L
  audience : Audience

namespace Broadcast

variable {L : Type} [Link L]

/-- What happens to a fleet and to the subscriptions to its events. -/
inductive Move (L : Type)
  /-- A call, with the times at which its events are emitted. -/
  | call (c : Fleet.Call L) (now : DeviceEvent → Int)
  | act (a : Audience.Act)

/-- Emits some events. -/
def emits (es : List DeviceEvent) (now : DeviceEvent → Int) : List Audience.Occurrence :=
  es.map fun e => .emit e (now e)

def step (x : Broadcast L) : Move L → Broadcast L
  | .call c now =>
    { fleet := x.fleet.after c, audience := x.audience.run (emits (x.fleet.told c) now) }
  | .act a => { x with audience := x.audience.act a }

def run (x : Broadcast L) (ms : List (Move L)) : Broadcast L := ms.foldl step x

/-- A fleet without devices, and an emitter to which nothing has happened. -/
def opening (b : Rulebook) (defaultQueueSize maxSubscribers : Nat) : Broadcast L :=
  { fleet := { rulebook := b }, audience := .opening defaultQueueSize maxSubscribers }

/-- What was told of the fleet so far. -/
def told (x : Broadcast L) : List DeviceEvent := x.audience.emitted.map Event.body

variable {x : Broadcast L} {ms : List (Move L)}

/-! ## Servers -/

omit [Link L] in
/-- Where nobody sits, nobody listens. -/
theorem listenAll_eq {s : Server L} (hseats : s.seats.entries = []) : s.listenAll = s := by
  rw [Server.listenAll, hseats]
  rfl

omit [Link L] in
/-- A server with nobody at its seats tells of its fleet as a broadcast does. -/
theorem emitter_publish {s : Server L} {x : Audience} (hseats : s.seats.entries = [])
    (hemitter : s.emitter = some x.emitter) (hs : List Happening) :
    (s.publish hs).emitter = some (x.run (emits (Fleet.emittedIn hs) fun _ => 0)).emitter := by
  induction hs generalizing s x with
  | nil => exact hemitter
  | cons h hs ih =>
    cases h with
    | traffic id t => exact ih (s := s.note [.happened (.traffic id t)]) hseats hemitter
    | emitted e =>
      have hone : s.publishOne (.emitted e) =
          { s.note [.happened (.emitted e)] with emitter := s.emitter.map (·.emit e 0) } :=
        listenAll_eq hseats
      refine ih (s := s.publishOne (.emitted e)) (x := x.step (.emit e 0)) ?_ ?_
      · rw [hone]
        exact hseats
      · rw [hone, hemitter]
        rfl

/-! ## Runs -/

theorem body_news (n : Nat) (es : List DeviceEvent) (now : DeviceEvent → Int) :
    (Audience.news n (emits es now)).map Event.body = es := by
  induction es generalizing n with
  | nil => rfl
  | cons e es ih => exact congrArg (e :: ·) (ih (n + 1))

/-- A call tells its events after all that was told before. -/
theorem told_call (x : Broadcast L) (c : Fleet.Call L) (now : DeviceEvent → Int) :
    (x.step (.call c now)).told = x.told ++ x.fleet.told c := by
  rw [told, step, Audience.emitted_run, List.map_append, body_news]
  rfl

theorem told_act (x : Broadcast L) (a : Audience.Act) : (x.step (.act a)).told = x.told := by
  rw [told, step, (Audience.act_eq x.audience a).2.2]
  rfl

/-- What a run is to the audience. -/
def occurrences (f : Fleet L) : List (Move L) → List Audience.Occurrence
  | [] => []
  | .call c now :: ms => emits (f.told c) now ++ occurrences (f.after c) ms
  | .act a :: ms => .act a :: occurrences f ms

/-- The audience of a run meets the events of its calls and the acts of its holders, in their
order. -/
theorem audience_run (x : Broadcast L) (ms : List (Move L)) :
    (x.run ms).audience = x.audience.run (occurrences x.fleet ms) := by
  induction ms generalizing x with
  | nil => rfl
  | cons m ms ih =>
    cases m with
    | call c now => exact (ih (x.step (.call c now))).trans List.foldl_append.symm
    | act a => exact ih (x.step (.act a))

/-- Holders do what they do in the run itself, and nothing else. -/
theorem act_mem_occurrences {f : Fleet L} {a : Audience.Act} :
    .act a ∈ occurrences f ms ↔ .act a ∈ ms := by
  induction ms generalizing f with
  | nil => simp [occurrences]
  | cons m ms ih =>
    cases m with
    | call c now => simp [occurrences, emits, ih]
    | act a' => simp [occurrences, ih]

/-- **What was told is the tale of the fleet** at the end of every run. -/
theorem tale_run (ht : Fleet.Tale x.told x.fleet.infos) (ms : List (Move L)) :
    Fleet.Tale (x.run ms).told (x.run ms).fleet.infos := by
  induction ms generalizing x with
  | nil => exact ht
  | cons m ms ih =>
    refine ih (x := x.step m) ?_
    cases m with
    | call c now =>
      rw [told_call]
      exact ht.after c
    | act a =>
      rw [told_act]
      exact ht

/-- **Who hears all events knows the list**, as long as the devices are not
disconnected at once. -/
theorem replay_run (ht : Fleet.Tale x.told x.fleet.infos)
    (hlisted : replay x.told = Fleet.listing x.fleet.infos)
    (hms : ∀ now, .call .disconnectAll now ∉ ms) :
    replay (x.run ms).told = Fleet.listing (x.run ms).fleet.infos := by
  induction ms generalizing x with
  | nil => exact hlisted
  | cons m ms ih =>
    have hms' : ∀ now, .call .disconnectAll now ∉ ms :=
      fun now hmem => hms now (List.mem_cons_of_mem m hmem)
    cases m with
    | call c now =>
      have hc : c ≠ .disconnectAll := by
        rintro rfl
        exact hms now List.mem_cons_self
      refine ih (x := x.step (.call c now)) ?_ ?_ hms'
      · rw [told_call]
        exact ht.after c
      · have hheard : x.told.foldl hear [] = Fleet.listing x.fleet.infos := hlisted
        rw [told_call, replay, List.foldl_append, hheard]
        exact Fleet.hear_story ht.placed (Fleet.story_after x.fleet hc)
    | act a =>
      refine ih (x := x.step (.act a)) ?_ ?_ hms'
      · rw [told_act]
        exact ht
      · rw [told_act]
        exact hlisted

/-- **What the events tell of a fleet** after some moves. -/
structure Chronicled (ms : List (Move L)) (x : Broadcast L) : Prop where
  /-- The events are numbered from 1. -/
  numbered : x.audience.emitted.map Event.id = List.range' 1 x.audience.emitted.length
  /-- Devices are added in the order of their indices. -/
  added : x.told.filterMap DeviceEvent.added? = List.range x.fleet.devices.length
  life : ∀ i, Life i (x.fleet.info? i) (about i x.told)
  /-- What any call tells next. -/
  announced : ∀ c, x.fleet.Announced c
  /-- The events tell what the fleet lists. -/
  replay_eq : (∀ now, .call .disconnectAll now ∉ ms) →
    replay x.told = x.fleet.list.map DeviceInfo.known
  /-- The fleet lists devices by their indices. -/
  ascending : (x.fleet.list.map DeviceInfo.index).Pairwise (· < ·)
  /-- Who subscribed before anything else, and has room for all events, gets them all. -/
  heard : ∀ size later, ms = .act (.subscribe {} size) :: later →
    .act (.close 1) ∉ later → .act (.leave 1) ∉ later → x.audience.emitted.length ≤ size →
      ∃ h, x.audience.holders.get? 1 = some h ∧
        h.received x.audience.emitter = x.audience.emitted

/-- **The events of a fleet are its history**, whatever is asked of it and whatever
its links do. -/
theorem chronicled_of_run (b : Rulebook) (defaultQueueSize maxSubscribers : Nat)
    (ms : List (Move L)) :
    Chronicled ms ((opening b defaultQueueSize maxSubscribers).run ms) := by
  have hbegin : Fleet.Tale (opening b defaultQueueSize maxSubscribers : Broadcast L).told
    (opening b defaultQueueSize maxSubscribers : Broadcast L).fleet.infos := Fleet.tale_nil
  have htale := tale_run hbegin ms
  refine ⟨?_, ?_, fun i => ?_, Fleet.announced _, fun hms => ?_, ?_, fun size later hms => ?_⟩
  · rw [audience_run, Audience.emitted_run]
    exact Audience.ids_news 1 _
  · rw [← Fleet.length_infos]
    exact htale.added
  · rw [Fleet.info?_eq]
    exact htale.life i
  · rw [Fleet.list_eq]
    exact replay_run hbegin rfl hms
  · rw [Fleet.list_eq]
    exact htale.placed.pairwise
  · subst hms
    intro hclose hleave hroom
    exact Audience.received_first (audience_run ..) (mt act_mem_occurrences.1 hclose)
      (mt act_mem_occurrences.1 hleave) hroom

/-- A device that is lost and found again is a new one to those who listen. -/
example :
    let found : Fleet.Call SimulatedLink := .register ⟨"sim", "A", "LVS-Nora"⟩ [] (some 0)
    let lost : Fleet.Call SimulatedLink := .unregister ⟨"sim", "A", "LVS-Nora"⟩
    let x := (opening .builtin 0 0).run
      ([.addLink { device := {} }, found, found, lost, found].map (.call · fun _ => 0))
    x.told.map DeviceEvent.device = [0, 0, 1] ∧ (replay x.told).map Known.index = [1] := by
  decide

end Broadcast

end Haptics
