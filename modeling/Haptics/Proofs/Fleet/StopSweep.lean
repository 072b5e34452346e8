import Haptics.Link.Simulated
import Haptics.Proofs.Fleet.Call
/-!
# Stop sweeps

What a sweep comes to is known before it begins: it is the sum of what it comes
to for each of its targets alone, since the targets have links of their own.
`Online.trace` is that for one target: all stop writes are handed to its link,
and it is removed if one was refused and the link is out of reach after them.
`sweep_online` adds the targets up. `sweeps_of_reached` is the main statement: a
sweep attempts the connected devices that are wanted, in order, accounts for
each of them, leaves the others alone, and silences every one that it counts as
stopped.
-/

namespace Haptics

/-! ## Targets -/

/-- A connected device of a fleet, with its link. -/
structure Online (L : Type) where
  index : Nat
  device : Device
  id : LinkId
  link : L

namespace Online

variable {L : Type} [Link L]

/-- The writes that stop the device. -/
def frames (o : Online L) : List Write := o.device.protocol.stopFrames

/-- What the link makes of each of the stop writes. -/
def answers (o : Online L) : List Bool := (handOver o.link o.frames).1

/-- The link after the stop writes. -/
def after (o : Online L) : L := (handOver o.link o.frames).2

/-- Whether the link refuses a stop write. -/
def refused (o : Online L) : Bool := false ∈ o.answers

/-- Whether the device is removed: a write is refused, and the link is out of
reach after all of them. -/
def lost (o : Online L) : Bool := o.refused && !Link.reachable o.after

/-- The event that says that the device is removed. -/
def removal (o : Online L) : DeviceEvent := .removed o.index o.device.identity.name

/-- All that happens when the device is stopped. -/
def trace (o : Online L) : List Happening :=
  (writes o.frames o.answers).map (.traffic o.id) ++
    if o.lost then [.traffic o.id .disconnected, .emitted o.removal] else []

end Online

/-- What the stops of some targets add to a report. -/
structure StopReport.Adds {L : Type} [Link L] (r r' : StopReport) (os : List (Online L)) :
    Prop where
  attempted : r'.attempted = r.attempted + os.length
  succeeded : r'.succeeded = r.succeeded + os.countP fun o => !o.refused
  failures : ∃ fs, r'.failures = r.failures ++ fs ∧
    fs.map StopFailure.index = (os.filter Online.refused).map Online.index ∧
    ∀ x ∈ fs, x.fault.code = .transportError

theorem StopReport.Adds.nil {L : Type} [Link L] (r : StopReport) :
    r.Adds r ([] : List (Online L)) :=
  ⟨rfl, rfl, [], (List.append_nil _).symm, rfl, fun _ hx => absurd hx List.not_mem_nil⟩

theorem StopReport.Adds.cons {L : Type} [Link L] {r r' r'' : StopReport} {o : Online L}
    {os : List (Online L)} (h₁ : r.Adds r' [o]) (h₂ : r'.Adds r'' os) : r.Adds r'' (o :: os) := by
  obtain ⟨fs₁, heq₁, hidx₁, hcode₁⟩ := h₁.failures
  obtain ⟨fs₂, heq₂, hidx₂, hcode₂⟩ := h₂.failures
  refine ⟨?_, ?_, fs₁ ++ fs₂, ?_, ?_, fun x hx => ?_⟩
  · rw [h₂.attempted, h₁.attempted, List.length_singleton, List.length_cons]
    omega
  · rw [h₂.succeeded, h₁.succeeded, List.countP_cons, List.countP_cons, List.countP_nil]
    omega
  · rw [heq₂, heq₁, List.append_assoc]
  · rw [List.map_append, hidx₁, hidx₂, ← List.map_append, ← List.filter_append]
    rfl
  · rcases List.mem_append.1 hx with hx | hx
    · exact hcode₁ x hx
    · exact hcode₂ x hx

namespace Fleet

variable {L : Type} {f g h : Fleet L} {o : Online L} {os : List (Online L)}

/-! ## Connected devices -/

/-- The fleet has the device and its link. -/
structure Holds (f : Fleet L) (o : Online L) : Prop where
  device : f.devices[o.index]? = some o.device
  connected : o.device.connected = true
  id : o.device.link = some o.id
  link : f.links[o.id]? = some o.link

/-- Connected devices of a sound fleet have their links. -/
theorem exists_online (hs : f.Sound) {is : List Nat}
    (his : ∀ i ∈ is, ∃ d, f.devices[i]? = some d ∧ d.connected = true) :
    ∃ os : List (Online L), os.map Online.index = is ∧ ∀ o ∈ os, f.Holds o := by
  induction is with
  | nil => exact ⟨[], rfl, fun _ ho => absurd ho List.not_mem_nil⟩
  | cons i is ih =>
    obtain ⟨os, hos, hholds⟩ := ih fun j hj => his j (List.mem_cons_of_mem i hj)
    obtain ⟨d, hd, hc⟩ := his i List.mem_cons_self
    obtain ⟨id, hlt, hl⟩ := hs.linked hd hc
    refine ⟨⟨i, d, id, f.links[id]⟩ :: os, by rw [List.map_cons, hos], fun o ho => ?_⟩
    rcases List.mem_cons.1 ho with rfl | ho
    · exact ⟨hd, hc, hl, List.getElem?_eq_getElem hlt⟩
    · exact hholds o ho

/-- Devices have links of their own. -/
def LinksApart (f : Fleet L) : Prop := (f.devices.filterMap Device.link).Nodup

instance (f : Fleet L) : Decidable f.LinksApart :=
  inferInstanceAs (Decidable (f.devices.filterMap Device.link).Nodup)

/-- A link belongs to one device. -/
theorem LinksApart.index_eq (ha : f.LinksApart) {i j : Nat} {d e : Device} {id : LinkId}
    (hd : f.devices[i]? = some d) (he : f.devices[j]? = some e) (hdl : d.link = some id)
    (hel : e.link = some id) : i = j := by
  have hpair := List.pairwise_iff_getElem.1 (List.pairwise_filterMap.1 ha)
  obtain ⟨hi, rfl⟩ := List.getElem?_eq_some_iff.1 hd
  obtain ⟨hj, rfl⟩ := List.getElem?_eq_some_iff.1 he
  rcases Nat.lt_trichotomy i j with hlt | heq | hlt
  · exact absurd rfl (hpair i j hi hj hlt id hdl id hel)
  · exact heq
  · exact absurd rfl (hpair j i hj hi hlt id hel id hdl)

/-- The link of a device that is no target is no target's. -/
theorem id_not_mem (ha : f.LinksApart) (hos : ∀ o ∈ os, f.Holds o) {i : Nat} {d : Device}
    {id : LinkId} (hi : i ∉ os.map Online.index) (hd : f.devices[i]? = some d)
    (hl : d.link = some id) : id ∉ os.map Online.id := by
  intro hid
  obtain ⟨o, ho, rfl⟩ := List.mem_map.1 hid
  rw [ha.index_eq hd (hos o ho).device hl (hos o ho).id] at hi
  exact hi (List.mem_map_of_mem ho)

/-- Targets have links of their own. -/
theorem nodup_ids (ha : f.LinksApart) (hos : ∀ o ∈ os, f.Holds o)
    (hindex : (os.map Online.index).Nodup) : (os.map Online.id).Nodup := by
  refine List.pairwise_map.2 ((List.pairwise_map.1 hindex).imp_of_mem ?_)
  intro o o' ho ho' hne hid
  exact hne (ha.index_eq (hos o ho).device (hos o' ho').device (hos o ho).id
    (hid ▸ (hos o' ho').id))

variable [Link L]

/-! ## What becomes of the targets and of the others -/

/-- What a sweep leaves of a target. -/
structure Halted (f g : Fleet L) (o : Online L) : Prop where
  /-- A target that is not lost stays registered. -/
  kept : o.lost = false → (∃ p, o.device.protocol.Alike p ∧
      g.devices[o.index]? = some { o.device with protocol := p }) ∧
    (∀ k, g.byKey.get? k = some o.index ↔ f.byKey.get? k = some o.index) ∧
    g.links[o.id]? = some o.after
  /-- A target that is lost is disconnected, and no key leads to it. -/
  gone : o.lost = true → (∃ p, o.device.protocol.Alike p ∧
      g.devices[o.index]? =
        some { o.device with protocol := p, connected := false, link := none }) ∧
    (∀ k, g.byKey.get? k ≠ some o.index) ∧ g.links[o.id]? = some (Link.disconnect o.after)

/-- What a sweep over some targets leaves of a fleet: of everything that belongs
to no target, what there was. -/
structure Swept (f g : Fleet L) (os : List (Online L)) : Prop where
  halted : ∀ o ∈ os, f.Halted g o
  devices : ∀ i, i ∉ os.map Online.index → g.devices[i]? = f.devices[i]?
  leads : ∀ i, i ∉ os.map Online.index →
    ∀ k, g.byKey.get? k = some i ↔ f.byKey.get? k = some i
  links : ∀ id, id ∉ os.map Online.id → g.links[id]? = f.links[id]?

theorem Swept.nil (f : Fleet L) : f.Swept f [] where
  halted _ ho := absurd ho List.not_mem_nil
  devices _ _ := rfl
  leads _ _ _ := Iff.rfl
  links _ _ := rfl

/-- **A target that comes later is as it was** when its turn comes. -/
theorem Swept.holds (hs : f.Swept g os) (ho : f.Holds o) (hindex : o.index ∉ os.map Online.index)
    (hid : o.id ∉ os.map Online.id) : g.Holds o :=
  ⟨(hs.devices _ hindex).trans ho.device, ho.connected, ho.id, (hs.links _ hid).trans ho.link⟩

/-- What became of one target is not touched by a sweep over others. -/
theorem Halted.of_swept (hh : f.Halted g o) (hs : g.Swept h os)
    (hindex : o.index ∉ os.map Online.index) (hid : o.id ∉ os.map Online.id) :
    f.Halted h o where
  kept hlost := by
    obtain ⟨⟨p, hp, hd⟩, hkeys, hlink⟩ := hh.kept hlost
    refine ⟨⟨p, hp, (hs.devices _ hindex).trans hd⟩, fun k => ?_, (hs.links _ hid).trans hlink⟩
    exact (hs.leads _ hindex k).trans (hkeys k)
  gone hlost := by
    obtain ⟨⟨p, hp, hd⟩, hkeys, hlink⟩ := hh.gone hlost
    refine ⟨⟨p, hp, (hs.devices _ hindex).trans hd⟩, fun k hk => ?_, (hs.links _ hid).trans hlink⟩
    exact hkeys k ((hs.leads _ hindex k).1 hk)

/-- A target at whose turn the fleet is `g` was in `f` already. -/
theorem Halted.before (hh : g.Halted h o) (hs : f.Swept g os)
    (hindex : o.index ∉ os.map Online.index) : f.Halted h o where
  kept hlost := by
    obtain ⟨hdev, hkeys, hlink⟩ := hh.kept hlost
    exact ⟨hdev, fun k => (hkeys k).trans (hs.leads _ hindex k), hlink⟩
  gone := hh.gone

/-- One target, and then others. -/
theorem Swept.cons (h₁ : f.Swept g [o]) (h₂ : g.Swept h os)
    (hindex : o.index ∉ os.map Online.index) (hid : o.id ∉ os.map Online.id) :
    f.Swept h (o :: os) where
  halted o' ho' := by
    rcases List.mem_cons.1 ho' with rfl | ho'
    · exact (h₁.halted o' List.mem_cons_self).of_swept h₂ hindex hid
    · refine (h₂.halted o' ho').before h₁ fun hmem => ?_
      have heq := List.mem_singleton.1 hmem
      exact hindex (heq ▸ List.mem_map_of_mem ho')
  devices i hi := by
    simp only [List.map_cons, List.mem_cons, not_or] at hi
    rw [h₂.devices i hi.2, h₁.devices i (by simpa using hi.1)]
  leads i hi k := by
    simp only [List.map_cons, List.mem_cons, not_or] at hi
    rw [h₂.leads i hi.2, h₁.leads i (by simpa using hi.1)]
  links id hid' := by
    simp only [List.map_cons, List.mem_cons, not_or] at hid'
    rw [h₂.links id hid'.2, h₁.links id (by simpa using hid'.1)]

/-! ## One target -/

/-- The device of a target after its stop, and what is left of its link. -/
theorem Holds.stop (ho : f.Holds o) :
    (∃ p, o.device.protocol.Alike p ∧
        (o.device.stop f.links).device = { o.device with protocol := p }) ∧
      (o.device.stop f.links).links = f.links.set o.id o.after ∧
      (o.device.stop f.links).traffic = writes o.frames o.answers ∧
      ((o.device.stop f.links).answer = none ↔ o.refused = false) ∧
      (∀ e, (o.device.stop f.links).answer = some e → e.code = .transportError) ∧
      (o.device.stop f.links).device.reachable (o.device.stop f.links).links =
        Link.reachable o.after := by
  obtain ⟨hlinks, htraffic, hnone, hcode⟩ := Device.stop_online ho.connected ho.id ho.link
  obtain ⟨p, hp, hdev⟩ := (o.device.touched_stop f.links).device
  refine ⟨⟨p, hp, hdev⟩, hlinks, htraffic, ?_, hcode, ?_⟩
  · rw [hnone, Online.refused, decide_eq_false_iff_not]
    rfl
  · obtain ⟨hlt, -⟩ := List.getElem?_eq_some_iff.1 ho.link
    rw [hdev, hlinks, Device.reachable, ho.id]
    simp only [List.getElem?_set_self hlt, Option.any_some]
    rfl

/-- A target that is not lost, after its stop. -/
theorem Holds.swept_kept (ho : f.Holds o) (hlost : o.lost = false) :
    f.Swept (f.absorb o.index (o.device.stop f.links)) [o] := by
  obtain ⟨⟨p, hp, hdev⟩, hlinks, -⟩ := ho.stop
  obtain ⟨hlt, -⟩ := List.getElem?_eq_some_iff.1 ho.link
  have hlinks' : (f.absorb o.index (o.device.stop f.links)).links = f.links.set o.id o.after :=
    hlinks
  refine ⟨fun o' ho' => ?_, fun i hi => ?_, fun i hi k => Iff.rfl, fun id hid => ?_⟩
  · rw [List.mem_singleton.1 ho']
    refine ⟨fun _ => ⟨⟨p, hp, ?_⟩, fun k => Iff.rfl, ?_⟩, fun h => absurd (hlost.symm.trans h) ?_⟩
    · rw [getElem?_absorb ho.device, if_pos rfl, hdev]
    · rw [hlinks', List.getElem?_set_self hlt]
    · exact Bool.false_ne_true
  · rw [getElem?_absorb ho.device, if_neg (by simpa using hi)]
  · rw [hlinks', List.getElem?_set_ne (by simpa using Ne.symm (by simpa using hid))]

/-- A target that is lost, after its stop and its removal. -/
theorem Holds.swept_gone (hs : f.Sound) (ho : f.Holds o) (hlost : o.lost = true) :
    f.Swept ((f.absorb o.index (o.device.stop f.links)).remove o.index
      (o.device.stop f.links).device).fleet [o] := by
  obtain ⟨⟨p, hp, hdev⟩, hlinks, -⟩ := ho.stop
  obtain ⟨hlt, -⟩ := List.getElem?_eq_some_iff.1 ho.link
  have hlink : (o.device.stop f.links).device.link = some o.id := by
    rw [hdev]
    exact ho.id
  have hd : (f.absorb o.index (o.device.stop f.links)).devices[o.index]? =
      some (o.device.stop f.links).device := by
    rw [getElem?_absorb ho.device, if_pos rfl]
  -- the keys are those of before the stop, so the only one that leads here is the device's own
  have hkey : ∀ k, (f.absorb o.index (o.device.stop f.links)).byKey.get? k = some o.index →
      (o.device.stop f.links).device.identity.key = k := by
    intro k hk
    have hown := hs.key_eq ho.device hk
    rw [hdev]
    exact hown
  have hlinks' : ((f.absorb o.index (o.device.stop f.links)).remove o.index
      (o.device.stop f.links).device).fleet.links =
      (f.links.set o.id o.after).modify o.id Link.disconnect := by
    rw [← hlinks]
    exact Device.links_disconnect hlink _
  refine ⟨fun o' ho' => ?_, fun i hi => ?_, fun i hi k => ?_, fun id hid => ?_⟩
  · rw [List.mem_singleton.1 ho']
    refine ⟨fun h => absurd (h.symm.trans hlost) Bool.false_ne_true, fun _ => ⟨⟨p, hp, ?_⟩, ?_, ?_⟩⟩
    · rw [getElem?_remove hd, if_pos rfl, hdev]
      rfl
    · intro k hk
      exact ((get?_byKey_remove hkey o.index).1 hk).2 rfl
    · rw [hlinks', List.getElem?_modify_eq, List.getElem?_set_self hlt]
      rfl
  · have hne : i ≠ o.index := by simpa using hi
    rw [getElem?_remove hd, if_neg hne, getElem?_absorb ho.device, if_neg hne]
  · have hne : i ≠ o.index := by simpa using hi
    rw [get?_byKey_remove hkey]
    exact and_iff_left hne
  · have hne : o.id ≠ id := fun h => hid (by simp [h])
    rw [hlinks', List.getElem?_modify_ne _ _ hne, List.getElem?_set_ne hne]

/-- A refused stop adds a failure to the report. -/
theorem Holds.adds_refused (ho : f.Holds o) {e : Fault}
    (hans : (o.device.stop f.links).answer = some e) (r : StopReport) :
    o.refused = true ∧
      r.Adds { r with
        attempted := r.attempted + 1
        failures := r.failures ++ [⟨o.index, o.device.identity.name, e⟩] } [o] := by
  obtain ⟨-, -, -, hnone, hcode, -⟩ := ho.stop
  have hrefused : o.refused = true := by
    rw [← Bool.not_eq_false, ← hnone, hans]
    exact Option.some_ne_none e
  refine ⟨hrefused, rfl, ?_, _, rfl, ?_, fun x hx => ?_⟩
  · simp [hrefused]
  · simp [hrefused]
  · rw [List.mem_singleton.1 hx]
    exact hcode e hans

/-- The sweep finds a device lost exactly if it is. -/
theorem Holds.lost_iff (ho : f.Holds o) {e : Fault}
    (hans : (o.device.stop f.links).answer = some e) (hrefused : o.refused = true) :
    (e.code = .transportError ∧
      ¬ (o.device.stop f.links).device.reachable
        (f.absorb o.index (o.device.stop f.links)).links = true) ↔ o.lost = true := by
  obtain ⟨-, -, -, -, hcode, hreach⟩ := ho.stop
  have hreach' : (o.device.stop f.links).device.reachable
      (f.absorb o.index (o.device.stop f.links)).links = Link.reachable o.after := hreach
  rw [hreach', Online.lost, hrefused, Bool.true_and, Bool.not_eq_true']
  simp [hcode e hans]

/-- **What a sweep does to one target.** -/
theorem stopOne_online (hs : f.Sound) (ho : f.Holds o) (r : StopReport) :
    r.Adds (f.stopOne r o.index).answer [o] ∧ (f.stopOne r o.index).trace = o.trace ∧
      f.Swept (f.stopOne r o.index).fleet [o] := by
  obtain ⟨⟨p, -, hdev⟩, -, htraffic, hnone, -⟩ := ho.stop
  rw [stopOne, ho.device]
  simp only [ho.connected, Bool.not_true, Bool.false_eq_true, if_false]
  split
  · -- the stop is accepted
    rename_i hans
    have hrefused := hnone.1 hans
    have hlost : o.lost = false := by rw [Online.lost, hrefused, Bool.false_and]
    refine ⟨⟨rfl, ?_, [], (List.append_nil _).symm, ?_, fun x hx => ?_⟩, ?_, ho.swept_kept hlost⟩
    · simp [hrefused]
    · simp [hrefused]
    · exact absurd hx List.not_mem_nil
    · rw [Online.trace, hlost, ho.id, htraffic]
      simp [happenings]
  · rename_i e hans
    split
    · -- it is refused, and the device is lost
      rename_i h
      obtain ⟨hrefused, hadds⟩ := ho.adds_refused hans r
      have hlost := (ho.lost_iff hans hrefused).1 h
      refine ⟨hadds, ?_, ho.swept_gone hs hlost⟩
      rw [Online.trace, hlost, ho.id, htraffic, hdev]
      simp [remove, Device.disconnect, happenings, ho.id, Online.removal]
    · -- it is refused, and the device is kept
      rename_i h
      obtain ⟨hrefused, hadds⟩ := ho.adds_refused hans r
      have hlost : o.lost = false := by
        rw [← Bool.not_eq_true]
        exact fun hlost => h ((ho.lost_iff hans hrefused).2 hlost)
      refine ⟨hadds, ?_, ho.swept_kept hlost⟩
      rw [Online.trace, hlost, ho.id, htraffic]
      simp [happenings]

/-- **A sweep over several targets** comes to what it comes to for each. -/
theorem sweep_online (hs : f.Sound) (hos : ∀ o ∈ os, f.Holds o)
    (hindex : (os.map Online.index).Nodup) (hid : (os.map Online.id).Nodup) (r : StopReport) :
    r.Adds (f.sweep r (os.map Online.index)).answer os ∧
      (f.sweep r (os.map Online.index)).trace = os.flatMap Online.trace ∧
      f.Swept (f.sweep r (os.map Online.index)).fleet os := by
  induction os generalizing f r with
  | nil => exact ⟨StopReport.Adds.nil r, rfl, Swept.nil f⟩
  | cons o os ih =>
    rw [List.map_cons, List.nodup_cons] at hindex hid
    obtain ⟨hadds, htrace, hswept⟩ := stopOne_online hs (hos o List.mem_cons_self) r
    have hs' := (updates_stopOne f r o.index).sound hs
    have hos' : ∀ o' ∈ os, (f.stopOne r o.index).fleet.Holds o' := by
      intro o' ho'
      have hne : o'.index ≠ o.index := fun h => hindex.1 (h ▸ List.mem_map_of_mem ho')
      have hne' : o'.id ≠ o.id := fun h => hid.1 (h ▸ List.mem_map_of_mem ho')
      exact hswept.holds (hos o' (List.mem_cons_of_mem o ho')) (by simpa using hne)
        (by simpa using hne')
    obtain ⟨hadds', htrace', hswept'⟩ :=
      ih hs' hos' hindex.2 hid.2 (f.stopOne r o.index).answer
    refine ⟨hadds.cons hadds', ?_, hswept.cons hswept' hindex.1 hid.1⟩
    rw [List.map_cons, sweep, List.flatMap_cons, ← htrace, ← htrace']

/-! ## What happens on one link, and which events there are -/

/-- The traffic on one link. -/
def trafficOn (id : LinkId) (hs : List Happening) : List Traffic :=
  hs.filterMap fun
    | .traffic j t => if j = id then some t else none
    | .emitted _ => none

/-- The events that are emitted. -/
def emittedIn (hs : List Happening) : List DeviceEvent :=
  hs.filterMap fun
    | .traffic _ _ => none
    | .emitted e => some e

theorem trafficOn_append (id : LinkId) (hs hs' : List Happening) :
    trafficOn id (hs ++ hs') = trafficOn id hs ++ trafficOn id hs' := List.filterMap_append

theorem emittedIn_append (hs hs' : List Happening) :
    emittedIn (hs ++ hs') = emittedIn hs ++ emittedIn hs' := List.filterMap_append

theorem trafficOn_map_self (id : LinkId) (ts : List Traffic) :
    trafficOn id (ts.map (.traffic id)) = ts := by
  induction ts with
  | nil => rfl
  | cons t ts ih =>
    rw [List.map_cons, trafficOn, List.filterMap_cons]
    simp only [if_true]
    exact congrArg (t :: ·) ih

theorem trafficOn_map_ne {id id' : LinkId} (hne : id' ≠ id) (ts : List Traffic) :
    trafficOn id (ts.map (.traffic id')) = [] := by
  induction ts with
  | nil => rfl
  | cons t ts ih =>
    rw [List.map_cons, trafficOn, List.filterMap_cons]
    simp only [if_neg hne]
    exact ih

theorem emittedIn_map (id : LinkId) (ts : List Traffic) :
    emittedIn (ts.map (.traffic id)) = [] := by
  induction ts with
  | nil => rfl
  | cons t ts ih => exact ih

/-- What happens on the link of a target: the stop writes, and the end of the
connection if the target is lost. -/
theorem trafficOn_trace (o : Online L) :
    trafficOn o.id o.trace =
      writes o.frames o.answers ++ if o.lost then [.disconnected] else [] := by
  rw [Online.trace, trafficOn_append, trafficOn_map_self]
  split
  · simp [trafficOn]
  · rfl

theorem trafficOn_trace_ne {id : LinkId} (hne : o.id ≠ id) : trafficOn id o.trace = [] := by
  rw [Online.trace, trafficOn_append, trafficOn_map_ne hne]
  split
  · simp [trafficOn, hne]
  · rfl

theorem emittedIn_trace (o : Online L) :
    emittedIn o.trace = if o.lost then [o.removal] else [] := by
  rw [Online.trace, emittedIn_append, emittedIn_map]
  split <;> rfl

theorem trafficOn_flatMap_of_not_mem {id : LinkId} (hid : id ∉ os.map Online.id) :
    trafficOn id (os.flatMap Online.trace) = [] := by
  induction os with
  | nil => rfl
  | cons o os ih =>
    simp only [List.map_cons, List.mem_cons, not_or] at hid
    rw [List.flatMap_cons, trafficOn_append, trafficOn_trace_ne (Ne.symm hid.1), ih hid.2]
    rfl

/-- On the link of a target nothing happens in a sweep but what happens to the
target. -/
theorem trafficOn_flatMap (hid : (os.map Online.id).Nodup) (ho : o ∈ os) :
    trafficOn o.id (os.flatMap Online.trace) = trafficOn o.id o.trace := by
  induction os with
  | nil => exact absurd ho List.not_mem_nil
  | cons o' os ih =>
    rw [List.map_cons, List.nodup_cons] at hid
    rw [List.flatMap_cons, trafficOn_append]
    rcases List.mem_cons.1 ho with rfl | ho
    · rw [trafficOn_flatMap_of_not_mem hid.1, List.append_nil]
    · have hne : o'.id ≠ o.id := fun h => hid.1 (h ▸ List.mem_map_of_mem ho)
      rw [trafficOn_trace_ne hne, ih hid.2 ho, List.nil_append]

theorem emittedIn_flatMap (os : List (Online L)) :
    emittedIn (os.flatMap Online.trace) = (os.filter Online.lost).map Online.removal := by
  induction os with
  | nil => rfl
  | cons o os ih =>
    rw [List.flatMap_cons, emittedIn_append, emittedIn_trace, ih]
    by_cases hlost : o.lost = true
    · simp [hlost]
    · simp [hlost]

/-! ## Whole sweeps -/

/-- **What a sweep of `f` over the devices that are wanted comes to**, with the
targets `os`. -/
structure Sweeps (f : Fleet L) (wanted : Nat → Prop) (out : Outcome L StopReport)
    (os : List (Online L)) : Prop where
  /-- The targets are the connected devices that are wanted. -/
  targets : ∀ i, i ∈ os.map Online.index ↔
    wanted i ∧ ∃ d, f.devices[i]? = some d ∧ d.connected = true
  holds : ∀ o ∈ os, f.Holds o
  /-- They are stopped in the order of their indices, and nothing else happens. -/
  ascending : (os.map Online.index).Pairwise (· < ·)
  trace : out.trace = os.flatMap Online.trace
  /-- Every stop write of a target is handed to its link, in order. -/
  handed : ∀ o ∈ os, handed (trafficOn o.id out.trace) = o.device.protocol.stopFrames
  /-- The report accounts for each target. -/
  attempted : out.answer.attempted = os.length
  accounted : out.answer.attempted = out.answer.succeeded + out.answer.failures.length
  failures : out.answer.failures.map StopFailure.index =
    (os.filter Online.refused).map Online.index
  faults : ∀ x ∈ out.answer.failures, x.fault.code = .transportError
  /-- The targets that are lost are removed, with one event for each. -/
  swept : f.Swept out.fleet os
  removals : emittedIn out.trace = (os.filter Online.lost).map Online.removal
  /-- Nothing happens on the link of any other device. -/
  untouched : ∀ {i : Nat} {d : Device} {id : LinkId}, i ∉ os.map Online.index →
    f.devices[i]? = some d → d.link = some id →
    out.fleet.links[id]? = f.links[id]? ∧ trafficOn id out.trace = []
  /-- **Every target that is not among the failures is silent**, whatever it did
  before. -/
  silent : ∀ o ∈ os, o.index ∉ out.answer.failures.map StopFailure.index → ∀ h : Hardware,
    (h.hearAll o.device.protocol.vendor (accepted (trafficOn o.id out.trace))).Silent
      o.device.protocol.capabilities

/-- The link of a target that refuses no stop write accepts them all. -/
theorem accepted_trace (hrefused : o.refused = false) :
    accepted (trafficOn o.id o.trace) = o.device.protocol.stopFrames := by
  have hlost : o.lost = false := by rw [Online.lost, hrefused, Bool.false_and]
  have hok : false ∉ o.answers := of_decide_eq_false hrefused
  have hlen : o.answers.length = o.frames.length := length_handOver _ _
  rw [trafficOn_trace, hlost, accepted_append, accepted_writes hlen hok]
  exact List.append_nil _

theorem handed_trace (o : Online L) :
    handed (trafficOn o.id o.trace) = o.device.protocol.stopFrames := by
  have hlen : o.answers.length = o.frames.length := length_handOver _ _
  rw [trafficOn_trace, handed_append, handed_writes hlen]
  split <;> exact List.append_nil _

/-- A sweep over connected devices in the order of their indices. -/
theorem sweeps_of_targets (hs : f.Sound) (ha : f.LinksApart)
    (hp : ∀ {i : Nat} {d : Device}, f.devices[i]? = some d → d.protocol.Sound) {is : List Nat}
    {wanted : Nat → Prop} (hasc : is.Pairwise (· < ·))
    (hmem : ∀ i, i ∈ is ↔ wanted i ∧ ∃ d, f.devices[i]? = some d ∧ d.connected = true) :
    ∃ os, f.Sweeps wanted (f.sweep {} is) os := by
  obtain ⟨os, rfl, hos⟩ := exists_online hs fun i hi => ((hmem i).1 hi).2
  have hindex : (os.map Online.index).Nodup := hasc.imp Nat.ne_of_lt
  have hid := nodup_ids ha hos hindex
  obtain ⟨hadds, htrace, hswept⟩ := sweep_online hs hos hindex hid {}
  obtain ⟨fs, hfs, hidx, hcode⟩ := hadds.failures
  rw [List.nil_append] at hfs
  refine ⟨os, hmem, hos, hasc, htrace, fun o ho => ?_, ?_, ?_, ?_, ?_, hswept, ?_,
    fun hi hd hl => ?_, fun o ho hok h => ?_⟩
  · rw [htrace, trafficOn_flatMap hid ho, handed_trace]
  · rw [hadds.attempted, Nat.zero_add]
  · -- a target is refused or it is not
    have hsplit := List.length_eq_countP_add_countP (fun o => !Online.refused o) (l := os)
    have hlen := congrArg List.length hidx
    rw [List.length_map, List.length_map, ← List.countP_eq_length_filter] at hlen
    rw [hadds.attempted, hadds.succeeded, hfs, hlen, hsplit]
    simp
  · rw [hfs, hidx]
  · rw [hfs]
    exact hcode
  · rw [htrace, emittedIn_flatMap]
  · have hother := id_not_mem ha hos hi hd hl
    exact ⟨hswept.links _ hother, by rw [htrace, trafficOn_flatMap_of_not_mem hother]⟩
  · have hrefused : o.refused = false := by
      rw [← Bool.not_eq_true]
      intro hrefused
      rw [hfs, hidx] at hok
      exact hok (List.mem_map_of_mem (List.mem_filter.2 ⟨ho, hrefused⟩))
    rw [htrace, trafficOn_flatMap hid ho, accepted_trace hrefused]
    exact Protocol.silent_stopFrames (hp (hos o ho).device) h

variable {b : Rulebook}

/-- **Sweeps are complete.** In every fleet that can be reached with a standard
rulebook and links apart, a sweep of all devices and a sweep of some do what
`Sweeps` says, whatever the links make of any write. -/
theorem sweeps_of_reached (hb : b.Standard) (hf : Reached b f) (ha : f.LinksApart) :
    (∃ os, f.Sweeps (fun _ => True) f.stopAll os) ∧
      ∀ indices, ∃ os, f.Sweeps (· ∈ indices) (f.stopDevices indices) os := by
  refine ⟨?_, fun indices => ?_⟩
  · refine sweeps_of_targets hf.sound ha (hf.sound_protocol hb) (pairwise_connectedIndices f) ?_
    intro i
    rw [mem_connectedIndices, connected_iff, true_and]
  · refine sweeps_of_targets hf.sound ha (hf.sound_protocol hb)
      ((pairwise_connectedIndices f).filter _) fun i => ?_
    rw [among, List.mem_filter, mem_connectedIndices, connected_iff, decide_eq_true_eq, and_comm]

/-- Two devices, of which the second refuses its stop and is out of reach. -/
def pair : Fleet SimulatedLink :=
  ((({ rulebook := .builtin } : Fleet SimulatedLink).after (.addLink { device := {} })).after
    (.register ⟨"sim", "A", "LVS-Nora"⟩ [] (some 0))).after
    (.addLink { device := {}, inReach := false }) |>.after
    (.register ⟨"sim", "B", "CycSA"⟩ [] (some 1))

/-- The sweep of both removes the second. -/
theorem sweeps_pair :
    ((∃ os, pair.Sweeps (fun _ => True) pair.stopAll os) ∧
        ∀ indices, ∃ os, pair.Sweeps (· ∈ indices) (pair.stopDevices indices) os) ∧
      pair.stopAll.answer.failures.map StopFailure.index = [1] ∧
      pair.stopAll.fleet.connectedIndices = [0] :=
  ⟨sweeps_of_reached (fun _ hr => Or.inl hr)
    (.call (.call (.call (.call .start trivial) Nat.zero_lt_one) trivial) Nat.one_lt_two)
    (by decide),
    by decide, by decide⟩

end Fleet

end Haptics
