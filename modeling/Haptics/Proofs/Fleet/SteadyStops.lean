import Haptics.Proofs.Device.StopCommand
import Haptics.Proofs.Fleet.Story
import Haptics.Proofs.Protocol.Quieting
import Haptics.Session.Silence
/-!
# Stops that succeed

While no link refuses a write, stops leave a fleet as it is but for what protocols remember and
what goes on inside of links (`Fleet.Steady`). So it is known from the beginning what each stop
will write, and all that several of them come to is which devices they stopped (`Fleet.Stilled`):
neither the order of the stops matters, nor how often a device was stopped
(`Stilled.sameOutputs`). Sweeps may be taken apart and their parts mixed with each other.
-/

namespace Haptics

/-- Whether it is a write that its link refused. -/
def Happening.refused : Happening → Bool
  | .traffic _ t => t.refused
  | .emitted _ => false

/-- No link refused a write. -/
def Smooth (trace : List Happening) : Prop := ∀ e ∈ trace, e.refused = false

instance (trace : List Happening) : Decidable (Smooth trace) :=
  inferInstanceAs (Decidable (∀ e ∈ trace, e.refused = false))

theorem smooth_append {trace trace' : List Happening} :
    Smooth (trace ++ trace') ↔ Smooth trace ∧ Smooth trace' := List.forall_mem_append

/-- A refused write is found in the traffic. -/
theorem exists_refused {ws : List Write} {oks : List Bool} (hlen : oks.length = ws.length)
    (hrefused : false ∈ oks) : ∃ t ∈ writes ws oks, t.refused = true := by
  obtain ⟨i, hi, hget⟩ := List.getElem_of_mem hrefused
  have hi' : i < (writes ws oks).length := by
    rw [writes, List.length_zipWith]
    omega
  refine ⟨(writes ws oks)[i], List.getElem_mem hi', ?_⟩
  simp only [writes, List.getElem_zipWith, hget]
  rfl

/-! ## One device -/

namespace Device

variable {L : Type} [Link L] {d : Device} {links : List L}

/-- **A stop of which no write is refused** hands the stop frames to the link, if there is one.
It does not fail by the link. -/
theorem stop_smooth (hc : d.connected = true)
    (hsmooth : ∀ t ∈ (d.stop links).traffic, t.refused = false) :
    (∀ w, w ∈ accepted (d.stop links).traffic ↔
        (∃ id < links.length, d.link = some id) ∧ w ∈ d.protocol.stopFrames) ∧
      ∀ e, (d.stop links).answer = some e → e.code ≠ .transportError := by
  by_cases hlink : ∃ id < links.length, d.link = some id
  · obtain ⟨id, hlt, hl⟩ := hlink
    obtain ⟨-, htraffic, hnone, -⟩ := stop_online hc hl (List.getElem?_eq_getElem hlt)
    have hok : false ∉ (handOver links[id] d.protocol.stopFrames).1 := by
      intro hrefused
      obtain ⟨t, ht, hrefuses⟩ := exists_refused (length_handOver _ _) hrefused
      rw [htraffic] at hsmooth
      exact absurd ((hsmooth t ht).symm.trans hrefuses) Bool.false_ne_true
    rw [htraffic, accepted_writes (length_handOver _ _) hok, hnone.2 hok]
    exact ⟨fun w => (and_iff_right ⟨id, hlt, hl⟩).symm, fun e he => nomatch he⟩
  · -- without its link nothing is written, and the fault is not the link's
    have habsent : d.stop links =
        { answer := some (.notConnected d.index), device := d, links } := by
      rcases onLine_cases d links (some (.notConnected d.index))
        (fun line => line.stop d.identity.name) with heq | ⟨id, link, -, hl, hget⟩
      · exact heq
      · obtain ⟨hlt, -⟩ := List.getElem?_eq_some_iff.1 hget
        exact absurd ⟨id, hlt, hl⟩ hlink
    rw [habsent]
    refine ⟨fun w => ⟨fun hw => absurd hw List.not_mem_nil, fun hw => absurd hw.1 hlink⟩,
      fun e he => ?_⟩
    cases he
    simp [Fault.code]

end Device

namespace Fleet

variable {L : Type} {f g : Fleet L} {i : Nat} {is js : List Nat} {id : LinkId} {w : Write}
  {trace trace' : List Happening}

/-- After both accounts of what happened, every device that listens to a link has the same
outputs. -/
def SameOutputs (trace trace' : List Happening) : Prop :=
  ∀ (id : LinkId) (v : Vendor) (h : Hardware),
    h.hearAll v (accepted (trafficOn id trace)) = h.hearAll v (accepted (trafficOn id trace'))

/-! ## Steady fleets -/

/-- `g` is `f` but for what protocols remember and what goes on inside of links. -/
structure Steady (f g : Fleet L) : Prop where
  size : g.devices.length = f.devices.length
  devices : ∀ {i : Nat} {d : Device}, f.devices[i]? = some d →
    ∃ p, d.protocol.Alike p ∧ g.devices[i]? = some { d with protocol := p }
  links : g.links.length = f.links.length

theorem Steady.refl (f : Fleet L) : f.Steady f :=
  ⟨rfl, fun {_ d} hd => ⟨d.protocol, .refl _, hd⟩, rfl⟩

/-- A device of the one is a device of the other. -/
theorem Steady.back (h : f.Steady g) {e : Device} (he : g.devices[i]? = some e) :
    ∃ d p, f.devices[i]? = some d ∧ d.protocol.Alike p ∧ e = { d with protocol := p } := by
  obtain ⟨hlt, -⟩ := List.getElem?_eq_some_iff.1 he
  have hd := List.getElem?_eq_getElem (h.size ▸ hlt)
  obtain ⟨p, hp, hget⟩ := h.devices hd
  rw [he] at hget
  exact ⟨_, p, hd, hp, Option.some.inj hget⟩

theorem Steady.connected_eq (h : f.Steady g) (i : Nat) : g.connected i = f.connected i := by
  rw [connected, connected]
  cases hd : f.devices[i]? with
  | none =>
    have hnone : g.devices[i]? = none := by
      rw [List.getElem?_eq_none_iff] at hd ⊢
      rw [h.size]
      exact hd
    rw [hnone]
  | some d =>
    obtain ⟨p, -, hget⟩ := h.devices hd
    rw [hget]
    rfl

/-- **The same devices are connected.** -/
theorem Steady.connectedIndices_eq (h : f.Steady g) : g.connectedIndices = f.connectedIndices := by
  rw [connectedIndices, connectedIndices, h.size]
  exact List.filter_congr fun i _ => h.connected_eq i

/-- **A safety stop is for the same devices** at any time. -/
theorem Steady.stopTargets_eq (h : f.Steady g) (s : Session) :
    s.stopTargets g = s.stopTargets f := by
  rw [Session.stopTargets, Session.stopTargets, among, among, h.connectedIndices_eq]

/-- The stop of a device writes `w` to a link. -/
def Stops (f : Fleet L) (i : Nat) (id : LinkId) (w : Write) : Prop :=
  ∃ d, f.devices[i]? = some d ∧ d.connected = true ∧ d.link = some id ∧ id < f.links.length ∧
    w ∈ d.protocol.stopFrames

theorem stops_iff {d : Device} (hd : f.devices[i]? = some d) (hc : d.connected = true) :
    f.Stops i id w ↔ d.link = some id ∧ id < f.links.length ∧ w ∈ d.protocol.stopFrames := by
  constructor
  · rintro ⟨d', hd', -, hstops⟩
    rw [hd] at hd'
    cases hd'
    exact hstops
  · intro hstops
    exact ⟨d, hd, hc, hstops⟩

/-- What a stop writes to switch outputs off, it writes for nothing else. -/
theorem Stops.quiets (h : f.Stops i id w) (v : Vendor) : Hardware.Quiets v w := by
  obtain ⟨d, -, -, -, -, hw⟩ := h
  exact Protocol.quiets_stopFrames hw v

theorem Steady.stops_iff (h : f.Steady g) : g.Stops i id w ↔ f.Stops i id w := by
  constructor
  · rintro ⟨e, he, hc, hl, hlt, hw⟩
    obtain ⟨d, p, hd, hp, rfl⟩ := h.back he
    exact ⟨d, hd, hc, hl, h.links ▸ hlt, hp.stopFrames ▸ hw⟩
  · rintro ⟨d, hd, hc, hl, hlt, hw⟩
    obtain ⟨p, hp, hget⟩ := h.devices hd
    exact ⟨_, hget, hc, hl, h.links.symm ▸ hlt, hp.stopFrames.symm ▸ hw⟩

/-! ## Stops one after the other -/

/-- **What stops that succeeded come to**: the fleet `f` has become `g`, `trace` is what happened,
and the devices that were stopped are those of `is`. -/
structure Stilled (f : Fleet L) (is : List Nat) (g : Fleet L) (trace : List Happening) :
    Prop where
  steady : f.Steady g
  /-- The links accepted the stop frames of these devices and nothing else. -/
  written : ∀ id w, w ∈ accepted (trafficOn id trace) ↔ ∃ i ∈ is, f.Stops i id w
  /-- No event was emitted. -/
  untold : emittedIn trace = []

theorem Stilled.refl (f : Fleet L) : f.Stilled [] f [] := by
  refine ⟨.refl f, fun id w => ⟨fun hw => absurd hw List.not_mem_nil, ?_⟩, rfl⟩
  rintro ⟨i, hi, -⟩
  exact absurd hi List.not_mem_nil

/-- **The outputs do not depend on the order of the stops**, or on how often a device was
stopped, but only on which devices were. -/
theorem Stilled.sameOutputs {g' : Fleet L} (h : f.Stilled is g trace)
    (h' : f.Stilled js g' trace') (hmem : ∀ i, i ∈ is ↔ i ∈ js) : SameOutputs trace trace' := by
  intro id v x
  refine Hardware.hearAll_congr (fun w hw => ?_) (fun w => ?_) x
  · obtain ⟨i, -, hstops⟩ := (h.written id w).1 hw
    exact hstops.quiets v
  · rw [h.written, h'.written]
    constructor
    · rintro ⟨i, hi, hstops⟩
      exact ⟨i, (hmem i).1 hi, hstops⟩
    · rintro ⟨i, hi, hstops⟩
      exact ⟨i, (hmem i).2 hi, hstops⟩

theorem trafficOn_happenings (id : LinkId) (link : Option LinkId) (ts : List Traffic) :
    trafficOn id (happenings link ts) = if link = some id then ts else [] := by
  cases link with
  | none => rfl
  | some id' =>
    by_cases hid : id' = id
    · rw [hid, if_pos rfl]
      exact trafficOn_map_self id ts
    · rw [if_neg (fun heq => hid (Option.some.inj heq))]
      exact trafficOn_map_ne hid ts

variable [Link L]

/-- One stop of a sweep, of a connected device, if no write of it is refused: the device is
stopped, and it is not removed. -/
theorem stopOne_smooth {d : Device} (hd : g.devices[i]? = some d) (hc : d.connected = true)
    (r : StopReport) (hsmooth : Smooth (g.stopOne r i).trace) :
    (g.stopOne r i).fleet = g.absorb i (d.stop g.links) ∧
      (g.stopOne r i).trace = happenings d.link (d.stop g.links).traffic ∧
      ∀ t ∈ (d.stop g.links).traffic, t.refused = false := by
  have hfirst : Smooth (happenings d.link (d.stop g.links).traffic) := by
    rw [stopOne, hd] at hsmooth
    simp only [hc, Bool.not_true, Bool.false_eq_true, if_false] at hsmooth
    split at hsmooth
    · exact hsmooth
    · split at hsmooth
      · exact (smooth_append.1 hsmooth).1
      · exact hsmooth
  have hquiet : ∀ t ∈ (d.stop g.links).traffic, t.refused = false := by
    intro t ht
    rcases Device.onLine_cases d g.links (some (.notConnected d.index))
      (fun line => line.stop d.identity.name) with heq | ⟨id, link, -, hl, -⟩
    · rw [Device.stop, heq] at ht
      exact absurd ht List.not_mem_nil
    · rw [hl] at hfirst
      exact hfirst (.traffic id t) (List.mem_map_of_mem ht)
  have hkept := (Device.stop_smooth hc hquiet).2
  rw [stopOne, hd]
  simp only [hc, Bool.not_true, Bool.false_eq_true, if_false]
  split
  · exact ⟨rfl, rfl, hquiet⟩
  · rename_i e he
    rw [if_neg (fun hlost => hkept e he hlost.1)]
    exact ⟨rfl, rfl, hquiet⟩

/-- **One stop more.** -/
theorem Stilled.stopOne (h : f.Stilled is g trace) (r : StopReport) (i : Nat)
    (hsmooth : Smooth (g.stopOne r i).trace) :
    f.Stilled (i :: is) (g.stopOne r i).fleet (trace ++ (g.stopOne r i).trace) := by
  cases hc : g.connected i with
  | false =>
    obtain ⟨hfleet, htrace⟩ := stopOne_passed hc r
    rw [hfleet, htrace, List.append_nil]
    refine ⟨h.steady, fun id w => ?_, h.untold⟩
    simp only [h.written, List.mem_cons, exists_eq_or_imp]
    refine (or_iff_right ?_).symm
    rintro ⟨d, hd, hc', -⟩
    rw [h.steady.connected_eq, connected, hd, Option.any_some, hc'] at hc
    cases hc
  | true =>
    obtain ⟨e, he, hce⟩ := connected_iff.1 hc
    obtain ⟨hfleet, htrace, hquiet⟩ := stopOne_smooth he hce r hsmooth
    have htouched := e.touched_stop g.links
    obtain ⟨q, hq, hdevice⟩ := htouched.device
    obtain ⟨d, p, hd, hp, heq⟩ := h.steady.back he
    rw [hfleet, htrace]
    refine ⟨⟨?_, fun {j d'} hd' => ?_, ?_⟩, fun id w => ?_, ?_⟩
    · exact (List.length_set ..).trans h.steady.size
    · rw [getElem?_absorb he]
      split
      · rename_i hj
        rw [hj, hd] at hd'
        cases hd'
        have halike : d.protocol.Alike e.protocol := heq ▸ hp
        have hsame : { e with protocol := q } = { d with protocol := q } := by rw [heq]
        exact ⟨q, halike.trans hq, congrArg some (hdevice.trans hsame)⟩
      · exact h.steady.devices hd'
    · exact htouched.length.trans h.steady.links
    · rw [trafficOn_append, accepted_append, List.mem_append, h.written, trafficOn_happenings]
      simp only [List.mem_cons, exists_eq_or_imp]
      rw [← h.steady.stops_iff, stops_iff he hce, or_comm]
      refine or_congr_left ?_
      have hwritten := (Device.stop_smooth hce hquiet).1 w
      by_cases hl : e.link = some id
      · rw [if_pos hl, hwritten, hl]
        simp
      · rw [if_neg hl]
        exact ⟨fun hw => absurd hw List.not_mem_nil, fun hw => absurd hw.1 hl⟩
    · rw [emittedIn_append, h.untold, emittedIn_happenings]
      rfl

/-- **A sweep more.** -/
theorem Stilled.sweep (h : f.Stilled is g trace) (r : StopReport) (js : List Nat)
    (hsmooth : Smooth (g.sweep r js).trace) :
    f.Stilled (js.reverse ++ is) (g.sweep r js).fleet (trace ++ (g.sweep r js).trace) := by
  induction js generalizing is g trace r with
  | nil =>
    rw [Fleet.sweep, List.append_nil]
    exact h
  | cons j js ih =>
    rw [Fleet.sweep] at hsmooth ⊢
    obtain ⟨hfirst, hlater⟩ := smooth_append.1 hsmooth
    have hrest := ih (h.stopOne r j hfirst) _ hlater
    rw [List.append_assoc] at hrest
    rw [List.reverse_cons, List.append_assoc]
    exact hrest

/-! ## Safety stops of several sessions -/

/-- The safety stops of some sessions, one after the other and one for each, with their
reports. -/
def stopEach (f : Fleet L) : List Session → Outcome L (List StopReport)
  | [] => { answer := [], fleet := f }
  | s :: rest =>
    let first := s.safetyStop f
    let later := first.fleet.stopEach rest
    { answer := first.answer :: later.answer, fleet := later.fleet,
      trace := first.trace ++ later.trace }

/-- **The safety stops of several sessions** stop the devices in the scope of one of them. What
that scope is was settled before the first. -/
theorem Stilled.stopEach (h : f.Stilled is g trace) (ss : List Session)
    (hsmooth : Smooth (g.stopEach ss).trace) :
    ∃ js, (∀ i, i ∈ js ↔ i ∈ is ∨ ∃ s ∈ ss, i ∈ s.stopTargets f) ∧
      f.Stilled js (g.stopEach ss).fleet (trace ++ (g.stopEach ss).trace) := by
  induction ss generalizing is g trace with
  | nil =>
    rw [Fleet.stopEach, List.append_nil]
    exact ⟨is, fun i => by simp, h⟩
  | cons s ss ih =>
    rw [Fleet.stopEach] at hsmooth ⊢
    obtain ⟨hfirst, hlater⟩ := smooth_append.1 hsmooth
    obtain ⟨js, hjs, hstilled⟩ := ih (h.sweep {} (s.stopTargets g) hfirst) hlater
    refine ⟨js, fun i => ?_, ?_⟩
    · rw [hjs, List.mem_append, List.mem_reverse, h.steady.stopTargets_eq]
      simp only [List.mem_cons, exists_eq_or_imp]
      rw [or_assoc, or_left_comm]
    · rw [List.append_assoc] at hstilled
      exact hstilled

end Fleet

end Haptics
