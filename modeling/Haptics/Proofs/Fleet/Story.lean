import Haptics.Proofs.Fleet.StopSweep
/-!
# What the events of a fleet tell

A listener who never sees the fleet, only its events. `Tells` is what one event
says of the devices, and `Story` what several say one after the other.
`story_after` is the refinement: the events of a call tell exactly how it changes
the devices as others see them. The one exception is that all are disconnected at
once, of which no event tells.
-/

namespace Haptics

namespace DeviceEvent

/-- The index of the device that is added. -/
def added? : DeviceEvent → Option Nat
  | added device .. => some device
  | _ => none

/-- Whether the device with an index is removed. -/
def removes (i : Nat) : DeviceEvent → Bool
  | removed device _ => device = i
  | _ => false

end DeviceEvent

/-- A device as it is shown once it is disconnected. -/
def DeviceInfo.off (d : DeviceInfo) : DeviceInfo := { d with connected := false }

namespace Fleet

variable {L α : Type} {f : Fleet L} {i : Nat} {d : Device}

/-- Every device ever registered, as it is shown to others. -/
def infos (f : Fleet L) : List DeviceInfo := f.devices.map Device.info

theorem list_eq (f : Fleet L) : f.list = f.infos.filter (·.connected) := by
  rw [list, infos, List.filter_map]
  rfl

theorem info?_eq (f : Fleet L) (i : Nat) : f.info? i = f.infos[i]? := by
  rw [info?, infos, List.getElem?_map]

theorem getElem?_infos (hd : f.devices[i]? = some d) : f.infos[i]? = some d.info := by
  rw [infos, List.getElem?_map, hd]
  rfl

theorem length_infos (f : Fleet L) : f.infos.length = f.devices.length := List.length_map _

/-! ## What events say -/

/-- **What one event says** of the devices. -/
inductive Tells : List DeviceInfo → DeviceEvent → List DeviceInfo → Prop
  /-- A device comes last, and has its place as its index. -/
  | added {ds : List DeviceInfo} {d : DeviceInfo} (hindex : d.index = ds.length)
    (hc : d.connected = true) :
    Tells ds (.added ds.length d.identity.name d.capabilities) (ds ++ [d])
  /-- Readings of a connected device change nothing. -/
  | reading {ds : List DeviceInfo} {i : Nat} {d : DeviceInfo} {rs : List Reading}
    (hd : ds[i]? = some d) (hc : d.connected = true) (hrs : rs ≠ []) :
    Tells ds (.reading i rs) ds
  /-- A connected device is removed. -/
  | removed {ds : List DeviceInfo} {i : Nat} {d : DeviceInfo} (hd : ds[i]? = some d)
    (hc : d.connected = true) : Tells ds (.removed i d.identity.name) (ds.set i d.off)

/-- What several events say, one after the other. -/
inductive Story : List DeviceInfo → List DeviceEvent → List DeviceInfo → Prop
  | nil (ds : List DeviceInfo) : Story ds [] ds
  | cons {ds ds' ds'' : List DeviceInfo} {e : DeviceEvent} {es : List DeviceEvent}
    (h : Tells ds e ds') (hs : Story ds' es ds'') : Story ds (e :: es) ds''

variable {ds ds' ds'' : List DeviceInfo} {e : DeviceEvent} {es es' : List DeviceEvent}

theorem Tells.story (h : Tells ds e ds') : Story ds [e] ds' := .cons h (.nil ds')

theorem Story.append (h : Story ds es ds') (h' : Story ds' es' ds'') :
    Story ds (es ++ es') ds'' := by
  induction h with
  | nil ds => exact h'
  | cons hfirst _ ih => exact .cons hfirst (ih h')

/-- **One event for every device that is added**, in the order of the indices. -/
theorem Story.added (h : Story ds es ds') :
    List.range ds.length ++ es.filterMap DeviceEvent.added? = List.range ds'.length := by
  induction h with
  | nil ds => exact List.append_nil _
  | cons hfirst _ ih =>
    rw [← ih]
    cases hfirst with
    | added hindex hc =>
      rw [List.length_append, List.length_singleton, List.range_succ, List.append_assoc]
      rfl
    | reading hd hc hrs => rfl
    | removed hd hc => rw [List.length_set]; rfl

/-- An event is about one device. -/
theorem Tells.getElem?_other (h : Tells ds e ds') (hne : e.device ≠ i) : ds'[i]? = ds[i]? := by
  cases h with
  | added hindex hc =>
    have hne : ds.length ≠ i := hne
    rw [List.getElem?_append, List.getElem?_singleton]
    split
    · rfl
    · rw [if_neg (by omega), List.getElem?_eq_none (by omega)]
  | reading hd hc hrs => rfl
  | removed hd hc => exact List.getElem?_set_ne hne

/-- What an event leaves of a device that was there, and whether it removes it. -/
theorem Tells.removes (h : Tells ds e ds') {i : Nat} {d : DeviceInfo} (hd : ds[i]? = some d) :
    (ds'[i]? = some d ∧ e.removes i = false) ∨
      (ds'[i]? = some d.off ∧ d.connected = true ∧ e = .removed i d.identity.name) := by
  obtain ⟨hlt, -⟩ := List.getElem?_eq_some_iff.1 hd
  cases h with
  | added hindex hc => exact Or.inl ⟨(List.getElem?_append_left hlt).trans hd, rfl⟩
  | reading hd' hc hrs => exact Or.inl ⟨hd, rfl⟩
  | @removed j d' hd' hc =>
    by_cases hji : j = i
    · subst hji
      cases hd.symm.trans hd'
      exact Or.inr ⟨List.getElem?_set_self hlt, hc, rfl⟩
    · exact Or.inl ⟨(List.getElem?_set_ne hji).trans hd, decide_eq_false hji⟩

/-- **One event for every device that is removed**, and a device that is removed
stays so. -/
theorem Story.removes (h : Story ds es ds') {i : Nat} {d : DeviceInfo} (hd : ds[i]? = some d) :
    ∃ d', ds'[i]? = some d' ∧ (d'.connected = true → d.connected = true) ∧
      es.filter (·.removes i) =
        if d.connected = true ∧ d'.connected = false then [.removed i d.identity.name] else [] := by
  induction h generalizing d with
  | nil ds => exact ⟨d, hd, id, by simp⟩
  | cons hfirst _ ih =>
    rcases hfirst.removes hd with ⟨hstays, hother⟩ | ⟨hgone, hc, rfl⟩
    · obtain ⟨d', hd', hmono, hfilter⟩ := ih hstays
      refine ⟨d', hd', hmono, ?_⟩
      rw [List.filter_cons_of_neg (by simp [hother]), hfilter]
    · obtain ⟨d', hd', hmono, hfilter⟩ := ih hgone
      have hoff : d'.connected = false := by
        rw [← Bool.not_eq_true]
        exact fun hc' => Bool.false_ne_true (hmono hc')
      refine ⟨d', hd', fun _ => hc, ?_⟩
      rw [List.filter_cons_of_pos (by simp [DeviceEvent.removes]), hfilter]
      simp [hc, hoff, DeviceInfo.off]

/-! ## What the updates of a fleet tell -/

/-- An exchange shows nothing of itself. -/
theorem info_touched {links : List L} {x : Exchange L α} (hx : d.Touched links x) :
    x.device.info = d.info := by
  obtain ⟨p, halike, hdev⟩ := hx.device
  rw [hdev, Device.info, Device.info, halike.vendor, halike.capabilities]

/-- What an exchange leaves of a device looks the same to those who list it. -/
theorem infos_absorb {x : Exchange L α} (hd : f.devices[i]? = some d)
    (hx : d.Touched f.links x) : (f.absorb i x).infos = f.infos := by
  refine List.ext_getElem? fun j => ?_
  rw [infos, infos, List.getElem?_map, List.getElem?_map, getElem?_absorb hd]
  split
  · rename_i hji
    rw [hji, hd, Option.map_some, info_touched hx]
    rfl
  · rfl

/-- A device that is registered is listed after all others. -/
theorem infos_enter {i : Identity} (hfree : f.find? i = none) (p : Protocol) (id : LinkId) :
    (f.enter i p id).fleet.infos = f.infos ++ [(f.entrant i p id).info] := by
  rw [fleet_enter hfree, infos, infos, List.map_append]
  rfl

variable [Link L]

theorem infos_remove (f : Fleet L) (i : Nat) (d : Device) :
    (f.remove i d).fleet.infos = f.infos.set i d.info.off := by
  have hdevices : (f.remove i d).fleet.devices = f.devices.set i (d.disconnect f.links).device :=
    rfl
  rw [infos, hdevices, Device.device_disconnect, List.map_set]
  rfl

theorem infos_disconnectAll (f : Fleet L) :
    f.disconnectAll.fleet.infos = f.infos.map DeviceInfo.off := by
  refine List.ext_getElem? fun j => ?_
  rw [infos, List.getElem?_map, getElem?_disconnectAll, List.getElem?_map, infos,
    List.getElem?_map, Option.map_map, Option.map_map]
  rfl

omit [Link L] in
theorem emittedIn_happenings (link : Option LinkId) (ts : List Traffic) :
    emittedIn (happenings link ts) = [] := by
  cases link with
  | none => rfl
  | some id => exact emittedIn_map id ts

theorem emittedIn_remove (f : Fleet L) (i : Nat) (d : Device) :
    emittedIn (f.remove i d).trace = [.removed i d.identity.name] := by
  rw [remove, emittedIn_append, emittedIn_happenings]
  rfl

omit [Link L] in
/-- An exchange with a device emits nothing of its own. -/
theorem story_exchange {x : Exchange L α} (hd : f.devices[i]? = some d)
    (hx : d.Touched f.links x) :
    Story f.infos (emittedIn (happenings d.link x.traffic)) (f.absorb i x).infos := by
  rw [emittedIn_happenings, infos_absorb hd hx]
  exact .nil _

/-- A removal tells of one device, which was connected. -/
theorem story_remove (hd : f.devices[i]? = some d) (hc : d.connected = true) :
    Story f.infos (emittedIn (f.remove i d).trace) (f.remove i d).fleet.infos := by
  rw [emittedIn_remove, infos_remove]
  exact (Tells.removed (getElem?_infos hd) hc).story

/-- An exchange after which the device is removed. -/
theorem story_exchange_remove {x : Exchange L α} (hd : f.devices[i]? = some d)
    (hc : d.connected = true) (hx : d.Touched f.links x) :
    Story f.infos
      (emittedIn (happenings d.link x.traffic ++ ((f.absorb i x).remove i x.device).trace))
      ((f.absorb i x).remove i x.device).fleet.infos := by
  have hd' : (f.absorb i x).devices[i]? = some x.device := by
    rw [getElem?_absorb hd, if_pos rfl]
  have hc' : x.device.connected = true := by
    rw [← hc]
    exact congrArg DeviceInfo.connected (info_touched hx)
  rw [emittedIn_append]
  exact (story_exchange hd hx).append (story_remove hd' hc')

/-! ## What the calls of a fleet tell -/

/-- **A dispatch tells of the removal of its device**, if it comes to that, and of nothing else. -/
theorem story_dispatch (f : Fleet L) (i : Nat) (c : Command) :
    Story f.infos (emittedIn (f.dispatch i c).trace) (f.dispatch i c).fleet.infos := by
  unfold dispatch
  split
  · exact .nil _
  · rename_i d hd
    split
    · exact .nil _
    · rename_i hc
      have hc : d.connected = true := by simpa using hc
      have hx := d.touched_execute f.links c
      dsimp only
      split
      · exact story_exchange hd hx
      · split
        · exact story_exchange_remove hd hc hx
        · exact story_exchange hd hx

/-- So does a stop. -/
theorem story_stopOne (f : Fleet L) (r : StopReport) (i : Nat) :
    Story f.infos (emittedIn (f.stopOne r i).trace) (f.stopOne r i).fleet.infos := by
  unfold stopOne
  split
  · exact .nil _
  · rename_i d hd
    split
    · exact .nil _
    · rename_i hc
      have hc : d.connected = true := by simpa using hc
      have hx := d.touched_stop f.links
      dsimp only
      split
      · exact story_exchange hd hx
      · split
        · exact story_exchange_remove hd hc hx
        · exact story_exchange hd hx

theorem story_sweep (f : Fleet L) (r : StopReport) (is : List Nat) :
    Story f.infos (emittedIn (f.sweep r is).trace) (f.sweep r is).fleet.infos := by
  induction is generalizing f r with
  | nil => exact .nil _
  | cons i is ih =>
    rw [sweep, emittedIn_append]
    exact (story_stopOne f r i).append (ih _ _)

omit [Link L] in
/-- A registration tells of the device that it creates, and of nothing else. -/
theorem register_cases (f : Fleet L) (i : Identity) (services : List String)
    (link : Option LinkId) :
    ((f.register i services link).fleet = f ∧ (f.register i services link).trace = [] ∧
        ∀ index, (f.register i services link).answer ≠ .created index) ∨
      ∃ p id, f.find? i = none ∧ (f.register i services link).fleet = (f.enter i p id).fleet ∧
        (f.register i services link).trace =
          [.emitted (.added f.devices.length i.name p.capabilities)] ∧
        (f.register i services link).answer = .created f.devices.length := by
  unfold register
  split
  · exact Or.inl ⟨rfl, rfl, nofun⟩
  · rename_i hfree
    split
    · exact Or.inl ⟨rfl, rfl, nofun⟩
    · rename_i p id hprep
      refine Or.inr ⟨p, id, hfree, rfl, ?_, ?_⟩
      · rw [enter, hfree]
      · rw [enter, hfree]

omit [Link L] in
/-- **A registration tells of the device that it adds**, and of nothing if it adds none. -/
theorem story_register (f : Fleet L) (i : Identity) (services : List String)
    (link : Option LinkId) :
    Story f.infos (emittedIn (f.register i services link).trace)
      (f.register i services link).fleet.infos := by
  rcases register_cases f i services link with
    ⟨hfleet, htrace, -⟩ | ⟨p, id, hfree, hfleet, htrace, -⟩
  · rw [hfleet, htrace]
    exact .nil _
  · rw [hfleet, htrace, infos_enter hfree, ← length_infos]
    have hindex : (f.entrant i p id).info.index = f.infos.length := (length_infos f).symm
    exact (Tells.added (d := (f.entrant i p id).info) hindex rfl).story

/-- The loss of a device removes the connected device that is lost, if there is one. -/
theorem unregister_cases (f : Fleet L) (i : Identity) :
    ((f.unregister i).fleet = f ∧ (f.unregister i).trace = [] ∧
        (f.unregister i).answer = false) ∨
      ∃ index d, f.devices[index]? = some d ∧ d.connected = true ∧
        (f.unregister i).fleet = (f.remove index d).fleet ∧
        (f.unregister i).trace = (f.remove index d).trace ∧ (f.unregister i).answer = true := by
  unfold unregister
  split
  · exact Or.inl ⟨rfl, rfl, rfl⟩
  · rename_i index _
    split
    · exact Or.inl ⟨rfl, rfl, rfl⟩
    · rename_i d hd
      split
      · rename_i hc
        exact Or.inr ⟨index, d, hd, hc, rfl, rfl, rfl⟩
      · exact Or.inl ⟨rfl, rfl, rfl⟩

/-- The loss of a device that is connected is told, and any other is nothing new. -/
theorem story_unregister (f : Fleet L) (i : Identity) :
    Story f.infos (emittedIn (f.unregister i).trace) (f.unregister i).fleet.infos := by
  rcases unregister_cases f i with ⟨hfleet, htrace, -⟩ | ⟨index, d, hd, hc, hfleet, htrace, -⟩
  · rw [hfleet, htrace]
    exact .nil _
  · rw [hfleet, htrace]
    exact story_remove hd hc

omit [Link L] in
/-- **A notification tells of the readings in it**, if its device is connected and there are
any. -/
theorem story_notify (f : Fleet L) (i : Identity) (data : Bytes) :
    Story f.infos (emittedIn (f.notify i data).trace) (f.notify i data).fleet.infos := by
  rw [fleet_notify]
  unfold notify
  split
  · exact .nil _
  · split
    · exact .nil _
    · rename_i d hd
      split
      · exact .nil _
      · rename_i hc
        have hc : d.connected = true := by simpa using hc
        split
        · exact .nil _
        · rename_i readings hsome
          exact (Tells.reading (getElem?_infos hd) hc hsome).story

/-- **What happens in a call.** -/
def trace (f : Fleet L) : Call L → List Happening
  | .addLink _ | .disturb .. => []
  | .register i services link => (f.register i services link).trace
  | .unregister i => (f.unregister i).trace
  | .dispatch index c => (f.dispatch index c).trace
  | .notify i data => (f.notify i data).trace
  | .stopAll => f.stopAll.trace
  | .stopDevices indices => (f.stopDevices indices).trace
  | .disconnectAll => f.disconnectAll.trace

/-- The events of a call. -/
def told (f : Fleet L) (c : Call L) : List DeviceEvent := emittedIn (f.trace c)

/-- **The events of a call tell how it changes the devices.** -/
theorem story_after (f : Fleet L) {c : Call L} (hc : c ≠ .disconnectAll) :
    Story f.infos (f.told c) (f.after c).infos := by
  cases c with
  | addLink link => exact .nil _
  | disturb id change => exact .nil _
  | register i services link => exact story_register f i services link
  | unregister i => exact story_unregister f i
  | dispatch index c => exact story_dispatch f index c
  | notify i data => exact story_notify f i data
  | stopAll => exact story_sweep f _ _
  | stopDevices indices => exact story_sweep f _ _
  | disconnectAll => exact absurd rfl hc

/-- No event tells that devices are disconnected one after the other. -/
theorem emittedIn_disconnectEach (f : Fleet L) (is : List Nat) :
    emittedIn (f.disconnectEach is).trace = [] := by
  induction is generalizing f with
  | nil => rfl
  | cons i is ih =>
    rw [disconnectEach]
    split
    · exact ih f
    · rw [emittedIn_append, emittedIn_happenings]
      exact ih _

theorem told_disconnectAll (f : Fleet L) : f.told .disconnectAll = [] :=
  emittedIn_disconnectEach ..

end Fleet

end Haptics
