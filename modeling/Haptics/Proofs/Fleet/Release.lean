import Haptics.Proofs.Fleet.Story
import Mathlib.Data.List.Nodup
/-!
# Stops before disconnections

All devices are stopped, and then all are disconnected. On the link of every device that
was connected the end of the connection is the last to happen, right after the stop
writes (`released_of_sound`). A device that the sweep removes is disconnected in the
sweep and is not disconnected again.

With no device connected nothing but a registration reaches a link (`Dark.call`).
-/

namespace Haptics

open Relation

namespace Fleet

variable {L : Type} [Link L] {f g : Fleet L} {os : List (Online L)} {id : LinkId} {js : List Nat}

/-! ## Disconnecting every device -/

/-- Whether a device is at the other end of a link. -/
def holdsLink (f : Fleet L) (id : LinkId) (i : Nat) : Bool :=
  (f.devices[i]?).any fun d => d.link = some id

theorem trafficOn_disconnect (d : Device) (links : List L) (id : LinkId) :
    trafficOn id (happenings d.link (d.disconnect links).traffic) =
      if d.link = some id then [.disconnected] else [] := by
  unfold Device.disconnect
  split
  · rename_i id' hl
    rw [hl]
    by_cases hid : id' = id <;> simp [happenings, trafficOn, hid]
  · rename_i hl
    rw [hl]
    simp [happenings, trafficOn]

/-- **Disconnecting devices tells of each that has a link, once.** -/
theorem trafficOn_disconnectEach (hn : js.Nodup) (f : Fleet L) (id : LinkId) :
    trafficOn id (f.disconnectEach js).trace =
      List.replicate (js.countP (f.holdsLink id)) .disconnected := by
  induction js generalizing f with
  | nil => rfl
  | cons j js ih =>
    obtain ⟨hj, hn⟩ := List.nodup_cons.1 hn
    rw [disconnectEach]
    split
    · rename_i hnone
      have hno : f.holdsLink id j = false := by simp [holdsLink, hnone]
      rw [ih hn, List.countP_cons_of_neg (by simp [hno])]
    · rename_i d hd
      -- the devices that follow are as before
      have hrest : js.countP ((f.absorb j (d.disconnect f.links)).holdsLink id) =
          js.countP (f.holdsLink id) := by
        refine List.countP_congr fun i hi => ?_
        have hne : i ≠ j := fun heq => hj (heq ▸ hi)
        rw [holdsLink, getElem?_absorb hd, if_neg hne, holdsLink]
      have hthis : f.holdsLink id j = decide (d.link = some id) := by simp [holdsLink, hd]
      dsimp only
      rw [trafficOn_append, trafficOn_disconnect, ih hn, hrest]
      by_cases hl : d.link = some id
      · rw [if_pos hl, List.countP_cons_of_pos (by simp [hthis, hl]), List.replicate_succ]
        rfl
      · rw [if_neg hl, List.countP_cons_of_neg (by simp [hthis, hl]), List.nil_append]

/-- **A link is disconnected once for every device that holds it**, and nothing else passes on
it. -/
theorem trafficOn_disconnectAll (f : Fleet L) (id : LinkId) :
    trafficOn id f.disconnectAll.trace =
      List.replicate ((List.range f.devices.length).countP (f.holdsLink id)) .disconnected :=
  trafficOn_disconnectEach List.nodup_range _ id

/-! ## After a sweep of every device -/

/-- The links that are held after a sweep are those of the targets that were not lost. -/
theorem holdsLink_swept (hs : f.Sound) (hos : ∀ o ∈ os, f.Holds o)
    (hall : ∀ i, f.connected i = true → i ∈ os.map Online.index) (hswept : f.Swept g os) (i : Nat) :
    g.holdsLink id i = true ↔ ∃ o ∈ os, o.lost = false ∧ o.index = i ∧ o.id = id := by
  rw [holdsLink, Option.any_eq_true]
  simp only [decide_eq_true_eq]
  constructor
  · rintro ⟨d, hd, hl⟩
    by_cases hi : i ∈ os.map Online.index
    · obtain ⟨o, ho, rfl⟩ := List.mem_map.1 hi
      refine ⟨o, ho, ?_⟩
      cases hlost : o.lost with
      | true =>
        obtain ⟨⟨p, -, hd'⟩, -⟩ := ((hswept.halted o ho).gone hlost)
        rw [hd] at hd'
        cases hd'
        cases hl
      | false =>
        obtain ⟨⟨p, -, hd'⟩, -⟩ := ((hswept.halted o ho).kept hlost)
        rw [hd] at hd'
        cases hd'
        exact ⟨rfl, rfl, Option.some.inj ((hos o ho).id.symm.trans hl)⟩
    · -- a device that was no target has no link
      rw [hswept.devices i hi] at hd
      have hc : d.connected = false := by
        rw [← Bool.not_eq_true]
        exact fun hc => hi (hall i (connected_iff.2 ⟨d, hd, hc⟩))
      rw [hs.unlinked hd hc] at hl
      cases hl
  · rintro ⟨o, ho, hlost, rfl, rfl⟩
    obtain ⟨⟨p, -, hd⟩, -⟩ := ((hswept.halted o ho).kept hlost)
    exact ⟨_, hd, (hos o ho).id⟩

/-- On the link of a target one device is left to disconnect, and none if it was lost. -/
theorem countP_holdsLink (hids : (os.map Online.id).Nodup)
    (hheld : ∀ id i, g.holdsLink id i = true ↔ ∃ o ∈ os, o.lost = false ∧ o.index = i ∧ o.id = id)
    {o : Online L} (ho : o ∈ os) :
    (List.range g.devices.length).countP (g.holdsLink o.id) = if o.lost then 0 else 1 := by
  -- no other target is on this link
  have hown : ∀ i, g.holdsLink o.id i = true ↔ o.lost = false ∧ i = o.index := by
    intro i
    rw [hheld]
    constructor
    · rintro ⟨o', ho', hlost, rfl, hid⟩
      rw [← List.inj_on_of_nodup_map hids ho' ho hid]
      exact ⟨hlost, rfl⟩
    · rintro ⟨hlost, rfl⟩
      exact ⟨o, ho, hlost, rfl, rfl⟩
  cases hlost : o.lost with
  | true =>
    refine List.countP_eq_zero.2 fun i _ hi => ?_
    exact Bool.false_ne_true (((hown i).1 hi).1.symm.trans hlost)
  | false =>
    have hlt : o.index < g.devices.length := by
      have hi := (hown o.index).2 ⟨hlost, rfl⟩
      rw [holdsLink, Option.any_eq_true] at hi
      obtain ⟨d, hd, -⟩ := hi
      exact (List.getElem?_eq_some_iff.1 hd).1
    have hcongr : (List.range g.devices.length).countP (g.holdsLink o.id) =
        (List.range g.devices.length).count o.index :=
      List.countP_congr fun i _ => by rw [hown, beq_iff_eq, and_iff_right hlost]
    rw [hcongr, List.count_eq_one_of_mem List.nodup_range (List.mem_range.2 hlt)]
    rfl

/-- What happens on one link when all devices are stopped and then all disconnected. -/
structure Released (f : Fleet L) (trace : List Happening) (os : List (Online L)) : Prop where
  /-- The targets are the connected devices. -/
  targets : ∀ i, i ∈ os.map Online.index ↔ f.connected i = true
  holds : ∀ o ∈ os, f.Holds o
  /-- **All stop writes are attempted, and the end of the connection follows them.** -/
  traffic : ∀ o ∈ os, trafficOn o.id trace = writes o.frames o.answers ++ [.disconnected]
  attempted : ∀ o ∈ os, o.answers.length = o.device.protocol.stopFrames.length
  /-- Nothing happens on any other link. -/
  others : ∀ id, id ∉ os.map Online.id → trafficOn id trace = []

/-- **Stops come before disconnections**, whatever becomes of the links in between. -/
theorem released_of_sound (hs : f.Sound) (ha : f.LinksApart)
    (hg : g.devices = f.stopAll.fleet.devices) :
    ∃ os, f.Released (f.stopAll.trace ++ g.disconnectAll.trace) os := by
  have hall : ∀ i ∈ f.connectedIndices, ∃ d, f.devices[i]? = some d ∧ d.connected = true :=
    fun i hi => connected_iff.1 (mem_connectedIndices.1 hi)
  obtain ⟨os, hindex, hos⟩ := exists_online hs hall
  have htargets : ∀ i, i ∈ os.map Online.index ↔ f.connected i = true :=
    fun i => by rw [hindex, mem_connectedIndices]
  have hnodup : (os.map Online.index).Nodup :=
    hindex ▸ (pairwise_connectedIndices f).imp Nat.ne_of_lt
  have hids := nodup_ids ha hos hnodup
  obtain ⟨-, htrace, hswept⟩ := sweep_online hs hos hnodup hids {}
  rw [hindex] at htrace hswept
  have hswept : f.Swept f.stopAll.fleet os := hswept
  have htrace : f.stopAll.trace = os.flatMap Online.trace := htrace
  have hheld : ∀ id i, g.holdsLink id i = true ↔
      ∃ o ∈ os, o.lost = false ∧ o.index = i ∧ o.id = id := by
    intro id i
    rw [← holdsLink_swept hs hos (fun i => (htargets i).2) hswept, holdsLink, holdsLink, hg]
  refine ⟨os, htargets, hos, fun o ho => ?_, fun o ho => length_handOver _ _, fun id hid => ?_⟩
  · rw [trafficOn_append, htrace, trafficOn_flatMap hids ho, trafficOn_trace,
      trafficOn_disconnectAll, countP_holdsLink hids hheld ho]
    cases o.lost <;> simp
  · rw [trafficOn_append, htrace, trafficOn_flatMap_of_not_mem hid, trafficOn_disconnectAll,
      List.countP_eq_zero.2]
    · rfl
    · intro i _ hi
      obtain ⟨o, ho, -, -, rfl⟩ := (hheld id i).1 hi
      exact hid (List.mem_map_of_mem ho)

/-! ## Without a connected device -/

variable {i : Nat}

/-- No device is connected. -/
def Dark (f : Fleet L) : Prop := ∀ i, f.connected i = false

omit [Link L] in
theorem Dark.connected_eq (hd : f.Dark) {d : Device} (h : f.devices[i]? = some d) :
    d.connected = false := by
  have hc := hd i
  rw [connected, h] at hc
  exact hc

theorem Dark.stopOne_eq (hd : f.Dark) (r : StopReport) (i : Nat) :
    f.stopOne r i = { answer := r, fleet := f } := by
  unfold stopOne
  split
  · rfl
  · rename_i d h
    rw [hd.connected_eq h]
    rfl

theorem Dark.sweep_eq (hd : f.Dark) (r : StopReport) (is : List Nat) :
    f.sweep r is = { answer := r, fleet := f } := by
  induction is with
  | nil => rfl
  | cons i is ih =>
    rw [sweep, hd.stopOne_eq]
    simp only [ih, List.append_nil]

/-- Where all devices are disconnected, a command does nothing. -/
theorem Dark.dispatch_eq (hd : f.Dark) (i : Nat) (c : Command) :
    (f.dispatch i c).fleet = f ∧ (f.dispatch i c).trace = [] := by
  unfold dispatch
  split
  · exact ⟨rfl, rfl⟩
  · rename_i d h
    rw [hd.connected_eq h]
    exact ⟨rfl, rfl⟩

/-- After all devices are disconnected none is connected. -/
theorem dark_disconnectAll (f : Fleet L) : f.disconnectAll.fleet.Dark := by
  intro i
  rw [connected, getElem?_disconnectAll]
  cases f.devices[i]? <;> rfl

omit [Link L] in
theorem Dark.find?_eq (hd : f.Dark) (hs : f.Sound) (i : Identity) : f.find? i = none := by
  rw [Option.eq_none_iff_forall_not_mem]
  intro j hj
  obtain ⟨d, hget, hc, -⟩ := hs.leads.1 hj
  rw [hd.connected_eq hget] at hc
  cases hc

omit [Link L] in
/-- No key leads anywhere. -/
theorem Dark.size_byKey (hd : f.Dark) (hs : f.Sound) : f.byKey.size = 0 := by
  rw [Table.size, List.length_eq_zero_iff, List.eq_nil_iff_forall_not_mem]
  rintro ⟨k, i⟩ hmem
  obtain ⟨j, hj⟩ : ∃ j, f.byKey.get? k = some j :=
    Option.isSome_iff_exists.1 (Table.contains_of_mem_keys (List.mem_map_of_mem hmem))
  obtain ⟨d, hget, hc, -⟩ := hs.leads.1 hj
  rw [hd.connected_eq hget] at hc
  cases hc

/-- Devices without a link are disconnected in silence. -/
theorem trace_disconnectEach (hu : ∀ (i : Nat) d, f.devices[i]? = some d → Device.link d = none)
    (js : List Nat) : (f.disconnectEach js).trace = [] := by
  induction js generalizing f with
  | nil => rfl
  | cons j js ih =>
    rw [disconnectEach]
    split
    · exact ih hu
    · rename_i d hd
      have hl : d.link = none := hu j d hd
      have hrest : ∀ (i : Nat) d', (f.absorb j (d.disconnect f.links)).devices[i]? = some d' →
          Device.link d' = none := by
        intro i d' hd'
        rw [getElem?_absorb hd] at hd'
        split at hd'
        · cases hd'
          rw [Device.device_disconnect]
          rfl
        · exact hu i d' hd'
      dsimp only
      rw [ih hrest, hl]
      rfl

/-- **Without a registration nothing happens** to a fleet with no device connected. -/
theorem Dark.call (hd : f.Dark) (hs : f.Sound) {c : Call L}
    (hc : ∀ i services link, c ≠ .register i services link) :
    (f.after c).Dark ∧ f.trace c = [] := by
  cases c with
  | addLink link => exact ⟨hd, rfl⟩
  | disturb id change => exact ⟨hd, rfl⟩
  | register i services link => exact absurd rfl (hc i services link)
  | unregister i =>
    have heq : f.unregister i = { answer := false, fleet := f } := by
      rw [unregister, hd.find?_eq hs]
    rw [after, trace, heq]
    exact ⟨hd, rfl⟩
  | dispatch index c =>
    obtain ⟨hfleet, htrace⟩ := hd.dispatch_eq index c
    rw [after, hfleet]
    exact ⟨hd, htrace⟩
  | notify i data =>
    have heq : f.notify i data = { answer := false, fleet := f } := by
      rw [notify, hd.find?_eq hs]
    rw [after, trace, heq]
    exact ⟨hd, rfl⟩
  | stopAll =>
    rw [after, trace, stopAll, hd.sweep_eq]
    exact ⟨hd, rfl⟩
  | stopDevices indices =>
    rw [after, trace, stopDevices, hd.sweep_eq]
    exact ⟨hd, rfl⟩
  | disconnectAll =>
    have hu : ∀ (i : Nat) d, ({ f with byKey := {} } : Fleet L).devices[i]? = some d →
        Device.link d = none := fun i d hget => hs.unlinked hget (hd.connected_eq hget)
    exact ⟨dark_disconnectAll f, trace_disconnectEach hu _⟩

/-- What is done to a fleet comes down to updates, and to nothing if no device is
connected. -/
structure Acts (f g : Fleet L) (trace : List Happening) : Prop where
  updates : f.Updates g
  dark : f.Dark → g = f ∧ trace = []

theorem Acts.refl (f : Fleet L) : f.Acts f [] := ⟨ReflTransGen.refl, fun _ => ⟨rfl, rfl⟩⟩

theorem acts_sweep (f : Fleet L) (r : StopReport) (is : List Nat) :
    f.Acts (f.sweep r is).fleet (f.sweep r is).trace := by
  refine ⟨updates_sweep f r is, fun hd => ?_⟩
  rw [hd.sweep_eq]
  exact ⟨rfl, rfl⟩

theorem acts_stopOne (f : Fleet L) (r : StopReport) (i : Nat) :
    f.Acts (f.stopOne r i).fleet (f.stopOne r i).trace := by
  refine ⟨updates_stopOne f r i, fun hd => ?_⟩
  rw [hd.stopOne_eq]
  exact ⟨rfl, rfl⟩

theorem acts_dispatch (f : Fleet L) (i : Nat) (c : Command) :
    f.Acts (f.dispatch i c).fleet (f.dispatch i c).trace :=
  ⟨updates_dispatch f i c, fun hd => hd.dispatch_eq i c⟩

end Fleet

end Haptics
