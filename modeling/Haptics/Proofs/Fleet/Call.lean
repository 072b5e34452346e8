import Haptics.Fleet.Dispatch
import Haptics.Fleet.Sweep
import Haptics.Proofs.Fleet.Update
/-!
# The calls of a fleet

Every operation of a fleet as updates (`updates_dispatch`, `updates_sweep` and so
on), and with them every fleet that calls can lead to: `Reached.sound`. What a
sweep does at one of its targets is what a call does as well (`fleet_stopOne`).
-/

namespace Haptics

open Relation

namespace Fleet

variable {L α : Type} {f : Fleet L} {i : Nat} {d : Device}

/-- A notification leaves the fleet as it is. -/
theorem fleet_notify (f : Fleet L) (i : Identity) (data : Bytes) :
    (f.notify i data).fleet = f := by
  unfold notify
  split
  · rfl
  · split
    · rfl
    · split
      · rfl
      · split <;> rfl

variable [Link L]

/-! ## Operations as updates -/

theorem updates_exchange {x : Exchange L α} (hd : f.devices[i]? = some d)
    (hc : d.connected = true) (hx : d.Touched f.links x) : f.Updates (f.absorb i x) :=
  ReflTransGen.single (.exchange hd hc hx)

/-- An exchange after which the device is removed. -/
theorem updates_exchange_remove {x : Exchange L α} (hd : f.devices[i]? = some d)
    (hc : d.connected = true) (hx : d.Touched f.links x) :
    f.Updates ((f.absorb i x).remove i x.device).fleet := by
  have hx' : (f.absorb i x).devices[i]? = some x.device := by
    rw [getElem?_absorb hd, if_pos rfl]
  have hc' : x.device.connected = true := by
    obtain ⟨p, -, heq⟩ := hx.device
    rw [heq]
    exact hc
  exact (updates_exchange hd hc hx).tail (.remove hx' hc')

theorem updates_dispatch (f : Fleet L) (i : Nat) (c : Command) :
    f.Updates (f.dispatch i c).fleet := by
  unfold dispatch
  split
  · exact ReflTransGen.refl
  · rename_i d hd
    split
    · exact ReflTransGen.refl
    · rename_i hc
      have hc : d.connected = true := by simpa using hc
      have hx := d.touched_execute f.links c
      dsimp only
      split
      · exact updates_exchange hd hc hx
      · split
        · exact updates_exchange_remove hd hc hx
        · exact updates_exchange hd hc hx

/-- A command to a device that is not there, or not connected, makes nothing happen. -/
theorem dispatch_passed (hc : f.connected i = false) (c : Command) :
    (f.dispatch i c).fleet = f ∧ (f.dispatch i c).trace = [] := by
  rw [connected] at hc
  rw [dispatch]
  split
  · exact ⟨rfl, rfl⟩
  · rename_i d hd
    rw [hd, Option.any_some] at hc
    rw [hc]
    exact ⟨rfl, rfl⟩

/-- A device that is not there, or not connected, is passed over. -/
theorem stopOne_passed (hc : f.connected i = false) (r : StopReport) :
    (f.stopOne r i).fleet = f ∧ (f.stopOne r i).trace = [] := by
  rw [connected] at hc
  rw [stopOne]
  split
  · exact ⟨rfl, rfl⟩
  · rename_i d hd
    rw [hd, Option.any_some] at hc
    rw [hc]
    exact ⟨rfl, rfl⟩

theorem updates_stopOne (f : Fleet L) (r : StopReport) (i : Nat) :
    f.Updates (f.stopOne r i).fleet := by
  unfold stopOne
  split
  · exact ReflTransGen.refl
  · rename_i d hd
    split
    · exact ReflTransGen.refl
    · rename_i hc
      have hc : d.connected = true := by simpa using hc
      have hx := d.touched_stop f.links
      dsimp only
      split
      · exact updates_exchange hd hc hx
      · split
        · exact updates_exchange_remove hd hc hx
        · exact updates_exchange hd hc hx

theorem updates_sweep (f : Fleet L) (r : StopReport) (is : List Nat) :
    f.Updates (f.sweep r is).fleet := by
  induction is generalizing f r with
  | nil => exact ReflTransGen.refl
  | cons i is ih => exact (updates_stopOne f r i).trans (ih _ _)

/-- A device is registered with a link of the fleet, if with any. -/
theorem updates_register {i : Identity} {services : List String} {link : Option LinkId}
    (hlink : ∀ id, link = some id → id < f.links.length) :
    f.Updates (f.register i services link).fleet := by
  unfold register
  split
  · exact ReflTransGen.refl
  · rename_i hfree
    split
    · exact ReflTransGen.refl
    · rename_i p id hprep
      unfold prepare at hprep
      split at hprep
      · cases hprep
      · split at hprep
        · cases hprep
        · rename_i hp
          cases hprep
          exact ReflTransGen.single (.enter hfree hp (hlink _ rfl))

theorem updates_unregister (f : Fleet L) (i : Identity) :
    f.Updates (f.unregister i).fleet := by
  unfold unregister
  split
  · exact ReflTransGen.refl
  · split
    · exact ReflTransGen.refl
    · rename_i d hd
      split
      · rename_i hc
        exact ReflTransGen.single (.remove hd hc)
      · exact ReflTransGen.refl

/-! ## Runs -/

/-- What can be asked of a fleet or happen to its links. -/
inductive Call (L : Type)
  | addLink (link : L)
  /-- A link changes behind the fleet. -/
  | disturb (id : LinkId) (change : L → L)
  | register (i : Identity) (services : List String) (link : Option LinkId)
  | unregister (i : Identity)
  | dispatch (index : Nat) (c : Command)
  | notify (i : Identity) (data : Bytes)
  | stopAll
  | stopDevices (indices : List Nat)
  | disconnectAll

/-- A device is registered with a link that is there. -/
def Call.Legal (f : Fleet L) : Call L → Prop
  | .register _ _ (some id) => id < f.links.length
  | _ => True

instance (f : Fleet L) (c : Call L) : Decidable (c.Legal f) :=
  match c with
  | .register _ _ (some id) => inferInstanceAs (Decidable (id < f.links.length))
  | .register _ _ none => .isTrue trivial
  | .addLink _ | .disturb .. | .unregister _ | .dispatch .. | .notify .. | .stopAll
  | .stopDevices _ | .disconnectAll => .isTrue trivial

/-- The fleet after a call. -/
def after (f : Fleet L) : Call L → Fleet L
  | .addLink link => (f.addLink link).2
  | .disturb id change => f.modifyLink id change
  | .register i services link => (f.register i services link).fleet
  | .unregister i => (f.unregister i).fleet
  | .dispatch index c => (f.dispatch index c).fleet
  | .notify i data => (f.notify i data).fleet
  | .stopAll => f.stopAll.fleet
  | .stopDevices indices => (f.stopDevices indices).fleet
  | .disconnectAll => f.disconnectAll.fleet

/-! ## Stops of one target -/

omit [Link L] in
/-- Of one index a connected device is the only one, or there is none. -/
theorem among_singleton (f : Fleet L) (i : Nat) :
    f.among [i] = if f.connected i then [i] else [] := by
  have hnodup : f.connectedIndices.Nodup := (pairwise_connectedIndices f).imp Nat.ne_of_lt
  have hfilter : f.among [i] = f.connectedIndices.filter (· = i) := by simp [among]
  rw [hfilter, List.filter_eq, hnodup.count]
  simp only [mem_connectedIndices]
  split <;> rfl

/-- What a stop does to the fleet has nothing to do with the report of its sweep. -/
theorem fleet_stopOne_report (f : Fleet L) (r r' : StopReport) (i : Nat) :
    (f.stopOne r i).fleet = (f.stopOne r' i).fleet := by
  unfold stopOne
  split
  · rfl
  · split
    · rfl
    · dsimp only
      split
      · rfl
      · split <;> rfl

/-- **The stop of one target does to the fleet what a sweep of that target alone does.** -/
theorem fleet_stopOne (f : Fleet L) (r : StopReport) (i : Nat) :
    (f.stopOne r i).fleet = f.after (.stopDevices [i]) := by
  rw [after, stopDevices, among_singleton]
  cases hc : f.connected i with
  | true => exact f.fleet_stopOne_report r {} i
  | false => exact (stopOne_passed hc r).1

/-! ## What runs keep -/

/-- **Every call comes down to updates.** -/
theorem updates_after {c : Call L} (hc : c.Legal f) : f.Updates (f.after c) := by
  cases c with
  | addLink link => exact ReflTransGen.single (.links (by simp))
  | disturb id change => exact ReflTransGen.single (.links (by simp))
  | register i services link =>
    refine updates_register fun id hid => ?_
    subst hid
    exact hc
  | unregister i => exact updates_unregister f i
  | dispatch index c => exact updates_dispatch f index c
  | notify i data =>
    rw [after, fleet_notify]
  | stopAll => exact updates_sweep f _ _
  | stopDevices indices => exact updates_sweep f _ _
  | disconnectAll => exact ReflTransGen.single .clear

/-- **A device stays what it is through every call**, with whatever link devices
are registered. -/
theorem evolves_after (f : Fleet L) (c : Call L) : f.Evolves (f.after c) := by
  cases c with
  | register i services link =>
    change f.Evolves (f.register i services link).fleet
    unfold register
    split
    · exact Evolves.refl f
    · rename_i hfree
      split
      · exact Evolves.refl f
      · exact evolves_enter hfree _ _
  | addLink link => exact (updates_after (f := f) (c := .addLink link) trivial).evolves
  | disturb id change => exact (updates_after (f := f) (c := .disturb id change) trivial).evolves
  | unregister i => exact (updates_unregister f i).evolves
  | dispatch index c => exact (updates_dispatch f index c).evolves
  | notify i data =>
    rw [after, fleet_notify]
    exact Evolves.refl f
  | stopAll => exact (updates_sweep f _ _).evolves
  | stopDevices indices => exact (updates_sweep f _ _).evolves
  | disconnectAll => exact (Update.clear : f.Update _).evolves

/-- A fleet that calls have led to, from one without devices. -/
inductive Reached (b : Rulebook) : Fleet L → Prop
  | start : Reached b { rulebook := b }
  | call {f : Fleet L} {c : Call L} (hf : Reached b f) (hc : c.Legal f) : Reached b (f.after c)

variable {b : Rulebook}

theorem Reached.updates (hf : Reached b f) : ({ rulebook := b } : Fleet L).Updates f := by
  induction hf with
  | start => exact ReflTransGen.refl
  | call _ hc ih => exact ih.trans (updates_after hc)

/-- **Every fleet that can be reached is sound.** -/
theorem Reached.sound (hf : Reached b f) : f.Sound := hf.updates.sound (sound_start b)

theorem Reached.rulebook_eq (hf : Reached b f) : f.rulebook = b := hf.updates.evolves.rulebook

/-- The devices of a standard rulebook have the protocols it promises. -/
theorem Reached.sound_protocol (hb : b.Standard) (hf : Reached b f)
    (hd : f.devices[i]? = some d) : d.protocol.Sound := by
  obtain ⟨services, p, hp, halike⟩ := hf.sound.served hd
  rw [hf.rulebook_eq] at hp
  exact halike.sound (Protocol.sound_of_create hb hp)

end Fleet

end Haptics
