import Haptics.Proofs.Protocol.Hardware
/-!
# Stop frames in any order

A stop frame switches some outputs of a device off and leaves the others as they are. So what
several of them come to depends neither on their order nor on how often each is heard, but only on
which there are (`hearAll_congr`). That is so whatever device hears them, also one of another
vendor, for which most of them are no frames at all.
-/

namespace Haptics

namespace Hardware

variable {α : Type} {v : Vendor} {w : Write} {ws ws' : List Write}

/-! ## Outputs that writes settle -/

/-- A write puts an output at `c`, whatever it showed before, or leaves it as it is. -/
def Settles (v : Vendor) (w : Write) (output : Hardware → α) (c : α) : Prop :=
  (∀ h : Hardware, output (h.hear v w.data) = c) ∨
    ∀ h : Hardware, output (h.hear v w.data) = output h

variable {output : Hardware → α} {c : α}

theorem output_hearAll_of_left (hs : ∀ w ∈ ws, Settles v w output c)
    (hput : ¬ ∃ w ∈ ws, ∀ h : Hardware, output (h.hear v w.data) = c) (h : Hardware) :
    output (h.hearAll v ws) = output h := by
  induction ws generalizing h with
  | nil => rfl
  | cons w ws ih =>
    have hfirst : output (h.hear v w.data) = output h := by
      rcases hs w List.mem_cons_self with hw | hw
      · exact absurd ⟨w, List.mem_cons_self, hw⟩ hput
      · exact hw h
    rw [hearAll_cons, ← hfirst]
    refine ih (fun w hw => hs w (List.mem_cons_of_mem _ hw)) ?_ _
    rintro ⟨w', hmem, hw'⟩
    exact hput ⟨w', List.mem_cons_of_mem _ hmem, hw'⟩

theorem output_hearAll_of_put (hs : ∀ w ∈ ws, Settles v w output c)
    (hput : ∃ w ∈ ws, ∀ h : Hardware, output (h.hear v w.data) = c) (h : Hardware) :
    output (h.hearAll v ws) = c := by
  induction ws generalizing h with
  | nil =>
    obtain ⟨w, hw, -⟩ := hput
    cases hw
  | cons w ws ih =>
    have hs' : ∀ w ∈ ws, Settles v w output c := fun w hw => hs w (List.mem_cons_of_mem _ hw)
    rw [hearAll_cons]
    by_cases hlater : ∃ w ∈ ws, ∀ h : Hardware, output (h.hear v w.data) = c
    · exact ih hs' hlater _
    · -- only the first write can have put it there, and the others leave it
      rw [output_hearAll_of_left hs' hlater]
      obtain ⟨w', hmem, hw'⟩ := hput
      rcases List.mem_cons.1 hmem with rfl | hmem
      · exact hw' h
      · exact absurd ⟨w', hmem, hw'⟩ hlater

/-- **What is settled depends only on which writes there are.** -/
theorem output_hearAll_congr (hs : ∀ w ∈ ws, Settles v w output c)
    (hmem : ∀ w, w ∈ ws ↔ w ∈ ws') (h : Hardware) :
    output (h.hearAll v ws) = output (h.hearAll v ws') := by
  have hs' : ∀ w ∈ ws', Settles v w output c := fun w hw => hs w ((hmem w).2 hw)
  by_cases hput : ∃ w ∈ ws, ∀ h : Hardware, output (h.hear v w.data) = c
  · obtain ⟨w, hw, hc⟩ := hput
    rw [output_hearAll_of_put hs ⟨w, hw, hc⟩,
      output_hearAll_of_put hs' ⟨w, (hmem w).1 hw, hc⟩]
  · have hput' : ¬ ∃ w ∈ ws', ∀ h : Hardware, output (h.hear v w.data) = c :=
      fun ⟨w, hw, hc⟩ => hput ⟨w, (hmem w).2 hw, hc⟩
    rw [output_hearAll_of_left hs hput, output_hearAll_of_left hs' hput']

/-! ## Writes that switch outputs off -/

/-- A write switches some outputs off and does nothing else. A rotator that is off has no
direction of its own, and is taken to turn the way that the frame says. -/
structure Quiets (v : Vendor) (w : Write) : Prop where
  motor : ∀ j, Settles v w (fun h => h.motor j) 0
  rotor : Settles v w rotor 0
  clockwise : Settles v w clockwise false

/-- **Writes that switch outputs off commute, and may be repeated.** -/
theorem hearAll_congr (hq : ∀ w ∈ ws, Quiets v w) (hmem : ∀ w, w ∈ ws ↔ w ∈ ws')
    (h : Hardware) : h.hearAll v ws = h.hearAll v ws' := by
  have hmotor : (h.hearAll v ws).motor = (h.hearAll v ws').motor :=
    funext fun j => output_hearAll_congr (fun w hw => (hq w hw).motor j) hmem h
  have hrotor := output_hearAll_congr (fun w hw => (hq w hw).rotor) hmem h
  have hclockwise := output_hearAll_congr (fun w hw => (hq w hw).clockwise) hmem h
  cases hx : h.hearAll v ws
  cases hy : h.hearAll v ws'
  simp only [hx, hy] at hmotor hrotor hclockwise
  rw [hmotor, hrotor, hclockwise]

/-- Bytes that are no frame of the vendor's switch nothing off. -/
theorem quiets_of_unheard (hw : ∀ h : Hardware, h.hear v w.data = h) : Quiets v w where
  motor j := Or.inr fun h => by rw [hw]
  rotor := Or.inr fun h => by rw [hw]
  clockwise := Or.inr fun h => by rw [hw]

/-! ## Stop frames -/

theorem quiets_vibrateAll (v : Vendor) : Quiets v (Lovense.Frame.vibrateAll 0).toWrite := by
  cases v with
  | lovense =>
    refine ⟨fun j => Or.inl fun h => ?_, Or.inr fun h => ?_, Or.inr fun h => ?_⟩
    all_goals
      rw [hear_lovense]
      rfl
  | vorze => exact quiets_of_unheard fun h => rfl
  | launch => exact quiets_of_unheard fun h => rfl
  | genericVibrator => exact quiets_of_unheard fun h => rfl

theorem quiets_rotate (v : Vendor) : Quiets v (Lovense.Frame.rotate 0).toWrite := by
  cases v with
  | lovense =>
    refine ⟨fun j => Or.inr fun h => ?_, Or.inl fun h => ?_, Or.inr fun h => ?_⟩
    all_goals
      rw [hear_lovense]
      rfl
  | vorze => exact quiets_of_unheard fun h => rfl
  | launch => exact quiets_of_unheard fun h => rfl
  | genericVibrator => exact quiets_of_unheard fun h => rfl

theorem quiets_vorze (v : Vendor) : Quiets v (Vorze.toWrite Vorze.stopFrame) := by
  cases v with
  | lovense => exact quiets_of_unheard fun h => rfl
  | vorze =>
    exact ⟨fun j => Or.inr fun h => rfl, Or.inl fun h => rfl, Or.inl fun h => rfl⟩
  | launch => exact quiets_of_unheard fun h => rfl
  | genericVibrator => exact quiets_of_unheard fun h => rfl

/-- Two bytes of which the second is 0 are no text command. -/
theorem ofBytes?_address (x : UInt8) : Lovense.Frame.ofBytes? [x, 0] = none := by
  have hshort {word : Bytes} (hw : 2 < word.length) : Lovense.after? word [x, 0] = none := by
    rw [Option.eq_none_iff_forall_ne_some]
    intro rest hrest
    rw [Lovense.after?_eq_some] at hrest
    have hlen := congrArg List.length hrest
    rw [List.length_append] at hlen
    simp only [List.length_cons, List.length_nil] at hlen
    omega
  have hbattery : [x, 0] ≠ Lovense.Frame.battery.bytes := by
    intro heq
    have hlen : 2 = Lovense.Frame.battery.bytes.length := congrArg List.length heq
    exact absurd hlen (by decide)
  rw [Lovense.Frame.ofBytes?, hshort (by decide), hshort (by decide), if_neg hbattery]

theorem quiets_genericVibrator (v : Vendor) (index : UInt32) :
    Quiets v (GenericVibrator.toWrite (GenericVibrator.frame index 0)) := by
  cases v with
  | lovense =>
    refine quiets_of_unheard fun h => ?_
    have hnone : Lovense.Frame.ofBytes?
        (GenericVibrator.toWrite (GenericVibrator.frame index 0)).data = none :=
      ofBytes?_address _
    rw [hear, hnone]
    rfl
  | vorze => exact quiets_of_unheard fun h => rfl
  | launch => exact quiets_of_unheard fun h => rfl
  | genericVibrator =>
    by_cases hx : 0xa0 ≤ (0xa0 + index).toUInt8
    · have hhear (h : Hardware) : h.hear .genericVibrator
          (GenericVibrator.toWrite (GenericVibrator.frame index 0)).data =
            h.setMotor ((0xa0 + index).toUInt8 - 0xa0).toNat 0 := if_pos hx
      refine ⟨fun j => ?_, Or.inr fun h => ?_, Or.inr fun h => ?_⟩
      · by_cases hj : j = ((0xa0 + index).toUInt8 - 0xa0).toNat
        · exact Or.inl fun h => by rw [hhear]; exact if_pos hj
        · exact Or.inr fun h => by rw [hhear]; exact if_neg hj
      · rw [hhear]
        rfl
      · rw [hhear]
        rfl
    · exact quiets_of_unheard fun h => if_neg hx

end Hardware

/-- **Stop frames switch outputs off**, and do nothing else. -/
theorem Protocol.quiets_stopFrames {p : Protocol} {w : Write} (hw : w ∈ p.stopFrames)
    (v : Vendor) : Hardware.Quiets v w := by
  unfold stopFrames at hw
  split at hw
  · obtain ⟨frame, hframe, rfl⟩ := List.mem_map.1 hw
    simp only [Lovense.stopFrames, List.mem_append, List.mem_ite_nil_right,
      List.mem_singleton] at hframe
    rcases hframe with ⟨-, rfl⟩ | ⟨-, rfl⟩
    · exact Hardware.quiets_vibrateAll v
    · exact Hardware.quiets_rotate v
  · rw [List.mem_singleton.1 hw]
    exact Hardware.quiets_vorze v
  · cases hw
  · obtain ⟨frame, hframe, rfl⟩ := List.mem_map.1 hw
    obtain ⟨a, -, rfl⟩ := List.mem_map.1 hframe
    exact Hardware.quiets_genericVibrator v a.index

end Haptics
