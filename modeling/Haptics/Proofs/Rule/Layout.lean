import Haptics.Proofs.Rule.Standard
/-!
# Rules with any number of vibrators

A request may ask for as many vibrators as a number holds, and a rule made from
it need not be standard. `Capabilities.Laid` is what every rule that is built in
or was made from a request still promises of its devices: the index of every
actuator is its position, motors come first, there is one rotator and one
stroker at most, and the kinds are those of the vendor. `laid_of_create` is the
main statement.
-/

namespace Haptics

namespace Capabilities

/-- What a rule promises of a vendor's devices, with any number of motors. -/
structure Laid (c : Capabilities) (v : Vendor) : Prop where
  positioned : Positioned c.actuators
  motors_positioned : Positioned (Lovense.motors c)
  single : ∀ kind ∈ [ActuatorKind.rotate, .linear], c.count kind ≤ 1
  kinds : ∀ a ∈ c.actuators, a.kind = .rawWrite ∨ a.kind ∈ v.kinds

variable {c : Capabilities} {v : Vendor}

/-- **One rotator and one stroker at most.** -/
theorem Laid.unique (h : c.Laid v) {kind : ActuatorKind}
    (hs : kind ∈ [ActuatorKind.rotate, .linear]) {a b : Actuator} (ha : a ∈ c.actuators)
    (hb : b ∈ c.actuators) (hka : a.kind = kind) (hkb : b.kind = kind) : a = b :=
  eq_of_count_le_one (h.single kind hs) ha hb hka hkb

theorem Laid.addRaw (h : c.Laid v) (hn : c.actuators.length < UInt32.size) (endpoint : String) :
    (c.addActuators .rawWrite 0 endpoint 1).Laid v where
  positioned := positioned_addActuators h.positioned (by omega)
  motors_positioned := by
    unfold Lovense.motors
    rw [filter_kind_addActuators (by decide)]
    exact h.motors_positioned
  single kind hk := by
    have hne : ActuatorKind.rawWrite ≠ kind := by
      rintro rfl
      exact absurd hk (by decide)
    rw [count_addActuators hne]
    exact h.single kind hk
  kinds := by
    intro a ha
    rw [actuators_addActuators, List.mem_append] at ha
    rcases ha with ha | ha
    · exact h.kinds a ha
    · exact Or.inl (kind_of_mem_added ha)

/-- Devices with actuators of one kind, of which there are as many as indices if
they are motors, and one at most otherwise. -/
theorem laid_of_single {kind : ActuatorKind} {stepCount : UInt32} {endpoint : String}
    {number : Nat} (hv : kind ∈ v.kinds) (hn : number < UInt32.size)
    (hone : kind ∈ [ActuatorKind.rotate, .linear] → number ≤ 1)
    (hc : c.actuators = added kind stepCount endpoint 0 number) : c.Laid v := by
  have hkind : ∀ a ∈ c.actuators, a.kind = kind := by
    intro a ha
    rw [hc] at ha
    exact kind_of_mem_added ha
  have hpos : Positioned c.actuators := by
    intro i a hi
    rw [hc] at hi
    have := index_of_added (by omega) hi
    omega
  have hnone : ∀ other, kind ≠ other → (c.actuators.filter fun a => a.kind = other) = [] := by
    intro other hne
    refine List.filter_eq_nil_iff.2 fun a ha => ?_
    simpa [hkind a ha] using hne
  refine ⟨hpos, ?_, fun other ho => ?_, fun a ha => Or.inr (hkind a ha ▸ hv)⟩
  · intro i a hi
    unfold Lovense.motors at hi
    by_cases hk : kind = .vibrate
    · rw [List.filter_eq_self.2 fun b hb => by simp [hkind b hb, hk]] at hi
      exact hpos i a hi
    · rw [hnone _ hk] at hi
      simp at hi
  · by_cases hk : kind = other
    · subst hk
      have hle := c.count_le_length kind
      have hlen : c.actuators.length = number := by
        rw [hc]
        simp [added]
      have := hone ho
      omega
    · rw [count_eq_length, hnone _ hk]
      exact Nat.zero_le 1

theorem laid_capabilitiesOf {number : Nat} (hn : number < UInt32.size) :
    (Rule.capabilitiesOf v number).Laid v := by
  cases v with
  | lovense => exact laid_of_single (by decide) hn (fun h => absurd h (by decide)) rfl
  | vorze => exact laid_of_single (by decide) (by decide) (fun _ => Nat.le_refl 1) rfl
  | launch => exact laid_of_single (by decide) (by decide) (fun _ => Nat.le_refl 1) rfl
  | genericVibrator => exact laid_of_single (by decide) hn (fun h => absurd h (by decide)) rfl

end Capabilities

/-! ## Made rules -/

namespace Rule

/-- A rule that is built in, or was made from a request. -/
def Made (r : Rule) : Prop :=
  r ∈ Rulebook.builtinRules ∨ ∃ (before : Rule) (q : RuleRequest), before.revise q = (r, none)

/-- What every made rule says of the devices of its vendor. One index is left
over, for raw writes. -/
structure Lays (r : Rule) (v : Vendor) : Prop where
  vendor : r.vendor = some v
  endpoints : r.endpoints = endpointsOf v
  laid : r.capabilities.Laid v
  length_lt : r.capabilities.actuators.length < UInt32.size

theorem lays_of_revise {before r : Rule} {q : RuleRequest}
    (h : before.revise q = (r, none)) : ∃ v, r.Lays v := by
  have hn : q.vibrators.toNat < UInt32.size := q.vibrators.toNat_lt
  unfold revise at h
  split at h
  · cases h
  · split at h
    · cases h
    · rename_i v _
      split at h
      · cases h
      · cases h
        refine ⟨v, rfl, rfl, Capabilities.laid_capabilitiesOf hn, ?_⟩
        cases v with
        | lovense | genericVibrator => simpa [capabilitiesOf, Capabilities.addActuators] using hn
        | vorze | launch => exact (by decide : 1 < UInt32.size)

theorem lays_of_builtin {r : Rule} (h : r ∈ Rulebook.builtinRules) : ∃ v, r.Lays v := by
  obtain ⟨v, hv⟩ := serves_of_builtin h
  have hlt : r.capabilities.actuators.length < UInt32.size :=
    Nat.lt_of_le_of_lt hv.length_le (by decide)
  refine ⟨v, hv.vendor, hv.endpoints, ⟨hv.suits.positioned, hv.suits.motors_positioned, ?_,
    hv.suits.kinds⟩, hlt⟩
  -- a standard rule says nothing of strokers, but no built-in rule has two
  have hall : ∀ r ∈ Rulebook.builtinRules, ∀ kind ∈ [ActuatorKind.rotate, .linear],
      r.capabilities.count kind ≤ 1 := by decide
  exact hall r h

/-- **A made rule keeps its promise to the devices of one vendor.** -/
theorem Made.lays {r : Rule} (h : r.Made) : ∃ v, r.Lays v := by
  rcases h with h | ⟨before, q, h⟩
  · exact lays_of_builtin h
  · exact lays_of_revise h

end Rule

namespace Rulebook

/-- A rulebook of made rules, with raw writes allowed or not. -/
def Made (b : Rulebook) : Prop := ∀ r ∈ b.rules, r.Made

variable {b : Rulebook} {name : String} {services : List String} {p : Protocol}

/-- **What a rule makes of a device is laid out as the rule says.** -/
theorem laid_capabilities {r : Rule} {v : Vendor} (h : r.Lays v) : (b.capabilities r).Laid v := by
  rcases b.capabilities_cases h.endpoints with heq | ⟨endpoint, heq⟩
  · rw [heq]
    exact h.laid
  · rw [heq]
    exact h.laid.addRaw h.length_lt endpoint

end Rulebook

/-- **What a rulebook of made rules creates is laid out as its vendor's devices are.** -/
theorem Protocol.laid_of_create {b : Rulebook} {name : String} {services : List String}
    {p : Protocol} (hb : b.Made) (h : b.create name services = .ok p) :
    p.capabilities.Laid p.vendor := by
  obtain ⟨r, hr, v, hv, rfl⟩ := Rulebook.eq_fresh_of_create h
  obtain ⟨v', hl⟩ := (hb r hr).lays
  have hvv : v' = v := Option.some.inj (hl.vendor.symm.trans hv)
  subst hvv
  rw [vendor_fresh]
  exact Rulebook.laid_capabilities hl

end Haptics
