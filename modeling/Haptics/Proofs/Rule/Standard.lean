import Haptics.Rule.Rulebook
/-!
# Standard rules

A rule is standard if it is built in or was made from a request for at most 16
vibrators, which is as many as a configuration may ask for. `Capabilities.Suits`
states what such a rule promises of the devices it serves: every actuator has
its position as its index, the motors come first, there is at most one rotator,
and all actuators are of kinds the vendor's devices have. `sound_of_create` is
the main statement: what a standard rulebook creates keeps that promise.
-/

namespace Haptics

/-- The kinds of actuators a vendor's devices have, raw writes apart. -/
def Vendor.kinds : Vendor → List ActuatorKind
  | lovense => [.vibrate, .rotate]
  | vorze => [.rotate]
  | launch => [.linear]
  | genericVibrator => [.vibrate]

namespace Capabilities

/-- The index of every actuator is its position in the list. -/
def Positioned (as : List Actuator) : Prop :=
  ∀ (i : Nat) (a : Actuator), as[i]? = some a → a.index.toNat = i

/-- What a standard rule promises of a vendor's devices. -/
structure Suits (c : Capabilities) (v : Vendor) : Prop where
  positioned : Positioned c.actuators
  motors_positioned : Positioned (Lovense.motors c)
  motors_le : c.count .vibrate ≤ 16
  rotors_le : c.count .rotate ≤ 1
  kinds : ∀ a ∈ c.actuators, a.kind = .rawWrite ∨ a.kind ∈ v.kinds

variable {c : Capabilities} {v : Vendor}

/-! ## Adding actuators -/

/-- The actuators that `addActuators` appends. -/
def added (kind : ActuatorKind) (stepCount : UInt32) (endpoint : String) (start number : Nat) :
    List Actuator :=
  (List.range' start number).map fun i =>
    { kind, index := UInt32.ofNat i, stepCount, endpoint }

theorem actuators_addActuators (c : Capabilities) (kind : ActuatorKind) (stepCount : UInt32)
    (endpoint : String) (number : Nat) :
    (c.addActuators kind stepCount endpoint number).actuators =
      c.actuators ++ added kind stepCount endpoint c.actuators.length number := rfl

theorem kind_of_mem_added {kind : ActuatorKind} {stepCount : UInt32} {endpoint : String}
    {start number : Nat} {a : Actuator} (h : a ∈ added kind stepCount endpoint start number) :
    a.kind = kind := by
  obtain ⟨i, -, rfl⟩ := List.mem_map.1 h
  rfl

/-- An appended actuator has its position as its index, as long as indices are
large enough to hold it. -/
theorem index_of_added {kind : ActuatorKind} {stepCount : UInt32} {endpoint : String}
    {start number i : Nat} {a : Actuator} (hn : start + number ≤ UInt32.size)
    (h : (added kind stepCount endpoint start number)[i]? = some a) :
    a.index.toNat = start + i := by
  simp only [added, List.getElem?_map, Option.map_eq_some_iff] at h
  obtain ⟨j, hj, rfl⟩ := h
  obtain ⟨hlt, hj⟩ := List.getElem?_eq_some_iff.1 hj
  simp only [List.length_range', List.getElem_range'] at hlt hj
  have hsmall : j < UInt32.size := by omega
  rw [UInt32.toNat_ofNat_of_lt' hsmall]
  omega

theorem positioned_addActuators {kind : ActuatorKind} {stepCount : UInt32} {endpoint : String}
    {number : Nat} (h : Positioned c.actuators) (hn : c.actuators.length + number ≤ UInt32.size) :
    Positioned (c.addActuators kind stepCount endpoint number).actuators := by
  intro i a hi
  rw [actuators_addActuators, List.getElem?_append] at hi
  split at hi
  · exact h i a hi
  · have := index_of_added hn hi
    omega

/-- Actuators of another kind leave the actuators of a kind as they are. -/
theorem filter_kind_addActuators {kind other : ActuatorKind} {stepCount : UInt32}
    {endpoint : String} {number : Nat} (hk : other ≠ kind) :
    (c.addActuators other stepCount endpoint number).actuators.filter (fun a => a.kind = kind) =
      c.actuators.filter fun a => a.kind = kind := by
  have hnil : (added other stepCount endpoint c.actuators.length number).filter
      (fun a => a.kind = kind) = [] := by
    refine List.filter_eq_nil_iff.2 fun a ha => ?_
    rw [kind_of_mem_added ha]
    simpa using hk
  rw [actuators_addActuators, List.filter_append, hnil, List.append_nil]

theorem count_eq_length (c : Capabilities) (kind : ActuatorKind) :
    c.count kind = (c.actuators.filter fun a => a.kind = kind).length :=
  List.countP_eq_length_filter

theorem count_le_length (c : Capabilities) (kind : ActuatorKind) :
    c.count kind ≤ c.actuators.length :=
  List.countP_le_length

theorem eq_of_count_le_one {kind : ActuatorKind} (h : c.count kind ≤ 1) {a b : Actuator}
    (ha : a ∈ c.actuators) (hb : b ∈ c.actuators) (hka : a.kind = kind) (hkb : b.kind = kind) :
    a = b := by
  rw [count_eq_length] at h
  have hma : a ∈ c.actuators.filter fun x => x.kind = kind := by simp [ha, hka]
  have hmb : b ∈ c.actuators.filter fun x => x.kind = kind := by simp [hb, hkb]
  obtain ⟨x, hx⟩ := List.length_eq_one_iff.1 (Nat.le_antisymm h (List.length_pos_of_mem hma))
  rw [hx, List.mem_singleton] at hma hmb
  rw [hma, hmb]

theorem count_addActuators {kind other : ActuatorKind} {stepCount : UInt32} {endpoint : String}
    {number : Nat} (hk : other ≠ kind) :
    (c.addActuators other stepCount endpoint number).count kind = c.count kind := by
  rw [count_eq_length, count_eq_length, filter_kind_addActuators hk]

/-- **Raw-write actuators change nothing of what a rule promises.** -/
theorem Suits.addRaw (h : c.Suits v) (hn : c.actuators.length < UInt32.size) (endpoint : String) :
    (c.addActuators .rawWrite 0 endpoint 1).Suits v where
  positioned := positioned_addActuators h.positioned (by omega)
  motors_positioned := by
    unfold Lovense.motors
    rw [filter_kind_addActuators (by decide)]
    exact h.motors_positioned
  motors_le := by
    rw [count_addActuators (by decide)]
    exact h.motors_le
  rotors_le := by
    rw [count_addActuators (by decide)]
    exact h.rotors_le
  kinds := by
    intro a ha
    rw [actuators_addActuators, List.mem_append] at ha
    rcases ha with ha | ha
    · exact h.kinds a ha
    · exact Or.inl (kind_of_mem_added ha)

/-- A rotator after the motors of a device that has none yet. -/
theorem Suits.addRotor (h : c.Suits .lovense) (hn : c.actuators.length < UInt32.size)
    (hr : c.count .rotate = 0) (stepCount : UInt32) (endpoint : String) :
    (c.addActuators .rotate stepCount endpoint 1).Suits .lovense where
  positioned := positioned_addActuators h.positioned (by omega)
  motors_positioned := by
    unfold Lovense.motors
    rw [filter_kind_addActuators (by decide)]
    exact h.motors_positioned
  motors_le := by
    rw [count_addActuators (by decide)]
    exact h.motors_le
  rotors_le := by
    have hle : (added .rotate stepCount endpoint c.actuators.length 1).countP
        (fun a => a.kind = .rotate) ≤ 1 := List.countP_le_length
    rw [count] at hr ⊢
    rw [actuators_addActuators, List.countP_append, hr]
    omega
  kinds := by
    intro a ha
    rw [actuators_addActuators, List.mem_append] at ha
    rcases ha with ha | ha
    · exact h.kinds a ha
    · rw [kind_of_mem_added ha]
      decide

/-! ## The capabilities of each vendor -/

/-- **Devices with actuators of one kind**: what a request for one vendor comes
to, with `number` actuators if they are motors and one at most if they are
rotators. -/
theorem suits_of_single {kind : ActuatorKind} {stepCount : UInt32} {endpoint : String}
    {number : Nat} {c : Capabilities} (hv : kind ∈ v.kinds) (hn : number ≤ 16)
    (hrot : kind = .rotate → number ≤ 1)
    (hc : c.actuators = added kind stepCount endpoint 0 number) : c.Suits v := by
  have hpos : Positioned c.actuators := by
    intro i a hi
    rw [hc] at hi
    have hsize : 0 + number ≤ UInt32.size := by
      rw [UInt32.size]
      omega
    have := index_of_added hsize hi
    omega
  have hkind : ∀ a ∈ c.actuators, a.kind = kind := by
    intro a ha
    rw [hc] at ha
    exact kind_of_mem_added ha
  have hlen : c.actuators.length = number := by
    rw [hc]
    simp [added]
  refine ⟨hpos, ?_, ?_, ?_, fun a ha => Or.inr (hkind a ha ▸ hv)⟩
  · intro i a hi
    unfold Lovense.motors at hi
    by_cases hk : kind = .vibrate
    · -- all actuators are motors
      rw [List.filter_eq_self.2 fun b hb => by simp [hkind b hb, hk]] at hi
      exact hpos i a hi
    · -- there are none
      rw [List.filter_eq_nil_iff.2 fun b hb => by simp [hkind b hb, hk]] at hi
      simp at hi
  · have hle := c.count_le_length .vibrate
    omega
  · by_cases hk : kind = .rotate
    · have hle := c.count_le_length .rotate
      have hone := hrot hk
      omega
    · have hzero : c.count .rotate = 0 := by
        rw [count, List.countP_eq_zero]
        intro a ha
        simpa [hkind a ha] using hk
      omega

theorem suits_capabilitiesOf {number : Nat} (hn : number ≤ 16) :
    (Rule.capabilitiesOf v number).Suits v := by
  cases v with
  | lovense => exact suits_of_single (by decide) hn (fun h => by cases h) rfl
  | vorze => exact suits_of_single (by decide) (by omega) (fun _ => Nat.le_refl 1) rfl
  | launch => exact suits_of_single (by decide) (by omega) (fun h => by cases h) rfl
  | genericVibrator => exact suits_of_single (by decide) hn (fun h => by cases h) rfl

theorem length_capabilitiesOf {number : Nat} (hn : number ≤ 16) :
    (Rule.capabilitiesOf v number).actuators.length ≤ 16 := by
  cases v <;> simp [Rule.capabilitiesOf, addActuators] <;> omega

end Capabilities

/-! ## Standard rules and rulebooks -/

namespace Rule

/-- A rule that is built in, or was made from a request for at most 16 vibrators. -/
def Standard (r : Rule) : Prop :=
  r ∈ Rulebook.builtinRules ∨
    ∃ (before : Rule) (q : RuleRequest), q.vibrators ≤ 16 ∧ before.revise q = (r, none)

/-- What every standard rule says of the devices of its vendor. -/
structure Serves (r : Rule) (v : Vendor) : Prop where
  vendor : r.vendor = some v
  endpoints : r.endpoints = endpointsOf v
  suits : r.capabilities.Suits v
  length_le : r.capabilities.actuators.length ≤ 17

/-- A revision that succeeds says everything anew, whatever the rule said before. -/
theorem serves_of_revise {before r : Rule} {q : RuleRequest} (hq : q.vibrators ≤ 16)
    (h : before.revise q = (r, none)) : ∃ v, r.Serves v := by
  have hn : q.vibrators.toNat ≤ 16 := by simpa using UInt32.le_iff_toNat_le.1 hq
  unfold revise at h
  split at h
  · cases h
  · split at h
    · cases h
    · rename_i v hv
      split at h
      · cases h
      · cases h
        exact ⟨v, rfl, rfl, Capabilities.suits_capabilitiesOf hn,
          Nat.le_trans (Capabilities.length_capabilitiesOf hn) (by omega)⟩

theorem serves_revised {q : RuleRequest} (hq : q.vibrators ≤ 16)
    (h : (({} : Rule).revise q).2 = none) : ∃ v, (({} : Rule).revise q).1.Serves v :=
  @serves_of_revise {} (({} : Rule).revise q).1 q hq (Prod.ext rfl h)

theorem serves_of_builtin {r : Rule} (h : r ∈ Rulebook.builtinRules) : ∃ v, r.Serves v := by
  simp only [Rulebook.builtinRules, List.mem_cons, List.not_mem_nil, or_false] at h
  rcases h with rfl | rfl | rfl | rfl | rfl
  · exact serves_revised (by decide) (by decide)
  · -- the one rule that is not just a revision: a rotator is added to it
    have hc : (({} : Rule).revise
        { protocol := Vendor.lovense.name, pattern := "LVS-Nora*" }).1.capabilities =
        capabilitiesOf .lovense 1 := by decide
    refine ⟨.lovense, by decide, by decide, ?_, ?_⟩
    · rw [hc]
      exact (Capabilities.suits_capabilitiesOf (by decide)).addRotor (by decide) (by decide) _ _
    · rw [hc]
      decide
  · exact serves_revised (by decide) (by decide)
  · exact serves_revised (by decide) (by decide)
  · exact serves_revised (by decide) (by decide)

/-- **A standard rule keeps its promise to the devices of one vendor.** -/
theorem Standard.serves {r : Rule} (h : r.Standard) : ∃ v, r.Serves v := by
  rcases h with h | ⟨before, q, hq, h⟩
  · exact serves_of_builtin h
  · exact serves_of_revise hq h

end Rule

namespace Rulebook

/-- A rulebook of standard rules, with raw writes allowed or not. -/
def Standard (b : Rulebook) : Prop := ∀ r ∈ b.rules, r.Standard

variable {b : Rulebook} {name : String} {services : List String} {p : Protocol}

/-- A created protocol comes from a rule of the book, and is fresh. -/
theorem eq_fresh_of_create (h : b.create name services = .ok p) :
    ∃ r ∈ b.rules, ∃ v, r.vendor = some v ∧ p = Protocol.fresh v (b.capabilities r) := by
  unfold create at h
  split at h
  · rename_i r hr
    split at h
    · rename_i v hv
      cases h
      exact ⟨r, List.mem_of_find?_eq_some hr, v, hv, rfl⟩
    · cases h
  · cases h

/-- A device has the actuators of its rule, and one more if raw writes are allowed:
there is one endpoint for them, whatever the vendor. -/
theorem capabilities_cases (b : Rulebook) {r : Rule} {v : Vendor}
    (h : r.endpoints = Rule.endpointsOf v) :
    b.capabilities r = r.capabilities ∨
      ∃ endpoint, b.capabilities r = r.capabilities.addActuators .rawWrite 0 endpoint 1 := by
  unfold capabilities
  split
  · rw [h]
    cases v <;> exact Or.inr ⟨_, rfl⟩
  · exact Or.inl rfl

/-- The capabilities of a device keep the promise of its rule, whether or not
raw writes are allowed. -/
theorem suits_capabilities {r : Rule} {v : Vendor} (h : r.Serves v) :
    (b.capabilities r).Suits v := by
  have hsize : r.capabilities.actuators.length < UInt32.size :=
    Nat.lt_of_le_of_lt h.length_le (by decide)
  rcases b.capabilities_cases h.endpoints with heq | ⟨endpoint, heq⟩
  · rw [heq]
    exact h.suits
  · rw [heq]
    exact h.suits.addRaw hsize endpoint

end Rulebook

namespace Protocol

@[simp] theorem vendor_fresh (v : Vendor) (c : Capabilities) : (fresh v c).vendor = v := by
  cases v <;> rfl

/-- A protocol whose capabilities are as a standard rule promises. -/
def Sound (p : Protocol) : Prop := p.capabilities.Suits p.vendor

/-- **What a standard rulebook creates is sound.** -/
theorem sound_of_create {b : Rulebook} {name : String} {services : List String} {p : Protocol}
    (hb : b.Standard) (h : b.create name services = .ok p) : p.Sound := by
  obtain ⟨r, hr, v, hv, rfl⟩ := Rulebook.eq_fresh_of_create h
  obtain ⟨v', hs⟩ := (hb r hr).serves
  have hvv : v' = v := Option.some.inj (hs.vendor.symm.trans hv)
  subst hvv
  rw [Sound, vendor_fresh]
  exact Rulebook.suits_capabilities hs

end Protocol

end Haptics
