import Haptics.Proofs.Protocol.Hardware
import Haptics.Proofs.Rule.Layout
import Haptics.Proofs.Rule.Precedence
/-!
# The arrangement of actuators

The layout of a device is built piece by piece: by the request for its rule, by
what a built-in rule adds, and by the raw writes that a rulebook allows. Each
piece takes its indices from the length of the list so far. That no two pieces
get in each other's way is what `Capabilities.Arranged` says: an index is a
position, the actuators of the rule are the first and stay as they are, and the
numbers of the motors count them. `Rulebook.arranged_of_match` is the main
statement.
-/

namespace Haptics

namespace Capabilities

variable {c c' : Capabilities} {endpoints : List String}

/-! ## Raw writes -/

/-- **One actuator for raw writes is added for each of some endpoints**, behind the others, which
stay as they are. -/
structure Extends (c : Capabilities) (endpoints : List String) (c' : Capabilities) : Prop where
  actuators : ∃ raws, c'.actuators = c.actuators ++ raws ∧ raws.map Actuator.endpoint = endpoints ∧
    ∀ a ∈ raws, a.kind = .rawWrite ∧ a.stepCount = 0 ∧ a.range = {}
  sensors : c'.sensors = c.sensors

theorem Extends.refl (c : Capabilities) : c.Extends [] c :=
  ⟨⟨[], (List.append_nil _).symm, rfl, fun _ ha => absurd ha List.not_mem_nil⟩, rfl⟩

/-- One more endpoint has one more actuator, at the end. -/
theorem Extends.addRaw (h : c.Extends endpoints c') (endpoint : String) :
    c.Extends (endpoints ++ [endpoint]) (c'.addActuators .rawWrite 0 endpoint 1) := by
  obtain ⟨⟨raws, hactuators, hendpoints, hraws⟩, hsensors⟩ := h
  let a : Actuator :=
    { kind := .rawWrite, index := UInt32.ofNat c'.actuators.length, stepCount := 0, endpoint }
  refine ⟨⟨raws ++ [a], ?_, ?_, ?_⟩, hsensors⟩
  · rw [← List.append_assoc, ← hactuators]
    exact actuators_addActuators ..
  · rw [List.map_append, hendpoints]
    rfl
  · rw [List.forall_mem_append, List.forall_mem_singleton]
    exact ⟨hraws, rfl, rfl, rfl⟩

theorem Extends.addRaws (h : c.Extends endpoints c') (more : List String) :
    c.Extends (endpoints ++ more)
      (more.foldl (fun c endpoint => c.addActuators .rawWrite 0 endpoint 1) c') := by
  induction more generalizing endpoints c' with
  | nil =>
    rw [List.append_nil]
    exact h
  | cons endpoint more ih =>
    rw [List.append_cons]
    exact ih (h.addRaw endpoint)

/-- Raw writes are no motors. -/
theorem Extends.count_vibrate (h : c.Extends endpoints c') :
    c'.count .vibrate = c.count .vibrate := by
  obtain ⟨⟨raws, hactuators, -, hraws⟩, -⟩ := h
  have hnone : raws.countP (fun a => a.kind = .vibrate) = 0 := by
    rw [List.countP_eq_zero]
    intro a ha
    simp [(hraws a ha).1]
  rw [count, hactuators, List.countP_append, hnone, Nat.add_zero, count]

/-! ## Positions -/

/-- **What is found under an index is what stands there.** -/
theorem Positioned.findActuator?_eq (h : Positioned c.actuators) (i : UInt32) :
    c.findActuator? i = c.actuators[i.toNat]? := by
  refine Option.ext fun a => ?_
  rw [h.findActuator?_eq_some_iff]
  constructor
  · rintro ⟨ha, rfl⟩
    obtain ⟨j, hj⟩ := List.getElem?_of_mem ha
    rw [h j a hj]
    exact hj
  · intro ha
    exact ⟨List.mem_of_getElem? ha, UInt32.toNat_inj.1 (h i.toNat a ha)⟩

/-- **The numbers of the motors count them**, in their order and from 1. -/
theorem Positioned.motorNumbers_eq (h : Positioned (Lovense.motors c)) :
    (Lovense.motors c).map (fun a => Lovense.motorNumber c a.index) =
      List.range' 1 (c.count .vibrate) := by
  have hlength : c.count .vibrate = (Lovense.motors c).length := count_eq_length c .vibrate
  refine List.ext_getElem (by simp [hlength]) fun i hi _ => ?_
  rw [List.length_map] at hi
  have hindex := h i _ (List.getElem?_eq_getElem hi)
  rw [List.getElem_map, motorNumber_eq h (List.getElem_mem hi), hindex, List.getElem_range']
  omega

/-- **How the actuators of a device are arranged**, by the capabilities of its rule and the
endpoints that it takes raw writes for. -/
structure Arranged (own : Capabilities) (endpoints : List String) (c : Capabilities) : Prop where
  /-- The actuators of the rule come first, and those for raw writes after them. -/
  extends_own : own.Extends endpoints c
  /-- An index is a position. -/
  positioned : ∀ (i : Nat) (a : Actuator), c.actuators[i]? = some a → a.index.toNat = i
  /-- No two actuators have one index. -/
  nodup_index : (c.actuators.map Actuator.index).Nodup
  /-- What is found under an index is what stands there. -/
  found : ∀ i : UInt32, c.findActuator? i = c.actuators[i.toNat]?
  /-- The numbers of the motors count them, in their order and from 1. -/
  motorNumbers : (Lovense.motors c).map (fun a => Lovense.motorNumber c a.index) =
    List.range' 1 (c.count .vibrate)
  /-- These numbers do not outgrow an index. -/
  motors_lt : c.count .vibrate < UInt32.size

end Capabilities

namespace Rulebook

open Capabilities

variable {b : Rulebook} {r : Rule} {name : String} {services : List String}

theorem extends_capabilities (b : Rulebook) (r : Rule) :
    r.capabilities.Extends (if b.allowRaw then r.endpoints else []) (b.capabilities r) := by
  unfold capabilities
  split
  · exact (Extends.refl r.capabilities).addRaws r.endpoints
  · exact Extends.refl r.capabilities

/-- **The protocol that a made rule leads to is arranged by it**, whatever number of vibrators was
asked for and whether or not raw writes are allowed. -/
theorem arranged_of_match (hr : r.Made) (h : b.match? name services = some r) :
    ∃ p, b.create name services = .ok p ∧ r.vendor = some p.vendor ∧
      Arranged r.capabilities (if b.allowRaw then r.endpoints else []) p.capabilities := by
  obtain ⟨v, hlays⟩ := hr.lays
  have hlaid : (b.capabilities r).Laid v := laid_capabilities hlays
  have hextends := extends_capabilities b r
  have hvendor : r.vendor = some (Protocol.fresh v (b.capabilities r)).vendor := by
    rw [Protocol.vendor_fresh]
    exact hlays.vendor
  -- the rule alone leaves one index over, and no motor takes it
  have hmotors : (b.capabilities r).count .vibrate < UInt32.size := by
    rw [hextends.count_vibrate]
    exact Nat.lt_of_le_of_lt (count_le_length _ _) hlays.length_lt
  exact ⟨_, create_eq_ok h hlays.vendor, hvendor, hextends, hlaid.positioned,
    Positioned.nodup_index hlaid.positioned, Positioned.findActuator?_eq hlaid.positioned,
    Positioned.motorNumbers_eq hlaid.motors_positioned, hmotors⟩

/-- The built-in rules, with raw writes allowed. -/
def rawBuiltin : Rulebook := { builtin with allowRaw := true }

/-- The rule for a motor and a rotator, which is the second of the built-in ones. -/
def noraRule : Rule := builtinRules.getD 1 {}

/-- The actuator for raw writes comes after the rotator that the built-in rule adds. -/
theorem arranged_nora :
    noraRule.Made ∧ rawBuiltin.match? "LVS-Nora" [] = some noraRule ∧
      (∃ p, rawBuiltin.create "LVS-Nora" [] = .ok p ∧ noraRule.vendor = some p.vendor ∧
        Arranged noraRule.capabilities (if rawBuiltin.allowRaw then noraRule.endpoints else [])
          p.capabilities) ∧
      (rawBuiltin.capabilities noraRule).actuators.map (fun a => (a.kind, a.index)) =
        [(.vibrate, 0), (.rotate, 1), (.rawWrite, 2)] := by
  have hmade : noraRule.Made := Or.inl (by decide)
  have hmatch : rawBuiltin.match? "LVS-Nora" [] = some noraRule := rfl
  exact ⟨hmade, hmatch, arranged_of_match hmade hmatch, by decide⟩

end Rulebook

end Haptics
