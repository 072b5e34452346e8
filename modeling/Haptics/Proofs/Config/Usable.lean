import Haptics.Config.Check
import Haptics.Proofs.Protocol.Memory
import Haptics.Proofs.Rule.Precedence
import Haptics.Service.Basic
import Mathlib.Data.List.Find
import Mathlib.Data.List.Nodup
/-!
# Checked configurations are usable

The check of a configuration and the parts that are set up from it read the same numbers
and rules along different paths. `Config.Usable` says what the parts can rely on: every
rule is made and stands where the file has it, the motors of generic vibrators have
addresses of their own, and no number is changed by the width of the place it goes to.
`usable_of_fault?` says that the check grants all of it.
-/

namespace Haptics

/-! ## Faults one after the other -/

@[simp] theorem ConfigFault.when_eq_none {bad : Bool} {e : ConfigFault} :
    ConfigFault.when bad e = none ↔ bad = false := by
  cases bad <;> simp [ConfigFault.when]

/-! ## Numbers of other widths -/

theorem toNat_of_nonneg {w : Nat} {x : BitVec w} (h : 0 ≤ x.toInt) :
    (x.toNat : Int) = x.toInt := by
  have hlt := x.isLt
  rw [BitVec.toInt_eq_toNat_cond] at h ⊢
  split at h <;> omega

theorem toNat_toUInt32 {n : Int32} (h : 0 ≤ n.toInt) : (n.toUInt32.toNat : Int) = n.toInt :=
  toNat_of_nonneg (x := n.toBitVec) h

/-- A size that is not negative keeps its value. -/
theorem sizeOf64_eq {n : Int32} (h : 0 ≤ n.toInt) : (sizeOf64 n : Int) = n.toInt := by
  rw [← Int32.toInt_toInt64] at h ⊢
  exact toNat_of_nonneg (x := n.toInt64.toBitVec) h

/-! ## Sections -/

theorem ServerSection.versions_of_fault? {s : ServerSection} (h : s.fault? = none) :
    1 ≤ s.minVersion ∧ s.minVersion ≤ s.maxVersion := by
  simp only [fault?, Option.or_eq_none_iff, ConfigFault.when_eq_none, decide_eq_false_iff_not,
    UInt32.not_lt] at h
  exact h.2

/-- An accepted listener that is enabled has a port of 16 bits and room for a session. -/
theorem ListenerSection.numbers_of_fault? {l : ListenerSection} (henabled : l.enabled)
    (h : l.fault? = none) :
    (0 ≤ l.port.toInt ∧ l.port.toInt ≤ 65535) ∧ 1 ≤ l.maxSessions.toInt := by
  simp only [fault?, henabled, if_true, Option.or_eq_none_iff, ConfigFault.when_eq_none,
    Bool.or_eq_false_iff, decide_eq_false_iff_not, Int32.not_lt, Int32.le_iff_toInt_le] at h
  exact ⟨h.1, h.2.2⟩

theorem SafetySection.interval_of_fault? {s : SafetySection} {maxPingTimeMs : UInt32}
    (h : s.fault? maxPingTimeMs = none) :
    10 ≤ s.checkIntervalMs.toInt ∧
      (maxPingTimeMs ≠ 0 → s.checkIntervalMs.toInt < maxPingTimeMs.toNat) := by
  simp only [fault?, Option.or_eq_none_iff, ConfigFault.when_eq_none, decide_eq_false_iff_not,
    Int32.not_lt, Int32.le_iff_toInt_le] at h
  obtain ⟨hlong, hshort⟩ := h
  have hten : 10 ≤ s.checkIntervalMs.toInt := hlong
  refine ⟨hten, fun hlimit => ?_⟩
  have hword := toNat_toUInt32 (n := s.checkIntervalMs) (by omega)
  have hpositive : 0 < maxPingTimeMs := UInt32.pos_iff_ne_zero.2 hlimit
  have hbelow : s.checkIntervalMs.toUInt32 < maxPingTimeMs := by
    simpa [hpositive] using hshort
  have hlt := UInt32.lt_iff_toNat_lt.1 hbelow
  omega

/-- Simulated devices without a fault have addresses, none of them an earlier one and no
two the same. -/
theorem addresses_of_deviceFault? {position : Nat} {earlier : List String}
    {ds : List SimulatedDevice} (h : deviceFault? position earlier ds = none) :
    (∀ d ∈ ds, d.address ≠ "" ∧ d.address ∉ earlier) ∧
      (ds.map SimulatedDevice.address).Nodup := by
  induction ds generalizing position earlier with
  | nil => exact ⟨fun d hd => absurd hd List.not_mem_nil, List.nodup_nil⟩
  | cons d ds ih =>
    simp only [deviceFault?, Option.or_eq_none_iff, ConfigFault.when_eq_none,
      Bool.or_eq_false_iff] at h
    obtain ⟨⟨-, hsome⟩, -, hnew, hrest⟩ := h
    -- the devices that follow were checked with this address among the earlier ones
    obtain ⟨hall, hnodup⟩ := ih hrest
    have haddress : d.address ≠ "" := fun hempty => by
      rw [hempty] at hsome
      cases hsome
    have hfirst : d.address ∉ earlier := by simpa using hnew
    refine ⟨fun d' hd' => ?_, List.nodup_cons.2 ⟨fun hmem => ?_, hnodup⟩⟩
    · rcases List.mem_cons.1 hd' with rfl | hd'
      · exact ⟨haddress, hfirst⟩
      · have hlater := (hall d' hd').2
        exact ⟨(hall d' hd').1, fun hmem => hlater (List.mem_cons_of_mem _ hmem)⟩
    · obtain ⟨d', hd', hsame⟩ := List.mem_map.1 hmem
      exact (hall d' hd').2 (hsame ▸ List.mem_cons_self)

/-! ## Rules -/

namespace DeviceRule

variable {r : DeviceRule}

/-- Whether a rule of a configuration is for a device. -/
def fits (r : DeviceRule) (name : String) (services : List String) : Bool :=
  nameMatches r.name name && r.services.all fun s => services.contains s

/-- What a rule of a configuration comes to. -/
def rule (r : DeviceRule) : Rule := (({} : Rule).revise r.request).1

/-- What a rule of a configuration says of the devices of a vendor. -/
def ruleFor (r : DeviceRule) (v : Vendor) : Rule :=
  { protocol := r.protocol, patterns := [r.name], services := r.services,
    endpoints := Rule.endpointsOf v,
    capabilities := Rule.capabilitiesOf v r.vibrators.toUInt32.toNat, vendor := some v }

theorem serves_ruleFor (r : DeviceRule) (v : Vendor) (name : String) (services : List String) :
    (r.ruleFor v).serves name services = r.fits name services := by
  simp [Rule.serves, ruleFor, fits]

/-- What a rule without a fault comes to. -/
structure Sound (r : DeviceRule) (v : Vendor) : Prop where
  vendor : Vendor.ofName? r.protocol = some v
  made : Rule.make r.request = .ok r.rule
  rule_eq : r.rule = r.ruleFor v
  vibrators_le : r.vibrators.toUInt32.toNat ≤ 16
  vibrators_eq : (r.vibrators.toUInt32.toNat : Int) = r.vibrators.toInt
  /-- Vendors of vibrators have at least one. -/
  vibrators_pos : Rule.needsVibrator v → 0 < r.vibrators.toUInt32.toNat

/-- **A rule that passes the check is made.** -/
theorem sound_of_fault? (h : r.fault? = none) : ∃ v, r.Sound v := by
  simp only [fault?, Option.or_eq_none_iff, ConfigFault.when_eq_none, Bool.or_eq_false_iff,
    decide_eq_false_iff_not, Int32.not_lt, Int32.le_iff_toInt_le] at h
  obtain ⟨hname, hknown, ⟨hlow, hhigh⟩, hmake⟩ := h
  obtain ⟨v, hv⟩ := Option.isSome_iff_exists.1 (Option.isNone_eq_false_iff.1 hknown)
  have hzero : 0 ≤ r.vibrators.toInt := hlow
  have hmost : r.vibrators.toInt ≤ 16 := hhigh
  have hword := toNat_toUInt32 hzero
  have hpattern : ¬ r.request.pattern.isEmpty = true := ne_true_of_eq_false hname
  have hvendor : Vendor.ofName? r.request.protocol = some v := hv
  by_cases hbare : (Rule.needsVibrator v && r.request.vibrators == 0) = true
  · -- the rule would lack a vibrator, which the check finds by making it
    rw [Rule.make, Rule.revise, if_neg hpattern, hvendor] at hmake
    dsimp only at hmake
    rw [if_pos hbare] at hmake
    cases hmake
  · have hrevise : ({} : Rule).revise r.request = (r.ruleFor v, none) := by
      rw [Rule.revise, if_neg hpattern, hvendor]
      dsimp only
      rw [if_neg hbare]
      rfl
    have hrule : r.rule = r.ruleFor v := congrArg Prod.fst hrevise
    refine ⟨v, hv, ?_, hrule, by omega, hword, fun hneeds => ?_⟩
    · rw [Rule.make, hrevise, hrule]
    · have hsome : r.vibrators.toUInt32 ≠ 0 := fun hzero => by
        simp [hneeds, request, hzero] at hbare
      exact UInt32.lt_iff_toNat_lt.1 (UInt32.pos_iff_ne_zero.2 hsome)

theorem Sound.serves {v : Vendor} (h : r.Sound v) : (r.ruleFor v).Serves v where
  vendor := rfl
  endpoints := rfl
  suits := Capabilities.suits_capabilitiesOf h.vibrators_le
  length_le := Nat.le_trans (Capabilities.length_capabilitiesOf h.vibrators_le) (by omega)

end DeviceRule

/-! ## Rulebooks -/

namespace Config

/-- **Rules are entered in order**, those of the configuration before the others. -/
theorem enterRules_eq {rs : List DeviceRule} (h : ∀ r ∈ rs, ∃ v, r.Sound v) (book : Rulebook) :
    enterRules book rs = ({ book with rules := rs.map DeviceRule.rule ++ book.rules }, none) := by
  induction rs with
  | nil => rfl
  | cons r rs ih =>
    obtain ⟨v, hsound⟩ := h r List.mem_cons_self
    rw [enterRules, ih fun r' hr' => h r' (List.mem_cons_of_mem _ hr')]
    dsimp only
    rw [hsound.made]
    rfl

variable {c : Config}

/-- **The rules of an accepted configuration are all added**, before the built-in ones. -/
theorem rulebook_eq (h : ∀ r ∈ c.devices, ∃ v, r.Sound v) :
    c.rulebook = ({ rules := c.devices.map DeviceRule.rule ++ Rulebook.builtinRules,
                    allowRaw := c.server.allowRaw }, none) :=
  enterRules_eq h _

/-- The first rule that fits decides, and a built-in one only if none does. -/
theorem match?_rulebook (h : ∀ r ∈ c.devices, ∃ v, r.Sound v) (name : String)
    (services : List String) :
    c.rulebook.1.match? name services =
      ((c.devices.find? fun r => r.fits name services).map DeviceRule.rule).or
        (Rulebook.builtin.match? name services) := by
  have hfits : ∀ r ∈ c.devices, r.rule.serves name services = r.fits name services := by
    intro r hr
    obtain ⟨v, hsound⟩ := h r hr
    rw [hsound.rule_eq, r.serves_ruleFor]
  have hfirst : (c.devices.map DeviceRule.rule).find? (fun r => r.serves name services) =
      (c.devices.find? fun r => r.fits name services).map DeviceRule.rule := by
    rw [List.find?_map]
    refine congrArg _ (List.find?_congr fun r hr => ?_)
    exact hfits r hr
  rw [rulebook_eq h, Rulebook.match?, List.find?_append, hfirst]
  rfl

/-- **A device is served by the vendor of the first rule that fits.** -/
theorem create_rulebook (h : ∀ r ∈ c.devices, ∃ v, r.Sound v) {name : String}
    {services : List String} {r : DeviceRule}
    (hfirst : c.devices.find? (fun r => r.fits name services) = some r) :
    ∃ v, Vendor.ofName? r.protocol = some v ∧
      c.rulebook.1.create name services = .ok (.fresh v (c.rulebook.1.capabilities r.rule)) := by
  obtain ⟨v, hsound⟩ := h r (List.mem_of_find?_eq_some hfirst)
  have hmatch : c.rulebook.1.match? name services = some r.rule := by
    rw [match?_rulebook h, hfirst]
    rfl
  have hvendor : r.rule.vendor = some v := by rw [hsound.rule_eq]; rfl
  exact ⟨v, hsound.vendor, Rulebook.create_eq_ok hmatch hvendor⟩

end Config

/-! ## Addresses of motors -/

namespace GenericVibrator

/-- The byte that the frames for a motor begin with. -/
def address (a : Actuator) : UInt8 := (0xa0 + a.index).toUInt8

/-- **A device has so many motors, each with an address of its own.** -/
structure Addressed (c : Capabilities) (number : Nat) : Prop where
  length_eq : (Lovense.motors c).length = number
  distinct : ((Lovense.motors c).map address).Nodup
  within : ∀ a ∈ Lovense.motors c, 0xa0 ≤ address a ∧ address a ≤ 0xaf
  /-- The frames of a motor begin with its address. -/
  frame_eq : ∀ a ∈ Lovense.motors c, ∀ step, frame a.index step = [address a, step.toUInt8]
  /-- A command has one frame at most for each motor, and none for anything else. -/
  commands : ∀ (p p' : Protocol) (kind : ActuatorKind) (settings : List Setting)
    (writes : List Write), p.dialect = .genericVibrator → p.capabilities = c →
    p.translateSettings kind settings = .ok (writes, p') →
    (writes.map fun w => w.data.head?).Nodup ∧
      ∀ w ∈ writes, ∃ a ∈ Lovense.motors c, ∃ step, w = toWrite (frame a.index step)
  /-- A stop has one frame for each motor. -/
  stop : ∀ p : Protocol, p.dialect = .genericVibrator → p.capabilities = c →
    p.stop.1 = (Lovense.motors c).map fun a => toWrite (frame a.index 0)

variable {c : Capabilities} {a b : Actuator}

/-- Sixteen motors have addresses of their own. -/
theorem nodup_addresses {indices : List UInt32} (hlow : ∀ i ∈ indices, i.toNat < 16)
    (h : indices.Nodup) : (indices.map fun i => (0xa0 + i).toUInt8).Nodup := by
  refine List.Nodup.map_on (fun i hi j hj hsame => ?_) h
  have hnat : 0xa0 + i.toNat = 0xa0 + j.toNat := by
    rw [← Hardware.toNat_address (hlow i hi), ← Hardware.toNat_address (hlow j hj), hsame]
  exact UInt32.toNat_inj.1 (by omega)

/-- Vibrators get one frame for each target, and other commands none. -/
theorem eq_of_encode {p : Protocol} {kind : ActuatorKind} {ts : List Target}
    {writes : List Write} {dialect : Dialect} (hp : p.dialect = .genericVibrator)
    (h : p.encode kind ts = .ok (writes, dialect)) :
    kind = .vibrate ∧ writes = ts.map fun t => toWrite (frame t.index t.step) := by
  rw [Protocol.encode, hp] at h
  dsimp only [encode] at h
  by_cases hkind : kind = .vibrate
  · rw [if_pos hkind] at h
    cases h
    exact ⟨hkind, List.map_map⟩
  · rw [if_neg hkind] at h
    cases h

theorem writes_translate (hc : c.Suits .genericVibrator) {p p' : Protocol} {kind : ActuatorKind}
    {settings : List Setting} {writes : List Write} (hp : p.dialect = .genericVibrator)
    (hcap : p.capabilities = c) (h : p.translateSettings kind settings = .ok (writes, p')) :
    (writes.map fun w => w.data.head?).Nodup ∧
      ∀ w ∈ writes, ∃ a ∈ Lovense.motors c, ∃ step, w = toWrite (frame a.index step) := by
  unfold Protocol.translateSettings at h
  split at h
  · cases h
  · rename_i ts hts
    obtain ⟨-, hall, hnodup⟩ := Capabilities.located_of_targets hts
    -- only targets that change something are sent, and they are apart as all of them are
    have hsome : ∀ t ∈ ts.filter (p.changes kind), t.Located c kind := fun t ht =>
      hcap ▸ hall t (List.mem_filter.1 ht).1
    have hapart : ((ts.filter (p.changes kind)).map Target.index).Nodup :=
      hnodup.sublist (List.filter_sublist.map _)
    generalize ts.filter (p.changes kind) = us at h hsome hapart
    cases us with
    | nil =>
      cases h
      exact ⟨List.nodup_nil, fun w hw => absurd hw List.not_mem_nil⟩
    | cons u us =>
      dsimp only at h
      split at h
      · cases h
      · rename_i ws dialect hencode
        cases h
        obtain ⟨rfl, rfl⟩ := eq_of_encode hp hencode
        have hmotor : ∀ t ∈ u :: us, t.actuator ∈ Lovense.motors c ∧
            t.actuator.index = t.index := fun t ht =>
          ⟨(hsome t ht).mem_motors hc, (hsome t ht).index_eq hc⟩
        constructor
        · have hheads : ((u :: us).map fun t => toWrite (frame t.index t.step)).map
              (fun w => w.data.head?) =
              (((u :: us).map Target.index).map fun i => (0xa0 + i).toUInt8).map some := by
            rw [List.map_map, List.map_map, List.map_map]
            rfl
          have hlow : ∀ i ∈ (u :: us).map Target.index, i.toNat < 16 := by
            intro i hi
            obtain ⟨t, ht, rfl⟩ := List.mem_map.1 hi
            obtain ⟨hmem, hindex⟩ := hmotor t ht
            exact hindex ▸ hc.motor_index_lt hmem
          rw [hheads]
          exact (nodup_addresses hlow hapart).map fun i j hsome => Option.some.inj hsome
        · intro w hw
          obtain ⟨t, ht, rfl⟩ := List.mem_map.1 hw
          exact ⟨t.actuator, (hmotor t ht).1, t.step, by rw [(hmotor t ht).2]⟩

theorem addressed_of_suits (hc : c.Suits .genericVibrator) {number : Nat}
    (hnumber : c.count .vibrate = number) : Addressed c number where
  length_eq := by
    rw [← hnumber, Capabilities.count_eq_length]
    rfl
  distinct := by
    have haddresses : (Lovense.motors c).map address =
        ((Lovense.motors c).map Actuator.index).map fun i => (0xa0 + i).toUInt8 := by
      rw [List.map_map]
      rfl
    rw [haddresses]
    refine nodup_addresses (fun i hi => ?_) (Hardware.nodup_index_motors hc)
    obtain ⟨a, ha, rfl⟩ := List.mem_map.1 hi
    exact hc.motor_index_lt ha
  within a ha := by
    have hlt := hc.motor_index_lt ha
    have hnat : (address a).toNat = 0xa0 + a.index.toNat := Hardware.toNat_address hlt
    rw [UInt8.le_iff_toNat_le, UInt8.le_iff_toNat_le, hnat]
    have hlow : (0xa0 : UInt8).toNat = 0xa0 := rfl
    have hhigh : (0xaf : UInt8).toNat = 0xaf := rfl
    omega
  frame_eq a ha step := rfl
  commands p p' kind settings writes := writes_translate hc
  stop p hp hcap := by
    rw [Protocol.stop, Protocol.stopFrames, hp, hcap]
    exact List.map_map

end GenericVibrator

/-- A rule for generic vibrators has the motors that it asks for, whether or not raw writes
are allowed. -/
theorem Rulebook.count_capabilities (b : Rulebook) (r : DeviceRule) :
    (b.capabilities (r.ruleFor .genericVibrator)).count .vibrate =
      r.vibrators.toUInt32.toNat := by
  have hcount : (r.ruleFor .genericVibrator).capabilities.count .vibrate =
      r.vibrators.toUInt32.toNat := by
    have hall : ∀ a ∈ (r.ruleFor .genericVibrator).capabilities.actuators,
        decide (a.kind = .vibrate) = true := fun a ha =>
      decide_eq_true (Capabilities.kind_of_mem_added ha)
    rw [Capabilities.count, List.countP_eq_length.2 hall]
    simp [DeviceRule.ruleFor, Rule.capabilitiesOf, Capabilities.addActuators]
  have hone : (r.ruleFor .genericVibrator).endpoints = Rule.endpointsOf .genericVibrator := rfl
  rcases b.capabilities_cases hone with heq | ⟨endpoint, heq⟩
  · rw [heq]
    exact hcount
  · -- the one actuator for raw writes is no motor
    rw [heq]
    exact (Capabilities.count_addActuators (by decide)).trans hcount

/-! ## The whole -/

namespace Config

/-- **What the parts of a server can rely on.** -/
structure Usable (c : Config) : Prop where
  /-- Every rule is made. -/
  rules : ∀ r ∈ c.devices, Rule.make r.request = .ok r.rule
  /-- The rules stand in the order of the file, and the built-in ones after them. -/
  rulebook : c.rulebook = ({ rules := c.devices.map DeviceRule.rule ++ Rulebook.builtinRules,
                             allowRaw := c.server.allowRaw }, none)
  /-- No service fails to start for a rule. -/
  starts : ∀ v : Service, v.config = c → ∀ why, v.start.2 ≠ some (.rule why)
  /-- The first rule that fits decides, and a built-in one only if none does. -/
  precedence : ∀ (name : String) (services : List String),
    c.rulebook.1.match? name services =
      ((c.devices.find? fun r => r.fits name services).map DeviceRule.rule).or
        (Rulebook.builtin.match? name services)
  /-- The rule that decides is the one whose vendor's protocol a device gets. -/
  served : ∀ (name : String) (services : List String) (r : DeviceRule),
    c.devices.find? (fun r => r.fits name services) = some r →
    ∃ v, Vendor.ofName? r.protocol = some v ∧
      c.rulebook.1.create name services = .ok (.fresh v (c.rulebook.1.capabilities r.rule))
  /-- The motors of generic vibrators have addresses of their own. -/
  addressed : ∀ r ∈ c.devices, Vendor.ofName? r.protocol = some .genericVibrator →
    ∃ number : Nat, (number : Int) = r.vibrators.toInt ∧ 1 ≤ number ∧ number ≤ 16 ∧
      GenericVibrator.Addressed (c.rulebook.1.capabilities r.rule) number
  versions : 1 ≤ c.terms.minVersion ∧ c.terms.minVersion ≤ c.terms.maxVersion
  queue : (c.terms.eventQueueSize : Int) = c.queueSize.toInt ∧ 1 ≤ c.terms.eventQueueSize
  /-- What a listener is given is what the configuration says. -/
  listener : c.listener.enabled →
    (c.listenerTerms.port.toNat : Int) = c.listener.port.toInt ∧
      (c.listenerTerms.maxSessions : Int) = c.listener.maxSessions.toInt ∧
      1 ≤ c.listenerTerms.maxSessions
  /-- Silence is checked for more often than a client may be silent. -/
  interval : 10 ≤ c.safety.checkIntervalMs.toInt ∧
    (c.terms.maxPingTimeMs ≠ 0 → c.safety.checkIntervalMs.toInt < c.terms.maxPingTimeMs.toNat)
  /-- Simulated devices have addresses, and no two the same. -/
  simulated : c.simulation.enabled →
    (∀ d ∈ c.simulation.devices, d.address ≠ "") ∧
      (c.simulation.devices.map SimulatedDevice.address).Nodup

variable {c : Config}

theorem sections_of_fault? (h : c.fault? = none) :
    c.server.fault? = none ∧ c.listener.fault? = none ∧
      c.safety.fault? c.server.maxPingTimeMs = none ∧ 1 ≤ c.queueSize.toInt ∧
      (∀ r ∈ c.devices, ∃ v, r.Sound v) ∧
      (c.simulation.enabled → deviceFault? 0 [] c.simulation.devices = none) := by
  simp only [fault?, Option.or_eq_none_iff, ConfigFault.when_eq_none, decide_eq_false_iff_not,
    Int32.not_lt, Int32.le_iff_toInt_le, List.findSome?_eq_none_iff] at h
  obtain ⟨hserver, hlistener, hsafety, hqueue, hrules, hdevices, -⟩ := h
  refine ⟨hserver, hlistener, hsafety, hqueue,
    fun r hr => DeviceRule.sound_of_fault? (hrules r hr), fun henabled => ?_⟩
  rwa [if_pos henabled] at hdevices

theorem starts_of_rulebook {book : Rulebook} (h : c.rulebook = (book, none)) (v : Service)
    (hv : v.config = c) (why : RuleFault) : v.start.2 ≠ some (.rule why) := by
  intro hfault
  rw [Service.start, hv, h] at hfault
  obtain ⟨e, -, he⟩ := Option.map_eq_some_iff.1 hfault
  cases he

/-- A rule for generic vibrators has from one motor to sixteen, as many as it asks for. -/
theorem addressed_rulebook {r : DeviceRule} {v : Vendor} (h : r.Sound v)
    (hvendor : Vendor.ofName? r.protocol = some .genericVibrator) (book : Rulebook) :
    ∃ number : Nat, (number : Int) = r.vibrators.toInt ∧ 1 ≤ number ∧ number ≤ 16 ∧
      GenericVibrator.Addressed (book.capabilities r.rule) number := by
  obtain rfl : v = .genericVibrator := Option.some.inj (h.vendor.symm.trans hvendor)
  have hsome := h.vibrators_pos rfl
  refine ⟨r.vibrators.toUInt32.toNat, h.vibrators_eq, hsome, h.vibrators_le, ?_⟩
  rw [h.rule_eq]
  exact GenericVibrator.addressed_of_suits (Rulebook.suits_capabilities h.serves)
    (Rulebook.count_capabilities book r)

theorem listenerTerms_of_fault? (henabled : c.listener.enabled) (h : c.listener.fault? = none) :
    (c.listenerTerms.port.toNat : Int) = c.listener.port.toInt ∧
      (c.listenerTerms.maxSessions : Int) = c.listener.maxSessions.toInt ∧
      1 ≤ c.listenerTerms.maxSessions := by
  obtain ⟨⟨hlow, hhigh⟩, hsessions⟩ := ListenerSection.numbers_of_fault? henabled h
  have hport : (c.listener.port.toUInt32.toNat : Int) = c.listener.port.toInt :=
    toNat_toUInt32 hlow
  have hkept : c.listenerTerms.port.toNat = c.listener.port.toUInt32.toNat % 2 ^ 16 :=
    UInt32.toNat_toUInt16 _
  have hmax : (c.listenerTerms.maxSessions : Int) = c.listener.maxSessions.toInt :=
    sizeOf64_eq (by omega)
  exact ⟨by omega, hmax, by omega⟩

/-- **A configuration that passes the check is usable as it stands.** -/
theorem usable_of_fault? (h : c.fault? = none) : c.Usable := by
  obtain ⟨hserver, hlistener, hsafety, hqueue, hrules, hdevices⟩ := sections_of_fault? h
  have hsize : (c.terms.eventQueueSize : Int) = c.queueSize.toInt := sizeOf64_eq (by omega)
  constructor
  case rules =>
    intro r hr
    obtain ⟨v, hsound⟩ := hrules r hr
    exact hsound.made
  case rulebook => exact rulebook_eq hrules
  case starts => exact starts_of_rulebook (rulebook_eq hrules)
  case precedence => exact match?_rulebook hrules
  case served => exact fun name services r => create_rulebook hrules
  case addressed =>
    intro r hr hvendor
    obtain ⟨v, hsound⟩ := hrules r hr
    exact addressed_rulebook hsound hvendor c.rulebook.1
  case versions => exact ServerSection.versions_of_fault? hserver
  case queue => exact ⟨hsize, by omega⟩
  case listener => exact fun henabled => listenerTerms_of_fault? henabled hlistener
  case interval => exact SafetySection.interval_of_fault? hsafety
  case simulated =>
    intro henabled
    obtain ⟨hall, hnodup⟩ := addresses_of_deviceFault? (hdevices henabled)
    exact ⟨fun d hd => (hall d hd).1, hnodup⟩

/-- A configuration with a rule of every vendor and two simulated devices. -/
def crowded : Config :=
  { server := { allowRaw := true }
    listener := { port := 65535, maxSessions := 1 }
    safety := { checkIntervalMs := 999 }
    devices :=
      [{ name := "LVS-Max*", protocol := "lovense", vibrators := 2 },
       { name := "Pack*", protocol := "generic-vibrator", vibrators := 16, services := ["fff0"] },
       { name := "CycSA*", protocol := "vorze", vibrators := 0 },
       { name := "Launch*", protocol := "launch", vibrators := 0 }]
    simulation :=
      { enabled := true
        devices := [{ name := "LVS-Max12", address := "a" }, { name := "Pack", address := "b" }] } }

theorem usable_crowded : crowded.fault? = none ∧ crowded.Usable :=
  ⟨by decide, usable_of_fault? (by decide)⟩

end Config

end Haptics
