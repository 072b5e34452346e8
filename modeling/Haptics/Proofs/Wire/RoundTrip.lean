import Haptics.Wire.Codec
/-!
# Messages there and back

What survives the way through an envelope, in both directions. A message comes
back exactly if it is `Declared`: each of its kinds and codes is one that the
wire has a number for. An envelope comes back exactly if it is `Canonical`: each
of its numbers stands for something, and no part is missing that a message always
has. Both are proved part by part, from kinds and codes up to whole messages, and
as equivalences, so that they say what is lost as well (`Message.round_trip`,
`Envelope.normal_form`). Reading never gives anything undeclared, and therefore
reading twice is reading once.
-/

namespace Haptics

/-! ## Kinds and codes -/

namespace Wire

/-- The numbers that stand for a kind of actuator or of sensor. 0 stands for one
that is not given. -/
def kindNumbers : List Int := [1, 2, 3, 4]

/-- The numbers that stand for a code. -/
def codeNumbers : List Int := [0, 1, 2, 3, 4, 5, 10, 11, 12, 13, 14, 15, 16, 20, 30, 31]

end Wire

namespace ActuatorKind

/-- A kind comes back from its number exactly if it is declared: all others share the number of
none. -/
theorem ofWire?_toWire_iff (k : ActuatorKind) : ofWire? k.toWire = some k ↔ k ∈ declared := by
  cases k <;> simp [toWire, ofWire?, declared]

/-- A number that stands for a kind is the number of that kind. -/
theorem toWire_of_ofWire? {n : Int} {k : ActuatorKind} (h : ofWire? n = some k) :
    k.toWire = n := by
  unfold ofWire? at h
  split at h <;> cases h <;> rfl

theorem mem_declared_of_ofWire? {n : Int} {k : ActuatorKind} (h : ofWire? n = some k) :
    k ∈ declared := by
  rw [← ofWire?_toWire_iff, toWire_of_ofWire? h, h]

/-- Every number outside of the list is that of no kind. -/
theorem ofWire?_eq_none_iff (n : Int) : ofWire? n = none ↔ n ∉ Wire.kindNumbers := by
  unfold ofWire?
  split <;> simp_all [Wire.kindNumbers]

end ActuatorKind

namespace SensorKind

theorem ofWire_toWire_iff (k : SensorKind) : ofWire k.toWire = k ↔ k ∈ declared := by
  cases k <;> simp [toWire, ofWire, declared]

theorem toWire_ofWire_iff (n : Int) : (ofWire n).toWire = n ↔ n ∈ Wire.kindNumbers := by
  unfold ofWire
  split <;> simp_all [toWire, Wire.kindNumbers, eq_comm]

theorem ofWire_mem_declared (n : Int) : ofWire n ∈ declared := by
  unfold ofWire
  split <;> simp [declared]

end SensorKind

namespace ErrorCode

theorem ofWire_toWire_iff (c : ErrorCode) : ofWire c.toWire = c ↔ c ∈ declared := by
  cases c <;> simp [toWire, ofWire, declared]

theorem toWire_ofWire_iff (n : Int) : (ofWire n).toWire = n ↔ n ∈ Wire.codeNumbers := by
  unfold ofWire
  split <;> simp_all [toWire, Wire.codeNumbers, eq_comm]

theorem ofWire_mem_declared (n : Int) : ofWire n ∈ declared := by
  unfold ofWire
  split <;> simp [declared]

end ErrorCode

/-! ## Declared messages -/

/-- Every kind is a declared one. -/
def Capabilities.Declared (c : Capabilities) : Prop :=
  (∀ a ∈ c.actuators, a.kind ∈ ActuatorKind.declared) ∧
    ∀ s ∈ c.sensors, s.kind ∈ SensorKind.declared

def Command.Declared : Command → Prop
  | actuate kind _ => kind ∈ ActuatorKind.declared
  | _ => True

def Payload.Declared : Payload → Prop
  | deviceListReply devices => ∀ d ∈ devices, d.capabilities.Declared
  | deviceAdded device => device.capabilities.Declared
  | deviceCommand _ command => command.Declared
  | sensorReading _ readings => ∀ r ∈ readings, r.kind ∈ SensorKind.declared
  | error code _ => code ∈ ErrorCode.declared
  | _ => True

/-- **Every kind and code in a message is a declared one.** -/
def Message.Declared (m : Message) : Prop := m.payload.Declared

/-! ## Canonical envelopes -/

namespace Wire

def Device.Canonical (d : Device) : Prop :=
  (∀ a ∈ d.actuators, a.kind ∈ kindNumbers) ∧ ∀ s ∈ d.sensors, s.kind ∈ kindNumbers

def Command.Canonical : Command → Prop
  | actuator kind _ => kind ∈ kindNumbers
  | _ => True

def Body.Canonical : Body → Prop
  | deviceListReply devices => ∀ d ∈ devices, d.Canonical
  | deviceAdded device => ∃ d, device = some d ∧ d.Canonical
  | deviceCommand _ command => ∃ c, command = some c ∧ c.Canonical
  | sensorReading _ readings => ∀ r ∈ readings, r.kind ∈ kindNumbers
  | error code _ => code ∈ codeNumbers
  | _ => True

/-- **Every number in an envelope stands for something**, a command that is sent
is given, and so is a device that is added. An envelope without a body is
canonical. -/
def Envelope.Canonical (e : Envelope) : Prop := ∀ b, e.body = some b → b.Canonical

end Wire

/-! ## From messages to envelopes and back -/

/-- A list comes back exactly if each of its elements does. -/
theorem map_map_eq_self_iff {α β : Type} (f : α → β) (g : β → α) (l : List α) :
    (l.map f).map g = l ↔ ∀ a ∈ l, g (f a) = a := by
  have hinj := List.map_inj_left (l := l) (f := g ∘ f) (g := id)
  rw [List.map_id] at hinj
  rw [List.map_map]
  exact hinj

/-- An actuator has its kind to lose, and nothing else. -/
theorem Actuator.read_toWire_iff (a : Actuator) :
    a.toWire.read = a ↔ a.kind ∈ ActuatorKind.declared := by
  obtain ⟨kind, index, range, stepCount, endpoint⟩ := a
  cases kind <;> simp [toWire, Wire.Actuator.read, ActuatorKind.toWire, ActuatorKind.ofWire?,
    ActuatorKind.declared]

theorem Sensor.read_toWire_iff (s : Sensor) :
    s.toWire.read = s ↔ s.kind ∈ SensorKind.declared := by
  rw [← SensorKind.ofWire_toWire_iff]
  exact ⟨fun h => congrArg Sensor.kind h, fun h => by simp [toWire, Wire.Sensor.read, h]⟩

theorem Reading.read_toWire_iff (r : Reading) :
    r.toWire.read = r ↔ r.kind ∈ SensorKind.declared := by
  rw [← SensorKind.ofWire_toWire_iff]
  exact ⟨fun h => congrArg Reading.kind h, fun h => by simp [toWire, Wire.Reading.read, h]⟩

/-- A device comes back if all that it can do does. -/
theorem DeviceEntry.read_toWire_iff (d : DeviceEntry) :
    d.toWire.read = d ↔ d.capabilities.Declared := by
  obtain ⟨device, name, actuators, sensors⟩ := d
  simp only [toWire, Wire.Device.read, mk.injEq, Capabilities.mk.injEq, true_and,
    map_map_eq_self_iff, Actuator.read_toWire_iff, Sensor.read_toWire_iff, Capabilities.Declared]

/-- A setting has no kind of its own, so nothing of it can be lost. -/
theorem Setting.read_toWire (s : Setting) : (s : Wire.Setting).read = s := rfl

/-- A command comes back if its kind of actuator does; the other commands have none. -/
theorem Command.read?_toWire_iff (c : Command) : c.toWire.read? = some c ↔ c.Declared := by
  cases c with
  | actuate kind settings =>
    have hsettings : (settings.map Setting.toWire).map Wire.Setting.read = settings :=
      (map_map_eq_self_iff _ _ _).2 fun s _ => s.read_toWire
    rw [Declared, ← ActuatorKind.ofWire?_toWire_iff, toWire, Wire.Command.read?, hsettings,
      Option.map_eq_some_iff]
    simp
  | rawWrite | readSensor | stop => exact iff_of_true rfl trivial

/-- A payload without a body is the unrecognized one. -/
theorem Payload.read_toWire?_iff (p : Payload) :
    (p.toWire?.map Wire.Body.read).getD .unrecognized = p ↔ p.Declared := by
  cases p with
  | deviceListReply devices =>
    simp only [toWire?, Option.map_some, Option.getD_some, Wire.Body.read,
      deviceListReply.injEq, map_map_eq_self_iff, DeviceEntry.read_toWire_iff, Declared]
  | deviceAdded device =>
    simp only [toWire?, Option.map_some, Option.getD_some, Wire.Body.read, deviceAdded.injEq,
      DeviceEntry.read_toWire_iff, Declared]
  | deviceCommand device command =>
    rw [Declared, ← Command.read?_toWire_iff]
    simp only [toWire?, Option.map_some, Option.getD_some, Wire.Body.read, Option.bind_some]
    split
    · rename_i c hc
      simp [hc]
    · rename_i hnone
      simp [hnone]
  | sensorReading device readings =>
    simp only [toWire?, Option.map_some, Option.getD_some, Wire.Body.read, sensorReading.injEq,
      true_and, map_map_eq_self_iff, Reading.read_toWire_iff, Declared]
  | error code message =>
    simp only [toWire?, Option.map_some, Option.getD_some, Wire.Body.read, error.injEq, and_true,
      ErrorCode.ofWire_toWire_iff, Declared]
  | _ => exact iff_of_true rfl trivial

/-- With the payload comes the message, whose id is kept in any case. -/
theorem Message.read_fill_iff (m : Message) (e : Wire.Envelope) :
    (m.fill e).read = m ↔ m.Declared := by
  rw [Declared, ← Payload.read_toWire?_iff]
  exact ⟨fun h => congrArg Message.payload h, fun h => by simp [fill, Wire.Envelope.read, h]⟩

/-! ## From envelopes to messages and back -/

namespace Wire

/-- The number of an actuator comes back if it stands for a kind. Any other is lost to that of raw
writes. -/
theorem Actuator.toWire_read_iff (a : Actuator) : a.read.toWire = a ↔ a.kind ∈ kindNumbers := by
  obtain ⟨kind, index, min, max, stepCount, endpoint⟩ := a
  simp only [read, Haptics.Actuator.toWire, mk.injEq, and_true]
  cases hk : ActuatorKind.ofWire? kind with
  | none =>
    rw [ActuatorKind.ofWire?_eq_none_iff] at hk
    -- it is read as one that takes raw writes, whose number stands for a kind
    refine iff_of_false (fun heq => ?_) hk
    rw [← heq] at hk
    exact hk (by decide)
  | some k =>
    have hmem : kind ∈ kindNumbers := by
      rw [← Decidable.not_not (p := kind ∈ kindNumbers), ← ActuatorKind.ofWire?_eq_none_iff, hk]
      exact Option.some_ne_none k
    exact iff_of_true (ActuatorKind.toWire_of_ofWire? hk) hmem

theorem Sensor.toWire_read_iff (s : Sensor) : s.read.toWire = s ↔ s.kind ∈ kindNumbers := by
  rw [← SensorKind.toWire_ofWire_iff]
  exact ⟨fun h => congrArg Sensor.kind h, fun h => by simp [read, Haptics.Sensor.toWire, h]⟩

theorem Reading.toWire_read_iff (r : Reading) : r.read.toWire = r ↔ r.kind ∈ kindNumbers := by
  rw [← SensorKind.toWire_ofWire_iff]
  exact ⟨fun h => congrArg Reading.kind h, fun h => by simp [read, Haptics.Reading.toWire, h]⟩

/-- A device of an envelope is put back as it was if all its numbers stand for kinds. -/
theorem Device.toWire_read_iff (d : Device) : d.read.toWire = d ↔ d.Canonical := by
  obtain ⟨index, name, actuators, sensors⟩ := d
  simp only [read, DeviceEntry.toWire, mk.injEq, true_and, map_map_eq_self_iff,
    Actuator.toWire_read_iff, Sensor.toWire_read_iff, Canonical]

theorem Setting.toWire_read (s : Setting) : s.read.toWire = s := rfl

/-- A command that is read is the one that was put. -/
theorem Command.toWire_of_read? {c : Command} {given : Haptics.Command}
    (h : c.read? = some given) : given.toWire = c := by
  cases c with
  | actuator kind settings =>
    rw [read?, Option.map_eq_some_iff] at h
    obtain ⟨k, hk, rfl⟩ := h
    have hsettings : (settings.map Setting.read).map Haptics.Setting.toWire = settings :=
      (map_map_eq_self_iff _ _ _).2 fun s _ => s.toWire_read
    rw [Haptics.Command.toWire, ActuatorKind.toWire_of_ofWire? hk, hsettings]
  | rawWrite | sensorRead | stop =>
    cases h
    rfl

/-- A command cannot be read exactly if its number stands for no kind of actuator. -/
theorem Command.read?_eq_none_iff (c : Command) : c.read? = none ↔ ¬ c.Canonical := by
  cases c with
  | actuator kind settings =>
    rw [read?, Option.map_eq_none_iff, ActuatorKind.ofWire?_eq_none_iff, Canonical]
  | rawWrite | sensorRead | stop => exact iff_of_false (fun h => nomatch h) fun h => h trivial

/-- The whole message is lost with a command that cannot be read. -/
theorem Body.toWire?_read_command_iff (device : UInt32) (c : Command) :
    (deviceCommand device (some c)).read.toWire? = some (deviceCommand device (some c)) ↔
      c.Canonical := by
  rw [read, Option.bind_some]
  cases hc : c.read? with
  | none =>
    rw [Command.read?_eq_none_iff] at hc
    exact iff_of_false (fun h => nomatch h) hc
  | some given =>
    have hcanonical : c.Canonical := by
      rw [← Classical.not_not (a := c.Canonical), ← Command.read?_eq_none_iff, hc]
      exact Option.some_ne_none given
    refine iff_of_true ?_ hcanonical
    rw [← Command.toWire_of_read? hc]
    rfl

/-- **A body comes back exactly if it is canonical.** A device that is missing is put back as an
empty one, and a command that is missing takes its whole body along. -/
theorem Body.toWire?_read_iff (b : Body) : b.read.toWire? = some b ↔ b.Canonical := by
  cases b with
  | deviceListReply devices =>
    simp only [read, Payload.toWire?, Option.some.injEq, deviceListReply.injEq,
      map_map_eq_self_iff, Device.toWire_read_iff, Canonical]
  | deviceAdded device =>
    cases device with
    | none => simp [read, Payload.toWire?, Canonical]
    | some d => simp [read, Payload.toWire?, Canonical, Device.toWire_read_iff]
  | deviceCommand device command =>
    cases command with
    | none => simp [read, Payload.toWire?, Canonical]
    | some c =>
      rw [toWire?_read_command_iff, Canonical]
      simp
  | sensorReading device readings =>
    simp only [read, Payload.toWire?, Option.some.injEq, sensorReading.injEq, true_and,
      map_map_eq_self_iff, Reading.toWire_read_iff, Canonical]
  | error code message =>
    simp only [read, Payload.toWire?, Option.some.injEq, error.injEq, and_true,
      ErrorCode.toWire_ofWire_iff, Canonical]
  | _ => exact iff_of_true rfl trivial

/-- An envelope comes back with its body; without one there is nothing that could be lost. -/
theorem Envelope.fill_read_iff (e e' : Envelope) : e.read.fill e' = e ↔ e.Canonical := by
  obtain ⟨id, body⟩ := e
  simp only [read, Message.fill, mk.injEq, true_and, Canonical]
  cases body with
  | none => simp [Payload.toWire?]
  | some b => simp [Body.toWire?_read_iff]

/-! ## What is read is declared -/

/-- What is read has a declared kind, whatever the number was. -/
theorem Actuator.declared_read (a : Actuator) : a.read.kind ∈ ActuatorKind.declared := by
  unfold read
  cases hk : ActuatorKind.ofWire? a.kind with
  | none => simp [ActuatorKind.declared]
  | some k => exact ActuatorKind.mem_declared_of_ofWire? hk

theorem Device.declared_read (d : Device) : d.read.capabilities.Declared := by
  constructor
  · intro a ha
    obtain ⟨a', -, rfl⟩ := List.mem_map.1 ha
    exact a'.declared_read
  · intro s hs
    obtain ⟨s', -, rfl⟩ := List.mem_map.1 hs
    exact SensorKind.ofWire_mem_declared s'.kind

theorem Command.declared_of_read? {c : Command} {given : Haptics.Command}
    (h : c.read? = some given) : given.Declared := by
  rw [← Haptics.Command.read?_toWire_iff, toWire_of_read? h, h]

/-- **A payload that is read is declared**, from any body. -/
theorem Body.declared_read (b : Body) : b.read.Declared := by
  cases b with
  | deviceListReply devices =>
    intro d hd
    obtain ⟨d', -, rfl⟩ := List.mem_map.1 hd
    exact d'.declared_read
  | deviceAdded device => exact (device.getD {}).declared_read
  | deviceCommand device command =>
    rw [read]
    cases hc : command.bind Command.read? with
    | none => trivial
    | some given =>
      obtain ⟨c, -, hread⟩ := Option.bind_eq_some_iff.1 hc
      exact Command.declared_of_read? hread
  | sensorReading device readings =>
    intro r hr
    obtain ⟨r', -, rfl⟩ := List.mem_map.1 hr
    exact SensorKind.ofWire_mem_declared r'.kind
  | error code message => exact ErrorCode.ofWire_mem_declared code
  | _ => trivial

theorem Envelope.declared_read (e : Envelope) : e.read.Declared := by
  obtain ⟨id, body⟩ := e
  cases body with
  | none => trivial
  | some b => exact b.declared_read

end Wire

/-! ## Whole messages and whole envelopes -/

/-- **A message comes back from any envelope that it is put into**, if its kinds
and codes are declared, and only then. What the envelope held before makes no
difference. -/
theorem Message.round_trip (m : Message) (e : Wire.Envelope) :
    ((m.fill e).read = m ↔ m.Declared) ∧ ∀ e' : Wire.Envelope, m.fill e' = m.fill e :=
  ⟨m.read_fill_iff e, fun _ => rfl⟩

/-- **Reading brings an envelope to its normal form**: the message that is read
keeps the id and is read again as it is, and it fills the same envelope exactly
if that was canonical. Without a body there is nothing to lose. -/
theorem Wire.Envelope.normal_form (e e' : Envelope) :
    e.read.id = e.id ∧ (e.read.fill e').read = e.read ∧ (e.read.fill e' = e ↔ e.Canonical) ∧
      (e.body = none → e.Canonical ∧ e.read.payload = .unrecognized) := by
  refine ⟨rfl, (Message.read_fill_iff _ _).2 e.declared_read, e.fill_read_iff e', fun hnone => ?_⟩
  constructor
  · intro b hb
    rw [hnone] at hb
    cases hb
  · rw [read, hnone]
    rfl

/-- A sensor of no kind comes back as a battery. -/
example :
    (({ body := some (.sensorReading 0 [{ kind := 0 }]) } : Wire.Envelope).read.fill {}).body =
      some (.sensorReading 0 [{ kind := 1 }]) := by decide

end Haptics
