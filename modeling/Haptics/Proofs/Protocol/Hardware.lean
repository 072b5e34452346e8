import Haptics.Proofs.Protocol.LovenseFrame
import Haptics.Proofs.Rule.Standard
/-!
# The outputs of a device

`Hardware` is what a device does with the frames that reach it, by the meaning
each vendor gives its frames; bytes that are no frame of the vendor change
nothing. The module says what the frames of the four protocols do to it. The
stop frames of a sound protocol silence every output, whatever was on before
(`silent_stopFrames`).
-/

namespace Haptics

/-! ## What capabilities say of single actuators -/

namespace Capabilities.Positioned

variable {c : Capabilities} {a b : Actuator} {i : UInt32}

/-- No two actuators have one index. -/
theorem nodup_index {as : List Actuator} (h : Positioned as) : (as.map Actuator.index).Nodup := by
  refine List.pairwise_iff_getElem.2 fun i j hi hj hij heq => ?_
  rw [List.length_map] at hi hj
  have hpi := h i _ (List.getElem?_eq_getElem hi)
  have hpj := h j _ (List.getElem?_eq_getElem hj)
  rw [List.getElem_map, List.getElem_map] at heq
  rw [heq] at hpi
  omega

/-- An actuator is known by its index. -/
theorem index_inj (h : Positioned c.actuators) (ha : a ∈ c.actuators) (hb : b ∈ c.actuators)
    (hi : a.index = b.index) : a = b := by
  obtain ⟨j, hj⟩ := List.getElem?_of_mem ha
  obtain ⟨k, hk⟩ := List.getElem?_of_mem hb
  have hjk : j = k := by rw [← h j a hj, ← h k b hk, hi]
  subst hjk
  exact Option.some.inj (hj.symm.trans hk)

/-- The actuator found under an index is the one that has it. -/
theorem findActuator?_eq_some_iff (h : Positioned c.actuators) :
    c.findActuator? i = some a ↔ a ∈ c.actuators ∧ a.index = i := by
  constructor
  · intro hf
    have hi := List.find?_some (p := fun b : Actuator => decide (b.index = i)) hf
    exact ⟨List.mem_of_find?_eq_some hf, of_decide_eq_true hi⟩
  · rintro ⟨ha, rfl⟩
    cases hf : c.findActuator? a.index with
    | none =>
      have := List.find?_eq_none.1 hf a ha
      simp at this
    | some b =>
      have hb := List.find?_some (p := fun b : Actuator => decide (b.index = a.index)) hf
      rw [index_inj h (List.mem_of_find?_eq_some hf) ha (of_decide_eq_true hb)]

theorem getElem?_motors (h : Positioned (Lovense.motors c)) (ha : a ∈ Lovense.motors c) :
    (Lovense.motors c)[a.index.toNat]? = some a := by
  obtain ⟨j, hj⟩ := List.getElem?_of_mem ha
  rw [h j a hj]
  exact hj

/-- **Motors are counted in order**, from 1. -/
theorem motorNumber_eq (h : Positioned (Lovense.motors c)) (ha : a ∈ Lovense.motors c) :
    Lovense.motorNumber c a.index = a.index.toNat + 1 := by
  obtain ⟨hlt, hget⟩ := List.getElem?_eq_some_iff.1 (getElem?_motors h ha)
  have hfind : (Lovense.motors c).findIdx? (fun b => b.index = a.index) =
      some a.index.toNat := by
    refine List.findIdx?_eq_some_iff_getElem.2 ⟨hlt, by simp [hget], fun j hj => ?_⟩
    have hpos := h j _ (List.getElem?_eq_getElem (by omega))
    simp only [decide_eq_true_eq]
    intro heq
    rw [heq] at hpos
    omega
  unfold Lovense.motorNumber
  rw [hfind]

end Capabilities.Positioned

namespace Capabilities.Suits

variable {c : Capabilities} {v : Vendor} {a b : Actuator} {i : UInt32}

theorem findActuator?_eq_some_iff (h : c.Suits v) :
    c.findActuator? i = some a ↔ a ∈ c.actuators ∧ a.index = i :=
  Positioned.findActuator?_eq_some_iff h.positioned

/-- **There is one rotator at most.** -/
theorem rotor_unique (h : c.Suits v) (ha : a ∈ c.actuators) (hb : b ∈ c.actuators)
    (hka : a.kind = .rotate) (hkb : b.kind = .rotate) : a = b :=
  eq_of_count_le_one h.rotors_le ha hb hka hkb

theorem mem_motors (h : a ∈ c.actuators) (hk : a.kind = .vibrate) : a ∈ Lovense.motors c := by
  simp [Lovense.motors, h, hk]

/-- **There are 16 motors at most**, and their indices are the numbers below. -/
theorem motor_index_lt (h : c.Suits v) (ha : a ∈ Lovense.motors c) : a.index.toNat < 16 := by
  have hle := h.motors_le
  rw [count_eq_length] at hle
  have hget := Positioned.getElem?_motors h.motors_positioned ha
  obtain ⟨hlt, -⟩ := List.getElem?_eq_some_iff.1 hget
  unfold Lovense.motors at hlt
  omega

end Capabilities.Suits

/-! ## Hearing frames -/

/-- The outputs of a device. -/
structure Hardware where
  /-- The level of each motor, counted from 0. -/
  motor : Nat → Nat
  /-- The level of the rotator. -/
  rotor : Nat
  /-- Whether the rotator turns clockwise. -/
  clockwise : Bool

namespace Hardware

/-- Sets one motor. -/
def setMotor (h : Hardware) (i level : Nat) : Hardware :=
  { h with motor := fun j => if j = i then level else h.motor j }

/-- `VibrateK:N;` sets the K-th motor, `Vibrate:N;` every motor, `Rotate:N;` the rotator, and
`RotateChange;` turns it round. -/
def hearLovense (h : Hardware) : Lovense.Frame → Hardware
  | .vibrateAll level => { h with motor := fun _ => level }
  | .vibrate motor level => if motor = 0 then h else h.setMotor (motor - 1) level
  | .rotate level => { h with rotor := level }
  | .rotateChange => { h with clockwise := !h.clockwise }
  | .battery => h

/-- The third byte holds the direction in its high bit and the level in the others. -/
def hearVorze (h : Hardware) : Bytes → Hardware
  | [x, y, b] =>
    if x = 1 ∧ y = 1 then { h with rotor := (b &&& 0x7f).toNat, clockwise := b &&& 0x80 ≠ 0 }
    else h
  | _ => h

/-- The first byte is the motor's address, counted from `0xa0`, and the second its level. -/
def hearGenericVibrator (h : Hardware) : Bytes → Hardware
  | [x, b] => if 0xa0 ≤ x then h.setMotor (x - 0xa0).toNat b.toNat else h
  | _ => h

/-- What a vendor's device makes of some bytes. -/
def hear (v : Vendor) (h : Hardware) (data : Bytes) : Hardware :=
  match v with
  | .lovense => (Lovense.Frame.ofBytes? data).elim h h.hearLovense
  | .vorze => h.hearVorze data
  | .launch => h
  | .genericVibrator => h.hearGenericVibrator data

/-- What a vendor's device makes of some writes, one after the other. -/
def hearAll (v : Vendor) (h : Hardware) (ws : List Write) : Hardware :=
  ws.foldl (fun h w => h.hear v w.data) h

variable {h : Hardware} {v : Vendor}

@[simp] theorem hearAll_nil : h.hearAll v [] = h := rfl

@[simp] theorem hearAll_cons (w : Write) (ws : List Write) :
    h.hearAll v (w :: ws) = (h.hear v w.data).hearAll v ws := rfl

theorem hearAll_append (ws ws' : List Write) :
    h.hearAll v (ws ++ ws') = (h.hearAll v ws).hearAll v ws' :=
  List.foldl_append

@[simp] theorem hear_lovense (f : Lovense.Frame) :
    h.hear .lovense f.toWrite.data = h.hearLovense f := by
  simp [hear, Lovense.Frame.toWrite, Lovense.Frame.ofBytes?_bytes]

/-- **Only one text turns the rotator round.** -/
theorem clockwise_hear_lovense (data : Bytes) :
    (h.hear .lovense data).clockwise =
      if data = Lovense.Frame.rotateChange.bytes then !h.clockwise else h.clockwise := by
  simp only [hear]
  by_cases hd : data = Lovense.Frame.rotateChange.bytes
  · rw [if_pos hd, hd, Lovense.Frame.ofBytes?_bytes]
    rfl
  · rw [if_neg hd]
    cases hf : Lovense.Frame.ofBytes? data with
    | none => rfl
    | some f =>
      cases f with
      | rotateChange => exact absurd (Lovense.Frame.ofBytes?_eq_rotateChange.1 hf) hd
      | vibrate motor level =>
        simp only [Option.elim_some, hearLovense]
        split <;> rfl
      | vibrateAll | rotate | battery => rfl

theorem vorze_byte : ∀ n < 128, ∀ d : Bool,
    (((if d then 0x80 else 0x00) ||| UInt8.ofNat n) &&& 0x7f).toNat = n ∧
      decide (((if d then 0x80 else 0x00) ||| UInt8.ofNat n) &&& 0x80 ≠ 0) = d := by decide

/-- The seven lower bits are the speed and the highest is the direction, and nothing else is
heard. -/
theorem hear_vorze (clockwise : Bool) (speed : UInt32) :
    h.hear .vorze (Vorze.toWrite (Vorze.frame clockwise speed)).data =
      { h with rotor := (speed &&& 0x7f).toNat, clockwise } := by
  have hlt : (speed &&& 0x7f).toNat < 128 := by
    rw [UInt32.toNat_and]
    exact Nat.lt_of_le_of_lt Nat.and_le_right (by decide)
  have hb := vorze_byte _ hlt clockwise
  have he : UInt8.ofNat (speed &&& 0x7f).toNat = (speed &&& 0x7f).toUInt8 := rfl
  rw [he] at hb
  simp only [hear, Vorze.toWrite, Vorze.frame, hearVorze]
  simp only [and_self, if_true, hb]

/-- The address of one of 16 motors lies in the sixteen bytes from 0xa0. -/
theorem toNat_address {index : UInt32} (hi : index.toNat < 16) :
    ((0xa0 + index).toUInt8).toNat = 0xa0 + index.toNat := by
  simp only [UInt32.toNat_toUInt8, UInt32.toNat_add]
  have : (0xa0 : UInt32).toNat = 0xa0 := rfl
  omega

/-- The motor that hears a frame is the one whose index is in it, as long as four bits hold the
index. -/
theorem hear_genericVibrator {index : UInt32} (hi : index.toNat < 16) (step : UInt32) :
    h.hear .genericVibrator (GenericVibrator.toWrite (GenericVibrator.frame index step)).data =
      h.setMotor index.toNat step.toUInt8.toNat := by
  have haddr := toNat_address hi
  have hle : (0xa0 : UInt8) ≤ (0xa0 + index).toUInt8 := by
    rw [UInt8.le_iff_toNat_le, haddr]
    exact Nat.le_add_right _ _
  have hsub : ((0xa0 + index).toUInt8 - 0xa0).toNat = index.toNat := by
    rw [UInt8.toNat_sub_of_le _ _ hle, haddr]
    exact Nat.add_sub_cancel_left _ _
  simp only [hear, GenericVibrator.toWrite, GenericVibrator.frame, hearGenericVibrator,
    if_pos hle, hsub]

end Hardware

/-! ## Setting motors -/

/-- The level at which the frames of a vendor put an actuator, for a step. -/
def Vendor.level : Vendor → UInt32 → Nat
  | lovense, step => step.toNat
  | vorze, step => (step &&& 0x7f).toNat
  | launch, step => step.toNat
  | genericVibrator, step => step.toUInt8.toNat

namespace Hardware

/-- A motor was set, and no other output has changed. -/
structure MotorSet (c : Capabilities) (h h' : Hardware) (i : UInt32) (level : Nat) : Prop where
  hit : h'.motor i.toNat = level
  miss : ∀ a ∈ Lovense.motors c, a.index ≠ i → h'.motor a.index.toNat = h.motor a.index.toNat
  rotor : h'.rotor = h.rotor
  clockwise : h'.clockwise = h.clockwise

variable {c : Capabilities} {h : Hardware} {v : Vendor}

theorem motorSet_setMotor (i : UInt32) (level : Nat) :
    MotorSet c h (h.setMotor i.toNat level) i level where
  hit := by simp [setMotor]
  miss a _ hne := by
    have hn : a.index.toNat ≠ i.toNat := fun he => hne (UInt32.toNat_inj.1 he)
    simp [setMotor, hn]
  rotor := rfl
  clockwise := rfl

/-- The frame for one motor, on models with one motor or with more. -/
def motorFrame (c : Capabilities) (index : UInt32) (level : Nat) : Lovense.Frame :=
  if 1 < (Lovense.motors c).length then .vibrate (Lovense.motorNumber c index) level
  else .vibrateAll level

/-- **A motor is set on models with one motor and with more**: the plain form
sets them all, but there it is the only one. -/
theorem motorSet_lovense (hc : c.Suits .lovense) {a : Actuator} (ha : a ∈ Lovense.motors c)
    (level : Nat) : MotorSet c h (h.hearLovense (motorFrame c a.index level)) a.index level := by
  unfold motorFrame
  split
  · rw [Capabilities.Positioned.motorNumber_eq hc.motors_positioned ha]
    exact motorSet_setMotor a.index level
  · rename_i hone
    refine ⟨rfl, fun b hb hne => absurd ?_ hne, rfl, rfl⟩
    have hget {x : Actuator} (hx : x ∈ Lovense.motors c) :=
      Capabilities.Positioned.getElem?_motors hc.motors_positioned hx
    obtain ⟨hlta, -⟩ := List.getElem?_eq_some_iff.1 (hget ha)
    obtain ⟨hltb, -⟩ := List.getElem?_eq_some_iff.1 (hget hb)
    exact UInt32.toNat_inj.1 (by omega)

/-- What hearing the frames of several motors comes to: each is set, and the
others are as they were. -/
theorem hearAll_motors {α : Type} {w : α → Write} {index : α → UInt32} {level : α → Nat}
    (xs : List α) (h : Hardware)
    (hset : ∀ h : Hardware, ∀ x ∈ xs, MotorSet c h (h.hear v (w x).data) (index x) (level x))
    (hmotor : ∀ x ∈ xs, ∃ a ∈ Lovense.motors c, a.index = index x)
    (hnodup : (xs.map index).Nodup) :
    (∀ x ∈ xs, (h.hearAll v (xs.map w)).motor (index x).toNat = level x) ∧
      (∀ a ∈ Lovense.motors c, a.index ∉ xs.map index →
        (h.hearAll v (xs.map w)).motor a.index.toNat = h.motor a.index.toNat) ∧
      (h.hearAll v (xs.map w)).rotor = h.rotor ∧
      (h.hearAll v (xs.map w)).clockwise = h.clockwise := by
  induction xs generalizing h with
  | nil => simp
  | cons x xs ih =>
    rw [List.map_cons, List.nodup_cons] at hnodup
    have hx := hset h x List.mem_cons_self
    obtain ⟨hhit, hmiss, hrotor, hclock⟩ := ih (h.hear v (w x).data)
      (fun h y hy => hset h y (List.mem_cons_of_mem x hy))
      (fun y hy => hmotor y (List.mem_cons_of_mem x hy)) hnodup.2
    simp only [List.map_cons, hearAll_cons]
    refine ⟨fun y hy => ?_, fun a ha hne => ?_, hrotor.trans hx.rotor,
      hclock.trans hx.clockwise⟩
    · rcases List.mem_cons.1 hy with rfl | hy
      · -- the frames that follow are for other motors
        obtain ⟨a, ha, hai⟩ := hmotor y List.mem_cons_self
        rw [← hai, hmiss a ha (hai ▸ hnodup.1), hai]
        exact hx.hit
      · exact hhit y hy
    · rw [List.mem_cons, not_or] at hne
      rw [hmiss a ha hne.2]
      exact hx.miss a ha hne.1

/-! ## Stopping -/

/-- Every motor and every rotator is at level 0. -/
def Silent (c : Capabilities) (h : Hardware) : Prop :=
  ∀ a ∈ c.actuators,
    (a.kind = .vibrate → h.motor a.index.toNat = 0) ∧ (a.kind = .rotate → h.rotor = 0)

theorem nodup_index_motors (hc : c.Suits v) :
    ((Lovense.motors c).map Actuator.index).Nodup :=
  Capabilities.Positioned.nodup_index hc.motors_positioned

/-- The stop frames of a Lovense silence all its motors, whatever they did before. -/
theorem silent_lovense (c : Capabilities) (h : Hardware) :
    Silent c (h.hearAll .lovense ((Lovense.stopFrames c).map Lovense.Frame.toWrite)) := by
  have hcount : ∀ (a : Actuator) (kind : ActuatorKind), a ∈ c.actuators → a.kind = kind →
      0 < c.count kind := by
    intro a kind ha hk
    exact List.countP_pos_iff.2 ⟨a, ha, by simpa using hk⟩
  intro a ha
  refine ⟨fun hk => ?_, fun hk => ?_⟩
  · have hv := hcount a .vibrate ha hk
    unfold Lovense.stopFrames
    rw [if_pos hv]
    split <;> simp [hearLovense]
  · have hr := hcount a .rotate ha hk
    unfold Lovense.stopFrames
    rw [if_pos hr]
    split <;> simp [hearLovense]

theorem silent_genericVibrator (hc : c.Suits .genericVibrator) (h : Hardware) :
    Silent c (h.hearAll .genericVibrator
      ((GenericVibrator.stopFrames c).map GenericVibrator.toWrite)) := by
  intro a ha
  refine ⟨fun hk => ?_, fun hk => ?_⟩
  · -- there is a frame for each motor, this one among them
    have hset : ∀ h : Hardware, ∀ b ∈ Lovense.motors c,
        MotorSet c h (h.hear .genericVibrator
          (GenericVibrator.toWrite (GenericVibrator.frame b.index 0)).data) b.index 0 := by
      intro h b hb
      rw [hear_genericVibrator (hc.motor_index_lt hb)]
      exact motorSet_setMotor b.index 0
    have hall := (hearAll_motors (Lovense.motors c) h hset (fun b hb => ⟨b, hb, rfl⟩)
      (nodup_index_motors hc)).1 a (Capabilities.Suits.mem_motors ha hk)
    rw [GenericVibrator.stopFrames, List.map_map]
    exact hall
  · have := hc.kinds a ha
    rw [hk] at this
    simp [Vendor.kinds] at this

end Hardware

theorem Protocol.vendor_eq {p : Protocol} {d : Dialect} (hd : p.dialect = d) :
    p.vendor = d.vendor := by
  rw [Protocol.vendor, hd]

/-- **The stop frames of a sound protocol silence the device**, whatever was on
before. -/
theorem Protocol.silent_stopFrames {p : Protocol} (hp : p.Sound) (h : Hardware) :
    Hardware.Silent p.capabilities (h.hearAll p.vendor p.stopFrames) := by
  unfold Protocol.Sound at hp
  match hd : p.dialect with
  | .lovense clockwise =>
    have hv : p.vendor = .lovense := Protocol.vendor_eq hd
    rw [Protocol.stopFrames, hd, hv]
    exact Hardware.silent_lovense p.capabilities h
  | .vorze =>
    have hv : p.vendor = .vorze := Protocol.vendor_eq hd
    rw [Protocol.stopFrames, hd, hv]
    rw [hv] at hp
    intro a ha
    refine ⟨fun hk => ?_, fun _ => rfl⟩
    have := hp.kinds a ha
    rw [hk] at this
    simp [Vendor.kinds] at this
  | .launch position =>
    -- nothing of such a device stays on by itself
    have hv : p.vendor = .launch := Protocol.vendor_eq hd
    rw [hv] at hp
    intro a ha
    have := hp.kinds a ha
    refine ⟨fun hk => ?_, fun hk => ?_⟩ <;> rw [hk] at this <;> simp [Vendor.kinds] at this
  | .genericVibrator =>
    have hv : p.vendor = .genericVibrator := Protocol.vendor_eq hd
    rw [Protocol.stopFrames, hd, hv]
    rw [hv] at hp
    exact Hardware.silent_genericVibrator hp h

end Haptics
