import Haptics.Link.Simulated
import Haptics.Proofs.Device.Exchange
/-!
# Coherence of what is remembered

A device is used through commands and stops. Whatever its link does with each
write, after every use everything that the protocol remembers as sent is what
the device does, and the direction kept for a rotator is the one it turns in:
`agrees_useAll`. So a write is spared only if it would change nothing.
-/

namespace Haptics

namespace Device

variable {L α : Type} {d : Device} {links : List L} {h : Hardware}

/-- What runs on the line of a device leaves it in agreement. -/
theorem agrees_onLine (ha : d.protocol.Agrees h) (absent : α) {act : Line L → α × Line L}
    (hact : ∀ line : Line L, line.protocol = d.protocol →
      ∃ ts, line.Kept (act line).2 ts h) :
    d.protocol.Alike (d.onLine links absent act).device.protocol ∧
      (d.onLine links absent act).device.protocol.Agrees
        (h.hearAll d.protocol.vendor (accepted (d.onLine links absent act).traffic)) := by
  rcases onLine_cases d links absent act with heq | ⟨id, link, hc, hl, hlink⟩
  · rw [heq]
    exact ⟨Protocol.Alike.refl _, ha⟩
  · obtain ⟨ts, hkept⟩ := hact { protocol := d.protocol, link } rfl
    have htraffic : (act { protocol := d.protocol, link }).2.traffic = ts := hkept.traffic
    rw [onLine_eq hc hl hlink]
    exact ⟨hkept.alike, htraffic ▸ hkept.agrees⟩

/-! ## Uses of a device -/

/-- What is asked of a device. -/
inductive Use
  | execute (c : Command)
  | stop

variable [Link L]

/-- One use of a device. -/
def use (d : Device) (links : List L) : Use → Exchange L Unit
  | .execute c =>
    let x := d.execute links c
    { answer := (), device := x.device, links := x.links, traffic := x.traffic }
  | .stop =>
    let x := d.stop links
    { answer := (), device := x.device, links := x.links, traffic := x.traffic }

/-- Uses of a device one after the other. -/
def useAll (d : Device) (links : List L) : List Use → Exchange L Unit
  | [] => { answer := (), device := d, links }
  | u :: us =>
    let first := d.use links u
    let later := first.device.useAll first.links us
    { later with traffic := first.traffic ++ later.traffic }

/-- **One use keeps a device and its protocol in agreement.** -/
theorem agrees_use (hp : d.protocol.Sound) (ha : d.protocol.Agrees h) (links : List L) (u : Use) :
    d.protocol.Alike (d.use links u).device.protocol ∧
      (d.use links u).device.protocol.Agrees
        (h.hearAll d.protocol.vendor (accepted (d.use links u).traffic)) := by
  cases u with
  | execute c =>
    exact agrees_onLine ha _ fun line hline =>
      Line.kept_execute (hline ▸ hp) (hline ▸ ha) d.identity.name c
  | stop =>
    exact agrees_onLine ha _ fun line hline =>
      Line.kept_stop (hline ▸ hp) (hline ▸ ha) d.identity.name

/-- And so do any number of uses. -/
theorem agrees_useAll_of_agrees (hp : d.protocol.Sound) (ha : d.protocol.Agrees h)
    (links : List L) (us : List Use) :
    (d.useAll links us).device.protocol.Agrees
      (h.hearAll d.protocol.vendor (accepted (d.useAll links us).traffic)) := by
  induction us generalizing d links h with
  | nil => exact ha
  | cons u us ih =>
    obtain ⟨halike, hagree⟩ := agrees_use hp ha links u
    have hrest := ih (halike.sound hp) hagree (d.use links u).links
    rw [halike.vendor] at hrest
    simp only [useAll, accepted_append, Hardware.hearAll_append]
    exact hrest

/-- **What is remembered is what the device does**, after any uses of a device
that a standard rulebook serves, whichever of their writes its link refuses. The
levels may be anything at first, and the rotator turns clockwise. -/
theorem agrees_useAll {b : Rulebook} (hb : b.Standard) {services : List String}
    (hd : b.create d.identity.name services = .ok d.protocol) (links : List L) (us : List Use)
    (hcw : h.clockwise = true) :
    (d.useAll links us).device.protocol.Agrees
      (h.hearAll d.protocol.vendor (accepted (d.useAll links us).traffic)) := by
  have hp := Protocol.sound_of_create hb hd
  refine agrees_useAll_of_agrees hp ?_ links us
  obtain ⟨r, -, v, -, heq⟩ := Rulebook.eq_fresh_of_create hd
  rw [heq]
  exact Protocol.agrees_fresh v _ hcw

/-- A device with a motor, a rotator and an actuator for raw writes. -/
def nora : Device where
  index := 0
  identity := { kind := "sim", address := "A", name := "LVS-Nora" }
  protocol := Protocol.fresh .lovense
    { actuators := [{ stepCount := 20, endpoint := "tx" },
        { kind := .rotate, index := 1, stepCount := 20, endpoint := "tx" },
        { kind := .rawWrite, index := 2, endpoint := "tx" }]
      sensors := [{ endpoint := "rx" }] }
  link := some 0

/-- Its rotator is turned round, and then the first write of a stop is refused. -/
theorem agrees_useAll_nora :
    (nora.useAll [({ device := {}, failAt := [3] } : SimulatedLink)]
      [.execute (.actuate .rotate [{ index := 1, value := .one, clockwise := false }]),
        .stop, .execute (.actuate .vibrate [{ value := .one }])]).device.protocol.Agrees
      (@Hardware.hearAll .lovense { motor := fun _ => 7, rotor := 7, clockwise := true }
        (accepted (nora.useAll [({ device := {}, failAt := [3] } : SimulatedLink)]
          [.execute (.actuate .rotate [{ index := 1, value := .one, clockwise := false }]),
            .stop, .execute (.actuate .vibrate [{ value := .one }])]).traffic)) := by
  have hd : ({ Rulebook.builtin with allowRaw := true } : Rulebook).create "LVS-Nora" [] =
      .ok nora.protocol := rfl
  exact agrees_useAll (fun _ hr => Or.inl hr) hd _ _ rfl

end Device

end Haptics
