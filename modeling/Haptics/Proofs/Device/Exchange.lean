import Haptics.Proofs.Device.Writing
/-!
# Exchanges with a device

What an exchange can change of a device and of the links of its fleet.
`Device.Touched` states it for every operation that runs on the line of a
device: the device stays what it is and no other link is touched. For a stop,
`stop_online` says all there is to say, in terms of what the link makes of the
stop writes.
-/

namespace Haptics

namespace Device

variable {L α : Type} {d : Device} {links : List L}

/-! ## The line of a device -/

/-- Where a device has its link, what runs on the line is all that happens. -/
theorem onLine_eq {id : LinkId} {link : L} (hc : d.connected = true) (hl : d.link = some id)
    (hlink : links[id]? = some link) (absent : α) (act : Line L → α × Line L) :
    d.onLine links absent act =
      { answer := (act { protocol := d.protocol, link }).1
        device := { d with protocol := (act { protocol := d.protocol, link }).2.protocol }
        links := links.set id (act { protocol := d.protocol, link }).2.link
        traffic := (act { protocol := d.protocol, link }).2.traffic } := by
  unfold onLine
  rw [hc, hl]
  simp only [hlink]

/-- A device without its link is left as it is. -/
theorem onLine_cases (d : Device) (links : List L) (absent : α) (act : Line L → α × Line L) :
    d.onLine links absent act = { answer := absent, device := d, links } ∨
      ∃ id link, d.connected = true ∧ d.link = some id ∧ links[id]? = some link := by
  unfold onLine
  split
  · rename_i id hc hl
    cases hlink : links[id]? with
    | none => exact Or.inl rfl
    | some link => exact Or.inr ⟨id, link, hc, hl, hlink⟩
  · exact Or.inl rfl

/-! ## What an exchange leaves alone -/

/-- What an exchange with `d` leaves: only what the protocol keeps may differ,
and of the links only the device's own. -/
structure Touched (d : Device) (links : List L) (x : Exchange L α) : Prop where
  device : ∃ p, d.protocol.Alike p ∧ x.device = { d with protocol := p }
  length : x.links.length = links.length
  others : ∀ id, d.link ≠ some id → x.links[id]? = links[id]?

theorem touched_onLine (absent : α) {act : Line L → α × Line L}
    (hact : ∀ line : Line L, line.protocol.Alike (act line).2.protocol) :
    d.Touched links (d.onLine links absent act) := by
  rcases onLine_cases d links absent act with heq | ⟨id, link, hc, hl, hlink⟩
  · rw [heq]
    exact ⟨⟨d.protocol, Protocol.Alike.refl _, rfl⟩, rfl, fun _ _ => rfl⟩
  · rw [onLine_eq hc hl hlink]
    refine ⟨⟨_, hact { protocol := d.protocol, link }, rfl⟩, List.length_set ..,
      fun other hother => ?_⟩
    have hne : id ≠ other := fun h => hother (h ▸ hl)
    exact List.getElem?_set_ne hne

variable [Link L]

/-- **A command touches its device only.** -/
theorem touched_execute (d : Device) (links : List L) (c : Command) :
    d.Touched links (d.execute links c) :=
  touched_onLine _ fun line => Line.alike_execute line d.identity.name c

/-- **A stop touches its device only.** -/
theorem touched_stop (d : Device) (links : List L) : d.Touched links (d.stop links) := by
  refine touched_onLine _ fun line => ?_
  obtain ⟨hwrote, -, -, -⟩ :=
    Line.wrote_writeEach { line with protocol := line.protocol.stop.2 } d.identity.name
      line.protocol.stop.1
  exact ⟨hwrote.alike.capabilities, hwrote.alike.vendor⟩

/-! ## A stop in full -/

/-- **Every stop write is handed over**, whatever becomes of the others. There
is a fault if the link refuses one. -/
theorem stop_online {id : LinkId} {link : L} (hc : d.connected = true) (hl : d.link = some id)
    (hlink : links[id]? = some link) :
    (d.stop links).links = links.set id (handOver link d.protocol.stopFrames).2 ∧
      (d.stop links).traffic =
        writes d.protocol.stopFrames (handOver link d.protocol.stopFrames).1 ∧
      ((d.stop links).answer = none ↔ false ∉ (handOver link d.protocol.stopFrames).1) ∧
      ∀ e, (d.stop links).answer = some e → e.code = .transportError := by
  obtain ⟨hwrote, hafter, hnone, hcode⟩ :=
    Line.wrote_writeEach { protocol := d.protocol.stop.2, link } d.identity.name
      d.protocol.stop.1
  rw [stop, onLine_eq hc hl hlink]
  exact ⟨congrArg (links.set id) hafter, hwrote.traffic, hnone, hcode⟩

end Device

end Haptics
