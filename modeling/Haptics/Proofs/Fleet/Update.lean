import Haptics.Fleet.Registration
import Haptics.Proofs.Device.Exchange
import Mathlib.Logic.Relation
/-!
# The updates of a fleet

Whatever is asked of a fleet comes down to five updates: the links change, a
connected device exchanges something with its link, a connected device is
removed, a device enters, and all devices are disconnected at once. The module
says what every update keeps: the entries and the keys belong together
(`Fleet.Sound`), and a device stays what it is and is never connected again
(`Fleet.Evolves`).
-/

namespace Haptics

open Relation

namespace Device

variable {L : Type} {d d' d'' : Device}

/-- The device after it gave its link up. -/
def unlinked (d : Device) : Device := { d with connected := false, link := none }

/-- `d'` is what became of `d`: the same device, which is connected only if it
was, and then by the link it had. -/
structure Becomes (d d' : Device) : Prop where
  index : d'.index = d.index
  identity : d'.identity = d.identity
  alike : d.protocol.Alike d'.protocol
  connected : d'.connected = true → d.connected = true ∧ d'.link = d.link

theorem Becomes.refl (d : Device) : d.Becomes d :=
  ⟨rfl, rfl, Protocol.Alike.refl _, fun h => ⟨h, rfl⟩⟩

/-- What becomes of a device in several steps has become of it in one. -/
theorem Becomes.trans (h : d.Becomes d') (h' : d'.Becomes d'') : d.Becomes d'' where
  index := h'.index.trans h.index
  identity := h'.identity.trans h.identity
  alike := h.alike.trans h'.alike
  connected hc := by
    obtain ⟨hc', hl'⟩ := h'.connected hc
    obtain ⟨hc'', hl⟩ := h.connected hc'
    exact ⟨hc'', hl'.trans hl⟩

theorem becomes_unlinked (d : Device) : d.Becomes d.unlinked :=
  ⟨rfl, rfl, Protocol.Alike.refl _, fun h => nomatch h⟩

/-- An exchange changes of a device only what its protocol remembers. -/
theorem Touched.becomes {α : Type} {links : List L} {x : Exchange L α} (h : d.Touched links x) :
    d.Becomes x.device := by
  obtain ⟨p, halike, heq⟩ := h.device
  rw [heq]
  exact ⟨rfl, rfl, halike, fun hc => ⟨hc, rfl⟩⟩

variable [Link L]

@[simp] theorem device_disconnect (d : Device) (links : List L) :
    (d.disconnect links).device = d.unlinked := by
  unfold disconnect
  split <;> rfl

@[simp] theorem length_links_disconnect (d : Device) (links : List L) :
    (d.disconnect links).links.length = links.length := by
  unfold disconnect
  split
  · exact List.length_modify ..
  · rfl

/-- The link that a device gives up is disconnected. -/
theorem links_disconnect {id : LinkId} (hl : d.link = some id) (links : List L) :
    (d.disconnect links).links = links.modify id Link.disconnect := by
  rw [disconnect, hl]

end Device

namespace Fleet

variable {L α : Type} {f g h : Fleet L} {i : Nat} {d : Device} {k : String}

/-! ## Readings -/

/-- After an exchange every other device is as before. -/
theorem getElem?_absorb {x : Exchange L α} (hd : f.devices[i]? = some d) (j : Nat) :
    (f.absorb i x).devices[j]? = if j = i then some x.device else f.devices[j]? := by
  obtain ⟨hlt, -⟩ := List.getElem?_eq_some_iff.1 hd
  rw [absorb, List.getElem?_set]
  by_cases hji : j = i
  · rw [if_pos hji.symm, if_pos hji, if_pos hlt]
  · rw [if_neg (Ne.symm hji), if_neg hji]

/-- The device that enters a fleet. -/
def entrant (f : Fleet L) (i : Identity) (protocol : Protocol) (id : LinkId) : Device :=
  { index := f.devices.length, identity := i, protocol, link := some id }

theorem fleet_enter {i : Identity} (hfree : f.find? i = none) (p : Protocol) (id : LinkId) :
    (f.enter i p id).fleet =
      { f with
        devices := f.devices ++ [f.entrant i p id]
        byKey := f.byKey.insert i.key f.devices.length } := by
  rw [enter, hfree]
  rfl

theorem getElem?_enter {i : Identity} (hfree : f.find? i = none) (p : Protocol) (id : LinkId)
    (j : Nat) : (f.enter i p id).fleet.devices[j]? =
      if j = f.devices.length then some (f.entrant i p id) else f.devices[j]? := by
  rw [fleet_enter hfree, List.getElem?_append]
  by_cases hlt : j < f.devices.length
  · rw [if_pos hlt, if_neg (by omega)]
  · rw [if_neg hlt, List.getElem?_singleton]
    by_cases hj : j = f.devices.length
    · rw [if_pos (by omega), if_pos hj]
    · rw [if_neg (by omega), if_neg hj, List.getElem?_eq_none (by omega)]

/-! ## Sound fleets -/

/-- **The entries of a fleet and its keys belong together**: a device has its
position as its index, a link exactly while it is connected, and a protocol that
the rulebook made for it; a key leads to the connected device that has it. -/
structure Sound (f : Fleet L) : Prop where
  index_eq : ∀ {i : Nat} {d : Device}, f.devices[i]? = some d → d.index = i
  linked : ∀ {i : Nat} {d : Device}, f.devices[i]? = some d → d.connected = true →
    ∃ id < f.links.length, d.link = some id
  unlinked : ∀ {i : Nat} {d : Device}, f.devices[i]? = some d → d.connected = false →
    d.link = none
  served : ∀ {i : Nat} {d : Device}, f.devices[i]? = some d →
    ∃ services p, f.rulebook.create d.identity.name services = .ok p ∧ p.Alike d.protocol
  leads : ∀ {k : String} {i : Nat}, f.byKey.get? k = some i ↔
    ∃ d, f.devices[i]? = some d ∧ d.connected = true ∧ d.identity.key = k

theorem Sound.key_eq (hs : f.Sound) (hd : f.devices[i]? = some d)
    (hk : f.byKey.get? k = some i) : d.identity.key = k := by
  obtain ⟨d', hd', -, hkey⟩ := hs.leads.1 hk
  rw [hd] at hd'
  cases hd'
  exact hkey

theorem sound_start (b : Rulebook) : ({ rulebook := b } : Fleet L).Sound where
  index_eq hd := by simp at hd
  linked hd := by simp at hd
  unlinked hd := by simp at hd
  served hd := by simp at hd
  leads := by simp

theorem Sound.links (hs : f.Sound) {ls : List L} (hle : f.links.length ≤ ls.length) :
    ({ f with links := ls } : Fleet L).Sound where
  index_eq := hs.index_eq
  linked hd hc := by
    obtain ⟨id, hlt, hl⟩ := hs.linked hd hc
    exact ⟨id, Nat.lt_of_lt_of_le hlt hle, hl⟩
  unlinked := hs.unlinked
  served := hs.served
  leads := hs.leads

/-- An exchange leaves a fleet sound, and every key where it led. -/
theorem Sound.exchange (hs : f.Sound) {x : Exchange L α} (hd : f.devices[i]? = some d)
    (hx : d.Touched f.links x) : (f.absorb i x).Sound := by
  obtain ⟨p, halike, hdev⟩ := hx.device
  -- every device is one of before, but for what its protocol keeps
  have hback : ∀ {j : Nat} {e' : Device}, (f.absorb i x).devices[j]? = some e' →
      ∃ e : Device, f.devices[j]? = some e ∧ e.protocol.Alike e'.protocol ∧
        e' = { e with protocol := e'.protocol } := by
    intro j e' hj
    rw [getElem?_absorb hd] at hj
    split at hj
    · rename_i hji
      cases hj
      rw [hji, hdev]
      exact ⟨d, hd, halike, rfl⟩
    · exact ⟨e', hj, Protocol.Alike.refl _, rfl⟩
  refine ⟨fun hj => ?_, fun hj hc => ?_, fun hj hc => ?_, fun hj => ?_, fun {k j} => ?_⟩
  · obtain ⟨e, he, -, heq⟩ := hback hj
    have hindex := hs.index_eq he
    rw [heq]
    exact hindex
  · obtain ⟨e, he, -, heq⟩ := hback hj
    rw [heq] at hc ⊢
    obtain ⟨id, hlt, hl⟩ := hs.linked he hc
    exact ⟨id, hx.length ▸ hlt, hl⟩
  · obtain ⟨e, he, -, heq⟩ := hback hj
    rw [heq] at hc ⊢
    have hnone := hs.unlinked he hc
    exact hnone
  · obtain ⟨e, he, hal, heq⟩ := hback hj
    obtain ⟨services, q, hq, hqe⟩ := hs.served he
    rw [heq]
    exact ⟨services, q, hq, hqe.trans hal⟩
  · change f.byKey.get? k = some j ↔ _
    rw [hs.leads, getElem?_absorb hd]
    by_cases hji : j = i
    · rw [if_pos hji, hji, hd, hdev]
      simp only [Option.some.injEq, exists_eq_left']
    · rw [if_neg hji]

/-- The key of a device that enters leads to it, and other keys to where they led. -/
theorem Sound.leads_enter (hs : f.Sound) {i : Identity} (hfree : f.find? i = none)
    (p : Protocol) (id : LinkId) {j : Nat} :
    (f.byKey.insert i.key f.devices.length).get? k = some j ↔
      ∃ d, (f.enter i p id).fleet.devices[j]? = some d ∧ d.connected = true ∧
        d.identity.key = k := by
  have hnone : f.byKey.get? i.key = none := hfree
  rw [Table.get?_insert, getElem?_enter hfree]
  by_cases hk : k = i.key
  · subst hk
    rw [if_pos rfl]
    constructor
    · intro hj
      cases hj
      rw [if_pos rfl]
      exact ⟨_, rfl, rfl, rfl⟩
    · rintro ⟨e, he, hc, hkey⟩
      split at he
      · rename_i hlen
        rw [hlen]
      · -- no other device has the key
        rw [hs.leads.2 ⟨e, he, hc, hkey⟩] at hnone
        cases hnone
  · rw [if_neg hk, hs.leads]
    by_cases hlen : j = f.devices.length
    · -- there was no device at the new position, and the one that is there has the new key
      rw [if_pos hlen, hlen, List.getElem?_eq_none (Nat.le_refl _)]
      constructor
      · rintro ⟨e, he, -⟩
        cases he
      · rintro ⟨e, he, -, hkey⟩
        cases he
        exact absurd hkey.symm hk
    · rw [if_neg hlen]

theorem Sound.enter (hs : f.Sound) {i : Identity} {services : List String} {p : Protocol}
    {id : LinkId} (hfree : f.find? i = none) (hp : f.rulebook.create i.name services = .ok p)
    (hid : id < f.links.length) : (f.enter i p id).fleet.Sound := by
  have hlinks : (f.enter i p id).fleet.links = f.links := by rw [fleet_enter hfree]
  have hbook : (f.enter i p id).fleet.rulebook = f.rulebook := by rw [fleet_enter hfree]
  have hkeys : (f.enter i p id).fleet.byKey = f.byKey.insert i.key f.devices.length := by
    rw [fleet_enter hfree]
  refine ⟨fun {j e} hj => ?_, fun {j e} hj hc => ?_, fun {j e} hj hc => ?_, fun {j e} hj => ?_,
    fun {k j} => ?_⟩
  · rw [getElem?_enter hfree] at hj
    split at hj
    · rename_i hlen
      cases hj
      exact hlen.symm
    · exact hs.index_eq hj
  · rw [getElem?_enter hfree] at hj
    rw [hlinks]
    split at hj
    · cases hj
      exact ⟨id, hid, rfl⟩
    · exact hs.linked hj hc
  · rw [getElem?_enter hfree] at hj
    split at hj
    · cases hj
      cases hc
    · exact hs.unlinked hj hc
  · rw [getElem?_enter hfree] at hj
    rw [hbook]
    split at hj
    · cases hj
      exact ⟨services, p, hp, Protocol.Alike.refl p⟩
    · exact hs.served hj
  · rw [hkeys]
    exact hs.leads_enter hfree p id

/-! ## How fleets evolve -/

/-- What became of a fleet: the rulebook is the same, no link is lost, and every
entry is there still. -/
structure Evolves (f g : Fleet L) : Prop where
  rulebook : g.rulebook = f.rulebook
  links_le : f.links.length ≤ g.links.length
  becomes : ∀ {i : Nat} {d : Device}, f.devices[i]? = some d →
    ∃ d', g.devices[i]? = some d' ∧ d.Becomes d'

theorem Evolves.refl (f : Fleet L) : f.Evolves f :=
  ⟨rfl, Nat.le_refl _, fun {_ d} hd => ⟨d, hd, Device.Becomes.refl d⟩⟩

theorem Evolves.trans (h₁ : f.Evolves g) (h₂ : g.Evolves h) : f.Evolves h where
  rulebook := h₂.rulebook.trans h₁.rulebook
  links_le := Nat.le_trans h₁.links_le h₂.links_le
  becomes hd := by
    obtain ⟨d', hd', hb⟩ := h₁.becomes hd
    obtain ⟨d'', hd'', hb'⟩ := h₂.becomes hd'
    exact ⟨d'', hd'', hb.trans hb'⟩

/-! ## Connected devices -/

/-- Whether the device with an index is connected. -/
def connected (f : Fleet L) (i : Nat) : Bool := (f.devices[i]?).any (·.connected)

theorem connected_iff :
    f.connected i = true ↔ ∃ d, f.devices[i]? = some d ∧ d.connected = true := by
  rw [connected, Option.any_eq_true]

theorem lt_of_connected (h : f.connected i = true) : i < f.devices.length := by
  obtain ⟨d, hd, -⟩ := connected_iff.1 h
  exact (List.getElem?_eq_some_iff.1 hd).1

theorem mem_connectedIndices : i ∈ f.connectedIndices ↔ f.connected i = true := by
  rw [connectedIndices, List.mem_filter, List.mem_range]
  exact ⟨And.right, fun h => ⟨lt_of_connected h, h⟩⟩

theorem pairwise_connectedIndices (f : Fleet L) : f.connectedIndices.Pairwise (· < ·) :=
  List.pairwise_lt_range.filter _

/-- An entry of before is what became of the device that had its index. -/
theorem Evolves.back (h : f.Evolves g) (hlt : i < f.devices.length) {d' : Device}
    (hd' : g.devices[i]? = some d') : ∃ d, f.devices[i]? = some d ∧ d.Becomes d' := by
  obtain ⟨e, he, hb⟩ := h.becomes (List.getElem?_eq_getElem hlt)
  rw [hd'] at he
  cases he
  exact ⟨_, List.getElem?_eq_getElem hlt, hb⟩

/-- A device that is connected was connected before. -/
theorem Evolves.connected (h : f.Evolves g) (hlt : i < f.devices.length)
    (hc : g.connected i = true) : f.connected i = true := by
  obtain ⟨d', hd', hc'⟩ := connected_iff.1 hc
  obtain ⟨d, hd, hb⟩ := h.back hlt hd'
  exact connected_iff.2 ⟨d, hd, (hb.connected hc').1⟩

/-- No entry is lost. -/
theorem Evolves.length_le (h : f.Evolves g) : f.devices.length ≤ g.devices.length := by
  refine Nat.le_of_not_lt fun hlt => ?_
  obtain ⟨d', hd', -⟩ := h.becomes (List.getElem?_eq_getElem hlt)
  simp at hd'

variable [Link L]

/-! ## Removals -/

/-- After a removal every other device is as before. -/
theorem getElem?_remove (hd : f.devices[i]? = some d) (d' : Device) (j : Nat) :
    (f.remove i d').fleet.devices[j]? = if j = i then some d'.unlinked else f.devices[j]? := by
  have heq : (f.remove i d').fleet.devices = (f.absorb i (d'.disconnect f.links)).devices := rfl
  rw [heq, getElem?_absorb hd, Device.device_disconnect]

/-- **A removed device has no key**, and the keys of the others lead where they
did, if no key but its own led to the removed one. -/
theorem get?_byKey_remove (hkey : ∀ k, f.byKey.get? k = some i → d.identity.key = k) (j : Nat) :
    (f.remove i d).fleet.byKey.get? k = some j ↔ f.byKey.get? k = some j ∧ j ≠ i := by
  unfold remove
  dsimp only
  split
  · rename_i hown
    rw [Table.get?_erase]
    by_cases hk : k = d.identity.key
    · subst hk
      rw [if_pos rfl, hown]
      simp only [Option.some.injEq, reduceCtorEq, false_iff]
      rintro ⟨rfl, hne⟩
      exact hne rfl
    · rw [if_neg hk, iff_self_and]
      rintro hj rfl
      exact hk (hkey k hj).symm
  · -- the key had been taken over, so no key leads to the device
    rename_i hown
    rw [iff_self_and]
    rintro hj rfl
    have := hkey k hj
    subst this
    exact hown hj

/-- Devices that are disconnected one after the other stay where they are. -/
theorem disconnectEach_spec (js : List Nat) (f : Fleet L) :
    (f.disconnectEach js).fleet.byKey = f.byKey ∧
      (f.disconnectEach js).fleet.rulebook = f.rulebook ∧
      (f.disconnectEach js).fleet.links.length = f.links.length ∧
      ∀ i, (f.disconnectEach js).fleet.devices[i]? =
        f.devices[i]?.map fun d => if i ∈ js then d.unlinked else d := by
  induction js generalizing f with
  | nil => exact ⟨rfl, rfl, rfl, fun i => by simp [disconnectEach]⟩
  | cons j js ih =>
    rw [disconnectEach]
    split
    · rename_i hnone
      obtain ⟨hkey, hbook, hlinks, hdev⟩ := ih f
      -- an index without a device makes no difference
      refine ⟨hkey, hbook, hlinks, fun i => ?_⟩
      rw [hdev i]
      by_cases hij : i = j
      · rw [hij, hnone]
        rfl
      · simp [hij]
    · rename_i d hd
      obtain ⟨hkey, hbook, hlinks, hdev⟩ := ih (f.absorb j (d.disconnect f.links))
      refine ⟨hkey, hbook, hlinks.trans (d.length_links_disconnect f.links), fun i => ?_⟩
      rw [hdev i, getElem?_absorb hd]
      by_cases hij : i = j
      · rw [if_pos hij, hij, hd, Device.device_disconnect]
        simp [Device.unlinked]
      · simp [hij]

/-- A device that is removed loses its link together with its key. -/
theorem Sound.remove (hs : f.Sound) (hd : f.devices[i]? = some d) :
    (f.remove i d).fleet.Sound := by
  have hlen : (f.remove i d).fleet.links.length = f.links.length :=
    d.length_links_disconnect f.links
  refine ⟨fun {j e} hj => ?_, fun {j e} hj hc => ?_, fun {j e} hj hc => ?_, fun {j e} hj => ?_,
    fun {k j} => ?_⟩
  · rw [getElem?_remove hd] at hj
    split at hj
    · rename_i hji
      cases hj
      exact (hs.index_eq hd).trans hji.symm
    · exact hs.index_eq hj
  · rw [getElem?_remove hd] at hj
    split at hj
    · cases hj
      cases hc
    · rw [hlen]
      exact hs.linked hj hc
  · rw [getElem?_remove hd] at hj
    split at hj
    · cases hj
      rfl
    · exact hs.unlinked hj hc
  · rw [getElem?_remove hd] at hj
    split at hj
    · cases hj
      have hserved := hs.served hd
      exact hserved
    · exact hs.served hj
  · rw [getElem?_remove hd, get?_byKey_remove (fun k hk => hs.key_eq hd hk), hs.leads]
    by_cases hji : j = i
    · rw [if_pos hji]
      simp [hji, Device.unlinked]
    · rw [if_neg hji]
      simp [hji]

/-- After all devices are disconnected none is connected, and no key leads
anywhere. -/
theorem getElem?_disconnectAll (f : Fleet L) (i : Nat) :
    f.disconnectAll.fleet.devices[i]? = f.devices[i]?.map Device.unlinked := by
  obtain ⟨-, -, -, hdev⟩ := disconnectEach_spec (List.range f.devices.length)
    ({ f with byKey := {} } : Fleet L)
  refine (hdev i).trans ?_
  cases hd : f.devices[i]? with
  | none => rfl
  | some d =>
    obtain ⟨hlt, -⟩ := List.getElem?_eq_some_iff.1 hd
    simp [hlt]

theorem Sound.clear (hs : f.Sound) : f.disconnectAll.fleet.Sound := by
  obtain ⟨hkey, hbook, hlinks, -⟩ := disconnectEach_spec (List.range f.devices.length)
    ({ f with byKey := {} } : Fleet L)
  -- every device is one of before, without its link
  have hback : ∀ {j : Nat} {e' : Device}, f.disconnectAll.fleet.devices[j]? = some e' →
      ∃ e : Device, f.devices[j]? = some e ∧ e' = e.unlinked := by
    intro j e' hj
    rw [getElem?_disconnectAll, Option.map_eq_some_iff] at hj
    obtain ⟨e, he, heq⟩ := hj
    exact ⟨e, he, heq.symm⟩
  refine ⟨fun hj => ?_, fun hj hc => ?_, fun hj hc => ?_, fun hj => ?_, fun {k j} => ?_⟩
  · obtain ⟨e, he, rfl⟩ := hback hj
    have hindex := hs.index_eq he
    exact hindex
  · obtain ⟨e, -, rfl⟩ := hback hj
    cases hc
  · obtain ⟨e, -, rfl⟩ := hback hj
    rfl
  · obtain ⟨e, he, rfl⟩ := hback hj
    obtain ⟨services, p, hp, halike⟩ := hs.served he
    exact ⟨services, p, hbook ▸ hp, halike⟩
  · unfold disconnectAll
    rw [hkey]
    constructor
    · intro hk
      cases hk
    · rintro ⟨e, he, hc, -⟩
      obtain ⟨e, -, rfl⟩ := hback he
      cases hc

/-! ## Updates -/

/-- One update of a fleet. -/
inductive Update : Fleet L → Fleet L → Prop
  /-- Links change behind the fleet, or there are more of them. -/
  | links {f : Fleet L} {ls : List L} (hle : f.links.length ≤ ls.length) :
    Update f { f with links := ls }
  /-- A connected device exchanges something with its link. -/
  | exchange {f : Fleet L} {i : Nat} {d : Device} {α : Type} {x : Exchange L α}
    (hd : f.devices[i]? = some d) (hc : d.connected = true) (hx : d.Touched f.links x) :
    Update f (f.absorb i x)
  /-- A connected device is removed. -/
  | remove {f : Fleet L} {i : Nat} {d : Device} (hd : f.devices[i]? = some d)
    (hc : d.connected = true) : Update f (f.remove i d).fleet
  /-- A device enters. -/
  | enter {f : Fleet L} {i : Identity} {services : List String} {p : Protocol} {id : LinkId}
    (hfree : f.find? i = none) (hp : f.rulebook.create i.name services = .ok p)
    (hid : id < f.links.length) : Update f (f.enter i p id).fleet
  /-- All devices are disconnected. -/
  | clear {f : Fleet L} : Update f f.disconnectAll.fleet

/-- Any number of updates. -/
abbrev Updates : Fleet L → Fleet L → Prop := ReflTransGen Update

/-- **Every update keeps a fleet sound.** -/
theorem Update.sound (hu : f.Update g) (hs : f.Sound) : g.Sound := by
  cases hu with
  | links hle => exact hs.links hle
  | exchange hd hc hx => exact hs.exchange hd hx
  | remove hd hc => exact hs.remove hd
  | enter hfree hp hid => exact hs.enter hfree hp hid
  | clear => exact hs.clear

theorem Updates.sound (hu : f.Updates g) (hs : f.Sound) : g.Sound := by
  induction hu with
  | refl => exact hs
  | tail _ hstep ih => exact hstep.sound ih

/-! ## Updates make fleets evolve -/

omit [Link L] in
theorem evolves_enter {i : Identity} (hfree : f.find? i = none) (p : Protocol) (id : LinkId) :
    f.Evolves (f.enter i p id).fleet := by
  refine ⟨by rw [fleet_enter hfree], Nat.le_of_eq (by rw [fleet_enter hfree]), fun {j e} he => ?_⟩
  obtain ⟨hlt, -⟩ := List.getElem?_eq_some_iff.1 he
  rw [getElem?_enter hfree, if_neg (by omega)]
  exact ⟨e, he, Device.Becomes.refl e⟩

/-- **A device stays what it is through every update**, and is not connected
again once it is disconnected. -/
theorem Update.evolves (hu : f.Update g) : f.Evolves g := by
  cases hu with
  | links hle => exact ⟨rfl, hle, fun {_ d} hd => ⟨d, hd, Device.Becomes.refl d⟩⟩
  | @exchange i d α x hd hc hx =>
    refine ⟨rfl, Nat.le_of_eq hx.length.symm, fun {j e} he => ?_⟩
    rw [getElem?_absorb hd]
    by_cases hji : j = i
    · rw [hji, hd] at he
      cases he
      exact ⟨x.device, if_pos hji, hx.becomes⟩
    · exact ⟨e, (if_neg hji).trans he, Device.Becomes.refl e⟩
  | @remove i d hd hc =>
    refine ⟨rfl, Nat.le_of_eq (d.length_links_disconnect f.links).symm, fun {j e} he => ?_⟩
    rw [getElem?_remove hd]
    by_cases hji : j = i
    · rw [hji, hd] at he
      cases he
      exact ⟨d.unlinked, if_pos hji, d.becomes_unlinked⟩
    · exact ⟨e, (if_neg hji).trans he, Device.Becomes.refl e⟩
  | enter hfree hp hid => exact evolves_enter hfree _ _
  | clear =>
    obtain ⟨-, hbook, hlinks, -⟩ := disconnectEach_spec (List.range f.devices.length)
      ({ f with byKey := {} } : Fleet L)
    refine ⟨hbook, Nat.le_of_eq hlinks.symm, fun {j e} he => ?_⟩
    rw [getElem?_disconnectAll, he]
    exact ⟨e.unlinked, rfl, e.becomes_unlinked⟩

/-- **Updates make no device another one**, and bring none back. -/
theorem Updates.evolves (hu : f.Updates g) : f.Evolves g := by
  induction hu with
  | refl => exact Evolves.refl f
  | tail _ hstep ih => exact ih.trans hstep.evolves

end Fleet

end Haptics
