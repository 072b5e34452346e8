import Haptics.Link.Simulated
import Haptics.Proofs.Fleet.Call
/-!
# The registry of a fleet

What the entries of a fleet, the keys that lead to them and the links have to do with
each other, after any calls. The keys are counted: there is one for every connected
device, so `Distinct` says that no key is entered twice. `Registered` says what a
registration comes to, and `Registry` puts all of it together for every fleet that
can be reached.
-/

namespace Haptics

open Relation

/-! ## Keys of identities -/

/-- What is before the first slash of a key is the kind, if that has none. -/
theorem takeWhile_key {i : Identity} (h : '/' ∉ i.kind.toList) :
    i.key.toList.takeWhile (· ≠ '/') = i.kind.toList := by
  have hkind : ∀ c ∈ i.kind.toList, decide (c ≠ '/') = true := by
    intro c hc
    exact decide_eq_true fun heq => h (heq ▸ hc)
  have hslash : "/".toList = ['/'] := by decide
  rw [Identity.key, String.toList_append, String.toList_append, hslash, List.append_assoc,
    List.takeWhile_append_of_pos hkind]
  simp

/-- **Keys are told apart by kind and address**, if the kinds have no slash. -/
theorem Identity.key_eq_iff {i j : Identity} (hi : '/' ∉ i.kind.toList)
    (hj : '/' ∉ j.kind.toList) : i.key = j.key ↔ i.kind = j.kind ∧ i.address = j.address := by
  constructor
  · intro heq
    have hkind : i.kind = j.kind := by
      refine String.ext_iff.2 ?_
      rw [← takeWhile_key hi, ← takeWhile_key hj, heq]
    have hrest := congrArg String.toList heq
    rw [Identity.key, Identity.key, String.toList_append, String.toList_append (s := j.kind ++ "/"),
      hkind] at hrest
    exact ⟨hkind, String.ext_iff.2 (List.append_cancel_left hrest)⟩
  · rintro ⟨hkind, haddress⟩
    rw [Identity.key, Identity.key, hkind, haddress]

namespace Fleet

variable {L α : Type} {f g : Fleet L} {i : Nat} {d : Device} {k : String}

/-! ## Counting -/

/-- No key is entered twice. -/
def Distinct (f : Fleet L) : Prop := f.byKey.keys.Nodup

/-- The entry that leads to a device. -/
def entryOf (d : Device) : String × Nat := (d.identity.key, d.index)

theorem Sound.indices (hs : f.Sound) :
    f.devices.map Device.index = List.range f.devices.length := by
  refine List.ext_getElem? fun j => ?_
  rw [List.getElem?_map]
  cases hd : f.devices[j]? with
  | none =>
    have hle : f.devices.length ≤ j := List.getElem?_eq_none_iff.1 hd
    rw [List.getElem?_eq_none (by simpa using hle)]
    rfl
  | some d =>
    obtain ⟨hlt, -⟩ := List.getElem?_eq_some_iff.1 hd
    rw [List.getElem?_range hlt, Option.map_some, hs.index_eq hd]

/-- There is an entry for a device exactly if it is connected. -/
theorem Sound.mem_entries_iff (hs : f.Sound) (hk : f.Distinct) (e : String × Nat) :
    e ∈ f.byKey.entries ↔ e ∈ (f.devices.filter (·.connected)).map entryOf := by
  obtain ⟨k, i⟩ := e
  rw [Table.mem_entries_iff hk, hs.leads, List.mem_map]
  constructor
  · rintro ⟨d, hd, hc, rfl⟩
    refine ⟨d, List.mem_filter.2 ⟨List.mem_of_getElem? hd, hc⟩, ?_⟩
    rw [entryOf, hs.index_eq hd]
  · rintro ⟨d, hmem, heq⟩
    obtain ⟨hmem, hc⟩ := List.mem_filter.1 hmem
    obtain ⟨j, hd⟩ := List.getElem?_of_mem hmem
    obtain ⟨rfl, rfl⟩ := Prod.mk.inj heq
    rw [hs.index_eq hd]
    exact ⟨d, hd, hc, rfl⟩

/-- **There are as many keys as connected devices.** -/
theorem Sound.size_byKey (hs : f.Sound) (hk : f.Distinct) : f.byKey.size = f.list.length := by
  have hentries : f.byKey.entries.Nodup :=
    List.Pairwise.of_map Prod.fst (fun _ _ hne heq => hne (congrArg Prod.fst heq)) hk
  have hdevices : ((f.devices.filter (·.connected)).map entryOf).Nodup := by
    have hindices : ((f.devices.filter (·.connected)).map Device.index).Nodup :=
      (List.filter_sublist.map Device.index).nodup (hs.indices ▸ List.nodup_range)
    have hsnd : (((f.devices.filter (·.connected)).map entryOf).map Prod.snd).Nodup := by
      rw [List.map_map]
      exact hindices
    exact List.Pairwise.of_map Prod.snd (fun _ _ hne heq => hne (congrArg Prod.snd heq)) hsnd
  have hperm := (List.perm_ext_iff_of_nodup hentries hdevices).2 (hs.mem_entries_iff hk)
  have hlength := hperm.length_eq
  rw [List.length_map] at hlength
  rw [list, List.length_map, ← hlength, Table.size]

/-! ## Registrations -/

/-- A connected device has the key of an identity. -/
def Taken (f : Fleet L) (i : Identity) (index : Nat) : Prop :=
  ∃ d, f.devices[index]? = some d ∧ d.connected = true ∧ d.identity.key = i.key

/-- There is a link to the device, and a rule makes a protocol for it. -/
def Served (f : Fleet L) (i : Identity) (services : List String) (link : Option LinkId)
    (id : LinkId) (p : Protocol) : Prop :=
  link = some id ∧ f.rulebook.create i.name services = .ok p

/-- **What a registration comes to.** -/
inductive Registers (f : Fleet L) (i : Identity) (services : List String)
    (link : Option LinkId) : Outcome L Registration → Prop
  /-- The identity is connected, and that is all that matters. -/
  | present {index : Nat} (h : f.Taken i index) :
    Registers f i services link { answer := .present index, fleet := f }
  /-- A device enters at the end. -/
  | created {id : LinkId} {p : Protocol} (hfree : ∀ index, ¬ f.Taken i index)
    (h : f.Served i services link id p) :
    Registers f i services link
      { answer := .created f.devices.length
        fleet := { f with
          devices := f.devices ++ [f.entrant i p id]
          byKey := f.byKey.insert i.key f.devices.length }
        trace := [.emitted (.added f.devices.length i.name p.capabilities)] }
  /-- There is no link, or no protocol. -/
  | refused {e : Fault} (hfree : ∀ index, ¬ f.Taken i index)
    (h : ∀ id p, ¬ f.Served i services link id p) :
    Registers f i services link { answer := .refused e, fleet := f }

theorem Sound.registers (hs : f.Sound) (i : Identity) (services : List String)
    (link : Option LinkId) : f.Registers i services link (f.register i services link) := by
  unfold register
  cases hfind : f.find? i with
  | some index => exact .present (hs.leads.1 hfind)
  | none =>
    have hfree (index : Nat) : ¬ f.Taken i index := by
      intro htaken
      have hread : f.find? i = some index := hs.leads.2 htaken
      rw [hfind] at hread
      cases hread
    dsimp only
    cases link with
    | none => exact .refused hfree fun id p h => nomatch h.1
    | some id =>
      simp only [prepare]
      cases hp : f.rulebook.create i.name services with
      | error e =>
        refine .refused hfree fun id' p h => ?_
        have hok := h.2
        rw [hp] at hok
        cases hok
      | ok p =>
        dsimp only
        rw [Fleet.enter, hfind]
        exact .created hfree ⟨rfl, hp⟩

theorem Registers.created_iff {i : Identity} {services : List String} {link : Option LinkId}
    {out : Outcome L Registration} (h : f.Registers i services link out) (index : Nat) :
    out.answer = .created index ↔ index = f.devices.length ∧ (∀ j, ¬ f.Taken i j) ∧
      ∃ id p, f.Served i services link id p := by
  cases h with
  | present htaken =>
    refine iff_of_false (fun hc => nomatch hc) ?_
    rintro ⟨-, hfree, -⟩
    exact hfree _ htaken
  | created hfree hserved =>
    constructor
    · intro hc
      cases hc
      exact ⟨rfl, hfree, _, _, hserved⟩
    · rintro ⟨rfl, -⟩
      rfl
  | refused _ hnone =>
    refine iff_of_false (fun hc => nomatch hc) ?_
    rintro ⟨-, -, id, p, hserved⟩
    exact hnone id p hserved

/-! ## The registry -/

variable [Link L]

theorem Update.distinct (hu : f.Update g) (h : f.Distinct) : g.Distinct := by
  cases hu with
  | links | exchange => exact h
  | @remove i d hd hc =>
    unfold Distinct Fleet.remove
    dsimp only
    split
    · exact Table.nodup_keys_erase h _
    · exact h
  | enter hfree hp hid =>
    rw [Distinct, fleet_enter hfree]
    exact Table.nodup_keys_insert h _ _
  | clear =>
    have hkeys := (disconnectEach_spec (List.range f.devices.length)
      ({ f with byKey := {} } : Fleet L)).1
    unfold Distinct disconnectAll
    rw [hkeys]
    exact .nil

theorem Updates.distinct (hu : f.Updates g) (h : f.Distinct) : g.Distinct := by
  induction hu with
  | refl => exact h
  | tail _ hstep ih => exact hstep.distinct ih

/-- **The registry of a fleet.** -/
structure Registry (f : Fleet L) : Prop where
  index_eq : ∀ (i : Nat) (d : Device), f.devices[i]? = some d → d.index = i
  linked_iff : ∀ (i : Nat) (d : Device), f.devices[i]? = some d →
    (d.link.isSome = true ↔ d.connected = true)
  /-- A key leads to the connected device that has it. -/
  key_iff : ∀ (k : String) (i : Nat), f.byKey.get? k = some i ↔
    ∃ d, f.devices[i]? = some d ∧ d.connected = true ∧ d.identity.key = k
  /-- No two connected devices have one key. -/
  key_inj : ∀ (i j : Nat) (d e : Device), f.devices[i]? = some d → f.devices[j]? = some e →
    d.connected = true → e.connected = true → d.identity.key = e.identity.key → i = j
  /-- There are as many keys as devices in the list. -/
  count_eq : f.byKey.size = f.list.length
  /-- Through any calls the entries stay, each with its index, its identity and its
  capabilities, and a device that is disconnected is never connected again. -/
  lasting : ∀ (calls : List (Call L)) (i : Nat) (d : Device), f.devices[i]? = some d →
    ∃ d', (calls.foldl after f).devices[i]? = some d' ∧ d'.index = d.index ∧
      d'.identity = d.identity ∧ d'.protocol.vendor = d.protocol.vendor ∧
      d'.protocol.capabilities = d.protocol.capabilities ∧
      (d.connected = false → d'.connected = false)
  registers : ∀ (i : Identity) (services : List String) (link : Option LinkId),
    f.Registers i services link (f.register i services link)
  created_iff : ∀ (i : Identity) (services : List String) (link : Option LinkId) (index : Nat),
    (f.register i services link).answer = .created index ↔ index = f.devices.length ∧
      (∀ j, ¬ f.Taken i j) ∧ ∃ id p, f.Served i services link id p
  /-- Kinds without a slash do not run into the addresses. -/
  key_eq_iff : ∀ i j : Identity, '/' ∉ i.kind.toList → '/' ∉ j.kind.toList →
    (i.key = j.key ↔ i.kind = j.kind ∧ i.address = j.address)

theorem evolves_foldl (f : Fleet L) (calls : List (Call L)) :
    f.Evolves (calls.foldl after f) := by
  induction calls generalizing f with
  | nil => exact Evolves.refl f
  | cons c calls ih => exact (evolves_after f c).trans (ih _)

variable {b : Rulebook}

/-- **Every fleet that can be reached is a registry.** -/
theorem registry_of_reached (hf : Reached b f) : f.Registry where
  index_eq _ _ hd := hf.sound.index_eq hd
  linked_iff _ d hd := by
    cases hc : d.connected with
    | true =>
      obtain ⟨id, -, hlink⟩ := hf.sound.linked hd hc
      rw [hlink]
      exact iff_of_true rfl rfl
    | false =>
      rw [hf.sound.unlinked hd hc]
      exact iff_of_false Bool.false_ne_true Bool.false_ne_true
  key_iff _ _ := hf.sound.leads
  key_inj i j d e hd he hcd hce hkey := by
    have hi : f.byKey.get? d.identity.key = some i := hf.sound.leads.2 ⟨d, hd, hcd, rfl⟩
    have hj : f.byKey.get? d.identity.key = some j := hf.sound.leads.2 ⟨e, he, hce, hkey.symm⟩
    exact Option.some.inj (hi.symm.trans hj)
  count_eq := hf.sound.size_byKey (hf.updates.distinct .nil)
  lasting calls i d hd := by
    obtain ⟨d', hd', hb⟩ := (evolves_foldl f calls).becomes hd
    refine ⟨d', hd', hb.index, hb.identity, hb.alike.vendor, hb.alike.capabilities, fun hc => ?_⟩
    rw [← Bool.not_eq_true] at hc ⊢
    exact fun hc' => hc (hb.connected hc').1
  registers := hf.sound.registers
  created_iff i services link index := (hf.sound.registers i services link).created_iff index
  key_eq_iff _ _ := Identity.key_eq_iff

/-- A device that was removed and is registered again. -/
def returned : Fleet SimulatedLink :=
  (((({ rulebook := .builtin } : Fleet SimulatedLink).after (.addLink { device := {} })).after
    (.register ⟨"sim", "A", "LVS-Nora"⟩ [] (some 0))).after
    (.unregister ⟨"sim", "A", "LVS-Nora"⟩)).after
    (.register ⟨"sim", "A", "LVS-Nora"⟩ [] (some 0))

/-- It has two entries, and its key leads to the second. -/
theorem registry_of_reached_returned :
    returned.Registry ∧ returned.devices.map Device.connected = [false, true] ∧
      returned.byKey.entries = [("sim/A", 1)] :=
  ⟨registry_of_reached
    (.call (.call (.call (.call .start trivial) Nat.zero_lt_one) trivial) Nat.zero_lt_one),
    by decide, by decide⟩

end Fleet

end Haptics
