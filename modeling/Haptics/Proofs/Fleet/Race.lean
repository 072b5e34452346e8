import Haptics.Link.Simulated
import Haptics.Proofs.Fleet.Chronicle
import Haptics.Proofs.Fleet.Commanding
import Haptics.Proofs.Fleet.Registry
/-!
# Racing registrations

A registration looks its identity up, chooses a protocol, and looks the identity up
again when it enters its device. Between the two look-ups others act on the fleet, and
other registrations of the same identity may be under way. `Race` is a fleet with any
number of registrations, each in its two steps. `Race.Enters` lists what a second step
comes to, `Race.Orderly` is what every step keeps, and `Race.settled_of_run` is the main
statement: however the steps interleave, a device that is created is created once and
told of once, and no key ever has two connected devices.
-/

namespace Haptics

/-! ## Registrations in two steps -/

/-- How far a registration has come. -/
inductive Progress
  /-- The identity was free, and there is a protocol for the device. -/
  | chosen (protocol : Protocol) (link : LinkId)
  | answered (r : Registration)

/-- A registration that was called. -/
structure Enrolment where
  identity : Identity
  services : List String
  link : Option LinkId
  progress : Progress

namespace Enrolment

/-- The registration with its answer. -/
def answer (c : Enrolment) (r : Registration) : Enrolment := { c with progress := .answered r }

/-- The index of the device that it created. -/
def created? (c : Enrolment) : Option Nat :=
  match c.progress with
  | .answered (.created index) => some index
  | _ => none

end Enrolment

namespace Fleet

variable {L : Type} {f : Fleet L}

/-- The first step of a registration: the look-up, and the choice of a protocol if the
identity is free. -/
def lookUp (f : Fleet L) (i : Identity) (services : List String) (link : Option LinkId) :
    Progress :=
  match f.find? i with
  | some index => .answered (.present index)
  | none =>
    match f.prepare i services link with
    | .error e => .answered (.refused e)
    | .ok (protocol, id) => .chosen protocol id

/-- A protocol is chosen only for a device with a link and a rule. -/
theorem served_of_lookUp {i : Identity} {services : List String} {link : Option LinkId}
    {p : Protocol} {id : LinkId} (h : f.lookUp i services link = .chosen p id) :
    f.Served i services link id p := by
  unfold lookUp prepare at h
  split at h
  · cases h
  · split at h
    · cases h
    · rename_i protocol id' hprep
      cases h
      split at hprep
      · cases hprep
      · split at hprep
        · cases hprep
        · rename_i id'' protocol' hcreate
          cases hprep
          exact ⟨rfl, hcreate⟩

/-- A look-up creates nothing. -/
theorem lookUp_ne_created (f : Fleet L) (i : Identity) (services : List String)
    (link : Option LinkId) (index : Nat) :
    f.lookUp i services link ≠ .answered (.created index) := by
  intro h
  unfold lookUp at h
  split at h
  · cases h
  · split at h <;> cases h

/-- A look-up that finds a device finds the one that its key leads to. -/
theorem find?_of_lookUp {i : Identity} {services : List String} {link : Option LinkId}
    {index : Nat} (h : f.lookUp i services link = .answered (.present index)) :
    f.find? i = some index := by
  unfold lookUp at h
  split at h
  · rename_i index' hfind
    cases h
    exact hfind
  · split at h <;> cases h

/-- Only registrations create devices. -/
theorem length_after [Link L] (f : Fleet L) {c : Call L}
    (hno : ∀ i services link, c ≠ .register i services link) :
    (f.after c).devices.length = f.devices.length := by
  have hlt (j : Nat) : j < (f.after c).devices.length ↔ j < f.devices.length := by
    rw [lt_length_after, or_iff_right]
    rintro ⟨i, services, link, hc, -⟩
    exact hno i services link hc
  have hle := hlt f.devices.length
  have hge := hlt (f.after c).devices.length
  omega

end Fleet

/-- A fleet with the registrations that were called, in the order of their look-ups, and
the events that were emitted. -/
structure Race (L : Type) where
  fleet : Fleet L
  calls : List Enrolment := []
  told : List DeviceEvent := []

namespace Race

variable {L : Type} [Link L]

inductive Move (L : Type)
  /-- A registration is called and looks its identity up. -/
  | look (i : Identity) (services : List String) (link : Option LinkId)
  /-- A registration that has a protocol looks again, and enters its device if it may. -/
  | enter (call : Nat)
  /-- Anything else is asked of the fleet, such as the removal of a device. -/
  | other (c : Fleet.Call L)

/-- The second step of a registration. -/
def enter (x : Race L) (call : Nat) : Race L :=
  match x.calls[call]? with
  | none => x
  | some c =>
    match c.progress with
    | .answered _ => x
    | .chosen p id =>
      let out := x.fleet.enter c.identity p id
      { fleet := out.fleet
        calls := x.calls.set call (c.answer out.answer)
        told := x.told ++ Fleet.emittedIn out.trace }

def step (x : Race L) : Move L → Race L
  | .look i services link =>
    { x with calls := x.calls ++ [⟨i, services, link, x.fleet.lookUp i services link⟩] }
  | .enter call => x.enter call
  | .other c => { x with fleet := x.fleet.after c, told := x.told ++ x.fleet.told c }

def run (x : Race L) (moves : List (Move L)) : Race L := moves.foldl step x

/-- A device is registered with a link that is there, and every registration is made in
two steps. -/
def Move.Legal (x : Race L) : Move L → Prop
  | .look _ _ (some id) => id < x.fleet.links.length
  | .other c => ∀ i services link, c ≠ .register i services link
  | _ => True

/-- Every move is legal when it is made. -/
def LegalAll (x : Race L) : List (Move L) → Prop
  | [] => True
  | m :: moves => m.Legal x ∧ (x.step m).LegalAll moves

/-- The indices of the devices that registrations created. -/
def created (x : Race L) : List Nat := x.calls.filterMap Enrolment.created?

/-- A move is one of the two steps of a registration. -/
def Takes (x : Race L) (call : Nat) (c : Enrolment) (m : Move L) : Prop :=
  (m = .look c.identity c.services c.link ∧ call = x.calls.length) ∨
    (m = .enter call ∧ ∃ p id, x.calls[call]? = some { c with progress := .chosen p id })

variable {x y : Race L} {call : Nat} {m : Move L} {moves : List (Move L)}

/-! ## Second steps -/

omit [Link L] in
/-- **What the second step of a registration comes to.** -/
inductive Enters (x : Race L) (call : Nat) : Race L → Prop
  /-- There is nothing to enter, for the registration has its answer. -/
  | idle (h : ∀ c p id, x.calls[call]? = some c → c.progress ≠ .chosen p id) : Enters x call x
  /-- The identity was connected in the meantime. -/
  | present {c : Enrolment} {p : Protocol} {id : LinkId} {index : Nat}
    (hcall : x.calls[call]? = some c) (hchosen : c.progress = .chosen p id)
    (hfind : x.fleet.find? c.identity = some index) :
    Enters x call { x with calls := x.calls.set call (c.answer (.present index)) }
  /-- The device enters at the end. -/
  | created {c : Enrolment} {p : Protocol} {id : LinkId}
    (hcall : x.calls[call]? = some c) (hchosen : c.progress = .chosen p id)
    (hfree : x.fleet.find? c.identity = none) :
    Enters x call
      { fleet := (x.fleet.enter c.identity p id).fleet
        calls := x.calls.set call (c.answer (.created x.fleet.devices.length))
        told := x.told ++ [.added x.fleet.devices.length c.identity.name p.capabilities] }

omit [Link L] in
theorem enters_enter (x : Race L) (call : Nat) : x.Enters call (x.enter call) := by
  unfold enter
  split
  · rename_i hnone
    refine .idle fun c p id hc => ?_
    rw [hnone] at hc
    cases hc
  · rename_i c hcall
    split
    · rename_i r hanswered
      refine .idle fun c' p id hc' hchosen => ?_
      rw [hcall] at hc'
      cases hc'
      rw [hanswered] at hchosen
      cases hchosen
    · rename_i p id hchosen
      cases hfind : x.fleet.find? c.identity with
      | some index =>
        have hout : x.fleet.enter c.identity p id =
            { answer := .present index, fleet := x.fleet } := by rw [Fleet.enter, hfind]
        have htold : x.told ++ Fleet.emittedIn [] = x.told := List.append_nil _
        rw [hout]
        dsimp only
        rw [htold]
        exact .present hcall hchosen hfind
      | none =>
        have hanswer : (x.fleet.enter c.identity p id).answer =
            .created x.fleet.devices.length := by rw [Fleet.enter, hfind]
        have htrace : (x.fleet.enter c.identity p id).trace =
            [.emitted (.added x.fleet.devices.length c.identity.name p.capabilities)] := by
          rw [Fleet.enter, hfind]
        dsimp only
        rw [hanswer, htrace]
        exact .created hcall hchosen hfind

/-- **With nothing between its two steps a registration is made in one go.** -/
theorem step_look_enter (x : Race L) (i : Identity) (services : List String)
    (link : Option LinkId) :
    (x.step (.look i services link)).step (.enter x.calls.length) =
      { fleet := (x.fleet.register i services link).fleet
        calls := x.calls ++
          [⟨i, services, link, .answered (x.fleet.register i services link).answer⟩]
        told := x.told ++ x.fleet.told (.register i services link) } := by
  have hlast : (x.calls ++ [⟨i, services, link, x.fleet.lookUp i services link⟩])[
      x.calls.length]? = some ⟨i, services, link, x.fleet.lookUp i services link⟩ := by simp
  have htold : x.told ++ Fleet.emittedIn [] = x.told := List.append_nil _
  simp only [step, enter, hlast, Fleet.told, Fleet.trace]
  cases hfind : x.fleet.find? i with
  | some index => simp only [Fleet.lookUp, Fleet.register, hfind, htold]
  | none =>
    cases hprep : x.fleet.prepare i services link with
    | error e => simp only [Fleet.lookUp, Fleet.register, hfind, hprep, htold]
    | ok chosen => simp [Fleet.lookUp, Fleet.register, hfind, hprep, Enrolment.answer]

/-! ## What every step keeps -/

/-- **What every step keeps.** -/
structure Orderly (x : Race L) : Prop where
  sound : x.fleet.Sound
  tale : Fleet.Tale x.told x.fleet.infos
  /-- The devices are those that registrations created, each by one of them. -/
  created : x.created.Perm (List.range x.fleet.devices.length)
  /-- A protocol that was chosen is one that a rule makes. -/
  chosen : ∀ c ∈ x.calls, ∀ p id, c.progress = .chosen p id →
    x.fleet.Served c.identity c.services c.link id p ∧ id < x.fleet.links.length
  /-- A device that was created has the identity it was registered with. -/
  entered : ∀ c ∈ x.calls, ∀ index, c.progress = .answered (.created index) →
    ∃ d, x.fleet.devices[index]? = some d ∧ d.identity = c.identity

/-- An answer takes the place of what was chosen, and adds what it created. -/
theorem created_answer {c : Enrolment} {p : Protocol} {id : LinkId} {calls : List Enrolment}
    (hcall : calls[call]? = some c) (hchosen : c.progress = .chosen p id) (r : Registration) :
    ((calls.set call (c.answer r)).filterMap Enrolment.created?).Perm
      (calls.filterMap Enrolment.created? ++ (c.answer r).created?.toList) := by
  obtain ⟨hlt, hget⟩ := List.getElem?_eq_some_iff.1 hcall
  obtain ⟨pre, post, hsplit, -, hset⟩ : ∃ pre post, calls = pre ++ calls[call] :: post ∧
    pre.length = call ∧ calls.set call (c.answer r) = pre ++ c.answer r :: post :=
    List.exists_of_set hlt
  have hnone : c.created? = none := by rw [Enrolment.created?, hchosen]
  rw [hget] at hsplit
  rw [hset, hsplit, List.filterMap_append, List.filterMap_append, List.filterMap_cons_none hnone]
  cases hr : (c.answer r).created? with
  | none => rw [List.filterMap_cons_none hr, Option.toList_none, List.append_nil]
  | some index =>
    rw [List.filterMap_cons_some hr]
    exact List.perm_middle.trans (List.perm_append_singleton _ _).symm

omit [Link L] in
/-- The fleet may change under the registrations, if it tells of it and creates nothing. -/
theorem Orderly.evolve (h : x.Orderly) {g : Fleet L} {es : List DeviceEvent}
    (he : x.fleet.Evolves g) (hs : g.Sound) (ht : Fleet.Tale es g.infos)
    (hlength : g.devices.length = x.fleet.devices.length) :
    Orderly { x with fleet := g, told := es } where
  sound := hs
  tale := ht
  created := hlength ▸ h.created
  chosen c hc p id hchosen := by
    obtain ⟨⟨hlink, hcreate⟩, hlt⟩ := h.chosen c hc p id hchosen
    exact ⟨⟨hlink, he.rulebook ▸ hcreate⟩, Nat.lt_of_lt_of_le hlt he.links_le⟩
  entered c hc index hcreated := by
    obtain ⟨d, hd, hidentity⟩ := h.entered c hc index hcreated
    obtain ⟨d', hd', hb⟩ := he.becomes hd
    exact ⟨d', hd', hb.identity.trans hidentity⟩

theorem Orderly.look (h : x.Orderly) (i : Identity) (services : List String)
    {link : Option LinkId} (hlink : ∀ id, link = some id → id < x.fleet.links.length) :
    (x.step (.look i services link)).Orderly where
  sound := h.sound
  tale := h.tale
  created := by
    have hnone : Enrolment.created? ⟨i, services, link, x.fleet.lookUp i services link⟩ = none := by
      unfold Enrolment.created?
      split
      · rename_i index hcreated
        exact absurd hcreated (x.fleet.lookUp_ne_created i services link index)
      · rfl
    have hsame : (x.step (.look i services link)).created = x.created := by
      rw [Race.created, step, List.filterMap_append, List.filterMap_cons_none hnone]
      exact List.append_nil _
    exact hsame ▸ h.created
  chosen c hc p id hchosen := by
    rcases List.mem_append.1 hc with hold | hnew
    · exact h.chosen c hold p id hchosen
    · rw [List.mem_singleton.1 hnew] at hchosen ⊢
      have hserved := Fleet.served_of_lookUp hchosen
      exact ⟨hserved, hlink id hserved.1⟩
  entered c hc index hcreated := by
    rcases List.mem_append.1 hc with hold | hnew
    · exact h.entered c hold index hcreated
    · rw [List.mem_singleton.1 hnew] at hcreated
      exact absurd hcreated (x.fleet.lookUp_ne_created i services link index)

omit [Link L] in
theorem Orderly.enter (h : x.Orderly) (call : Nat) : (x.enter call).Orderly := by
  have hcases := x.enters_enter call
  generalize x.enter call = y at hcases ⊢
  cases hcases with
  | idle => exact h
  | @present c p id index hcall hchosen hfind =>
    refine ⟨h.sound, h.tale, ?_, fun c' hc' p' id' hchosen' => ?_, fun c' hc' index' hcreated => ?_⟩
    · exact (created_answer hcall hchosen (.present index)).trans
        (List.append_nil x.created ▸ h.created)
    · rcases List.mem_or_eq_of_mem_set hc' with hold | rfl
      · exact h.chosen c' hold p' id' hchosen'
      · cases hchosen'
    · rcases List.mem_or_eq_of_mem_set hc' with hold | rfl
      · exact h.entered c' hold index' hcreated
      · cases hcreated
  | @created c p id hcall hchosen hfree =>
    obtain ⟨⟨hlink, hcreate⟩, hlt⟩ := h.chosen c (List.mem_of_getElem? hcall) p id hchosen
    have hevolves := Fleet.evolves_enter hfree p id
    have hlength : (x.fleet.enter c.identity p id).fleet.devices.length =
        x.fleet.devices.length + 1 := by
      rw [Fleet.fleet_enter hfree]
      exact List.length_append
    refine ⟨h.sound.enter hfree hcreate hlt, ?_, ?_, fun c' hc' p' id' hchosen' => ?_,
      fun c' hc' index hcreated => ?_⟩
    · have hindex : (x.fleet.entrant c.identity p id).info.index = x.fleet.infos.length :=
        (Fleet.length_infos x.fleet).symm
      have htells : Fleet.Tells x.fleet.infos
          (.added x.fleet.infos.length c.identity.name p.capabilities)
          (x.fleet.infos ++ [(x.fleet.entrant c.identity p id).info]) := .added hindex rfl
      dsimp only
      rw [Fleet.infos_enter hfree, ← Fleet.length_infos]
      exact h.tale.tells htells
    · have hperm := created_answer hcall hchosen (.created x.fleet.devices.length)
      dsimp only
      rw [hlength, List.range_succ]
      exact hperm.trans (h.created.append_right _)
    · rcases List.mem_or_eq_of_mem_set hc' with hold | rfl
      · obtain ⟨⟨hlink', hcreate'⟩, hlt'⟩ := h.chosen c' hold p' id' hchosen'
        exact ⟨⟨hlink', hevolves.rulebook ▸ hcreate'⟩,
          Nat.lt_of_lt_of_le hlt' hevolves.links_le⟩
      · cases hchosen'
    · rcases List.mem_or_eq_of_mem_set hc' with hold | rfl
      · obtain ⟨d, hd, hidentity⟩ := h.entered c' hold index hcreated
        obtain ⟨d', hd', hb⟩ := hevolves.becomes hd
        exact ⟨d', hd', hb.identity.trans hidentity⟩
      · cases hcreated
        have hnew : (x.fleet.enter c.identity p id).fleet.devices[x.fleet.devices.length]? =
            some (x.fleet.entrant c.identity p id) := by
          rw [Fleet.getElem?_enter hfree, if_pos rfl]
        exact ⟨_, hnew, rfl⟩

theorem Orderly.step (h : x.Orderly) (hm : m.Legal x) : (x.step m).Orderly := by
  cases m with
  | look i services link =>
    refine h.look i services fun id hid => ?_
    subst hid
    exact hm
  | enter call => exact h.enter call
  | other c =>
    have hlegal : c.Legal x.fleet := by
      cases c with
      | register i services link => exact absurd rfl (hm i services link)
      | _ => trivial
    exact h.evolve (Fleet.evolves_after x.fleet c) ((Fleet.updates_after hlegal).sound h.sound)
      (h.tale.after c) (x.fleet.length_after hm)

theorem Orderly.run (h : x.Orderly) (hms : x.LegalAll moves) : (x.run moves).Orderly := by
  induction moves generalizing x with
  | nil => exact h
  | cons m moves ih => exact ih (h.step hms.1) hms.2

/-- A race without devices, before any registration. -/
def opening (b : Rulebook) : Race L := { fleet := { rulebook := b } }

omit [Link L] in
theorem orderly_opening (b : Rulebook) : (opening b : Race L).Orderly where
  sound := Fleet.sound_start b
  tale := Fleet.tale_nil
  created := .nil
  chosen _ hc := absurd hc List.not_mem_nil
  entered _ hc := absurd hc List.not_mem_nil

/-! ## Answers -/

/-- **Where an answer comes from**: a registration that found its identity connected found
it so in one of its two steps. -/
theorem Orderly.present_step (h : x.Orderly) {c : Enrolment} {index : Nat}
    (hcall : (x.step m).calls[call]? = some c)
    (hpresent : c.progress = .answered (.present index)) :
    x.calls[call]? = some c ∨ x.Takes call c m ∧ x.fleet.Taken c.identity index := by
  cases m with
  | look i services link =>
    have hcall : (x.calls ++ [⟨i, services, link, x.fleet.lookUp i services link⟩])[call]? =
        some c := hcall
    rcases Nat.lt_trichotomy call x.calls.length with hlt | rfl | hgt
    · left
      rwa [List.getElem?_append_left hlt] at hcall
    · right
      rw [List.getElem?_concat_length] at hcall
      cases hcall
      exact ⟨Or.inl ⟨rfl, rfl⟩, h.sound.leads.1 (Fleet.find?_of_lookUp hpresent)⟩
    · rw [List.getElem?_eq_none (by simp; omega)] at hcall
      cases hcall
  | enter call' =>
    have hcall : (x.enter call').calls[call]? = some c := hcall
    have hcases := x.enters_enter call'
    generalize x.enter call' = y at hcases hcall
    cases hcases with
    | idle => exact Or.inl hcall
    | @present c' p id index' hcall' hchosen hfind =>
      by_cases heq : call' = call
      · right
        subst heq
        obtain ⟨hlt, -⟩ := List.getElem?_eq_some_iff.1 hcall'
        rw [List.getElem?_set_self hlt] at hcall
        cases hcall
        cases hpresent
        refine ⟨Or.inr ⟨rfl, p, id, ?_⟩, h.sound.leads.1 hfind⟩
        rw [hcall', ← hchosen]
        rfl
      · left
        rwa [List.getElem?_set_ne heq] at hcall
    | @created c' p id hcall' hchosen hfree =>
      by_cases heq : call' = call
      · subst heq
        obtain ⟨hlt, -⟩ := List.getElem?_eq_some_iff.1 hcall'
        rw [List.getElem?_set_self hlt] at hcall
        cases hcall
        cases hpresent
      · left
        rwa [List.getElem?_set_ne heq] at hcall
  | other c' => exact Or.inl hcall

/-- In a run a registration makes one of its two steps while a device that is connected
under its key has an index. -/
def Met (start : Race L) (moves : List (Move L)) (call : Nat) (c : Enrolment) (index : Nat) :
    Prop :=
  ∃ before m after, moves = before ++ m :: after ∧ (start.run before).Takes call c m ∧
    (start.run before).fleet.Taken c.identity index

theorem Orderly.present_run (h : x.Orderly) (hms : x.LegalAll moves) {c : Enrolment}
    {index : Nat} (hcall : (x.run moves).calls[call]? = some c)
    (hpresent : c.progress = .answered (.present index)) :
    x.calls[call]? = some c ∨ x.Met moves call c index := by
  induction moves generalizing x with
  | nil => exact Or.inl hcall
  | cons m moves ih =>
    rcases ih (h.step hms.1) hms.2 hcall with hold | ⟨before, m', after, hsplit, hmet⟩
    · rcases h.present_step hold hpresent with hearlier | hhere
      · exact Or.inl hearlier
      · exact Or.inr ⟨[], m, moves, rfl, hhere⟩
    · exact Or.inr ⟨m :: before, m', after, congrArg (m :: ·) hsplit, hmet⟩

/-- An event that a device is added is about that device. -/
theorem device_of_added {e : DeviceEvent} {i : Nat} (h : e.added? = some i) : e.device = i := by
  cases e with
  | added device name capabilities => exact Option.some.inj h
  | _ => cases h

/-- One event of a device's life says that it was added. -/
theorem added_of_life {i : Nat} {d : DeviceInfo} {es : List DeviceEvent}
    (h : Life i (some d) (about i es)) :
    es.filter (·.added? = some i) = [.added i d.identity.name d.capabilities] := by
  have habout : es.filter (·.added? = some i) = (about i es).filter (·.added? = some i) := by
    rw [about, List.filter_filter]
    refine List.filter_congr fun e _ => ?_
    by_cases hadded : e.added? = some i
    · simp [hadded, device_of_added hadded]
    · simp [hadded]
  rw [habout]
  generalize about i es = es' at h
  cases h with
  | present hrss => simp [DeviceEvent.added?]
  | removed hrss hc => simp [DeviceEvent.added?]

/-! ## Runs -/

/-- **What racing registrations come to**, after some moves. -/
structure Settled (start : Race L) (moves : List (Move L)) : Prop where
  /-- No device is created twice. -/
  nodup_created : (start.run moves).created.Nodup
  mem_created_iff : ∀ index, index ∈ (start.run moves).created ↔
    index < (start.run moves).fleet.devices.length
  /-- No two connected devices have one key. -/
  key_inj : ∀ (i j : Nat) (d e : Device), (start.run moves).fleet.devices[i]? = some d →
    (start.run moves).fleet.devices[j]? = some e → d.connected = true → e.connected = true →
      d.identity.key = e.identity.key → i = j
  /-- A device that was created has the identity it was registered with, and one event tells
  of it. -/
  announced : ∀ c ∈ (start.run moves).calls, ∀ index,
    c.progress = .answered (.created index) → ∃ d,
      (start.run moves).fleet.info? index = some d ∧ d.identity = c.identity ∧
      (start.run moves).told.filter (·.added? = some index) =
        [.added index d.identity.name d.capabilities]
  /-- No event tells of any other device. -/
  added : (start.run moves).told.filterMap DeviceEvent.added? =
    List.range (start.run moves).fleet.devices.length
  /-- A registration that finds its identity connected finds it so in one of its steps. -/
  present : ∀ call c index, (start.run moves).calls[call]? = some c →
    c.progress = .answered (.present index) → start.Met moves call c index
  /-- The second step always has an answer, and refuses nothing. -/
  answers : ∀ call c p id, (start.run moves).calls[call]? = some c →
    c.progress = .chosen p id → ∃ r, (∀ e, r ≠ .refused e) ∧
      ((start.run moves).step (.enter call)).calls[call]? = some (c.answer r)

/-- The second step of a registration that has a protocol has an answer. -/
theorem answers_enter {c : Enrolment} {p : Protocol} {id : LinkId}
    (hcall : x.calls[call]? = some c) (hchosen : c.progress = .chosen p id) :
    ∃ r, (∀ e, r ≠ .refused e) ∧ (x.step (.enter call)).calls[call]? = some (c.answer r) := by
  obtain ⟨hlt, -⟩ := List.getElem?_eq_some_iff.1 hcall
  have hcases := x.enters_enter call
  change ∃ r, (∀ e, r ≠ .refused e) ∧ (x.enter call).calls[call]? = some (c.answer r)
  generalize x.enter call = y at hcases ⊢
  cases hcases with
  | idle hidle => exact absurd hchosen (hidle c p id hcall)
  | present hcall' hchosen' hfind =>
    cases hcall.symm.trans hcall'
    refine ⟨.present _, fun e he => ?_, List.getElem?_set_self hlt⟩
    cases he
  | created hcall' hchosen' hfree =>
    cases hcall.symm.trans hcall'
    refine ⟨.created _, fun e he => ?_, List.getElem?_set_self hlt⟩
    cases he

/-- **However registrations race, a device is created once**, told of once, and found by
the others. -/
theorem settled_of_run (b : Rulebook) {moves : List (Move L)}
    (hms : (opening b : Race L).LegalAll moves) : Settled (opening b : Race L) moves := by
  have hbegin : (opening b : Race L).Orderly := orderly_opening b
  have h := hbegin.run hms
  refine ⟨?_, fun index => ?_, fun i j d e hd he hcd hce hkey => ?_, fun c hc index hcreated => ?_,
    ?_, fun call c index hcall hpresent => ?_, fun call c p id hcall hchosen =>
      answers_enter hcall hchosen⟩
  · exact h.created.nodup_iff.2 List.nodup_range
  · rw [h.created.mem_iff, List.mem_range]
  · have hi := h.sound.leads.2 ⟨d, hd, hcd, rfl⟩
    have hj := h.sound.leads.2 ⟨e, he, hce, hkey.symm⟩
    exact Option.some.inj (hi.symm.trans hj)
  · obtain ⟨d, hd, hidentity⟩ := h.entered c hc index hcreated
    have hinfo := Fleet.getElem?_infos hd
    have hlife := h.tale.life index
    rw [hinfo] at hlife
    exact ⟨d.info, (Fleet.info?_eq _ index).trans hinfo, hidentity, added_of_life hlife⟩
  · rw [h.tale.added, Fleet.length_infos]
  · rcases hbegin.present_run hms hcall hpresent with hold | hmet
    · cases hold
    · exact hmet

/-- One identity is registered three times at once, and removed before the third may enter
its device. -/
def contested : List (Move SimulatedLink) :=
  let found : Move SimulatedLink := .look ⟨"sim", "A", "LVS-Nora"⟩ [] (some 0)
  [.other (.addLink { device := {} }), found, found, found, .enter 1, .enter 0,
    .other (.unregister ⟨"sim", "A", "LVS-Nora"⟩), .enter 2, found]

theorem legalAll_contested : (opening .builtin : Race SimulatedLink).LegalAll contested :=
  ⟨nofun, Nat.zero_lt_one, Nat.zero_lt_one, Nat.zero_lt_one, trivial, trivial, nofun, trivial,
    Nat.zero_lt_one, trivial⟩

/-- The second creates a device, which the first finds; the third creates another one. -/
theorem settled_of_run_contested :
    Settled (opening .builtin : Race SimulatedLink) contested ∧
      ((opening .builtin : Race SimulatedLink).run contested).created = [0, 1] ∧
      ((opening .builtin : Race SimulatedLink).run contested).told.map DeviceEvent.device =
        [0, 0, 1] ∧
      ((opening .builtin : Race SimulatedLink).run contested).fleet.devices.map Device.connected =
        [false, true] :=
  ⟨settled_of_run .builtin legalAll_contested, by decide, by decide, by decide⟩

end Race

end Haptics
