import Haptics.Proofs.Device.Outcome
import Haptics.Proofs.Fleet.Registry
import Haptics.Proofs.Fleet.Story
/-!
# Commands to a fleet

What a command to a device comes to. `Dispatched` lists it: there is no such
device, the device is gone, the command is rejected, it is carried out or fails on
a link that still reaches the device, or it fails and the device is lost. What a
client or another device can tell of it is read off the list:
`dispatches_of_calls` is the main statement.
-/

namespace Haptics

namespace Online

variable {L : Type} [Link L]

/-- What a command comes to on the line of the device: the answer, and the line
afterwards. -/
def runs (o : Online L) (c : Command) : Except Fault (List Reading) × Line L :=
  ({ protocol := o.device.protocol, link := o.link } : Line L).execute o.device.identity.name c

/-- The device after a command. -/
def commanded (o : Online L) (c : Command) : Device :=
  { o.device with protocol := (o.runs c).2.protocol }

end Online

namespace Fleet

variable {L : Type} {f g : Fleet L} {o : Online L} {i : Nat} {id : LinkId}

/-! ## What one device and its link leave alone -/

/-- What the device with an index and one link do not touch of a fleet. -/
structure Spares (f g : Fleet L) (i : Nat) (id : LinkId) : Prop where
  devices : ∀ j, j ≠ i → g.devices[j]? = f.devices[j]?
  leads : ∀ j, j ≠ i → ∀ k, g.byKey.get? k = some j ↔ f.byKey.get? k = some j
  links : ∀ id', id' ≠ id → g.links[id']? = f.links[id']?

/-- A fleet that takes over what it had is the same. -/
theorem absorb_self {α : Type} {d : Device} {link : L} (hd : f.devices[i]? = some d)
    (hlink : f.links[id]? = some link) (answer : α) (ts : List Traffic) :
    f.absorb i { answer, device := d, links := f.links.set id link, traffic := ts } = f := by
  obtain ⟨hi, rfl⟩ := List.getElem?_eq_some_iff.1 hd
  obtain ⟨hid, rfl⟩ := List.getElem?_eq_some_iff.1 hlink
  unfold absorb
  simp only [List.set_getElem_self]

variable [Link L]

/-! ## What a dispatch comes to -/

/-- A command goes to the line of the device, whose link alone it changes. -/
theorem Holds.execute (ho : f.Holds o) (c : Command) :
    o.device.execute f.links c =
      { answer := (o.runs c).1
        device := o.commanded c
        links := f.links.set o.id (o.runs c).2.link
        traffic := (o.runs c).2.traffic } :=
  Device.onLine_eq ho.connected ho.id ho.link _ _

/-- The fleet after a command to a device that is still there. -/
def commanded (f : Fleet L) (o : Online L) (c : Command) : Fleet L :=
  f.absorb o.index (o.device.execute f.links c)

/-- The fleet after a command to a device that is lost with it. -/
def dropped (f : Fleet L) (o : Online L) (c : Command) : Fleet L :=
  ((f.commanded o c).remove o.index (o.commanded c)).fleet

/-- **What a dispatch comes to.** -/
inductive Dispatched (f : Fleet L) (c : Command) :
    Nat → Outcome L (Except Fault (List Reading)) → Prop
  /-- No device was ever registered under the index. -/
  | unknown {i : Nat} (hi : f.devices.length ≤ i) :
    Dispatched f c i { answer := .error (.unknownDevice i), fleet := f }
  | gone {i : Nat} {d : Device} (hd : f.devices[i]? = some d) (hc : d.connected = false) :
    Dispatched f c i { answer := .error (.noLongerConnected i), fleet := f }
  /-- The command asks for something that the device cannot do. -/
  | rejected {o : Online L} {e : Fault} (ho : f.Holds o) (he : e.OfCommand) :
    Dispatched f c o.index { answer := .error e, fleet := f }
  /-- The command is carried out, or fails on a link that still reaches the device. -/
  | kept {o : Online L} {answer : Except Fault (List Reading)} (ho : f.Holds o)
    (hfail : ∀ e, answer = .error e →
      e.code = .transportError ∧ Link.reachable (o.runs c).2.link = true)
    (hread : ∀ readings index, answer = .ok readings → c = .readSensor index → readings ≠ []) :
    Dispatched f c o.index
      { answer, fleet := f.commanded o c, trace := (o.runs c).2.traffic.map (.traffic o.id) }
  /-- The command fails on a link that does not reach the device any more. -/
  | lost {o : Online L} {e : Fault} (ho : f.Holds o) (he : e.code = .transportError)
    (hreach : Link.reachable (o.runs c).2.link = false) :
    Dispatched f c o.index
      { answer := .error e
        fleet := f.dropped o c
        trace := (o.runs c).2.traffic.map (.traffic o.id) ++
          [.traffic o.id .disconnected, .emitted o.removal] }

theorem Holds.links_commanded (ho : f.Holds o) (c : Command) :
    (f.commanded o c).links = f.links.set o.id (o.runs c).2.link := by
  rw [commanded, ho.execute c]
  rfl

/-- The link of a device after a command is the one that was commanded. -/
theorem Holds.reachable_commanded (ho : f.Holds o) (c : Command) :
    (o.commanded c).reachable (f.commanded o c).links = Link.reachable (o.runs c).2.link := by
  obtain ⟨hlt, -⟩ := List.getElem?_eq_some_iff.1 ho.link
  have hlink : (o.commanded c).link = some o.id := ho.id
  rw [ho.links_commanded, Device.reachable, hlink]
  simp only [List.getElem?_set_self hlt, Option.any_some]

/-- What a dispatch to a connected device gives is decided by its line. -/
theorem Holds.dispatch_eq (ho : f.Holds o) (c : Command) :
    f.dispatch o.index c =
      match (o.runs c).1 with
      | .ok readings =>
        { answer := .ok readings, fleet := f.commanded o c
          trace := (o.runs c).2.traffic.map (.traffic o.id) }
      | .error e =>
        if e.code = .transportError ∧ ¬ Link.reachable (o.runs c).2.link then
          { answer := .error e
            fleet := f.dropped o c
            trace := (o.runs c).2.traffic.map (.traffic o.id) ++
              [.traffic o.id .disconnected, .emitted o.removal] }
        else
          { answer := .error e, fleet := f.commanded o c
            trace := (o.runs c).2.traffic.map (.traffic o.id) } := by
  have hreach := ho.reachable_commanded c
  have hfleet : f.absorb o.index (o.device.execute f.links c) = f.commanded o c := rfl
  have hremoval : ((f.commanded o c).remove o.index (o.commanded c)).trace =
      [.traffic o.id .disconnected, .emitted o.removal] := by
    simp only [remove, Device.disconnect, Online.commanded, ho.id, happenings]
    rfl
  rw [dispatch, ho.device]
  simp only [ho.connected, Bool.not_true, Bool.false_eq_true, if_false, hfleet]
  rw [ho.execute c]
  simp only [ho.id, happenings, hreach, hremoval]
  rfl

/-- **A dispatch to a connected device is one of three things**: the command is rejected, or the
device is kept, or it is lost. -/
theorem dispatched_online (ho : f.Holds o) (c : Command) :
    f.Dispatched c o.index (f.dispatch o.index c) := by
  have hran : ({ protocol := o.device.protocol, link := o.link } : Line L).Ran c (o.runs c).1
      (o.runs c).2 := Line.ran_execute _ _ c
  rw [ho.dispatch_eq c]
  generalize hans : (o.runs c).1 = answer at hran
  generalize hline : (o.runs c).2 = line at hran
  cases hran with
  | rejected he =>
    -- the line is as it was, and so are the device and its link
    have hsame : f.commanded o c = f := by
      rw [commanded, ho.execute c, Online.commanded, hline]
      exact absorb_self ho.device ho.link _ _
    simp only [he.code_ne.1, false_and, if_false, hsame, List.map_nil]
    exact .rejected ho he
  | @failed e _ he =>
    subst hline
    by_cases hreach : Link.reachable (o.runs c).2.link = true
    · simp only [hreach, not_true, and_false, if_false]
      refine .kept ho (fun e' h => ?_) fun readings _ h => nomatch h
      cases h
      exact ⟨he, hreach⟩
    · simp only [he, hreach]
      exact .lost ho he (Bool.not_eq_true _ ▸ hreach)
  | done hread =>
    subst hline
    refine .kept ho (fun _ h => nomatch h) fun readings index h => ?_
    cases h
    exact hread index

theorem dispatch_unknown (hi : f.devices.length ≤ i) (c : Command) :
    f.dispatch i c = { answer := .error (.unknownDevice i), fleet := f } := by
  rw [dispatch, List.getElem?_eq_none hi]

theorem dispatch_gone {d : Device} (hd : f.devices[i]? = some d) (hc : d.connected = false)
    (c : Command) : f.dispatch i c = { answer := .error (.noLongerConnected i), fleet := f } := by
  rw [dispatch, hd]
  simp only [hc, Bool.not_false, if_true]

/-- **A dispatch comes to one of five things.** -/
theorem dispatched (hs : f.Sound) (i : Nat) (c : Command) :
    f.Dispatched c i (f.dispatch i c) := by
  cases hd : f.devices[i]? with
  | none =>
    have hi := List.getElem?_eq_none_iff.1 hd
    rw [dispatch_unknown hi]
    exact .unknown hi
  | some d =>
    cases hc : d.connected with
    | false =>
      rw [dispatch_gone hd hc]
      exact .gone hd hc
    | true =>
      obtain ⟨id, hlt, hl⟩ := hs.linked hd hc
      exact dispatched_online (o := ⟨i, d, id, f.links[id]⟩)
        ⟨hd, hc, hl, List.getElem?_eq_getElem hlt⟩ c

/-! ## What is left of the device and of the others -/

/-- Of all devices only the commanded one can change, in what its protocol remembers. -/
theorem Holds.getElem?_commanded (ho : f.Holds o) (c : Command) (j : Nat) :
    (f.commanded o c).devices[j]? =
      if j = o.index then some (o.commanded c) else f.devices[j]? := by
  rw [commanded, getElem?_absorb ho.device, ho.execute c]

/-- What a command leaves of the device if it stays registered. -/
structure Kept (f g : Fleet L) (o : Online L) (c : Command) : Prop where
  device : g.devices[o.index]? = some (o.commanded c)
  leads : ∀ k, g.byKey.get? k = some o.index ↔ f.byKey.get? k = some o.index
  link : g.links[o.id]? = some (o.runs c).2.link

/-- What a command leaves of the device if it is lost: it is disconnected, and no key
leads to it. -/
structure Lost (g : Fleet L) (o : Online L) (c : Command) : Prop where
  device : g.devices[o.index]? = some (o.commanded c).unlinked
  leads : ∀ k, g.byKey.get? k ≠ some o.index
  link : g.links[o.id]? = some (Link.disconnect (o.runs c).2.link)

/-- A device that is kept stays connected, by its link and under its key. -/
theorem Holds.kept (ho : f.Holds o) (c : Command) : f.Kept (f.commanded o c) o c where
  device := by rw [ho.getElem?_commanded, if_pos rfl]
  leads _ := Iff.rfl
  link := by
    obtain ⟨hlt, -⟩ := List.getElem?_eq_some_iff.1 ho.link
    rw [ho.links_commanded, List.getElem?_set_self hlt]

theorem Holds.spares_commanded (ho : f.Holds o) (c : Command) :
    f.Spares (f.commanded o c) o.index o.id where
  devices j hj := by rw [ho.getElem?_commanded, if_neg hj]
  leads _ _ _ := Iff.rfl
  links id hid := by rw [ho.links_commanded, List.getElem?_set_ne (Ne.symm hid)]

theorem Holds.getElem?_dropped (ho : f.Holds o) (c : Command) (j : Nat) :
    (f.dropped o c).devices[j]? =
      if j = o.index then some (o.commanded c).unlinked else f.devices[j]? := by
  rw [dropped, getElem?_remove (ho.kept c).device, ho.getElem?_commanded]
  split <;> rfl

/-- The key of a device that is lost leads nowhere, and all other keys lead where they did. -/
theorem Holds.get?_byKey_dropped (hs : f.Sound) (ho : f.Holds o) (c : Command) (k : String)
    (j : Nat) :
    (f.dropped o c).byKey.get? k = some j ↔ f.byKey.get? k = some j ∧ j ≠ o.index := by
  -- the keys are those of before the command, and the device has the identity that it had
  have hkey : ∀ k, (f.commanded o c).byKey.get? k = some o.index →
      (o.commanded c).identity.key = k := by
    intro k hk
    have hown : o.device.identity.key = k := hs.key_eq ho.device hk
    exact hown
  exact get?_byKey_remove hkey j

theorem Holds.links_dropped (ho : f.Holds o) (c : Command) :
    (f.dropped o c).links =
      (f.links.set o.id (o.runs c).2.link).modify o.id Link.disconnect := by
  have hlink : (o.commanded c).link = some o.id := ho.id
  rw [← ho.links_commanded c]
  exact Device.links_disconnect hlink _

/-- A device that is lost stays in its place, without a link and without a key. -/
theorem Holds.lost (hs : f.Sound) (ho : f.Holds o) (c : Command) :
    (f.dropped o c).Lost o c where
  device := by rw [ho.getElem?_dropped, if_pos rfl]
  leads k hk := ((ho.get?_byKey_dropped hs c k o.index).1 hk).2 rfl
  link := by
    obtain ⟨hlt, -⟩ := List.getElem?_eq_some_iff.1 ho.link
    rw [ho.links_dropped, List.getElem?_modify_eq, List.getElem?_set_self hlt]
    rfl

theorem Holds.spares_dropped (hs : f.Sound) (ho : f.Holds o) (c : Command) :
    f.Spares (f.dropped o c) o.index o.id where
  devices j hj := by rw [ho.getElem?_dropped, if_neg hj]
  leads j hj k := by
    rw [ho.get?_byKey_dropped hs]
    exact and_iff_left hj
  links id hid := by
    rw [ho.links_dropped, List.getElem?_modify_ne _ _ (Ne.symm hid),
      List.getElem?_set_ne (Ne.symm hid)]

/-! ## Which indices a history allocates -/

/-- Some call of a history registers a device under the index. -/
def Allocates (f : Fleet L) (calls : List (Call L)) (i : Nat) : Prop :=
  ∃ before who services link later, calls = before ++ .register who services link :: later ∧
    ((before.foldl after f).register who services link).answer = .created i

theorem allocates_nil : ¬ f.Allocates [] i := by
  rintro ⟨before, who, services, link, later, heq, -⟩
  exact absurd heq.symm (by simp)

/-- An index is allocated by the first call of a history or by one of those that follow. -/
theorem allocates_cons {call : Call L} {calls : List (Call L)} :
    f.Allocates (call :: calls) i ↔
      (∃ who services link, call = .register who services link ∧
        (f.register who services link).answer = .created i) ∨
        (f.after call).Allocates calls i := by
  constructor
  · rintro ⟨before, who, services, link, later, heq, hans⟩
    cases before with
    | nil =>
      cases heq
      exact Or.inl ⟨who, services, link, rfl, hans⟩
    | cons call' before =>
      cases heq
      exact Or.inr ⟨before, who, services, link, later, rfl, hans⟩
  · rintro (⟨who, services, link, rfl, hans⟩ | ⟨before, who, services, link, later, rfl, hans⟩)
    · exact ⟨[], who, services, link, calls, rfl, hans⟩
    · exact ⟨call :: before, who, services, link, later, rfl, hans⟩

omit [Link L] in
theorem length_absorb {α : Type} (f : Fleet L) (i : Nat) (x : Exchange L α) :
    (f.absorb i x).devices.length = f.devices.length := List.length_set ..

/-- An exchange after which the device may be removed. -/
theorem length_remove_absorb {α : Type} (f : Fleet L) (i : Nat) (x : Exchange L α) (d : Device) :
    ((f.absorb i x).remove i d).fleet.devices.length = f.devices.length :=
  List.length_set.trans (length_absorb f i x)

/-- No command registers a device. -/
theorem length_dispatch (f : Fleet L) (i : Nat) (c : Command) :
    (f.dispatch i c).fleet.devices.length = f.devices.length := by
  unfold dispatch
  split
  · rfl
  · split
    · rfl
    · dsimp only
      split
      · exact length_absorb ..
      · split
        · exact length_remove_absorb ..
        · exact length_absorb ..

theorem length_stopOne (f : Fleet L) (r : StopReport) (i : Nat) :
    (f.stopOne r i).fleet.devices.length = f.devices.length := by
  unfold stopOne
  split
  · rfl
  · split
    · rfl
    · dsimp only
      split
      · exact length_absorb ..
      · split
        · exact length_remove_absorb ..
        · exact length_absorb ..

/-- No stop does, however many devices it is for. -/
theorem length_sweep (f : Fleet L) (r : StopReport) (is : List Nat) :
    (f.sweep r is).fleet.devices.length = f.devices.length := by
  induction is generalizing f r with
  | nil => rfl
  | cons j is ih => exact (ih _ _).trans (length_stopOne f r j)

/-- Only a registration adds an index, the next one. -/
theorem lt_length_after {call : Call L} :
    i < (f.after call).devices.length ↔
      (∃ who services link, call = .register who services link ∧
        (f.register who services link).answer = .created i) ∨ i < f.devices.length := by
  have hkeeps (hlen : (f.after call).devices.length = f.devices.length)
      (hno : ∀ who services link, call ≠ .register who services link) :
      i < (f.after call).devices.length ↔
        (∃ who services link, call = .register who services link ∧
          (f.register who services link).answer = .created i) ∨ i < f.devices.length := by
    rw [hlen, or_iff_right]
    rintro ⟨who, services, link, h, -⟩
    exact hno who services link h
  cases call with
  | addLink | disturb => exact hkeeps rfl fun _ _ _ h => by cases h
  | notify who data =>
    exact hkeeps (congrArg (fun g => g.devices.length) (fleet_notify f who data))
      fun _ _ _ h => by cases h
  | dispatch j c => exact hkeeps (length_dispatch f j c) fun _ _ _ h => by cases h
  | stopAll | stopDevices => exact hkeeps (length_sweep f _ _) fun _ _ _ h => by cases h
  | disconnectAll =>
    refine hkeeps ?_ fun _ _ _ h => by cases h
    rw [after, ← length_infos, infos_disconnectAll, List.length_map, length_infos]
  | unregister who =>
    refine hkeeps ?_ fun _ _ _ h => by cases h
    rw [after]
    rcases unregister_cases f who with ⟨hfleet, -⟩ | ⟨j, d, -, -, hfleet, -⟩
    · rw [hfleet]
    · rw [hfleet]
      exact List.length_set
  | register who services link =>
    rw [after]
    rcases register_cases f who services link with
      ⟨hfleet, -, hans⟩ | ⟨p, id, hfree, hfleet, -, hans⟩
    · rw [hfleet, or_iff_right]
      rintro ⟨who', services', link', h, hans'⟩
      cases h
      exact hans i hans'
    · have hlen : (f.register who services link).fleet.devices.length = f.devices.length + 1 := by
        rw [hfleet, fleet_enter hfree]
        exact List.length_append
      rw [hlen, Nat.lt_succ_iff_lt_or_eq, or_comm]
      refine or_congr_left ⟨?_, ?_⟩
      · rintro rfl
        exact ⟨who, services, link, rfl, hans⟩
      · rintro ⟨who', services', link', h, hans'⟩
        cases h
        cases hans.symm.trans hans'
        rfl

/-- **The devices of a fleet have the indices that its history allocates.** -/
theorem lt_length_foldl {calls : List (Call L)} :
    i < (calls.foldl after f).devices.length ↔ f.Allocates calls i ∨ i < f.devices.length := by
  induction calls generalizing f with
  | nil =>
    rw [or_iff_right allocates_nil]
    rfl
  | cons call calls ih =>
    rw [List.foldl_cons, ih, lt_length_after, allocates_cons]
    constructor
    · rintro (h | h | h)
      · exact Or.inl (Or.inr h)
      · exact Or.inl (Or.inl h)
      · exact Or.inr h
    · rintro ((h | h) | h)
      · exact Or.inr (Or.inl h)
      · exact Or.inl h
      · exact Or.inr (Or.inr h)

/-! ## What is told of a dispatch -/

omit [Link L] in
theorem Holds.connected_eq (ho : f.Holds o) : f.connected o.index = true :=
  connected_iff.2 ⟨o.device, ho.device, ho.connected⟩

/-- It fails, and the fault has a code. -/
def FailsWith {α : Type} (out : Outcome L (Except Fault α)) (code : ErrorCode) : Prop :=
  ∃ e, out.answer = .error e ∧ e.code = code

variable {c : Command} {out : Outcome L (Except Fault (List Reading))} {code : ErrorCode}

omit [Link L] in
theorem failsWith_error {α : Type} {out : Outcome L (Except Fault α)} {e : Fault}
    (h : out.answer = .error e) : FailsWith out code ↔ e.code = code := by
  constructor
  · rintro ⟨e', he', hcode⟩
    cases h.symm.trans he'
    exact hcode
  · exact fun hcode => ⟨e, h, hcode⟩

omit [Link L] in
theorem not_failsWith_ok {α : Type} {out : Outcome L (Except Fault α)} {a : α}
    (h : out.answer = .ok a) : ¬ FailsWith out code := by
  rintro ⟨e, he, -⟩
  cases h.symm.trans he

/-- A device that is there fails neither for being unknown nor for being gone. -/
theorem Dispatched.code_ne (h : f.Dispatched c i out) (hc : f.connected i = true) :
    ¬ FailsWith out .unknownDevice ∧ ¬ FailsWith out .deviceNotConnected := by
  cases h with
  | unknown hi => exact absurd (lt_of_connected hc) (Nat.not_lt.2 hi)
  | gone hd hoff =>
    obtain ⟨d', hd', hon⟩ := connected_iff.1 hc
    cases hd.symm.trans hd'
    cases hoff.symm.trans hon
  | rejected ho he =>
    rw [failsWith_error rfl, failsWith_error rfl]
    exact he.code_ne.2
  | @kept o answer ho hfail hread =>
    cases answer with
    | ok readings => exact ⟨not_failsWith_ok rfl, not_failsWith_ok rfl⟩
    | error e =>
      rw [failsWith_error rfl, failsWith_error rfl, (hfail e rfl).1]
      exact ⟨nofun, nofun⟩
  | lost ho he hreach =>
    rw [failsWith_error rfl, failsWith_error rfl, he]
    exact ⟨nofun, nofun⟩

theorem failsWith_unknown_iff (hs : f.Sound) :
    FailsWith (f.dispatch i c) .unknownDevice ↔ ¬ i < f.devices.length := by
  cases hd : f.devices[i]? with
  | none =>
    have hi := List.getElem?_eq_none_iff.1 hd
    rw [dispatch_unknown hi]
    exact iff_of_true ⟨_, rfl, rfl⟩ (Nat.not_lt.2 hi)
  | some d =>
    obtain ⟨hlt, -⟩ := List.getElem?_eq_some_iff.1 hd
    refine iff_of_false ?_ (not_not_intro hlt)
    cases hc : d.connected with
    | false =>
      rw [dispatch_gone hd hc, failsWith_error rfl]
      exact nofun
    | true => exact ((dispatched hs i c).code_ne (connected_iff.2 ⟨d, hd, hc⟩)).1

/-- **A device is told to be gone** exactly if one was registered under the index and is not
connected any more. -/
theorem failsWith_gone_iff (hs : f.Sound) :
    FailsWith (f.dispatch i c) .deviceNotConnected ↔
      i < f.devices.length ∧ f.connected i = false := by
  cases hd : f.devices[i]? with
  | none =>
    have hi := List.getElem?_eq_none_iff.1 hd
    rw [dispatch_unknown hi, failsWith_error rfl]
    exact iff_of_false nofun fun h => Nat.not_lt.2 hi h.1
  | some d =>
    obtain ⟨hlt, -⟩ := List.getElem?_eq_some_iff.1 hd
    have hread : f.connected i = d.connected := by rw [connected, hd, Option.any_some]
    rw [hread]
    cases hc : d.connected with
    | false =>
      rw [dispatch_gone hd hc]
      exact iff_of_true ⟨_, rfl, rfl⟩ ⟨hlt, rfl⟩
    | true =>
      exact iff_of_false ((dispatched hs i c).code_ne (hread.trans hc)).2
        fun h => Bool.false_ne_true h.2.symm

/-- A device that is gone fails every later command. -/
theorem failsWith_gone_later (hlt : i < f.devices.length) (hoff : f.connected i = false)
    (later : List (Call L)) (c : Command) :
    FailsWith ((later.foldl after f).dispatch i c) .deviceNotConnected := by
  have hev := evolves_foldl f later
  obtain ⟨d', hd', -⟩ := hev.becomes (List.getElem?_eq_getElem hlt)
  have hoff' : (later.foldl after f).connected i = false := by
    rw [← Bool.not_eq_true] at hoff ⊢
    exact fun hon => hoff (hev.connected hlt hon)
  rw [connected, hd', Option.any_some] at hoff'
  rw [dispatch_gone hd' hoff']
  exact ⟨_, rfl, rfl⟩

/-- **A command that is rejected changes nothing.** -/
theorem Dispatched.unchanged (h : f.Dispatched c i out) (hfail : FailsWith out code)
    (hcode : code ≠ .transportError) : out.fleet = f ∧ out.trace = [] := by
  cases h with
  | unknown | gone | rejected => exact ⟨rfl, rfl⟩
  | @kept o answer ho hfault hread =>
    obtain ⟨e, he, rfl⟩ := hfail
    exact absurd (hfault e he).1 hcode
  | lost ho he hreach =>
    rw [failsWith_error rfl] at hfail
    exact absurd (hfail.symm.trans he) hcode

/-- **A failure of the link** removes the device exactly if its link is out of reach
after the command, and then with one event. -/
structure Broken (f : Fleet L) (o : Online L) (c : Command)
    (out : Outcome L (Except Fault (List Reading))) : Prop where
  removed_iff : out.fleet.connected o.index = false ↔ Link.reachable (o.runs c).2.link = false
  events : emittedIn out.trace =
    if Link.reachable (o.runs c).2.link then [] else [o.removal]
  trace : out.trace = (o.runs c).2.traffic.map (.traffic o.id) ++
    if Link.reachable (o.runs c).2.link then []
    else [.traffic o.id .disconnected, .emitted o.removal]
  kept : Link.reachable (o.runs c).2.link = true → f.Kept out.fleet o c
  lost : Link.reachable (o.runs c).2.link = false → out.fleet.Lost o c

theorem Kept.connected_eq (ho : f.Holds o) (h : f.Kept g o c) : g.connected o.index = true :=
  connected_iff.2 ⟨_, h.device, ho.connected⟩

theorem Lost.connected_eq (h : g.Lost o c) : g.connected o.index = false := by
  rw [connected, h.device]
  rfl

/-- A failure of the transport concerns a connected device, which is removed if its link does not
reach it any more. -/
theorem Dispatched.broken (hs : f.Sound) (h : f.Dispatched c i out)
    (hfail : FailsWith out .transportError) :
    ∃ o, f.Holds o ∧ o.index = i ∧ f.Broken o c out := by
  cases h with
  | unknown | gone =>
    rw [failsWith_error rfl] at hfail
    cases hfail
  | rejected ho he =>
    rw [failsWith_error rfl] at hfail
    exact absurd hfail he.code_ne.1
  | @kept o answer ho hfault hread =>
    obtain ⟨e, he, -⟩ := hfail
    obtain ⟨-, hreach⟩ := hfault e he
    refine ⟨o, ho, rfl, ?_, ?_, ?_, fun _ => ho.kept c, fun h => ?_⟩
    · rw [(ho.kept c).connected_eq ho, hreach]
    · rw [if_pos hreach, emittedIn_map]
    · rw [if_pos hreach, List.append_nil]
    · cases hreach.symm.trans h
  | @lost o e ho he hreach =>
    refine ⟨o, ho, rfl, ?_, ?_, ?_, fun h => ?_, fun _ => ho.lost hs c⟩
    · rw [(ho.lost hs c).connected_eq, hreach]
    · rw [hreach, emittedIn_append, emittedIn_map]
      rfl
    · rw [hreach]
      rfl
    · cases hreach.symm.trans h

/-- A command that is carried out. -/
structure Accepted (f : Fleet L) (o : Online L) (c : Command)
    (out : Outcome L (Except Fault (List Reading))) : Prop where
  kept : f.Kept out.fleet o c
  events : emittedIn out.trace = []
  trace : out.trace = (o.runs c).2.traffic.map (.traffic o.id)
  /-- Nobody is removed. -/
  connected : ∀ j, out.fleet.connected j = f.connected j

/-- A command that succeeds went to a connected device, and a sensor that is read gives
something. -/
theorem Dispatched.accepted (h : f.Dispatched c i out) {readings : List Reading}
    (hok : out.answer = .ok readings) :
    (∃ o, f.Holds o ∧ o.index = i ∧ f.Accepted o c out) ∧
      ∀ index, c = .readSensor index → readings ≠ [] := by
  cases h with
  | unknown | gone | rejected | lost => cases hok
  | @kept o answer ho hfault hread =>
    refine ⟨⟨o, ho, rfl, ho.kept c, emittedIn_map .., rfl, fun j => ?_⟩,
      fun index hc => hread readings index hok hc⟩
    by_cases hj : j = o.index
    · rw [hj, (ho.kept c).connected_eq ho, ho.connected_eq]
    · rw [connected, (ho.spares_commanded c).devices j hj, connected]

/-- What a dispatch leaves alone, and on which link alone something happens. -/
theorem Dispatched.spares (hs : f.Sound) (h : f.Dispatched c i out) :
    (out.fleet = f ∧ out.trace = []) ∨ ∃ o, f.Holds o ∧ o.index = i ∧
      f.Spares out.fleet i o.id ∧ ∀ id, id ≠ o.id → trafficOn id out.trace = [] := by
  cases h with
  | unknown | gone | rejected => exact Or.inl ⟨rfl, rfl⟩
  | @kept o answer ho hfault hread =>
    exact Or.inr ⟨o, ho, rfl, ho.spares_commanded c, fun id hid => trafficOn_map_ne hid.symm _⟩
  | @lost o e ho he hreach =>
    refine Or.inr ⟨o, ho, rfl, ho.spares_dropped hs c, fun id hid => ?_⟩
    rw [trafficOn_append, trafficOn_map_ne hid.symm]
    simp [trafficOn, hid.symm]

/-! ## Histories -/

/-- Every call of a history is legal when it is made. -/
def LegalAll (f : Fleet L) : List (Call L) → Prop
  | [] => True
  | call :: calls => call.Legal f ∧ (f.after call).LegalAll calls

/-- What is reached by more calls is reached. -/
theorem Reached.foldl {b : Rulebook} {calls : List (Call L)} (hf : Reached b f)
    (hcalls : f.LegalAll calls) : Reached b (calls.foldl after f) := by
  induction calls generalizing f with
  | nil => exact hf
  | cons call calls ih => exact ih (hf.call hcalls.1) hcalls.2

/-- **What a command to an index comes to**, in a fleet `f` that some calls have led
to: `out` is its outcome. -/
structure Dispatches (calls : List (Call L)) (start f : Fleet L) (i : Nat) (c : Command)
    (out : Outcome L (Except Fault (List Reading))) : Prop where
  /-- No call has registered a device under the index. -/
  unknown_iff : FailsWith out .unknownDevice ↔ ¬ start.Allocates calls i
  /-- One has, and the device is gone. -/
  gone_iff : FailsWith out .deviceNotConnected ↔
    start.Allocates calls i ∧ f.connected i = false
  /-- It is gone for good. -/
  gone_later : FailsWith out .deviceNotConnected → ∀ (later : List (Call L)) (c' : Command),
    FailsWith ((later.foldl after f).dispatch i c') .deviceNotConnected
  /-- If anything but a link fails, nothing has happened. -/
  unchanged : ∀ code, FailsWith out code → code ≠ .transportError →
    out.fleet = f ∧ out.trace = []
  broken : FailsWith out .transportError → ∃ o, f.Holds o ∧ o.index = i ∧ f.Broken o c out
  accepted : ∀ readings, out.answer = .ok readings →
    ∃ o, f.Holds o ∧ o.index = i ∧ f.Accepted o c out
  /-- A sensor read gives a reading. -/
  reads : ∀ index readings, c = .readSensor index → out.answer = .ok readings → readings ≠ []
  /-- The other devices are as they were, and so are the keys that lead to them. -/
  others : ∀ j, j ≠ i → out.fleet.devices[j]? = f.devices[j]? ∧
    ∀ k, out.fleet.byKey.get? k = some j ↔ f.byKey.get? k = some j
  /-- Nothing happens on their links. -/
  links : ∀ (j : Nat) (d : Device) (id : LinkId), j ≠ i → f.devices[j]? = some d →
    d.link = some id → out.fleet.links[id]? = f.links[id]? ∧ trafficOn id out.trace = []

/-- **Dispatches are atomic, and their outcomes are exact**, after any calls that leave
the links apart, whatever the links make of a command. -/
theorem dispatches_of_calls {calls : List (Call L)} {b : Rulebook}
    (hcalls : ({ rulebook := b } : Fleet L).LegalAll calls)
    (ha : (calls.foldl after ({ rulebook := b } : Fleet L)).LinksApart) (i : Nat) (c : Command) :
    Dispatches calls { rulebook := b } (calls.foldl after { rulebook := b }) i c
      ((calls.foldl after { rulebook := b }).dispatch i c) := by
  have hs : (calls.foldl after ({ rulebook := b } : Fleet L)).Sound :=
    (Reached.start.foldl hcalls).sound
  have halloc : i < (calls.foldl after ({ rulebook := b } : Fleet L)).devices.length ↔
      ({ rulebook := b } : Fleet L).Allocates calls i := by
    rw [lt_length_foldl]
    exact or_iff_left (Nat.not_lt_zero i)
  generalize calls.foldl after ({ rulebook := b } : Fleet L) = f at hs ha halloc ⊢
  have h := dispatched hs i c
  refine ⟨?_, ?_, fun hgone => ?_, fun code => h.unchanged, h.broken hs,
    fun readings hok => (h.accepted hok).1,
    fun index readings hc hok => (h.accepted hok).2 index hc, fun j hj => ?_,
    fun j d id hj hd hl => ?_⟩
  · rw [← halloc, failsWith_unknown_iff hs]
  · rw [← halloc, failsWith_gone_iff hs]
  · obtain ⟨hlt, hoff⟩ := (failsWith_gone_iff hs).1 hgone
    exact failsWith_gone_later hlt hoff
  · rcases h.spares hs with ⟨hfleet, -⟩ | ⟨o, -, -, hspares, -⟩
    · rw [hfleet]
      exact ⟨rfl, fun _ => Iff.rfl⟩
    · exact ⟨hspares.devices j hj, hspares.leads j hj⟩
  · rcases h.spares hs with ⟨hfleet, htrace⟩ | ⟨o, ho, hoi, hspares, hquiet⟩
    · rw [hfleet, htrace]
      exact ⟨rfl, rfl⟩
    · have hid : id ≠ o.id := by
        rintro rfl
        exact hj ((ha.index_eq hd ho.device hl ho.id).trans hoi)
      exact ⟨hspares.links id hid, hquiet id hid⟩

/-- Two devices are registered, of which the second is out of reach. -/
def meeting : List (Call SimulatedLink) :=
  [.addLink { device := {} }, .register ⟨"sim", "A", "LVS-Nora"⟩ [] (some 0),
    .addLink { device := {}, inReach := false }, .register ⟨"sim", "B", "CycSA"⟩ [] (some 1)]

theorem legalAll_meeting : ({ rulebook := .builtin } : Fleet SimulatedLink).LegalAll meeting :=
  ⟨trivial, Nat.zero_lt_one, trivial, Nat.one_lt_two, trivial⟩

/-- A stop of the second fails on its link and removes it. -/
theorem dispatches_of_calls_meeting :
    Dispatches meeting { rulebook := .builtin } (meeting.foldl after { rulebook := .builtin }) 1
        .stop ((meeting.foldl after { rulebook := .builtin }).dispatch 1 .stop) ∧
      emittedIn ((meeting.foldl after { rulebook := .builtin }).dispatch 1 .stop).trace =
        [.removed 1 "CycSA"] :=
  ⟨dispatches_of_calls legalAll_meeting (by decide) 1 .stop, by decide⟩

end Fleet

end Haptics
