import Haptics.Proofs.Protocol.Hardware
/-!
# What a protocol remembers

A protocol spares a write if it remembers having sent the same before, so what
it remembers must be what the device does. `Remembers` says so of everything it
remembers, `Tracks` of the direction it keeps for the vendor whose frames depend
on one, and `Agrees` of both.

A translation changes the memory before anything is written. What it promises is
therefore about later: once the writes it gives have reached the device, the
device does what is remembered (`remembers_translate`, `remembers_stop`).
-/

namespace Haptics

/-! ## Targets -/

/-- The actuator of a target is the one that its index names, and is of the
command's kind. -/
structure Target.Located (c : Capabilities) (kind : ActuatorKind) (t : Target) : Prop where
  found : c.findActuator? t.index = some t.actuator
  kind_eq : t.actuator.kind = kind

namespace Capabilities

variable {c : Capabilities} {vendor : Vendor} {kind : ActuatorKind}

theorem located_of_locateOne {seen : List UInt32} {s : Setting} {t : Target}
    (h : c.locateOne vendor kind seen s = .ok t) :
    t.Located c kind ∧ t.index = s.index ∧ t.index ∉ seen := by
  unfold locateOne at h
  split at h
  · cases h
  · rename_i a ha
    split at h
    · cases h
    · rename_i hk
      split at h
      · cases h
      · rename_i hseen
        split at h
        · cases h
          exact ⟨⟨ha, Decidable.not_not.1 hk⟩, rfl, hseen⟩
        · cases h

theorem located_of_locate {seen : List UInt32} {ss : List Setting} {ts : List Target}
    (h : c.locate vendor kind seen ss = .ok ts) :
    (∀ t ∈ ts, t.Located c kind ∧ t.index ∉ seen) ∧ (ts.map Target.index).Nodup := by
  induction ss generalizing seen ts with
  | nil =>
    cases h
    exact ⟨fun t ht => absurd ht List.not_mem_nil, List.nodup_nil⟩
  | cons s ss ih =>
    -- the targets that follow were located with this one among those already seen
    rw [locate] at h
    split at h
    · cases h
    · rename_i t ht
      split at h
      · cases h
      · rename_i later hlater
        cases h
        obtain ⟨hloc, hi, hseen⟩ := located_of_locateOne ht
        obtain ⟨hall, hnodup⟩ := ih hlater
        refine ⟨fun u hu => ?_, ?_⟩
        · rcases List.mem_cons.1 hu with rfl | hu
          · exact ⟨hloc, hseen⟩
          · exact ⟨(hall u hu).1, fun hmem => (hall u hu).2 (List.mem_cons_of_mem _ hmem)⟩
        · rw [List.map_cons, List.nodup_cons]
          refine ⟨fun hmem => ?_, hnodup⟩
          obtain ⟨u, hu, hut⟩ := List.mem_map.1 hmem
          exact (hall u hu).2 (by rw [hut, hi]; exact List.mem_cons_self)

/-- **The targets of a command** are located, and no two are the same actuator. -/
theorem located_of_targets {ss : List Setting} {ts : List Target}
    (h : c.targets vendor kind ss = .ok ts) :
    kind ≠ .rawWrite ∧ (∀ t ∈ ts, t.Located c kind) ∧ (ts.map Target.index).Nodup := by
  unfold targets at h
  split at h
  · cases h
  · rename_i hk
    split at h
    · cases h
    · obtain ⟨hall, hnodup⟩ := located_of_locate h
      exact ⟨hk, fun t ht => (hall t ht).1, hnodup⟩

end Capabilities

namespace Target.Located

variable {c : Capabilities} {v : Vendor} {kind : ActuatorKind} {t : Target}

theorem mem (h : t.Located c kind) (hc : c.Suits v) : t.actuator ∈ c.actuators :=
  (hc.findActuator?_eq_some_iff.1 h.found).1

theorem index_eq (h : t.Located c kind) (hc : c.Suits v) : t.actuator.index = t.index :=
  (hc.findActuator?_eq_some_iff.1 h.found).2

theorem mem_motors (h : t.Located c .vibrate) (hc : c.Suits v) :
    t.actuator ∈ Lovense.motors c :=
  Capabilities.Suits.mem_motors (h.mem hc) h.kind_eq

end Target.Located

/-! ## Agreement -/

/-- The device does with an actuator what is remembered of it. The direction of
a rotator that does not turn is of no account. -/
def Hardware.Shows (v : Vendor) (h : Hardware) (a : Actuator) (s : Sent) : Prop :=
  (a.kind = .vibrate ∧ h.motor a.index.toNat = v.level s.step) ∨
    (a.kind = .rotate ∧ h.rotor = v.level s.step ∧ (h.rotor ≠ 0 → h.clockwise = s.clockwise))

namespace Protocol

/-- **Everything remembered as sent is what the device does.** -/
def Remembers (p : Protocol) (h : Hardware) : Prop :=
  ∀ i s, p.sent.get? i = some s →
    ∃ a, p.capabilities.findActuator? i = some a ∧ h.Shows p.vendor a s

/-- The direction kept for a rotator is the one it turns in. -/
def Tracks (p : Protocol) (h : Hardware) : Prop :=
  ∀ clockwise, p.dialect = .lovense clockwise → h.clockwise = clockwise

/-- What a protocol keeps agrees with the device. -/
structure Agrees (p : Protocol) (h : Hardware) : Prop where
  remembers : p.Remembers h
  tracks : p.Tracks h

/-- Two protocols of one device. -/
structure Alike (p q : Protocol) : Prop where
  capabilities : q.capabilities = p.capabilities
  vendor : q.vendor = p.vendor

variable {p q r : Protocol} {h : Hardware}

theorem Alike.refl (p : Protocol) : p.Alike p := ⟨rfl, rfl⟩

theorem Alike.trans (hpq : p.Alike q) (hqr : q.Alike r) : p.Alike r :=
  ⟨hqr.capabilities.trans hpq.capabilities, hqr.vendor.trans hpq.vendor⟩

/-- The stop frames depend on nothing that a protocol remembers. -/
theorem Alike.stopFrames (hpq : p.Alike q) : q.stopFrames = p.stopFrames := by
  have hvendor := hpq.vendor
  rw [Protocol.stopFrames, Protocol.stopFrames, hpq.capabilities]
  rw [Protocol.vendor, Protocol.vendor] at hvendor
  cases hp : p.dialect <;> cases hq : q.dialect <;> rw [hp, hq] at hvendor <;>
    first | rfl | cases hvendor

theorem Alike.sound (hpq : p.Alike q) (hp : p.Sound) : q.Sound := by
  rw [Sound, hpq.capabilities, hpq.vendor]
  exact hp

/-- What remembers nothing remembers nothing wrong. -/
theorem remembers_of_sent_empty (hs : p.sent = {}) : p.Remembers h := by
  intro i s hi
  rw [hs, Table.get?_empty] at hi
  cases hi

theorem agrees_fresh (v : Vendor) (c : Capabilities) (hcw : h.clockwise = true) :
    (fresh v c).Agrees h where
  remembers := remembers_of_sent_empty rfl
  tracks := by
    intro clockwise hd
    cases v <;> cases hd
    exact hcw

/-- **The direction is kept with every write that arrives.** -/
theorem Tracks.completed (ht : p.Tracks h) (w : Write) :
    (p.completed w).Tracks (h.hear p.vendor w.data) := by
  intro clockwise hd
  unfold Protocol.completed at hd
  split at hd
  · rename_i before hp
    have hv : p.vendor = .lovense := by rw [Protocol.vendor, hp]; rfl
    simp only [Dialect.lovense.injEq] at hd
    rw [hv, Hardware.clockwise_hear_lovense, ht before hp, ← hd, Lovense.directionAfter]
  · rename_i hne
    exact absurd hd (hne clockwise)

theorem alike_completed (p : Protocol) (w : Write) : p.Alike (p.completed w) := by
  unfold Protocol.completed
  split
  · rename_i before hp
    exact ⟨rfl, by simp only [Protocol.vendor, hp]; rfl⟩
  · exact Alike.refl p

@[simp] theorem sent_completed (p : Protocol) (w : Write) : (p.completed w).sent = p.sent := by
  unfold Protocol.completed
  split <;> rfl

/-! ## Frames and what they show -/

end Protocol

/-- The device took over some targets: they show what is sent for them, and the
other actuators show what they did. -/
structure Hardware.Took (v : Vendor) (c : Capabilities) (kind : ActuatorKind) (ts : List Target)
    (h h' : Hardware) : Prop where
  hit : ∀ t ∈ ts, h'.Shows v t.actuator (Protocol.sentBy kind t)
  miss : ∀ a ∈ c.actuators, ∀ s, (∀ t ∈ ts, t.index ≠ a.index) → h.Shows v a s → h'.Shows v a s

namespace Hardware

variable {v : Vendor} {c : Capabilities} {ts : List Target} {h h' : Hardware}

/-- Motors take over their targets one by one. -/
theorem took_motors (hc : c.Suits v) (hloc : ∀ t ∈ ts, t.Located c .vibrate)
    (hnodup : (ts.map Target.index).Nodup) {w : Target → Write}
    (hset : ∀ h : Hardware, ∀ t ∈ ts, MotorSet c h (h.hear v (w t).data) t.index (v.level t.step)) :
    Took v c .vibrate ts h (h.hearAll v (ts.map w)) := by
  have hmotor : ∀ t ∈ ts, ∃ a ∈ Lovense.motors c, a.index = t.index := fun t ht =>
    ⟨t.actuator, (hloc t ht).mem_motors hc, (hloc t ht).index_eq hc⟩
  obtain ⟨hhit, hmiss, hrotor, hclock⟩ := hearAll_motors ts h hset hmotor hnodup
  refine ⟨fun t ht => Or.inl ⟨(hloc t ht).kind_eq, ?_⟩, fun a ha s hne hs => ?_⟩
  · rw [(hloc t ht).index_eq hc]
    exact hhit t ht
  · rcases hs with ⟨hk, hs⟩ | ⟨hk, hs, hcw⟩
    · refine Or.inl ⟨hk, ?_⟩
      rw [hmiss a (Capabilities.Suits.mem_motors ha hk) ?_, hs]
      intro hmem
      obtain ⟨t, ht, hta⟩ := List.mem_map.1 hmem
      exact hne t ht hta
    · exact Or.inr ⟨hk, hrotor.trans hs, fun hz => hclock.trans (hcw (hrotor ▸ hz))⟩

/-- The rotator takes over its target: there is no other rotator. -/
theorem took_rotor (hc : c.Suits v) {t : Target} (ht : t.Located c .rotate)
    (hmotor : h'.motor = h.motor) (hrotor : h'.rotor = v.level t.step)
    (hclock : h'.clockwise = t.setting.clockwise) : Took v c .rotate [t] h h' := by
  refine ⟨fun u hu => ?_, fun a ha s hne hs => ?_⟩
  · rw [List.mem_singleton.1 hu]
    exact Or.inr ⟨ht.kind_eq, hrotor, fun _ => hclock⟩
  · rcases hs with ⟨hk, hs⟩ | ⟨hk, -⟩
    · exact Or.inl ⟨hk, hmotor ▸ hs⟩
    · have heq := hc.rotor_unique ha (ht.mem hc) hk ht.kind_eq
      refine absurd ?_ (hne t (List.mem_singleton.2 rfl))
      rw [heq, ht.index_eq hc]

/-- The targets of a command for the rotator are one at most. -/
theorem targets_rotor (hc : c.Suits v) (hloc : ∀ t ∈ ts, t.Located c .rotate)
    (hnodup : (ts.map Target.index).Nodup) : ts = [] ∨ ∃ t, ts = [t] := by
  match ts with
  | [] => exact Or.inl rfl
  | [t] => exact Or.inr ⟨t, rfl⟩
  | t :: u :: rest =>
    have ht := hloc t List.mem_cons_self
    have hu := hloc u (List.mem_cons_of_mem t List.mem_cons_self)
    have heq := hc.rotor_unique (ht.mem hc) (hu.mem hc) ht.kind_eq hu.kind_eq
    rw [List.map_cons, List.map_cons, List.nodup_cons] at hnodup
    refine absurd ?_ hnodup.1
    rw [← ht.index_eq hc, ← hu.index_eq hc, heq]
    exact List.mem_cons_self

end Hardware

namespace Protocol

variable {p : Protocol} {h : Hardware}

theorem encode_lovense_motors (c : Capabilities) (clockwise : Bool) (ts : List Target) :
    Lovense.encode c clockwise .vibrate ts =
      .ok (ts.map fun t => Hardware.motorFrame c t.index t.step.toNat) := by
  induction ts with
  | nil => rfl
  | cons t ts ih =>
    simp only [Lovense.encode, Lovense.framesFor, ih, List.map_cons, Hardware.motorFrame]
    by_cases hone : 1 < (Lovense.motors c).length
    · simp only [if_pos hone, List.singleton_append]
    · simp only [if_neg hone, List.singleton_append]

/-- Located targets are of a kind that the vendor's devices have. -/
theorem kind_mem (hp : p.Sound) {kind : ActuatorKind} {t : Target}
    (ht : t.Located p.capabilities kind) (hraw : kind ≠ .rawWrite) : kind ∈ p.vendor.kinds := by
  rcases hp.kinds _ (ht.mem hp) with hk | hk
  · exact absurd (ht.kind_eq.symm.trans hk) hraw
  · exact ht.kind_eq ▸ hk

theorem took_lovense_motors {c : Capabilities} (hc : c.Suits .lovense) {ts : List Target}
    (hloc : ∀ t ∈ ts, t.Located c .vibrate) (hnodup : (ts.map Target.index).Nodup) :
    Hardware.Took .lovense c .vibrate ts h (h.hearAll .lovense
      ((ts.map fun t => Hardware.motorFrame c t.index t.step.toNat).map
        Lovense.Frame.toWrite)) := by
  rw [List.map_map]
  refine Hardware.took_motors hc hloc hnodup fun h t ht => ?_
  have hset := Hardware.motorSet_lovense (h := h) hc ((hloc t ht).mem_motors hc) t.step.toNat
  rw [(hloc t ht).index_eq hc] at hset
  simp only [Function.comp_apply, Hardware.hear_lovense]
  exact hset

/-- The order to turn round comes first, if the rotator turns the other way. -/
theorem took_lovense_rotor {c : Capabilities} (hc : c.Suits .lovense) {t : Target}
    (ht : t.Located c .rotate) {frames : List Lovense.Frame}
    (he : Lovense.encode c h.clockwise .rotate [t] = .ok frames) :
    Hardware.Took .lovense c .rotate [t] h
      (h.hearAll .lovense (frames.map Lovense.Frame.toWrite)) := by
  simp only [Lovense.encode, Lovense.framesFor] at he
  by_cases hturn : t.setting.clockwise ≠ h.clockwise
  · simp only [if_pos hturn] at he
    cases he
    have hnot : (!h.clockwise) = t.setting.clockwise := Bool.not_eq.2 hturn.symm
    simp only [List.append_nil, List.map_cons, List.map_nil, Hardware.hearAll_cons,
      Hardware.hearAll_nil, Hardware.hear_lovense]
    exact Hardware.took_rotor hc ht rfl rfl hnot
  · simp only [if_neg hturn] at he
    cases he
    simp only [List.append_nil, List.map_cons, List.map_nil, Hardware.hearAll_cons,
      Hardware.hearAll_nil, Hardware.hear_lovense]
    exact Hardware.took_rotor hc ht rfl rfl (Decidable.not_not.1 hturn).symm

theorem took_vorze {c : Capabilities} (hc : c.Suits .vorze) {ts : List Target}
    (hloc : ∀ t ∈ ts, t.Located c .rotate) (hnodup : (ts.map Target.index).Nodup) (hne : ts ≠ []) :
    Hardware.Took .vorze c .rotate ts h (h.hearAll .vorze
      ((ts.map fun t => Vorze.frame t.setting.clockwise t.step).map Vorze.toWrite)) := by
  obtain rfl | ⟨u, rfl⟩ := Hardware.targets_rotor hc hloc hnodup
  · exact absurd rfl hne
  · simp only [List.map_cons, List.map_nil, Hardware.hearAll_cons, Hardware.hearAll_nil,
      Hardware.hear_vorze]
    exact Hardware.took_rotor hc (hloc u List.mem_cons_self) rfl rfl rfl

theorem took_genericVibrator {c : Capabilities} (hc : c.Suits .genericVibrator)
    {ts : List Target} (hloc : ∀ t ∈ ts, t.Located c .vibrate)
    (hnodup : (ts.map Target.index).Nodup) :
    Hardware.Took .genericVibrator c .vibrate ts h (h.hearAll .genericVibrator
      ((ts.map fun t => GenericVibrator.frame t.index t.step).map GenericVibrator.toWrite)) := by
  rw [List.map_map]
  refine Hardware.took_motors hc hloc hnodup fun h t ht => ?_
  have hlt := hc.motor_index_lt ((hloc t ht).mem_motors hc)
  rw [(hloc t ht).index_eq hc] at hlt
  rw [Function.comp_apply, Hardware.hear_genericVibrator hlt]
  exact Hardware.motorSet_setMotor t.index _

/-- **The frames of a command put its targets where the command wants them.** -/
theorem took_encode (hp : p.Sound) (ht : p.Tracks h) {kind : ActuatorKind} {ts : List Target}
    (hlin : kind ≠ .linear) (hraw : kind ≠ .rawWrite)
    (hloc : ∀ t ∈ ts, t.Located p.capabilities kind) (hnodup : (ts.map Target.index).Nodup)
    (hne : ts ≠ []) {ws : List Write} {d : Dialect} (he : p.encode kind ts = .ok (ws, d)) :
    Hardware.Took p.vendor p.capabilities kind ts h (h.hearAll p.vendor ws) := by
  obtain ⟨t, hmem⟩ := List.exists_mem_of_ne_nil ts hne
  have hkind := kind_mem hp (hloc t hmem) hraw
  have hc : p.capabilities.Suits p.vendor := hp
  unfold Protocol.encode at he
  match hd : p.dialect with
  | .lovense clockwise =>
    have hv : p.vendor = .lovense := vendor_eq hd
    rw [hv] at hkind hc ⊢
    simp only [hd] at he
    rcases List.mem_cons.1 hkind with rfl | hkind
    · rw [encode_lovense_motors] at he
      cases he
      exact took_lovense_motors hc hloc hnodup
    · rw [List.mem_singleton.1 hkind] at he hloc ⊢
      obtain rfl | ⟨u, rfl⟩ := Hardware.targets_rotor hc hloc hnodup
      · exact absurd rfl hne
      · -- the protocol remembers how the rotator turns
        rw [← ht clockwise hd] at he
        cases hf : Lovense.encode p.capabilities h.clockwise .rotate [u] with
        | error e => rw [hf] at he; cases he
        | ok frames =>
          rw [hf] at he
          cases he
          exact took_lovense_rotor hc (hloc u List.mem_cons_self) hf
  | .vorze =>
    have hv : p.vendor = .vorze := vendor_eq hd
    rw [hv] at hkind hc ⊢
    simp only [hd] at he
    rw [List.mem_singleton.1 hkind] at he hloc ⊢
    cases he
    exact took_vorze hc hloc hnodup hne
  | .launch position =>
    -- such a device has nothing but linear actuators
    rw [vendor_eq hd] at hkind
    exact absurd (List.mem_singleton.1 hkind) hlin
  | .genericVibrator =>
    have hv : p.vendor = .genericVibrator := vendor_eq hd
    rw [hv] at hkind hc ⊢
    simp only [hd] at he
    rw [List.mem_singleton.1 hkind] at he hloc ⊢
    cases he
    exact took_genericVibrator hc hloc hnodup

/-! ## Translations -/

/-- What a translation of `p` into `q` and some writes promises: nothing is
written yet, so the direction stands, and once everything is written the device
does what `q` remembers. -/
structure Promises (p q : Protocol) (ws : List Write) (h : Hardware) : Prop where
  alike : p.Alike q
  tracks : q.Tracks h
  remembers : q.Remembers (h.hearAll p.vendor ws)

variable {q : Protocol} {ws : List Write}

theorem Remembers.of_alike (hr : p.Remembers h) (hpq : p.Alike q) (hs : q.sent = p.sent) :
    q.Remembers h := by
  intro i s hi
  rw [hs] at hi
  rw [hpq.capabilities, hpq.vendor]
  exact hr i s hi

/-- Encoding moves the position of a stroker at most: the vendor stays, and so
does the direction. -/
theorem vendor_of_encode {kind : ActuatorKind} {ts : List Target} {d : Dialect}
    (he : p.encode kind ts = .ok (ws, d)) :
    d.vendor = p.vendor ∧ ∀ clockwise, d = .lovense clockwise → p.dialect = .lovense clockwise := by
  unfold Protocol.encode at he
  split at he
  · cases hf : Lovense.encode p.capabilities _ kind ts with
    | error e => rw [hf] at he; cases he
    | ok frames => rw [hf] at he; cases he; exact ⟨rfl, fun _ hd => hd⟩
  · cases hf : Vorze.encode kind ts with
    | error e => rw [hf] at he; cases he
    | ok frames => rw [hf] at he; cases he; exact ⟨rfl, fun _ hd => hd⟩
  · rename_i position hp
    cases hf : Launch.encode position kind ts with
    | error e => rw [hf] at he; cases he
    | ok frames => rw [hf] at he; cases he; exact ⟨(vendor_eq hp).symm, fun _ hd => nomatch hd⟩
  · cases hf : GenericVibrator.encode kind ts with
    | error e => rw [hf] at he; cases he
    | ok frames => rw [hf] at he; cases he; exact ⟨rfl, fun _ hd => hd⟩

theorem hearAll_launch (ws : List Write) : h.hearAll .launch ws = h := by
  induction ws with
  | nil => rfl
  | cons w ws ih => exact ih

/-- Only strokers take linear moves, and nothing is remembered of those. -/
theorem remembers_linear (hp : p.Sound) (hr : p.Remembers h) {t : Target}
    (ht : t.Located p.capabilities .linear) (ws : List Write) :
    p.Remembers (h.hearAll p.vendor ws) := by
  have hkind := kind_mem hp ht (by decide)
  have hv : p.vendor = .launch := by
    cases hv : p.vendor <;> rw [hv] at hkind <;> simp [Vendor.kinds] at hkind ⊢
  rw [hv, hearAll_launch]
  exact hr

/-- What is remembered after some targets: they themselves, and of the other
actuators what was. -/
theorem remembers_of_took (hp : p.Sound) (hr : p.Remembers h) {kind : ActuatorKind}
    {ts : List Target} (hlin : kind ≠ .linear) (hloc : ∀ t ∈ ts, t.Located p.capabilities kind)
    {h' : Hardware} (htook : Hardware.Took p.vendor p.capabilities kind ts h h') :
    ∀ i s, (p.remember kind ts).get? i = some s →
      ∃ a, p.capabilities.findActuator? i = some a ∧ h'.Shows p.vendor a s := by
  intro i s hi
  rw [remember, if_neg hlin] at hi
  rcases Table.get?_foldl_insert ts p.sent hi with ⟨t, ht, rfl, rfl⟩ | ⟨hother, hi⟩
  · exact ⟨t.actuator, (hloc t ht).found, htook.hit t ht⟩
  · obtain ⟨a, ha, hs⟩ := hr i s hi
    obtain ⟨hmem, rfl⟩ := Capabilities.Suits.findActuator?_eq_some_iff hp |>.1 ha
    exact ⟨a, ha, htook.miss a hmem s hother hs⟩

/-- **The promise of an actuator command.** -/
theorem promises_settings (hp : p.Sound) (ha : p.Agrees h) {kind : ActuatorKind}
    {ss : List Setting} (ht : p.translateSettings kind ss = .ok (ws, q)) :
    p.Promises q ws h := by
  unfold Protocol.translateSettings at ht
  split at ht
  · cases ht
  · rename_i ts hts
    obtain ⟨hraw, hall, hnodup⟩ := Capabilities.located_of_targets hts
    split at ht
    · cases ht
      exact ⟨Alike.refl p, ha.tracks, ha.remembers⟩
    · rename_i hne
      split at ht
      · cases ht
      · rename_i ws' d he
        cases ht
        obtain ⟨hvendor, hdialect⟩ := vendor_of_encode he
        have hloc : ∀ t ∈ ts.filter (p.changes kind), t.Located p.capabilities kind :=
          fun t ht => hall t (List.mem_filter.1 ht).1
        have hdup : ((ts.filter (p.changes kind)).map Target.index).Nodup :=
          hnodup.sublist (List.filter_sublist.map Target.index)
        refine ⟨⟨rfl, hvendor⟩, fun cw hd => ha.tracks cw (hdialect cw hd), ?_⟩
        by_cases hlin : kind = .linear
        · -- positions are not remembered, and every such command is written
          subst hlin
          obtain ⟨t, hmem⟩ := List.exists_mem_of_ne_nil _ hne
          have hsent : p.remember .linear (ts.filter (p.changes .linear)) = p.sent := if_pos rfl
          exact (remembers_linear hp ha.remembers (hloc t hmem) ws).of_alike ⟨rfl, hvendor⟩ hsent
        · have htook := took_encode hp ha.tracks hlin hraw hloc hdup hne he
          intro i s hi
          rw [Protocol.vendor, hvendor]
          exact remembers_of_took hp ha.remembers hlin hloc htook i s hi

/-- **The promise of a raw write**: nothing is remembered. -/
theorem promises_raw (ha : p.Agrees h) {index : UInt32} {data : Bytes} {withResponse : Bool}
    (ht : p.translateRaw index data withResponse = .ok (ws, q)) : p.Promises q ws h := by
  unfold Protocol.translateRaw at ht
  split at ht
  · cases ht
  · split at ht
    · cases ht
    · split at ht
      · cases ht
      · cases ht
        exact ⟨⟨rfl, rfl⟩, ha.tracks, remembers_of_sent_empty rfl⟩

/-- **The promise of a stop**: every motor and every rotator is at step 0. -/
theorem promises_stop (hp : p.Sound) (ha : p.Agrees h) :
    p.Promises p.stop.2 p.stop.1 h := by
  have hsilent := silent_stopFrames hp h
  have hlevel : p.vendor.level 0 = 0 := by cases p.vendor <;> rfl
  refine ⟨⟨rfl, rfl⟩, ha.tracks, fun i s hi => ?_⟩
  rcases Table.get?_foldl_insert _ p.sent hi with ⟨a, hmem, rfl, rfl⟩ | ⟨hother, hi⟩
  · obtain ⟨hmem, hk⟩ := List.mem_filter.1 hmem
    refine ⟨a, (Capabilities.Suits.findActuator?_eq_some_iff hp).2 ⟨hmem, rfl⟩, ?_⟩
    obtain ⟨hmotor, hrotor⟩ := hsilent a hmem
    rcases of_decide_eq_true hk with hk | hk
    · exact Or.inl ⟨hk, (hmotor hk).trans hlevel.symm⟩
    · exact Or.inr ⟨hk, (hrotor hk).trans hlevel.symm, fun hne => absurd (hrotor hk) hne⟩
  · -- whatever was remembered is of an actuator that the stop sets
    obtain ⟨a, ha, hs⟩ := ha.remembers i s hi
    obtain ⟨hmem, rfl⟩ := (Capabilities.Suits.findActuator?_eq_some_iff hp).1 ha
    have hk : a.kind = .vibrate ∨ a.kind = .rotate := hs.imp And.left And.left
    exact absurd rfl (hother a (List.mem_filter.2 ⟨hmem, decide_eq_true hk⟩))

/-- **No translation changes what a device is**, in whatever state the protocol
is. -/
theorem alike_translate {c : Command} (ht : p.translate c = .ok (ws, q)) : p.Alike q := by
  cases c with
  | actuate kind ss =>
    change p.translateSettings kind ss = _ at ht
    unfold Protocol.translateSettings at ht
    split at ht
    · cases ht
    · split at ht
      · cases ht
        exact Alike.refl p
      · split at ht
        · cases ht
        · rename_i he
          cases ht
          exact ⟨rfl, (vendor_of_encode he).1⟩
  | rawWrite index data withResponse =>
    change p.translateRaw index data withResponse = _ at ht
    unfold Protocol.translateRaw at ht
    repeat' split at ht
    all_goals cases ht
    exact ⟨rfl, rfl⟩
  | readSensor index => cases ht
  | stop =>
    cases ht
    exact ⟨rfl, rfl⟩

/-- **The promise of a command**, whichever it is. -/
theorem promises_translate (hp : p.Sound) (ha : p.Agrees h) {c : Command}
    (ht : p.translate c = .ok (ws, q)) : p.Promises q ws h := by
  cases c with
  | actuate kind ss => exact promises_settings hp ha ht
  | rawWrite index data withResponse => exact promises_raw ha ht
  | readSensor index => cases ht
  | stop =>
    cases ht
    exact promises_stop hp ha

end Protocol

end Haptics
