import Haptics.Device.Line
import Haptics.Proofs.Protocol.Memory
import Haptics.Proofs.Rule.Layout
import Mathlib.Data.List.Nodup
/-!
# What a protocol makes of settings

A command is translated if it sets something, no actuator twice, and only
actuators of its kind that are there, to values in their ranges (`Admits`); any
other is refused at the first check that fails (`Refuses`), with nothing written
and nothing remembered. What is sent are the frames of the settings that tell an
actuator something new, in the order of the command (`Sends`).

`translates_of_create` is the main statement. It is about the devices of every
rule that is built in or was made from a request, whatever their protocol
remembers.
-/

namespace Haptics

/-! ## What is accepted, and what is not -/

/-- A setting that names an actuator of the command's kind, with a value in its
range. -/
def Setting.Fits (c : Capabilities) (kind : ActuatorKind) (s : Setting) : Prop :=
  ∃ a ∈ c.actuators, a.index = s.index ∧ a.kind = kind ∧ a.range.contains s.value = true

/-- Settings that a command of a kind may have. -/
structure Admits (c : Capabilities) (kind : ActuatorKind) (ss : List Setting) : Prop where
  not_raw : kind ≠ .rawWrite
  nonempty : ss ≠ []
  fits : ∀ s ∈ ss, s.Fits c kind
  once : (ss.map Setting.index).Nodup

/-- The first check that a setting fails, with the settings `before` it, and the
code of its fault. -/
inductive Setting.Fails (c : Capabilities) (v : Vendor) (kind : ActuatorKind)
    (before : List Setting) (s : Setting) : Fault → ErrorCode → Prop
  | missing (hnone : ∀ a ∈ c.actuators, a.index ≠ s.index) :
      Fails c v kind before s (.noActuator s.index v) .invalidActuatorIndex
  | otherKind {a : Actuator} (ha : a ∈ c.actuators) (hi : a.index = s.index)
      (hk : a.kind ≠ kind) :
      Fails c v kind before s (.wrongKind s.index a.kind kind) .unsupportedCommand
  | again {a : Actuator} (ha : a ∈ c.actuators) (hi : a.index = s.index) (hk : a.kind = kind)
      (hseen : s.index ∈ before.map Setting.index) :
      Fails c v kind before s (.givenTwice s.index) .unsupportedCommand
  | outside {a : Actuator} (ha : a ∈ c.actuators) (hi : a.index = s.index) (hk : a.kind = kind)
      (hseen : s.index ∉ before.map Setting.index) (hv : a.range.contains s.value = false) :
      Fails c v kind before s (.valueOutside s.value a.range s.index) .outOfRange

/-- The first check that a command fails. Those on the whole command come first,
then those on its settings, one setting after the other. -/
inductive Refuses (c : Capabilities) (v : Vendor) (kind : ActuatorKind) (ss : List Setting) :
    Fault → ErrorCode → Prop
  | raw (hk : kind = .rawWrite) : Refuses c v kind ss .rawWriteAsSettings .unsupportedCommand
  | empty (hk : kind ≠ .rawWrite) (hs : ss = []) :
      Refuses c v kind ss (.noSettings kind) .unsupportedCommand
  | setting {before after : List Setting} {s : Setting} {e : Fault} {code : ErrorCode}
      (hk : kind ≠ .rawWrite) (hs : ss = before ++ s :: after)
      (hfits : ∀ b ∈ before, b.Fits c kind) (honce : (before.map Setting.index).Nodup)
      (hf : s.Fails c v kind before e code) : Refuses c v kind ss e code

/-! ## What is sent -/

/-- The direction that a setting asks for. Only rotators have one. -/
def Setting.direction (kind : ActuatorKind) (s : Setting) : Bool :=
  if kind = .rotate then s.clockwise else true

namespace Protocol

/-- Whether a target tells its actuator something new: a linear move always does,
and otherwise the step or the direction must differ from what was last sent. -/
def isNew (p : Protocol) (kind : ActuatorKind) (t : Target) : Bool :=
  kind = .linear || (p.sent.get? t.index).all fun last =>
    last.step ≠ t.step || last.clockwise ≠ t.setting.direction kind

/-- The writes for one target, on a device that `p` speaks to. -/
def writesFor (p : Protocol) (kind : ActuatorKind) (t : Target) : List Write :=
  match p.dialect with
  | .lovense clockwise =>
    let frames : List Lovense.Frame :=
      if kind = .rotate then
        (if t.setting.clockwise = clockwise then [] else [.rotateChange]) ++
          [.rotate t.step.toNat]
      else if 1 < p.capabilities.count .vibrate then [.vibrate (t.index.toNat + 1) t.step.toNat]
      else [.vibrateAll t.step.toNat]
    frames.map Lovense.Frame.toWrite
  | .vorze => [Vorze.toWrite (Vorze.frame t.setting.clockwise t.step)]
  | .launch position =>
    [Launch.toWrite [t.step.toUInt8,
      Launch.speedFor (Launch.distance t.step position) t.setting.durationMs]]
  | .genericVibrator => [GenericVibrator.toWrite (GenericVibrator.frame t.index t.step)]

end Protocol

/-- A command was accepted: its settings aim at the targets `ts`, the writes are
those of the targets that are new, and `q` remembers what every target has now. -/
structure Sends (p : Protocol) (kind : ActuatorKind) (ss : List Setting) (ts : List Target)
    (ws : List Write) (q : Protocol) : Prop where
  settings : ts.map Target.setting = ss
  located : ∀ t ∈ ts, t.actuator ∈ p.capabilities.actuators ∧ t.actuator.index = t.index ∧
    t.actuator.kind = kind
  writes : ws = (ts.filter (p.isNew kind)).flatMap (p.writesFor kind)
  alike : p.Alike q
  remembered : kind ≠ .linear → ∀ t ∈ ts,
    q.sent.get? t.index = some ⟨t.step, t.setting.direction kind⟩
  others : ∀ i, kind = .linear ∨ i ∉ ss.map Setting.index → q.sent.get? i = p.sent.get? i
  moved : ∀ position, p.dialect = .launch position → ∀ t ∈ ts, q.dialect = .launch t.step
  unmoved : p.vendor ≠ .launch → q.dialect = p.dialect

/-- **What a protocol makes of a command of settings.** -/
structure Translates (p : Protocol) (kind : ActuatorKind) (ss : List Setting) : Prop where
  accepts : (∃ ws q, p.translate (.actuate kind ss) = .ok (ws, q)) ↔ Admits p.capabilities kind ss
  refuses : ∀ e code, (p.translate (.actuate kind ss) = .error e ∧ e.code = code) ↔
    Refuses p.capabilities p.vendor kind ss e code
  nan : ∀ s ∈ ss, s.value.isNaN = true → ∀ ws q, p.translate (.actuate kind ss) ≠ .ok (ws, q)
  untouched : ∀ {L : Type} [Link L] (line : Line L) (device : String) (e : Fault),
    line.protocol = p → p.translate (.actuate kind ss) = .error e →
      line.execute device (.actuate kind ss) = (.error e, line)
  sends : ∀ ws q, p.translate (.actuate kind ss) = .ok (ws, q) → ∃ ts, Sends p kind ss ts ws q

/-! ## Locating -/

namespace Capabilities

variable {c : Capabilities} {v : Vendor} {kind : ActuatorKind} {seen : List UInt32} {s : Setting}
  {ss : List Setting} {ts : List Target} {t : Target} {e : Fault} {code : ErrorCode}

/-- The target is the setting with its actuator, if it fits and is the first. -/
theorem locateOne_eq_ok_iff (hc : Positioned c.actuators) :
    c.locateOne v kind seen s = .ok t ↔
      (t.actuator ∈ c.actuators ∧ t.actuator.index = s.index ∧ t.actuator.kind = kind ∧
        t.actuator.range.contains s.value = true) ∧ s.index ∉ seen ∧ t.setting = s := by
  constructor
  · intro h
    unfold locateOne at h
    split at h
    · cases h
    · rename_i a ha
      obtain ⟨hmem, hi⟩ := (Positioned.findActuator?_eq_some_iff hc).1 ha
      split at h
      · cases h
      · rename_i hk
        split at h
        · cases h
        · rename_i hseen
          split at h
          · rename_i hv
            cases h
            exact ⟨⟨hmem, hi, Decidable.not_not.1 hk, hv⟩, hseen, rfl⟩
          · cases h
  · rintro ⟨⟨hmem, hi, hk, hv⟩, hseen, rfl⟩
    have hfind := (Positioned.findActuator?_eq_some_iff hc).2 ⟨hmem, hi⟩
    unfold locateOne
    rw [hfind]
    simp only [hk, ne_eq, not_true_eq_false, if_false, if_neg hseen, if_pos hv]

theorem locateOne_isOk_iff (hc : Positioned c.actuators) :
    (∃ t, c.locateOne v kind seen s = .ok t) ↔ s.Fits c kind ∧ s.index ∉ seen := by
  constructor
  · rintro ⟨t, ht⟩
    obtain ⟨⟨hmem, hi, hk, hv⟩, hseen, -⟩ := (locateOne_eq_ok_iff hc).1 ht
    exact ⟨⟨t.actuator, hmem, hi, hk, hv⟩, hseen⟩
  · rintro ⟨⟨a, ha⟩, hseen⟩
    exact ⟨⟨s, a⟩, (locateOne_eq_ok_iff hc).2 ⟨ha, hseen, rfl⟩⟩

/-- **The first check that a setting fails decides the fault.** -/
theorem locateOne_eq_error_iff (hc : Positioned c.actuators) {before : List Setting}
    (hseen : ∀ i, i ∈ seen ↔ i ∈ before.map Setting.index) :
    (c.locateOne v kind seen s = .error e ∧ e.code = code) ↔ s.Fails c v kind before e code := by
  constructor
  · rintro ⟨h, rfl⟩
    unfold locateOne at h
    split at h
    · rename_i hnone
      cases h
      refine .missing fun a ha hi => ?_
      have hfind := (Positioned.findActuator?_eq_some_iff hc).2 ⟨ha, hi⟩
      rw [hnone] at hfind
      cases hfind
    · rename_i a ha
      obtain ⟨hmem, hi⟩ := (Positioned.findActuator?_eq_some_iff hc).1 ha
      split at h
      · rename_i hk
        cases h
        exact .otherKind hmem hi hk
      · rename_i hk
        have hk := Decidable.not_not.1 hk
        split at h
        · rename_i hin
          cases h
          exact .again hmem hi hk ((hseen _).1 hin)
        · rename_i hin
          split at h
          · cases h
          · rename_i hv
            cases h
            exact .outside hmem hi hk (fun hb => hin ((hseen _).2 hb)) (Bool.not_eq_true _ ▸ hv)
  · intro h
    unfold locateOne
    cases h with
    | missing hnone =>
      have hfind : c.findActuator? s.index = none :=
        List.find?_eq_none.2 fun a ha => by simpa using hnone a ha
      rw [hfind]
      exact ⟨rfl, rfl⟩
    | otherKind ha hi hk =>
      rw [(Positioned.findActuator?_eq_some_iff hc).2 ⟨ha, hi⟩]
      simp [hk, Fault.code]
    | again ha hi hk hb =>
      rw [(Positioned.findActuator?_eq_some_iff hc).2 ⟨ha, hi⟩]
      simp [hk, (hseen _).2 hb, Fault.code]
    | outside ha hi hk hb hv =>
      rw [(Positioned.findActuator?_eq_some_iff hc).2 ⟨ha, hi⟩]
      have hin : s.index ∉ seen := fun hin => hb ((hseen _).1 hin)
      simp [hk, hin, hv, Fault.code]

theorem locate_cons_ok {rest : List Setting} (ht : c.locateOne v kind seen s = .ok t) :
    c.locate v kind seen (s :: rest) =
      (c.locate v kind (s.index :: seen) rest).map (t :: ·) := by
  rw [locate, ht]
  simp only
  cases c.locate v kind (s.index :: seen) rest <;> rfl

/-- **All settings are located if and only if each fits and none comes twice.** -/
theorem locate_isOk_iff (hc : Positioned c.actuators) :
    (∃ ts, c.locate v kind seen ss = .ok ts) ↔
      (∀ s ∈ ss, s.Fits c kind ∧ s.index ∉ seen) ∧ (ss.map Setting.index).Nodup := by
  induction ss generalizing seen with
  | nil => simp [locate]
  | cons s ss ih =>
    cases h : c.locateOne v kind seen s with
    | error e =>
      have hnot : ¬ (s.Fits c kind ∧ s.index ∉ seen) := by
        rw [← locateOne_isOk_iff (v := v) hc]
        rintro ⟨t, ht⟩
        rw [h] at ht
        cases ht
      constructor
      · rintro ⟨ts, hts⟩
        rw [locate, h] at hts
        cases hts
      · exact fun hall => absurd (hall.1 s List.mem_cons_self) hnot
    | ok t =>
      have hs := (locateOne_isOk_iff hc).1 ⟨t, h⟩
      rw [locate_cons_ok h]
      have hmap : (∃ ts, (c.locate v kind (s.index :: seen) ss).map (t :: ·) = .ok ts) ↔
          ∃ ts, c.locate v kind (s.index :: seen) ss = .ok ts := by
        cases c.locate v kind (s.index :: seen) ss <;> simp [Except.map]
      rw [hmap, ih, List.map_cons, List.nodup_cons]
      constructor
      · rintro ⟨hall, hnodup⟩
        refine ⟨fun u hu => ?_, fun hmem => ?_, hnodup⟩
        · rcases List.mem_cons.1 hu with rfl | hu
          · exact hs
          · exact ⟨(hall u hu).1, fun hin => (hall u hu).2 (List.mem_cons_of_mem _ hin)⟩
        · obtain ⟨u, hu, hus⟩ := List.mem_map.1 hmem
          exact (hall u hu).2 (hus ▸ List.mem_cons_self)
      · rintro ⟨hall, hnot, hnodup⟩
        refine ⟨fun u hu => ?_, hnodup⟩
        obtain ⟨hfit, hin⟩ := hall u (List.mem_cons_of_mem s hu)
        refine ⟨hfit, fun hmem => ?_⟩
        rcases List.mem_cons.1 hmem with heq | hmem
        · exact hnot (List.mem_map.2 ⟨u, hu, heq⟩)
        · exact hin hmem

/-- **The first setting that is not located decides the fault.** -/
theorem locate_eq_error_iff :
    c.locate v kind seen ss = .error e ↔
      ∃ before s after, ss = before ++ s :: after ∧
        (∃ ts, c.locate v kind seen before = .ok ts) ∧
        c.locateOne v kind ((before.map Setting.index).reverse ++ seen) s = .error e := by
  induction ss generalizing seen with
  | nil => simp [locate]
  | cons s ss ih =>
    cases h : c.locateOne v kind seen s with
    | error e' =>
      have herr : c.locate v kind seen (s :: ss) = .error e' := by rw [locate, h]
      rw [herr]
      constructor
      · rintro ⟨⟩
        exact ⟨[], s, ss, rfl, ⟨[], rfl⟩, h⟩
      · rintro ⟨before, u, after, hs, ⟨ts, hts⟩, hu⟩
        cases before with
        | nil =>
          cases hs
          cases h.symm.trans hu
          rfl
        | cons b before =>
          -- the setting that is not located is not among those before
          cases hs
          rw [locate, h] at hts
          cases hts
    | ok t =>
      rw [locate_cons_ok h]
      have hmap : (c.locate v kind (s.index :: seen) ss).map (t :: ·) = .error e ↔
          c.locate v kind (s.index :: seen) ss = .error e := by
        cases c.locate v kind (s.index :: seen) ss <;> simp [Except.map]
      rw [hmap, ih]
      constructor
      · rintro ⟨before, u, after, rfl, ⟨ts, hts⟩, hu⟩
        refine ⟨s :: before, u, after, rfl, ⟨t :: ts, ?_⟩, ?_⟩
        · rw [locate_cons_ok h, hts]
          rfl
        · simpa using hu
      · rintro ⟨before, u, after, hs, ⟨ts, hts⟩, hu⟩
        cases before with
        | nil =>
          cases hs
          rw [List.map_nil, List.reverse_nil, List.nil_append, h] at hu
          cases hu
        | cons b before =>
          cases hs
          rw [locate_cons_ok h] at hts
          refine ⟨before, u, after, rfl, ?_, by simpa using hu⟩
          cases hb : c.locate v kind (s.index :: seen) before with
          | error e' => rw [hb] at hts; cases hts
          | ok later => exact ⟨later, rfl⟩

/-- The targets of located settings are these settings with their actuators. -/
theorem settings_of_locate (hc : Positioned c.actuators)
    (h : c.locate v kind seen ss = .ok ts) : ts.map Target.setting = ss := by
  induction ss generalizing seen ts with
  | nil =>
    cases h
    rfl
  | cons s ss ih =>
    cases hs : c.locateOne v kind seen s with
    | error e =>
      rw [locate, hs] at h
      cases h
    | ok t =>
      rw [locate_cons_ok hs] at h
      cases hl : c.locate v kind (s.index :: seen) ss with
      | error e =>
        rw [hl] at h
        cases h
      | ok later =>
        rw [hl] at h
        cases h
        rw [List.map_cons, ih hl, ((locateOne_eq_ok_iff hc).1 hs).2.2]

theorem targets_isOk_iff (hc : Positioned c.actuators) :
    (∃ ts, c.targets v kind ss = .ok ts) ↔ Admits c kind ss := by
  unfold targets
  by_cases hk : kind = .rawWrite
  · simpa [hk] using fun h : Admits c .rawWrite ss => h.not_raw rfl
  · by_cases hs : ss = []
    · simpa [hk, hs] using fun h : Admits c kind [] => h.nonempty rfl
    · rw [if_neg hk, if_neg hs, locate_isOk_iff hc]
      constructor
      · rintro ⟨hall, hnodup⟩
        exact ⟨hk, hs, fun s hs => (hall s hs).1, hnodup⟩
      · intro h
        exact ⟨fun s hs => ⟨h.fits s hs, List.not_mem_nil⟩, h.once⟩

theorem targets_eq_error_iff (hc : Positioned c.actuators) :
    (c.targets v kind ss = .error e ∧ e.code = code) ↔ Refuses c v kind ss e code := by
  constructor
  · rintro ⟨h, hcode⟩
    unfold targets at h
    split at h
    · rename_i hk
      cases h
      exact hcode ▸ .raw hk
    · rename_i hk
      split at h
      · rename_i hs
        cases h
        exact hcode ▸ .empty hk hs
      · obtain ⟨before, s, after, hss, hbefore, hf⟩ := locate_eq_error_iff.1 h
        obtain ⟨hall, hnodup⟩ := (locate_isOk_iff hc).1 hbefore
        have hseen : ∀ i, i ∈ (before.map Setting.index).reverse ++ [] ↔
            i ∈ before.map Setting.index := by simp
        have hfail := (locateOne_eq_error_iff hc hseen).1 ⟨hf, hcode⟩
        exact .setting hk hss (fun b hb => (hall b hb).1) hnodup hfail
  · intro h
    unfold targets
    cases h with
    | raw hk => exact ⟨if_pos hk, rfl⟩
    | empty hk hs => exact ⟨(if_neg hk).trans (if_pos hs), rfl⟩
    | @setting before after s _ _ hk hs hfits honce hf =>
      have hne : ss ≠ [] := by
        rw [hs]
        simp
      have hseen : ∀ i, i ∈ (before.map Setting.index).reverse ++ [] ↔
          i ∈ before.map Setting.index := by simp
      obtain ⟨herr, hcode⟩ := (locateOne_eq_error_iff (v := v) hc hseen).2 hf
      have hbefore : ∃ ts, c.locate v kind [] before = .ok ts :=
        (locate_isOk_iff hc).2 ⟨fun b hb => ⟨hfits b hb, List.not_mem_nil⟩, honce⟩
      rw [if_neg hk, if_neg hne]
      exact ⟨locate_eq_error_iff.2 ⟨before, s, after, hs, hbefore, herr⟩, hcode⟩

theorem settings_of_targets (hc : Positioned c.actuators)
    (h : c.targets v kind ss = .ok ts) : ts.map Target.setting = ss := by
  unfold targets at h
  split at h
  · cases h
  · split at h
    · cases h
    · exact settings_of_locate hc h

end Capabilities

/-! ## Encoding -/

namespace Protocol

variable {p q : Protocol} {kind : ActuatorKind} {ss : List Setting} {ts : List Target}

/-- What the encoders are given: targets of the command's kind, each another. -/
structure Aimed (p : Protocol) (kind : ActuatorKind) (ts : List Target) : Prop where
  located : ∀ t ∈ ts, t.actuator ∈ p.capabilities.actuators ∧ t.actuator.index = t.index ∧
    t.actuator.kind = kind
  once : (ts.map Target.index).Nodup

theorem Aimed.filter (h : p.Aimed kind ts) (f : Target → Bool) : p.Aimed kind (ts.filter f) where
  located t ht := h.located t (List.mem_filter.1 ht).1
  once := h.once.sublist (List.filter_sublist.map Target.index)

theorem aimed_of_targets (hl : p.capabilities.Laid p.vendor)
    (h : p.capabilities.targets p.vendor kind ss = .ok ts) : p.Aimed kind ts := by
  obtain ⟨-, hall, hnodup⟩ := Capabilities.located_of_targets h
  refine ⟨fun t ht => ?_, hnodup⟩
  obtain ⟨hmem, hi⟩ :=
    (Capabilities.Positioned.findActuator?_eq_some_iff hl.positioned).1 (hall t ht).found
  exact ⟨hmem, hi, (hall t ht).kind_eq⟩

/-- The kind of a target is one of the vendor's. -/
theorem Aimed.kind_mem (h : p.Aimed kind ts) (hl : p.capabilities.Laid p.vendor)
    (hraw : kind ≠ .rawWrite) {t : Target} (ht : t ∈ ts) : kind ∈ p.vendor.kinds := by
  obtain ⟨hmem, -, hk⟩ := h.located t ht
  rcases hl.kinds _ hmem with h | h
  · exact absurd (hk.symm.trans h) hraw
  · exact hk ▸ h

/-- A rotator or a stroker has no second one beside it, and so no second target. -/
theorem Aimed.eq_singleton (h : p.Aimed kind ts) (hl : p.capabilities.Laid p.vendor)
    (hs : kind ∈ [ActuatorKind.rotate, .linear]) {t : Target} (ht : t ∈ ts) : ts = [t] := by
  have hsame : ∀ u ∈ ts, u.index = t.index := by
    intro u hu
    obtain ⟨hmu, hiu, hku⟩ := h.located u hu
    obtain ⟨hmt, hit, hkt⟩ := h.located t ht
    rw [← hiu, ← hit, hl.unique hs hmu hmt hku hkt]
  match ts with
  | [] => exact absurd ht List.not_mem_nil
  | [u] => rw [List.mem_singleton.1 ht]
  | u :: w :: rest =>
    have honce := h.once
    rw [List.map_cons, List.map_cons, List.nodup_cons] at honce
    refine absurd ?_ honce.1
    rw [hsame u List.mem_cons_self, ← hsame w (List.mem_cons_of_mem u List.mem_cons_self)]
    exact List.mem_cons_self

/-- The frame for one motor is the one that its place in the order names. -/
theorem motorFrame_eq (hl : p.capabilities.Laid p.vendor) (h : p.Aimed .vibrate ts) {t : Target}
    (ht : t ∈ ts) : Hardware.motorFrame p.capabilities t.index t.step.toNat =
      if 1 < p.capabilities.count .vibrate then .vibrate (t.index.toNat + 1) t.step.toNat
      else .vibrateAll t.step.toNat := by
  obtain ⟨hmem, hi, hk⟩ := h.located t ht
  have hm := Capabilities.Suits.mem_motors hmem hk
  rw [Hardware.motorFrame, Capabilities.count_eq_length, ← hi,
    Capabilities.Positioned.motorNumber_eq hl.motors_positioned hm]
  rfl

theorem flatMap_writesFor {w : Target → Write} (h : ∀ t ∈ ts, p.writesFor kind t = [w t]) :
    ts.flatMap (p.writesFor kind) = ts.map w := by
  rw [List.map_eq_flatMap]
  exact List.flatMap_congr h

/-- **What validation accepts, the vendor's encoder accepts**, and its frames are
those of the single targets, one after the other. Only a stroker is somewhere else
after them. -/
theorem encode_eq (hl : p.capabilities.Laid p.vendor) (h : p.Aimed kind ts)
    (hraw : kind ≠ .rawWrite) {t : Target} (ht : t ∈ ts) :
    ∃ d, p.encode kind ts = .ok (ts.flatMap (p.writesFor kind), d) ∧
      (∀ position, p.dialect = .launch position → ∀ u ∈ ts, d = .launch u.step) ∧
      (p.vendor ≠ .launch → d = p.dialect) := by
  have hkind := h.kind_mem hl hraw ht
  unfold encode
  cases hd : p.dialect with
  | lovense clockwise =>
    rw [vendor_eq hd] at hkind
    refine ⟨p.dialect, ?_, fun _ heq => (by cases heq), fun _ => hd⟩
    simp only [hd]
    rcases List.mem_cons.1 hkind with rfl | hkind
    · rw [encode_lovense_motors]
      have hone : ∀ u ∈ ts, p.writesFor .vibrate u =
          [(Hardware.motorFrame p.capabilities u.index u.step.toNat).toWrite] := by
        intro u hu
        rw [motorFrame_eq hl h hu, writesFor, hd]
        simp only [reduceCtorEq, if_false]
        split <;> rfl
      rw [flatMap_writesFor hone]
      simp only [Except.map, List.map_map, Function.comp_def]
    · rw [List.mem_singleton.1 hkind] at h ⊢
      rw [h.eq_singleton hl (by decide) ht]
      by_cases hturn : t.setting.clockwise = clockwise
      · simp [Lovense.encode, Lovense.framesFor, Except.map, writesFor, hd, hturn]
      · simp [Lovense.encode, Lovense.framesFor, Except.map, writesFor, hd, hturn]
  | vorze =>
    rw [vendor_eq hd] at hkind
    refine ⟨p.dialect, ?_, fun _ heq => (by cases heq), fun _ => hd⟩
    rw [List.mem_singleton.1 hkind]
    rw [flatMap_writesFor fun u _ => by rw [writesFor, hd]]
    simp [Vorze.encode, Except.map, hd]
  | launch position =>
    have hv : p.vendor = .launch := vendor_eq hd
    rw [hv] at hkind
    rw [List.mem_singleton.1 hkind] at h ⊢
    rw [h.eq_singleton hl (by decide) ht]
    refine ⟨.launch t.step, ?_, fun _ _ u hu => ?_, fun hne => absurd hv hne⟩
    · simp [Launch.encode, Launch.moves, Except.map, writesFor, hd]
    · rw [List.mem_singleton.1 hu]
  | genericVibrator =>
    rw [vendor_eq hd] at hkind
    refine ⟨p.dialect, ?_, fun _ heq => (by cases heq), fun _ => hd⟩
    rw [List.mem_singleton.1 hkind]
    rw [flatMap_writesFor fun u _ => by rw [writesFor, hd]]
    simp [GenericVibrator.encode, Except.map, hd]

/-! ## Translating -/

/-- The memory spares exactly the targets that tell nothing new. -/
theorem changes_eq_isNew (p : Protocol) (kind : ActuatorKind) : p.changes kind = p.isNew kind := by
  funext t
  unfold changes isNew sentBy Setting.direction
  cases p.sent.get? t.index with
  | none => simp
  | some last =>
    obtain ⟨step, clockwise⟩ := last
    simp

/-- A target tells nothing new if its step and its direction are remembered. -/
theorem remembered_of_not_isNew {t : Target} (h : p.isNew kind t = false) :
    kind ≠ .linear ∧ p.sent.get? t.index = some ⟨t.step, t.setting.direction kind⟩ := by
  rw [← changes_eq_isNew, changes, Bool.or_eq_false_iff] at h
  exact ⟨of_decide_eq_false h.1, Decidable.not_not.1 (of_decide_eq_false h.2)⟩

/-- **What is remembered after the new targets**: every target of the command, and
of the other actuators what was. -/
theorem get?_remember (h : p.Aimed kind ts) (hlin : kind ≠ .linear) :
    (∀ t ∈ ts, (p.remember kind (ts.filter (p.isNew kind))).get? t.index =
      some ⟨t.step, t.setting.direction kind⟩) ∧
    (∀ i, i ∉ ts.map Target.index →
      (p.remember kind (ts.filter (p.isNew kind))).get? i = p.sent.get? i) := by
  have hsub : ∀ i, i ∈ (ts.filter (p.isNew kind)).map Target.index → i ∈ ts.map Target.index :=
    fun i hi => (List.filter_sublist.map Target.index).subset hi
  rw [remember, if_neg hlin]
  refine ⟨fun t ht => ?_, fun i hi =>
    Table.get?_foldl_insert_of_not_mem (fun hmem => hi (hsub i hmem)) p.sent⟩
  cases hnew : p.isNew kind t with
  | true =>
    exact Table.get?_foldl_insert_of_mem (h.filter _).once (List.mem_filter.2 ⟨ht, hnew⟩) p.sent
  | false =>
    -- no other target has the index, so the new ones leave what is remembered
    have hnot : t.index ∉ (ts.filter (p.isNew kind)).map Target.index := by
      intro hmem
      obtain ⟨u, hu, hut⟩ := List.mem_map.1 hmem
      obtain ⟨hu, hunew⟩ := List.mem_filter.1 hu
      rw [List.inj_on_of_nodup_map h.once hu ht hut, hnew] at hunew
      cases hunew
    rw [Table.get?_foldl_insert_of_not_mem hnot]
    exact (remembered_of_not_isNew hnew).2

/-- **What targets come to**: the writes of the new ones, and a protocol that
remembers them all. -/
theorem translateSettings_eq (hl : p.capabilities.Laid p.vendor)
    (h : p.capabilities.targets p.vendor kind ss = .ok ts) :
    ∃ ws q, p.translateSettings kind ss = .ok (ws, q) ∧ Sends p kind ss ts ws q := by
  have haim := aimed_of_targets hl h
  have hset := Capabilities.settings_of_targets hl.positioned h
  have hraw := (Capabilities.located_of_targets h).1
  have hindex : ts.map Target.index = ss.map Setting.index := by
    rw [← hset, List.map_map]
    rfl
  unfold translateSettings
  rw [h]
  simp only [changes_eq_isNew]
  match hnew : ts.filter (p.isNew kind) with
  | [] =>
    -- a linear move is always new, so this is no command of a stroker
    have hold : ∀ t ∈ ts, p.isNew kind t = false := fun t ht =>
      Bool.eq_false_iff.2 (List.filter_eq_nil_iff.1 hnew t ht)
    refine ⟨[], p, rfl, hset, haim.located, by rw [hnew]; rfl, Alike.refl p, fun _ t ht =>
      (remembered_of_not_isNew (hold t ht)).2, fun _ _ => rfl, fun position hd t ht => ?_,
      fun _ => rfl⟩
    have hkind := haim.kind_mem hl hraw ht
    rw [vendor_eq hd] at hkind
    exact absurd (List.mem_singleton.1 hkind) (remembered_of_not_isNew (hold t ht)).1
  | u :: rest =>
    have hu : u ∈ ts.filter (p.isNew kind) := hnew ▸ List.mem_cons_self
    obtain ⟨d, he, hmoved, hunmoved⟩ := encode_eq hl (haim.filter (p.isNew kind)) hraw hu
    rw [hnew] at he
    simp only [he]
    refine ⟨_, _, rfl, hset, haim.located, by rw [hnew], ⟨rfl, (vendor_of_encode he).1⟩,
      fun hlin t ht => ?_, fun i hi => ?_, fun position hd t ht => ?_, hunmoved⟩
    · rw [← hnew]
      exact (get?_remember haim hlin).1 t ht
    · rw [← hnew]
      by_cases hlin : kind = .linear
      · rw [remember, if_pos hlin]
      · exact (get?_remember haim hlin).2 i (hindex ▸ hi.resolve_left hlin)
    · -- a stroker takes linear moves only, and those are all new
      have hkind := haim.kind_mem hl hraw ht
      rw [vendor_eq hd] at hkind
      have hlin : kind = .linear := List.mem_singleton.1 hkind
      have hmem : t ∈ ts.filter (p.isNew kind) :=
        List.mem_filter.2 ⟨ht, by simp [isNew, hlin]⟩
      exact hmoved position hd t hmem

/-- **Every command of settings is answered as `Translates` says**, by a protocol
whose capabilities are laid out as a made rule promises. -/
theorem translates_of_laid (hl : p.capabilities.Laid p.vendor) (kind : ActuatorKind)
    (ss : List Setting) : Translates p kind ss := by
  have hok : ∀ ws q, p.translate (.actuate kind ss) = .ok (ws, q) →
      ∃ ts, p.capabilities.targets p.vendor kind ss = .ok ts := by
    intro ws q h
    change p.translateSettings kind ss = _ at h
    unfold translateSettings at h
    split at h
    · cases h
    · exact ⟨_, ‹_›⟩
  have haccepts : (∃ ws q, p.translate (.actuate kind ss) = .ok (ws, q)) ↔
      Admits p.capabilities kind ss := by
    rw [← Capabilities.targets_isOk_iff (v := p.vendor) hl.positioned]
    constructor
    · rintro ⟨ws, q, h⟩
      exact hok ws q h
    · rintro ⟨ts, hts⟩
      obtain ⟨ws, q, h, -⟩ := translateSettings_eq hl hts
      exact ⟨ws, q, h⟩
  refine ⟨haccepts, fun e code => ?_, fun s hs hnan ws q h => ?_, fun line device e hline h => ?_,
    fun ws q h => ?_⟩
  · rw [← Capabilities.targets_eq_error_iff hl.positioned]
    have herr : p.translate (.actuate kind ss) = .error e ↔
        p.capabilities.targets p.vendor kind ss = .error e := by
      change p.translateSettings kind ss = _ ↔ _
      cases hts : p.capabilities.targets p.vendor kind ss with
      | error e' => simp [translateSettings, hts]
      | ok ts =>
        obtain ⟨ws, q, h, -⟩ := translateSettings_eq hl hts
        rw [h]
        simp
    rw [herr]
  · obtain ⟨a, -, -, -, hv⟩ := (haccepts.1 ⟨ws, q, h⟩).fits s hs
    simp [ValueRange.contains, Binary64.le, hnan] at hv
  · simp only [Line.execute, hline, h]
  · obtain ⟨ts, hts⟩ := hok ws q h
    obtain ⟨ws', q', h', hsends⟩ := translateSettings_eq hl hts
    change p.translateSettings kind ss = _ at h
    rw [h] at h'
    cases h'
    exact ⟨ts, hsends⟩

/-- **What a rulebook of made rules creates translates every command of settings as
it should**, whatever has become of the protocol since. -/
theorem translates_of_create {b : Rulebook} {name : String} {services : List String}
    {p₀ p : Protocol} (hb : b.Made) (h : b.create name services = .ok p₀) (hp : p₀.Alike p)
    (kind : ActuatorKind) (ss : List Setting) : Translates p kind ss := by
  refine translates_of_laid ?_ kind ss
  rw [hp.capabilities, hp.vendor]
  exact laid_of_create hb h

/-- Rules for a wand with 20 motors, with raw writes allowed. -/
def wandRules : Rulebook where
  rules := [(({} : Rule).revise
    { protocol := "generic-vibrator", pattern := "Wand*", vibrators := 20 }).1]
  allowRaw := true

/-- A wand whose first motor is remembered to be off. -/
def wand : Protocol where
  dialect := .genericVibrator
  capabilities := wandRules.capabilities (({} : Rule).revise
    { protocol := "generic-vibrator", pattern := "Wand*", vibrators := 20 }).1
  sent := ({} : Table UInt32 Sent).insert 0 { step := 0, clockwise := true }

/-- The first motor stays off, and only the frame of the last is sent. -/
theorem translates_wand :
    Translates wand .vibrate [{ index := 19, value := .one }, { index := 0 }] ∧
      (wand.translate (.actuate .vibrate [{ index := 19, value := .one }, { index := 0 }])).map
        Prod.fst = .ok [{ endpoint := "tx", data := [0xb3, 100] }] := by
  have hd : wandRules.create "Wand" [] = .ok { wand with sent := {} } := rfl
  refine ⟨translates_of_create (p := wand) (fun r hr => ?_) hd ⟨rfl, rfl⟩ _ _, by decide +kernel⟩
  rw [List.mem_singleton.1 hr]
  exact Or.inr ⟨{}, _, Prod.ext rfl rfl⟩

end Protocol

end Haptics
