import Haptics.Link.Simulated
import Haptics.Proofs.Binary64.Bounded
import Haptics.Proofs.Device.StopCommand
import Haptics.Proofs.Protocol.Translation
/-!
# Where a stroker is taken to be

The frames of a stroker carry a speed, and the speed follows from the distance to
where the stroker is. Its protocol keeps a position for that, which moves on as a
frame is made and not as the frame arrives. So the position kept is that of the last
frame handed to the link, accepted or not (`Device.strokes_useAll`), and so is the
one that the speed of a frame is reckoned from. After a write that was accepted that
is where the stroker was sent; after a refused one it need not be, and a refused move
that is tried again has the speed 0.
-/

namespace Haptics

/-! ## Steps that fit a byte -/

theorem toNat_ofInt {n : Int} (h₀ : 0 ≤ n) (h : n < 2 ^ 32) : (UInt32.ofInt n).toNat = n.toNat := by
  obtain ⟨k, rfl⟩ := Int.eq_ofNat_of_zero_le h₀
  rw [UInt32.ofInt, UInt32.toNat_ofNat']
  omega

/-- A value from 0 to 1 that is in range is between them as a number. -/
theorem upTo_of_contains {v : Binary64} (h : ({} : ValueRange).contains v = true) : v.UpTo 0 := by
  have hbelow : Binary64.zero.le v = true ∧ v.le .one = true := by
    rw [ValueRange.contains, Bool.and_eq_true] at h
    exact h
  simp only [Binary64.le, Bool.and_eq_true, decide_eq_true_eq] at hbelow
  obtain ⟨⟨-, hlow⟩, -, hhigh⟩ := hbelow
  have hzero : Binary64.zero.place = 0 := by decide
  have hone : Binary64.one.place = (1023 + 0) * 2 ^ 52 := by decide
  rw [hzero] at hlow
  rw [hone] at hhigh
  unfold Binary64.place at hlow hhigh
  cases hneg : v.negative with
  | true =>
    rw [if_pos hneg] at hlow
    have hnone : v.magnitude = 0 := by omega
    refine ⟨?_, fun _ => hnone⟩
    rw [Binary64.AtMost, hnone]
    exact Nat.zero_le _
  | false =>
    rw [if_neg (by rw [hneg]; decide)] at hhigh
    refine ⟨?_, fun h => absurd h (by rw [hneg]; decide)⟩
    unfold Binary64.AtMost
    omega

/-- **The steps of a value in range** go no further than a power of two that the scale does not
pass. -/
theorem Actuator.step_le {a : Actuator} {v : Binary64} {i : Nat} (hr : a.range = {})
    (hs : a.stepCount.toNat ≤ 2 ^ i) (hi : i ≤ 31) (hv : a.range.contains v = true) :
    (a.step v).toNat ≤ 2 ^ i := by
  rw [hr] at hv
  have hspan : Binary64.one - Binary64.zero = .one := by decide +kernel
  unfold Actuator.step
  rw [hr]
  dsimp only
  rw [hspan]
  split
  · exact Nat.zero_le _
  · have hplace := (((upTo_of_contains hv).sub_zero (by decide)).div_one (by decide)).mul
      (Binary64.upTo_ofNat hs) (by decide) (by omega)
    rw [Nat.zero_add] at hplace
    obtain ⟨hpos, hle⟩ := hplace.nearestInt64 (by omega)
    have hsmall : (2 : Int) ^ i ≤ 2 ^ 31 := by gcongr; decide
    rw [toNat_ofInt hpos (by omega)]
    have hcast : ((2 ^ i : Nat) : Int) = 2 ^ i := by push_cast; rfl
    omega

namespace Launch

/-! ## Frames and positions -/

/-- The frame that takes a stroker from one position to another. -/
def frame (last position : UInt8) (durationMs : UInt32) : Bytes :=
  [position, speedFor (distance position.toUInt32 last.toUInt32) durationMs]

/-- Where the last of some frames leads to, from a position. -/
def lastPosition (p : UInt8) (ws : List Write) : UInt8 :=
  ws.foldl (fun p w => w.data.headD p) p

theorem distance_self (a : UInt32) : distance a a = .zero := by
  have hzero : (Binary64.zero.abs / .ofNat stepCount.toNat) = .zero := by decide +kernel
  rw [distance, Binary64.sub_self_of_atMost (Binary64.atMost_ofNat (i := 32) a.toNat_lt.le)
    (by decide)]
  exact hzero

/-- **A move to where the stroker is has no speed.** -/
theorem frame_self (p : UInt8) (durationMs : UInt32) : frame p p durationMs = [p, 0] := by
  have hle : Binary64.zero.le .zero = true := by decide
  rw [frame, distance_self, speedFor, if_pos hle]

end Launch

/-! ## Devices with a stroker -/

/-- Every stroker has the steps of the vendor, on values from 0 to 1. -/
def Capabilities.Scaled (c : Capabilities) : Prop :=
  ∀ a ∈ c.actuators, a.kind = .linear → a.stepCount = Launch.stepCount ∧ a.range = {}

theorem Rule.Made.scaled {r : Rule} (h : r.Made) : r.capabilities.Scaled := by
  rcases h with h | ⟨before, q, h⟩
  · have hall : ∀ r ∈ Rulebook.builtinRules, ∀ a ∈ r.capabilities.actuators, a.kind = .linear →
        a.stepCount = Launch.stepCount ∧ a.range = {} := by decide
    exact hall r h
  · unfold Rule.revise at h
    split at h
    · cases h
    · split at h
      · cases h
      · rename_i v _
        split at h
        · cases h
        · cases h
          intro a ha hk
          cases v with
          | launch =>
            obtain ⟨i, -, rfl⟩ := List.mem_map.1 ha
            exact ⟨rfl, rfl⟩
          | lovense | vorze | genericVibrator =>
            rw [Capabilities.kind_of_mem_added ha] at hk
            cases hk

theorem Rulebook.scaled_capabilities {b : Rulebook} {r : Rule} (h : r.capabilities.Scaled) :
    (b.capabilities r).Scaled := by
  unfold Rulebook.capabilities
  split
  · refine List.foldlRecOn r.endpoints _ h fun c hc endpoint _ a ha hk => ?_
    rw [Capabilities.actuators_addActuators, List.mem_append] at ha
    rcases ha with ha | ha
    · exact hc a ha hk
    · rw [Capabilities.kind_of_mem_added ha] at hk
      cases hk
  · exact h

namespace Protocol

/-- A protocol of a stroker that takes it to be at a position. -/
structure Stroker (p : Protocol) (position : UInt8) : Prop where
  laid : p.capabilities.Laid p.vendor
  scaled : p.capabilities.Scaled
  dialect : p.dialect = .launch position.toUInt32

variable {p p' : Protocol} {q : UInt8} {kind : ActuatorKind} {ss : List Setting} {ts : List Target}

theorem Stroker.vendor (h : p.Stroker q) : p.vendor = .launch := vendor_eq h.dialect

/-- A stroker has nothing to be told to stop. -/
theorem Stroker.stopFrames (h : p.Stroker q) : p.stopFrames = [] := by
  unfold Protocol.stopFrames
  rw [h.dialect]

/-- A protocol of the same device is one too, once its dialect is that of the position. -/
theorem Stroker.of_alike (h : p.Stroker q) (halike : p.Alike p') {r : UInt8}
    (hd : p'.dialect = .launch r.toUInt32) : p'.Stroker r where
  laid := by
    rw [halike.capabilities, halike.vendor]
    exact h.laid
  scaled := by
    rw [halike.capabilities]
    exact h.scaled
  dialect := hd

/-- **A stroker is taken to be at 0 at first.** -/
theorem stroker_of_create {b : Rulebook} {name : String} {services : List String} (hb : b.Made)
    (h : b.create name services = .ok p) (hv : p.vendor = .launch) : p.Stroker 0 := by
  refine ⟨laid_of_create hb h, ?_, ?_⟩
  · obtain ⟨r, hr, v, -, rfl⟩ := Rulebook.eq_fresh_of_create h
    exact Rulebook.scaled_capabilities (hb r hr).scaled
  · obtain ⟨r, -, v, -, rfl⟩ := Rulebook.eq_fresh_of_create h
    rw [vendor_fresh] at hv
    rw [hv]
    rfl

/-- **A command that a stroker takes is one move**, reckoned from where the protocol takes the
stroker to be, and the protocol takes it to be there at once. -/
theorem Stroker.translate_eq (h : p.Stroker q)
    (ht : p.capabilities.targets p.vendor kind ss = .ok ts) :
    ∃ t p', ts = [t] ∧ p.translate (.actuate kind ss) =
        .ok ([Launch.toWrite (Launch.frame q t.step.toUInt8 t.setting.durationMs)], p') ∧
      p'.Stroker t.step.toUInt8 ∧ p.Alike p' := by
  have haim := aimed_of_targets h.laid ht
  have hadmits := (Capabilities.targets_isOk_iff (v := p.vendor) h.laid.positioned).1 ⟨ts, ht⟩
  obtain ⟨ws, p', htranslate, hsends⟩ := translateSettings_eq h.laid ht
  obtain ⟨t, hmem⟩ := List.exists_mem_of_ne_nil ts fun hnil =>
    hadmits.nonempty (by rw [← hsends.settings, hnil]; rfl)
  have hkind := haim.kind_mem h.laid hadmits.not_raw hmem
  rw [h.vendor] at hkind
  have hlinear : kind = .linear := List.mem_singleton.1 hkind
  subst hlinear
  have hone : ts = [t] := haim.eq_singleton h.laid (by decide) hmem
  subst hone
  obtain ⟨hactuator, hindex, hk⟩ := haim.located t hmem
  -- the value is in the range of the only stroker there is
  have hfits : t.setting.Fits p.capabilities .linear :=
    hadmits.fits _ (by rw [← hsends.settings]; exact List.mem_cons_self)
  obtain ⟨a, ha, -, hka, hcontains⟩ := hfits
  rw [h.laid.unique (by decide) ha hactuator hka hk] at hcontains
  obtain ⟨hsteps, hrange⟩ := h.scaled t.actuator hactuator hk
  have hle : t.step.toNat ≤ 2 ^ 7 :=
    Actuator.step_le hrange (by rw [hsteps]; decide) (by decide) hcontains
  have hbyte : t.step.toUInt8.toUInt32 = t.step := by
    rw [← UInt32.toNat_inj, UInt8.toNat_toUInt32, UInt32.toNat_toUInt8]
    omega
  have hnew : [t].filter (p.isNew .linear) = [t] := by simp [isNew]
  refine ⟨t, p', rfl, ?_, h.of_alike hsends.alike ?_, hsends.alike⟩
  · have hws := hsends.writes
    rw [hnew, List.flatMap_singleton, writesFor, h.dialect] at hws
    rw [hws] at htranslate
    rw [Launch.frame, hbyte]
    exact htranslate
  · rw [hbyte]
    exact hsends.moved _ h.dialect t hmem

end Protocol

/-! ## Strokes on a link -/

/-- Traffic that is nothing but moves, each reckoned from where the one before it leads,
whatever became of that one. -/
inductive Strokes : UInt8 → List Traffic → UInt8 → Prop
  | rest (q : UInt8) : Strokes q [] q
  | move {q r s : UInt8} (durationMs : UInt32) (ok : Bool) {ts : List Traffic}
    (h : Strokes r ts s) :
    Strokes q (.wrote (Launch.toWrite (Launch.frame q r durationMs)) ok :: ts) s

namespace Strokes

variable {q r s : UInt8} {ts us : List Traffic}

theorem append (h₁ : Strokes q ts r) (h₂ : Strokes r us s) : Strokes q (ts ++ us) s := by
  induction h₁ with
  | rest => exact h₂
  | move durationMs ok _ ih => exact .move durationMs ok (ih h₂)

theorem split (h : Strokes q (ts ++ us) s) : ∃ r, Strokes q ts r ∧ Strokes r us s := by
  induction ts generalizing q with
  | nil => exact ⟨q, .rest q, h⟩
  | cons t ts ih =>
    cases h with
    | move durationMs ok h =>
      obtain ⟨r, h₁, h₂⟩ := ih h
      exact ⟨r, .move durationMs ok h₁, h₂⟩

/-- **The position after some moves** is where the last of them leads, refused or not. -/
theorem lastPosition_handed (h : Strokes q ts r) : Launch.lastPosition q (handed ts) = r := by
  induction h with
  | rest => rfl
  | move durationMs ok _ ih => exact ih

/-- Unless the last move was refused, that is where the last accepted move leads. -/
theorem lastPosition_accepted (h : Strokes q ts r)
    (hlast : ∀ t, ts.getLast? = some t → t.refused = false) :
    Launch.lastPosition q (accepted ts) = r := by
  rcases List.eq_nil_or_concat' ts with rfl | ⟨ts, t, rfl⟩
  · cases h
    rfl
  · obtain ⟨p, -, ht⟩ := h.split
    cases ht with
    | move durationMs ok h' =>
      cases h'
      have hok := hlast _ List.getLast?_concat
      cases ok with
      | false => cases hok
      | true =>
        rw [accepted_append, Launch.lastPosition, List.foldl_append]
        rfl

end Strokes

namespace Line

variable {L : Type} {line line' : Line L} {q r : UInt8} {ts : List Traffic}

/-- What is left of the line of a stroker after some moves. -/
structure Stroked (line line' : Line L) (q r : UInt8) (ts : List Traffic) : Prop where
  traffic : line'.traffic = line.traffic ++ ts
  strokes : Strokes q ts r
  stroker : line'.protocol.Stroker r
  alike : line.protocol.Alike line'.protocol

theorem stroked_rest (h : line.protocol.Stroker q) : line.Stroked line q q [] :=
  ⟨(List.append_nil _).symm, .rest q, h, Protocol.Alike.refl _⟩

variable [Link L]

/-- **One write of a stroker**: the position does not depend on what the link makes of it. -/
theorem stroked_write (h : line.protocol.Stroker r) (device : String) (q : UInt8)
    (durationMs : UInt32) :
    ∃ ok, line.Stroked (line.write device (Launch.toWrite (Launch.frame q r durationMs))).2 q r
      [.wrote (Launch.toWrite (Launch.frame q r durationMs)) ok] := by
  have hquiet : line.protocol.completed (Launch.toWrite (Launch.frame q r durationMs)) =
      line.protocol := by
    unfold Protocol.completed
    rw [h.dialect]
  rcases write_cases line device (Launch.toWrite (Launch.frame q r durationMs)) with
    ⟨link, -, hw⟩ | ⟨why, link, -, hw⟩
  · rw [hw, hquiet]
    exact ⟨true, rfl, .move durationMs true (.rest r), h, Protocol.Alike.refl _⟩
  · rw [hw]
    exact ⟨false, rfl, .move durationMs false (.rest r), ⟨h.laid, h.scaled, h.dialect⟩, rfl, rfl⟩

/-- **A command of settings is one move or nothing.** -/
theorem stroked_settings (h : line.protocol.Stroker q) (device : String) (kind : ActuatorKind)
    (ss : List Setting) :
    ((∃ e, line.protocol.capabilities.targets line.protocol.vendor kind ss = .error e) ∧
        line.Stroked (line.execute device (.actuate kind ss)).2 q q []) ∨
      ∃ t ok, line.protocol.capabilities.targets line.protocol.vendor kind ss = .ok [t] ∧
        line.Stroked (line.execute device (.actuate kind ss)).2 q t.step.toUInt8
          [.wrote (Launch.toWrite (Launch.frame q t.step.toUInt8 t.setting.durationMs)) ok] := by
  cases htargets : line.protocol.capabilities.targets line.protocol.vendor kind ss with
  | error e =>
    have htranslate : line.protocol.translate (.actuate kind ss) = .error e := by
      change line.protocol.translateSettings kind ss = _
      rw [Protocol.translateSettings, htargets]
    refine Or.inl ⟨⟨e, rfl⟩, ?_⟩
    simp only [execute, htranslate]
    exact stroked_rest h
  | ok ts =>
    obtain ⟨t, p', rfl, htranslate, hstroker, halike⟩ := h.translate_eq htargets
    obtain ⟨ok, htraffic, hstrokes, hafter, halike'⟩ :=
      @stroked_write L { line with protocol := p' } t.step.toUInt8 _ hstroker device q
        t.setting.durationMs
    refine Or.inr ⟨t, ok, rfl, ?_⟩
    have hline : (line.execute device (.actuate kind ss)).2 =
        (({ line with protocol := p' } : Line L).write device
          (Launch.toWrite (Launch.frame q t.step.toUInt8 t.setting.durationMs))).2 := by
      simp only [execute, htranslate, writeAll]
      cases hwrite : ({ line with protocol := p' } : Line L).write device
          (Launch.toWrite (Launch.frame q t.step.toUInt8 t.setting.durationMs)) with
      | mk fault after => cases fault <;> rfl
    rw [hline]
    exact ⟨htraffic, hstrokes, hafter, halike.trans halike'⟩

/-- A stop keeps the position. -/
theorem stroked_stop (h : line.protocol.Stroker q) (device : String) :
    line.Stroked (line.stop device).2 q q [] := by
  have hframes := h.stopFrames
  have hstop : (line.stop device).2 = { line with protocol := line.protocol.stop.2 } := by
    simp only [stop, Protocol.stop, hframes, writeEach]
  rw [hstop]
  exact ⟨(List.append_nil _).symm, .rest q, ⟨h.laid, h.scaled, h.dialect⟩, rfl, rfl⟩

/-- **A command that is no raw write is one move or nothing.** -/
theorem stroked_execute (h : line.protocol.Stroker q) (device : String) {c : Command}
    (hraw : ∀ index data withResponse, c ≠ .rawWrite index data withResponse) :
    ∃ r ts, line.Stroked (line.execute device c).2 q r ts := by
  cases c with
  | actuate kind ss =>
    rcases stroked_settings h device kind ss with ⟨-, hrest⟩ | ⟨t, ok, -, hmove⟩
    · exact ⟨q, [], hrest⟩
    · exact ⟨_, _, hmove⟩
  | rawWrite index data withResponse => exact absurd rfl (hraw index data withResponse)
  | readSensor index =>
    -- there is no request that a stroker could answer
    refine ⟨q, [], ?_⟩
    have hnone : ∃ e, line.protocol.sensorRequest index = .error e := by
      unfold Protocol.sensorRequest
      split
      · exact ⟨_, rfl⟩
      · rw [h.dialect]
        exact ⟨_, rfl⟩
    obtain ⟨e, he⟩ := hnone
    simp only [execute, readSensor, he]
    exact stroked_rest h
  | stop =>
    obtain ⟨short, hexecute, habridged⟩ := abridged_stop line device
    obtain ⟨-, -, hstroker, halike⟩ := stroked_stop h device
    rw [← habridged.protocol] at hstroker halike
    rw [hexecute]
    refine ⟨q, [], ?_, .rest q, hstroker, halike⟩
    rw [habridged.short_traffic, h.stopFrames]
    rfl

end Line

namespace Device

variable {L : Type} {d : Device} {links : List L} {q : UInt8}

/-- What runs on the line of a stroker is moves, and nothing at all without a link. -/
theorem strokes_onLine {α : Type} (h : d.protocol.Stroker q) (absent : α)
    {act : Line L → α × Line L}
    (hact : ∀ line : Line L, line.protocol = d.protocol →
      ∃ r ts, line.Stroked (act line).2 q r ts) :
    ∃ r, Strokes q (d.onLine links absent act).traffic r ∧
      (d.onLine links absent act).device.protocol.Stroker r := by
  rcases onLine_cases d links absent act with heq | ⟨id, link, hc, hl, hlink⟩
  · rw [heq]
    exact ⟨q, .rest q, h⟩
  · obtain ⟨r, ts, htraffic, hstrokes, hstroker, -⟩ := hact { protocol := d.protocol, link } rfl
    rw [onLine_eq hc hl hlink]
    rw [List.nil_append] at htraffic
    exact ⟨r, htraffic ▸ hstrokes, hstroker⟩

/-- A command that writes bytes of the client's own. -/
def Use.raw : Use → Bool
  | .execute (.rawWrite ..) => true
  | _ => false

variable [Link L]

/-- **One use of a stroker is moves**, from where its protocol takes it to be to where the protocol
takes it to be afterwards. -/
theorem strokes_use (h : d.protocol.Stroker q) (links : List L) {u : Use} (hraw : u.raw = false) :
    ∃ r, Strokes q (d.use links u).traffic r ∧ (d.use links u).device.protocol.Stroker r := by
  cases u with
  | execute c =>
    change ∃ r, Strokes q (d.execute links c).traffic r ∧
      (d.execute links c).device.protocol.Stroker r
    refine strokes_onLine h _ fun line hline => ?_
    refine Line.stroked_execute (hline ▸ h) d.identity.name fun index data withResponse hc => ?_
    rw [hc] at hraw
    cases hraw
  | stop =>
    exact strokes_onLine h _ fun line hline =>
      ⟨q, [], Line.stroked_stop (hline ▸ h) d.identity.name⟩

/-- And so are any number of uses. -/
theorem strokes_useAll_of_stroker (h : d.protocol.Stroker q) (links : List L) {us : List Use}
    (hraw : ∀ u ∈ us, u.raw = false) :
    ∃ r, Strokes q (d.useAll links us).traffic r ∧
      (d.useAll links us).device.protocol.Stroker r := by
  induction us generalizing d links q with
  | nil => exact ⟨q, .rest q, h⟩
  | cons u us ih =>
    obtain ⟨r, hfirst, hstroker⟩ := strokes_use h links (hraw u List.mem_cons_self)
    obtain ⟨s, hlater, hafter⟩ := ih hstroker (d.use links u).links
      fun v hv => hraw v (List.mem_cons_of_mem u hv)
    exact ⟨s, hfirst.append hlater, hafter⟩

/-- **A command of settings on a stroker that has its link**: it is refused and nothing is handed
over, or its one move is. -/
theorem moves_online (h : d.protocol.Stroker q) {id : LinkId} {link : L}
    (hc : d.connected = true) (hl : d.link = some id) (hlink : links[id]? = some link)
    (kind : ActuatorKind) (ss : List Setting) :
    ((∃ e, d.protocol.capabilities.targets d.protocol.vendor kind ss = .error e) ∧
        (d.execute links (.actuate kind ss)).traffic = []) ∨
      ∃ t ok, d.protocol.capabilities.targets d.protocol.vendor kind ss = .ok [t] ∧
        (d.execute links (.actuate kind ss)).traffic =
          [.wrote (Launch.toWrite (Launch.frame q t.step.toUInt8 t.setting.durationMs)) ok] ∧
        (d.execute links (.actuate kind ss)).device.protocol.Stroker t.step.toUInt8 := by
  rw [execute, onLine_eq hc hl hlink]
  rcases @Line.stroked_settings L { protocol := d.protocol, link } q _ h d.identity.name kind ss
    with ⟨herror, hrest⟩ | ⟨t, ok, htargets, hmove⟩
  · exact Or.inl ⟨herror, hrest.traffic⟩
  · exact Or.inr ⟨t, ok, htargets, hmove.traffic, hmove.stroker⟩

/-- **A move that is tried again has no speed**, whatever became of it the first time. -/
theorem repeats_of_stroker (h : d.protocol.Stroker q) (links : List L) {ss : List Setting}
    {w : Write} {ok : Bool}
    (hmove : (d.execute links (.actuate .linear ss)).traffic = [.wrote w ok]) :
    ∃ ok', ((d.execute links (.actuate .linear ss)).device.execute
        (d.execute links (.actuate .linear ss)).links (.actuate .linear ss)).traffic =
      [.wrote (Launch.toWrite [w.data.headD 0, 0]) ok'] := by
  rcases onLine_cases d links (.error (.notConnected d.index)) fun line =>
    line.execute d.identity.name (.actuate .linear ss) with heq | ⟨id, link, hc, hl, hlink⟩
  · rw [execute, heq] at hmove
    cases hmove
  · -- the device keeps its link, so the second attempt is made as well
    obtain ⟨⟨p, halike, hdevice⟩, hlength, -⟩ := touched_execute d links (.actuate .linear ss)
    obtain ⟨hlt, -⟩ := List.getElem?_eq_some_iff.1 hlink
    have hlink' := List.getElem?_eq_getElem (Nat.lt_of_lt_of_eq hlt hlength.symm)
    rcases moves_online h hc hl hlink .linear ss with ⟨-, hnone⟩ |
      ⟨t, first, htargets, htraffic, hafter⟩
    · rw [hnone] at hmove
      cases hmove
    · rw [htraffic] at hmove
      cases hmove
      have hc' : (d.execute links (.actuate .linear ss)).device.connected = true := by
        rw [hdevice]
        exact hc
      have hl' : (d.execute links (.actuate .linear ss)).device.link = some id := by
        rw [hdevice]
        exact hl
      have hagain : (d.execute links (.actuate .linear ss)).device.protocol.capabilities.targets
          (d.execute links (.actuate .linear ss)).device.protocol.vendor .linear ss = .ok [t] := by
        rw [hdevice, halike.capabilities, halike.vendor]
        exact htargets
      rcases moves_online hafter hc' hl' hlink' .linear ss with
        ⟨⟨e, herror⟩, -⟩ | ⟨t', ok', htargets', htraffic', -⟩
      · rw [hagain] at herror
        cases herror
      · rw [hagain] at htargets'
        cases htargets'
        rw [Launch.frame_self] at htraffic'
        exact ⟨ok', htraffic'⟩

/-- **What a stroker's protocol knows of where the stroker is**, after some exchanges that began
with it at 0. -/
structure Tracked (x : Exchange L Unit) : Prop where
  /-- The position kept is that of the last frame handed over, accepted or not. -/
  position : x.device.protocol.dialect =
    .launch (Launch.lastPosition 0 (handed x.traffic)).toUInt32
  /-- Every exchange is a frame whose speed is reckoned from the frame before it. -/
  frames : ∀ pre t post, x.traffic = pre ++ t :: post → ∃ next durationMs ok,
    t = .wrote (Launch.toWrite
      (Launch.frame (Launch.lastPosition 0 (handed pre)) next durationMs)) ok
  /-- As long as the last frame was accepted, that is where the stroker was sent. -/
  settled : ∀ pre post, x.traffic = pre ++ post →
    (∀ t, pre.getLast? = some t → t.refused = false) →
      Launch.lastPosition 0 (handed pre) = Launch.lastPosition 0 (accepted pre)
  /-- The position kept is where the stroker was sent exactly if the frames that were refused
  since lead there too. -/
  exact_iff : x.device.protocol.dialect =
      .launch (Launch.lastPosition 0 (accepted x.traffic)).toUInt32 ↔
    Launch.lastPosition 0 (handed x.traffic) = Launch.lastPosition 0 (accepted x.traffic)
  /-- A move that is tried again, as after a refusal, has the speed 0. -/
  repeats : ∀ ss w ok,
    (x.device.execute x.links (.actuate .linear ss)).traffic = [.wrote w ok] →
    ∃ ok', ((x.device.execute x.links (.actuate .linear ss)).device.execute
        (x.device.execute x.links (.actuate .linear ss)).links (.actuate .linear ss)).traffic =
      [.wrote (Launch.toWrite [w.data.headD 0, 0]) ok']

/-- **Every stroker of a made rule is tracked by what was handed over**, through any uses but raw
writes and whatever its link makes of each frame. -/
theorem tracked_useAll {b : Rulebook} (hb : b.Made) {services : List String}
    (hd : b.create d.identity.name services = .ok d.protocol) (hv : d.protocol.vendor = .launch)
    (links : List L) {us : List Use} (hraw : ∀ u ∈ us, u.raw = false) :
    Tracked (d.useAll links us) := by
  obtain ⟨r, hstrokes, hstroker⟩ :=
    strokes_useAll_of_stroker (Protocol.stroker_of_create hb hd hv) links hraw
  have hposition : (d.useAll links us).device.protocol.dialect =
      .launch (Launch.lastPosition 0 (handed (d.useAll links us).traffic)).toUInt32 := by
    rw [hstrokes.lastPosition_handed]
    exact hstroker.dialect
  refine ⟨hposition, fun pre t post hsplit => ?_, fun pre post hsplit hlast => ?_, ?_,
    fun ss w ok hmove => repeats_of_stroker hstroker _ hmove⟩
  · rw [hsplit] at hstrokes
    obtain ⟨q, hpre, hpost⟩ := hstrokes.split
    rw [hpre.lastPosition_handed]
    cases hpost with
    | move durationMs ok _ => exact ⟨_, durationMs, ok, rfl⟩
  · rw [hsplit] at hstrokes
    obtain ⟨q, hpre, -⟩ := hstrokes.split
    rw [hpre.lastPosition_handed, hpre.lastPosition_accepted hlast]
  · rw [hposition, Dialect.launch.injEq, UInt8.toUInt32_inj]

/-- A stroker of the built-in rules. -/
def launch : Device where
  index := 0
  identity := { kind := "sim", address := "A", name := "Launch" }
  protocol := Protocol.fresh .launch (Rule.capabilitiesOf .launch 0)
  link := some 0

/-- It is sent up, then down again, which is refused, and stopped. -/
theorem tracked_launch :
    Tracked (launch.useAll [({ device := {}, failAt := [2] } : SimulatedLink)]
      [.execute (.actuate .linear [{ index := 0, value := .one }]),
        .execute (.actuate .linear [{ index := 0, value := .zero }]), .stop]) := by
  have hd : Rulebook.builtin.create "Launch" [] = .ok launch.protocol := rfl
  exact tracked_useAll (fun _ hr => Or.inl hr) hd rfl _ (by decide)

/-- **A refused move spoils the next one.** The first move of a stroker, to the far end, is refused
and tried again. Nothing has arrived in between, but the stroker is taken to be at the far end
already, and the second attempt has the speed 0 where the first had the speed 99. -/
theorem refused_move_is_counted :
    (launch.useAll [({ device := {}, failAt := [1] } : SimulatedLink)]
        [.execute (.actuate .linear [{ index := 0, value := .one }])]).traffic =
      [.wrote (Launch.toWrite [99, 99]) false] ∧
    (launch.useAll [({ device := {}, failAt := [1] } : SimulatedLink)]
        [.execute (.actuate .linear [{ index := 0, value := .one }])]).device.protocol.dialect =
      .launch 99 ∧
    (launch.useAll [({ device := {}, failAt := [1] } : SimulatedLink)]
        [.execute (.actuate .linear [{ index := 0, value := .one }]),
          .execute (.actuate .linear [{ index := 0, value := .one }])]).traffic =
      [.wrote (Launch.toWrite [99, 99]) false, .wrote (Launch.toWrite [99, 0]) true] := by
  refine ⟨by decide +kernel, by decide +kernel, ?_⟩
  decide +kernel

end Device

end Haptics
