import Haptics.Proofs.Device.Exchange
/-!
# What a command comes to

A command can fail at three places: the protocol finds that it asks for something
that the device cannot do, the link refuses a write or has no reply, or the reply
holds nothing. `Fault.OfCommand` sets the first apart from the others, and
`Line.Ran` says what each leaves of the line: `ran_execute` is the main statement,
that a command is rejected before anything happens, fails on the link, or is done.
-/

namespace Haptics

/-! ## Faults of the command -/

/-- The command asks for something that the device cannot do. -/
def Fault.OfCommand (e : Fault) : Prop :=
  e.code = .invalidActuatorIndex ∨ e.code = .unsupportedCommand ∨ e.code = .outOfRange

theorem Fault.OfCommand.code_ne {e : Fault} (h : e.OfCommand) :
    e.code ≠ .transportError ∧ e.code ≠ .unknownDevice ∧ e.code ≠ .deviceNotConnected := by
  rcases h with h | h | h <;> rw [h] <;> decide

namespace Capabilities

variable {c : Capabilities} {vendor : Vendor} {kind : ActuatorKind} {e : Fault}

theorem ofCommand_locateOne {seen : List UInt32} {s : Setting}
    (h : c.locateOne vendor kind seen s = .error e) : e.OfCommand := by
  unfold locateOne at h
  split at h
  · cases h
    exact Or.inl rfl
  · split at h
    · cases h
      exact Or.inr (Or.inl rfl)
    · split at h
      · cases h
        exact Or.inr (Or.inl rfl)
      · split at h
        · cases h
        · cases h
          exact Or.inr (Or.inr rfl)

theorem ofCommand_locate {seen : List UInt32} {ss : List Setting}
    (h : c.locate vendor kind seen ss = .error e) : e.OfCommand := by
  induction ss generalizing seen with
  | nil => cases h
  | cons s ss ih =>
    rw [locate] at h
    split at h
    · rename_i e' he
      cases h
      exact ofCommand_locateOne he
    · split at h
      · rename_i e' he
        cases h
        exact ih he
      · cases h

/-- What cannot be located in the capabilities is the fault of the command, not of the link. -/
theorem ofCommand_targets {ss : List Setting} (h : c.targets vendor kind ss = .error e) :
    e.OfCommand := by
  unfold targets at h
  split at h
  · cases h
    exact Or.inr (Or.inl rfl)
  · split at h
    · cases h
      exact Or.inr (Or.inl rfl)
    · exact ofCommand_locate h

end Capabilities

theorem Lovense.ofCommand_encode {c : Capabilities} {clockwise : Bool} {kind : ActuatorKind}
    {ts : List Target} {e : Fault} (h : Lovense.encode c clockwise kind ts = .error e) :
    e.OfCommand := by
  induction ts with
  | nil => cases h
  | cons t ts ih =>
    rw [encode] at h
    split at h
    · rename_i e' he
      cases h
      unfold framesFor at he
      split at he
      · split at he <;> cases he
      · split at he <;> cases he
      · cases he
        exact Or.inr (Or.inl rfl)
    · split at h
      · rename_i e' he
        cases h
        exact ih he
      · cases h

namespace Protocol

variable {p : Protocol} {e : Fault}

/-- What makes writes of the frames of a vendor passes their faults on. -/
theorem eq_error_of_map {α β : Type} {g : α → β} {x : Except Fault α}
    (h : x.map g = .error e) : x = .error e := by
  cases x with
  | error e' =>
    cases h
    rfl
  | ok a => cases h

/-- So is what the protocol cannot encode, in every dialect. -/
theorem ofCommand_encode {kind : ActuatorKind} {ts : List Target}
    (h : p.encode kind ts = .error e) : e.OfCommand := by
  -- three of the vendors know one kind of actuator each
  have hkind {α : Type} {known : Prop} [Decidable known] {frames : α} {v : Vendor}
      (h : (if known then .ok frames else .error (Fault.unsupportedKind v kind)) =
        (.error e : Except Fault α)) : e.OfCommand := by
    split at h
    · cases h
    · cases h
      exact Or.inr (Or.inl rfl)
  unfold encode at h
  split at h
  · exact Lovense.ofCommand_encode (eq_error_of_map h)
  · exact hkind (eq_error_of_map h)
  · exact hkind (eq_error_of_map h)
  · exact hkind (eq_error_of_map h)

/-- **What cannot be translated is the fault of the command.** -/
theorem ofCommand_translate {c : Command} (h : p.translate c = .error e) : e.OfCommand := by
  cases c with
  | actuate kind ss =>
    change p.translateSettings kind ss = _ at h
    unfold translateSettings at h
    split at h
    · rename_i e' he
      cases h
      exact Capabilities.ofCommand_targets he
    · split at h
      · cases h
      · split at h
        · rename_i e' he
          cases h
          exact ofCommand_encode he
        · cases h
  | rawWrite index data withResponse =>
    change p.translateRaw index data withResponse = _ at h
    unfold translateRaw at h
    split at h
    · cases h
      exact Or.inl rfl
    · split at h
      · cases h
        exact Or.inr (Or.inl rfl)
      · split at h
        · cases h
          exact Or.inr (Or.inr rfl)
        · cases h
  | readSensor index =>
    cases h
    exact Or.inr (Or.inl rfl)
  | stop => cases h

theorem ofCommand_sensorRequest {index : UInt32} (h : p.sensorRequest index = .error e) :
    e.OfCommand := by
  unfold sensorRequest at h
  split at h
  · cases h
    exact Or.inl rfl
  · split at h
    · split at h
      · cases h
      · cases h
        exact Or.inr (Or.inl rfl)
    · cases h
      exact Or.inr (Or.inl rfl)

end Protocol

/-! ## Commands on a line -/

namespace Line

variable {L : Type} [Link L]

/-- **What a command comes to**: the answer, and the line afterwards. -/
inductive Ran (line : Line L) (c : Command) : Except Fault (List Reading) → Line L → Prop
  /-- The command is at fault, and nothing happens. -/
  | rejected {e : Fault} (he : e.OfCommand) : Ran line c (.error e) line
  /-- The link refuses something, or the reply holds no reading. -/
  | failed {e : Fault} {line' : Line L} (he : e.code = .transportError) :
    Ran line c (.error e) line'
  /-- The command is done. A sensor read has given a reading. -/
  | done {readings : List Reading} {line' : Line L}
    (hread : ∀ index, c = .readSensor index → readings ≠ []) : Ran line c (.ok readings) line'

theorem ran_readSensor (line : Line L) (device : String) (index : UInt32) :
    line.Ran (.readSensor index) (line.readSensor device index).1
      (line.readSensor device index).2 := by
  unfold readSensor
  split
  · rename_i e he
    exact .rejected (Protocol.ofCommand_sensorRequest he)
  · split
    · exact .failed rfl
    · split
      · exact .failed rfl
      · dsimp only
        split
        · exact .failed rfl
        · rename_i readings hne
          exact .done fun _ _ hnil => hne hnil

/-- The fault of a write that is refused is the link's. -/
theorem code_writeAll {line line' : Line L} {device : String} {ws : List Write} {e : Fault}
    (h : line.writeAll device ws = (some e, line')) : e.code = .transportError := by
  induction ws generalizing line with
  | nil => cases h
  | cons w ws ih =>
    rw [writeAll] at h
    split at h
    · rename_i e' line'' hw
      cases h
      rcases wrote_write line device w with ⟨hnone, -⟩ | ⟨why, hsome, -⟩
      · rw [hw] at hnone
        cases hnone
      · rw [hw] at hsome
        cases hsome
        rfl
    · exact ih h

/-- **A command is rejected before anything happens, fails on the link, or is done.** -/
theorem ran_execute (line : Line L) (device : String) (c : Command) :
    line.Ran c (line.execute device c).1 (line.execute device c).2 := by
  unfold execute
  split
  · exact ran_readSensor line device _
  · rename_i hno
    split
    · rename_i e he
      exact .rejected (Protocol.ofCommand_translate he)
    · split
      · rename_i e line' hw
        exact .failed (code_writeAll hw)
      · exact .done fun index hc => absurd hc (hno index)

end Line

end Haptics
