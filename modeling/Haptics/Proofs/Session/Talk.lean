import Haptics.Session.Conversation
import Haptics.Session.Listening
import Haptics.Session.Silence
/-!
# What talking changes

Everything that a session does besides the steps of its worker and the claim of
a silence: it starts and ends, takes messages, replies and closes. `Talks` states
what none of this changes, and that queued work names only devices that the
session has on record as commanded.
-/

namespace Haptics

/-- A number is entered, and those before it stay. -/
theorem mem_enterOnce {d n : UInt32} {ds : List UInt32} :
    d ∈ enterOnce n ds ↔ d = n ∨ d ∈ ds := by
  induction ds with
  | nil => simp [enterOnce]
  | cons m ds ih =>
    unfold enterOnce
    split
    · simp
    · split
      · rename_i heq
        subst heq
        simp
      · rw [List.mem_cons, ih, List.mem_cons]
        constructor
        · rintro (h | h | h)
          · exact Or.inr (Or.inl h)
          · exact Or.inl h
          · exact Or.inr (Or.inr h)
        · rintro (h | h | h)
          · exact Or.inr (Or.inl h)
          · exact Or.inl h
          · exact Or.inr (Or.inr h)

namespace Session

variable {s s' s'' : Session}

/-- The device that some work commands, if it does, is on record. -/
def Recorded (s : Session) (w : Work) : Prop :=
  ∀ device c, w.task = .command device c → device ∈ s.commanded

/-- `s'` is what is left of `s` after some talk. -/
structure Talks (s s' : Session) : Prop where
  terms : s'.terms = s.terms
  claimed : s'.pingClaimed = s.pingClaimed
  stage : s'.stage = s.stage
  commanded : ∀ d ∈ s.commanded, d ∈ s'.commanded
  work : ∀ w ∈ s'.work, w ∈ s.work ∨ s'.Recorded w

theorem Talks.refl (s : Session) : s.Talks s :=
  ⟨rfl, rfl, rfl, fun _ hd => hd, fun _ hw => Or.inl hw⟩

/-- Work stays on record while the record grows. -/
theorem Recorded.mono (h : ∀ d ∈ s.commanded, d ∈ s'.commanded) {w : Work} (hw : s.Recorded w) :
    s'.Recorded w :=
  fun device c ht => h device (hw device c ht)

/-- Talk goes on: what queued up at first is still on record after more talk. -/
theorem Talks.trans (h₁ : s.Talks s') (h₂ : s'.Talks s'') : s.Talks s'' where
  terms := h₂.terms.trans h₁.terms
  claimed := h₂.claimed.trans h₁.claimed
  stage := h₂.stage.trans h₁.stage
  commanded d hd := h₂.commanded d (h₁.commanded d hd)
  work w hw := by
    rcases h₂.work w hw with hw | hw
    · rcases h₁.work w hw with hw | hw
      · exact Or.inl hw
      · exact Or.inr (hw.mono h₂.commanded)
    · exact Or.inr hw

theorem close_closed (h : s.phase = .closed) (reason : ErrorCode) : s.close reason = (s, []) :=
  if_pos h

/-- A close drops the work that waits, and stops nothing that the worker is at. -/
theorem talks_close (s : Session) (reason : ErrorCode) : s.Talks (s.close reason).1 := by
  unfold close
  split
  · exact Talks.refl s
  · exact ⟨rfl, rfl, rfl, fun _ hd => hd, fun _ hw => absurd hw List.not_mem_nil⟩

theorem talks_violate (s : Session) (id : UInt32) (v : Violation) :
    s.Talks (s.violate id v).session := talks_close s v.code

/-- A reply settles an id, and nothing that waits. -/
theorem talks_reply (s : Session) (id : UInt32) (payload : Payload) :
    s.Talks (s.reply id payload).1 := by
  unfold reply
  split
  · exact Talks.refl s
  · exact ⟨rfl, rfl, rfl, fun _ hd => hd, fun _ hw => Or.inl hw⟩

theorem talks_start (s : Session) (emitter : Option Emitter) : s.Talks (s.start emitter).1 := by
  unfold start
  split
  · exact Talks.refl s
  · cases emitter <;> exact ⟨rfl, rfl, rfl, fun _ hd => hd, fun _ hw => Or.inl hw⟩

theorem talks_join (s : Session) (emitter : Option Emitter) : s.Talks (s.join emitter).1 :=
  ⟨rfl, rfl, rfl, fun _ hd => hd, fun _ hw => Or.inl hw⟩

/-- A handshake, in whatever way it ends, brings no work. -/
theorem talks_greet (s : Session) (m : Message) (now : Time) :
    s.Talks (s.greet m now).session := by
  unfold greet
  split
  · split
    · exact talks_violate s _ _
    · dsimp only
      split
      · exact talks_violate s _ _
      · exact ⟨rfl, rfl, rfl, fun _ hd => hd, fun _ hw => Or.inl hw⟩
  · exact talks_violate s _ _

/-- **A task enters the queue together with the record of its device.** -/
theorem talks_accept (s : Session) (id : UInt32) (entries : List DeviceEntry) (r : Request) :
    s.Talks (s.accept id entries r).session := by
  cases r with
  | deviceList =>
    have hfirst : s.Talks { s with outstanding := s.outstanding ++ [id] } :=
      ⟨rfl, rfl, rfl, fun _ hd => hd, fun _ hw => Or.inl hw⟩
    exact hfirst.trans (talks_reply _ id _)
  | task t =>
    have hsub : ∀ d ∈ s.commanded, d ∈ (s.accept id entries (.task t)).session.commanded := by
      intro d hd
      cases t with
      | command device c => exact mem_enterOnce.2 (Or.inr hd)
      | stopAll => exact hd
    refine ⟨rfl, rfl, rfl, hsub, fun w hw => ?_⟩
    rcases List.mem_append.1 hw with hw | hw
    · exact Or.inl hw
    · refine Or.inr fun device c ht => ?_
      rw [List.mem_singleton.1 hw] at ht
      cases ht
      exact mem_enterOnce.2 (Or.inl rfl)

/-- Of all messages only tasks bring work, and those with their devices on record. -/
theorem talks_serve (s : Session) (m : Message) (now : Time) (entries : List DeviceEntry) :
    s.Talks (s.serve m now entries).session := by
  have hlive : s.Talks { s with lastActivity := now } :=
    ⟨rfl, rfl, rfl, fun _ hd => hd, fun _ hw => Or.inl hw⟩
  unfold serve
  dsimp only
  split
  · exact hlive
  · exact hlive
  · exact hlive.trans (talks_violate _ _ _)
  · split
    · exact hlive.trans (talks_violate _ _ _)
    · split
      · exact hlive.trans (talks_violate _ _ _)
      · split
        · exact hlive.trans (talks_violate _ _ _)
        · exact hlive.trans (talks_accept _ _ _ _)

/-- **No message changes what the worker is at**, or the claim of a silence. -/
theorem talks_answer (s : Session) (phase : Phase) (m : Message) (now : Time)
    (entries : List DeviceEntry) : s.Talks (s.answer phase m now entries).session := by
  unfold answer
  split
  · exact talks_greet s m now
  · exact talks_serve s m now entries

end Session

end Haptics
