import Haptics.Proofs.Session.Talk
import Haptics.Session.Worker
/-!
# Silence and signs of life

What each step of a session means for the silence of its client. Most steps have no
bearing on it (`Still`); a message that is taken is a sign of life, unless the
session closes with it (`Heard`); and a session that is closed or whose silence is
claimed takes no messages (`receive_deaf`).
-/

namespace Haptics

namespace Session

variable {s s' : Session}

/-! ## Steps without a bearing -/

/-- `s'` differs from `s` in nothing that bears on the silence of the client. -/
structure Still (s s' : Session) : Prop where
  terms : s'.terms = s.terms
  phase : s'.phase = s.phase
  reason : s'.closeReason = s.closeReason
  claimed : s'.pingClaimed = s.pingClaimed
  activity : s'.lastActivity = s.lastActivity

theorem still_start (s : Session) (emitter : Option Emitter) : s.Still (s.start emitter).1 := by
  unfold start
  split
  · exact ⟨rfl, rfl, rfl, rfl, rfl⟩
  · cases emitter <;> exact ⟨rfl, rfl, rfl, rfl, rfl⟩

theorem still_join (s : Session) (emitter : Option Emitter) : s.Still (s.join emitter).1 :=
  ⟨rfl, rfl, rfl, rfl, rfl⟩

/-- A reply is the word of the server, and no sign of life of its client. -/
theorem still_reply (s : Session) (id : UInt32) (payload : Payload) :
    s.Still (s.reply id payload).1 := by
  unfold reply
  split <;> exact ⟨rfl, rfl, rfl, rfl, rfl⟩

/-- **Work has no bearing on the silence of the client.** -/
theorem still_workStep {L : Type} [Link L] {f : Fleet L} {turn : Turn L}
    (h : s.workStep f = some turn) : s.Still turn.session := by
  unfold workStep at h
  cases hstage : s.stage with
  | settled w result =>
    simp only [hstage] at h
    cases h
    have hreply := still_reply s w.id result
    exact ⟨hreply.terms, hreply.phase, hreply.reason, hreply.claimed, hreply.activity⟩
  | _ =>
    simp only [hstage] at h
    repeat' split at h
    all_goals cases h
    all_goals exact ⟨rfl, rfl, rfl, rfl, rfl⟩

/-- What a request asks for has no bearing on the silence; that it came has. -/
theorem still_accept (s : Session) (id : UInt32) (entries : List DeviceEntry) (r : Request) :
    s.Still (s.accept id entries r).session := by
  cases r with
  | deviceList =>
    have hreply := still_reply { s with outstanding := s.outstanding ++ [id] } id
      (.deviceListReply entries)
    exact ⟨hreply.terms, hreply.phase, hreply.reason, hreply.claimed, hreply.activity⟩
  | task t => exact ⟨rfl, rfl, rfl, rfl, rfl⟩

/-! ## Signs of life -/

/-- A session takes a message: it goes on, and the message counts as a sign of
life, or it closes. -/
structure Heard (s s' : Session) (now : Time) : Prop where
  terms : s'.terms = s.terms
  claimed : s'.pingClaimed = s.pingClaimed
  outcome : s'.phase = .ready ∧ s'.lastActivity = now ∨ s'.phase = .closed

@[simp] theorem phase_close (s : Session) (reason : ErrorCode) :
    (s.close reason).1.phase = .closed := by
  unfold close
  split
  · assumption
  · rfl

theorem closeReason_close (s : Session) (reason : ErrorCode) :
    (s.close reason).1.closeReason = if s.phase = .closed then s.closeReason else reason := by
  unfold close
  split <;> rfl

/-- A violation closes the session, so its time is of no account. -/
theorem heard_violate (s : Session) (id : UInt32) (v : Violation) (now : Time) :
    s.Heard (s.violate id v).session now :=
  ⟨(talks_violate s id v).terms, (talks_violate s id v).claimed, Or.inr (phase_close s v.code)⟩

/-- A handshake starts the interval, or the session closes. -/
theorem heard_greet (s : Session) (m : Message) (now : Time) :
    s.Heard (s.greet m now).session now := by
  refine ⟨(talks_greet s m now).terms, (talks_greet s m now).claimed, ?_⟩
  unfold greet
  split
  · split
    · exact (heard_violate s _ _ now).outcome
    · dsimp only
      split
      · exact (heard_violate s _ _ now).outcome
      · exact Or.inl ⟨rfl, rfl⟩
  · exact (heard_violate s _ _ now).outcome

/-- **Every message is a sign of life**, whatever it says. -/
theorem heard_serve (hs : s.phase = .ready) (m : Message) (now : Time)
    (entries : List DeviceEntry) : s.Heard (s.serve m now entries).session now := by
  refine ⟨(talks_serve s m now entries).terms, (talks_serve s m now entries).claimed, ?_⟩
  unfold serve
  dsimp only
  split
  · exact Or.inl ⟨hs, rfl⟩
  · exact Or.inl ⟨hs, rfl⟩
  · exact (heard_violate _ _ _ now).outcome
  · split
    · exact (heard_violate _ _ _ now).outcome
    · split
      · exact (heard_violate _ _ _ now).outcome
      · split
        · exact (heard_violate _ _ _ now).outcome
        · have hstill := still_accept { s with lastActivity := now } m.id entries
          exact Or.inl ⟨(hstill _).phase.trans hs, (hstill _).activity⟩

@[simp] theorem lastActivity_close (s : Session) (reason : ErrorCode) :
    (s.close reason).1.lastActivity = s.lastActivity := by
  unfold close
  split <;> rfl

/-- The interval starts anew even with a message that closes the session. -/
theorem lastActivity_serve (s : Session) (m : Message) (now : Time)
    (entries : List DeviceEntry) : (s.serve m now entries).session.lastActivity = now := by
  unfold serve
  dsimp only
  split
  · rfl
  · rfl
  · exact lastActivity_close _ _
  · split
    · exact lastActivity_close _ _
    · split
      · exact lastActivity_close _ _
      · split
        · exact lastActivity_close _ _
        · exact (still_accept _ _ _ _).activity

/-- **Every message that is taken is a sign of life**, or the session closes with it. -/
theorem heard_receive (ho : s.open? = true) (m : Message) (now : Time)
    (entries : List DeviceEntry) : s.Heard (s.receive m now entries).session now := by
  rw [receive, if_pos ho]
  unfold answer
  split
  · exact heard_greet s m now
  · rename_i hne
    refine heard_serve ?_ m now entries
    simp only [open?, Bool.and_eq_true, decide_eq_true_eq] at ho
    cases hp : s.phase with
    | awaitingHandshake => exact absurd hp hne
    | ready => rfl
    | closed => exact absurd hp ho.1

/-- **A session that takes no messages is deaf**: nothing comes of them. -/
theorem receive_deaf (ho : s.open? = false) (m : Message) (now : Time)
    (entries : List DeviceEntry) :
    s.receive m now entries = { alive := false, session := s } := by
  rw [receive, ho]
  rfl

/-- A session takes no messages once it is closed or the silence is claimed. -/
theorem open?_eq_false (h : s.phase = .closed ∨ s.pingClaimed = true) : s.open? = false := by
  rcases h with h | h <;> simp [open?, h]

/-! ## Claims and stops -/

/-- A client is silent if it is served, a limit is set, nobody has claimed the silence yet, and
more time than the limit has passed. -/
theorem silent_iff {now : Time} :
    s.silent now = true ↔
      s.phase = .ready ∧ s.terms.maxPingTimeMs ≠ 0 ∧ s.pingClaimed = false ∧
        (s.terms.maxPingTimeMs.toNat : Int) < s.silentMs now := by
  simp [silent, and_assoc]

/-- A claim succeeds exactly if the client is silent. -/
theorem claim_fst (s : Session) (now : Time) : (s.claim now).1 = s.silent now := by
  cases hs : s.silent now <;> simp [claim, hs]

theorem checkPing_fst {L : Type} [Link L] (s : Session) (f : Fleet L) (now : Time) :
    (s.checkPing f now).1 = s.silent now := by
  cases hs : s.silent now <;> simp [checkPing, claim, hs]

/-- The stop of a session is a stop of its scope. -/
theorem safetyStop_eq {L : Type} [Link L] (s : Session) (f : Fleet L) :
    s.safetyStop f =
      match s.terms.stopScope with
      | .global => f.stopAll
      | .session => f.stopDevices (s.commanded.map UInt32.toNat) := by
  unfold safetyStop stopTargets
  cases s.terms.stopScope <;> rfl

end Session

end Haptics
