import Haptics.Link.Simulated
import Haptics.Proofs.Session.Scene
import Haptics.Proofs.Session.Visit
/-!
# Errors and what becomes of the session

The category of an error decides what becomes of the session. A violation of the
protocol is answered and ends the session, in one go; every other error leaves it
ready, and has its code from a device, from a link or from a message that was not
understood. `Session.Verdict` is the invariant, that a violation is the last that
a session says, and `Visit.governed_of_run` the main statement.
-/

namespace Haptics

open Entry

/-! ## Violations in a log -/

/-- Whether a message is an error that reports a violation. -/
def Message.violates (m : Message) : Bool :=
  match m.payload with
  | .error code _ => code.category = .protocolViolation
  | _ => false

theorem Payload.Mild.violates {m : Message} (h : m.payload.Mild) : m.violates = false := by
  unfold Message.violates
  split
  · rename_i code text hm
    exact decide_eq_false (h code text hm).category_ne
  · rfl

theorem Violation.violates (v : Violation) (id : UInt32) :
    Message.violates ⟨id, .error v.code v.message⟩ = true := decide_eq_true v.category

theorem DeviceEvent.mild_message (e : DeviceEvent) : e.message.payload.Mild := by
  cases e <;> exact nofun

namespace Session

variable {s s' : Session} {log es : List Entry}

/-- The entries of a violation. -/
def verdict (m : Message) (v : Violation) : List Entry :=
  [.received m false, .sent ⟨m.id, .error v.code v.message⟩, .closed v.code]

/-- **What a log says of violations**: there was none, or there was one, which closed
the session, and messages were turned away since. -/
inductive Verdict (s : Session) : List Entry → Prop
  | pending {log : List Entry} (h : ∀ m ∈ messages log, m.payload.Mild) : Verdict s log
  | given {before : List Entry} {m : Message} {v : Violation} {late : List Message}
    (hbefore : ∀ m' ∈ messages before, m'.payload.Mild) (hphase : s.phase = .closed)
    (hreason : s.closeReason = v.code) :
    Verdict s (before ++ verdict m v ++ late.map (.received · false))

/-- **Errors are mild, but for violations**: all that is said in one move is mild, or
the move is a violation. -/
theorem Does.judged (h : s.Does es s') (hresult : ∀ p, s.stage.result? = some p → p.Mild) :
    (∃ m v, es = verdict m v ∧ s'.phase = .closed ∧ s'.closeReason = v.code) ∨
      ∀ m ∈ messages es, m.payload.Mild := by
  have hnone : ∀ m ∈ messages [], m.payload.Mild := nofun
  cases h with
  | @took m r h =>
    cases h with
    | refused => exact Or.inr nofun
    | @violated v => exact Or.inl ⟨m, v, rfl, rfl, rfl⟩
    | answered _ _ _ _ houtputs =>
      right
      intro m' hm'
      rw [mem_messages, List.mem_cons, sent_mem_map] at hm'
      rcases hm' with hm' | hm'
      · cases hm'
      · obtain ⟨p, hp, hroutine⟩ := houtputs _ hm'
        cases hp
        exact hroutine.mild
  | worked h =>
    right
    cases h with
    | took => exact hnone
    | moved => exact hnone
    | @replied w p _ _ hstage =>
      intro m hm
      rw [mem_messages, sent_mem_map, List.mem_singleton] at hm
      cases hm
      exact hresult p (by rw [hstage]; rfl)
  | switched => exact Or.inr hnone
  | @forwarded e =>
    right
    intro m hm
    rw [mem_messages, List.mem_singleton] at hm
    cases hm
    exact e.mild_message
  | closed => exact Or.inr nofun

theorem Verdict.does (hv : s.Verdict log) (h : s.Does es s')
    (hresult : ∀ p, s.stage.result? = some p → p.Mild) : s'.Verdict (log ++ es) := by
  cases hv with
  | pending hlog =>
    rcases h.judged hresult with ⟨m, v, rfl, hphase, hreason⟩ | hmild
    · have hgiven : s'.Verdict
          (log ++ verdict m v ++ ([] : List Message).map (.received · false)) :=
        .given hlog hphase hreason
      rw [List.map_nil, List.append_nil] at hgiven
      exact hgiven
    · refine .pending fun m hm => ?_
      rw [messages_append, List.mem_append] at hm
      exact hm.elim (hlog m) (hmild m)
  | @given before m v late hbefore hphase hreason =>
    have hlingers := h.lingers hphase
    obtain ⟨late', rfl⟩ := hlingers.late
    rw [List.append_assoc, ← List.map_append]
    exact .given hbefore hlingers.closed (hlingers.reason.trans hreason)

/-- A violation is reported once. -/
theorem Verdict.once (hv : s.Verdict log) : (messages log).countP Message.violates ≤ 1 := by
  have hnone {ms : List Message} (h : ∀ m ∈ ms, m.payload.Mild) :
      ms.countP Message.violates = 0 := by
    refine List.countP_eq_zero.2 fun m hm => ?_
    rw [(h m hm).violates]
    exact Bool.false_ne_true
  cases hv with
  | pending h =>
    rw [hnone h]
    exact Nat.zero_le 1
  | @given before m v late hbefore _ _ =>
    rw [messages_append, messages_append, messages_late, List.append_nil, List.countP_append,
      hnone hbefore, Nat.zero_add]
    exact List.countP_le_length

/-- **A violation answers the message before it, and only the close follows.** -/
theorem Verdict.violation (hv : s.Verdict log) {pre post : List Entry} {m : Message}
    (hlog : log = pre ++ .sent m :: post) (hm : m.violates = true) :
    ∃ before r code text, ∃ late : List Message, pre = before ++ [.received r false] ∧
      m = ⟨r.id, .error code text⟩ ∧ post = .closed code :: late.map (.received · false) ∧
      s.phase = .closed ∧ s.closeReason = code := by
  have hnot {es : List Entry} (h : ∀ m ∈ messages es, m.payload.Mild) : .sent m ∉ es := by
    intro hmem
    rw [(h m (mem_messages.2 hmem)).violates] at hm
    cases hm
  cases hv with
  | pending h =>
    refine absurd ?_ (hnot h)
    rw [hlog]
    simp
  | @given before r v late hbefore hphase hreason =>
    rw [List.append_assoc] at hlog
    rcases split_append hlog with ⟨mid, hmid, -⟩ | ⟨mid, hmid, hpre⟩
    · refine absurd ?_ (hnot hbefore)
      rw [hmid]
      simp
    · -- the violation is the second entry of the verdict
      rcases List.cons_eq_append_iff.1 hmid with ⟨-, hhead⟩ | ⟨mid', rfl, htail⟩
      · cases hhead
      · rcases List.cons_eq_append_iff.1 htail with ⟨rfl, hhead⟩ | ⟨mid'', -, hrest⟩
        · cases hhead
          exact ⟨before, r, v.code, v.message, late, hpre, rfl, rfl, hphase, hreason⟩
        · -- nothing is sent after it
          have hmem : Entry.sent m ∈ mid'' ++ .sent m :: post := by simp
          rw [← hrest] at hmem
          simp at hmem

/-- Every other error is mild. -/
theorem Verdict.mild (hv : s.Verdict log) {m : Message} (hm : m ∈ messages log) :
    m.violates = true ∨ m.payload.Mild := by
  cases hv with
  | pending h => exact Or.inr (h m hm)
  | @given before r v late hbefore _ _ =>
    rw [messages_append, messages_append, messages_late, List.append_nil, List.mem_append] at hm
    rcases hm with hm | hm
    · exact Or.inr (hbefore m hm)
    · rw [List.mem_singleton.1 hm]
      exact Or.inl (v.violates r.id)

/-- **What every move keeps.** -/
structure Tempered (s : Session) (log : List Entry) : Prop where
  result : ∀ p, s.stage.result? = some p → p.Mild
  /-- Nobody waits for a reply before the handshake. -/
  fresh : s.phase = .awaitingHandshake → s.outstanding = []
  verdict : s.Verdict log

theorem Does.result (h : s.Does es s') (hresult : ∀ p, s.stage.result? = some p → p.Mild) :
    ∀ p, s'.stage.result? = some p → p.Mild := by
  cases h with
  | took h =>
    cases h with
    | refused => exact hresult
    | violated => exact hresult
    | answered _ _ hlike =>
      rw [hlike.2.2]
      exact hresult
  | worked h =>
    cases h with
    | took => exact nofun
    | moved _ hmoved =>
      intro p hp
      rcases hmoved p hp with hold | hmild
      · exact hresult p hold
      · exact hmild
    | replied => exact nofun
  | switched => exact hresult
  | forwarded => exact hresult
  | closed => exact hresult

theorem Does.fresh (h : s.Does es s') (hfresh : s.phase = .awaitingHandshake → s.outstanding = []) :
    s'.phase = .awaitingHandshake → s'.outstanding = [] := by
  cases h with
  | took h =>
    cases h with
    | refused => exact hfresh
    | violated => exact nofun
    | answered _ hready =>
      intro hphase
      rw [hready] at hphase
      cases hphase
  | worked h =>
    cases h with
    | took => exact hfresh
    | moved => exact hfresh
    | @replied w _ _ hid _ =>
      intro hphase
      have hnil : s.outstanding = [] := hfresh hphase
      rw [hnil] at hid
      exact absurd hid List.not_mem_nil
  | switched => exact hfresh
  | forwarded => exact hfresh
  | closed => exact nofun

/-- **What the worker sends is mild, and the session is ready.** -/
theorem Tempered.worked (ht : s.Tempered log) {outputs : List Output}
    (h : s.Worked s' outputs) {m : Message} (hm : .sent m ∈ outputs) :
    m.payload.Mild ∧ s'.phase = .ready := by
  cases h with
  | took => exact absurd hm List.not_mem_nil
  | moved => exact absurd hm List.not_mem_nil
  | @replied w p hopen hid hstage =>
    have hsent := List.mem_singleton.1 hm
    cases hsent
    refine ⟨ht.result p (by rw [hstage]; rfl), ?_⟩
    change s.phase = .ready
    cases hphase : s.phase with
    | awaitingHandshake =>
      -- somebody waits for the reply, so the handshake is over
      rw [ht.fresh hphase] at hid
      exact absurd hid List.not_mem_nil
    | ready => rfl
    | closed => exact absurd hphase hopen

theorem Tempered.does (ht : s.Tempered log) (h : s.Does es s') : s'.Tempered (log ++ es) where
  result := h.result ht.result
  fresh := h.fresh ht.fresh
  verdict := ht.verdict.does h ht.result

end Session

/-! ## Whole runs -/

namespace Visit

open Session

variable {L : Type} [Link L] {x : Visit L}

/-- **How errors govern a session**, at a point that a run has led to. -/
structure Governed (x : Visit L) : Prop where
  /-- A violation is reported once. -/
  once : (messages x.log).countP Message.violates ≤ 1
  /-- It answers the message that was just handled; after it the session is closed under
  the code that it reports, and nothing is sent any more. -/
  violation : ∀ pre m post, x.log = pre ++ .sent m :: post → m.violates = true →
    ∃ before r code text, ∃ late : List Message, pre = before ++ [.received r false] ∧
      m = ⟨r.id, .error code text⟩ ∧ post = .closed code :: late.map (.received · false) ∧
      x.session.phase = .closed ∧ x.session.closeReason = code
  /-- A message that closes the session does so by a violation. -/
  closes : ∀ m now, x.session.phase ≠ .closed →
    (x.step (.receive m now)).session.phase = .closed →
      ∃ code text, code.category = .protocolViolation ∧
        (x.step (.receive m now)).log = x.log ++
          [.received m false, .sent ⟨m.id, .error code text⟩, .closed code] ∧
        (x.step (.receive m now)).session.closeReason = code
  /-- What the worker has as its result is no violation, sent or not. -/
  result : ∀ p, x.session.stage.result? = some p → p.Mild
  /-- What it sends is none, and leaves the session ready. -/
  work : ∀ now m es, (x.step (.work now)).log = x.log ++ es → .sent m ∈ es →
    m.payload.Mild ∧ (x.step (.work now)).session.phase = .ready
  /-- Nor is the answer to a message that is not understood. -/
  puzzled : ∀ m now, m.payload = .unrecognized → x.session.Serving →
    ∃ code text, code.Mild ∧ (x.step (.receive m now)).log = x.log ++
        [.received m true, .sent ⟨m.id, .error code text⟩] ∧
      (x.step (.receive m now)).session.phase = .ready
  /-- There are no other errors. -/
  mild : ∀ m ∈ messages x.log, m.violates = true ∨ m.payload.Mild

/-- A message closes a session by a violation only. -/
theorem closes_receive (x : Visit L) (m : Message) (now : Time)
    (hopen : x.session.phase ≠ .closed)
    (hclosed : (x.step (.receive m now)).session.phase = .closed) :
    ∃ code text, code.category = .protocolViolation ∧
      (x.step (.receive m now)).log = x.log ++
        [.received m false, .sent ⟨m.id, .error code text⟩, .closed code] ∧
      (x.step (.receive m now)).session.closeReason = code := by
  have htook := x.session.took_receive m now x.fleet.entries
  simp only [step] at hclosed ⊢
  generalize x.session.receive m now x.fleet.entries = r at htook hclosed ⊢
  cases htook with
  | refused => exact absurd hclosed hopen
  | @violated v => exact ⟨v.code, v.message, v.category, rfl, rfl⟩
  | answered _ hready =>
    rw [hready] at hclosed
    cases hclosed

/-- What the worker sends in a step. -/
theorem mild_work (ht : x.session.Tempered x.log) {now : DeviceEvent → Int} {m : Message}
    {es : List Entry} (hlog : (x.step (.work now)).log = x.log ++ es) (hm : .sent m ∈ es) :
    m.payload.Mild ∧ (x.step (.work now)).session.phase = .ready := by
  simp only [step] at hlog ⊢
  cases hwork : x.session.workStep x.fleet with
  | none =>
    rw [hwork] at hlog
    have hnil : es = [] := by simpa using hlog.symm
    rw [hnil] at hm
    exact absurd hm List.not_mem_nil
  | some turn =>
    rw [hwork] at hlog
    have hes : turn.outputs.map Output.entry = es := List.append_cancel_left hlog
    rw [← hes, sent_mem_map] at hm
    exact ht.worked (worked_workStep hwork) hm

theorem Tempered.governed (ht : x.session.Tempered x.log) : Governed x where
  once := ht.verdict.once
  violation pre m post hlog hm := ht.verdict.violation hlog hm
  closes m now := closes_receive x m now
  result := ht.result
  work now m es := mild_work ht
  puzzled m now hm hs := by
    simp only [step]
    rw [receive_unrecognized hs hm]
    exact ⟨.unrecognizedMessage, _, ⟨by decide, Or.inl rfl⟩, rfl, hs.1⟩
  mild _ := ht.verdict.mild

/-- **The category of an error governs the session**, in every run, with any fleet and
any links. -/
theorem governed_of_run (name : String) (terms : Terms) (t : Time) (f : Fleet L) (a : Audience)
    (moves : List (Move L)) : Governed ((begin name terms t f a).run moves) := by
  have hbegin : Tempered (begin name terms t f a).session (begin name terms t f a).log :=
    ⟨nofun, fun _ => rfl, .pending nofun⟩
  have hrun : Tempered ((begin name terms t f a).run moves).session
      ((begin name terms t f a).run moves).log :=
    run_induction (fun _ _ _ _ ht hdoes => ht.does hdoes) hbegin moves
  exact Tempered.governed hrun

/-- The session survives a command to a device that is not there, but not an id that is
used twice. -/
example :
    ((begin "client" {} 0 ({} : Fleet SimulatedLink) (.opening 0 0)).run
      ([.start, .receive ⟨1, .handshakeRequest "c" 1 2⟩ 0,
          .receive ⟨2, .deviceCommand 0 .stop⟩ 1] ++
        List.replicate 5 (.work fun _ => 0) ++
        [.receive ⟨3, .stopAllRequest⟩ 2, .receive ⟨3, .stopAllRequest⟩ 3])).log =
      [.received ⟨1, .handshakeRequest "c" 1 2⟩ true,
        .sent ⟨1, .handshakeReply "tactile" 2 1000⟩,
        .received ⟨2, .deviceCommand 0 .stop⟩ true,
        .sent ⟨2, .error .unknownDevice "Unknown device index 0"⟩,
        .received ⟨3, .stopAllRequest⟩ true, .received ⟨3, .stopAllRequest⟩ false,
        .sent ⟨3, .error .duplicateMessageId "Message id 3 is already outstanding"⟩,
        .closed .duplicateMessageId] := by
  decide +kernel

end Visit

end Haptics
