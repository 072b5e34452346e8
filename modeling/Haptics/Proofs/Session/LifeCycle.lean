import Haptics.Link.Simulated
import Haptics.Proofs.Session.Course
import Haptics.Proofs.Session.Silence
/-!
# The life of a session

A session awaits the handshake, is ready after it, and ends closed. What the
calls of a course make of the phase is read off the list of things that a session
does; `Course.LifeCycle` puts it together, and `Course.life_cycle_of_run` is the
main statement: the owner is told of the close once, when it happens and with the
reason that is kept, and whatever comes after it changes nothing and sends nothing.
-/

namespace Haptics

/-! ## Records -/

namespace Entry

def message? : Entry → Option Message
  | sent m => some m
  | _ => none

def reason? : Entry → Option ErrorCode
  | closed reason => some reason
  | _ => none

/-- The messages that were sent. -/
def messages (log : List Entry) : List Message := log.filterMap message?

/-- The closes that the owner was told of. -/
def reasons (log : List Entry) : List ErrorCode := log.filterMap reason?

@[simp] theorem messages_append (log es : List Entry) :
    messages (log ++ es) = messages log ++ messages es := List.filterMap_append

@[simp] theorem reasons_append (log es : List Entry) :
    reasons (log ++ es) = reasons log ++ reasons es := List.filterMap_append

end Entry

open Entry

/-- A phase and what may come of it in one call. -/
inductive Phase.Leads : Phase → Phase → Prop
  | stay (p : Phase) : Leads p p
  | ready : Leads .awaitingHandshake .ready
  | closed {p : Phase} (h : p ≠ .closed) : Leads p .closed

theorem Phase.Leads.eq_awaitingHandshake {p : Phase} (h : p.Leads .awaitingHandshake) :
    p = .awaitingHandshake := by
  cases h
  rfl

theorem Phase.Leads.ne_closed {p q : Phase} (h : p.Leads q) (hq : q ≠ .closed) : p ≠ .closed := by
  cases h with
  | stay => exact hq
  | ready => decide
  | closed => exact absurd rfl hq

namespace Session

variable {s s' : Session} {es : List Entry}

/-! ## What a call makes of the phase -/

/-- **No call takes a session back to an earlier phase.** -/
theorem Did.leads (h : s.Did es s') : s.phase.Leads s'.phase := by
  cases h with
  | greeted hphase _ _ =>
    rw [hphase]
    exact .ready
  | violated ho => exact .closed (open?_iff.1 ho).1
  | closed hopen => exact .closed hopen
  | _ => exact .stay _

theorem Did.stage (h : s.Did es s') : s'.stage = s.stage := by
  cases h <;> rfl

/-- Nothing is left to do for a closed session. -/
structure Over (s : Session) : Prop where
  phase : s.phase = .closed
  outstanding : s.outstanding = []
  work : s.work = []
  running : s.running = false

theorem over_ended (s : Session) (reason : ErrorCode) : (s.ended reason).Over :=
  ⟨rfl, rfl, rfl, rfl⟩

theorem Over.not_serving (h : s.Over) : ¬ s.Serving := by
  intro hs
  rw [Serving, h.phase] at hs
  cases hs.1

theorem Over.open? (h : s.Over) : s.open? = false := open?_eq_false (Or.inl h.phase)

/-- **The owner is told of a close by the call that closes the session**, and by no other. -/
theorem Did.told (h : s.Did es s') :
    (s.phase ≠ .closed ∧ s'.Over ∧
        ∃ pre, es = pre ++ [.closed s'.closeReason] ∧ reasons pre = []) ∨
      (s'.phase = .closed → s.phase = .closed ∧ s'.closeReason = s.closeReason) ∧
        reasons es = [] := by
  cases h with
  | violated ho => exact Or.inl ⟨(open?_iff.1 ho).1, over_ended _ _, [_, _], rfl, rfl⟩
  | closed hopen => exact Or.inl ⟨hopen, over_ended _ _, [], rfl, rfl⟩
  | greeted => exact Or.inr ⟨(fun hc => nomatch hc), rfl⟩
  | _ => exact Or.inr ⟨fun hc => ⟨hc, rfl⟩, rfl⟩

/-- **A session that is over does nothing** but turn messages away. -/
theorem Did.of_over (h : s.Did es s') (ho : s.Over) :
    s'.Over ∧ s'.closeReason = s.closeReason ∧
      ∃ ms : List Message, es = ms.map (.received · false) := by
  have hserving := ho.not_serving
  have hshut := ho.open?
  cases h with
  | rested => exact ⟨ho, rfl, [], rfl⟩
  | @switched running subscription hopen =>
    have hrunning : running = false := by
      cases running with
      | false => rfl
      | true => exact absurd ho.phase (hopen rfl)
    exact ⟨⟨ho.phase, ho.outstanding, ho.work, hrunning⟩, rfl, [], rfl⟩
  | @ignored m _ => exact ⟨ho, rfl, [m], rfl⟩
  | greeted _ hopen _ => rw [hshut] at hopen; cases hopen
  | violated hopen => rw [hshut] at hopen; cases hopen
  | pinged hs | puzzled hs | listed hs | accepted hs | served hs | wasted hs | claimed hs =>
    exact absurd hs hserving
  | dropped _ hwork => rw [ho.work] at hwork; cases hwork
  | forwarded hphase => rw [ho.phase] at hphase; cases hphase
  | closed hopen => exact absurd ho.phase hopen

/-- The worker of a session that is over has nothing to run. -/
theorem Over.iterate {L : Type} [Link L] (h : s.Over) (f : Fleet L) :
    s.iterate f = (none, { session := s, fleet := f }) := by
  rw [Session.iterate, h.running]
  rfl

/-- **A message keeps a session going exactly if the session is serving after it.** -/
theorem Did.alive {m : Message} {alive : Bool} (h : s.Did (.received m alive :: es) s') :
    alive = true ↔ s'.Serving := by
  cases h with
  | greeted _ hopen _ => exact iff_of_true rfl ⟨rfl, (open?_iff.1 hopen).2⟩
  | violated => exact iff_of_false Bool.false_ne_true fun hs => by cases hs.1
  | pinged hs | puzzled hs | listed hs | accepted hs => exact iff_of_true rfl hs
  | ignored hshut =>
    refine iff_of_false Bool.false_ne_true fun hs => ?_
    rw [hs.open?] at hshut
    cases hshut

end Session

namespace Course

open Session

/-! ## The invariant -/

/-- **What every call keeps.** -/
structure Orderly (s : Session) (log : List Entry) : Prop where
  idle : s.stage = .idle
  /-- Before the handshake there is nothing. -/
  fresh : s.phase = .awaitingHandshake →
    log = [] ∧ s.outstanding = [] ∧ s.work = [] ∧ s.pingClaimed = false
  /-- After it there is its reply. -/
  greeted : s.phase = .ready → messages log ≠ []
  ended : s.phase = .closed → s.Over
  told : reasons log = if s.phase = .closed then [s.closeReason] else []

variable {s s' : Session} {log es : List Entry}

theorem orderly_begin (name : String) (terms : Terms) (t : Time) :
    Orderly { name, terms, lastActivity := t } [] where
  idle := rfl
  fresh _ := ⟨rfl, rfl, rfl, rfl⟩
  greeted h := nomatch h
  ended h := nomatch h
  told := rfl

/-- Before the handshake a session does nothing that outsiders see, is greeted, or ends. -/
theorem Orderly.of_fresh (h : Orderly s log) (hphase : s.phase = .awaitingHandshake)
    (hd : s.Did es s') :
    (es = [] ∧ s'.phase = .awaitingHandshake ∧ s'.outstanding = [] ∧ s'.work = [] ∧
        s'.pingClaimed = false) ∨
      (s'.phase = .ready ∧ ∃ m version, es = [.received m true, .sent ⟨m.id,
        .handshakeReply s.terms.serverName version s.terms.maxPingTimeMs⟩]) ∨
      s'.phase = .closed ∧
        ((∃ m code text, es = [.received m false, .sent ⟨m.id, .error code text⟩, .closed code]) ∨
          ∃ reason, es = [.closed reason]) := by
  obtain ⟨-, hout, hwork, hclaimed⟩ := h.fresh hphase
  have hready : s.phase ≠ .ready := by
    rw [hphase]
    decide
  cases hd with
  | rested => exact Or.inl ⟨rfl, hphase, hout, hwork, hclaimed⟩
  | switched => exact Or.inl ⟨rfl, hphase, hout, hwork, hclaimed⟩
  | @greeted m now clientName low high version _ _ _ =>
    exact Or.inr (Or.inl ⟨rfl, m, version, rfl⟩)
  | violated => exact Or.inr (Or.inr ⟨rfl, Or.inl ⟨_, _, _, rfl⟩⟩)
  | closed => exact Or.inr (Or.inr ⟨rfl, Or.inr ⟨_, rfl⟩⟩)
  | pinged hs | puzzled hs | listed hs | accepted hs | served hs | wasted hs | claimed hs =>
    exact absurd hs.1 hready
  | forwarded hr => exact absurd hr hready
  | dropped _ hw => rw [hwork] at hw; cases hw
  | ignored hshut =>
    have hopen : s.open? = true := open?_iff.2 ⟨by rw [hphase]; exact Phase.noConfusion, hclaimed⟩
    rw [hopen] at hshut
    cases hshut

/-- **Whatever a session does keeps the invariant.** -/
theorem Orderly.did (h : Orderly s log) (hd : s.Did es s') : Orderly s' (log ++ es) where
  idle := hd.stage.trans h.idle
  fresh hphase := by
    have hbefore : s.phase = .awaitingHandshake :=
      Phase.Leads.eq_awaitingHandshake (hphase ▸ hd.leads)
    rcases h.of_fresh hbefore hd with ⟨hes, -, hrest⟩ | ⟨hr, -⟩ | ⟨hc, -⟩
    · rw [hes, List.append_nil]
      exact ⟨(h.fresh hbefore).1, hrest⟩
    · rw [hphase] at hr; cases hr
    · rw [hphase] at hc; cases hc
  greeted hphase := by
    rw [messages_append]
    intro hnil
    obtain ⟨hlog, hes⟩ := List.append_eq_nil_iff.1 hnil
    cases hbefore : s.phase with
    | awaitingHandshake =>
      rcases h.of_fresh hbefore hd with ⟨-, hp, -⟩ | ⟨-, m, version, heq⟩ | ⟨hp, -⟩
      · rw [hphase] at hp; cases hp
      · rw [heq] at hes; cases hes
      · rw [hphase] at hp; cases hp
    | ready => exact h.greeted hbefore hlog
    | closed =>
      exact hd.leads.ne_closed (ne_closed_of_ready hphase) hbefore
  ended hphase := by
    rcases hd.told with ⟨-, hover, -⟩ | ⟨hback, -⟩
    · exact hover
    · exact (hd.of_over (h.ended (hback hphase).1)).1
  told := by
    rw [reasons_append, h.told]
    rcases hd.told with ⟨hopen, hover, pre, hes, hpre⟩ | ⟨hback, hes⟩
    · rw [if_neg hopen, if_pos hover.phase, hes, reasons_append, hpre]
      rfl
    · rw [hes, List.append_nil]
      by_cases hphase : s'.phase = .closed
      · rw [if_pos (hback hphase).1, if_pos hphase, (hback hphase).2]
      · rw [if_neg hphase, if_neg fun hc => hphase (hd.of_over (h.ended hc)).1.phase]

/-! ## Whole runs -/

variable {L : Type} [Link L] {x : Course L}

/-- **A session is orderly** at the end of every run. -/
theorem Orderly.run (h : Orderly x.session x.log) (calls : List (Call L)) :
    Orderly (x.run calls).session (x.run calls).log :=
  run_induction (fun _ _ _ _ hs hd => hs.did hd) h calls

/-- **A course that is over stays over**, and messages are turned away. -/
theorem over_run (h : x.session.Over) (calls : List (Call L)) :
    (x.run calls).session.Over ∧ (x.run calls).session.closeReason = x.session.closeReason ∧
      ∃ ms : List Message, (x.run calls).log = x.log ++ ms.map (.received · false) := by
  refine run_induction (P := fun s log => s.Over ∧ s.closeReason = x.session.closeReason ∧
    ∃ ms : List Message, log = x.log ++ ms.map (.received · false)) ?_ ?_ calls
  · rintro s log es s' ⟨hover, hreason, ms, hms⟩ hd
    obtain ⟨hover', hsame, more, hmore⟩ := hd.of_over hover
    refine ⟨hover', hsame.trans hreason, ms ++ more, ?_⟩
    rw [hms, hmore, List.map_append, List.append_assoc]
  · exact ⟨h, rfl, [], (List.append_nil _).symm⟩

/-- **The life of a session**, at a point that a run has led to. -/
structure LifeCycle (x : Course L) : Prop where
  phases : ∀ c, x.session.phase.Leads (x.step c).session.phase
  /-- The first message that is sent is the reply to the handshake, in the call that makes
  the session ready, or an error right before the close. Either is all that the call
  sends. -/
  first : messages x.log = [] → ∀ c m rest, messages (x.step c).log = m :: rest →
    x.session.phase = .awaitingHandshake ∧ rest = [] ∧
      ((x.step c).session.phase = .ready ∧
          (∃ server version limit, m.payload = .handshakeReply server version limit) ∨
        (x.step c).session.phase = .closed ∧ ∃ code text request,
          m.payload = .error code text ∧
            (x.step c).log = x.log ++ [.received request false, .sent m, .closed code])
  /-- The owner has been told of the close if the session is closed, once and with the
  reason that is kept. -/
  told : reasons x.log = if x.session.phase = .closed then [x.session.closeReason] else []
  /-- The call that closes the session ends with it. -/
  closing : ∀ c, x.session.phase ≠ .closed → (x.step c).session.phase = .closed →
    ∃ es, (x.step c).log = x.log ++ es ++ [.closed (x.step c).session.closeReason]
  /-- Whatever follows the close leaves the phase, the reason and the empty queues as they
  are, sends nothing and runs nothing. -/
  ended : x.session.phase = .closed → ∀ calls,
    (x.run calls).session.Over ∧ (x.run calls).session.closeReason = x.session.closeReason ∧
      ∃ ms : List Message, (x.run calls).log = x.log ++ ms.map (.received · false)
  /-- A message after the close changes nothing at all. -/
  deaf : x.session.phase = .closed → ∀ m now entries,
    x.session.receive m now entries = { alive := false, session := x.session }
  /-- Nor does an iteration of the worker. -/
  resting : x.session.phase = .closed → ∀ f : Fleet L,
    x.session.iterate f = (none, { session := x.session, fleet := f })
  alive : ∀ m now, (x.session.receive m now x.fleet.entries).alive = true ↔
    (x.step (.receive m now)).session.Serving
  /-- The iterations of the worker are made of its steps. -/
  iterations : Session.Works x.session x.fleet (x.session.iterate x.fleet).2

/-- Nothing has been sent before the handshake only. -/
theorem Orderly.first (h : Orderly x.session x.log) (hnone : messages x.log = []) {c : Call L}
    {m : Message} {rest : List Message} (hsent : messages (x.step c).log = m :: rest) :
    x.session.phase = .awaitingHandshake ∧ rest = [] ∧
      ((x.step c).session.phase = .ready ∧
          (∃ server version limit, m.payload = .handshakeReply server version limit) ∨
        (x.step c).session.phase = .closed ∧ ∃ code text request,
          m.payload = .error code text ∧
            (x.step c).log = x.log ++ [.received request false, .sent m, .closed code]) := by
  obtain ⟨es, hlog, hd⟩ := x.step_did c
  rw [hlog, messages_append, hnone, List.nil_append] at hsent
  cases hphase : x.session.phase with
  | awaitingHandshake =>
    rw [hlog]
    rcases h.of_fresh hphase hd with ⟨rfl, -⟩ | ⟨hp, r, version, rfl⟩ |
        ⟨hp, ⟨r, code, text, rfl⟩ | ⟨reason, rfl⟩⟩
    · cases hsent
    · cases hsent
      exact ⟨rfl, rfl, Or.inl ⟨hp, _, _, _, rfl⟩⟩
    · cases hsent
      exact ⟨rfl, rfl, Or.inr ⟨hp, code, text, r, rfl, rfl⟩⟩
    · cases hsent
  | ready => exact absurd hnone (h.greeted hphase)
  | closed =>
    obtain ⟨-, -, ms, rfl⟩ := hd.of_over (h.ended hphase)
    have hsilent : messages (ms.map (.received · false)) = [] := by
      simp [messages, message?, List.filterMap_map, Function.comp_def]
    rw [hsilent] at hsent
    cases hsent

theorem Orderly.lifeCycle (h : Orderly x.session x.log) : LifeCycle x where
  phases c := by
    obtain ⟨es, -, hd⟩ := x.step_did c
    exact hd.leads
  first hnone c m rest hsent := h.first hnone hsent
  told := h.told
  closing c hopen hclosed := by
    obtain ⟨es, hlog, hd⟩ := x.step_did c
    rcases hd.told with ⟨-, -, pre, hes, -⟩ | ⟨hback, -⟩
    · refine ⟨pre, ?_⟩
      rw [hlog, hes, List.append_assoc]
    · exact absurd (hback hclosed).1 hopen
  ended hclosed := over_run (h.ended hclosed)
  deaf hclosed m now entries := receive_deaf (h.ended hclosed).open? m now entries
  resting hclosed f := (h.ended hclosed).iterate f
  alive m now := (did_receive x.session m now x.fleet.entries).alive
  iterations := works_iterate h.idle x.fleet

/-- **Every session lives like that**, in every run and with any fleet, links and events. -/
theorem life_cycle_of_run (name : String) (terms : Terms) (t : Time) (f : Fleet L)
    (m : Option Emitter) (calls : List (Call L)) :
    LifeCycle ((begin name terms t f m).run calls) :=
  (Orderly.run (x := begin name terms t f m) (orderly_begin name terms t) calls).lifeCycle

/-- A session from its handshake to its close, and a message that comes too late. -/
example :
    ((begin "client" {} 0 ({} : Fleet SimulatedLink) none).run
      [.start, .receive ⟨1, .handshakeRequest "c" 1 2⟩ 0, .receive ⟨2, .deviceListRequest⟩ 10,
        .close .cancelled, .receive ⟨3, .ping⟩ 20, .close .ok]).log =
      [.received ⟨1, .handshakeRequest "c" 1 2⟩ true,
        .sent ⟨1, .handshakeReply "tactile" 2 1000⟩,
        .received ⟨2, .deviceListRequest⟩ true, .sent ⟨2, .deviceListReply []⟩,
        .closed .cancelled, .received ⟨3, .ping⟩ false] := by
  decide +kernel

end Course

end Haptics
