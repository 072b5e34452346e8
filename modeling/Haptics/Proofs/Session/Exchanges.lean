import Haptics.Proofs.Session.Course
/-!
# Exchanges

What a log of a session says of the requests in it: which tasks were accepted and
which were run, which ids were taken, and how many messages came and went with an
id. `Exchanges` is the shape that such a log has: an answer stands right after what
it answers, and nothing else is sent but events.
-/

namespace Haptics

/-! ## What a log says of requests -/

namespace Entry

/-- The task that was accepted with a message. -/
def task? : Entry → Option Work
  | received m true =>
    match m.payload.request? with
    | some (.task t) => some ⟨m.id, t⟩
    | _ => none
  | _ => none

/-- The id that was taken by a request. -/
def taken? : Entry → Option UInt32
  | received m true => if m.payload.request?.isSome then some m.id else none
  | _ => none

def ran? : Entry → Option Work
  | ran w => some w
  | _ => none

/-- The tasks that were accepted. -/
def tasks (log : List Entry) : List Work := log.filterMap task?

/-- The ids of the requests, one for each. -/
def taken (log : List Entry) : List UInt32 := log.filterMap taken?

/-- The tasks that were run. -/
def executed (log : List Entry) : List Work := log.filterMap ran?

/-- A message came with this id. Signs of life that a session goes on with do not
count. -/
def asks (k : UInt32) : Entry → Bool
  | received m alive => m.id = k && !(alive && m.payload = .ping)
  | _ => false

/-- A message was sent with this id. -/
def sends (k : UInt32) : Entry → Bool
  | sent m => m.id = k
  | _ => false

/-- A message other than a ping came with this id. -/
def speaks (k : UInt32) : Entry → Bool
  | received m _ => m.id = k && m.payload ≠ .ping
  | _ => false

def asked (k : UInt32) (log : List Entry) : Nat := log.countP (asks k)

def answers (k : UInt32) (log : List Entry) : Nat := log.countP (sends k)

/-- A message answers what is on record: it has the id, and it fits. -/
def AnsweredBy : Entry → Message → Prop
  | received r true, m => m.id = r.id ∧
    match r.payload with
    | .handshakeRequest .. =>
      ∃ server version limit, m.payload = .handshakeReply server version limit
    | .deviceListRequest => ∃ devices, m.payload = .deviceListReply devices
    | .unrecognized => ∃ code text, m.payload = .error code text
    | _ => False
  | received r false, m => m.id = r.id ∧ ∃ code text, m.payload = .error code text
  | ran w, m => m.id = w.id ∧ w.task.Answers m.payload
  | _, _ => False

/-- What need not be answered at once: signs of life and tasks, messages that come
too late, events and closes. -/
def Aside : Entry → Prop
  | received r true => r.payload = .ping ∨ ∃ t, r.payload.request? = some (.task t)
  | received _ false => True
  | ran _ => False
  | sent m => m.id = 0
  | closed _ => True

/-- What there is on record of a session that takes no messages. -/
def Late : Entry → Prop
  | received _ alive => alive = false
  | ran _ => False
  | sent m => m.id = 0
  | closed _ => True

/-- **A log in which every answer follows what it answers**, and nothing else is sent
but events. -/
inductive Exchanges : List Entry → Prop
  | nil : Exchanges []
  | answered {e : Entry} {m : Message} {log : List Entry} (he : e.AnsweredBy m)
    (hlog : Exchanges log) : Exchanges (e :: .sent m :: log)
  | aside {e : Entry} {log : List Entry} (he : e.Aside) (hlog : Exchanges log) :
    Exchanges (e :: log)

variable {log es pre post : List Entry} {e : Entry} {m : Message} {k : UInt32}

@[simp] theorem tasks_append (log es : List Entry) :
    tasks (log ++ es) = tasks log ++ tasks es := List.filterMap_append

@[simp] theorem taken_append (log es : List Entry) :
    taken (log ++ es) = taken log ++ taken es := List.filterMap_append

@[simp] theorem executed_append (log es : List Entry) :
    executed (log ++ es) = executed log ++ executed es := List.filterMap_append

@[simp] theorem asked_append (k : UInt32) (log es : List Entry) :
    asked k (log ++ es) = asked k log + asked k es := List.countP_append

@[simp] theorem answers_append (k : UInt32) (log es : List Entry) :
    answers k (log ++ es) = answers k log + answers k es := List.countP_append

@[simp] theorem asked_nil (k : UInt32) : asked k [] = 0 := rfl

@[simp] theorem answers_nil (k : UInt32) : answers k [] = 0 := rfl

/-- A message that comes counts once with its own id, and no other entry counts. -/
@[simp] theorem asked_cons (k : UInt32) (e : Entry) (log : List Entry) :
    asked k (e :: log) = asked k log + if asks k e then 1 else 0 := List.countP_cons

@[simp] theorem answers_cons (k : UInt32) (e : Entry) (log : List Entry) :
    answers k (e :: log) = answers k log + if sends k e then 1 else 0 := List.countP_cons

/-- A task that is accepted is on record with the id of its message. -/
theorem tasks_received {t : Task} (hm : m.payload.request? = some (.task t)) :
    tasks [.received m true] = [⟨m.id, t⟩] := by
  simp [tasks, task?, hm]

theorem taken_received {r : Request} (hm : m.payload.request? = some r) :
    taken [.received m true] = [m.id] := by
  simp [taken, taken?, hm]

/-- A request that is accepted takes the id of its message. -/
theorem mem_taken {r : Request} (hmem : .received m true ∈ log)
    (hr : m.payload.request? = some r) : m.id ∈ taken log := by
  refine List.mem_filterMap.2 ⟨_, hmem, ?_⟩
  simp [taken?, hr]

/-- A task whose message was accepted is among the tasks on record. -/
theorem mem_tasks {t : Task} (hmem : .received m true ∈ log)
    (hm : m.payload.request? = some (.task t)) : ⟨m.id, t⟩ ∈ tasks log := by
  refine List.mem_filterMap.2 ⟨_, hmem, ?_⟩
  simp [task?, hm]

/-- What comes late has no bearing on the requests. -/
theorem bookless_of_late (h : ∀ e ∈ es, e.Late) :
    tasks es = [] ∧ executed es = [] ∧ taken es = [] ∧ ∀ k, k ≠ 0 → answers k es = 0 := by
  have hnone : ∀ e ∈ es, task? e = none ∧ ran? e = none ∧ taken? e = none ∧
      ∀ k, k ≠ 0 → sends k e = false := by
    intro e he
    have hlate := h e he
    match e, hlate with
    | .received m false, _ => exact ⟨rfl, rfl, rfl, fun k _ => rfl⟩
    | .sent m, hid =>
      exact ⟨rfl, rfl, rfl, fun k hk => decide_eq_false fun heq => hk (heq.symm.trans hid)⟩
    | .closed reason, _ => exact ⟨rfl, rfl, rfl, fun k _ => rfl⟩
  refine ⟨List.filterMap_eq_nil_iff.2 fun e he => (hnone e he).1,
    List.filterMap_eq_nil_iff.2 fun e he => (hnone e he).2.1,
    List.filterMap_eq_nil_iff.2 fun e he => (hnone e he).2.2.1,
    fun k hk => List.countP_eq_zero.2 fun e he => ?_⟩
  rw [(hnone e he).2.2.2 k hk]
  exact Bool.false_ne_true

/-! ## Answers and what they answer -/

/-- Logs of this shape can follow one another, since none ends between an entry and its answer. -/
theorem Exchanges.append (h : Exchanges log) (hes : Exchanges es) : Exchanges (log ++ es) := by
  induction h with
  | nil => exact hes
  | answered he _ ih => exact .answered he ih
  | aside he _ ih => exact .aside he ih

/-- What is sent asks for no answer, so answers are not chained. -/
theorem not_answeredBy_sent {r : Message} : ¬ (sent r).AnsweredBy m := id

/-- What is sent with an id answers the entry before it. -/
theorem Exchanges.caused (h : Exchanges log) (heq : log = pre ++ .sent m :: post)
    (hid : m.id ≠ 0) : ∃ before e, pre = before ++ [e] ∧ e.AnsweredBy m := by
  induction h generalizing pre with
  | nil => exact absurd heq.symm (List.append_ne_nil_of_right_ne_nil _ (List.cons_ne_nil _ _))
  | @answered e r log he _ ih =>
    rcases List.cons_eq_append_iff.1 heq with ⟨-, hhead⟩ | ⟨pre', rfl, htail⟩
    · -- the message itself is no entry that could be answered
      obtain ⟨hsent, -⟩ := List.cons.inj hhead
      rw [← hsent] at he
      exact absurd he not_answeredBy_sent
    · rcases List.cons_eq_append_iff.1 htail with ⟨rfl, hhead⟩ | ⟨pre'', rfl, hrest⟩
      · obtain ⟨hsent, -⟩ := List.cons.inj hhead
        cases hsent
        exact ⟨[], e, rfl, he⟩
      · obtain ⟨before, cause, hpre, hcause⟩ := ih hrest
        exact ⟨e :: .sent r :: before, cause, by rw [hpre]; rfl, hcause⟩
  | @aside e log he _ ih =>
    rcases List.cons_eq_append_iff.1 heq with ⟨-, hhead⟩ | ⟨pre', rfl, htail⟩
    · obtain ⟨hsent, -⟩ := List.cons.inj hhead
      rw [← hsent] at he
      exact absurd he hid
    · obtain ⟨before, cause, hpre, hcause⟩ := ih htail
      exact ⟨e :: before, cause, by rw [hpre]; rfl, hcause⟩

/-- What must be answered at once is answered at once. -/
theorem Exchanges.answer (h : Exchanges log) (heq : log = pre ++ e :: post) (he : ¬ e.Aside)
    (hsent : ∀ m, e ≠ .sent m) : ∃ m rest, post = .sent m :: rest ∧ e.AnsweredBy m := by
  induction h generalizing pre with
  | nil => exact absurd heq.symm (List.append_ne_nil_of_right_ne_nil _ (List.cons_ne_nil _ _))
  | @answered e' r log he' _ ih =>
    rcases List.cons_eq_append_iff.1 heq with ⟨-, hhead⟩ | ⟨pre', rfl, htail⟩
    · obtain ⟨rfl, rfl⟩ := List.cons.inj hhead
      exact ⟨r, log, rfl, he'⟩
    · rcases List.cons_eq_append_iff.1 htail with ⟨-, hhead⟩ | ⟨pre'', rfl, hrest⟩
      · obtain ⟨hr, -⟩ := List.cons.inj hhead
        exact absurd hr (hsent r)
      · exact ih hrest
  | @aside e' log he' _ ih =>
    rcases List.cons_eq_append_iff.1 heq with ⟨-, hhead⟩ | ⟨pre', rfl, htail⟩
    · obtain ⟨rfl, -⟩ := List.cons.inj hhead
      exact absurd he' he
    · exact ih htail

end Entry

end Haptics
