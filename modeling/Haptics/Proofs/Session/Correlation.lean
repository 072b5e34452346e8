import Haptics.Link.Simulated
import Haptics.Proofs.Session.Exchanges
import Haptics.Proofs.Session.LifeCycle
import Haptics.Proofs.Session.Scene
/-!
# Requests and replies

Every request that a session takes on is answered once, in the order of the
requests, as long as the session lasts. A call means one of four things for the
requests (`Deals`); with that the queue of the worker and the ids without a reply
are read off the log (`Ledger`), and every task has its `Fate`. `Correlated` puts
together what follows, and `Course.correlated_of_run` says it of every run.
-/

namespace Haptics

open Entry

/-! ## What a call means for the requests -/

namespace Session

variable {s s' : Session} {es log post : List Entry} {w : Work} {k : UInt32}

/-- A session that takes no messages. -/
theorem open?_eq_false_iff : s.open? = false ↔ s.phase = .closed ∨ s.pingClaimed = true := by
  rw [← Bool.not_eq_true, open?_iff, Decidable.not_and_iff_not_or_not, Decidable.not_not,
    Bool.not_eq_false]

/-- A session takes messages while it awaits the handshake and while it serves. -/
theorem awaiting_of_not_serving (hopen : s.open? = true) (hs : ¬ s.Serving) :
    s.phase = .awaitingHandshake := by
  obtain ⟨hphase, hclaimed⟩ := open?_iff.1 hopen
  cases hp : s.phase with
  | awaitingHandshake => rfl
  | ready => exact absurd ⟨hp, hclaimed⟩ hs
  | closed => exact absurd hp hphase

/-- **A session that takes no messages never takes one again**, runs nothing and sends
nothing but events. -/
theorem Did.late (h : s.Did es s') (hshut : s.open? = false) :
    s'.open? = false ∧ ∀ e ∈ es, e.Late := by
  have hserving : ¬ s.Serving := by
    intro hs
    rw [hs.open?] at hshut
    cases hshut
  cases h with
  | rested | switched | dropped => exact ⟨hshut, fun e he => absurd he List.not_mem_nil⟩
  | greeted _ hopen _ | violated hopen => rw [hshut] at hopen; cases hopen
  | pinged hs | puzzled hs | listed hs | accepted hs | served hs | wasted hs | claimed hs =>
    exact absurd hs hserving
  | ignored => exact ⟨hshut, fun e he => by rw [List.mem_singleton.1 he]; rfl⟩
  | @forwarded d _ =>
    refine ⟨hshut, fun e he => ?_⟩
    rw [List.mem_singleton.1 he]
    cases d <;> rfl
  | closed => exact ⟨rfl, fun e he => by rw [List.mem_singleton.1 he]; trivial⟩

theorem Did.opened (h : s.Did es s') (hopen : s'.open? = true) : s.open? = true := by
  refine Decidable.by_contra fun hshut => ?_
  rw [(h.late (by simpa using hshut)).1] at hopen
  cases hopen

/-- What a call means for the requests of a session. -/
inductive Deals (s : Session) (es : List Entry) (s' : Session) : Prop
  /-- Nothing for the queue. -/
  | idle (hopen : s.open? = true) (hwork : s'.work = s.work) (hout : s'.outstanding = s.outstanding)
    (htasks : tasks es = []) (hran : executed es = [])
    (htaken : ∀ k ∈ taken es, k ∉ s.outstanding)
    (hcount : ∀ k, k ≠ 0 → asked k es = answers k es)
  /-- A task enters the queue. -/
  | enters {m : Message} {t : Task} (hopen : s.open? = true)
    (hm : m.payload.request? = some (.task t))
    (hfree : m.id ∉ s.outstanding) (hes : es = [.received m true])
    (hwork : s'.work = s.work ++ [⟨m.id, t⟩]) (hout : s'.outstanding = s.outstanding ++ [m.id])
  /-- The oldest task is run and answered. -/
  | serves {w : Work} {p : Payload} (hopen : s.open? = true) (hp : w.task.Answers p)
    (hes : es = [.ran w, .sent ⟨w.id, p⟩]) (hwork : s.work = w :: s'.work)
    (hout : s.outstanding = w.id :: s'.outstanding)
  /-- No more messages are taken. -/
  | ends (hshut : s'.open? = false) (htasks : tasks es = []) (hran : executed es = [])
    (htaken : taken es = []) (hcount : ∀ k, k ≠ 0 → answers k es ≤ asked k es)

/-- A message that is answered at once means nothing for the queue. -/
theorem Deals.of_answer {m : Message} {p : Payload} (hopen : s.open? = true)
    (hwork : s'.work = s.work) (hout : s'.outstanding = s.outstanding) (hping : m.payload ≠ .ping)
    (htasks : ∀ t, m.payload.request? ≠ some (.task t))
    (hfree : m.payload.request?.isSome → m.id ∉ s.outstanding) :
    s.Deals [.received m true, .sent ⟨m.id, p⟩] s' := by
  refine .idle hopen hwork hout ?_ rfl (fun k hk => ?_) fun k _ => ?_
  · cases hr : m.payload.request? with
    | none => simp [tasks, task?, hr]
    | some r =>
      cases r with
      | deviceList => simp [tasks, task?, hr]
      | task t => exact absurd hr (htasks t)
  · cases hr : m.payload.request?.isSome with
    | false => simp [taken, taken?, hr] at hk
    | true =>
      have hid : k = m.id := by simpa [taken, taken?, hr] using hk
      rw [hid]
      exact hfree hr
  · simp [asks, sends, hping]

theorem deals_of_late (hshut : s'.open? = false) (h : ∀ e ∈ es, e.Late) : s.Deals es s' := by
  obtain ⟨htasks, hran, htaken, hcount⟩ := bookless_of_late h
  exact .ends hshut htasks hran htaken fun k hk => by rw [hcount k hk]; exact Nat.zero_le _

/-- **Every call deals with the requests in one of these ways.** -/
theorem Did.deals (h : s.Did es s')
    (hqueue : s.open? = true → s.outstanding = s.work.map Work.id)
    (hfresh : s.phase = .awaitingHandshake → s.work = []) : s.Deals es s' := by
  by_cases hopen : s.open? = true
  · cases h with
    | rested | switched =>
      exact .idle hopen rfl rfl rfl rfl (fun k hk => absurd hk List.not_mem_nil) fun _ _ => rfl
    | claimed =>
      exact deals_of_late (open?_eq_false_iff.2 (Or.inr rfl)) fun e he =>
        absurd he List.not_mem_nil
    | greeted _ _ hm | puzzled _ hm =>
      exact Deals.of_answer hopen rfl rfl (by simp [hm]) (by simp [hm, Payload.request?])
        (by simp [hm, Payload.request?])
    | violated =>
      refine .ends (open?_eq_false_iff.2 (Or.inl rfl)) rfl rfl rfl fun k _ => ?_
      simp [asks, sends]
    | pinged _ hm =>
      refine .idle hopen rfl rfl ?_ rfl ?_ fun k _ => ?_
      · simp [tasks, task?, hm, Payload.request?]
      · simp [taken, taken?, hm, Payload.request?]
      · simp [asks, sends, hm]
    | listed _ _ hfree hm =>
      exact Deals.of_answer hopen rfl rfl (by simp [hm]) (by simp [hm, Payload.request?])
        fun _ => hfree
    | accepted _ _ hfree hm => exact .enters hopen hm hfree rfl rfl rfl
    | ignored hshut => rw [hopen] at hshut; cases hshut
    | @served w rest p _ hwork _ hp =>
      have hout := hqueue hopen
      rw [hwork, List.map_cons] at hout
      refine .serves hopen hp rfl hwork ?_
      rw [hout, List.erase_cons_head]
    | wasted _ hwork hid =>
      rw [hqueue hopen, hwork] at hid
      exact absurd List.mem_cons_self hid
    | dropped hs hwork =>
      -- before the handshake there is no work to be dropped
      rw [hfresh (awaiting_of_not_serving hopen hs)] at hwork
      cases hwork
    | @forwarded d _ =>
      have hid : d.message.id = 0 := by cases d <;> rfl
      refine .idle hopen rfl rfl rfl rfl (fun k hk => absurd hk List.not_mem_nil) fun k hk => ?_
      simp [asks, sends, hid, hk.symm]
    | closed =>
      refine deals_of_late (open?_eq_false_iff.2 (Or.inl rfl)) fun e he => ?_
      rw [List.mem_singleton.1 he]
      trivial
  · obtain ⟨hshut, hlate⟩ := h.late (by simpa using hopen)
    exact deals_of_late hshut hlate

/-- **What a session that takes messages keeps of its requests.** -/
structure Ledger (s : Session) (log : List Entry) : Prop where
  tasks : tasks log = executed log ++ s.work
  outstanding : s.outstanding = s.work.map Work.id
  distinct : s.outstanding.Nodup
  counts : ∀ k, k ≠ 0 → asked k log = answers k log + s.outstanding.count k

theorem Ledger.deals (h : s.Ledger log) (hd : s.Deals es s') (hopen : s'.open? = true) :
    s'.Ledger (log ++ es) := by
  cases hd with
  | idle _ hwork hout htasks hran _ hcount =>
    refine ⟨?_, ?_, ?_, fun k hk => ?_⟩
    · rw [tasks_append, executed_append, htasks, hran, hwork, List.append_nil, List.append_nil,
        h.tasks]
    · rw [hout, hwork, h.outstanding]
    · rw [hout]
      exact h.distinct
    · have hbefore := h.counts k hk
      have hnow := hcount k hk
      rw [asked_append, answers_append, hout]
      omega
  | @enters m t _ hm hfree hes hwork hout =>
    have htask := tasks_received hm
    refine ⟨?_, ?_, ?_, fun k hk => ?_⟩
    · rw [tasks_append, executed_append, hes, htask, hwork, h.tasks, List.append_assoc,
        List.append_assoc]
      rfl
    · rw [hout, hwork, h.outstanding, List.map_append]
      rfl
    · rw [hout]
      refine List.nodup_append.2 ⟨h.distinct, List.nodup_cons.2 ⟨List.not_mem_nil, .nil⟩, ?_⟩
      rintro a ha b hb rfl
      rw [List.mem_singleton.1 hb] at ha
      exact hfree ha
    · have hping : m.payload ≠ .ping := fun hp => by rw [hp] at hm; cases hm
      have hbefore := h.counts k hk
      rw [asked_append, answers_append, hes, hout, List.count_append, hbefore]
      simp [asks, sends, hping, List.count_singleton]
      omega
  | @serves w p _ _ hes hwork hout =>
    have hran : executed es = [w] := by rw [hes]; rfl
    have htasks : Entry.tasks es = [] := by rw [hes]; rfl
    refine ⟨?_, ?_, ?_, fun k hk => ?_⟩
    · rw [tasks_append, executed_append, htasks, hran, h.tasks, hwork, List.append_nil,
        List.append_assoc]
      rfl
    · have hboth := h.outstanding
      rw [hout, hwork, List.map_cons] at hboth
      exact (List.cons.inj hboth).2
    · have hboth := h.distinct
      rw [hout] at hboth
      exact (List.nodup_cons.1 hboth).2
    · have hbefore := h.counts k hk
      rw [hout, List.count_cons] at hbefore
      rw [asked_append, answers_append, hes, hbefore]
      simp [asks, sends]
      omega
  | ends hshut => rw [hopen] at hshut; cases hshut

/-! ## What becomes of a task -/

/-- There is no request with an id on record, and no task with it was run. -/
def Untouched (id : UInt32) (es : List Entry) : Prop :=
  id ∉ taken es ∧ id ∉ (executed es).map Work.id

/-- **What has become of a task**, by what is on record since it was accepted. -/
inductive Fate (s : Session) (w : Work) (post : List Entry) : Prop
  /-- It was run and answered before its id was used again. -/
  | done {mid rest : List Entry} {p : Payload}
    (hpost : post = mid ++ .ran w :: .sent ⟨w.id, p⟩ :: rest) (hp : w.task.Answers p)
    (hmid : Untouched w.id mid)
  /-- It was not run. Its id was not used again, and a session that takes messages has
  the task in the queue. -/
  | left (hpost : Untouched w.id post) (hwork : s.open? = true → w ∈ s.work)

theorem Untouched.append {id : UInt32} (h : Untouched id post) (hes : Untouched id es) :
    Untouched id (post ++ es) := by
  refine ⟨?_, ?_⟩
  · rw [taken_append, List.mem_append, not_or]
    exact ⟨h.1, hes.1⟩
  · rw [executed_append, List.map_append, List.mem_append, not_or]
    exact ⟨h.2, hes.2⟩

/-- **A task is run once, or left for good.** -/
theorem Fate.deals (h : s.Fate w post) (hl : s.open? = true → s.Ledger log)
    (hd : s.Deals es s') : s'.Fate w (post ++ es) := by
  cases h with
  | @done mid rest p hpost hp hmid =>
    have hafter : post ++ es = mid ++ .ran w :: .sent ⟨w.id, p⟩ :: (rest ++ es) := by
      rw [hpost, List.append_assoc]
      rfl
    exact .done hafter hp hmid
  | left hpost hleft =>
    -- the id of a task in the queue is without a reply
    have hout (hopen : s.open? = true) : w.id ∈ s.outstanding := by
      rw [(hl hopen).outstanding]
      exact List.mem_map_of_mem (hleft hopen)
    cases hd with
    | idle hopen hwork _ _ hran htaken _ =>
      have hes : Untouched w.id es :=
        ⟨fun hid => htaken _ hid (hout hopen), by rw [hran]; exact List.not_mem_nil⟩
      exact .left (hpost.append hes) fun _ => hwork ▸ hleft hopen
    | @enters m t hopen hm hfree hes hwork _ =>
      have htaken : taken es = [m.id] := by rw [hes, taken_received hm]
      have hran : executed es = [] := by rw [hes]; rfl
      refine .left (hpost.append ⟨fun hid => ?_, by rw [hran]; exact List.not_mem_nil⟩) fun _ => ?_
      · rw [htaken, List.mem_singleton] at hid
        exact hfree (hid ▸ hout hopen)
      · rw [hwork]
        exact List.mem_append_left _ (hleft hopen)
    | @serves v p hopen hp hes hwork hout' =>
      have hmem := hleft hopen
      rw [hwork] at hmem
      rcases List.mem_cons.1 hmem with rfl | hlater
      · have hnow : post ++ es = post ++ [.ran w, .sent ⟨w.id, p⟩] := by rw [hes]
        exact .done hnow hp hpost
      · -- another task was served, and that has another id
        have hboth := (hl hopen).outstanding
        have hdistinct := (hl hopen).distinct
        rw [hout', hwork, List.map_cons] at hboth
        rw [hout', (List.cons.inj hboth).2, List.nodup_cons] at hdistinct
        have hid : w.id ≠ v.id := fun heq => hdistinct.1 (heq ▸ List.mem_map_of_mem hlater)
        refine .left (hpost.append ⟨?_, ?_⟩) fun _ => hlater
        · rw [hes]
          exact List.not_mem_nil
        · rw [hes]
          exact fun hmem => hid (List.mem_singleton.1 hmem)
    | ends hshut _ hran htaken _ =>
      refine .left (hpost.append ?_) fun ho => ?_
      · rw [Untouched, htaken, hran]
        exact ⟨List.not_mem_nil, List.not_mem_nil⟩
      · rw [hshut] at ho
        cases ho

/-- **Every call leaves exchanges on record.** -/
theorem Did.exchanges (h : s.Did es s')
    (hqueue : s.open? = true → s.outstanding = s.work.map Work.id) : Exchanges es := by
  cases h with
  | rested | switched | dropped | claimed => exact .nil
  | greeted _ _ hm =>
    refine .answered ⟨rfl, ?_⟩ .nil
    rw [hm]
    exact ⟨_, _, _, rfl⟩
  | violated => exact .answered ⟨rfl, _, _, rfl⟩ (.aside trivial .nil)
  | pinged _ hm => exact .aside (Or.inl hm) .nil
  | puzzled _ hm =>
    refine .answered ⟨rfl, ?_⟩ .nil
    rw [hm]
    exact ⟨_, _, rfl⟩
  | listed _ _ _ hm =>
    refine .answered ⟨rfl, ?_⟩ .nil
    rw [hm]
    exact ⟨_, rfl⟩
  | accepted _ _ _ hm => exact .aside (Or.inr ⟨_, hm⟩) .nil
  | ignored | closed => exact .aside trivial .nil
  | served _ _ _ hp => exact .answered ⟨rfl, hp⟩ .nil
  | wasted hs hwork hid =>
    rw [hqueue hs.open?, hwork] at hid
    exact absurd List.mem_cons_self hid
  | @forwarded d _ => exact .aside (by cases d <;> rfl) .nil

end Session

namespace Course

open Session

variable {s s' : Session} {log es : List Entry}

/-- **What every call keeps.** -/
structure Kept (s : Session) (log : List Entry) : Prop where
  orderly : Orderly s log
  ledger : s.open? = true → s.Ledger log
  exchanges : Exchanges log
  order : executed log <+: tasks log
  counts : ∀ k, k ≠ 0 → answers k log ≤ asked k log
  fates : ∀ pre m post t, log = pre ++ .received m true :: post →
    m.payload.request? = some (.task t) → s.Fate ⟨m.id, t⟩ post

theorem kept_begin (name : String) (terms : Terms) (t : Time) :
    Kept { name, terms, lastActivity := t } [] where
  orderly := orderly_begin name terms t
  ledger _ := ⟨rfl, rfl, .nil, fun _ _ => rfl⟩
  exchanges := .nil
  order := List.nil_prefix
  counts _ _ := Nat.le_refl 0
  fates pre _ post _ heq := absurd heq.symm
    (List.append_ne_nil_of_right_ne_nil pre (List.cons_ne_nil _ post))

theorem Kept.deals (h : Kept s log) (hd : s.Did es s') : s.Deals es s' :=
  hd.deals (fun ho => (h.ledger ho).outstanding) fun hp => (h.orderly.fresh hp).2.2.1

/-- **Whatever a session does keeps the invariant.** -/
theorem Kept.did (h : Kept s log) (hd : s.Did es s') : Kept s' (log ++ es) where
  orderly := h.orderly.did hd
  ledger hopen := (h.ledger (hd.opened hopen)).deals (h.deals hd) hopen
  exchanges := h.exchanges.append (hd.exchanges fun ho => (h.ledger ho).outstanding)
  order := by
    rw [executed_append, tasks_append]
    cases h.deals hd with
    | idle _ _ _ htasks hran _ _ | ends _ htasks hran _ _ =>
      rw [htasks, hran, List.append_nil, List.append_nil]
      exact h.order
    | enters _ _ _ hes _ _ =>
      have hran : executed es = [] := by rw [hes]; rfl
      rw [hran, List.append_nil]
      exact h.order.trans (List.prefix_append _ _)
    | @serves w p hopen _ hes hwork _ =>
      have hran : executed es = [w] := by rw [hes]; rfl
      have htasks : tasks es = [] := by rw [hes]; rfl
      rw [hran, htasks, (h.ledger hopen).tasks, hwork, List.append_nil]
      exact ⟨s'.work, List.append_assoc _ _ _⟩
  counts k hk := by
    have hbefore := h.counts k hk
    rw [answers_append, asked_append]
    cases h.deals hd with
    | idle _ _ _ _ _ _ hcount =>
      have hnow := hcount k hk
      omega
    | enters _ _ _ hes _ _ =>
      have hnone : answers k es = 0 := by rw [hes]; rfl
      omega
    | @serves w p hopen _ hes _ hout =>
      -- the reply is counted for its request, which was without one
      have hboth := (h.ledger hopen).counts k hk
      rw [hout, List.count_cons] at hboth
      rw [hes]
      simp only [answers_cons, answers_nil, sends]
      by_cases hid : w.id = k
      · simp [hid] at hboth ⊢
        omega
      · simp [hid] at hboth ⊢
        omega
    | ends _ _ _ _ hcount =>
      have hnow := hcount k hk
      omega
  fates pre m post t heq hm := by
    rcases split_append heq with ⟨mid, hlog, rfl⟩ | ⟨mid, hes, -⟩
    · exact (h.fates pre m mid t hlog hm).deals h.ledger (h.deals hd)
    · -- the task was accepted by this call, and is the last in the queue
      have hmem : ⟨m.id, t⟩ ∈ tasks es := mem_tasks (by rw [hes]; simp) hm
      cases h.deals hd with
      | idle _ _ _ htasks _ _ _ | ends _ htasks _ _ _ =>
        rw [htasks] at hmem
        cases hmem
      | @enters m' t' _ hm' _ hone hwork _ =>
        have hpost : post = [] := by
          have hlen := congrArg List.length (hes.symm.trans hone)
          simp only [List.length_append, List.length_cons, List.length_nil] at hlen
          exact List.eq_nil_of_length_eq_zero (by omega)
        rw [hone, tasks_received hm', List.mem_singleton] at hmem
        rw [hpost, hmem]
        refine .left ⟨List.not_mem_nil, List.not_mem_nil⟩ fun _ => ?_
        rw [hwork]
        exact List.mem_append_right _ (List.mem_singleton_self _)
      | serves _ _ htwo _ _ =>
        rw [htwo] at hmem
        cases hmem

/-! ## Whole runs -/

variable {L : Type} [Link L] {x : Course L}

theorem Kept.run (h : Kept x.session x.log) (calls : List (Call L)) :
    Kept (x.run calls).session (x.run calls).log :=
  run_induction (fun _ _ _ _ hs hd => hs.did hd) h calls

/-- **A session that takes no messages is done with its requests.** -/
theorem late_run (hshut : x.session.open? = false) (calls : List (Call L)) :
    (x.run calls).session.open? = false ∧
      ∃ es, (x.run calls).log = x.log ++ es ∧ ∀ e ∈ es, e.Late := by
  refine run_induction (P := fun s log => s.open? = false ∧
    ∃ es, log = x.log ++ es ∧ ∀ e ∈ es, e.Late) ?_ ?_ calls
  · rintro s log es s' ⟨hs, before, hlog, hbefore⟩ hd
    obtain ⟨hs', hlate⟩ := hd.late hs
    refine ⟨hs', before ++ es, by rw [hlog, List.append_assoc], fun e he => ?_⟩
    rcases List.mem_append.1 he with he | he
    · exact hbefore e he
    · exact hlate e he
  · exact ⟨hshut, [], (List.append_nil _).symm, fun e he => absurd he List.not_mem_nil⟩

/-- A session that takes messages has done so from the beginning. -/
theorem open?_of_run (calls : List (Call L)) (hopen : (x.run calls).session.open? = true) :
    x.session.open? = true := by
  refine Decidable.by_contra fun hshut => ?_
  rw [(late_run (by simpa using hshut) calls).1] at hopen
  cases hopen

/-- An id is used again only after the reply. -/
theorem Kept.reuse (h : Kept s log) {pre mid post : List Entry} {m m' : Message} {t : Task}
    {r : Request} (heq : log = pre ++ .received m true :: (mid ++ .received m' true :: post))
    (hm : m.payload.request? = some (.task t)) (hm' : m'.payload.request? = some r)
    (hid : m'.id = m.id) :
    ∃ before p after, mid = before ++ .ran ⟨m.id, t⟩ :: .sent ⟨m.id, p⟩ :: after ∧
      t.Answers p := by
  have hfate := h.fates pre m _ t heq hm
  have hused {es : List Entry} (hmem : .received m' true ∈ es) : m.id ∈ taken es :=
    hid ▸ mem_taken hmem hm'
  cases hfate with
  | @done before rest p hpost hp hbefore =>
    rcases split_append hpost with ⟨after, hmid, hrest⟩ | ⟨after, hlater, hearlier⟩
    · -- the run is before the second request, and so is the reply that follows it
      cases after with
      | nil => cases hrest
      | cons e after =>
        obtain ⟨rfl, -⟩ := List.cons.inj hrest
        exact ⟨before, p, after, hmid, hp⟩
    · cases after with
      | nil => cases hlater
      | cons e after =>
        obtain ⟨rfl, -⟩ := List.cons.inj hlater
        have hmem : .received m' true ∈ before := by rw [hearlier]; simp
        exact absurd (hused hmem) hbefore.1
  | left hpost => exact absurd (hused (by simp)) hpost.1

/-! ## Progress -/

/-- The calls of the worker. -/
def Call.works : Call L → Bool
  | .work => true
  | _ => false

theorem executed_entries (os : List Output) : executed (os.map Output.entry) = [] := by
  refine List.filterMap_eq_nil_iff.2 fun e he => ?_
  obtain ⟨o, -, rfl⟩ := List.mem_map.1 he
  cases o <;> rfl

/-- A running worker runs the oldest task. -/
theorem executed_work (hrunning : x.session.running = true) (hs : x.session.Serving) {w : Work}
    {rest : List Work} (hwork : x.session.work = w :: rest) :
    executed (x.step .work).log = executed x.log ++ [w] := by
  have hran : (x.session.iterate x.fleet).1 = some w := by
    rw [Session.iterate, if_pos hrunning, hwork]
    have hwanted : x.session.phase = .ready ∧ x.session.pingClaimed = false := hs
    dsimp only
    rw [if_pos hwanted]
  simp only [step, executed_append, hran, executed_entries]
  rfl

theorem prefix_step (x : Course L) (c : Call L) : x.log <+: (x.step c).log := by
  obtain ⟨es, hlog, -⟩ := x.step_did c
  exact ⟨es, hlog.symm⟩

theorem prefix_run (x : Course L) (calls : List (Call L)) : x.log <+: (x.run calls).log := by
  induction calls generalizing x with
  | nil => exact List.prefix_refl _
  | cons c calls ih => exact (prefix_step x c).trans (ih (x.step c))

/-- Only a session that serves has work. -/
theorem serving_of_work (h : Kept s log) (hopen : s.open? = true) (hwork : s.work ≠ []) :
    s.Serving := by
  refine Decidable.by_contra fun hs => ?_
  have hphase := awaiting_of_not_serving hopen hs
  exact hwork (h.orderly.fresh hphase).2.2.1

/-- As many tasks are run as the worker is called, or as there were. -/
theorem executed_run (h : Kept x.session x.log) {n : Nat} (hn : n ≤ (tasks x.log).length)
    (calls : List (Call L))
    (hrunning : ∀ pre, pre <+: calls → (x.run pre).session.running = true)
    (hopen : (x.run calls).session.open? = true) :
    min n ((executed x.log).length + calls.countP Call.works) ≤
      (executed (x.run calls).log).length := by
  induction calls generalizing x with
  | nil => exact Nat.min_le_right _ _
  | cons c calls ih =>
    have hkept : Kept (x.step c).session (x.step c).log := h.run [c]
    have hlog := prefix_step x c
    have htasks : (tasks x.log).length ≤ (tasks (x.step c).log).length :=
      (hlog.filterMap _).length_le
    have hexecuted : (executed x.log).length ≤ (executed (x.step c).log).length :=
      (hlog.filterMap _).length_le
    have hrest := ih hkept (Nat.le_trans hn htasks)
      (fun pre hpre => hrunning (c :: pre) (List.cons_prefix_cons.2 ⟨rfl, hpre⟩)) hopen
    refine Nat.le_trans ?_ hrest
    rw [List.countP_cons]
    cases c with
    | work =>
      have hbefore : x.session.open? = true := open?_of_run (.work :: calls) hopen
      have hnow : x.session.running = true := hrunning [] List.nil_prefix
      cases hwork : x.session.work with
      | nil =>
        -- there is nothing that was not run yet
        have hall := (h.ledger hbefore).tasks
        rw [hwork, List.append_nil] at hall
        rw [hall] at hn
        omega
      | cons w rest =>
        have hs := serving_of_work h hbefore (by rw [hwork]; exact List.cons_ne_nil _ _)
        rw [executed_work hnow hs hwork, List.length_append]
        simp only [Call.works, if_true, List.length_singleton]
        omega
    | _ =>
      simp only [Call.works, Bool.false_eq_true, if_false]
      omega

/-- **Every accepted task is run**, if the worker is called often enough while messages
are taken. -/
theorem tasks_prefix_executed (h : Kept x.session x.log) (calls : List (Call L))
    (hrunning : ∀ pre, pre <+: calls → (x.run pre).session.running = true)
    (hopen : (x.run calls).session.open? = true)
    (hn : x.session.work.length ≤ calls.countP Call.works) :
    tasks x.log <+: executed (x.run calls).log := by
  have hbefore : x.session.open? = true := open?_of_run calls hopen
  have hlength := congrArg List.length (h.ledger hbefore).tasks
  rw [List.length_append] at hlength
  have hmin := executed_run h (Nat.le_refl _) calls hrunning hopen
  refine List.prefix_of_prefix_length_le ((prefix_run x calls).filterMap _) (h.run calls).order ?_
  show (tasks x.log).length ≤ _
  omega

/-! ## The main statement -/

/-- **Requests and replies belong together**, at a point that a run has led to. -/
structure Correlated (x : Course L) : Prop where
  /-- While messages are taken, the ids without a reply are those of the queue, and each
  is there once. -/
  outstanding : x.session.open? = true →
    x.session.outstanding = x.session.work.map Work.id ∧ x.session.outstanding.Nodup
  /-- The tasks are run in the order in which they were accepted, each once. -/
  order : executed x.log <+: tasks x.log
  /-- While messages are taken, none is lost. -/
  waiting : x.session.open? = true → tasks x.log = executed x.log ++ x.session.work
  /-- Whatever is run is answered at once, by what fits it. -/
  answered : ∀ pre w post, x.log = pre ++ .ran w :: post →
    ∃ p rest, post = .sent ⟨w.id, p⟩ :: rest ∧ w.task.Answers p
  /-- A request for the devices is answered at once. -/
  listed : ∀ pre m post, x.log = pre ++ .received m true :: post →
    m.payload = .deviceListRequest →
      ∃ devices rest, post = .sent ⟨m.id, .deviceListReply devices⟩ :: rest
  /-- Nothing is sent with an id but the answer to what is right before it. -/
  caused : ∀ pre m post, x.log = pre ++ .sent m :: post → m.id ≠ 0 →
    ∃ before e, pre = before ++ [e] ∧ e.AnsweredBy m
  /-- A task is run and answered before its id is used again, or it waits, or it has been
  left without an answer by a session that takes no messages. -/
  fates : ∀ pre m post t, x.log = pre ++ .received m true :: post →
    m.payload.request? = some (.task t) → x.session.Fate ⟨m.id, t⟩ post
  /-- Such a session runs nothing more, and sends nothing but events. -/
  mute : x.session.open? = false → ∀ calls, (x.run calls).session.open? = false ∧
    ∃ es, (x.run calls).log = x.log ++ es ∧ ∀ e ∈ es, e.Late
  /-- An id is used again only after its reply. -/
  reuse : ∀ pre m mid m' post t r,
    x.log = pre ++ .received m true :: (mid ++ .received m' true :: post) →
      m.payload.request? = some (.task t) → m'.payload.request? = some r → m'.id = m.id →
        ∃ before p after, mid = before ++ .ran ⟨m.id, t⟩ :: .sent ⟨m.id, p⟩ :: after ∧
          t.Answers p
  /-- No more messages are sent with an id than came with it. -/
  counts_le : ∀ k, k ≠ 0 → answers k x.log ≤ asked k x.log
  /-- While messages are taken, it is as many, but for the request that waits. -/
  counts : x.session.open? = true → ∀ k, k ≠ 0 →
    asked k x.log = answers k x.log + if k ∈ x.session.outstanding then 1 else 0
  /-- A worker that is called often enough leaves no task behind. -/
  progress : ∀ calls, (∀ pre, pre <+: calls → (x.run pre).session.running = true) →
    (x.run calls).session.open? = true → x.session.work.length ≤ calls.countP Call.works →
      tasks x.log <+: executed (x.run calls).log

theorem Kept.correlated (h : Kept x.session x.log) : Correlated x where
  outstanding hopen := ⟨(h.ledger hopen).outstanding, (h.ledger hopen).distinct⟩
  order := h.order
  waiting hopen := (h.ledger hopen).tasks
  answered pre w post heq := by
    obtain ⟨m, rest, rfl, hm⟩ := h.exchanges.answer heq id fun m hc => nomatch hc
    obtain ⟨hid, hp⟩ := hm
    exact ⟨m.payload, rest, by rw [← hid], hp⟩
  listed pre m post heq hm := by
    have hrequest : ¬ (Entry.received m true).Aside := by
      rintro (hping | ⟨t, ht⟩)
      · rw [hm] at hping; cases hping
      · rw [hm] at ht; cases ht
    obtain ⟨r, rest, rfl, hid, hr⟩ := h.exchanges.answer heq hrequest fun m hc => nomatch hc
    rw [hm] at hr
    obtain ⟨devices, hdevices⟩ := hr
    exact ⟨devices, rest, by rw [← hid, ← hdevices]⟩
  caused pre m post heq hid := h.exchanges.caused heq hid
  fates := h.fates
  mute := late_run
  reuse pre m mid m' post t r heq hm hm' hid := h.reuse heq hm hm' hid
  counts_le := h.counts
  counts hopen k hk := by
    rw [(h.ledger hopen).counts k hk, (h.ledger hopen).distinct.count]
  progress calls hrunning hopen hn := tasks_prefix_executed h calls hrunning hopen hn

/-- **In every run requests and replies belong together**, with any fleet, links and
events. -/
theorem correlated_of_run (name : String) (terms : Terms) (t : Time) (f : Fleet L)
    (m : Option Emitter) (calls : List (Call L)) :
    Correlated ((begin name terms t f m).run calls) :=
  (Kept.run (x := begin name terms t f m) (kept_begin name terms t) calls).correlated

/-- A client that pings before the handshake. -/
def hasty : Course SimulatedLink :=
  (begin "client" {} 0 {} none).run [.receive ⟨5, .ping⟩ 0]

/-- The ping is answered by an error, though no other message came with its id. -/
theorem hasty_answered :
    ¬ answers 5 hasty.log ≤ hasty.log.countP (speaks 5) := by
  decide +kernel

end Course

end Haptics
