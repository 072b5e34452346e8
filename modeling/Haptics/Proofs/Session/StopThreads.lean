import Haptics.Proofs.Fleet.Commanding
import Haptics.Proofs.Fleet.SteadyStops
import Haptics.Proofs.Session.Commons
import Mathlib.Data.List.Induction
/-!
# Safety stops at the same time

When the silence of several clients is claimed at once, each of their sessions has a thread that
stops the devices in its scope, one after the other, and then closes the session
(`Commons.overdue`). The threads share the fleet and take their steps in any order
(`Commons.threads`). Whatever that order and whatever the links do, a thread is done after a number
of steps that is known before (`finished_of_count`), and then it has closed its session
(`session_of_done`). If no write is refused, the devices that were stopped
when all are done are those in the scope of one of the sessions (`stilled_of_finished`), so the
outputs do not depend on the order either.
-/

namespace Haptics

namespace Party

variable {L : Type}

/-- The devices that the safety stop of a party has yet to come to. -/
def targets (p : Party) (f : Fleet L) : List Nat :=
  match p.watch with
  | .claimed => p.session.stopTargets f
  | .stopping sweep => sweep.targets
  | _ => []

/-- The safety stop of `s` is under way, and the session is closed when it is done. -/
structure Halting (s : Session) (p : Party) : Prop where
  session : p.session = if p.watch = .done then (s.close .pingTimeout).1 else s
  claimed : p.watch ≠ .watching

variable [Link L] {s : Session} {p : Party} {f g : Fleet L}

theorem Halting.follow (h : p.Halting s) (f : Fleet L) (m : Emitter) :
    (p.follow f m).party.Halting s := by
  have hsession := h.session
  unfold Party.follow
  cases hw : p.watch with
  | watching => exact absurd hw h.claimed
  | done => exact h
  | claimed =>
    rw [hw, if_neg (by simp)] at hsession
    exact ⟨by rw [if_neg (by simp)]; exact hsession, by simp⟩
  | stopping sweep =>
    rw [hw, if_neg (by simp)] at hsession
    dsimp only
    split
    · exact ⟨by rw [if_neg (by simp)]; exact hsession, by simp⟩
    · exact ⟨by rw [if_neg (by simp)]; exact hsession, by simp⟩
  | stopped =>
    rw [hw, if_neg (by simp)] at hsession
    refine ⟨?_, by simp⟩
    rw [if_pos rfl, ← hsession]
    rfl

/-- **One step of a safety stop** stops the device that comes next, or leaves the fleet alone. -/
theorem follow_cases (p : Party) (f : Fleet L) (m : Emitter) :
    ((p.follow f m).fleet = f ∧ (p.follow f m).trace = [] ∧
        ∀ g : Fleet L, p.session.stopTargets g = p.session.stopTargets f →
          (p.follow f m).party.targets g = p.targets g) ∨
      ∃ j rest r, (∀ g : Fleet L, p.targets g = j :: rest) ∧
        (p.follow f m).fleet = (f.stopOne r j).fleet ∧
        (p.follow f m).trace = (f.stopOne r j).trace ∧
        ∀ g : Fleet L, (p.follow f m).party.targets g = rest := by
  unfold follow targets
  cases hw : p.watch with
  | watching => exact Or.inl ⟨rfl, rfl, fun g _ => by simp [hw]⟩
  | done => exact Or.inl ⟨rfl, rfl, fun g _ => by simp [hw]⟩
  | claimed => exact Or.inl ⟨rfl, rfl, fun g hg => hg.symm⟩
  | stopped => exact Or.inl ⟨rfl, rfl, fun g _ => rfl⟩
  | stopping sweep =>
    dsimp only
    split
    · rename_i hnone
      exact Or.inl ⟨rfl, rfl, fun g _ => hnone.symm⟩
    · rename_i j rest hnext
      exact Or.inr ⟨j, rest, sweep.report, fun _ => hnext, rfl, rfl, fun _ => rfl⟩

/-- How many steps a safety stop has left at most, in a fleet of `n` devices. -/
def stepsLeft (n : Nat) (p : Party) : Nat :=
  match p.watch with
  | .watching | .done => 0
  | .claimed => n + 3
  | .stopping sweep => sweep.targets.length + 2
  | .stopped => 1

omit [Link L] in
theorem length_stopTargets (s : Session) (f : Fleet L) :
    (s.stopTargets f).length ≤ f.devices.length := by
  have hconnected : f.connectedIndices.length ≤ f.devices.length :=
    (List.length_filter_le _ _).trans (Nat.le_of_eq List.length_range)
  unfold Session.stopTargets
  split
  · exact hconnected
  · exact (List.length_filter_le _ _).trans hconnected

theorem length_follow (p : Party) (f : Fleet L) (m : Emitter) :
    (p.follow f m).fleet.devices.length = f.devices.length := by
  rcases p.follow_cases f m with ⟨hfleet, -⟩ | ⟨j, -, r, -, hfleet, -⟩
  · rw [hfleet]
  · rw [hfleet, Fleet.length_stopOne]

/-- **Each step brings the safety stop nearer to its end.** -/
theorem stepsLeft_follow (p : Party) (f : Fleet L) (m : Emitter) :
    (p.follow f m).party.stepsLeft f.devices.length ≤ p.stepsLeft f.devices.length - 1 := by
  unfold follow stepsLeft
  cases hw : p.watch with
  | watching => simp [hw]
  | done => simp [hw]
  | claimed =>
    have hlen := length_stopTargets p.session f
    dsimp only
    omega
  | stopped => simp
  | stopping sweep =>
    cases hnext : sweep.targets with
    | nil => simp [hnext]
    | cons j rest => simp [hnext]

omit [Link L] in
theorem done_of_stepsLeft {n : Nat} (hleft : p.stepsLeft n = 0) (hclaimed : p.watch ≠ .watching) :
    p.watch = .done := by
  unfold stepsLeft at hleft
  cases hw : p.watch with
  | watching => exact absurd hw hclaimed
  | done => rfl
  | claimed => simp [hw] at hleft
  | stopping sweep => simp [hw] at hleft
  | stopped => simp [hw] at hleft

end Party

namespace Commons

variable {ι L : Type} [DecidableEq ι] [Link L] {sessions : ι → Session} {f : Fleet L}
  {a : Audience} {x : Commons ι L} {is : List Nat} {order : List ι}

/-- Sessions whose clients' silence was claimed, before their safety stops. -/
def overdue (sessions : ι → Session) (f : Fleet L) (a : Audience) : Commons ι L :=
  { party := fun i => { session := sessions i, watch := .claimed }, fleet := f, audience := a }

/-- The threads of the safety stops take steps in some order. -/
def threads (x : Commons ι L) (order : List ι) : Commons ι L :=
  x.run (order.map fun i => .act i .follow fun _ => 0)

/-- All threads are done. -/
def Finished (x : Commons ι L) : Prop := ∀ i, (x.party i).watch = .done

theorem threads_concat (x : Commons ι L) (order : List ι) (i : ι) :
    x.threads (order ++ [i]) = (x.threads order).step (.act i .follow fun _ => 0) := by
  rw [threads, threads, run, List.map_append, List.foldl_append]
  rfl

/-- A step of a thread: what it leaves of its own party and of the fleet. -/
theorem step_follow (x : Commons ι L) (i : ι) (now : DeviceEvent → Int) :
    (x.step (.act i .follow now)).party i =
        ((x.party i).follow x.fleet x.audience.emitter).party ∧
      (∀ k, k ≠ i → (x.step (.act i .follow now)).party k = x.party k) ∧
      (x.step (.act i .follow now)).fleet =
        ((x.party i).follow x.fleet x.audience.emitter).fleet ∧
      (x.step (.act i .follow now)).happened =
        x.happened ++ ((x.party i).follow x.fleet x.audience.emitter).trace :=
  ⟨party_settle_self x i _, fun _ hk => party_settle_of_ne hk x _, rfl, rfl⟩

/-- Whose safety stop is under way stays so. -/
theorem halting_threads (sessions : ι → Session) (f : Fleet L) (a : Audience) (order : List ι)
    (k : ι) : (((overdue sessions f a).threads order).party k).Halting (sessions k) := by
  induction order using List.reverseRecOn with
  | nil => exact ⟨rfl, by simp [threads, run, overdue]⟩
  | append_singleton order i ih =>
    obtain ⟨hself, hothers, -, -⟩ :=
      step_follow ((overdue sessions f a).threads order) i fun _ => 0
    rw [threads_concat]
    by_cases hk : k = i
    · rw [hk] at ih ⊢
      rw [hself]
      exact ih.follow _ _
    · rw [hothers k hk]
      exact ih

/-- **A thread that is done has closed its session.** -/
theorem session_of_done {i : ι}
    (hdone : (((overdue sessions f a).threads order).party i).watch = .done) :
    (((overdue sessions f a).threads order).party i).session =
      ((sessions i).close .pingTimeout).1 := by
  have hsession := (halting_threads sessions f a order i).session
  rw [if_pos hdone] at hsession
  exact hsession

theorem stepsLeft_threads (sessions : ι → Session) (f : Fleet L) (a : Audience) (order : List ι) :
    ((overdue sessions f a).threads order).fleet.devices.length = f.devices.length ∧
      ∀ k, (((overdue sessions f a).threads order).party k).stepsLeft f.devices.length ≤
        f.devices.length + 3 - order.count k := by
  induction order using List.reverseRecOn with
  | nil => exact ⟨rfl, fun k => Nat.le_refl _⟩
  | append_singleton order i ih =>
    obtain ⟨hlen, hleft⟩ := ih
    obtain ⟨hself, hothers, hfleet, -⟩ :=
      step_follow ((overdue sessions f a).threads order) i fun _ => 0
    rw [threads_concat]
    refine ⟨by rw [hfleet, Party.length_follow, hlen], fun k => ?_⟩
    rw [List.count_append, List.count_singleton]
    by_cases hk : k = i
    · rw [hk, hself]
      have hstep := (((overdue sessions f a).threads order).party i).stepsLeft_follow
        ((overdue sessions f a).threads order).fleet
        ((overdue sessions f a).threads order).audience.emitter
      rw [hlen] at hstep
      have hbefore := hleft i
      rw [if_pos (beq_self_eq_true i)]
      omega
    · rw [hothers k hk, if_neg (by simpa using Ne.symm hk)]
      exact hleft k

/-- **The threads come to an end**, in any order in which each of them takes enough steps. -/
theorem finished_of_count (sessions : ι → Session) (f : Fleet L) (a : Audience)
    (h : ∀ i, f.devices.length + 3 ≤ order.count i) :
    ((overdue sessions f a).threads order).Finished := by
  intro i
  have hleft := (stepsLeft_threads sessions f a order).2 i
  have hclaimed := (halting_threads sessions f a order i).claimed
  have hcount := h i
  have hnone : (((overdue sessions f a).threads order).party i).stepsLeft f.devices.length = 0 := by
    omega
  exact Party.done_of_stepsLeft hnone hclaimed

/-- **Where the threads stand**, while no write is refused: the devices of `is` were stopped, all of
them in the scope of one of the sessions, and every device in a scope was stopped or is still ahead
of the thread. -/
structure Stopping (sessions : ι → Session) (f : Fleet L) (x : Commons ι L) (is : List Nat) :
    Prop where
  stilled : f.Stilled is x.fleet x.happened
  scope : ∀ j ∈ is, ∃ i, j ∈ (sessions i).stopTargets f
  ahead : ∀ i, ∀ j ∈ (x.party i).targets f, j ∈ (sessions i).stopTargets f
  covered : ∀ i, ∀ j ∈ (sessions i).stopTargets f, j ∈ is ∨ j ∈ (x.party i).targets f

omit [DecidableEq ι] [Link L] in
theorem stopping_overdue (sessions : ι → Session) (f : Fleet L) (a : Audience) :
    Stopping sessions f (overdue sessions f a) [] where
  stilled := .refl f
  scope _ hj := absurd hj List.not_mem_nil
  ahead _ _ hj := hj
  covered _ _ hj := Or.inr hj

omit [DecidableEq ι] [Link L] in
/-- A step of a thread that leaves the fleet alone, so that the same devices are ahead. -/
theorem Stopping.still {y : Commons ι L} (h : Stopping sessions f x is)
    (hfleet : y.fleet = x.fleet) (hhappened : y.happened = x.happened)
    (hahead : ∀ i, (y.party i).targets f = (x.party i).targets f) :
    Stopping sessions f y is where
  stilled := by
    rw [hfleet, hhappened]
    exact h.stilled
  scope := h.scope
  ahead i := by
    rw [hahead]
    exact h.ahead i
  covered i := by
    rw [hahead]
    exact h.covered i

/-- A step of a thread that stops the device that is next. -/
theorem Stopping.stopOne {y : Commons ι L} {i : ι} {j : Nat} {rest : List Nat} {r : StopReport}
    (h : Stopping sessions f x is) (hfleet : y.fleet = (x.fleet.stopOne r j).fleet)
    (hhappened : y.happened = x.happened ++ (x.fleet.stopOne r j).trace)
    (hnext : (x.party i).targets f = j :: rest) (hrest : (y.party i).targets f = rest)
    (hothers : ∀ k, k ≠ i → y.party k = x.party k) (hsmooth : Smooth y.happened) :
    Stopping sessions f y (j :: is) where
  stilled := by
    rw [hhappened] at hsmooth
    rw [hfleet, hhappened]
    exact h.stilled.stopOne r j (smooth_append.1 hsmooth).2
  scope k hk := by
    rcases List.mem_cons.1 hk with rfl | hk
    · exact ⟨i, h.ahead i k (hnext ▸ List.mem_cons_self)⟩
    · exact h.scope k hk
  ahead k := by
    by_cases hk : k = i
    · rw [hk, hrest]
      intro m hm
      exact h.ahead i m (hnext ▸ List.mem_cons_of_mem j hm)
    · rw [hothers k hk]
      exact h.ahead k
  covered k m hm := by
    rcases h.covered k m hm with hdone | hahead
    · exact Or.inl (List.mem_cons_of_mem j hdone)
    · by_cases hk : k = i
      · rw [hk, hnext] at hahead
        rw [hk, hrest]
        rcases List.mem_cons.1 hahead with rfl | hlater
        · exact Or.inl List.mem_cons_self
        · exact Or.inr hlater
      · rw [hothers k hk]
        exact Or.inr hahead

/-- **One step of a thread** of which no write is refused. -/
theorem Stopping.step (h : Stopping sessions f x is) (i : ι) (now : DeviceEvent → Int)
    (hsmooth : Smooth (x.step (.act i .follow now)).happened) :
    ∃ js, Stopping sessions f (x.step (.act i .follow now)) js := by
  obtain ⟨hself, hothers, hfleet, hhappened⟩ := step_follow x i now
  rcases Party.follow_cases (x.party i) x.fleet x.audience.emitter with
    ⟨hsame, hnothing, htargets⟩ | ⟨j, rest, r, hnext, hstopped, htrace, hrest⟩
  · rw [hnothing, List.append_nil] at hhappened
    refine ⟨is, h.still (hfleet.trans hsame) hhappened fun k => ?_⟩
    by_cases hk : k = i
    · rw [hk, hself]
      exact htargets f (h.stilled.steady.stopTargets_eq _).symm
    · rw [hothers k hk]
  · rw [htrace] at hhappened
    have hrest' : ((x.step (.act i .follow now)).party i).targets f = rest := by
      rw [hself]
      exact hrest f
    exact ⟨j :: is, h.stopOne (hfleet.trans hstopped) hhappened (hnext f) hrest' hothers hsmooth⟩

theorem stopping_threads (sessions : ι → Session) (f : Fleet L) (a : Audience) (order : List ι)
    (hsmooth : Smooth ((overdue sessions f a).threads order).happened) :
    ∃ is, Stopping sessions f ((overdue sessions f a).threads order) is := by
  induction order using List.reverseRecOn with
  | nil => exact ⟨[], stopping_overdue sessions f a⟩
  | append_singleton order i ih =>
    rw [threads_concat] at hsmooth ⊢
    have hbefore := hsmooth
    rw [(step_follow _ i _).2.2.2] at hbefore
    obtain ⟨is, hstopping⟩ := ih (smooth_append.1 hbefore).1
    exact hstopping.step i _ hsmooth

/-- **When all threads are done**, the devices that were stopped are those in the scope of one of
the sessions. -/
theorem stilled_of_finished (hdone : ((overdue sessions f a).threads order).Finished)
    (hsmooth : Smooth ((overdue sessions f a).threads order).happened) :
    ∃ is, (∀ j, j ∈ is ↔ ∃ i, j ∈ (sessions i).stopTargets f) ∧
      f.Stilled is ((overdue sessions f a).threads order).fleet
        ((overdue sessions f a).threads order).happened := by
  obtain ⟨is, hstopping⟩ := stopping_threads sessions f a order hsmooth
  refine ⟨is, fun j => ⟨hstopping.scope j, ?_⟩, hstopping.stilled⟩
  rintro ⟨i, hj⟩
  rcases hstopping.covered i j hj with hstopped | hahead
  · exact hstopped
  · rw [Party.targets, hdone i] at hahead
    exact absurd hahead List.not_mem_nil

end Commons

end Haptics
