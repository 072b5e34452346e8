import Haptics.Link.Simulated
import Haptics.Proofs.Server.Fares
import Haptics.Proofs.Server.Seats
import Haptics.Proofs.Session.StopThreads
import Haptics.Server.Watch
/-!
# The watch over silent clients

A look of the monitor is three loops: over the numbers of the seats watched, of which those of
closed or vanished sessions are dropped; over those that are left, of which the silent ones are
claimed; and over the claimed ones, each of which has its safety stop and is closed. `Ticks` says
what it comes to for any sessions in any state, watched or not and however often.
-/

namespace Haptics

namespace Session

variable {L : Type}

/-- The session once the silence of its client is claimed. -/
def claimed (s : Session) : Session := { s with pingClaimed := true }

/-- The session after a safety stop for a silent client. -/
def expired (s : Session) : Session := (s.claimed.close .pingTimeout).1

@[simp] theorem name_claimed (s : Session) : s.claimed.name = s.name := rfl

theorem claim_of_silent {s : Session} {now : Time} (h : s.silent now = true) :
    s.claim now = (true, s.claimed) := if_pos h

theorem claim_of_not_silent {s : Session} {now : Time} (h : s.silent now = false) :
    s.claim now = (false, s) := if_neg (Bool.eq_false_iff.1 h)

/-- A silence is claimed once. -/
theorem silent_claimed (s : Session) (now : Time) : s.claimed.silent now = false := by
  simp [silent, claimed]

theorem safetyStop_congr [Link L] {s s' : Session} {f : Fleet L}
    (h : s'.stopTargets f = s.stopTargets f) : s'.safetyStop f = s.safetyStop f := by
  rw [safetyStop, safetyStop, h]

end Session

namespace Server

variable {L : Type} {s s' : Server L} {name : String} {seat : Seat} {number : Nat}
  {numbers : List Nat} {overdue : List Seat}

/-! ## Sessions that are gone -/

/-- A number is that of a session that is there and not closed. -/
def alive (s : Server L) (number : Nat) : Bool :=
  s.seats.entries.any fun e => e.2.number = number && e.2.session.phase ≠ .closed

/-- **Nobody else is dropped** than sessions that are closed or gone. -/
theorem Seated.monitor_prune (hs : s.Seated) :
    s.prune.monitor.seats = s.monitor.seats.filter s.alive := by
  refine List.filter_congr fun number _ => ?_
  rw [Bool.eq_iff_iff, alive, List.any_eq_true, Option.any_eq_true]
  constructor
  · rintro ⟨seat, hseat, hopen⟩
    obtain ⟨hget, hnumber⟩ := hs.seatNumbered?_iff.1 hseat
    exact ⟨_, hs.mem_entries.2 hget, by simpa [hnumber] using hopen⟩
  · rintro ⟨⟨name, seat⟩, he, hlive⟩
    simp only [Bool.and_eq_true, decide_eq_true_eq] at hlive
    have hname := hs.names _ he
    dsimp only at hname
    refine ⟨seat, hs.seatNumbered?_iff.2 ⟨?_, hlive.1⟩, by simpa using hlive.2⟩
    rw [hname]
    exact hs.mem_entries.1 he

theorem Seated.alive_of_ready (hs : s.Seated) (hseat : s.seats.get? name = some seat)
    (hready : seat.session.phase = .ready) : s.alive seat.number = true :=
  List.any_eq_true.2 ⟨_, hs.mem_entries.2 hseat, by simp [hready]⟩

/-! ## Claims -/

/-- **What the claims come to** over the numbers watched: the sessions of `overdue` are those that
are silent, each of them once, and nothing else changes. -/
structure Claims (s : Server L) (numbers : List Nat) (overdue : List Seat) (s' : Server L) :
    Prop where
  seated : s'.Seated
  overdue_iff : ∀ seat, seat ∈ overdue ↔ seat.number ∈ numbers ∧
    s.seats.get? seat.session.name = some seat ∧ seat.session.silent s.now = true
  apart : (overdue.map fun seat => seat.session.name).Nodup
  seats : ∀ name, s'.seats.get? name = (s.seats.get? name).map fun seat =>
    if seat ∈ overdue then { seat with session := seat.session.claimed } else seat
  monitor : s'.monitor = s.monitor
  attentive : s.Attentive → s'.Attentive
  goes : s.Goes s.fleet [] s'

/-- A number is passed over if it leads to nobody who is silent. -/
theorem Claims.skip (h : s.Claims numbers overdue s')
    (hskip : ∀ seat, s.seats.get? seat.session.name = some seat → seat.number = number →
      seat.session.silent s.now = false) : s.Claims (number :: numbers) overdue s' := by
  refine ⟨h.seated, fun seat => ?_, h.apart, h.seats, h.monitor, h.attentive, h.goes⟩
  rw [h.overdue_iff, List.mem_cons]
  refine and_congr_left fun ⟨hget, hsilent⟩ => (or_iff_right fun hnumber => ?_).symm
  rw [hskip seat hget hnumber] at hsilent
  cases hsilent

/-- What is read after a session was entered at its seat. -/
theorem get?_enter_eq (s : Server L) {session : Session}
    (hname : session.name = seat.session.name) (outputs : List Output) (name : String) :
    (s.enter seat session outputs).seats.get? name =
      if name = seat.session.name then some { seat with session } else s.seats.get? name := by
  rw [← hname]
  exact Table.get?_insert ..

/-- A session that is not silent is entered as it is. -/
theorem Claims.idle (hs : s.Seated) (hseat : s.seats.get? seat.session.name = some seat)
    (h : (s.enter seat seat.session []).Claims numbers overdue s') :
    s.Claims numbers overdue s' := by
  have hread : ∀ name, (s.enter seat seat.session []).seats.get? name = s.seats.get? name := by
    intro name
    rw [get?_enter_eq s rfl]
    split
    · rename_i hname
      rw [hname, hseat]
    · rfl
  refine ⟨h.seated, fun x => ?_, h.apart, fun name => ?_, h.monitor, fun hattentive => ?_, ?_⟩
  · rw [← hread]
    exact h.overdue_iff x
  · rw [← hread]
    exact h.seats name
  · exact h.attentive (hattentive.enter hseat rfl id [])
  · exact (goes_enter hs.named hseat (.refl _) seat []).still h.goes

/-- A session is silent no more once its silence is claimed, so it is not claimed again. -/
theorem Claims.once (h : (s.enter seat seat.session.claimed []).Claims numbers overdue s')
    {x : Seat} (hx : x ∈ overdue) : x.session.name ≠ seat.session.name := by
  intro hname
  obtain ⟨-, hget, hagain⟩ := (h.overdue_iff x).1 hx
  rw [get?_enter_eq s seat.session.name_claimed, if_pos hname] at hget
  cases hget
  exact absurd (hagain.symm.trans (Session.silent_claimed _ _)) (by simp)

/-- The silence of one more session is claimed. -/
theorem Claims.claim (hs : s.Seated) (hseat : s.seats.get? seat.session.name = some seat)
    (hsilent : seat.session.silent s.now = true)
    (h : (s.enter seat seat.session.claimed []).Claims numbers overdue s') :
    s.Claims (seat.number :: numbers) (seat :: overdue) s' := by
  have hread (name : String) : (s.enter seat seat.session.claimed []).seats.get? name =
      if name = seat.session.name then some { seat with session := seat.session.claimed }
      else s.seats.get? name := get?_enter_eq s seat.session.name_claimed [] name
  have hone : seat.session.Abides seat.session.claimed := by
    have hclaim := seat.session.abides_claim s.now
    rw [Session.claim_of_silent hsilent] at hclaim
    exact hclaim
  refine ⟨h.seated, fun x => ?_, ?_, fun name => ?_, h.monitor, fun hattentive => ?_, ?_⟩
  · rw [List.mem_cons, List.mem_cons]
    by_cases hname : x.session.name = seat.session.name
    · rw [or_iff_left fun hx => h.once hx hname]
      constructor
      · rintro rfl
        exact ⟨Or.inl rfl, hseat, hsilent⟩
      · rintro ⟨-, hget, -⟩
        rw [hname, hseat] at hget
        exact (Option.some.inj hget).symm
    · have hne : x ≠ seat := fun heq => hname (by rw [heq])
      rw [or_iff_right hne, h.overdue_iff, hread, if_neg hname]
      refine ⟨fun ⟨hnumber, hx⟩ => ⟨Or.inr hnumber, hx⟩, fun ⟨hnumber, hget, hx⟩ => ?_⟩
      refine ⟨hnumber.resolve_left fun heq => hne ?_, hget, hx⟩
      exact hs.eq_of_number hget hseat heq
  · rw [List.map_cons, List.nodup_cons]
    refine ⟨fun hmem => ?_, h.apart⟩
    obtain ⟨x, hx, hname⟩ := List.mem_map.1 hmem
    exact h.once hx hname
  · rw [h.seats, hread]
    by_cases hname : name = seat.session.name
    · have hnot : ({ seat with session := seat.session.claimed } : Seat) ∉ overdue :=
        fun hx => h.once hx rfl
      rw [if_pos hname, hname, hseat, Option.map_some, Option.map_some, if_neg hnot,
        if_pos List.mem_cons_self]
    · rw [if_neg hname]
      refine Option.map_congr fun x hx => ?_
      have hne : x ≠ seat := by
        rintro rfl
        exact hname (hs.named _ _ hx).symm
      have hmem : x ∈ seat :: overdue ↔ x ∈ overdue := by rw [List.mem_cons, or_iff_right hne]
      rw [if_congr hmem rfl rfl]
  · have henter : (s.enter seat seat.session.claimed []).Attentive := by
      refine hattentive.enter ?_ ?_ ?_ []
      · exact hseat
      · rfl
      · exact id
    exact h.attentive henter
  · exact (goes_enter hs.named hseat hone seat []).still h.goes

/-- **What the claims come to**, one number after the other. -/
theorem claims_claimEach [Link L] (hs : s.Seated) (numbers : List Nat) :
    ∃ overdue s', s.claimEach numbers = (overdue.map fun seat => seat.session.name, s') ∧
      s.Claims numbers overdue s' := by
  induction numbers generalizing s with
  | nil =>
    refine ⟨[], s, rfl, hs, fun seat => by simp, .nil, fun name => ?_, rfl, id, .refl s⟩
    simp
  | cons number numbers ih =>
    rw [claimEach]
    cases hfind : s.seatNumbered? number with
    | none =>
      obtain ⟨overdue, s', heq, hclaims⟩ := ih hs
      refine ⟨overdue, s', heq, hclaims.skip fun seat hget hnumber => ?_⟩
      rw [hs.seatNumbered?_iff.2 ⟨hget, hnumber⟩] at hfind
      cases hfind
    | some seat =>
      obtain ⟨hget, rfl⟩ := hs.seatNumbered?_iff.1 hfind
      cases hsilent : seat.session.silent s.now with
      | true =>
        have hclaim : s.claimPing seat.session.name =
            (true, s.enter seat seat.session.claimed []) := by
          rw [claimPing, hget]
          dsimp only
          rw [Session.claim_of_silent hsilent]
        have hseated : (s.enter seat seat.session.claimed []).Seated :=
          hs.enter hget rfl seat.session.name_claimed []
        obtain ⟨overdue, s', heq, hclaims⟩ := ih hseated
        refine ⟨seat :: overdue, s', ?_, Claims.claim hs hget hsilent hclaims⟩
        simp only [hclaim, heq, if_true, List.map_cons]
      | false =>
        have hclaim : s.claimPing seat.session.name = (false, s.enter seat seat.session []) := by
          rw [claimPing, hget]
          dsimp only
          rw [Session.claim_of_not_silent hsilent]
        obtain ⟨overdue, s', heq, hclaims⟩ := ih (hs.enter hget rfl rfl [])
        refine ⟨overdue, s', ?_, (Claims.idle hs hget hclaims).skip fun x hx hnumber => ?_⟩
        · simp only [hclaim, heq, Bool.false_eq_true, if_false]
        · rw [hs.eq_of_number hx hget hnumber]
          exact hsilent

/-! ## Safety stops -/

variable [Link L]

/-- **What the safety stop of one session comes to.** -/
theorem pingStop_spec (hn : s.Named) (hseat : s.seats.get? name = some seat) :
    s.Goes (seat.session.safetyStop s.fleet).fleet (seat.session.safetyStop s.fleet).trace
        (s.pingStop name) ∧
      s.Fares [name]
        (Fleet.emittedIn (seat.session.safetyStop s.fleet).trace ≠ [] ∧ ¬ s.Attentive)
        (s.pingStop name) ∧
      (s.Attentive → (s.pingStop name).Attentive) := by
  have hclose := seat.session.abides_close .pingTimeout
  have hstop : s.pingStop name = s.commit seat (seat.session.pingStop s.fleet) := by
    rw [pingStop, hseat]
  have hgoes : s.Goes (seat.session.pingStop s.fleet).fleet (seat.session.pingStop s.fleet).trace
      (s.commit seat (seat.session.pingStop s.fleet)) := goes_commit hn hseat hclose
  have hname : (seat.session.close .pingTimeout).1.name = name := hclose.name.trans (hn _ _ hseat)
  have henter : s.Fares [name]
      (Fleet.emittedIn (seat.session.safetyStop s.fleet).trace ≠ [] ∧ ¬ s.Attentive)
      (({ s with fleet := (seat.session.safetyStop s.fleet).fleet } : Server L).enter seat
        (seat.session.close .pingTimeout).1 (seat.session.close .pingTimeout).2) :=
    fares_insert hseat (congrArg (s.seats.insert · _) hname) rfl
      (seat.session.subscription_close .pingTimeout) rfl (spoils_of_emitter rfl)
      (fun _ hmem => List.mem_singleton.1 hmem) (Or.inl (if_pos List.mem_cons_self).symm)
  have hattentive (h : s.Attentive) :
      (({ s with fleet := (seat.session.safetyStop s.fleet).fleet } : Server L).enter seat
        (seat.session.close .pingTimeout).1 (seat.session.close .pingTimeout).2).Attentive := by
    have hbase : ({ s with fleet := (seat.session.safetyStop s.fleet).fleet } :
        Server L).Attentive := h
    refine hbase.enter (hname ▸ hseat) (seat.session.subscription_close .pingTimeout) ?_ _
    exact fun hforwards => absurd (Session.phase_close _ _) hforwards.2
  rw [hstop]
  refine ⟨hgoes, henter.trans ((fares_publish (henter.named hn) _).mono ?_), fun h => ?_⟩
  · exact fun ⟨htold, hbehind⟩ => ⟨htold, fun h => hbehind (hattentive h)⟩
  · exact attentive_publish (henter.named hn) (hattentive h) _

theorem Seated.pingStops (hs : s.Seated) (names : List String) :
    (names.foldl Server.pingStop s).Seated := by
  induction names generalizing s with
  | nil => exact hs
  | cons name names ih => exact ih (hs.pingStop name)

/-- **What the safety stops of several sessions come to**, one after the other. Each is for the
scope that its session had before the first of them. -/
theorem pingStops_spec (hn : s.Named) (sessions : List Session)
    (hseats : ∀ x ∈ sessions, ∃ seat, s.seats.get? x.name = some seat ∧
      ∀ f : Fleet L, seat.session.stopTargets f = x.stopTargets f) :
    s.Goes (s.fleet.stopEach sessions).fleet (s.fleet.stopEach sessions).trace
        ((sessions.map Session.name).foldl pingStop s) ∧
      s.Fares (sessions.map Session.name)
        (Fleet.emittedIn (s.fleet.stopEach sessions).trace ≠ [] ∧ ¬ s.Attentive)
        ((sessions.map Session.name).foldl pingStop s) ∧
      (s.Attentive → ((sessions.map Session.name).foldl pingStop s).Attentive) := by
  induction sessions generalizing s with
  | nil => exact ⟨.refl s, .refl s _, id⟩
  | cons x sessions ih =>
    obtain ⟨seat, hseat, hscope⟩ := hseats x List.mem_cons_self
    obtain ⟨hgoes, hfares, hattentive⟩ := pingStop_spec hn hseat
    rw [Session.safetyStop_congr (hscope s.fleet)] at hgoes hfares
    have hrest : ∀ y ∈ sessions, ∃ seat, (s.pingStop x.name).seats.get? y.name = some seat ∧
        ∀ f : Fleet L, seat.session.stopTargets f = y.stopTargets f := by
      intro y hy
      obtain ⟨seat, hseat, hscope⟩ := hseats y (List.mem_cons_of_mem x hy)
      obtain ⟨seat', hseat', hsame⟩ := hfares.scope hseat
      exact ⟨seat', hseat', fun f => (hsame f).trans (hscope f)⟩
    obtain ⟨hgoes', hfares', hattentive'⟩ := ih (hfares.named hn) hrest
    rw [hgoes.fleet] at hgoes' hfares'
    have htrace : (s.fleet.stopEach (x :: sessions)).trace = (x.safetyStop s.fleet).trace ++
        ((x.safetyStop s.fleet).fleet.stopEach sessions).trace := rfl
    have htold : Fleet.emittedIn (s.fleet.stopEach (x :: sessions)).trace =
        Fleet.emittedIn (x.safetyStop s.fleet).trace ++
          Fleet.emittedIn ((x.safetyStop s.fleet).fleet.stopEach sessions).trace := by
      rw [htrace, Fleet.emittedIn_append]
    refine ⟨hgoes.trans hgoes', ?_, fun h => hattentive' (hattentive h)⟩
    rw [htold]
    refine (hfares.mono ?_).trans (hfares'.mono ?_)
    · exact fun ⟨hne, hbehind⟩ => ⟨List.append_ne_nil_of_left_ne_nil hne _, hbehind⟩
    · exact fun ⟨hne, hbehind⟩ =>
        ⟨List.append_ne_nil_of_right_ne_nil _ hne, fun h => hbehind (hattentive h)⟩

/-! ## A look of the monitor -/

/-- The safety stops for the sessions of some seats, one after the other. -/
def stopsFor (s : Server L) (overdue : List Seat) : Outcome L (List StopReport) :=
  s.fleet.stopEach (overdue.map Seat.session)

/-- The safety stops for the sessions of some seats, as threads that take steps in some order. -/
def threadsFor (s : Server L) (overdue : List Seat) (a : Audience)
    (order : List (Fin overdue.length)) : Commons (Fin overdue.length) L :=
  (Commons.overdue (fun i => overdue[i].session.claimed) s.fleet a).threads order

/-- A session was closed by the forwarding of events: it was behind with them already, the safety
stops have caused more, and now its queue has overflowed. -/
structure Dropped (s : Server L) (overdue : List Seat) (s' : Server L) (before after : Session) :
    Prop where
  behind : ¬ s.Attentive
  told : Fleet.emittedIn (s.stopsFor overdue).trace ≠ []
  overrun : s'.Overrun before.name
  session : after = (before.close .cancelled).1

/-- **What a look of the monitor comes to**, where `overdue` are the seats of the sessions that it
finds silent. -/
structure Ticks (s : Server L) (overdue : List Seat) (r : Nat × Server L) : Prop where
  /-- Those are watched, ready and under a limit, their silence is not claimed yet, and it is
  longer than the limit. -/
  overdue_iff : ∀ seat, seat ∈ overdue ↔ seat.number ∈ s.monitor.seats ∧
    s.seats.get? seat.session.name = some seat ∧ seat.session.phase = .ready ∧
    seat.session.terms.maxPingTimeMs ≠ 0 ∧ seat.session.pingClaimed = false ∧
    (seat.session.terms.maxPingTimeMs.toNat : Int) < seat.session.silentMs s.now
  /-- Each of them counts once, however often it is watched. -/
  apart : (overdue.map Seat.number).Nodup
  count : r.1 = overdue.length
  /-- Who was closed or gone before is watched no more, and everybody else is. -/
  watched : r.2.monitor.seats = s.monitor.seats.filter s.alive
  /-- There was one safety stop for each of them, and nothing else was done to the fleet. -/
  fleet : r.2.fleet = (s.stopsFor overdue).fleet
  happened : r.2.happened = s.happened ++ (s.stopsFor overdue).trace
  /-- Each of them is closed for the silence of its client, if it was not dropped before. -/
  closed : ∀ seat ∈ overdue, ∃ seat', r.2.seats.get? seat.session.name = some seat' ∧
    seat'.number = seat.number ∧ seat'.session.phase = .closed ∧
    (seat'.session = seat.session.expired ∨
      s.Dropped overdue r.2 seat.session.claimed seat'.session)
  /-- Every other session is what it was, if it was not dropped. -/
  others : ∀ name seat, s.seats.get? name = some seat → seat ∉ overdue →
    ∃ seat', r.2.seats.get? name = some seat' ∧ seat'.number = seat.number ∧
      (seat'.session = seat.session ∨ s.Dropped overdue r.2 seat.session seat'.session)
  absent : ∀ name, s.seats.get? name = none → r.2.seats.get? name = none
  /-- No event is told of while no write is refused, so nobody is dropped then. -/
  untold : Smooth (s.stopsFor overdue).trace → Fleet.emittedIn (s.stopsFor overdue).trace = []
  /-- Other looks may follow, and no events are left to wait. -/
  seated : r.2.Seated
  attentive : s.Attentive → r.2.Attentive
  /-- Had the stops run at the same time, in any order of their steps, they would come to an
  end. -/
  ends : ∀ (a : Audience) (order : List (Fin overdue.length)),
    (∀ i, s.fleet.devices.length + 3 ≤ order.count i) → (s.threadsFor overdue a order).Finished
  /-- Each session would be closed for the silence of its client just so. -/
  threads : ∀ (a : Audience) (order : List (Fin overdue.length)),
    (s.threadsFor overdue a order).Finished →
      ∀ i, ((s.threadsFor overdue a order).party i).session = overdue[i].session.expired
  /-- If no write was refused in either case, the devices would have the same outputs. -/
  outputs : ∀ (a : Audience) (order : List (Fin overdue.length)),
    (s.threadsFor overdue a order).Finished → Smooth (s.threadsFor overdue a order).happened →
      Smooth (s.stopsFor overdue).trace →
        Fleet.SameOutputs (s.threadsFor overdue a order).happened (s.stopsFor overdue).trace
  /-- They would have the same outputs after any two orders. -/
  orders : ∀ (a a' : Audience) (order order' : List (Fin overdue.length)),
    (s.threadsFor overdue a order).Finished → Smooth (s.threadsFor overdue a order).happened →
      (s.threadsFor overdue a' order').Finished →
        Smooth (s.threadsFor overdue a' order').happened →
          Fleet.SameOutputs (s.threadsFor overdue a order).happened
            (s.threadsFor overdue a' order').happened

omit [Link L] in
theorem Seated.prune (hs : s.Seated) : s.prune.Seated := ⟨hs.keys, hs.names, hs.numbers, hs.given⟩

/-- To drop sessions from the watch leaves the forwarding of events alone. -/
theorem Dropped.of_prune {before after : Session} (h : s.prune.Dropped overdue s' before after) :
    s.Dropped overdue s' before after := ⟨h.behind, h.told, h.overrun, h.session⟩

/-- The stops that succeed, one after the other, stop the devices in the scope of one of the
sessions. -/
theorem stilled_stopsFor (s : Server L) (overdue : List Seat)
    (hsmooth : Smooth (s.stopsFor overdue).trace) :
    ∃ is, (∀ j, j ∈ is ↔ ∃ seat ∈ overdue, j ∈ seat.session.stopTargets s.fleet) ∧
      s.fleet.Stilled is (s.stopsFor overdue).fleet (s.stopsFor overdue).trace := by
  obtain ⟨is, his, hstilled⟩ :=
    (Fleet.Stilled.refl s.fleet).stopEach (overdue.map Seat.session) hsmooth
  refine ⟨is, fun j => ?_, hstilled⟩
  rw [his, or_iff_right List.not_mem_nil]
  constructor
  · rintro ⟨x, hx, hj⟩
    obtain ⟨seat, hseat, rfl⟩ := List.mem_map.1 hx
    exact ⟨seat, hseat, hj⟩
  · rintro ⟨seat, hseat, hj⟩
    exact ⟨seat.session, List.mem_map_of_mem hseat, hj⟩

/-- So do the threads when all of them are done. -/
theorem stilled_threadsFor (s : Server L) (overdue : List Seat) (a : Audience)
    (order : List (Fin overdue.length)) (hdone : (s.threadsFor overdue a order).Finished)
    (hsmooth : Smooth (s.threadsFor overdue a order).happened) :
    ∃ is, (∀ j, j ∈ is ↔ ∃ seat ∈ overdue, j ∈ seat.session.stopTargets s.fleet) ∧
      s.fleet.Stilled is (s.threadsFor overdue a order).fleet
        (s.threadsFor overdue a order).happened := by
  obtain ⟨is, his, hstilled⟩ := Commons.stilled_of_finished hdone hsmooth
  refine ⟨is, fun j => ?_, hstilled⟩
  rw [his]
  constructor
  · rintro ⟨i, hj⟩
    exact ⟨overdue[i], List.getElem_mem i.isLt, hj⟩
  · rintro ⟨seat, hseat, hj⟩
    obtain ⟨i, hi, rfl⟩ := List.getElem_of_mem hseat
    exact ⟨⟨i, hi⟩, hj⟩

/-- **What becomes of a session** when some were claimed and their safety stops have run. -/
theorem Claims.fate {c r : Server L} (hs : s.Seated) (h : s.Claims numbers overdue c)
    (hfares : c.Fares ((overdue.map Seat.session).map Session.name)
      (Fleet.emittedIn (s.stopsFor overdue).trace ≠ [] ∧ ¬ c.Attentive) r)
    (hseat : s.seats.get? name = some seat) :
    ∃ seat', r.seats.get? name = some seat' ∧ seat'.number = seat.number ∧
      if seat ∈ overdue then seat'.session = seat.session.expired ∨
        s.Dropped overdue r seat.session.claimed seat'.session
      else seat'.session = seat.session ∨ s.Dropped overdue r seat.session seat'.session := by
  have hname := hs.named name seat hseat
  have hmem : name ∈ (overdue.map Seat.session).map Session.name ↔ seat ∈ overdue := by
    simp only [List.mem_map, exists_exists_and_eq_and]
    constructor
    · rintro ⟨x, hx, hxname⟩
      have hget := ((h.overdue_iff x).1 hx).2.1
      rw [hxname, hseat] at hget
      cases hget
      exact hx
    · intro hx
      exact ⟨seat, hx, hname⟩
  have hclaimed := h.seats name
  rw [hseat, Option.map_some] at hclaimed
  obtain ⟨seat', hseat', hnumber, hfate⟩ := hfares.seats name _ hclaimed
  rw [if_congr hmem rfl rfl] at hfate
  refine ⟨seat', hseat', ?_, ?_⟩
  · rw [hnumber]
    split <;> rfl
  · have hdropped {before : Session} (hbefore : before.name = name)
        (hdrop : (Fleet.emittedIn (s.stopsFor overdue).trace ≠ [] ∧ ¬ c.Attentive) ∧
          r.Overrun name ∧ seat'.session = (before.close .cancelled).1) :
        s.Dropped overdue r before seat'.session := by
      obtain ⟨⟨htold, hbehind⟩, hover, hsession⟩ := hdrop
      exact ⟨fun hattentive => hbehind (h.attentive hattentive), htold, hbefore ▸ hover, hsession⟩
    split
    · rename_i hx
      rw [if_pos hx, if_pos hx] at hfate
      exact hfate.imp id (hdropped hname)
    · rename_i hx
      rw [if_neg hx, if_neg hx] at hfate
      exact hfate.imp id (hdropped hname)

omit [Link L] in
/-- **The claims of a look** are for the sessions that are silent. -/
theorem Claims.mem_iff {c : Server L} (hs : s.Seated)
    (h : s.prune.Claims s.prune.monitor.seats overdue c) (seat : Seat) :
    seat ∈ overdue ↔ seat.number ∈ s.monitor.seats ∧
      s.seats.get? seat.session.name = some seat ∧ seat.session.phase = .ready ∧
      seat.session.terms.maxPingTimeMs ≠ 0 ∧ seat.session.pingClaimed = false ∧
      (seat.session.terms.maxPingTimeMs.toNat : Int) < seat.session.silentMs s.now := by
  rw [h.overdue_iff, hs.monitor_prune, List.mem_filter, Session.silent_iff]
  constructor
  · rintro ⟨⟨hwatched, -⟩, hget, hsilent⟩
    exact ⟨hwatched, hget, hsilent⟩
  · rintro ⟨hwatched, hget, hready, hsilent⟩
    exact ⟨⟨hwatched, hs.alive_of_ready hget hready⟩, hget, hready, hsilent⟩

omit [Link L] in
theorem Claims.nodup_number {c : Server L} (hs : s.Seated) (h : s.Claims numbers overdue c) :
    (overdue.map Seat.number).Nodup := by
  have hnodup : overdue.Nodup := .of_map _ h.apart
  refine (List.nodup_map_iff_inj_on hnodup).2 fun seat hseat seat' hseat' hnumber => ?_
  exact hs.eq_of_number ((h.overdue_iff seat).1 hseat).2.1 ((h.overdue_iff seat').1 hseat').2.1
    hnumber

omit [Link L] in
/-- The scope of a safety stop does not depend on the claim. -/
theorem Claims.scope {c : Server L} (h : s.Claims numbers overdue c) {x : Session}
    (hx : x ∈ overdue.map Seat.session) : ∃ seat, c.seats.get? x.name = some seat ∧
      ∀ f : Fleet L, seat.session.stopTargets f = x.stopTargets f := by
  obtain ⟨seat, hseat, rfl⟩ := List.mem_map.1 hx
  have hget := h.seats seat.session.name
  rw [((h.overdue_iff seat).1 hseat).2.1, Option.map_some, if_pos hseat] at hget
  exact ⟨_, hget, fun _ => rfl⟩

/-- **What a look of the monitor comes to.** -/
theorem ticks_of_seated (hs : s.Seated) : ∃ overdue, s.Ticks overdue s.tick := by
  obtain ⟨overdue, c, hclaim, hclaims⟩ := claims_claimEach hs.prune s.prune.monitor.seats
  have hfleet : c.fleet = s.fleet := hclaims.goes.fleet
  obtain ⟨hgoes, hfares, hattentive⟩ :=
    pingStops_spec hclaims.seated.named (overdue.map Seat.session) fun _ hx => hclaims.scope hx
  rw [hfleet] at hgoes hfares
  have htick : s.tick =
      (overdue.length, ((overdue.map Seat.session).map Session.name).foldl pingStop c) := by
    rw [tick, List.map_map]
    dsimp only
    rw [hclaim, List.length_map]
    rfl
  have hfate {name : String} {seat : Seat} (hseat : s.seats.get? name = some seat) :=
    hclaims.fate hs.prune hfares hseat
  rw [htick]
  refine ⟨overdue,
    { overdue_iff := hclaims.mem_iff hs
      apart := hclaims.nodup_number hs.prune
      count := rfl
      watched := ?_
      fleet := hgoes.fleet
      happened := ?_
      closed := fun seat hseat => ?_
      others := fun name seat hseat hnot => ?_
      absent := fun name hnone => ?_
      untold := fun hsmooth => ?_
      seated := hclaims.seated.pingStops _
      attentive := fun h => hattentive (hclaims.attentive h)
      ends := fun a _ => Commons.finished_of_count _ s.fleet a
      threads := fun _ _ hdone i => Commons.session_of_done (hdone i)
      outputs := fun a order hdone hsmooth hsmooth' => ?_
      orders := fun a a' order order' hdone hsmooth hdone' hsmooth' => ?_ }⟩
  · rw [hfares.monitor, hclaims.monitor, hs.monitor_prune]
  · have hhappened := hgoes.happened
    rw [hclaims.goes.happened, List.append_nil] at hhappened
    exact hhappened
  · obtain ⟨seat', hseat', hnumber, hone⟩ := hfate ((hclaims.overdue_iff seat).1 hseat).2.1
    rw [if_pos hseat] at hone
    refine ⟨seat', hseat', hnumber, ?_, hone.imp_right Dropped.of_prune⟩
    rcases hone with hexpired | hdropped
    · rw [hexpired]
      exact Session.phase_close _ _
    · rw [hdropped.session]
      exact Session.phase_close _ _
  · obtain ⟨seat', hseat', hnumber, hone⟩ := hfate hseat
    rw [if_neg hnot] at hone
    exact ⟨seat', hseat', hnumber, hone.imp_right Dropped.of_prune⟩
  · refine hfares.absent name ?_
    rw [hclaims.seats]
    exact Option.map_eq_none_iff.2 hnone
  · obtain ⟨is, -, hstilled⟩ := stilled_stopsFor s overdue hsmooth
    exact hstilled.untold
  · obtain ⟨is, his, hstilled⟩ := stilled_threadsFor s overdue a order hdone hsmooth
    obtain ⟨js, hjs, hstilled'⟩ := stilled_stopsFor s overdue hsmooth'
    exact hstilled.sameOutputs hstilled' fun j => (his j).trans (hjs j).symm
  · obtain ⟨is, his, hstilled⟩ := stilled_threadsFor s overdue a order hdone hsmooth
    obtain ⟨js, hjs, hstilled'⟩ := stilled_threadsFor s overdue a' order' hdone' hsmooth'
    exact hstilled.sameOutputs hstilled' fun j => (his j).trans (hjs j).symm

/-- A client that has been silent for a minute, and whose session stops the device it commanded. -/
def silentSeat : Seat where
  number := 0
  session :=
    { name := "a", phase := .ready, terms := { stopScope := .session }, commanded := [0],
      lastActivity := 0 }

/-- Another one, whose session stops all devices. -/
def silentSeat' : Seat where
  number := 1
  session := { name := "b", phase := .ready, lastActivity := 0 }

/-- Six clients are watched, the first of them twice, and a seventh whose session is gone. The
others are as silent as the first two, but the session of one is closed, one has no limit, the
silence of one is claimed already, and one has made no handshake yet. -/
def silentClients : Server SimulatedLink where
  fleet := ((((({ rulebook := .builtin } : Fleet SimulatedLink).after
    (.addLink { device := {} })).after (.register ⟨"sim", "A", "LVS-Nora"⟩ [] (some 0))).after
    (.addLink { device := {} })).after (.register ⟨"sim", "B", "CycSA"⟩ [] (some 1)))
  monitor := { running := true, seats := [0, 1, 0, 2, 3, 4, 5, 6] }
  seats :=
    { entries :=
        [("a", silentSeat), ("b", silentSeat'),
          ("c", { number := 2, session := { name := "c", phase := .closed, lastActivity := 0 } }),
          ("d", { number := 3, session :=
            { name := "d", phase := .ready, terms := { maxPingTimeMs := 0 }, lastActivity := 0 } }),
          ("e", { number := 4, session :=
            { name := "e", phase := .ready, pingClaimed := true, lastActivity := 0 } }),
          ("f", { number := 5, session := { name := "f", lastActivity := 0 } })] }
  nextSeat := 7
  now := 60000000

/-- Two of them are found silent, and two entries of the watch are dropped. No stop is refused,
neither one after the other nor when the two sessions take turns. -/
theorem ticks_silentClients :
    silentClients.Seated ∧ (∃ overdue, silentClients.Ticks overdue silentClients.tick) ∧
      silentClients.tick.1 = 2 ∧ silentClients.tick.2.monitor.seats = [0, 1, 0, 3, 4, 5] ∧
      Smooth (silentClients.stopsFor [silentSeat, silentSeat']).trace ∧
      (silentClients.threadsFor [silentSeat, silentSeat'] (.opening 8 0)
        [0, 1, 1, 0, 0, 1, 1, 1, 0]).Finished ∧
      Smooth (silentClients.threadsFor [silentSeat, silentSeat'] (.opening 8 0)
        [0, 1, 1, 0, 0, 1, 1, 1, 0]).happened := by
  have hs : silentClients.Seated :=
    ⟨by decide +kernel, by decide +kernel, by decide +kernel, by decide +kernel⟩
  refine ⟨hs, ticks_of_seated hs, by decide +kernel, by decide +kernel, by decide +kernel, ?_,
    by decide +kernel⟩
  exact (by decide +kernel : ∀ i, ((silentClients.threadsFor [silentSeat, silentSeat']
    (.opening 8 0) [0, 1, 1, 0, 0, 1, 1, 1, 0]).party i).watch = .done)

end Server

end Haptics
