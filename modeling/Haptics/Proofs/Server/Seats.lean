import Haptics.Proofs.Server.Teardown
/-!
# Numbered seats

A name may be given to a session again when the one that had it is gone, but a seat has a number
that no other has or had (`Server.Seated`). Whatever clients, workers, scanners, the watch and a
teardown do, a server stays seated (`Teardown.seated_run`).
-/

namespace Haptics

namespace Server

variable {L : Type} {s s' : Server L} {name : String} {seat seat' : Seat} {number : Nat}

/-! ## Seated servers -/

/-- **A server is seated**: every session sits under its name, on a seat with a number of its own
that was given out. -/
structure Seated (s : Server L) : Prop where
  keys : s.seats.keys.Nodup
  names : ∀ e ∈ s.seats.entries, e.2.session.name = e.1
  numbers : ∀ e ∈ s.seats.entries, ∀ e' ∈ s.seats.entries, e.2.number = e'.2.number → e.1 = e'.1
  given : ∀ e ∈ s.seats.entries, e.2.number < s.nextSeat

/-- What stands in the table is what is found under its name. -/
theorem Seated.mem_entries (hs : s.Seated) :
    (name, seat) ∈ s.seats.entries ↔ s.seats.get? name = some seat :=
  Table.mem_entries_iff hs.keys

theorem Seated.named (hs : s.Seated) : s.Named :=
  fun _ _ hseat => hs.names _ (hs.mem_entries.2 hseat)

/-- Two seats with one number are the same seat. -/
theorem Seated.eq_of_number (hs : s.Seated) {name' : String} {seat' : Seat}
    (hseat : s.seats.get? name = some seat) (hseat' : s.seats.get? name' = some seat')
    (hnumber : seat.number = seat'.number) : seat = seat' := by
  have hname := hs.numbers _ (hs.mem_entries.2 hseat) _ (hs.mem_entries.2 hseat') hnumber
  dsimp only at hname
  rw [hname, hseat'] at hseat
  exact (Option.some.inj hseat).symm

/-- **A number leads to one seat.** -/
theorem Seated.seatNumbered?_iff (hs : s.Seated) :
    s.seatNumbered? number = some seat ↔
      s.seats.get? seat.session.name = some seat ∧ seat.number = number := by
  have hmem : ∀ {seat : Seat}, seat ∈ s.seats.entries.map Prod.snd ↔
      s.seats.get? seat.session.name = some seat := by
    intro seat
    rw [List.mem_map]
    constructor
    · rintro ⟨⟨name, seat'⟩, he, rfl⟩
      have hname := hs.names _ he
      dsimp only at hname ⊢
      rw [hname]
      exact hs.mem_entries.1 he
    · intro hseat
      exact ⟨_, hs.mem_entries.2 hseat, rfl⟩
  constructor
  · intro hfind
    exact ⟨hmem.1 (List.mem_of_find?_eq_some hfind), by simpa using List.find?_some hfind⟩
  · rintro ⟨hseat, hnumber⟩
    cases hfind : s.seatNumbered? number with
    | none =>
      have hnone := List.find?_eq_none.1 hfind seat (hmem.2 hseat)
      simp [hnumber] at hnone
    | some seat' =>
      have hseat' := hmem.1 (List.mem_of_find?_eq_some hfind)
      have hnumber' : seat'.number = number := by simpa using List.find?_some hfind
      rw [hs.eq_of_number hseat hseat' (hnumber.trans hnumber'.symm)]

/-- A seat takes the place of another under the same name, or is new. -/
theorem Seated.insert (hs : s.Seated) (seat : Seat) (hname : seat.session.name = name)
    (hown : ∀ name' seat', s.seats.get? name' = some seat' → seat'.number = seat.number →
      name' = name)
    (hnext : s.nextSeat ≤ s'.nextSeat) (hgiven : seat.number < s'.nextSeat)
    (hseats : s'.seats = s.seats.insert name seat) : s'.Seated := by
  have hkeys : s'.seats.keys.Nodup := hseats ▸ Table.nodup_keys_insert hs.keys name seat
  have hread : ∀ {e : String × Seat}, e ∈ s'.seats.entries →
      e = (name, seat) ∨ e.1 ≠ name ∧ s.seats.get? e.1 = some e.2 := by
    rintro ⟨name', seat'⟩ he
    have hget := (Table.mem_entries_iff hkeys).1 he
    rw [hseats, Table.get?_insert] at hget
    split at hget
    · rename_i heq
      rw [heq, Option.some.inj hget]
      exact Or.inl rfl
    · rename_i hne
      exact Or.inr ⟨hne, hget⟩
  refine ⟨hkeys, fun e he => ?_, fun e he e' he' hnumber => ?_, fun e he => ?_⟩
  · rcases hread he with rfl | ⟨-, hget⟩
    · exact hname
    · exact hs.names _ (hs.mem_entries.2 hget)
  · rcases hread he with rfl | ⟨-, hget⟩
    · rcases hread he' with rfl | ⟨-, hget'⟩
      · rfl
      · exact (hown _ _ hget' hnumber.symm).symm
    · rcases hread he' with rfl | ⟨-, hget'⟩
      · exact hown _ _ hget hnumber
      · exact hs.numbers _ (hs.mem_entries.2 hget) _ (hs.mem_entries.2 hget') hnumber
  · rcases hread he with rfl | ⟨-, hget⟩
    · exact hgiven
    · exact Nat.lt_of_lt_of_le (hs.given _ (hs.mem_entries.2 hget)) hnext

/-- A session makes a step at its seat. -/
theorem Seated.enter (hs : s.Seated) (hseat : s.seats.get? name = some seat)
    (hnumber : seat'.number = seat.number) {session : Session} (hname : session.name = name)
    (outputs : List Output) : (s.enter seat' session outputs).Seated := by
  subst hname
  refine hs.insert { seat' with session } rfl (fun name' x hx hnumber' => ?_) (Nat.le_refl _)
    (hnumber ▸ hs.given _ (hs.mem_entries.2 hseat)) rfl
  exact hs.numbers _ (hs.mem_entries.2 hx) _ (hs.mem_entries.2 hseat) (hnumber'.trans hnumber)

/-! ## Operations -/

/-- No session makes a step. -/
theorem Seated.aside (hs : s.Seated) (hseats : s'.seats = s.seats)
    (hnext : s'.nextSeat = s.nextSeat) : s'.Seated where
  keys := hseats ▸ hs.keys
  names := hseats ▸ hs.names
  numbers := hseats ▸ hs.numbers
  given := by
    rw [hseats, hnext]
    exact hs.given

/-- A new session gets a number that was not given out before. -/
theorem Seated.addSession [Link L] (hs : s.Seated) (name : String) (terms : Terms)
    (listens notifies : Bool) : (s.addSession name terms listens notifies).Seated := by
  refine hs.insert
    { number := s.nextSeat, session := { name, terms, lastActivity := s.now }, listens, notifies }
    rfl (fun name' x hx hnumber => ?_) (Nat.le_succ _) (Nat.lt_succ_self _) rfl
  have hgiven := hs.given _ (hs.mem_entries.2 hx)
  dsimp only at hgiven hnumber
  omega

/-- A channel belongs to its seat, whose session and number it leaves alone. -/
theorem Seated.onChannel (hs : s.Seated) (name : String) (change : Channel → Channel) :
    (s.onChannel name change).Seated := by
  have hentries : (s.onChannel name change).seats.entries = s.seats.entries.map fun e =>
      if e.1 = name then (e.1, { e.2 with channel := change e.2.channel }) else e := rfl
  have hread : ∀ e' ∈ (s.onChannel name change).seats.entries, ∃ e ∈ s.seats.entries,
      e'.1 = e.1 ∧ e'.2.session = e.2.session ∧ e'.2.number = e.2.number := by
    intro e' he'
    rw [hentries] at he'
    obtain ⟨e, he, rfl⟩ := List.mem_map.1 he'
    refine ⟨e, he, ?_⟩
    split
    · exact ⟨rfl, rfl, rfl⟩
    · exact ⟨rfl, rfl, rfl⟩
  refine ⟨?_, fun e' he' => ?_, fun e' he' x' hx' hnumber => ?_, fun e' he' => ?_⟩
  · have hkeys : (s.onChannel name change).seats.keys = s.seats.keys := by
      rw [Table.keys, hentries, List.map_map]
      refine List.map_congr_left fun e _ => ?_
      rw [Function.comp_apply]
      split <;> rfl
    rw [hkeys]
    exact hs.keys
  · obtain ⟨e, he, hname, hsession, -⟩ := hread e' he'
    rw [hname, hsession]
    exact hs.names e he
  · obtain ⟨e, he, hname, -, hnumber'⟩ := hread e' he'
    obtain ⟨x, hx, hname', -, hnumber''⟩ := hread x' hx'
    rw [hname, hname']
    refine hs.numbers e he x hx ?_
    rw [← hnumber', ← hnumber'', hnumber]
  · obtain ⟨e, he, -, -, hnumber⟩ := hread e' he'
    rw [hnumber]
    exact hs.given e he

/-- A session leaves its seat. -/
theorem Seated.erase (hs : s.Seated) (hseats : s'.seats = s.seats.erase name)
    (hnext : s'.nextSeat = s.nextSeat) : s'.Seated := by
  have hsub : ∀ e ∈ s'.seats.entries, e ∈ s.seats.entries := by
    intro e he
    rw [hseats] at he
    exact (List.mem_filter.1 he).1
  refine ⟨?_, fun e he => hs.names e (hsub e he),
    fun e he e' he' => hs.numbers e (hsub e he) e' (hsub e' he'), fun e he => ?_⟩
  · rw [hseats]
    exact Table.nodup_keys_erase hs.keys name
  · rw [hnext]
    exact hs.given e (hsub e he)

/-- The forwarding of one event is a step of one session at its seat. -/
theorem Seated.listenTurn (hs : s.Seated) (name : String) : (s.listenTurn name).Seated := by
  rcases s.listenTurn_cases name with ⟨hsame, -⟩ | ⟨seat, m, channel, outputs, hseat, -, -, hturn⟩
  · rw [hsame]
    exact hs
  · have hbase : ({ s with emitter := some (seat.session.listen m).2.1 } : Server L).Seated :=
      hs.aside rfl rfl
    rw [hturn]
    refine hbase.enter hseat ?_ ?_ _
    · rfl
    · exact (seat.session.abides_listen m).name.trans (hs.named name seat hseat)

theorem Seated.listen (hs : s.Seated) (name : String) : (s.listen name).Seated := by
  rw [Server.listen]
  generalize s.backlog name + 1 = n
  induction n with
  | zero => exact hs
  | succ n ih => exact ih.listenTurn name

/-- Sessions listen one after the other, each at its own seat. -/
theorem Seated.listenAll (hs : s.Seated) : s.listenAll.Seated := by
  rw [Server.listenAll]
  generalize s.seats.entries = entries
  induction entries generalizing s with
  | nil => exact hs
  | cons e entries ih => exact ih (hs.listen e.1)

/-- Events are told to the seats that there are, and nobody sits down meanwhile. -/
theorem Seated.publish (hs : s.Seated) (trace : List Happening) : (s.publish trace).Seated := by
  induction trace generalizing s with
  | nil => exact hs
  | cons h trace ih =>
    cases h with
    | traffic id t => exact ih (hs.aside rfl rfl)
    | emitted body => exact ih (Seated.listenAll (hs.aside rfl rfl))

/-- **Whatever is done to the fleet**, the server stays seated: sessions only hear of it. -/
theorem Seated.onFleet {α : Type} (hs : s.Seated) (op : Fleet L → Outcome L α) :
    (s.onFleet op).2.Seated := by
  have hbase : ({ s with fleet := (op s.fleet).fleet } : Server L).Seated := hs.aside rfl rfl
  exact hbase.publish (op s.fleet).trace

/-- So it is with a turn of a session that does something to the fleet. -/
theorem Seated.commit (hs : s.Seated) (hseat : s.seats.get? name = some seat)
    {turn : Session.Turn L} (hname : turn.session.name = name) : (s.commit seat turn).Seated := by
  have hbase : ({ s with fleet := turn.fleet } : Server L).Seated := hs.aside rfl rfl
  exact (hbase.enter hseat rfl hname turn.outputs).publish turn.trace

theorem Seated.close (hs : s.Seated) (name : String) (reason : ErrorCode) :
    (s.close name reason).Seated := by
  unfold Server.close
  split
  · exact hs
  · rename_i seat hseat
    exact hs.enter hseat rfl ((seat.session.name_close reason).trans (hs.named name seat hseat)) _

theorem Seated.join (hs : s.Seated) (name : String) : (s.join name).Seated := by
  unfold Server.join
  split
  · exact hs
  · rename_i seat hseat
    have hbase : ({ s with emitter := (seat.session.join s.emitter).2 } : Server L).Seated :=
      hs.aside rfl rfl
    exact hbase.enter hseat rfl
      ((seat.session.abides_join s.emitter).name.trans (hs.named name seat hseat)) _

theorem Seated.claimPing (hs : s.Seated) (name : String) : (s.claimPing name).2.Seated := by
  unfold Server.claimPing
  split
  · exact hs
  · rename_i seat hseat
    exact hs.enter hseat rfl
      ((seat.session.abides_claim s.now).name.trans (hs.named name seat hseat)) _

/-- A message is answered by the session at the seat, under its old name. -/
theorem Seated.answer (hs : s.Seated) (name : String) (phase : Phase) (m : Message) :
    (s.answer name phase m).Seated := by
  unfold Server.answer
  split
  · exact hs
  · rename_i seat hseat
    exact hs.enter hseat rfl ((Session.name_answer ..).trans (hs.named name seat hseat)) _

theorem Seated.releaseChannel (hs : s.Seated) (name : String) :
    (s.releaseChannel name).Seated := by
  unfold Server.releaseChannel
  split
  · exact hs
  · rename_i seat hseat
    refine hs.enter hseat ?_ (hs.named name seat hseat) _
    rfl

theorem Seated.start (hs : s.Seated) (name : String) : (s.start name).2.Seated := by
  unfold Server.start
  split
  · exact hs
  · rename_i seat hseat
    have hbase (emitter : Option Emitter) : ({ s with emitter } : Server L).Seated :=
      hs.aside rfl rfl
    dsimp only
    refine (hbase _).enter ?_ rfl ((name_start ..).trans (hs.named name seat hseat)) _
    exact hseat

variable [Link L]

theorem Seated.pingStop (hs : s.Seated) (name : String) : (s.pingStop name).Seated := by
  unfold Server.pingStop
  split
  · exact hs
  · rename_i seat hseat
    exact hs.commit hseat ((seat.session.name_close .pingTimeout).trans (hs.named name seat hseat))

theorem Seated.workOnce (hs : s.Seated) (name : String) : (s.workOnce name).Seated := by
  unfold Server.workOnce
  split
  · exact hs
  · rename_i seat hseat
    split
    · exact hs
    · rename_i turn hturn
      have hbase : ({ s with stalled := s.stalled.erase name } : Server L).Seated :=
        hs.aside rfl rfl
      exact hbase.commit hseat
        ((Session.getsOn_workStep hturn).abides.name.trans (hs.named name seat hseat))

/-- A connection adds a session and starts it. -/
theorem Seated.connect (hs : s.Seated) (name : String) (terms : Terms)
    (listens notifies : Bool) : (s.connect name terms listens notifies).Seated := by
  have hstart := (hs.addSession name terms listens notifies).start name
  unfold Server.connect watch
  split
  · exact hstart
  · exact hstart.aside rfl rfl

theorem Seated.discoverTurn (hs : s.Seated) : s.discoverTurn.Seated := by
  unfold Server.discoverTurn
  split
  · exact hs
  · rename_i e scans _
    have hbase : ({ s with scans } : Server L).Seated := hs.aside rfl rfl
    exact (hbase.onFleet fun f => f.discover e).aside rfl rfl

/-- The scan events that wait are applied before the end, and each is something done to the
fleet. -/
theorem Seated.stopDiscovery (hs : s.Seated) : s.stopDiscovery.Seated := by
  have hdiscover : s.discover.Seated := by
    unfold discover
    split
    · generalize s.scans.items.length = n
      induction n with
      | zero => exact hs
      | succ n ih => exact ih.discoverTurn
    · exact hs
  exact hdiscover.aside rfl rfl

end Server

/-! ## Teardowns -/

namespace Teardown

variable {L : Type} [Link L] {x : Teardown L}

/-- Each stage of a teardown is an operation from above. -/
theorem seated_proceed (hx : x.server.Seated) : x.proceed.server.Seated := by
  unfold proceed
  split
  · exact hx
  · exact hx
  · split
    · exact hx.join _
    · exact hx.close _ _
  · split
    · exact hx.aside rfl rfl
    · exact hx
  · exact hx.aside rfl rfl
  · split
    · exact hx.stopDiscovery
    · exact hx
  · exact hx.onFleet Fleet.stopAll
  · exact hx.onFleet Fleet.disconnectAll
  · exact hx

/-- **Every move keeps a server seated.** -/
theorem seated_step (hx : x.server.Seated) (mv : Move L) : (x.step mv).server.Seated := by
  cases mv with
  | connect name terms listens notifies =>
    rw [step]
    split
    · split
      · exact hx
      · exact hx.connect name terms listens notifies
    · exact hx
  | reap name =>
    rw [step]
    split
    · split
      · exact Server.Seated.erase (hx.join name) rfl rfl
      · exact hx
    · exact hx
  | hear name m =>
    rw [step]
    split
    · exact hx
    · split
      · exact hx
      · exact hx
  | answer call =>
    rw [step]
    split
    · exact hx.answer call.name call.phase call.message
    · exact hx
  | forward name => exact hx.listenTurn name
  | close name reason => exact hx.close name reason
  | work name => exact hx.workOnce name
  | claim name =>
    rw [step]
    split
    · exact hx.claimPing name
    · exact hx
  | follow name =>
    rw [step]
    split
    · exact hx.pingStop name
    · exact hx
  | channel name change => exact hx.onChannel name change
  | releaseChannel name => exact hx.releaseChannel name
  | hold links => exact hx.aside rfl rfl
  | time now => exact hx.aside rfl rfl
  | report e =>
    rw [step]
    split
    · exact hx.aside rfl rfl
    · exact hx
  | discover =>
    rw [step]
    split
    · split
      · exact hx
      · exact hx.discoverTurn
    · exact hx
  | call c =>
    rw [step]
    split
    · have hbase : ({ x.server with fleet := x.server.fleet.after c } : Server L).Seated :=
        hx.aside rfl rfl
      exact hbase.publish (x.server.fleet.trace c)
    · exact hx
  | proceed => exact seated_proceed hx

/-- **A server is seated** from its start on, at every time. -/
theorem seated_run (b : Rulebook) (emitter : Option Emitter) (size : Nat) (moves : List (Move L)) :
    ((begin b emitter size).run moves).server.Seated := by
  have hrun {x : Teardown L} (hx : x.server.Seated) : (x.run moves).server.Seated := by
    induction moves generalizing x with
    | nil => exact hx
    | cons mv moves ih => exact ih (seated_step hx mv)
  refine hrun ⟨List.nodup_nil, ?_, ?_, ?_⟩
  · exact fun e he => absurd he List.not_mem_nil
  · exact fun e he => absurd he List.not_mem_nil
  · exact fun e he => absurd he List.not_mem_nil

end Teardown

end Haptics
