import Haptics.Device.Basic
import Haptics.Proofs.Protocol.Memory
/-!
# Writing to a device

What handing writes to a link comes to, whatever the link does with each.
`Line.Wrote` states it for one list of writes and what became of them: the
traffic, and the protocol afterwards, which has forgotten everything if a write
was refused. A stop hands over every write (`wrote_writeEach`), a command the
writes up to the first that is refused (`wrote_writeAll`).

With the promises of a translation this gives `kept_execute` and `kept_stop`:
what a protocol keeps agrees with the device after every command and every stop,
if it did before.
-/

namespace Haptics

/-! ## Traffic -/

/-- The writes in some traffic that the link accepted. -/
def accepted (ts : List Traffic) : List Write :=
  ts.filterMap fun
    | .wrote w true => some w
    | _ => none

/-- The writes in some traffic, accepted or not. -/
def handed (ts : List Traffic) : List Write :=
  ts.filterMap fun
    | .wrote w _ => some w
    | _ => none

/-- Writes that were handed over, each with what became of it. -/
def writes (ws : List Write) (oks : List Bool) : List Traffic := List.zipWith Traffic.wrote ws oks

@[simp] theorem accepted_nil : accepted [] = [] := rfl

theorem accepted_append (ts us : List Traffic) :
    accepted (ts ++ us) = accepted ts ++ accepted us := List.filterMap_append

theorem handed_append (ts us : List Traffic) : handed (ts ++ us) = handed ts ++ handed us :=
  List.filterMap_append

/-- If no write is refused, all of them arrive. -/
theorem accepted_writes {ws : List Write} {oks : List Bool} (hlen : oks.length = ws.length)
    (hok : false ∉ oks) : accepted (writes ws oks) = ws := by
  induction ws generalizing oks with
  | nil => cases oks <;> rfl
  | cons w ws ih =>
    match oks with
    | [] => simp at hlen
    | ok :: oks =>
      rw [List.mem_cons, not_or] at hok
      have htrue : ok = true := by simpa using Ne.symm hok.1
      subst htrue
      have := ih (by simpa using hlen) hok.2
      simp only [writes, accepted, List.zipWith_cons_cons, List.filterMap_cons] at this ⊢
      rw [this]

theorem handed_writes {ws : List Write} {oks : List Bool} (hlen : oks.length = ws.length) :
    handed (writes ws oks) = ws := by
  induction ws generalizing oks with
  | nil => cases oks <;> rfl
  | cons w ws ih =>
    match oks with
    | [] => simp at hlen
    | ok :: oks =>
      have := ih (by simpa using hlen)
      simp only [writes, handed, List.zipWith_cons_cons, List.filterMap_cons] at this ⊢
      rw [this]

/-- Hands one write to a link: whether it was accepted, and the link afterwards. -/
def hand {L : Type} [Link L] (link : L) (w : Write) : Bool × L :=
  ((Link.write link w).1.isOk, (Link.write link w).2)

/-- Hands every write to a link: what became of each, and the link afterwards. -/
def handOver {L : Type} [Link L] (link : L) : List Write → List Bool × L
  | [] => ([], link)
  | w :: ws =>
    let first := hand link w
    let later := handOver first.2 ws
    (first.1 :: later.1, later.2)

theorem handOver_cons {L : Type} [Link L] (link : L) (w : Write) (ws : List Write) :
    handOver link (w :: ws) =
      ((hand link w).1 :: (handOver (hand link w).2 ws).1, (handOver (hand link w).2 ws).2) := rfl

theorem length_handOver {L : Type} [Link L] (link : L) (ws : List Write) :
    (handOver link ws).1.length = ws.length := by
  induction ws generalizing link with
  | nil => rfl
  | cons w ws ih => rw [handOver_cons, List.length_cons, List.length_cons, ih]

namespace Line

variable {L : Type} {line line' line'' : Line L}

/-- `line'` is what is left of `line` after writes were handed to its link, of
which those with `true` were accepted. -/
structure Wrote (line line' : Line L) (ws : List Write) (oks : List Bool) : Prop where
  traffic : line'.traffic = line.traffic ++ writes ws oks
  alike : line.protocol.Alike line'.protocol
  sent : line'.protocol.sent = if false ∈ oks then {} else line.protocol.sent
  tracks : ∀ h : Hardware, line.protocol.Tracks h →
    line'.protocol.Tracks (h.hearAll line.protocol.vendor (accepted (writes ws oks)))

theorem Wrote.nil (line : Line L) : Wrote line line [] [] where
  traffic := (List.append_nil _).symm
  alike := Protocol.Alike.refl _
  sent := by simp
  tracks _ ht := ht

/-- One write, and then others. -/
theorem Wrote.cons {w : Write} {ok : Bool} {ws : List Write} {oks : List Bool}
    (h₁ : Wrote line line' [w] [ok]) (h₂ : Wrote line' line'' ws oks) :
    Wrote line line'' (w :: ws) (ok :: oks) where
  traffic := by
    rw [h₂.traffic, h₁.traffic, List.append_assoc]
    rfl
  alike := h₁.alike.trans h₂.alike
  sent := by
    rw [h₂.sent, h₁.sent]
    cases ok <;> simp
  tracks h ht := by
    have hsplit : accepted (writes (w :: ws) (ok :: oks)) =
        accepted (writes [w] [ok]) ++ accepted (writes ws oks) := by
      rw [← accepted_append]
      rfl
    rw [hsplit, Hardware.hearAll_append, ← h₁.alike.vendor]
    exact h₂.tracks _ (h₁.alike.vendor ▸ h₁.tracks h ht)

/-- What an exchange on a line leaves: the same device, and a protocol that
agrees with it. -/
structure Kept (line line' : Line L) (ts : List Traffic) (h : Hardware) : Prop where
  traffic : line'.traffic = line.traffic ++ ts
  alike : line.protocol.Alike line'.protocol
  agrees : line'.protocol.Agrees (h.hearAll line.protocol.vendor (accepted ts))

/-- **A promise is kept** whatever becomes of the writes: either all of them
arrive, or nothing is remembered. -/
theorem kept_of_promises {q : Protocol} {ws : List Write} {oks : List Bool} {h : Hardware}
    (hpromise : line.protocol.Promises q ws h)
    (hwrote : Wrote { line with protocol := q } line' ws oks)
    (hlen : false ∉ oks → oks.length = ws.length) :
    Kept line line' (writes ws oks) h := by
  refine ⟨hwrote.traffic, hpromise.alike.trans hwrote.alike, ?_, ?_⟩
  · have hsent := hwrote.sent
    by_cases hok : false ∈ oks
    · rw [if_pos hok] at hsent
      exact Protocol.remembers_of_sent_empty hsent
    · rw [if_neg hok] at hsent
      rw [accepted_writes (hlen hok) hok]
      exact hpromise.remembers.of_alike hwrote.alike hsent
  · rw [← hpromise.alike.vendor]
    exact hwrote.tracks h hpromise.tracks

variable [Link L]

/-- **One write**: it is accepted, or there is a fault for it. -/
theorem wrote_write (line : Line L) (device : String) (w : Write) :
    ((line.write device w).1 = none ∧ Wrote line (line.write device w).2 [w] [true] ∧
      (true, (line.write device w).2.link) = hand line.link w) ∨
      (∃ why, (line.write device w).1 = some (.writeFailed device w.endpoint why) ∧
        Wrote line (line.write device w).2 [w] [false] ∧
        (false, (line.write device w).2.link) = hand line.link w) := by
  unfold Line.write
  split
  · rename_i link hw
    refine Or.inl ⟨rfl, ⟨rfl, Protocol.alike_completed _ w, ?_, fun h ht => ht.completed w⟩, ?_⟩
    · simp
    · rw [hand, hw]
      rfl
  · rename_i why link hw
    refine Or.inr ⟨why, rfl, ⟨rfl, ⟨rfl, rfl⟩, ?_, fun h ht => ht⟩, ?_⟩
    · simp [Protocol.forget]
    · rw [hand, hw]
      rfl

/-- **A stop hands over every write**, and reports a fault if one is refused. -/
theorem wrote_writeEach (line : Line L) (device : String) (ws : List Write) :
    Wrote line (line.writeEach device ws).2 ws (handOver line.link ws).1 ∧
      (line.writeEach device ws).2.link = (handOver line.link ws).2 ∧
      ((line.writeEach device ws).1 = none ↔ false ∉ (handOver line.link ws).1) ∧
      ∀ e, (line.writeEach device ws).1 = some e → e.code = .transportError := by
  induction ws generalizing line with
  | nil => exact ⟨Wrote.nil line, rfl, by simp [writeEach, handOver], fun e he => nomatch he⟩
  | cons w ws ih =>
    obtain ⟨hwrote, hlink, hnone, hcode⟩ := ih (line.write device w).2
    rw [writeEach]
    -- the fault of a stop is that of its first refused write
    rcases wrote_write line device w with ⟨hfirst, hw, hok⟩ | ⟨why, hfirst, hw, hok⟩
    · rw [handOver_cons, ← hok]
      refine ⟨hw.cons hwrote, hlink, ?_, fun e he => ?_⟩
      · simp only [hfirst, Option.none_or, hnone]
        simp
      · simp only [hfirst, Option.none_or] at he
        exact hcode e he
    · rw [handOver_cons, ← hok]
      refine ⟨hw.cons hwrote, hlink, ?_, fun e he => ?_⟩
      · simp [hfirst]
      · simp only [hfirst, Option.some_or, Option.some.injEq] at he
        rw [← he]
        rfl

/-- **A command hands over its writes up to the first that is refused.** -/
theorem wrote_writeAll (line : Line L) (device : String) (ws : List Write) :
    ∃ oks : List Bool, Wrote line (line.writeAll device ws).2 ws oks ∧
      (false ∉ oks → oks.length = ws.length) := by
  induction ws generalizing line with
  | nil => exact ⟨[], Wrote.nil line, fun _ => rfl⟩
  | cons w ws ih =>
    rw [writeAll]
    rcases wrote_write line device w with ⟨hfirst, hw, -⟩ | ⟨why, hfirst, hw, -⟩
    · obtain ⟨oks, hwrote, hlen⟩ := ih (line.write device w).2
      match hl : line.write device w with
      | (none, line') =>
        rw [hl] at hw hwrote
        refine ⟨true :: oks, hw.cons hwrote, fun hno => ?_⟩
        simp only [List.mem_cons, not_or] at hno
        simpa using hlen hno.2
      | (some e, line') => rw [hl] at hfirst; cases hfirst
    · match hl : line.write device w with
      | (none, line') => rw [hl] at hfirst; cases hfirst
      | (some e, line') =>
        rw [hl] at hw
        -- the writes after a refused one are not handed over
        have hshort : writes (w :: ws) [false] = writes [w] [false] := by simp [writes]
        refine ⟨[false], ⟨?_, hw.alike, hw.sent, ?_⟩, fun hno => absurd List.mem_cons_self hno⟩
        · rw [hshort]
          exact hw.traffic
        · rw [hshort]
          exact hw.tracks

/-! ## What no exchange changes -/

theorem alike_readSensor (line : Line L) (device : String) (index : UInt32) :
    line.protocol.Alike (line.readSensor device index).2.protocol := by
  unfold Line.readSensor
  split
  · exact Protocol.Alike.refl _
  · split
    · exact Protocol.Alike.refl _
    · split
      · exact Protocol.Alike.refl _
      · dsimp only
        split <;> exact Protocol.Alike.refl _

/-- **A command leaves the device the same**, whatever becomes of it. -/
theorem alike_execute (line : Line L) (device : String) (c : Command) :
    line.protocol.Alike (line.execute device c).2.protocol := by
  unfold Line.execute
  split
  · exact alike_readSensor line device _
  · split
    · exact Protocol.Alike.refl _
    · rename_i ws q ht
      obtain ⟨oks, hwrote, -⟩ := wrote_writeAll { line with protocol := q } device ws
      have halike := (Protocol.alike_translate ht).trans hwrote.alike
      split
      · rename_i hr
        rw [hr] at halike
        exact halike
      · rename_i hr
        rw [hr] at halike
        exact halike

/-! ## Agreement after a command or a stop -/

variable {h : Hardware}

/-- The request for a reading is no frame that changes an output. -/
theorem hear_request {p : Protocol} {index : UInt32} {w : Write} {endpoint : String}
    (hr : p.sensorRequest index = .ok (w, endpoint)) : h.hear p.vendor w.data = h := by
  unfold Protocol.sensorRequest at hr
  split at hr
  · cases hr
  · split at hr
    · rename_i clockwise hd
      split at hr
      · cases hr
        rw [Protocol.vendor_eq hd]
        exact Hardware.hear_lovense .battery
      · cases hr
    · cases hr

/-- **A sensor read changes no output** and nothing that is kept. -/
theorem kept_readSensor (ha : line.protocol.Agrees h) (device : String) (index : UInt32) :
    ∃ ts, Kept line (line.readSensor device index).2 ts h := by
  unfold Line.readSensor
  split
  · exact ⟨[], (List.append_nil _).symm, Protocol.Alike.refl _, ha⟩
  · rename_i request endpoint hr
    have hsame : h.hearAll line.protocol.vendor [request] = h := hear_request hr
    split
    · exact ⟨[.wrote request false], rfl, Protocol.Alike.refl _, ha⟩
    · split
      · refine ⟨[.wrote request true, .asked endpoint false], ?_, Protocol.Alike.refl _, ?_⟩
        · simp
        · exact hsame.symm ▸ ha
      · have hkept : ∀ link : L, Kept line
            { line with link, traffic := line.traffic ++ [.wrote request true] ++
              [.asked endpoint true] } [.wrote request true, .asked endpoint true] h := by
          refine fun link => ⟨?_, Protocol.Alike.refl _, ?_⟩
          · simp
          · exact hsame.symm ▸ ha
        dsimp only
        split <;> exact ⟨_, hkept _⟩

/-- **After every stop what is kept agrees with the device.** -/
theorem kept_stop (hp : line.protocol.Sound) (ha : line.protocol.Agrees h) (device : String) :
    ∃ ts, Kept line (line.stop device).2 ts h := by
  obtain ⟨hwrote, -, -, -⟩ :=
    wrote_writeEach { line with protocol := line.protocol.stop.2 } device line.protocol.stop.1
  exact ⟨_, kept_of_promises (Protocol.promises_stop hp ha) hwrote fun _ => length_handOver _ _⟩

/-- **After every command what is kept agrees with the device.** -/
theorem kept_execute (hp : line.protocol.Sound) (ha : line.protocol.Agrees h) (device : String)
    (c : Command) : ∃ ts, Kept line (line.execute device c).2 ts h := by
  unfold Line.execute
  split
  · exact kept_readSensor ha device _
  · split
    · exact ⟨[], (List.append_nil _).symm, Protocol.Alike.refl _, ha⟩
    · rename_i ws q ht
      obtain ⟨oks, hwrote, hlen⟩ := wrote_writeAll { line with protocol := q } device ws
      have hkept := kept_of_promises (Protocol.promises_translate hp ha ht) hwrote hlen
      split
      · rename_i hr
        rw [hr] at hkept
        exact ⟨_, hkept⟩
      · rename_i hr
        rw [hr] at hkept
        exact ⟨_, hkept⟩

end Line

end Haptics
