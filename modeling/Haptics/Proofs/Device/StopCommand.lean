import Haptics.Link.Simulated
import Haptics.Proofs.Device.Coherence
/-!
# The stop command

A device can be stopped in two ways: by `Device.stop`, which is what stops made for safety
use, and by the stop command of a client. Both begin with the same stop writes. The first
attempts every one of them; the second gives up at the first that the link refuses, as any
command does. `Device.stops_compared` is the comparison, whatever the link does with each write: the
answers are the same and so is the device afterwards, with all that its protocol keeps, but
the command has handed over no more than the writes up to the first refused one. So the two
are alike exactly if no refused write has another behind it.
-/

namespace Haptics

/-! ## Traffic up to a refusal -/

/-- A write that the link did not accept. -/
def Traffic.refused : Traffic → Bool
  | .wrote _ accepted => !accepted
  | _ => false

/-- The traffic up to the first refused write, that write included. -/
def upToRefusal : List Traffic → List Traffic
  | [] => []
  | t :: ts => if t.refused then [t] else t :: upToRefusal ts

/-- **Nothing is left out** exactly if only the last write may have been refused. -/
theorem upToRefusal_eq_iff {ts : List Traffic} :
    upToRefusal ts = ts ↔ ∀ t ∈ ts.dropLast, t.refused = false := by
  induction ts with
  | nil => simp [upToRefusal]
  | cons t ts ih =>
    match ts with
    | [] => simp [upToRefusal]
    | u :: us =>
      rw [upToRefusal, List.dropLast_cons_cons, List.forall_mem_cons, ← ih]
      cases ht : t.refused with
      | true => simp
      | false => simp

namespace Protocol

variable {p q : Protocol} {w : Write}

/-- **No stop write turns a rotator round**, so the protocol takes no note of one. -/
theorem completed_stopFrame (hd : q.dialect = p.dialect) (hw : w ∈ p.stopFrames) :
    q.completed w = q := by
  unfold completed
  split
  · rename_i clockwise hq
    rw [stopFrames, ← hd, hq] at hw
    obtain ⟨frame, hframe, rfl⟩ := List.mem_map.1 hw
    have hstays : Lovense.directionAfter clockwise frame.toWrite = clockwise := by
      simp only [Lovense.stopFrames, List.mem_append, List.mem_ite_nil_right,
        List.mem_singleton] at hframe
      rcases hframe with ⟨-, rfl⟩ | ⟨-, rfl⟩
      · exact if_neg (by decide)
      · exact if_neg (by decide)
    rw [hstays, ← hq]
  · rfl

/-- Writes that no protocol of a dialect takes note of. -/
def Unnoted (d : Dialect) (ws : List Write) : Prop :=
  ∀ w ∈ ws, ∀ q : Protocol, q.dialect = d → q.completed w = q

theorem unnoted_stopFrames (p : Protocol) : Unnoted p.dialect p.stopFrames :=
  fun _ hw _ hd => completed_stopFrame hd hw

theorem Unnoted.tail {d : Dialect} {ws : List Write} (h : Unnoted d (w :: ws)) : Unnoted d ws :=
  fun v hv => h v (List.mem_cons_of_mem w hv)

end Protocol

namespace Line

variable {L : Type} [Link L] {ws : List Write}

/-- **One write in full.** -/
theorem write_cases (line : Line L) (device : String) (w : Write) :
    (∃ link, hand line.link w = (true, link) ∧ line.write device w =
      (none, { protocol := line.protocol.completed w, link,
               traffic := line.traffic ++ [.wrote w true] })) ∨
      ∃ why link, hand line.link w = (false, link) ∧ line.write device w =
        (some (.writeFailed device w.endpoint why),
          { protocol := line.protocol.forget, link,
            traffic := line.traffic ++ [.wrote w false] }) := by
  rcases hw : Link.write line.link w with ⟨why | _, link⟩
  · exact Or.inr ⟨why, link, by rw [hand, hw]; rfl, by rw [write, hw]⟩
  · exact Or.inl ⟨link, by rw [hand, hw]; rfl, by rw [write, hw]⟩

/-- A protocol that remembers nothing is the same after writes that it takes no note of. -/
theorem protocol_writeEach_of_forgotten (line : Line L) (device : String)
    (hforgot : line.protocol.forget = line.protocol)
    (hquiet : Protocol.Unnoted line.protocol.dialect ws) :
    (line.writeEach device ws).2.protocol = line.protocol := by
  induction ws generalizing line with
  | nil => rfl
  | cons w ws ih =>
    have hfirst : (line.write device w).2.protocol = line.protocol := by
      rcases write_cases line device w with ⟨link, -, hw⟩ | ⟨why, link, -, hw⟩
      · rw [hw]
        exact hquiet w List.mem_cons_self _ rfl
      · rw [hw]
        exact hforgot
    have hrest := ih (line.write device w).2 (by rw [hfirst, hforgot])
      (by rw [hfirst]; exact hquiet.tail)
    rw [writeEach]
    exact hrest.trans hfirst

/-- What writes that are given up at a refusal leave of `line`, next to the same writes attempted
one and all, whose traffic is `ts`. -/
structure Abridged (line : Line L) (ts : List Traffic) (short full : Option Fault × Line L) :
    Prop where
  fault : short.1 = full.1
  protocol : short.2.protocol = full.2.protocol
  full_traffic : full.2.traffic = line.traffic ++ ts
  short_traffic : short.2.traffic = line.traffic ++ upToRefusal ts
  link : upToRefusal ts = ts → short.2.link = full.2.link

/-- **Writes given up at the first refusal have the same fault** as the same writes attempted one
and all, and the same effect on a protocol that takes no note of them. -/
theorem abridged_writeAll (line : Line L) (device : String)
    (hquiet : Protocol.Unnoted line.protocol.dialect ws) :
    line.Abridged (writes ws (handOver line.link ws).1) (line.writeAll device ws)
      (line.writeEach device ws) := by
  induction ws generalizing line with
  | nil => exact ⟨rfl, rfl, (List.append_nil _).symm, (List.append_nil _).symm, fun _ => rfl⟩
  | cons w ws ih =>
    rcases write_cases line device w with ⟨link, hhand, hw⟩ | ⟨why, link, hhand, hw⟩
    · -- accepted: the writes behind it decide
      rw [hquiet w List.mem_cons_self _ rfl] at hw
      obtain ⟨hfault, hprotocol, hfull, hshort, hlink⟩ := ih
        { protocol := line.protocol, link, traffic := line.traffic ++ [.wrote w true] }
        hquiet.tail
      rw [writeAll, writeEach, hw, handOver_cons, hhand]
      refine ⟨?_, hprotocol, ?_, ?_, fun hall => hlink (List.cons_eq_cons.1 hall).2⟩
      · rw [hfault]
        rfl
      · rw [hfull, List.append_assoc]
        rfl
      · rw [hshort, List.append_assoc]
        rfl
    · -- refused: everything is forgotten, so the writes behind this one change nothing more
      have hkeeps := protocol_writeEach_of_forgotten
        { protocol := line.protocol.forget, link, traffic := line.traffic ++ [.wrote w false] }
        device rfl hquiet.tail
      obtain ⟨hwrote, -, -, -⟩ := wrote_writeEach
        { protocol := line.protocol.forget, link, traffic := line.traffic ++ [.wrote w false] }
        device ws
      rw [writeAll, writeEach, hw, handOver_cons, hhand]
      refine ⟨rfl, hkeeps.symm, ?_, rfl, fun hall => ?_⟩
      · rw [hwrote.traffic, List.append_assoc]
        rfl
      · have hnone : writes ws (handOver link ws).1 = [] := (List.cons_eq_cons.1 hall).2.symm
        have hempty := handed_writes (length_handOver link ws)
        rw [hnone] at hempty
        rw [← hempty]
        rfl

/-- **The stop command and the stop of a device**, on one line. -/
theorem abridged_stop (line : Line L) (device : String) :
    ∃ short : Option Fault × Line L,
      line.execute device .stop = (short.1.elim (.ok []) .error, short.2) ∧
      line.Abridged (writes line.protocol.stopFrames
        (handOver line.link line.protocol.stopFrames).1) short (line.stop device) := by
  refine ⟨({ line with protocol := line.protocol.stop.2 } : Line L).writeAll device
    line.protocol.stopFrames, ?_, ?_⟩
  · have htranslate : line.protocol.translate .stop =
        .ok (line.protocol.stopFrames, line.protocol.stop.2) := rfl
    simp only [execute, htranslate]
    split
    · rename_i hw
      rw [hw]
      rfl
    · rename_i hw
      rw [hw]
      rfl
  · obtain ⟨hfault, hprotocol, hfull, hshort, hlink⟩ := abridged_writeAll
      { line with protocol := line.protocol.stop.2 } device
      (Protocol.unnoted_stopFrames line.protocol)
    exact ⟨hfault, hprotocol, hfull, hshort, hlink⟩

end Line

namespace Device

variable {L : Type} [Link L] {d : Device} {links : List L} {id : LinkId} {link : L}

/-- **The stop command next to the stop of a device**, for a connected device in any state and
whatever its link does with each write. The answers are the same, and so is the device
afterwards, with what its protocol remembers and the direction it keeps. The stop attempts
every stop write. The command attempts them up to the first that is refused, so the attempts are
the same exactly if no write but the last was refused, and then the links are the same as well. -/
theorem stops_compared (hc : d.connected = true) (hl : d.link = some id)
    (hlink : links[id]? = some link) :
    handed (d.stop links).traffic = d.protocol.stopFrames ∧
      (d.execute links .stop).traffic = upToRefusal (d.stop links).traffic ∧
      (d.execute links .stop).answer = (d.stop links).answer.elim (.ok []) .error ∧
      (d.execute links .stop).device = (d.stop links).device ∧
      ((d.execute links .stop).traffic = (d.stop links).traffic ↔
        ∀ t ∈ (d.stop links).traffic.dropLast, t.refused = false) ∧
      ((d.execute links .stop).traffic = (d.stop links).traffic →
        (d.execute links .stop).links = (d.stop links).links) := by
  obtain ⟨short, hexecute, hfault, hprotocol, hfull, hshort, hsame⟩ :=
    Line.abridged_stop { protocol := d.protocol, link } d.identity.name
  rw [List.nil_append] at hfull hshort
  rw [execute, stop, onLine_eq hc hl hlink, onLine_eq hc hl hlink, hexecute]
  refine ⟨?_, ?_, ?_, ?_, ?_, ?_⟩
  · rw [hfull]
    exact handed_writes (length_handOver _ _)
  · rw [hshort, hfull]
  · rw [hfault]
  · rw [hprotocol]
  · rw [hshort, hfull]
    exact upToRefusal_eq_iff
  · intro htraffic
    rw [hshort, hfull] at htraffic
    rw [hsame htraffic]

/-- The last of two stop writes is refused: nothing is left out. -/
theorem stops_compared_nora :
    handed (nora.stop [({ device := {}, failAt := [2] } : SimulatedLink)]).traffic =
        nora.protocol.stopFrames ∧
      (nora.execute [({ device := {}, failAt := [2] } : SimulatedLink)] .stop).traffic =
        (nora.stop [({ device := {}, failAt := [2] } : SimulatedLink)]).traffic := by
  obtain ⟨hhanded, -, -, -, hiff, -⟩ := @stops_compared SimulatedLink _ nora
    [{ device := {}, failAt := [2] }] 0 { device := {}, failAt := [2] } rfl rfl rfl
  exact ⟨hhanded, hiff.2 (by decide)⟩

/-- **A stop command can leave an output on that a stop turns off.** The device has a motor and a
rotator, both of them running, and its link refuses the first write. The stop goes on to the
rotator; the command gives up before it. -/
theorem stop_command_gives_up :
    (nora.stop [({ device := {}, failAt := [1] } : SimulatedLink)]).traffic =
        [.wrote (Lovense.Frame.vibrateAll 0).toWrite false,
          .wrote (Lovense.Frame.rotate 0).toWrite true] ∧
      (nora.execute [({ device := {}, failAt := [1] } : SimulatedLink)] .stop).traffic =
        [.wrote (Lovense.Frame.vibrateAll 0).toWrite false] ∧
      (@Hardware.hearAll .lovense { motor := fun _ => 7, rotor := 7, clockwise := true }
        (accepted (nora.stop [({ device := {}, failAt := [1] } : SimulatedLink)]).traffic)).rotor =
          0 ∧
      (@Hardware.hearAll .lovense { motor := fun _ => 7, rotor := 7, clockwise := true }
        (accepted (nora.execute [({ device := {}, failAt := [1] } : SimulatedLink)]
          .stop).traffic)).rotor = 7 := by
  refine ⟨by decide, by decide, ?_, ?_⟩
  · decide
  · decide

end Device

end Haptics
