import Haptics.Frame.Connection
import Haptics.Proofs.Frame.Turns
/-!
# Frames arrive as they were sent

Frames that are written one after the other are read back one after the other, in
whatever parts the stream takes and gives their bytes, and then the end of the stream is
read. `Lossless` puts this together with what a reader makes of bytes of any kind, with
what is refused, and with what a read that finds no frame in time leaves alone.
-/

namespace Haptics

namespace Frame

/-! ## Reading again and again -/

/-- Reads frame after frame, each time waiting as it happens. -/
def readEach : List (Option Wait) → List ReceiveTurn → List Reading
  | [], _ => []
  | wait :: waits, turns => read wait turns :: readEach waits (read wait turns).rest

/-- What the reads came to that found something in time. -/
def outcomes (readings : List Reading) : List Received :=
  (readings.filter (!·.timedOut)).map Reading.received

variable {turns tail : List ReceiveTurn} {waits : List (Option Wait)} {payloads : List Bytes}
  {k : Nat}

theorem read_eq {wait : Option Wait} (hready : wait = none ∨ wait = some .ready)
    (turns : List ReceiveTurn) :
    read wait turns = { received := (receive turns).1, rest := (receive turns).2 } := by
  rcases hready with rfl | rfl <;> rfl

/-- **Frames are read back one after the other**, and then the end of the stream. Waits
that come to nothing change nothing. -/
theorem outcomes_readEach (h : Carries turns (payloads.flatMap encode))
    (hfit : ∀ payload ∈ payloads, payload.length ≤ maxSize)
    (hsound : ∀ e, some (Wait.failed e) ∉ waits)
    (hcount : waits.countP (· ≠ some .expired) = payloads.length + k)
    (tail : List ReceiveTurn) :
    outcomes (readEach waits (turns ++ .ended :: tail)) =
      payloads.map .frame ++ List.replicate k (.fault .endedInHead) := by
  induction waits generalizing turns payloads k with
  | nil =>
    have hnone : payloads.length + k = 0 := hcount.symm
    obtain rfl : payloads = [] := List.eq_nil_of_length_eq_zero (by omega)
    obtain rfl : k = 0 := by omega
    rfl
  | cons wait waits ih =>
    have hsound' : ∀ e, some (Wait.failed e) ∉ waits := fun e he =>
      hsound e (List.mem_cons_of_mem _ he)
    -- a wait that expires takes nothing and does not count; any other read takes a frame
    by_cases hexpired : wait = some .expired
    · subst hexpired
      rw [List.countP_cons_of_neg (by simp)] at hcount
      exact ih h hfit hsound' hcount
    · have hready : wait = none ∨ wait = some .ready := by
        match wait, hexpired with
        | none, _ => exact .inl rfl
        | some .ready, _ => exact .inr rfl
        | some (.failed e), _ => exact absurd List.mem_cons_self (hsound e)
      rw [List.countP_cons_of_pos (by simpa using hexpired)] at hcount
      rw [readEach, read_eq hready]
      cases payloads with
      | nil =>
        rw [List.length_nil] at hcount
        obtain ⟨j, rfl⟩ : ∃ j, k = j + 1 := ⟨k - 1, by omega⟩
        rw [receive_ended h tail]
        have hrest := @ih [] [] j .nil hfit hsound' (by rw [List.length_nil]; omega)
        exact congrArg (Received.fault .endedInHead :: ·) hrest
      | cons payload payloads =>
        obtain ⟨left, hleft, heq⟩ :=
          receive_frame h (hfit payload List.mem_cons_self) (.ended :: tail)
        rw [List.length_cons] at hcount
        rw [heq]
        have hrest := ih hleft (fun p hp => hfit p (List.mem_cons_of_mem _ hp)) hsound'
          (k := k) (by omega)
        exact congrArg (Received.frame payload :: ·) hrest

end Frame

/-! ## Streams -/

namespace FrameStream

open Haptics.Frame

/-- The bytes that have arrived, and no part of them is empty. -/
def Holds (s : FrameStream) (bytes : Bytes) : Prop :=
  s.arrived.flatten = bytes ∧ ∀ part ∈ s.arrived, part ≠ []

variable {s : FrameStream} {bytes payload : Bytes}

theorem Holds.arrive (h : s.Holds bytes) (more : Bytes) :
    (s.arrive more).Holds (bytes ++ more) := by
  obtain ⟨hflat, hparts⟩ := h
  by_cases hmore : more = []
  · rw [FrameStream.arrive, if_pos hmore, hmore, List.append_nil]
    exact ⟨hflat, hparts⟩
  · rw [FrameStream.arrive, if_neg hmore]
    refine ⟨?_, fun part hpart => ?_⟩
    · dsimp only
      rw [List.flatten_append, hflat, List.flatten_singleton]
    · rcases List.mem_append.1 hpart with hold | hnew
      · exact hparts part hold
      · exact List.mem_singleton.1 hnew ▸ hmore

theorem arrive_with (s : FrameStream) (more : Bytes) (arrived : List Bytes) :
    { s.arrive more with arrived } = { s with arrived } := by
  unfold FrameStream.arrive
  split <;> rfl

/-- What has arrived is received. -/
theorem carries_map_gave {parts : List Bytes} (hparts : ∀ part ∈ parts, part ≠ []) :
    Carries (parts.map .gave) parts.flatten := by
  induction parts with
  | nil => exact .nil
  | cons part parts ih =>
    have hrest := ih fun p hp => hparts p (List.mem_cons_of_mem _ hp)
    exact .gave (hparts part List.mem_cons_self) hrest

/-- What was not received stays where it was. -/
theorem holds_leave {left : List ReceiveTurn} (h : Carries left bytes) (s : FrameStream)
    {turn : ReceiveTurn} (hturn : ∀ part, turn ≠ .gave part) :
    ∃ arrived, { s with arrived }.Holds bytes ∧ s.leave (left ++ [turn]) = { s with arrived } := by
  refine ⟨(s.leave (left ++ [turn])).arrived, ?_, ?_⟩
  · induction h with
    | nil =>
      cases turn with
      | gave part => exact absurd rfl (hturn part)
      | again | ended | failed => exact ⟨rfl, fun part hpart => nomatch hpart⟩
    | @gave part bytes turns hpart h ih =>
      obtain ⟨hflat, hparts⟩ := ih
      refine ⟨congrArg (part ++ ·) hflat, fun p hp => ?_⟩
      rcases List.mem_cons.1 hp with rfl | hp
      · exact hpart
      · exact hparts p hp
    | again h ih => exact ih
  · have hleft : (left ++ [turn]).isEmpty = false := by simp
    simp only [leave, hleft, Bool.not_false, Bool.and_true]

/-- What follows the bytes that have arrived. -/
def follows (s : FrameStream) : ReceiveTurn :=
  if s.peerReset then .failed .reset else if s.ended then .ended else .failed .noMore

theorem receiveTurns_eq (s : FrameStream) :
    s.receiveTurns = s.arrived.map .gave ++ [s.follows] := rfl

theorem follows_ne_gave (s : FrameStream) (part : Bytes) : s.follows ≠ .gave part := by
  unfold follows
  split
  · nofun
  · split <;> nofun

/-- Where there is something to read, one does not wait. -/
theorem reading_of_readable {limited : Bool} (hready : limited → s.readable)
    (turns : List ReceiveTurn) :
    Frame.read (if limited then some s.waits else none) turns =
      { received := (receive turns).1, rest := (receive turns).2 } := by
  refine read_eq ?_ turns
  cases limited with
  | false => exact .inl rfl
  | true => exact .inr (congrArg some (if_pos (hready rfl)))

/-- **A frame that has arrived is read**, with a limit on the time or without, and what
follows it stays. -/
theorem read_of_holds (hvalid : s.valid) (h : s.Holds (encode payload ++ bytes))
    (hfits : payload.length ≤ maxSize) (limited : Bool) :
    ∃ arrived, { s with arrived }.Holds bytes ∧
      s.read limited = (some payload, { s with arrived, readFault := none }) := by
  have hcarries := carries_map_gave h.2
  rw [h.1] at hcarries
  have hsome : s.arrived ≠ [] := by
    intro hnone
    have hempty : encode payload ++ bytes = [] := by rw [← h.1, hnone, List.flatten_nil]
    obtain ⟨a, b, c, d, hencode, -⟩ := encode_eq hfits
    rw [hencode] at hempty
    cases hempty
  have hready : s.readable := by simp [readable, hsome]
  have hopen : ¬ (!s.valid) = true := by simp [hvalid]
  obtain ⟨left, hleft, heq⟩ := receive_frame hcarries hfits [s.follows]
  obtain ⟨arrived, hholds, hleave⟩ := holds_leave hleft s s.follows_ne_gave
  refine ⟨arrived, hholds, ?_⟩
  rw [FrameStream.read, if_neg hopen, reading_of_readable (fun _ => hready), receiveTurns_eq, heq]
  dsimp only
  rw [hleave]

/-- **A stream that has ended says so** whenever it is read. -/
theorem read_of_ended (hvalid : s.valid) (hholds : s.Holds []) (hended : s.ended)
    (hreset : s.peerReset = false) (limited : Bool) :
    s.read limited = (none, { s with readFault := some .endedInHead }) := by
  have hnone : s.arrived = [] := by
    match harrived : s.arrived, hholds with
    | [], _ => rfl
    | part :: parts, ⟨hflat, hparts⟩ =>
      rw [harrived] at hflat hparts
      exact absurd (List.append_eq_nil_iff.1 hflat).1 (hparts part List.mem_cons_self)
  have hready : s.readable := by simp [readable, hended]
  have hopen : ¬ (!s.valid) = true := by simp [hvalid]
  have hturns : s.receiveTurns = [.ended] := by simp [receiveTurns, hnone, hended, hreset]
  have hleave : s.leave [.ended] = s := by
    rw [leave, hreset]
    cases s
    cases hnone
    cases hreset
    rfl
  rw [FrameStream.read, if_neg hopen, reading_of_readable (fun _ => hready), hturns,
    show receive [.ended] = (.fault .endedInHead, [.ended]) from rfl]
  dsimp only
  rw [hleave]

/-- Nothing that follows is taken for a wait that came to nothing. -/
theorem noFrame_notMem_receiveTurns (s : FrameStream) :
    .failed .noFrame ∉ s.receiveTurns := by
  rw [receiveTurns_eq]
  intro hmem
  rcases List.mem_append.1 hmem with hpart | hfollows
  · obtain ⟨part, -, hpart⟩ := List.mem_map.1 hpart
    cases hpart
  · have heq := List.mem_singleton.1 hfollows
    unfold follows at heq
    split at heq
    · cases heq
    · split at heq <;> cases heq

/-- Where nothing was received, all stays as it was. -/
theorem leave_receiveTurns (s : FrameStream) : s.leave s.receiveTurns = s := by
  have harrived : (s.leave s.receiveTurns).arrived = s.arrived := by
    rw [receiveTurns_eq]
    cases hfollows : s.follows with
    | gave part => exact absurd hfollows (s.follows_ne_gave part)
    | again | ended | failed => simp [leave, List.filterMap_append, List.filterMap_map]
  have hmore : s.receiveTurns.isEmpty = false := by simp [receiveTurns_eq]
  calc s.leave s.receiveTurns
      = { s with arrived := (s.leave s.receiveTurns).arrived,
                 peerReset := s.peerReset && !s.receiveTurns.isEmpty } := rfl
    _ = s := by rw [harrived, hmore, Bool.not_false, Bool.and_true]

/-- **A read that finds no frame in time leaves the stream alone.** -/
theorem read_of_timedOut {limited : Bool} (h : (s.read limited).2.timedOut) :
    s.read limited = (none, { s with readFault := some .noFrame }) := by
  have hfault : (s.read limited).2.readFault = some .noFrame := of_decide_eq_true h
  by_cases hopen : (!s.valid) = true
  · rw [FrameStream.read, if_pos hopen] at hfault
    cases limited <;> cases hfault
  · by_cases hwaits : limited = true ∧ s.readable = false
    · obtain ⟨hlimited, hnothing⟩ := hwaits
      have hexpired : s.waits = .expired := by rw [waits, hnothing]; rfl
      rw [FrameStream.read, if_neg hopen, if_pos hlimited, hexpired]
      dsimp only [Frame.read]
      rw [leave_receiveTurns]
    · have hready : limited → s.readable := fun hlimited => by
        rw [not_and, Bool.not_eq_false] at hwaits
        exact hwaits hlimited
      have hother := receive_ne_noFrame s.noFrame_notMem_receiveTurns
      rw [FrameStream.read, if_neg hopen, reading_of_readable hready] at hfault
      dsimp only at hfault
      cases hreceived : (receive s.receiveTurns).1 with
      | fault e =>
        rw [hreceived] at hfault hother
        exact absurd (congrArg Received.fault (Option.some.inj hfault)) hother
      | frame payload | waiting =>
        rw [hreceived] at hfault
        cases hfault

/-- Reads frame after frame, each time with a limit or without. Gives what each read came
to: a frame or none, and the fault that the stream then shows. -/
def readEach : List Bool → FrameStream → List (Option Bytes × Option StreamFault)
  | [], _ => []
  | limited :: more, s =>
    ((s.read limited).1, (s.read limited).2.readFault) :: readEach more (s.read limited).2

theorem readEach_of_holds {payloads : List Bytes} {limits : List Bool} {k : Nat}
    (hvalid : s.valid) (h : s.Holds (payloads.flatMap encode)) (hended : s.ended)
    (hreset : s.peerReset = false) (hfit : ∀ payload ∈ payloads, payload.length ≤ maxSize)
    (hcount : limits.length = payloads.length + k) :
    s.readEach limits =
      payloads.map (some ·, none) ++ List.replicate k (none, some .endedInHead) := by
  induction limits generalizing s payloads k with
  | nil =>
    have hnone : payloads.length + k = 0 := hcount.symm
    obtain rfl : payloads = [] := List.eq_nil_of_length_eq_zero (by omega)
    obtain rfl : k = 0 := by omega
    rfl
  | cons limited limits ih =>
    rw [List.length_cons] at hcount
    cases payloads with
    | nil =>
      rw [List.length_nil] at hcount
      obtain ⟨j, rfl⟩ : ∃ j, k = j + 1 := ⟨k - 1, by omega⟩
      rw [readEach, read_of_ended hvalid h hended hreset]
      have hrest := @ih { s with readFault := some .endedInHead } [] j hvalid h hended hreset hfit
        (by rw [List.length_nil]; omega)
      exact congrArg ((none, some .endedInHead) :: ·) hrest
    | cons payload payloads =>
      rw [List.length_cons] at hcount
      obtain ⟨arrived, hholds, heq⟩ :=
        read_of_holds hvalid h (hfit payload List.mem_cons_self) limited
      rw [readEach, heq]
      have hrest := @ih { s with arrived, readFault := none } payloads k hvalid hholds hended
        hreset (fun p hp => hfit p (List.mem_cons_of_mem _ hp)) (by omega)
      exact congrArg ((some payload, none) :: ·) hrest

end FrameStream

/-! ## Connections -/

namespace Connection

open Haptics.Frame

/-- Writes frames one after the other at the left end, each with its limit on the time. -/
def post (c : Connection) (posts : List (Bytes × Option Nat)) : Connection :=
  posts.foldl (fun c post => (c.write post.1 post.2).2) c

theorem write_of_canSend {c : Connection} {payload : Bytes} {limitMs : Option Nat}
    (hsend : c.left.canSend) (hlimit : limitMs ≠ some 0) (hfits : payload.length ≤ maxSize) :
    c.write payload limitMs =
      (true, { left := { c.left with writeFault := none },
               right := c.right.arrive (encode payload) }) := by
  obtain ⟨hvalid, hopen⟩ : c.left.valid = true ∧ c.left.ended = false := by
    simpa [FrameStream.canSend] using hsend
  have hturns : c.left.sendTurns limitMs (encode payload).length =
      [.took (encode payload).length] := by
    simp [FrameStream.sendTurns, hvalid, hopen, hlimit]
  have hsent : sendAll (encode payload) [.took (encode payload).length] =
      (encode payload, none) := by
    obtain ⟨a, b, c, d, hencode, -⟩ := encode_eq hfits
    rw [hencode]
    simp [sendAll]
  rw [Connection.write, hturns, write_fits hfits, hsent]
  rfl

/-- Frames that are written lie at the other end one after the other. -/
theorem post_spec {c : Connection} {posts : List (Bytes × Option Nat)} {bytes : Bytes}
    (hsend : c.left.canSend) (hholds : c.right.Holds bytes)
    (hfit : ∀ post ∈ posts, post.1.length ≤ maxSize ∧ post.2 ≠ some 0) :
    ∃ writeFault arrived, c.post posts = { left := { c.left with writeFault },
                                           right := { c.right with arrived } } ∧
      { c.right with arrived }.Holds (bytes ++ (posts.map Prod.fst).flatMap encode) := by
  induction posts generalizing c bytes with
  | nil => exact ⟨c.left.writeFault, c.right.arrived, rfl, by simpa using hholds⟩
  | cons post posts ih =>
    obtain ⟨hfits, hlimit⟩ := hfit post List.mem_cons_self
    obtain ⟨writeFault, arrived, hpost, hmore⟩ :=
      @ih { left := { c.left with writeFault := none }, right := c.right.arrive (encode post.1) }
        (bytes ++ encode post.1) hsend (hholds.arrive _)
        (fun p hp => hfit p (List.mem_cons_of_mem _ hp))
    dsimp only at hpost hmore
    rw [FrameStream.arrive_with] at hpost hmore
    refine ⟨writeFault, arrived, ?_, ?_⟩
    · rw [Connection.post, List.foldl_cons, write_of_canSend hsend hlimit hfits]
      exact hpost
    · rw [List.map_cons, List.flatMap_cons, ← List.append_assoc]
      exact hmore

/-- **Frames cross a connection.** Those that are written at one end before it is shut down
are read at the other, each of them once and in order, and then the end of the stream. -/
theorem readEach_post {c : Connection} {posts : List (Bytes × Option Nat)} {limits : List Bool}
    {k : Nat} (hsend : c.left.canSend) (hvalid : c.right.valid) (hnew : c.right.arrived = [])
    (hreset : c.right.peerReset = false)
    (hfit : ∀ post ∈ posts, post.1.length ≤ maxSize ∧ post.2 ≠ some 0)
    (hcount : limits.length = posts.length + k) :
    (c.post posts).shutDown.right.readEach limits =
      posts.map (some ·.1, none) ++ List.replicate k (none, some .endedInHead) := by
  have hholds : c.right.Holds [] := by
    rw [FrameStream.Holds, hnew]
    exact ⟨rfl, fun part hpart => nomatch hpart⟩
  obtain ⟨hopen, -⟩ : c.left.valid = true ∧ c.left.ended = false := by
    simpa [FrameStream.canSend] using hsend
  obtain ⟨writeFault, arrived, hpost, hmore⟩ := post_spec hsend hholds hfit
  have hended : (c.post posts).shutDown.right.ended := by
    rw [hpost]
    simp [shutDown, FrameStream.ended, hopen]
  have hread := @FrameStream.readEach_of_holds (c.post posts).shutDown.right
    (posts.map Prod.fst) limits k
    (by rw [hpost]; exact hvalid) (by rw [hpost]; exact hmore) hended
    (by rw [hpost]; exact hreset) (fun payload hp => ?_) (by rw [List.length_map]; exact hcount)
  · rw [hread, List.map_map]
    rfl
  · obtain ⟨post, hmem, rfl⟩ := List.mem_map.1 hp
    exact (hfit post hmem).1

end Connection

/-! ## The whole -/

namespace Frame

/-- **Frames arrive as they were sent.** -/
structure Lossless : Prop where
  /-- A frame is the length of its payload in four bytes, the lowest first, and the
  payload. -/
  format : ∀ payload : Bytes, payload.length ≤ maxSize →
    ∃ a b c d, encode payload = a :: b :: c :: d :: payload ∧ lengthOf a b c d = payload.length
  /-- What is sent of a frame is a beginning of it, and all of it exactly if the write
  succeeds. -/
  sent : ∀ (payload : Bytes) (turns : List SendTurn), payload.length ≤ maxSize →
    (write payload turns).1 <+: encode payload ∧
      ((write payload turns).2 = none ↔ (write payload turns).1 = encode payload)
  /-- A write succeeds if no turn fails and there are enough that take a byte. -/
  completes : ∀ (payload : Bytes) (turns : List SendTurn), payload.length ≤ maxSize →
    (∀ e, SendTurn.failed e ∉ turns) →
    (encode payload).length ≤ turns.countP SendTurn.takes → (write payload turns).2 = none
  /-- A payload that is too large is refused, and no byte of it is sent. -/
  refused : ∀ (payload : Bytes) (turns : List SendTurn), maxSize < payload.length →
    write payload turns = ([], some (.failed (.tooLarge payload.length)))
  /-- What was written is read back in order, whatever parts it was sent and received in
  and however often a wait came to nothing; and then the stream ends. -/
  returned : ∀ (posts : List (Bytes × List SendTurn)) (turns tail : List ReceiveTurn)
    (waits : List (Option Wait)) (k : Nat),
    (∀ post ∈ posts, (write post.1 post.2).2 = none) →
    Carries turns (posts.flatMap fun post => (write post.1 post.2).1) →
    (∀ e, some (Wait.failed e) ∉ waits) →
    waits.countP (· ≠ some .expired) = posts.length + k →
    outcomes (readEach waits (turns ++ .ended :: tail)) =
      posts.map (.frame ·.1) ++ List.replicate k (.fault .endedInHead)
  /-- Turns of any kind hand over some bytes and then stop. -/
  arbitrary : ∀ turns : List ReceiveTurn, .gave [] ∉ turns →
    ∃ first tail bytes stop, turns = first ++ tail ∧ Carries first bytes ∧ Halts tail stop
  /-- A reader goes by the bytes alone. -/
  meets : ∀ (turns tail : List ReceiveTurn) (bytes : Bytes) (stop : Stop),
    Carries turns bytes → Halts tail stop → Meets bytes stop (receive (turns ++ tail)).1
  /-- A frame is received exactly where its length and so many bytes are. -/
  frame_iff : ∀ (turns tail : List ReceiveTurn) (bytes : Bytes) (stop : Stop) (payload : Bytes),
    Carries turns bytes → Halts tail stop →
    ((receive (turns ++ tail)).1 = .frame payload ↔
      ∃ a b c d rest, bytes = a :: b :: c :: d :: payload ++ rest ∧
        lengthOf a b c d = payload.length ∧ payload.length ≤ maxSize)
  /-- Where a stream stops for good there is a fault if there is no frame: the length is too
  large, or the stream is cut short. -/
  fails : ∀ (turns tail : List ReceiveTurn) (bytes : Bytes) (stop : Stop),
    Carries turns bytes → Halts tail stop → stop ≠ .waiting →
    (∀ payload, (receive (turns ++ tail)).1 ≠ .frame payload) →
    ∃ e, (receive (turns ++ tail)).1 = .fault e
  /-- A frame takes its own bytes and leaves the others. -/
  delimited : ∀ (turns tail : List ReceiveTurn) (payload rest : Bytes),
    Carries turns (encode payload ++ rest) → payload.length ≤ maxSize →
    ∃ left, Carries left rest ∧ receive (turns ++ tail) = (.frame payload, left ++ tail)
  /-- A read that times out takes no turn. -/
  quiet : ∀ (wait : Option Wait) (turns : List ReceiveTurn), (read wait turns).timedOut →
    (read wait turns).received = .fault .noFrame ∧ (read wait turns).rest = turns
  /-- A stream that times out is left alone, but for the fault. -/
  patient : ∀ (s : FrameStream) (limited : Bool), (s.read limited).2.timedOut →
    s.read limited = (none, { s with readFault := some .noFrame })
  /-- What is written at one end of a connection before it is shut down is read at the
  other, and then the stream ends. -/
  crossed : ∀ (c : Connection) (posts : List (Bytes × Option Nat)) (limits : List Bool) (k : Nat),
    c.left.canSend → c.right.valid → c.right.arrived = [] → c.right.peerReset = false →
    (∀ post ∈ posts, post.1.length ≤ maxSize ∧ post.2 ≠ some 0) →
    limits.length = posts.length + k →
    (c.post posts).shutDown.right.readEach limits =
      posts.map (some ·.1, none) ++ List.replicate k (none, some .endedInHead)

/-- A frame has a length, and says it. -/
theorem Meets.frame_shape {bytes payload : Bytes} {stop : Stop}
    (h : Meets bytes stop (.frame payload)) :
    ∃ a b c d rest, bytes = a :: b :: c :: d :: payload ++ rest ∧
      lengthOf a b c d = payload.length ∧ payload.length ≤ maxSize := by
  generalize hr : Received.frame payload = r at h
  cases h with
  | headless | truncated => cases stop <;> cases hr
  | large => cases hr
  | @frame a b c d payload' rest hbytes hlength hsize =>
    cases hr
    exact ⟨a, b, c, d, rest, hbytes, hlength.symm, hsize⟩

theorem Meets.fault_of_ne_frame {bytes : Bytes} {stop : Stop} {r : Received}
    (h : Meets bytes stop r) (hstop : stop ≠ .waiting) (hframe : ∀ payload, r ≠ .frame payload) :
    ∃ e, r = .fault e := by
  cases h with
  | headless | truncated =>
    cases stop with
    | waiting => exact absurd rfl hstop
    | ended | failed => exact ⟨_, rfl⟩
  | large => exact ⟨_, rfl⟩
  | @frame a b c d payload => exact absurd rfl (hframe payload)

/-- Four bytes that give a length of at most a frame's are the head of the frame. -/
theorem encode_of_lengthOf {a b c d : UInt8} {payload : Bytes}
    (hlength : lengthOf a b c d = payload.length) (hsize : payload.length ≤ maxSize) :
    a :: b :: c :: d :: payload = encode payload := by
  obtain ⟨a', b', c', d', hencode, hlength'⟩ := encode_eq hsize
  -- the four digits of a number are its own
  have hsame := hlength.trans hlength'.symm
  simp only [lengthOf] at hsame
  have ha := a.toNat_lt; have hb := b.toNat_lt; have hc := c.toNat_lt; have hd := d.toNat_lt
  have ha' := a'.toNat_lt; have hb' := b'.toNat_lt
  have hc' := c'.toNat_lt; have hd' := d'.toNat_lt
  obtain rfl : a = a' := UInt8.toNat_inj.1 (by omega)
  obtain rfl : b = b' := UInt8.toNat_inj.1 (by omega)
  obtain rfl : c = c' := UInt8.toNat_inj.1 (by omega)
  obtain rfl : d = d' := UInt8.toNat_inj.1 (by omega)
  exact hencode.symm

theorem lossless : Lossless where
  format payload := encode_eq
  sent payload turns hfits := by
    rw [write_fits hfits]
    exact sendAll_spec _ turns
  completes payload turns hfits hsound hturns := by
    rw [write_fits hfits]
    exact sendAll_completes hsound hturns
  refused payload turns hlarge := if_pos hlarge
  returned posts turns tail waits k hwritten hcarries hsound hcount := by
    have hfit : ∀ post ∈ posts, post.1.length ≤ maxSize := fun post hpost => by
      by_contra hlarge
      have hnone := hwritten post hpost
      rw [write, if_pos (by omega)] at hnone
      cases hnone
    have hsent : posts.flatMap (fun post => (write post.1 post.2).1) =
        (posts.map Prod.fst).flatMap encode := by
      rw [List.flatMap_map]
      refine List.flatMap_congr fun post hpost => ?_
      have hwrite := hwritten post hpost
      rw [write_fits (hfit post hpost)] at hwrite ⊢
      exact (sendAll_spec _ post.2).2.1 hwrite
    rw [hsent] at hcarries
    rw [outcomes_readEach hcarries (fun payload hp => ?_) hsound
      (by rw [List.length_map]; exact hcount), List.map_map]
    · rfl
    · obtain ⟨post, hmem, rfl⟩ := List.mem_map.1 hp
      exact hfit post hmem
  arbitrary turns := exists_carries
  meets turns tail bytes stop := meets_receive
  frame_iff turns tail bytes stop payload hcarries hstop := by
    constructor
    · intro hframe
      have hmeets := meets_receive hcarries hstop
      rw [hframe] at hmeets
      exact hmeets.frame_shape
    · rintro ⟨a, b, c, d, rest, rfl, hlength, hsize⟩
      rw [encode_of_lengthOf hlength hsize] at hcarries
      obtain ⟨left, -, heq⟩ := receive_frame hcarries hsize tail
      rw [heq]
  fails turns tail bytes stop hcarries hstop := (meets_receive hcarries hstop).fault_of_ne_frame
  delimited turns tail payload rest hcarries hsize := receive_frame hcarries hsize tail
  quiet wait turns htimedOut := by
    rcases wait with _ | _ | _ | e
    · cases htimedOut
    · cases htimedOut
    · exact ⟨rfl, rfl⟩
    · cases htimedOut
  patient s limited := FrameStream.read_of_timedOut
  crossed c posts limits k hsend hvalid hnew hreset hfit hcount :=
    Connection.readEach_post hsend hvalid hnew hreset hfit hcount

/-- An empty frame and one of two bytes come in parts that cross both, and a wait comes to
nothing between them. -/
example :
    outcomes (readEach [none, some .expired, some .ready, none]
      [.gave [0, 0], .again, .gave [0, 0, 2, 0, 0], .gave [0, 7, 8], .ended]) =
      [.frame [], .frame [7, 8], .fault .endedInHead] := by
  decide

end Frame

end Haptics
