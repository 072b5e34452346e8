import Haptics.Frame.Transfer
import Mathlib.Algebra.Group.Nat.Defs
import Mathlib.Data.List.Basic
/-!
# Frames in turns

A stream hands bytes over in parts of any size, with pauses between them, and the parts
have nothing to do with the frames. `Carries` says that turns of receiving hand over
certain bytes, and `Halts` why they then stop. `Meets` is all that a reader can make of
a stream, in terms of its bytes alone, and `meets_receive` says that it does so whatever
the parts are. `receive_frame` adds what it leaves behind.
-/

namespace Haptics

namespace Frame

/-! ## Lengths -/

/-- The length that four bytes give, the lowest first. -/
def lengthOf (a b c d : UInt8) : Nat :=
  a.toNat + 256 * b.toNat + 65536 * c.toNat + 16777216 * d.toNat

theorem ofDigits_four (a b c d : UInt8) : ofDigits [a, b, c, d] = lengthOf a b c d := by
  simp only [ofDigits, lengthOf]
  omega

theorem length_digits (count n : Nat) : (digits count n).length = count := by
  induction count generalizing n with
  | zero => rfl
  | succ count ih => simp [digits, ih]

/-- A number that is small enough is read from its digits. -/
theorem ofDigits_digits {count n : Nat} (h : n < 256 ^ count) :
    ofDigits (digits count n) = n := by
  induction count generalizing n with
  | zero =>
    have hn : n = 0 := by simpa using h
    rw [hn]
    rfl
  | succ count ih =>
    have hrest : n / 256 < 256 ^ count := by
      rw [Nat.pow_succ] at h
      omega
    have hdigit : (UInt8.ofNat (n % 256)).toNat = n % 256 := by
      rw [UInt8.toNat_ofNat']
      omega
    rw [digits, ofDigits, ih hrest, hdigit]
    omega

/-- **The frame of a payload** begins with its length in four bytes. -/
theorem encode_eq {payload : Bytes} (h : payload.length ≤ maxSize) :
    ∃ a b c d, encode payload = a :: b :: c :: d :: payload ∧
      lengthOf a b c d = payload.length := by
  have hfour := length_digits headSize payload.length
  have hread : ofDigits (digits headSize payload.length) = payload.length := by
    refine ofDigits_digits ?_
    have hmax : maxSize < 256 ^ headSize := by decide
    omega
  match hdigits : digits headSize payload.length, hfour with
  | [a, b, c, d], _ =>
    refine ⟨a, b, c, d, ?_, ?_⟩
    · rw [encode, hdigits]
      rfl
    · rw [← ofDigits_four, ← hdigits, hread]

/-! ## Sending -/

/-- Whether the system takes bytes in a turn. -/
def SendTurn.takes : SendTurn → Bool
  | took _ => true
  | _ => false

/-- What is sent is a beginning of the bytes, and it is all of them exactly if nothing
stopped it. -/
theorem sendAll_spec (bytes : Bytes) (turns : List SendTurn) :
    (sendAll bytes turns).1 <+: bytes ∧
      ((sendAll bytes turns).2 = none ↔ (sendAll bytes turns).1 = bytes) := by
  fun_induction sendAll bytes turns with
  | case1 => simp
  | case2 => simp
  | case3 b bs turns ih => exact ih
  | case4 => simp
  | case5 b bs count turns sent stop hsent ih =>
    rw [hsent] at ih
    obtain ⟨⟨more, hmore⟩, hall⟩ := ih
    have hsplit := List.take_append_drop (max 1 count) (b :: bs)
    dsimp only at hmore hall ⊢
    refine ⟨⟨more, ?_⟩, ?_⟩
    · rw [List.append_assoc, hmore, hsplit]
    · rw [hall]
      constructor
      · intro hsame
        rw [hsame, hsplit]
      · intro hsame
        exact List.append_cancel_left (hsame.trans hsplit.symm)

/-- **Bytes are sent to the last** if no turn fails and there are as many turns that take
some. -/
theorem sendAll_completes {bytes : Bytes} {turns : List SendTurn}
    (hsound : ∀ e, SendTurn.failed e ∉ turns)
    (hturns : bytes.length ≤ turns.countP SendTurn.takes) : (sendAll bytes turns).2 = none := by
  fun_induction sendAll bytes turns with
  | case1 => rfl
  | case2 => simp at hturns
  | case3 b bs turns ih =>
    refine ih (fun e he => hsound e (List.mem_cons_of_mem _ he)) ?_
    rwa [List.countP_cons_of_neg (by simp [SendTurn.takes])] at hturns
  | case4 b bs e => exact absurd List.mem_cons_self (hsound e)
  | case5 b bs count turns sent stop hsent ih =>
    rw [hsent] at ih
    refine ih (fun e he => hsound e (List.mem_cons_of_mem _ he)) ?_
    rw [List.countP_cons_of_pos (by simp [SendTurn.takes])] at hturns
    rw [List.length_drop]
    omega

theorem write_fits {payload : Bytes} (h : payload.length ≤ maxSize) (turns : List SendTurn) :
    write payload turns = sendAll (encode payload) turns := by
  rw [write, if_neg (by omega)]

/-! ## Receiving -/

/-- Turns that hand over certain bytes, in parts of any size and with any pauses. -/
inductive Carries : List ReceiveTurn → Bytes → Prop
  | nil : Carries [] []
  | gave {part bytes : Bytes} {turns : List ReceiveTurn} (hpart : part ≠ [])
    (h : Carries turns bytes) : Carries (.gave part :: turns) (part ++ bytes)
  | again {bytes : Bytes} {turns : List ReceiveTurn} (h : Carries turns bytes) :
    Carries (.again :: turns) bytes

/-- Why no byte is handed over in some turns. -/
inductive Halts : List ReceiveTurn → Stop → Prop
  | waiting : Halts [] .waiting
  | ended {turns : List ReceiveTurn} : Halts (.ended :: turns) .ended
  | failed {e : StreamFault} {turns : List ReceiveTurn} : Halts (.failed e :: turns) (.failed e)

variable {turns tail : List ReceiveTurn} {bytes payload : Bytes} {stop : Stop} {n : Nat}

/-- **All turns are of this kind**: some that hand over bytes, and others that begin with a
reason to stop. A part of no bytes would be the end of the stream. -/
theorem exists_carries {turns : List ReceiveTurn} (h : .gave [] ∉ turns) :
    ∃ first tail bytes stop, turns = first ++ tail ∧ Carries first bytes ∧ Halts tail stop := by
  induction turns with
  | nil => exact ⟨[], [], [], .waiting, rfl, .nil, .waiting⟩
  | cons turn turns ih =>
    obtain ⟨hturn, hturns⟩ := List.ne_and_not_mem_of_not_mem_cons h
    obtain ⟨first, tail, bytes, stop, rfl, hcarries, hhalts⟩ := ih hturns
    cases turn with
    | gave part =>
      have hpart : part ≠ [] := fun hempty => hturn (congrArg ReceiveTurn.gave hempty.symm)
      exact ⟨.gave part :: first, tail, part ++ bytes, stop, rfl, .gave hpart hcarries, hhalts⟩
    | again => exact ⟨.again :: first, tail, bytes, stop, rfl, .again hcarries, hhalts⟩
    | ended => exact ⟨[], .ended :: (first ++ tail), [], .ended, rfl, .nil, .ended⟩
    | failed e => exact ⟨[], .failed e :: (first ++ tail), [], .failed e, rfl, .nil, .failed⟩

/-- **Bytes that are there are received**, and what follows them is left. -/
theorem Carries.receiveAll_of_le (h : Carries turns bytes) (hle : n ≤ bytes.length)
    (tail : List ReceiveTurn) : ∃ left, Carries left (bytes.drop n) ∧
      receiveAll n (turns ++ tail) = (.ok (bytes.take n), left ++ tail) := by
  induction h generalizing n with
  | nil =>
    have hn : n = 0 := by simpa using hle
    subst hn
    exact ⟨[], .nil, by simp [receiveAll]⟩
  | @gave part bytes turns hpart h ih =>
    cases n with
    | zero => exact ⟨_, .gave hpart h, by simp [receiveAll]⟩
    | succ n =>
      rw [List.length_append] at hle
      by_cases hshort : part.length ≤ n + 1
      · -- the part is used up, and the turns after it give what is still wanted
        obtain ⟨left, hleft, heq⟩ := ih (n := n + 1 - part.length) (by omega)
        have hsplit : n + 1 = part.length + (n + 1 - part.length) := by omega
        refine ⟨left, ?_, ?_⟩
        · rw [hsplit, List.drop_length_add_append]
          exact hleft
        · rw [List.cons_append, receiveAll, if_pos hshort, heq, hsplit,
            List.take_length_add_append]
          simp only [Nat.add_sub_cancel_left]
          rfl
      · -- the part has more than is wanted, and the rest of it stays
        have hle' : n + 1 ≤ part.length := by omega
        have hmore : part.drop (n + 1) ≠ [] := by
          rw [Ne, List.drop_eq_nil_iff]
          omega
        refine ⟨.gave (part.drop (n + 1)) :: turns, ?_, ?_⟩
        · rw [List.drop_append_of_le_length hle']
          exact .gave hmore h
        · rw [List.cons_append, receiveAll, if_neg hshort, List.take_append_of_le_length hle']
          rfl
  | again h ih =>
    cases n with
    | zero => exact ⟨_, .again h, by simp [receiveAll]⟩
    | succ n =>
      obtain ⟨left, hleft, heq⟩ := ih hle
      exact ⟨left, hleft, by rw [List.cons_append, receiveAll, heq]⟩

/-- **Where the bytes run short**, the turns after them decide. -/
theorem Carries.receiveAll_of_lt (h : Carries turns bytes) (hlt : bytes.length < n)
    (hstop : Halts tail stop) : (receiveAll n (turns ++ tail)).1 = .error stop := by
  induction h generalizing n with
  | nil =>
    obtain ⟨m, rfl⟩ : ∃ m, n = m + 1 := Nat.exists_eq_add_one.2 (by simpa using hlt)
    cases hstop <;> rfl
  | @gave part bytes turns hpart h ih =>
    rw [List.length_append] at hlt
    obtain ⟨m, rfl⟩ : ∃ m, n = m + 1 := Nat.exists_eq_add_one.2 (by omega)
    have hrest := ih (n := m + 1 - part.length) (by omega)
    rw [List.cons_append, receiveAll, if_pos (by omega)]
    dsimp only
    rw [hrest]
    rfl
  | again h ih =>
    obtain ⟨m, rfl⟩ : ∃ m, n = m + 1 := Nat.exists_eq_add_one.2 (by omega)
    rw [List.cons_append, receiveAll]
    exact ih hlt

/-- **What a reader makes of a stream.** -/
inductive Meets (bytes : Bytes) (stop : Stop) : Received → Prop
  /-- The stream stops before there is a length. -/
  | headless (h : bytes.length < headSize) : Meets bytes stop (stop.received .endedInHead)
  | large {a b c d : UInt8} {rest : Bytes} (h : bytes = a :: b :: c :: d :: rest)
    (hsize : maxSize < lengthOf a b c d) :
    Meets bytes stop (.fault (.tooLarge (lengthOf a b c d)))
  /-- The stream stops within the payload. -/
  | truncated {a b c d : UInt8} {rest : Bytes} (h : bytes = a :: b :: c :: d :: rest)
    (hsize : lengthOf a b c d ≤ maxSize) (hrest : rest.length < lengthOf a b c d) :
    Meets bytes stop (stop.received .endedInPayload)
  | frame {a b c d : UInt8} {payload rest : Bytes} (h : bytes = a :: b :: c :: d :: payload ++ rest)
    (hlength : payload.length = lengthOf a b c d) (hsize : payload.length ≤ maxSize) :
    Meets bytes stop (.frame payload)

/-- **A reader goes by the bytes alone**, in whatever parts they come. -/
theorem meets_receive (h : Carries turns bytes) (hstop : Halts tail stop) :
    Meets bytes stop (receive (turns ++ tail)).1 := by
  unfold receive
  by_cases hhead : bytes.length < headSize
  · have hshort := h.receiveAll_of_lt hhead hstop
    generalize receiveAll headSize (turns ++ tail) = r at hshort ⊢
    obtain ⟨got, left⟩ := r
    subst hshort
    exact .headless hhead
  · obtain ⟨a, b, c, d, rest, rfl⟩ : ∃ a b c d rest, bytes = a :: b :: c :: d :: rest := by
      match bytes, hhead with
      | a :: b :: c :: d :: rest, _ => exact ⟨a, b, c, d, rest, rfl⟩
      | [], hhead | [_], hhead | [_, _], hhead | [_, _, _], hhead =>
        exact absurd (by simp [headSize]) hhead
    obtain ⟨left, hleft, heq⟩ := h.receiveAll_of_le (n := headSize) (by omega) tail
    have hfour : (a :: b :: c :: d :: rest).take headSize = [a, b, c, d] := rfl
    have hrest : (a :: b :: c :: d :: rest).drop headSize = rest := rfl
    rw [hrest] at hleft
    rw [heq, hfour]
    dsimp only
    rw [ofDigits_four]
    by_cases hsize : maxSize < lengthOf a b c d
    · rw [if_pos hsize]
      exact .large rfl hsize
    · rw [if_neg hsize]
      by_cases hlong : rest.length < lengthOf a b c d
      · have hshort := hleft.receiveAll_of_lt hlong hstop
        generalize receiveAll (lengthOf a b c d) (left ++ tail) = r at hshort ⊢
        obtain ⟨got, left'⟩ := r
        subst hshort
        exact .truncated rfl (by omega) hlong
      · obtain ⟨left', -, heq'⟩ := hleft.receiveAll_of_le (n := lengthOf a b c d) (by omega) tail
        have hlength : (rest.take (lengthOf a b c d)).length = lengthOf a b c d := by
          rw [List.length_take]
          omega
        rw [heq']
        refine @Meets.frame _ _ a b c d (rest.take (lengthOf a b c d))
          (rest.drop (lengthOf a b c d)) ?_ hlength (by omega)
        rw [List.cons_append, List.cons_append, List.cons_append, List.cons_append,
          List.take_append_drop]

/-- A frame that is there is received, and what follows it is left. -/
theorem receive_frame (h : Carries turns (encode payload ++ bytes))
    (hfits : payload.length ≤ maxSize) (tail : List ReceiveTurn) :
    ∃ left, Carries left bytes ∧ receive (turns ++ tail) = (.frame payload, left ++ tail) := by
  obtain ⟨a, b, c, d, hencode, hlength⟩ := encode_eq hfits
  rw [hencode] at h
  obtain ⟨left, hleft, heq⟩ := h.receiveAll_of_le (n := headSize) (by simp [headSize]) tail
  have hfour : (a :: b :: c :: d :: payload ++ bytes).take headSize = [a, b, c, d] := rfl
  have hrest : (a :: b :: c :: d :: payload ++ bytes).drop headSize = payload ++ bytes := rfl
  rw [hrest] at hleft
  obtain ⟨left', hleft', heq'⟩ := hleft.receiveAll_of_le (n := payload.length) (by simp) tail
  rw [List.drop_left] at hleft'
  refine ⟨left', hleft', ?_⟩
  rw [receive, heq, hfour]
  dsimp only
  rw [ofDigits_four, hlength, if_neg (by omega), heq', List.take_left]

theorem Carries.receiveAll_ended (h : Carries turns bytes) (hnone : bytes = [])
    (tail : List ReceiveTurn) :
    receiveAll (n + 1) (turns ++ .ended :: tail) = (.error .ended, .ended :: tail) := by
  induction h with
  | nil => rfl
  | gave hpart => exact absurd (List.append_eq_nil_iff.1 hnone).1 hpart
  | again h ih => exact ih hnone

/-- The end of a stream is met again and again. -/
theorem receive_ended (h : Carries turns []) (tail : List ReceiveTurn) :
    receive (turns ++ .ended :: tail) = (.fault .endedInHead, .ended :: tail) := by
  rw [receive, headSize, h.receiveAll_ended rfl tail]
  rfl

/-! ## Faults -/

/-- A failure to receive is one of the turns. -/
theorem mem_of_receiveAll_failed {e : StreamFault}
    (h : (receiveAll n turns).1 = .error (.failed e)) : .failed e ∈ turns := by
  fun_induction receiveAll n turns with
  | case1 => cases h
  | case2 => cases h
  | case3 n turns ih => exact List.mem_cons_of_mem _ (ih h)
  | case4 => cases h
  | case5 e' =>
    cases h
    exact List.mem_cons_self
  | case6 n part turns hle got left hgot ih =>
    rw [hgot] at ih
    refine List.mem_cons_of_mem _ (ih ?_)
    cases got with
    | error stop => exact h
    | ok got => cases h
  | case7 => cases h

theorem mem_of_mem_receiveAll {e : StreamFault} (h : .failed e ∈ (receiveAll n turns).2) :
    .failed e ∈ turns := by
  fun_induction receiveAll n turns with
  | case1 => exact h
  | case2 => cases h
  | case3 n turns ih => exact List.mem_cons_of_mem _ (ih h)
  | case4 => exact h
  | case5 => exact List.mem_cons_of_mem _ h
  | case6 n part turns hle got left hgot ih =>
    rw [hgot] at ih
    exact List.mem_cons_of_mem _ (ih h)
  | case7 n part turns hle =>
    rcases List.mem_cons.1 h with hpart | hrest
    · cases hpart
    · exact List.mem_cons_of_mem _ hrest

/-- Only a wait says that no frame began: no failure to receive is taken for it. -/
theorem receive_ne_noFrame (h : .failed .noFrame ∉ turns) :
    (receive turns).1 ≠ .fault .noFrame := by
  intro hfault
  unfold receive at hfault
  split at hfault
  · rename_i stop left hhead
    cases stop with
    | failed e =>
      cases hfault
      exact h (mem_of_receiveAll_failed (congrArg Prod.fst hhead))
    | waiting | ended => cases hfault
  · rename_i head left hhead
    dsimp only at hfault
    split at hfault
    · cases hfault
    · split at hfault
      · rename_i stop left' hpayload
        cases stop with
        | failed e =>
          cases hfault
          have hleft : .failed .noFrame ∈ (receiveAll headSize turns).2 := by
            rw [hhead]
            exact mem_of_receiveAll_failed (congrArg Prod.fst hpayload)
          exact h (mem_of_mem_receiveAll hleft)
        | waiting | ended => cases hfault
      · cases hfault

end Frame

end Haptics
