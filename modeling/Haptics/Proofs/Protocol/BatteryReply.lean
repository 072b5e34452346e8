import Haptics.Proofs.Protocol.LovenseFrame
import Haptics.Protocol.Basic
import Mathlib.Data.List.TakeWhile
import Mathlib.Data.Nat.Digits.Lemmas
/-!
# Battery replies

A reply tells a charge if it is one to three decimal digits and a semicolon, and
the digits stand for 100 at most: `Lovense.Tells`, which says so without the
reader. The reader finds exactly these charges (`percentage?_eq_some_iff`), in
any bytes. It asks for the end of a text and turns a text into a machine number,
and neither can be done with every text; `Lovense.heed` is the reading with
these steps as they may fail, and `heed_eq` says that its checks come in time.
`Protocol.reads_replies` is the main statement.
-/

namespace Haptics

/-! ## Decimal digits -/

namespace Bytes

/-- The number that a row of decimal digits stands for, leading zeros included. -/
def decimal (digits : Bytes) : Nat :=
  Nat.ofDigits 10 (digits.reverse.map fun b => b.toNat - 48)

theorem decimal_concat (digits : Bytes) (b : UInt8) :
    decimal (digits ++ [b]) = 10 * decimal digits + (b.toNat - 48) := by
  simp only [decimal, List.reverse_append, List.reverse_singleton, List.singleton_append,
    List.map_cons, Nat.ofDigits_cons]
  exact Nat.add_comm _ _

end Bytes

namespace Lovense

variable {c : Capabilities} {data text : Bytes} {percent : Nat}

theorem digit?_eq_some_iff {b : UInt8} {d : Nat} :
    digit? b = some d ↔ (48 ≤ b ∧ b ≤ 57) ∧ b.toNat - 48 = d := by
  unfold digit?
  split <;> rename_i h <;> simp [h]

theorem isDigit_iff {b : UInt8} : isDigit b = true ↔ 48 ≤ b ∧ b ≤ 57 := by
  rw [isDigit, Option.isSome_iff_exists]
  simp only [digit?_eq_some_iff, exists_and_left, exists_eq', and_true]

/-- **A row of bytes has a value if all of them are digits**, and then it is the
number that they stand for. -/
theorem digitsValue_eq_some_iff {n : Nat} :
    digitsValue 0 text = some n ↔ (∀ b ∈ text, isDigit b = true) ∧ Bytes.decimal text = n := by
  -- by the last digit, which both sides add to ten times the rest
  induction text using List.reverseRecOn generalizing n with
  | nil => simp [digitsValue, Bytes.decimal]
  | append_singleton text b ih =>
    rw [digitsValue_append, Option.bind_eq_some_iff, Bytes.decimal_concat]
    simp only [digitsValue, Option.bind_eq_some_iff, ih, digit?_eq_some_iff, ← isDigit_iff,
      List.forall_mem_append, List.forall_mem_singleton, Option.some.injEq]
    constructor
    · rintro ⟨v, ⟨htext, rfl⟩, d, ⟨hb, rfl⟩, rfl⟩
      exact ⟨⟨htext, hb⟩, rfl⟩
    · rintro ⟨⟨htext, hb⟩, rfl⟩
      exact ⟨_, ⟨htext, rfl⟩, _, ⟨hb, rfl⟩, rfl⟩

/-- So many digits stand for less than the power of ten. -/
theorem decimal_lt (h : ∀ b ∈ text, isDigit b = true) :
    Bytes.decimal text < 10 ^ text.length := by
  have hlt := Nat.ofDigits_lt_base_pow_length (b := 10)
    (l := text.reverse.map fun b => b.toNat - 48) (by decide) fun d hd => by
      obtain ⟨b, hb, rfl⟩ := List.mem_map.1 hd
      have hb := (isDigit_iff.1 (h b (List.mem_reverse.1 hb))).2
      have hb : b.toNat ≤ 57 := UInt8.le_iff_toNat_le.1 hb
      omega
  rwa [List.length_map, List.length_reverse] at hlt

/-! ## The grammar -/

/-- **A reply that tells a charge**: one to three decimal digits and a semicolon. -/
def Tells (data : Bytes) (percent : Nat) : Prop :=
  ∃ digits : Bytes, data = digits ++ [59] ∧ (1 ≤ digits.length ∧ digits.length ≤ 3) ∧
    (∀ b ∈ digits, 48 ≤ b ∧ b ≤ 57) ∧ Bytes.decimal digits = percent ∧ percent ≤ 100

/-- One to three digits, and a semicolon after them. -/
def Numeral (text : Bytes) (last : UInt8) : Prop :=
  last = 59 ∧ (text ≠ [] ∧ text.length ≤ 3) ∧ ∀ b ∈ text, isDigit b = true

/-- The grammar, by the parts of a text. -/
theorem tells_concat_iff {last : UInt8} :
    Tells (text ++ [last]) percent ↔
      Numeral text last ∧ Bytes.decimal text = percent ∧ percent ≤ 100 := by
  constructor
  · rintro ⟨digits, heq, ⟨hsome, hshort⟩, hdigits, hcharge⟩
    obtain ⟨rfl, hlast⟩ := List.append_inj' heq rfl
    exact ⟨⟨List.singleton_inj.1 hlast, ⟨List.ne_nil_of_length_pos hsome, hshort⟩,
      fun b hb => isDigit_iff.2 (hdigits b hb)⟩, hcharge⟩
  · rintro ⟨⟨rfl, ⟨hnil, hshort⟩, hdigits⟩, hcharge⟩
    exact ⟨text, rfl, ⟨List.length_pos_of_ne_nil hnil, hshort⟩,
      fun b hb => isDigit_iff.1 (hdigits b hb), hcharge⟩

/-- The reader, by the parts of a text. -/
theorem percentage?_concat_iff {last : UInt8} :
    percentage? (text ++ [last]) = some percent ↔
      Numeral text last ∧ Bytes.decimal text = percent ∧ percent ≤ 100 := by
  simp only [percentage?, List.getLast?_concat, List.dropLast_concat, Option.some.injEq,
    Option.ite_none_right_eq_some, Option.ite_none_left_eq_some, Option.filter_eq_some_iff,
    digitsValue_eq_some_iff, decide_eq_true_eq, not_or, Nat.not_lt, Numeral, and_assoc]

/-- **The reader finds exactly the charges that replies tell.** -/
theorem percentage?_eq_some_iff : percentage? data = some percent ↔ Tells data percent := by
  rcases List.eq_nil_or_concat data with rfl | ⟨text, last, rfl⟩
  · simp [percentage?, Tells]
  · rw [List.concat_eq_append, percentage?_concat_iff, tells_concat_iff]

/-- Leading zeros are allowed, a second semicolon is not. -/
example : percentage? (Bytes.ofAscii ['0', '0', '7', ';']) = some 7 ∧
    percentage? (Bytes.ofAscii ['7', ';', ';']) = none := by decide

/-- **The text of a percentage tells it.** -/
theorem tells_ofNat (h : percent ≤ 100) :
    Tells (Bytes.ofNat percent ++ Bytes.ofAscii [';']) percent := by
  obtain ⟨hdigits, hdecimal⟩ := digitsValue_eq_some_iff.1 (digitsValue_ofNat percent)
  have hsome : 0 < (Bytes.ofNat percent).length := List.length_pos_of_ne_nil (ofNat_ne_nil percent)
  have hshort : (Bytes.ofNat percent).length ≤ 3 := by
    rw [Bytes.ofNat, Bytes.ofAscii, List.length_map]
    exact (Nat.length_toDigits_le_iff (by decide) (by decide)).2 (by omega)
  exact ⟨Bytes.ofNat percent, rfl, ⟨hsome, hshort⟩, fun b hb => isDigit_iff.1 (hdigits b hb),
    hdecimal, h⟩

/-! ## The reading -/

/-- The reading of a charge by a sensor. -/
def charge (s : Sensor) (percent : Nat) : Reading :=
  { kind := .battery, index := s.index, value := .ofNat percent / .ofNat 100 }

/-- The first battery gauge of a device. -/
def FirstBattery (c : Capabilities) (s : Sensor) : Prop :=
  s.kind = .battery ∧
    ∃ before after, c.sensors = before ++ s :: after ∧ ∀ x ∈ before, x.kind ≠ .battery

theorem find?_battery_iff {s : Sensor} :
    c.sensors.find? (fun x => x.kind = .battery) = some s ↔ FirstBattery c s := by
  simp [List.find?_eq_some_iff_append, FirstBattery]

theorem interpret_of_tells {s : Sensor} (h : Tells data percent) (hs : FirstBattery c s) :
    interpret c data = [charge s percent] := by
  rw [interpret, percentage?_eq_some_iff.2 h, find?_battery_iff.2 hs]
  rfl

/-- **There is a reading exactly if the reply tells a charge and the device has a
battery gauge.** -/
theorem interpret_ne_nil_iff :
    interpret c data ≠ [] ↔ (∃ percent, Tells data percent) ∧ ∃ s, FirstBattery c s := by
  simp only [← percentage?_eq_some_iff, ← find?_battery_iff, ← Option.isSome_iff_exists]
  unfold interpret
  cases percentage? data with
  | none => simp
  | some n =>
    cases c.sensors.find? fun s => s.kind = .battery with
    | none => simp
    | some s => simp

/-- What tells no charge adds no reading. -/
theorem interpret_eq_nil (h : ∀ percent, ¬ Tells data percent) : interpret c data = [] := by
  by_contra hne
  obtain ⟨⟨percent, htells⟩, -⟩ := interpret_ne_nil_iff.1 hne
  exact h percent htells

theorem exists_firstBattery_iff :
    (∃ s, FirstBattery c s) ↔ ∃ s ∈ c.sensors, s.kind = .battery := by
  simp only [← find?_battery_iff, ← Option.isSome_iff_exists, List.find?_isSome,
    decide_eq_true_eq]

/-! ## Reading step by step -/

/-- What cannot be done with some texts. -/
inductive Mishap
  /-- The end of a text was asked for, and the text is empty. -/
  | noEnd
  /-- A number was asked for, and the text begins with none. -/
  | noNumber
  /-- A number was asked for, and that of the text takes more than 32 bits. -/
  | tooLarge

/-- The last byte of a text, after what stands before it. -/
def parted (text : Bytes) : Except Mishap (Bytes × UInt8) :=
  match text.getLast? with
  | none => .error .noEnd
  | some b => .ok (text.dropLast, b)

/-- Whether a byte is an ASCII blank. -/
def isBlank (b : UInt8) : Bool := b = 32 || (9 ≤ b && b ≤ 13)

/-- The 32-bit number with a sign that the digits at the beginning of a text stand for. -/
def fitted (negative : Bool) (text : Bytes) : Except Mishap Int :=
  let digits := text.takeWhile isDigit
  let value := Binary64.signed negative (Bytes.decimal digits)
  if digits = [] then .error .noNumber
  else if -2 ^ 31 ≤ value ∧ value < 2 ^ 31 then .ok value
  else .error .tooLarge

/-- The 32-bit number that a text begins with. Blanks and a sign may stand before its digits, and
anything after them. -/
def number (text : Bytes) : Except Mishap Int :=
  match text.dropWhile isBlank with
  | 45 :: rest => fitted true rest
  | 43 :: rest => fitted false rest
  | rest => fitted false rest

/-- Whether a notification was taken, and the readings after those before it. Every step is made
as the checks before it allow, and no step looks ahead. -/
def heed (c : Capabilities) (before : List Reading) (data : Bytes) :
    Except Mishap (Bool × List Reading) := do
  if data = [] then return (true, before)
  let (text, last) ← parted data
  if last ≠ 59 then return (true, before)
  if text = [] ∨ 3 < text.length then return (true, before)
  if text.all isDigit = false then return (true, before)
  let percent ← number text
  if 100 < percent then return (true, before)
  match c.sensors.find? fun s => s.kind = .battery with
  | none => return (true, before)
  | some s => return (true, before ++ [charge s percent.toNat])

/-- **A few digits are a number of 32 bits.** -/
theorem number_eq (hnil : text ≠ []) (hshort : text.length ≤ 3)
    (hdigits : ∀ b ∈ text, isDigit b = true) : number text = .ok (Bytes.decimal text : Int) := by
  obtain ⟨b, rest, rfl⟩ := List.exists_cons_of_ne_nil hnil
  have hb := hdigits b List.mem_cons_self
  obtain ⟨hlow, hhigh⟩ := isDigit_iff.1 hb
  have hlow : 48 ≤ b.toNat := UInt8.le_iff_toNat_le.1 hlow
  -- a digit is no blank and no sign
  have hblank : isBlank b = false := by
    have hne : b ≠ 32 := fun h => by simp [h] at hlow
    have hgt : ¬ b ≤ 13 := fun h => by
      have h : b.toNat ≤ 13 := UInt8.le_iff_toNat_le.1 h
      omega
    simp [isBlank, hne, hgt]
  have hsmall : Bytes.decimal (b :: rest) < 1000 :=
    Nat.lt_of_lt_of_le (decimal_lt hdigits) (Nat.pow_le_pow_right (n := 10) (by decide) hshort)
  have htake : (b :: rest).takeWhile isDigit = b :: rest := List.takeWhile_eq_self_iff.2 hdigits
  have hfitted : fitted false (b :: rest) = .ok (Bytes.decimal (b :: rest) : Int) := by
    rw [fitted, htake, if_neg hnil, if_pos (by simp only [Binary64.signed]; omega)]
    rfl
  unfold number
  rw [List.dropWhile_cons_of_neg (by simp [hblank])]
  split
  · rename_i heq
    cases heq
    exact absurd hlow (by decide)
  · rename_i heq
    cases heq
    exact absurd hlow (by decide)
  · exact hfitted

/-- What passes the checks is a number, and a charge or too much for one. -/
theorem heed_numeral {last : UInt8} (c : Capabilities) (before : List Reading)
    (h : Numeral text last) :
    heed c before (text ++ [last]) = .ok (true, before ++ interpret c (text ++ [last])) := by
  obtain ⟨hlast, ⟨hnil, hshort⟩, hdigits⟩ := h
  have hparted : parted (text ++ [last]) = .ok (text, last) := by simp [parted]
  have hlength : ¬ (text = [] ∨ 3 < text.length) := by
    rintro (heq | hlong)
    · exact hnil heq
    · omega
  have hall : ¬ text.all isDigit = false := by simp [List.all_eq_true.2 hdigits]
  simp only [heed, hparted, number_eq hnil hshort hdigits, bind, Except.bind]
  rw [if_neg (by simp), if_neg (not_not.2 hlast), if_neg hlength, if_neg hall]
  by_cases hle : Bytes.decimal text ≤ 100
  · have htells := tells_concat_iff.2 ⟨⟨hlast, ⟨hnil, hshort⟩, hdigits⟩, rfl, hle⟩
    rw [if_neg (by omega), Int.toNat_natCast, interpret, percentage?_eq_some_iff.2 htells]
    cases c.sensors.find? fun s => s.kind = .battery with
    | none => simp [pure, Except.pure]
    | some s => rfl
  · have hsilent : interpret c (text ++ [last]) = [] := interpret_eq_nil fun percent htells => by
      obtain ⟨-, rfl, hcharge⟩ := tells_concat_iff.1 htells
      exact hle hcharge
    rw [if_pos (by omega), hsilent, List.append_nil]
    rfl

/-- What does not pass the checks is left alone by the first that it does not pass. -/
theorem heed_other {last : UInt8} (c : Capabilities) (before : List Reading)
    (h : ¬ Numeral text last) :
    heed c before (text ++ [last]) = .ok (true, before) := by
  have hparted : parted (text ++ [last]) = .ok (text, last) := by simp [parted]
  simp only [heed, hparted, bind, Except.bind]
  rw [if_neg (by simp)]
  split
  · rfl
  · rename_i hlast
    split
    · rfl
    · rename_i hlength
      split
      · rfl
      · rename_i hall
        obtain ⟨hnil, hshort⟩ := not_or.1 hlength
        have hdigits := List.all_eq_true.1 (Bool.not_eq_false _ ▸ hall)
        exact absurd ⟨not_not.1 hlast, ⟨hnil, by omega⟩, hdigits⟩ h

/-- **No step fails, and the readings are those of the reader.** -/
theorem heed_eq (c : Capabilities) (before : List Reading) (data : Bytes) :
    heed c before data = .ok (true, before ++ interpret c data) := by
  rcases List.eq_nil_or_concat data with rfl | ⟨text, last, rfl⟩
  · rw [interpret_eq_nil fun percent h => by simp [Tells] at h, List.append_nil]
    rfl
  · rw [List.concat_eq_append]
    by_cases h : Numeral text last
    · exact heed_numeral c before h
    · have hsilent : interpret c (text ++ [last]) = [] :=
        interpret_eq_nil fun percent htells => h (tells_concat_iff.1 htells).1
      rw [hsilent, List.append_nil]
      exact heed_other c before h

end Lovense

/-! ## Every reply -/

/-- The percentage that the value of a reading comes to. -/
def Reading.percent (r : Reading) : Int := (r.value * .ofNat 100).nearestInt64

/-- The value of a reading is rounded, but no two charges are rounded to one. -/
theorem Lovense.percent_charge {percent : Nat} (h : percent ≤ 100) (s : Sensor) :
    (charge s percent).percent = percent := by
  have hall : ∀ n ≤ 100,
      ((Binary64.ofNat n / .ofNat 100) * .ofNat 100).nearestInt64 = (n : Int) := by decide +kernel
  exact hall percent h

namespace Protocol

/-- **What a protocol makes of the bytes that its device sends.** -/
structure Reads (p : Protocol) : Prop where
  /-- No step fails, the bytes are taken, and readings come after those before them. -/
  settles : ∀ before data,
    Lovense.heed p.capabilities before data = .ok (true, before ++ p.interpret data)
  /-- There is a reading exactly if a charge is told and can be a sensor's. -/
  adds_iff : ∀ data, p.interpret data ≠ [] ↔
    (∃ percent, Lovense.Tells data percent) ∧ ∃ s ∈ p.capabilities.sensors, s.kind = .battery
  /-- It is one reading, of the first battery gauge. -/
  adds : ∀ data percent s, Lovense.Tells data percent → Lovense.FirstBattery p.capabilities s →
    p.interpret data = [Lovense.charge s percent]
  /-- The reading carries the charge. -/
  carries : ∀ data percent, Lovense.Tells data percent →
    ∀ r ∈ p.interpret data, r.percent = percent
  /-- The text of a percentage tells it, and is read as it. -/
  readsBack : ∀ percent ≤ 100,
    Lovense.Tells (Bytes.ofNat percent ++ Bytes.ofAscii [';']) percent ∧
      Lovense.percentage? (Bytes.ofNat percent ++ Bytes.ofAscii [';']) = some percent

/-- **Replies are read by their grammar**, whatever else the protocol keeps and whatever its
device can do. -/
theorem reads_replies (clockwise : Bool) (sent : Table UInt32 Sent) (c : Capabilities) :
    Reads { dialect := .lovense clockwise, capabilities := c, sent } where
  settles before data := Lovense.heed_eq c before data
  adds_iff data := by
    rw [← Lovense.exists_firstBattery_iff]
    exact Lovense.interpret_ne_nil_iff
  adds _ _ _ htells hs := Lovense.interpret_of_tells htells hs
  carries data percent htells r hr := by
    have hne : Lovense.interpret c data ≠ [] := List.ne_nil_of_mem hr
    obtain ⟨-, s, hs⟩ := Lovense.interpret_ne_nil_iff.1 hne
    have heq : r ∈ [Lovense.charge s percent] := Lovense.interpret_of_tells htells hs ▸ hr
    rw [List.mem_singleton.1 heq]
    obtain ⟨-, -, -, -, -, hle⟩ := htells
    exact Lovense.percent_charge hle s
  readsBack percent h := by
    have htells := Lovense.tells_ofNat h
    exact ⟨htells, Lovense.percentage?_eq_some_iff.2 htells⟩

end Protocol

end Haptics
