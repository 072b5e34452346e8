import Haptics.Protocol.Lovense
/-!
# Reading text commands

`Lovense.Frame.bytes` writes a command as text. This module reads such text
back: `Frame.ofBytes?` is the reader, `ofBytes?_bytes` says that it undoes the
writer, and `ofBytes?_eq_rotateChange` that only one text turns the rotator
round. Under both lies `digitsValue_ofNat`: the decimal digits of a number have
that number as their value.
-/

namespace Haptics

/-! ## Decimal digits -/

namespace Bytes

theorem ofAscii_colon : ofAscii [':'] = [58] := rfl

theorem ofAscii_semicolon : ofAscii [';'] = [59] := rfl

/-- The byte of a decimal digit. -/
def digit (d : Nat) : UInt8 := UInt8.ofNat (48 + d)

theorem digitChar_byte : ∀ d < 10, (Nat.digitChar d).toUInt8 = digit d := by decide

/-- The last digit of a number comes after the digits of the rest. -/
theorem ofNat_eq (n : Nat) :
    Bytes.ofNat n = (if n < 10 then [] else Bytes.ofNat (n / 10)) ++ [digit (n % 10)] := by
  have hd := digitChar_byte (n % 10) (Nat.mod_lt n (by omega))
  unfold Bytes.ofNat Bytes.ofAscii
  rw [Nat.toDigits_eq_if (by omega)]
  split
  · rename_i hn
    rw [Nat.mod_eq_of_lt hn] at hd ⊢
    simp [hd]
  · simp [hd]

end Bytes

namespace Lovense

theorem digit?_digit : ∀ d < 10, digit? (Bytes.digit d) = some d := by decide

/-- A value grows digit by digit, so it is read in two parts as in one. -/
theorem digitsValue_append (acc : Nat) (a b : Bytes) :
    digitsValue acc (a ++ b) = (digitsValue acc a).bind fun v => digitsValue v b := by
  induction a generalizing acc with
  | nil => rfl
  | cons x a ih =>
    cases hx : digit? x with
    | none => simp [digitsValue, hx]
    | some d => simp [digitsValue, hx, ih]

/-- **The digits of a number have it as their value.** -/
theorem digitsValue_ofNat (n : Nat) : digitsValue 0 (Bytes.ofNat n) = some n := by
  induction n using Nat.strongRecOn with
  | ind n ih =>
    have hd := digit?_digit (n % 10) (Nat.mod_lt n (by omega))
    rw [Bytes.ofNat_eq, digitsValue_append]
    split
    · rename_i hn
      simp only [digitsValue, Option.bind_some, hd]
      congr 1
      omega
    · rename_i hn
      rw [ih (n / 10) (by omega)]
      simp only [digitsValue, Option.bind_some, hd]
      congr 1
      omega

theorem ofNat_ne_nil (n : Nat) : Bytes.ofNat n ≠ [] := by
  rw [Bytes.ofNat_eq]
  simp

/-- Whether a byte is a decimal digit. -/
def isDigit (b : UInt8) : Bool := (digit? b).isSome

/-- A number is written in digits alone, which is why it can stand before a delimiter. -/
theorem isDigit_of_mem_ofNat (n : Nat) : ∀ b ∈ Bytes.ofNat n, isDigit b = true := by
  induction n using Nat.strongRecOn with
  | ind n ih =>
    intro b hb
    have hd := digit?_digit (n % 10) (Nat.mod_lt n (by omega))
    rw [Bytes.ofNat_eq, List.mem_append] at hb
    rcases hb with hb | hb
    · split at hb
      · exact absurd hb List.not_mem_nil
      · exact ih (n / 10) (by omega) b hb
    · rw [List.mem_singleton.1 hb, isDigit, hd]
      rfl

/-! ## Reading commands -/

/-- What comes after a word at the beginning of a text. -/
def after? : (word data : Bytes) → Option Bytes
  | [], data => some data
  | _ :: _, [] => none
  | w :: word, d :: data => if w = d then after? word data else none

/-- What comes after a word is found if the data begin with the word, and only then. -/
theorem after?_eq_some {word data rest : Bytes} :
    after? word data = some rest ↔ data = word ++ rest := by
  induction word generalizing data with
  | nil => simp [after?]
  | cons w word ih =>
    cases data with
    | nil => simp [after?]
    | cons d data =>
      by_cases h : w = d
      · simp [after?, h, ih]
      · simp [after?, h, Ne.symm h]

@[simp] theorem after?_append (word rest : Bytes) : after? word (word ++ rest) = some rest :=
  after?_eq_some.2 rfl

/-- A decimal number, which has a digit at least. -/
def number? (data : Bytes) : Option Nat := if data = [] then none else digitsValue 0 data

/-- A level and the semicolon that ends a command. -/
def level? (data : Bytes) : Option Nat :=
  if data.getLast? = some 59 then number? data.dropLast else none

@[simp] theorem number?_ofNat (n : Nat) : number? (Bytes.ofNat n) = some n := by
  rw [number?, if_neg (ofNat_ne_nil n), digitsValue_ofNat]

@[simp] theorem level?_ofNat (n : Nat) : level? (Bytes.ofNat n ++ [59]) = some n := by
  simp [level?]

namespace Frame

def vibrateWord : Bytes := Bytes.ofAscii ['V', 'i', 'b', 'r', 'a', 't', 'e']

def rotateWord : Bytes := Bytes.ofAscii ['R', 'o', 't', 'a', 't', 'e']

/-- What follows `Rotate` when the rotator is to turn round. -/
def changeWord : Bytes := Bytes.ofAscii ['C', 'h', 'a', 'n', 'g', 'e', ';']

/-- What follows `Rotate`: a level, or the order to turn round. -/
def ofRotate? (rest : Bytes) : Option Frame :=
  if rest = changeWord then some .rotateChange
  else (after? [58] rest).bind fun data => (level? data).map .rotate

/-- What follows `Vibrate`: the number of a motor, if only one is meant, and a level. -/
def ofVibrate? (rest : Bytes) : Option Frame :=
  let motor := rest.takeWhile isDigit
  (after? [58] (rest.dropWhile isDigit)).bind fun data =>
    (level? data).bind fun level =>
      if motor = [] then some (.vibrateAll level)
      else (number? motor).map fun k => .vibrate k level

/-- The command that a text stands for, if it is one. -/
def ofBytes? (data : Bytes) : Option Frame :=
  match after? rotateWord data with
  | some rest => ofRotate? rest
  | none =>
    match after? vibrateWord data with
    | some rest => ofVibrate? rest
    | none => if data = battery.bytes then some .battery else none

/-- The digits in front of a colon, and what follows them. -/
theorem span_ofNat (n : Nat) (rest : Bytes) :
    (Bytes.ofNat n ++ ([58] ++ rest)).takeWhile isDigit = Bytes.ofNat n ∧
      (Bytes.ofNat n ++ ([58] ++ rest)).dropWhile isDigit = [58] ++ rest := by
  have hc : isDigit 58 = false := rfl
  constructor
  · rw [List.takeWhile_append_of_pos (isDigit_of_mem_ofNat n)]
    simp [hc]
  · rw [List.dropWhile_append_of_pos (isDigit_of_mem_ofNat n)]
    simp [hc]

/-- **Reading undoes writing.** -/
theorem ofBytes?_bytes (f : Frame) : ofBytes? f.bytes = some f := by
  cases f with
  | vibrateAll level =>
    have hr : after? rotateWord (vibrateAll level).bytes = none := rfl
    have hv : after? vibrateWord (vibrateAll level).bytes =
        some ([58] ++ (Bytes.ofNat level ++ [59])) := rfl
    have hc : isDigit 58 = false := rfl
    have htake : ([58] ++ (Bytes.ofNat level ++ [59])).takeWhile isDigit = [] := by simp [hc]
    have hdrop : ([58] ++ (Bytes.ofNat level ++ [59])).dropWhile isDigit =
        [58] ++ (Bytes.ofNat level ++ [59]) := by simp [hc]
    rw [ofBytes?, hr, hv]
    simp only [ofVibrate?, htake, hdrop, after?_append, Option.bind_some, level?_ofNat, if_true]
  | vibrate motor level =>
    have hr : after? rotateWord (vibrate motor level).bytes = none := rfl
    have hv : after? vibrateWord (vibrate motor level).bytes =
        some (Bytes.ofNat motor ++ ([58] ++ (Bytes.ofNat level ++ [59]))) := by
      rw [after?_eq_some]
      simp [bytes, vibrateWord, Bytes.ofAscii_colon, Bytes.ofAscii_semicolon]
    obtain ⟨htake, hdrop⟩ := span_ofNat motor (Bytes.ofNat level ++ [59])
    rw [ofBytes?, hr, hv]
    simp only [ofVibrate?, htake, hdrop, after?_append, Option.bind_some, level?_ofNat,
      if_neg (ofNat_ne_nil motor), number?_ofNat, Option.map_some]
  | rotate level =>
    have hr : after? rotateWord (rotate level).bytes =
        some ([58] ++ (Bytes.ofNat level ++ [59])) := rfl
    have hn : [58] ++ (Bytes.ofNat level ++ [59]) ≠ changeWord := by
      intro h
      have hhead : some (58 : UInt8) = some 67 := congrArg List.head? h
      exact absurd hhead (by decide)
    rw [ofBytes?, hr]
    simp only [ofRotate?, if_neg hn, after?_append, Option.bind_some, level?_ofNat,
      Option.map_some]
  | rotateChange => rfl
  | battery => rfl

/-- **One text turns the rotator round.** -/
theorem ofBytes?_eq_rotateChange {data : Bytes} :
    ofBytes? data = some .rotateChange ↔ data = rotateChange.bytes := by
  refine ⟨fun h => ?_, fun h => h ▸ ofBytes?_bytes _⟩
  unfold ofBytes? at h
  split at h
  · rename_i rest hrest
    rw [after?_eq_some] at hrest
    unfold ofRotate? at h
    split at h
    · rename_i hchange
      rw [hrest, hchange]
      rfl
    · obtain ⟨tail, -, h⟩ := Option.bind_eq_some_iff.1 h
      obtain ⟨level, -, h⟩ := Option.map_eq_some_iff.1 h
      cases h
  · split at h
    · obtain ⟨tail, -, h⟩ := Option.bind_eq_some_iff.1 h
      obtain ⟨level, -, h⟩ := Option.bind_eq_some_iff.1 h
      split at h
      · cases h
      · obtain ⟨k, -, h⟩ := Option.map_eq_some_iff.1 h
        cases h
    · split at h <;> cases h

end Frame

end Lovense

end Haptics
