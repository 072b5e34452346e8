import Haptics.Binary64.Arithmetic
import Haptics.Binary64.Rounding
import Mathlib.Algebra.Order.Field.Power
import Mathlib.Algebra.Order.Ring.Rat
import Mathlib.Tactic.NormNum
import Mathlib.Tactic.Positivity
import Mathlib.Tactic.Ring
/-!
# Bounds on numbers

How large a result can be. `AtMost x i` says that the number is no further from
zero than `2 ^ i`; such a number is finite, and what it says as a quotient is no
further either (`AtMost.decode`). Rounding never goes beyond a power of two:
`atMost_nearest` has the bound on the exact result as its only hypothesis, so each
operation needs no more than its exact result. A difference of equal numbers is
exactly zero (`sub_self_of_atMost`).
-/

namespace Haptics

namespace Binary64

variable {x : Binary64} {s : Bool} {m n num den i : Nat} {e : Int}

/-! ## Sign and magnitude -/

/-- The magnitude is the bits below the sign. -/
theorem magnitude_eq (x : Binary64) : x.magnitude = x.bits.toNat % 2 ^ 63 := by
  rw [magnitude, UInt64.toNat_and]
  exact Nat.and_two_pow_sub_one_eq_mod _ 63

theorem magnitude_lt (x : Binary64) : x.magnitude < 2 ^ 63 := by
  rw [magnitude_eq]
  exact Nat.mod_lt _ (by decide)

theorem negative_iff (x : Binary64) : x.negative = true ↔ 2 ^ 63 ≤ x.bits.toNat := by
  have hlt := x.bits.toNat_lt
  rw [negative, decide_eq_true_iff, ← UInt64.toNat_inj, UInt64.toNat_shiftRight]
  simp only [UInt64.toNat_ofNat, Nat.shiftRight_eq_div_pow, Nat.reducePow, Nat.reduceMod]
  omega

/-- The sign is the highest bit and is put before the magnitude. -/
theorem toNat_ofMagnitude (s : Bool) (hm : m < 2 ^ 63) :
    (ofMagnitude s m).bits.toNat = (if s then 2 ^ 63 else 0) + m := by
  have hof : (UInt64.ofNat m).toNat = m := by
    rw [UInt64.toNat_ofNat']
    exact Nat.mod_eq_of_lt (by omega)
  rw [ofMagnitude, UInt64.toNat_or, hof]
  cases s with
  | false => simp
  | true => exact (Nat.two_pow_add_eq_or_of_lt hm 1).symm

theorem magnitude_ofMagnitude (s : Bool) (hm : m < 2 ^ 63) : (ofMagnitude s m).magnitude = m := by
  rw [magnitude_eq, toNat_ofMagnitude s hm]
  split <;> omega

theorem negative_ofMagnitude (s : Bool) (hm : m < 2 ^ 63) : (ofMagnitude s m).negative = s := by
  rw [Bool.eq_iff_iff, negative_iff, toNat_ofMagnitude s hm]
  cases s
  · simpa using hm
  · simp

/-- The bits are read off the magnitude. -/
theorem decode_eq (x : Binary64) :
    x.decode =
      if x.magnitude / 2 ^ 52 = 2047 then
        if x.magnitude % 2 ^ 52 = 0 then .infinite x.negative else .nan x.negative
      else if x.magnitude / 2 ^ 52 = 0 then .finite x.negative (x.magnitude % 2 ^ 52) (-1074)
      else .finite x.negative (2 ^ 52 + x.magnitude % 2 ^ 52)
        ((x.magnitude / 2 ^ 52 : Nat) - 1075) := by
  have hexponent : (x.bits >>> 52 &&& 0x7ff).toNat = x.magnitude / 2 ^ 52 := by
    rw [magnitude_eq, UInt64.toNat_and, UInt64.toNat_shiftRight]
    have hmod := Nat.and_two_pow_sub_one_eq_mod (x.bits.toNat / 2 ^ 52) 11
    simp only [UInt64.toNat_ofNat, Nat.shiftRight_eq_div_pow, Nat.reducePow, Nat.reduceMod,
      Nat.reduceSub] at hmod ⊢
    omega
  have hfraction : (x.bits &&& 0xfffffffffffff).toNat = x.magnitude % 2 ^ 52 := by
    rw [magnitude_eq, UInt64.toNat_and]
    have hmod := Nat.and_two_pow_sub_one_eq_mod x.bits.toNat 52
    simp only [UInt64.toNat_ofNat, Nat.reducePow, Nat.reduceMod, Nat.reduceSub] at hmod ⊢
    omega
  unfold decode
  rw [hexponent, hfraction]
  rfl

/-! ## Numbers up to a power of two -/

/-- The number is no further from zero than `2 ^ i`. -/
def AtMost (x : Binary64) (i : Nat) : Prop := x.magnitude ≤ (1023 + i) * 2 ^ 52

/-- A significand below a power of two stays below the product. -/
theorem mul_zpow_le {k j : Int} (hm : (m : ℚ) ≤ 2 ^ k) (hj : k + e ≤ j) :
    (m : ℚ) * 2 ^ e ≤ 2 ^ j := by
  calc (m : ℚ) * 2 ^ e ≤ 2 ^ k * 2 ^ e := by gcongr
    _ = 2 ^ (k + e) := (zpow_add₀ two_ne_zero k e).symm
    _ ≤ 2 ^ j := zpow_le_zpow_right₀ one_le_two hj

/-- **Such a number is finite**, and the quotient that its bits say keeps the bound. -/
theorem AtMost.decode (h : x.AtMost i) (hi : i ≤ 1000) :
    ∃ (m : Nat) (e : Int), x.decode = .finite x.negative m e ∧ -1074 ≤ e ∧
      (m : ℚ) * 2 ^ e ≤ 2 ^ (i : Int) ∧ (x.magnitude = 0 → m = 0) := by
  unfold AtMost at h
  have hmod := Nat.div_add_mod x.magnitude (2 ^ 52)
  have hlt := Nat.mod_lt x.magnitude (y := 2 ^ 52) (by decide)
  rw [decode_eq, if_neg (by omega)]
  by_cases hzero : x.magnitude / 2 ^ 52 = 0
  · rw [if_pos hzero]
    refine ⟨_, _, rfl, le_rfl, mul_zpow_le (k := 52) ?_ (by omega), fun hm => ?_⟩
    · exact_mod_cast hlt.le
    · rw [hm, Nat.zero_mod]
  · rw [if_neg hzero]
    refine ⟨_, _, rfl, by omega, ?_, fun hm => absurd (by rw [hm]; rfl) hzero⟩
    by_cases htop : x.magnitude / 2 ^ 52 = 1023 + i
    · -- the power of two itself
      have hfraction : x.magnitude % 2 ^ 52 = 0 := by omega
      rw [hfraction, htop]
      refine mul_zpow_le (k := 52) (by norm_num) ?_
      push_cast
      omega
    · refine mul_zpow_le (k := 53) ?_ (by omega)
      have hsum : 2 ^ 52 + x.magnitude % 2 ^ 52 ≤ 2 ^ 53 := by omega
      exact_mod_cast hsum

/-! ## Rounding up to a power of two -/

/-- Rounding goes no further than a bound that needs no rounding. -/
theorem evenQuotient_le {k : Nat} (hden : 0 < den) (h : num ≤ den * k) :
    evenQuotient num den ≤ k := by
  have hdiv := Nat.div_add_mod num den
  have hle : num / den ≤ k := Nat.div_le_of_le_mul h
  unfold evenQuotient
  dsimp only
  rcases Nat.lt_or_ge (num / den) k with hlt | hge
  · split_ifs <;> omega
  · -- at the bound itself nothing is left over
    have heq : num / den = k := by omega
    rw [heq] at hdiv ⊢
    have hrest : num % den = 0 := by omega
    rw [if_pos (by omega)]

/-- **A fraction that is scaled down is the fraction over a power of two**, of whichever sign the
exponent is. -/
theorem scaledDown_eq (num : Nat) (hden : 0 < den) (e : Int) :
    0 < (scaledDown num den e).2 ∧
      ((scaledDown num den e).1 : ℚ) / (scaledDown num den e).2 = num / den / 2 ^ e := by
  unfold scaledDown
  split
  · rename_i he
    obtain ⟨k, rfl⟩ := Int.eq_ofNat_of_zero_le he
    refine ⟨?_, ?_⟩
    · rw [Nat.shiftLeft_eq]
      positivity
    · simp only [Int.toNat_natCast, Nat.shiftLeft_eq]
      push_cast
      rw [zpow_natCast, div_div]
  · rename_i he
    obtain ⟨k, hk⟩ := Int.eq_ofNat_of_zero_le (a := -e) (by omega)
    have he' : e = -(k : Int) := by omega
    subst he'
    refine ⟨hden, ?_⟩
    simp only [neg_neg, Int.toNat_natCast, Nat.shiftLeft_eq]
    push_cast
    rw [zpow_neg, zpow_natCast, div_inv_eq_mul, div_mul_eq_mul_div]

/-- A power of two is compared with a quotient after both are scaled down. -/
theorem shiftLeft_le_scaledDown_iff (hden : 0 < den) (e : Int) (k : Nat) :
    (scaledDown num den e).2 <<< k ≤ (scaledDown num den e).1 ↔
      (2 : ℚ) ^ (e + k) ≤ num / den := by
  obtain ⟨hpos, hscaled⟩ := scaledDown_eq num hden e
  have hposq : (0 : ℚ) < (scaledDown num den e).2 := by exact_mod_cast hpos
  rw [zpow_add₀ two_ne_zero, ← le_div_iff₀' (by positivity), ← hscaled, le_div_iff₀' hposq,
    Nat.shiftLeft_eq, ← Nat.cast_le (α := ℚ)]
  push_cast
  rfl

/-- A number lies between two powers of two next to each other. -/
theorem log2_bounds {n : Nat} (hn : 0 < n) :
    (2 : ℚ) ^ (n.log2 : Int) ≤ n ∧ (n : ℚ) < 2 ^ ((n.log2 : Int) + 1) := by
  have hle := Nat.log2_self_le (Nat.pos_iff_ne_zero.1 hn)
  have hlt := @Nat.lt_log2_self n
  exact ⟨by exact_mod_cast hle, by exact_mod_cast hlt⟩

/-- The quotient of the two powers is off by less than a factor of two. -/
theorem div_bounds (hnum : 0 < num) (hden : 0 < den) :
    (2 : ℚ) ^ ((num.log2 : Int) - den.log2 - 1) ≤ num / den ∧
      (num : ℚ) / den < 2 ^ ((num.log2 : Int) - den.log2 + 1) := by
  obtain ⟨hnum_le, hnum_lt⟩ := log2_bounds hnum
  obtain ⟨hden_le, hden_lt⟩ := log2_bounds hden
  have hdenq : (0 : ℚ) < den := by exact_mod_cast hden
  constructor
  · rw [le_div_iff₀ hdenq]
    calc (2 : ℚ) ^ ((num.log2 : Int) - den.log2 - 1) * den
        ≤ 2 ^ ((num.log2 : Int) - den.log2 - 1) * 2 ^ ((den.log2 : Int) + 1) := by gcongr
      _ = 2 ^ (num.log2 : Int) := by
        rw [← zpow_add₀ two_ne_zero]
        congr 1
        omega
      _ ≤ num := hnum_le
  · rw [div_lt_iff₀ hdenq]
    calc (num : ℚ) < 2 ^ ((num.log2 : Int) + 1) := hnum_lt
      _ = 2 ^ ((num.log2 : Int) - den.log2 + 1) * 2 ^ (den.log2 : Int) := by
        rw [← zpow_add₀ two_ne_zero]
        congr 1
        omega
      _ ≤ 2 ^ ((num.log2 : Int) - den.log2 + 1) * den := by gcongr

/-- **Where the last place is put**: 53 places are enough for the quotient, and unless the exponent
is the least one they are needed. -/
theorem lastPlace_spec (hnum : 0 < num) (hden : 0 < den) :
    -1074 ≤ lastPlace num den ∧ (num : ℚ) / den < 2 ^ (lastPlace num den + 53) ∧
      (lastPlace num den = -1074 ∨ (2 : ℚ) ^ (lastPlace num den + 52) ≤ num / den) := by
  obtain ⟨e, he⟩ : ∃ e : Int, e = num.log2 - den.log2 - 53 := ⟨_, rfl⟩
  have hlower : (2 : ℚ) ^ (e + 52) ≤ num / den := by
    have hexp : e + 52 = (num.log2 : Int) - den.log2 - 1 := by omega
    rw [hexp]
    exact (div_bounds hnum hden).1
  have hupper : (num : ℚ) / den < 2 ^ (e + 54) := by
    have hexp : e + 54 = (num.log2 : Int) - den.log2 + 1 := by omega
    rw [hexp]
    exact (div_bounds hnum hden).2
  have hplace : lastPlace num den =
      max (if (2 : ℚ) ^ (e + 53) ≤ num / den then e + 1 else e) (-1074) := by
    unfold lastPlace
    dsimp only
    rw [← he]
    simp only [shiftLeft_le_scaledDown_iff hden e 53]
    rfl
  rw [hplace]
  refine ⟨le_max_right _ _, ?_, ?_⟩
  · refine lt_of_lt_of_le (b := 2 ^ ((if (2 : ℚ) ^ (e + 53) ≤ num / den then e + 1 else e) + 53))
      ?_ (zpow_le_zpow_right₀ one_le_two (by omega))
    split_ifs with hreach
    · rw [add_assoc]
      exact hupper
    · exact not_le.1 hreach
  · rcases max_choice (if (2 : ℚ) ^ (e + 53) ≤ num / den then e + 1 else e) (-1074) with h | h
    · refine Or.inr ?_
      rw [h]
      split_ifs with hreach
      · rw [add_assoc]
        exact hreach
      · exact hlower
    · exact Or.inl h

theorem scaledDown_le (hden : 0 < den) {k : Nat} (h : (num : ℚ) / den ≤ 2 ^ (e + k)) :
    (scaledDown num den e).1 ≤ (scaledDown num den e).2 * 2 ^ k := by
  obtain ⟨hpos, hscaled⟩ := scaledDown_eq num hden e
  have hposq : (0 : ℚ) < (scaledDown num den e).2 := by exact_mod_cast hpos
  rw [zpow_add₀ two_ne_zero, ← div_le_iff₀' (by positivity), ← hscaled, div_le_iff₀' hposq] at h
  exact_mod_cast h

/-- **Rounding never goes beyond a power of two** that the quotient does not pass. -/
theorem nearestMagnitude_le (hden : 0 < den) (h : (num : ℚ) / den ≤ 2 ^ (i : Int)) :
    nearestMagnitude num den ≤ (1023 + i) * 2 ^ 52 := by
  unfold nearestMagnitude
  split
  · exact Nat.zero_le _
  · rename_i hnum
    obtain ⟨hleast, hlt, hneeded⟩ := lastPlace_spec (Nat.pos_of_ne_zero hnum) hden
    obtain ⟨hpos, -⟩ := scaledDown_eq num hden (lastPlace num den)
    have hplace : lastPlace num den + 52 ≤ i := by
      rcases hneeded with heq | hle
      · omega
      · exact (zpow_le_zpow_iff_right₀ one_lt_two).1 (hle.trans h)
    dsimp only
    refine Nat.le_trans (Nat.min_le_right _ _) ?_
    rw [Nat.shiftLeft_eq]
    rcases Int.lt_or_eq_of_le hplace with hbelow | htop
    · have := evenQuotient_le hpos (scaledDown_le hden (k := 53) hlt.le)
      omega
    · have := evenQuotient_le hpos (scaledDown_le hden (k := 52) (h.trans_eq (by rw [← htop]; rfl)))
      omega

theorem nearestMagnitude_lt (num den : Nat) : nearestMagnitude num den < 2 ^ 63 := by
  unfold nearestMagnitude
  split
  · decide
  · dsimp only
    exact Nat.lt_of_le_of_lt (Nat.min_le_left _ _) (by decide)

theorem nearest_eq (s : Bool) (num den : Nat) (e : Int) :
    nearest s num den e = ofMagnitude s
      (nearestMagnitude (scaledDown num den (-e)).1 (scaledDown num den (-e)).2) := rfl

theorem negative_nearest (s : Bool) (num den : Nat) (e : Int) :
    (nearest s num den e).negative = s := by
  have hlt := nearestMagnitude_lt (scaledDown num den (-e)).1 (scaledDown num den (-e)).2
  rw [nearest_eq, negative_ofMagnitude s hlt]

/-- **The bound on a result is the bound on the exact result.** -/
theorem atMost_nearest (s : Bool) (hden : 0 < den) (h : (num : ℚ) / den * 2 ^ e ≤ 2 ^ (i : Int)) :
    (nearest s num den e).AtMost i := by
  obtain ⟨hpos, hscaled⟩ := scaledDown_eq num hden (-e)
  have hlt := nearestMagnitude_lt (scaledDown num den (-e)).1 (scaledDown num den (-e)).2
  rw [AtMost, nearest_eq, magnitude_ofMagnitude s hlt]
  refine nearestMagnitude_le hpos ?_
  rw [hscaled, zpow_neg, div_inv_eq_mul]
  exact h

/-- Nothing is rounded to nothing. -/
theorem nearest_zero (s : Bool) (den : Nat) (e : Int) : nearest s 0 den e = ofMagnitude s 0 := by
  have hzero : (scaledDown 0 den (-e)).1 = 0 := by
    unfold scaledDown
    split
    · rfl
    · exact Nat.zero_shiftLeft _
  rw [nearest_eq, hzero]
  rfl

/-! ## Equal numbers -/

theorem decode_neg (hfinite : x.decode = .finite s m e) : x.neg.decode = .finite (!s) m e := by
  have hmagnitude : x.neg.magnitude = x.magnitude := magnitude_ofMagnitude _ (magnitude_lt x)
  have hnegative : x.neg.negative = !x.negative := negative_ofMagnitude _ (magnitude_lt x)
  rw [decode_eq] at hfinite ⊢
  rw [hmagnitude, hnegative]
  split_ifs at hfinite ⊢ <;> cases hfinite <;> rfl

/-- A difference of finite numbers is a sum. -/
theorem sub_eq_sum {y : Binary64} {t : Bool} {n : Nat} {f : Int} (hx : x.decode = .finite s m e)
    (hy : y.neg.decode = .finite t n f) : x - y = sum s t m n e f := by
  change x.add y.neg = _
  rw [add, hx, hy]

/-- **The difference of equal numbers is zero**, and positive. -/
theorem sub_self_of_atMost (h : x.AtMost i) (hi : i ≤ 1000) : x - x = zero := by
  obtain ⟨m, e, hdecode, -⟩ := h.decode hi
  rw [sub_eq_sum hdecode (decode_neg hdecode)]
  have htotal : ∀ k, signed x.negative k + signed (!x.negative) k = 0 := by
    intro k
    cases x.negative <;> simp [signed]
  simp only [sum, htotal, if_true, Bool.and_not_self]
  rfl

/-- A natural number is not rounded beyond a power of two. -/
theorem atMost_ofNat (h : n ≤ 2 ^ i) : (ofNat n).AtMost i := by
  refine atMost_nearest false Nat.one_pos ?_
  simp only [Nat.cast_one, div_one, zpow_zero, mul_one, zpow_natCast]
  exact_mod_cast h

/-! ## From zero up -/

/-- The number lies between zero, of either sign, and `2 ^ i`. -/
structure UpTo (x : Binary64) (i : Nat) : Prop where
  atMost : x.AtMost i
  negative : x.negative = true → x.magnitude = 0

theorem upTo_nearest (s : Bool) (hden : 0 < den) (h : (num : ℚ) / den * 2 ^ e ≤ 2 ^ (i : Int))
    (hs : s = true → num = 0) : (nearest s num den e).UpTo i where
  atMost := atMost_nearest s hden h
  negative hneg := by
    rw [negative_nearest] at hneg
    rw [hs hneg, nearest_zero]
    exact magnitude_ofMagnitude s (by decide)

theorem natAbs_signed (s : Bool) (n : Nat) : (signed s n).natAbs = n := by
  cases s <;> simp [signed]

theorem negative_of_signed_neg (h : signed s n < 0) : s = true := by
  cases s with
  | true => rfl
  | false =>
    have hsigned : signed false n = n := rfl
    omega

theorem UpTo.sub_zero (h : x.UpTo i) (hi : i ≤ 1000) : (x - zero).UpTo i := by
  obtain ⟨m, e, hdecode, hleast, hbound, hzero⟩ := h.atMost.decode hi
  have hnone : zero.neg.decode = .finite true 0 (-1074) := by decide
  obtain ⟨k, rfl⟩ : ∃ k : Nat, e = k + (-1074) := ⟨(e + 1074).toNat, by omega⟩
  have hlow : min ((k : Int) + (-1074)) (-1074) = -1074 := by omega
  have hsum : x - zero =
      if signed x.negative (m <<< k) = 0 then ofMagnitude (x.negative && true) 0
      else nearest (signed x.negative (m <<< k) < 0) (m <<< k) 1 (-1074) := by
    rw [sub_eq_sum hdecode hnone]
    simp only [sum, hlow, add_sub_cancel_right, sub_self, Int.toNat_natCast, Int.toNat_zero,
      Nat.shiftLeft_zero]
    have hnothing : signed true 0 = 0 := rfl
    rw [hnothing, add_zero, natAbs_signed]
  rw [hsum]
  split
  · refine ⟨?_, fun _ => magnitude_ofMagnitude _ (by decide)⟩
    rw [AtMost, magnitude_ofMagnitude _ (by decide)]
    exact Nat.zero_le _
  · refine upTo_nearest _ Nat.one_pos ?_ fun hsign => ?_
    · rw [Nat.shiftLeft_eq, Nat.cast_mul, Nat.cast_pow, Nat.cast_one, Nat.cast_ofNat, div_one,
        mul_assoc, ← zpow_natCast (2 : ℚ) k, ← zpow_add₀ two_ne_zero]
      exact hbound
    · -- only zero is negative here
      have hneg := negative_of_signed_neg (of_decide_eq_true hsign)
      rw [hzero (h.negative hneg), Nat.zero_shiftLeft]

theorem UpTo.div_one (h : x.UpTo i) (hi : i ≤ 1000) : (x / one).UpTo i := by
  obtain ⟨m, e, hdecode, -, hbound, hzero⟩ := h.atMost.decode hi
  have hone : one.decode = .finite false 4503599627370496 (-52) := by decide
  have hquotient : x / one = nearest (x.negative != false) m 4503599627370496 (e - -52) := by
    change x.div one = _
    rw [div, hdecode, hone]
    rfl
  rw [hquotient]
  refine upTo_nearest _ (by decide) ?_ fun hsign => hzero (h.negative (by simpa using hsign))
  calc (m : ℚ) / (4503599627370496 : Nat) * 2 ^ (e - -52)
      = m * 2 ^ e := by
        rw [sub_neg_eq_add, zpow_add₀ two_ne_zero]
        norm_num
        ring
    _ ≤ 2 ^ (i : Int) := hbound

/-- **The bound of a product is the product of the bounds.** -/
theorem UpTo.mul {y : Binary64} {j : Nat} (hx : x.UpTo i) (hy : y.UpTo j) (hi : i ≤ 1000)
    (hj : j ≤ 1000) : (x * y).UpTo (i + j) := by
  obtain ⟨m, e, hdx, -, hbx, hzx⟩ := hx.atMost.decode hi
  obtain ⟨n, f, hdy, -, hby, hzy⟩ := hy.atMost.decode hj
  have hproduct : x * y = nearest (x.negative != y.negative) (m * n) 1 (e + f) := by
    change x.mul y = _
    rw [Binary64.mul, hdx, hdy]
  rw [hproduct]
  refine upTo_nearest _ Nat.one_pos ?_ fun hsign => ?_
  · calc ((m * n : Nat) : ℚ) / (1 : Nat) * 2 ^ (e + f)
        = (m * 2 ^ e) * (n * 2 ^ f) := by
          rw [zpow_add₀ two_ne_zero]
          push_cast
          ring
      _ ≤ 2 ^ (i : Int) * 2 ^ (j : Int) := by gcongr
      _ = 2 ^ ((i + j : Nat) : Int) := by
        rw [← zpow_add₀ two_ne_zero]
        push_cast
        rfl
  · cases hneg : x.negative with
    | true => rw [hzx (hx.negative hneg), Nat.zero_mul]
    | false =>
      rw [hneg] at hsign
      rw [hzy (hy.negative (by simpa using hsign)), Nat.mul_zero]

theorem upTo_ofNat (h : n ≤ 2 ^ i) : (ofNat n).UpTo i where
  atMost := atMost_ofNat h
  negative hneg := by
    rw [ofNat, negative_nearest] at hneg
    cases hneg

theorem roundedQuotient_le {k : Nat} (hden : 0 < den) (h : num ≤ den * k) :
    roundedQuotient num den ≤ k := by
  have hlt : (2 * num + den) / (2 * den) < k + 1 := by
    refine Nat.div_lt_of_lt_mul ?_
    calc 2 * num + den ≤ 2 * (den * k) + den := by omega
      _ < 2 * (den * k) + 2 * den := by omega
      _ = 2 * den * (k + 1) := by ring
  exact Nat.le_of_lt_succ hlt

/-- The part of the number before the point, rounded. -/
def wholePart (m : Nat) (e : Int) : Nat :=
  if 0 ≤ e then m <<< e.toNat else roundedQuotient m (1 <<< (-e).toNat)

theorem wholePart_le (h : (m : ℚ) * 2 ^ e ≤ 2 ^ (i : Int)) : wholePart m e ≤ 2 ^ i := by
  unfold wholePart
  split
  · rename_i he
    obtain ⟨k, rfl⟩ := Int.eq_ofNat_of_zero_le he
    rw [Int.toNat_natCast, Nat.shiftLeft_eq]
    simp only [zpow_natCast] at h
    exact_mod_cast h
  · rename_i he
    obtain ⟨k, hk⟩ := Int.eq_ofNat_of_zero_le (a := -e) (by omega)
    have he' : e = -(k : Int) := by omega
    subst he'
    have hpos : (0 : ℚ) < 2 ^ k := by positivity
    rw [neg_neg, Int.toNat_natCast, Nat.one_shiftLeft]
    refine roundedQuotient_le (by positivity) ?_
    rw [zpow_neg, ← div_eq_mul_inv, zpow_natCast, zpow_natCast, div_le_iff₀' hpos] at h
    exact_mod_cast h

/-- **Its nearest integer keeps the bound.** -/
theorem UpTo.nearestInt64 (h : x.UpTo i) (hi : i ≤ 62) :
    0 ≤ x.nearestInt64 ∧ x.nearestInt64 ≤ 2 ^ i := by
  obtain ⟨m, e, hdecode, -, hbound, hzero⟩ := h.atMost.decode (by omega)
  have hle : (wholePart m e : Int) ≤ 2 ^ i := by exact_mod_cast wholePart_le hbound
  have hlarge : (2 : Int) ^ i ≤ 2 ^ 62 := by gcongr; decide
  have hint : x.nearestInt? = some (signed x.negative (wholePart m e)) := by
    rw [nearestInt?, hdecode]
    rfl
  have hsigned : signed x.negative (wholePart m e) = wholePart m e := by
    cases hneg : x.negative with
    | false => rfl
    | true =>
      have hnone : m = 0 := hzero (h.negative hneg)
      have hzero : wholePart m e ≤ 0 := by
        subst hnone
        unfold wholePart
        split
        · simp
        · exact roundedQuotient_le (by rw [Nat.one_shiftLeft]; positivity) (Nat.le_refl _)
      rw [Nat.le_zero.1 hzero]
      rfl
  have hfits : leastInt64 ≤ (wholePart m e : Int) ∧ (wholePart m e : Int) < -leastInt64 := by
    have hleast : leastInt64 = -2 ^ 63 := by decide
    omega
  rw [Binary64.nearestInt64, hint, hsigned]
  dsimp only
  rw [if_pos hfits]
  exact ⟨by omega, hle⟩

end Binary64

end Haptics
