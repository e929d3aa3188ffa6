import KernelLearning.I2cBus.Clock

/-!
# Rates of the i2c clock

What the clock operations make of a rate, in terms of the least even divider
that reaches it.
-/

namespace KernelLearning.I2cBus

open CSemantics

/-! ## When a rate is accepted -/

/-- `i2c_demo_calc_divider` finds a divider. -/
def Accepts (rate parentRate : UInt64) : Prop := i2cDemoCalcDivider rate parentRate ≠ negEINVAL

instance (rate parentRate : UInt64) : Decidable (Accepts rate parentRate) :=
  inferInstanceAs (Decidable (_ ≠ _))

section

variable {rate parentRate : UInt64}

/-- The quotient as the source computes it, when it is not cut down to 32 bits. -/
theorem toNat_quotient (rate_pos : 0 < rate.toNat) (fits : parentRate.toNat + rate.toNat - 1 < 2 ^ 64)
    (short : parentRate.toNat ⌈/⌉ rate.toNat < 2 ^ 32) :
    (divRoundUp parentRate rate).toUInt32.toNat = parentRate.toNat ⌈/⌉ rate.toNat := by
  rw [UInt64.toNat_toUInt32, toNat_divRoundUp rate_pos fits, Nat.mod_eq_of_lt short]

theorem calcDivider_of_le (parent_pos : 0 < parentRate.toNat) (rate_pos : 0 < rate.toNat)
    (fits : parentRate.toNat + rate.toNat - 1 < 2 ^ 64)
    (inRange : evenDivider parentRate.toNat rate.toNat ≤ 0xFFFE) :
    (i2cDemoCalcDivider rate parentRate).toUInt32.toNat = evenDivider parentRate.toNat rate.toNat := by
  have atLeast := two_le_evenDivider parent_pos rate_pos
  have bump := evenDivider_eq parentRate.toNat rate_pos
  have quotient := toNat_quotient rate_pos fits (by omega)
  have bumped := toNat_bumped (divRoundUp parentRate rate).toUInt32
  rw [quotient, ← bump, Nat.mod_eq_of_lt (by omega)] at bumped
  simp only [i2cDemoCalcDivider]
  rw [if_neg, UInt32.toUInt32_toInt32, bumped]
  simp only [Bool.or_eq_true, decide_eq_true_eq, not_or, UInt32.lt_iff_toNat_lt, gt_iff_lt, bumped]
  exact ⟨Nat.not_lt.2 atLeast, Nat.not_lt.2 inRange⟩

theorem calcDivider_of_gt (rate_pos : 0 < rate.toNat)
    (fits : parentRate.toNat + rate.toNat - 1 < 2 ^ 64)
    (short : parentRate.toNat ⌈/⌉ rate.toNat < 2 ^ 32)
    (beyond : 0xFFFE < evenDivider parentRate.toNat rate.toNat) :
    i2cDemoCalcDivider rate parentRate = negEINVAL := by
  have bumped := toNat_bumped (divRoundUp parentRate rate).toUInt32
  rw [toNat_quotient rate_pos fits short, ← evenDivider_eq _ rate_pos] at bumped
  have even := evenDivider_eq parentRate.toNat rate_pos
  simp only [i2cDemoCalcDivider]
  rw [if_pos]
  simp only [Bool.or_eq_true, decide_eq_true_eq, UInt32.lt_iff_toNat_lt, gt_iff_lt, bumped]
  -- The quotient next to the last word is bumped to 0, which lies below the least divider.
  rcases Nat.lt_or_ge (evenDivider parentRate.toNat rate.toNat) (2 ^ 32) with word | past
  · right
    rw [Nat.mod_eq_of_lt word]
    exact beyond
  · left
    have : evenDivider parentRate.toNat rate.toNat = 2 ^ 32 := by omega
    rw [this]
    decide

/-- What is accepted is never read as the error. -/
theorem toUInt32_of_accepts (accepted : Accepts rate parentRate) :
    (i2cDemoCalcDivider rate parentRate).toUInt32 ≠ negEINVAL.toUInt32 :=
  fun same => accepted (by simpa using congrArg UInt32.toInt32 same)

theorem accepts_iff (parent_pos : 0 < parentRate.toNat) (rate_pos : 0 < rate.toNat)
    (fits : parentRate.toNat + rate.toNat - 1 < 2 ^ 64)
    (short : parentRate.toNat ⌈/⌉ rate.toNat < 2 ^ 32) :
    Accepts rate parentRate ↔ evenDivider parentRate.toNat rate.toNat ≤ 0xFFFE := by
  constructor
  · intro accepted
    rcases Nat.lt_or_ge 0xFFFE (evenDivider parentRate.toNat rate.toNat) with beyond | inRange
    · exact absurd (calcDivider_of_gt rate_pos fits short beyond) accepted
    · exact inRange
  · intro inRange refused
    have divider := calcDivider_of_le parent_pos rate_pos fits inRange
    rw [← divider, refused] at inRange
    exact absurd inRange (by decide)

/-- No divider is below 2, be it the error read as a divider. -/
theorem two_le_divider (rate parentRate : UInt64) : 2 ≤ (i2cDemoCalcDivider rate parentRate).toUInt32.toNat := by
  simp only [i2cDemoCalcDivider]
  generalize (if (divRoundUp parentRate rate).toUInt32 &&& 1 != 0 then
    (divRoundUp parentRate rate).toUInt32 + 1 else (divRoundUp parentRate rate).toUInt32) = divider
  by_cases outside : (divider < cdivMIN || divider > cdivMAX) = true
  · rw [if_pos outside]
    decide
  · rw [if_neg outside, UInt32.toUInt32_toInt32]
    simp only [Bool.or_eq_true, decide_eq_true_eq, not_or, UInt32.lt_iff_toNat_lt] at outside
    exact Nat.not_lt.1 outside.1

/-! ## The rounded rate -/

/-- The least rate that the least even divider reaches. -/
def roundedRate (parentRate rate : Nat) : Nat := parentRate ⌈/⌉ evenDivider parentRate rate

/-- The half of the divider is the least factor next to 2 and the rate, and the rounded rate the
least one next to 2 and that half. -/
theorem roundedRate_eq (parent rate : ℕ+) :
    roundedRate parent rate = cofactor parent 2 (cofactor parent 2 rate) := rfl

theorem evenDivider_eq_cofactor (parent rate : ℕ+) :
    evenDivider parent rate = 2 * (cofactor parent 2 rate : Nat) := rfl

theorem roundedRate_pos {parent rate : Nat} (parent_pos : 0 < parent) (rate_pos : 0 < rate) :
    0 < roundedRate parent rate := by
  lift parent to ℕ+ using parent_pos
  lift rate to ℕ+ using rate_pos
  rw [roundedRate_eq]
  exact PNat.pos _

theorem roundedRate_le {parent rate : Nat} (parent_pos : 0 < parent) (rate_pos : 0 < rate) :
    roundedRate parent rate ≤ rate := by
  lift parent to ℕ+ using parent_pos
  lift rate to ℕ+ using rate_pos
  rw [roundedRate_eq, PNat.coe_le_coe]
  exact cofactor_cofactor_le parent 2 rate

/-- The rounded rate has the divider of the rate itself. -/
theorem evenDivider_roundedRate {parent rate : Nat} (parent_pos : 0 < parent) (rate_pos : 0 < rate) :
    evenDivider parent (roundedRate parent rate) = evenDivider parent rate := by
  lift parent to ℕ+ using parent_pos
  lift rate to ℕ+ using rate_pos
  rw [roundedRate_eq, evenDivider_eq_cofactor, evenDivider_eq_cofactor, cofactor_cofactor_cofactor]

theorem roundedRate_mono {parent rate higher : Nat} (parent_pos : 0 < parent) (rate_pos : 0 < rate)
    (higher_pos : 0 < higher) (le : rate ≤ higher) :
    roundedRate parent rate ≤ roundedRate parent higher := by
  lift parent to ℕ+ using parent_pos
  lift rate to ℕ+ using rate_pos
  lift higher to ℕ+ using higher_pos
  rw [PNat.coe_le_coe] at le
  rw [roundedRate_eq, roundedRate_eq, PNat.coe_le_coe]
  -- a higher rate has a smaller divider, and a smaller divider a higher rate
  exact cofactor_antitone parent 2 (cofactor_antitone parent 2 le)

/-! ## What the operations make of an accepted rate -/

theorem toUInt64_roundRate (rate parentRate : UInt64) :
    (i2cDemoRoundRate rate parentRate).toUInt64 =
      divRoundUp parentRate (i2cDemoCalcDivider rate parentRate).toUInt32.toUInt64 := by
  simp [i2cDemoRoundRate]

/-- `long` holds whatever a divider of at least 2 leaves. -/
theorem toInt_roundRate (rate parentRate : UInt64) :
    (i2cDemoRoundRate rate parentRate).toInt = (i2cDemoRoundRate rate parentRate).toUInt64.toNat := by
  rw [toUInt64_roundRate, i2cDemoRoundRate]
  have divider := two_le_divider rate parentRate
  have half : (divRoundUp parentRate (i2cDemoCalcDivider rate parentRate).toUInt32.toUInt64).toNat < 2 ^ 63 := by
    rw [divRoundUp, UInt64.toNat_div, UInt32.toNat_toUInt64]
    have numerator := (parentRate + (i2cDemoCalcDivider rate parentRate).toUInt32.toUInt64 - 1).toNat_lt
    exact Nat.div_lt_of_lt_mul (by omega)
  exact toInt_toInt64 half

theorem setRate_of_accepts (registers : Registers) (accepted : Accepts rate parentRate) :
    ∃ written, i2cDemoSetRate registers rate parentRate = .ok written ∧
      written regDIV = (i2cDemoCalcDivider rate parentRate).toUInt32 := by
  simp only [i2cDemoSetRate]
  rw [if_neg (toUInt32_of_accepts accepted)]
  refine ⟨_, rfl, ?_⟩
  rw [Registers.writel_other _ _ (by decide), Registers.writel_self]

end

/-! ## Rates and parent rates below 2^32 -/

/-- A rate and its parent's, both positive and below 2^32. -/
structure WordRates (rate parentRate : UInt64) : Prop where
  parent_pos : 0 < parentRate.toNat
  parent_lt : parentRate.toNat < 2 ^ 32
  rate_pos : 0 < rate.toNat
  rate_lt : rate.toNat < 2 ^ 32

namespace WordRates

variable {rate parentRate : UInt64}

theorem fits (words : WordRates rate parentRate) : parentRate.toNat + rate.toNat - 1 < 2 ^ 64 := by
  have := words.parent_lt
  have := words.rate_lt
  omega

theorem short (words : WordRates rate parentRate) : parentRate.toNat ⌈/⌉ rate.toNat < 2 ^ 32 := by
  have atMost : parentRate.toNat ⌈/⌉ rate.toNat ≤ parentRate.toNat :=
    (ceilDiv_le_iff_le_mul words.rate_pos).2 (Nat.le_mul_of_pos_left _ words.rate_pos)
  have := words.parent_lt
  omega

theorem accepts_iff (words : WordRates rate parentRate) :
    Accepts rate parentRate ↔ evenDivider parentRate.toNat rate.toNat ≤ 0xFFFE :=
  I2cBus.accepts_iff words.parent_pos words.rate_pos words.fits words.short

theorem toNat_roundRate (words : WordRates rate parentRate) (accepted : Accepts rate parentRate) :
    (i2cDemoRoundRate rate parentRate).toUInt64.toNat = roundedRate parentRate.toNat rate.toNat := by
  have inRange := words.accepts_iff.1 accepted
  have divider := calcDivider_of_le words.parent_pos words.rate_pos words.fits inRange
  have atLeast := two_le_evenDivider words.parent_pos words.rate_pos
  have := words.parent_lt
  rw [toUInt64_roundRate, toNat_divRoundUp, UInt32.toNat_toUInt64, divider, roundedRate]
  · rw [UInt32.toNat_toUInt64, divider]
    omega
  · rw [UInt32.toNat_toUInt64, divider]
    omega

/-- The rounded rate is one that the operations take. -/
theorem rounded (words : WordRates rate parentRate) (accepted : Accepts rate parentRate) :
    WordRates (i2cDemoRoundRate rate parentRate).toUInt64 parentRate where
  parent_pos := words.parent_pos
  parent_lt := words.parent_lt
  rate_pos := by
    rw [words.toNat_roundRate accepted]
    exact roundedRate_pos words.parent_pos words.rate_pos
  rate_lt := by
    rw [words.toNat_roundRate accepted]
    exact Nat.lt_of_le_of_lt (roundedRate_le words.parent_pos words.rate_pos) words.rate_lt

theorem rounded_accepts (words : WordRates rate parentRate) (accepted : Accepts rate parentRate) :
    Accepts (i2cDemoRoundRate rate parentRate).toUInt64 parentRate := by
  rw [(words.rounded accepted).accepts_iff, words.toNat_roundRate accepted,
    evenDivider_roundedRate words.parent_pos words.rate_pos]
  exact words.accepts_iff.1 accepted

theorem roundRate_roundRate (words : WordRates rate parentRate) (accepted : Accepts rate parentRate) :
    i2cDemoRoundRate (i2cDemoRoundRate rate parentRate).toUInt64 parentRate = i2cDemoRoundRate rate parentRate := by
  have same : (i2cDemoRoundRate (i2cDemoRoundRate rate parentRate).toUInt64 parentRate).toUInt64.toNat =
      (i2cDemoRoundRate rate parentRate).toUInt64.toNat := by
    rw [(words.rounded accepted).toNat_roundRate (words.rounded_accepts accepted),
      words.toNat_roundRate accepted, roundedRate,
      evenDivider_roundedRate words.parent_pos words.rate_pos, roundedRate]
  simpa using congrArg UInt64.toInt64 (UInt64.toNat.inj same)

end WordRates

/-- How the clock operations agree on a rate: with the register that was written, with the rate
itself, with a second rounding, and with the higher rates that are accepted. -/
structure RatesAgree (registers : Registers) (rate parentRate : UInt64) : Prop where
  recalculated : ∃ written, i2cDemoSetRate registers rate parentRate = .ok written ∧
    (i2cDemoRoundRate rate parentRate).toInt = (i2cDemoRecalcRate written parentRate).toNat
  atLeastOne : 1 ≤ (i2cDemoRoundRate rate parentRate).toInt
  atMostRate : (i2cDemoRoundRate rate parentRate).toInt ≤ rate.toNat
  acceptedAgain : Accepts (i2cDemoRoundRate rate parentRate).toUInt64 parentRate
  idempotent : i2cDemoRoundRate (i2cDemoRoundRate rate parentRate).toUInt64 parentRate =
    i2cDemoRoundRate rate parentRate
  monotone : ∀ higher : UInt64, rate.toNat ≤ higher.toNat → higher.toNat < 2 ^ 32 →
    Accepts higher parentRate → (i2cDemoRoundRate rate parentRate).toInt ≤ (i2cDemoRoundRate higher parentRate).toInt

theorem clock_operations_agree (registers : Registers) (rate parentRate : UInt64)
    (words : WordRates rate parentRate) (accepted : Accepts rate parentRate) :
    RatesAgree registers rate parentRate := by
  have value : (i2cDemoRoundRate rate parentRate).toInt = roundedRate parentRate.toNat rate.toNat := by
    rw [toInt_roundRate, words.toNat_roundRate accepted]
  refine ⟨?recalculated, ?_, ?_, words.rounded_accepts accepted, words.roundRate_roundRate accepted, ?monotone⟩
  case recalculated =>
    obtain ⟨written, set, register⟩ := setRate_of_accepts registers accepted
    refine ⟨written, set, ?_⟩
    rw [toInt_roundRate, toUInt64_roundRate, i2cDemoRecalcRate, register]
  case monotone =>
    intro higher le lt higherAccepted
    -- a higher rate below 2^32 is rounded as a number too, where rounding is monotone
    have higherWords : WordRates higher parentRate :=
      ⟨words.parent_pos, words.parent_lt, Nat.lt_of_lt_of_le words.rate_pos le, lt⟩
    rw [value, toInt_roundRate, higherWords.toNat_roundRate higherAccepted, Int.ofNat_le]
    exact roundedRate_mono words.parent_pos words.rate_pos higherWords.rate_pos le
  · have := roundedRate_pos words.parent_pos words.rate_pos
    omega
  · have := roundedRate_le words.parent_pos words.rate_pos
    omega

/-- The clock of 250 MHz for 400 kHz. -/
theorem clock_operations_agree_fast : RatesAgree (fun _ => 0) 400000 250000000 :=
  clock_operations_agree _ _ _ ⟨by decide, by decide, by decide, by decide⟩ (by decide)

/-! ## Which rates exist -/

/-- An even divider in the range of the register that reaches the rate. -/
structure Reaches (rate parentRate : UInt64) (divider : Nat) : Prop where
  even : divider % 2 = 0
  atLeast : 2 ≤ divider
  atMost : divider ≤ 0xFFFE
  reaches : parentRate.toNat ≤ divider * rate.toNat

/-- `i2c_demo_set_rate` writes the divider, and `i2c_demo_round_rate` divides by it. -/
structure BothUse (registers : Registers) (rate parentRate : UInt64) (divider : UInt32) : Prop where
  set : ∃ written, i2cDemoSetRate registers rate parentRate = .ok written ∧ written regDIV = divider
  rounds : (i2cDemoCalcDivider rate parentRate).toUInt32 = divider ∧
    i2cDemoRoundRate rate parentRate = (divRoundUp parentRate divider.toUInt64).toInt64

/-- Both operations report that there is no divider. -/
structure BothRefuse (registers : Registers) (rate parentRate : UInt64) : Prop where
  set : i2cDemoSetRate registers rate parentRate = .error negEINVAL
  rounds : i2cDemoRoundRate rate parentRate = negEINVAL.toInt64

/-- Both operations report an error and no divider exists, or both use the smallest one. -/
def AgreeOnDividers (registers : Registers) (rate parentRate : UInt64) : Prop :=
  (BothRefuse registers rate parentRate ∧ ¬ ∃ divider, Reaches rate parentRate divider) ∨
    ∃ divider : UInt32, BothUse registers rate parentRate divider ∧
      IsLeast { other | Reaches rate parentRate other } divider.toNat

/-- What `i2c_demo_round_rate` returns is never negative. -/
theorem roundRate_ne_negEINVAL (rate parentRate : UInt64) :
    i2cDemoRoundRate rate parentRate ≠ negEINVAL.toInt64 := by
  intro same
  have nonneg := toInt_roundRate rate parentRate
  rw [same] at nonneg
  exact absurd nonneg (by decide)

theorem evenDivider_least {rate parentRate : UInt64} (rate_pos : 0 < rate.toNat) {divider : Nat}
    (reaches : Reaches rate parentRate divider) :
    evenDivider parentRate.toNat rate.toNat ≤ divider := by
  have double : divider = 2 * (divider / 2) := by
    have := reaches.even
    omega
  rw [double, evenDivider_le_iff rate_pos, ← double]
  exact reaches.reaches

theorem reaches_evenDivider {rate parentRate : UInt64} (parent_pos : 0 < parentRate.toNat)
    (rate_pos : 0 < rate.toNat) (inRange : evenDivider parentRate.toNat rate.toNat ≤ 0xFFFE) :
    Reaches rate parentRate (evenDivider parentRate.toNat rate.toNat) where
  even := Nat.mul_mod_right _ _
  atLeast := two_le_evenDivider parent_pos rate_pos
  atMost := inRange
  reaches := (evenDivider_le_iff rate_pos).1 (Nat.le_refl _)

theorem dividers_agree_iff (registers : Registers) (rate parentRate : UInt64)
    (parent_pos : 1 ≤ parentRate.toNat) (rate_pos : 1 ≤ rate.toNat)
    (fits : parentRate.toNat + rate.toNat - 1 < 2 ^ 64) :
    AgreeOnDividers registers rate parentRate ↔ ∃ divider, Reaches rate parentRate divider := by
  constructor
  · rintro (refused | ⟨divider, -, least⟩)
    · -- `i2c_demo_round_rate` has no branch for the error.
      exact absurd refused.1.rounds (roundRate_ne_negEINVAL rate parentRate)
    · exact ⟨_, least.1⟩
  · rintro ⟨divider, reaches⟩
    right
    have inRange := Nat.le_trans (evenDivider_least rate_pos reaches) reaches.atMost
    have value := calcDivider_of_le parent_pos rate_pos fits inRange
    have accepted : Accepts rate parentRate := by
      intro refused
      rw [← value, refused] at inRange
      exact absurd inRange (by decide)
    refine ⟨(i2cDemoCalcDivider rate parentRate).toUInt32, ⟨setRate_of_accepts registers accepted, rfl, rfl⟩, ?_⟩
    rw [value]
    exact ⟨reaches_evenDivider parent_pos rate_pos inRange,
      fun other least => evenDivider_least rate_pos least⟩

theorem dividers_agree_iff_fast :
    AgreeOnDividers (fun _ => 0) 400000 250000000 ↔ ∃ divider, Reaches 400000 250000000 divider :=
  dividers_agree_iff _ _ _ (by decide) (by decide) (by decide)

/-- 250 MHz go down to no less than 3815 Hz, but 1 Hz is rounded to a rate all the same. -/
theorem dividers_disagree : ¬ AgreeOnDividers (fun _ => 0) 1 250000000 := by
  rintro (refused | ⟨divider, -, least⟩)
  · exact absurd refused.1.rounds (by decide)
  · have atMost := least.1.atMost
    have reaches := least.1.reaches
    have parent : UInt64.toNat 250000000 = 250000000 := rfl
    have one : UInt64.toNat 1 = 1 := rfl
    rw [parent, one] at reaches
    omega

end KernelLearning.I2cBus
