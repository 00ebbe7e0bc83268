import DiceDuel.Proofs.Binary64.Representable
import DiceDuel.Spell.Scaling

/-!
# The values of bands

A band's value is computed in binary64, but no step of the computation rounds: every intermediate
result is a small integer over a small power of two. So the value of a band is that of the exact
formula, rounded to the nearest integer with halves upward, whatever the fields of the scaling are.
From the formula it can be read off when a value grows and when it stays within the bounds.
-/

namespace DiceDuel.Band

/-! ## The formula -/

/-- A scaling field as an integer; a missing one counts as one. -/
def fieldNumber (field : Option UInt8) : Int := (field.getD 1).toNat

/-- What the tier adds to the blend, in sixteenths. -/
def tierPart (s : Scaling) : Int := (7 - fieldNumber s.rate) * (fieldNumber s.tier - 1)

/-- What the level adds to the blend, in thirty-seconds. -/
def levelPart (s : Scaling) : Int := (fieldNumber s.rate + 1) * (fieldNumber s.level - 1)

/-- Where between the bounds a scaling lies, in thirty-seconds. -/
def blendPart (s : Scaling) : Int := 2 * tierPart s + levelPart s

/-- The distance between the bounds. -/
def width (band : Band) : Int := band.high.toInt - band.low.toInt

/-- The value of a band under a scaling by the exact formula, with halves upward. -/
def halfUp (band : Band) (s : Scaling) : Int :=
  band.low.toInt + (band.width * blendPart s + 16) / 32

/-- Bounds of at most 32 bits. -/
def IsNarrow (band : Band) : Prop :=
  band.low.toInt.natAbs ≤ 2 ^ 31 ∧ band.high.toInt.natAbs ≤ 2 ^ 31

/-- The bands that spells can name are narrow. -/
theorem isNarrow_of_mem_table : ∀ band ∈ table, band.IsNarrow := by
  unfold IsNarrow
  decide

/-! ## The size of the intermediate results -/

/-- A field is a byte. -/
theorem fieldNumber_bounds (field : Option UInt8) :
    0 ≤ fieldNumber field ∧ fieldNumber field ≤ 255 := by
  have hlt : (field.getD 1).toNat < 256 := (field.getD 1).toNat_lt
  unfold fieldNumber
  omega

/-- A product is not greater than the product of bounds. -/
theorem natAbs_mul_le {a b : Int} {m n : Nat} (ha : a.natAbs ≤ m) (hb : b.natAbs ≤ n) :
    (a * b).natAbs ≤ m * n := by
  rw [Int.natAbs_mul]
  exact Nat.mul_le_mul ha hb

/-- The part of the tier is small. -/
theorem natAbs_tierPart_le (s : Scaling) : (tierPart s).natAbs ≤ 2 ^ 16 := by
  have hrate := fieldNumber_bounds s.rate
  have htier := fieldNumber_bounds s.tier
  exact Nat.le_trans (natAbs_mul_le (m := 248) (n := 254) (by omega) (by omega)) (by decide)

/-- The part of the level is small. -/
theorem natAbs_levelPart_le (s : Scaling) : (levelPart s).natAbs ≤ 2 ^ 16 := by
  have hrate := fieldNumber_bounds s.rate
  have hlevel := fieldNumber_bounds s.level
  exact Nat.le_trans (natAbs_mul_le (m := 256) (n := 254) (by omega) (by omega)) (by decide)

/-- The part of both is small. -/
theorem natAbs_blendPart_le (s : Scaling) : (blendPart s).natAbs ≤ 2 ^ 18 := by
  have htier := natAbs_tierPart_le s
  have hlevel := natAbs_levelPart_le s
  unfold blendPart
  omega

/-- The bounds of a narrow band are not far from each other. -/
theorem IsNarrow.natAbs_width_le {band : Band} (hband : band.IsNarrow) :
    band.width.natAbs ≤ 2 ^ 32 := by
  obtain ⟨hlow, hhigh⟩ := hband
  unfold width
  omega

/-- What a narrow band's width contributes, in thirty-seconds. -/
theorem IsNarrow.natAbs_mul_blendPart_le {band : Band} (hband : band.IsNarrow) (s : Scaling) :
    (band.width * blendPart s).natAbs ≤ 2 ^ 50 :=
  Nat.le_trans (natAbs_mul_le hband.natAbs_width_le (natAbs_blendPart_le s)) (by decide)

/-! ## The steps of the computation -/

/-- Every step of the computation is exact; there is a field for each of them. -/
structure NoStepRounds (band : Band) (s : Scaling) : Prop where
  /-- How far the rate is above one, in eighths. -/
  rateGrowth : ((fieldValue s.rate - 1) / 8).IsFraction (fieldNumber s.rate - 1) 3
  /-- The weight of the level. -/
  levelWeight : (levelWeight s).IsFraction (fieldNumber s.rate + 1) 3
  /-- The weight of the tier. -/
  tierWeight : (1 - Band.levelWeight s).IsFraction (7 - fieldNumber s.rate) 3
  /-- How far the tier is above one, in halves. -/
  tierGrowth : ((fieldValue s.tier - 1) / 2).IsFraction (fieldNumber s.tier - 1) 1
  /-- What the tier adds. -/
  tierPart : ((1 - Band.levelWeight s) * ((fieldValue s.tier - 1) / 2)).IsFraction (tierPart s) 4
  /-- How far the level is above one, in quarters. -/
  levelGrowth : ((fieldValue s.level - 1) / 4).IsFraction (fieldNumber s.level - 1) 2
  /-- What the level adds. -/
  levelPart : (Band.levelWeight s * ((fieldValue s.level - 1) / 4)).IsFraction (levelPart s) 5
  /-- The sum of both. -/
  blend : (blend s).IsFraction (blendPart s) 5
  /-- The distance between the bounds. -/
  width : (Binary64.ofInt band.high.toInt - Binary64.ofInt band.low.toInt).IsFraction band.width 0
  /-- The blended part of the distance. -/
  share : ((Binary64.ofInt band.high.toInt - Binary64.ofInt band.low.toInt) *
    Band.blend s).IsFraction (band.width * blendPart s) 5
  /-- The blend of the bounds. -/
  value : (Binary64.ofInt band.low.toInt +
    (Binary64.ofInt band.high.toInt - Binary64.ofInt band.low.toInt) * Band.blend s).IsFraction
      (band.low.toInt * 32 + band.width * blendPart s) 5
  /-- The blend of the bounds and one half. -/
  raised : (Binary64.ofInt band.low.toInt +
    (Binary64.ofInt band.high.toInt - Binary64.ofInt band.low.toInt) * Band.blend s +
      .dyadic 1 1).IsFraction
        (band.low.toInt * 32 + band.width * blendPart s + 16) 5

/-- A field stands for its number. -/
theorem isFraction_fieldValue (field : Option UInt8) :
    (fieldValue field).IsFraction (fieldNumber field) 0 := by
  have hbounds := fieldNumber_bounds field
  exact Binary64.isFraction_ofInt (n := fieldNumber field) (by omega)

/-- What a field is above one, over a power of two. -/
theorem isFraction_growth (field : Option UInt8) {unit : Binary64} {e : Nat}
    (hunit : unit.IsFraction (2 ^ e) 0) (he : e ≤ 1074) :
    ((fieldValue field - 1) / unit).IsFraction (fieldNumber field - 1) e := by
  have hbounds := fieldNumber_bounds field
  have hone : (1 : Binary64).IsFraction 1 0 := Binary64.isFraction_ofInt (n := 1) (by decide)
  have hstep : (fieldValue field - 1).IsFraction (fieldNumber field - 1) 0 :=
    (isFraction_fieldValue field).sub hone rfl (by omega) (Nat.zero_le _)
  have hquot := hstep.div_two_pow hunit (by omega) (by omega)
  rwa [Nat.zero_add] at hquot

/-- No step of the computation rounds. -/
theorem noStepRounds {band : Band} (hband : band.IsNarrow) (s : Scaling) :
    band.NoStepRounds s := by
  have hrate := fieldNumber_bounds s.rate
  have htier := fieldNumber_bounds s.tier
  have hlevel := fieldNumber_bounds s.level
  have htierSmall := natAbs_tierPart_le s
  have hlevelSmall := natAbs_levelPart_le s
  have hblendSmall := natAbs_blendPart_le s
  have hwidthSmall := hband.natAbs_width_le
  have hshareSmall := hband.natAbs_mul_blendPart_le s
  obtain ⟨hlowSmall, hhighSmall⟩ := hband
  have hone : (1 : Binary64).IsFraction 1 0 := Binary64.isFraction_ofInt (n := 1) (by decide)
  have htwo : (2 : Binary64).IsFraction (2 ^ 1) 0 :=
    Binary64.isFraction_ofInt (n := 2) (by decide)
  have hfour : (4 : Binary64).IsFraction (2 ^ 2) 0 :=
    Binary64.isFraction_ofInt (n := 4) (by decide)
  have height : (8 : Binary64).IsFraction (2 ^ 3) 0 :=
    Binary64.isFraction_ofInt (n := 8) (by decide)
  have hquarter : (Binary64.dyadic 1 2).IsFraction 1 2 :=
    Binary64.isFraction_dyadic (by decide) (by decide)
  have hhalf : (Binary64.dyadic 1 1).IsFraction 1 1 :=
    Binary64.isFraction_dyadic (by decide) (by decide)
  have hrateGrowth := isFraction_growth s.rate height (by decide)
  have hlevelWeight : (levelWeight s).IsFraction (fieldNumber s.rate + 1) 3 :=
    (hquarter.extend 1).add hrateGrowth (by omega) (by omega) (by decide)
  have htierWeight : (1 - levelWeight s).IsFraction (7 - fieldNumber s.rate) 3 :=
    (hone.extend 3).sub hlevelWeight (by omega) (by omega) (by decide)
  have htierGrowth := isFraction_growth s.tier htwo (by decide)
  have htierPart := htierWeight.mul htierGrowth (r := tierPart s) rfl (by omega) (by decide)
  have hlevelGrowth := isFraction_growth s.level hfour (by decide)
  have hlevelPart := hlevelWeight.mul hlevelGrowth (r := levelPart s) rfl (by omega) (by decide)
  have hblend : (blend s).IsFraction (blendPart s) 5 :=
    (htierPart.extend 1).add hlevelPart (by unfold blendPart; omega) (by omega) (by decide)
  have hlow : (Binary64.ofInt band.low.toInt).IsFraction band.low.toInt 0 :=
    Binary64.isFraction_ofInt (by omega)
  have hhigh : (Binary64.ofInt band.high.toInt).IsFraction band.high.toInt 0 :=
    Binary64.isFraction_ofInt (by omega)
  have hwidth := hhigh.sub hlow (r := band.width) rfl (by omega) (by decide)
  have hshare := hwidth.mul hblend rfl (by omega) (by decide)
  have hvalue := (hlow.extend 5).add hshare rfl (by omega) (by decide)
  have hraised := hvalue.add (hhalf.extend 4) rfl (by omega) (by decide)
  exact ⟨hrateGrowth, hlevelWeight, htierWeight, htierGrowth, htierPart, hlevelGrowth,
    hlevelPart, hblend, hwidth, hshare, hvalue, hraised⟩

/-- The value of a narrow band is that of the exact formula. -/
theorem toInt_scaled {band : Band} (hband : band.IsNarrow) (s : Scaling) :
    (band.scaled s).toInt = band.halfUp s := by
  have hshareSmall := hband.natAbs_mul_blendPart_le s
  have hlowSmall := hband.1
  have hmin : Int64.minValue.toInt = -2 ^ 63 := by decide
  have hmax : Int64.maxValue.toInt = 2 ^ 63 - 1 := by decide
  have hfloor := (noStepRounds hband s).raised.toInt_floorInt64 (by omega) (by omega)
  have hsplit : (band.low.toInt * 32 + band.width * blendPart s + 16) / 2 ^ 5 =
      band.halfUp s := by
    unfold halfUp
    omega
  exact hfloor.trans hsplit

/-! ## What can be read off the formula -/

/-- The bounds of the bands that spells can name are in order. -/
theorem width_pos_of_mem_table : ∀ band ∈ table, 0 < band.width := by
  unfold width
  decide

/-- Further on between the bounds the value is not less. -/
theorem halfUp_le_halfUp {band : Band} (hwidth : 0 < band.width) {s other : Scaling}
    (hle : blendPart s ≤ blendPart other) : band.halfUp s ≤ band.halfUp other := by
  have hmul : band.width * blendPart s ≤ band.width * blendPart other :=
    Int.mul_le_mul_of_nonneg_left hle (Int.le_of_lt hwidth)
  unfold halfUp
  omega

/-- At the lower end of the blend the value is the lower bound. -/
theorem halfUp_of_blendPart_eq_zero (band : Band) {s : Scaling} (hpart : blendPart s = 0) :
    band.halfUp s = band.low.toInt := by
  rw [halfUp, hpart]
  omega

/-- At the upper end of the blend the value is the upper bound. -/
theorem halfUp_of_blendPart_eq (band : Band) {s : Scaling} (hpart : blendPart s = 32) :
    band.halfUp s = band.high.toInt := by
  rw [halfUp, hpart]
  unfold width
  omega

/-- Up to rate seven neither a higher tier nor a higher level lowers the blend. -/
theorem blendPart_le_blendPart {s other : Scaling}
    (hrate : fieldNumber s.rate = fieldNumber other.rate) (hseven : fieldNumber s.rate ≤ 7)
    (htier : fieldNumber s.tier ≤ fieldNumber other.tier)
    (hlevel : fieldNumber s.level ≤ fieldNumber other.level) :
    blendPart s ≤ blendPart other := by
  have hnonneg := fieldNumber_bounds s.rate
  have htierPart : tierPart s ≤ tierPart other := by
    unfold tierPart
    rw [← hrate]
    exact Int.mul_le_mul_of_nonneg_left (by omega) (by omega)
  have hlevelPart : levelPart s ≤ levelPart other := by
    unfold levelPart
    rw [← hrate]
    exact Int.mul_le_mul_of_nonneg_left (by omega) (by omega)
  unfold blendPart
  omega

/-- At tier one and level one the blend is at its lower end. -/
theorem blendPart_of_first {s : Scaling} (htier : fieldNumber s.tier = 1)
    (hlevel : fieldNumber s.level = 1) : blendPart s = 0 := by
  rw [blendPart, tierPart, levelPart, htier, hlevel]
  omega

/-- At tier three and level five the blend is at its upper end, whatever the rate. -/
theorem blendPart_of_last {s : Scaling} (htier : fieldNumber s.tier = 3)
    (hlevel : fieldNumber s.level = 5) : blendPart s = 32 := by
  rw [blendPart, tierPart, levelPart, htier, hlevel]
  omega

/-- The value of a band that spells can name is the exact formula with halves upward, and no step
of its computation rounds, whatever the fields of the scaling are. Up to rate seven a higher tier or
level does not lower it. From tier one to three and from level one to five it then stays within the
bounds, and at the ends of these ranges it is one of them. -/
theorem scaled_eq_halfUp_of_mem_table : ∀ band ∈ table,
    (∀ s, band.NoStepRounds s ∧ (band.scaled s).toInt = band.halfUp s) ∧
      (∀ s other, fieldNumber s.rate = fieldNumber other.rate → fieldNumber s.rate ≤ 7 →
        fieldNumber s.tier ≤ fieldNumber other.tier →
          fieldNumber s.level ≤ fieldNumber other.level → band.scaled s ≤ band.scaled other) ∧
      (∀ s, fieldNumber s.rate ≤ 7 → 1 ≤ fieldNumber s.tier → fieldNumber s.tier ≤ 3 →
        1 ≤ fieldNumber s.level → fieldNumber s.level ≤ 5 →
          band.low ≤ band.scaled s ∧ band.scaled s ≤ band.high) ∧
      (∀ s, fieldNumber s.tier = 1 → fieldNumber s.level = 1 → band.scaled s = band.low) ∧
      ∀ s, fieldNumber s.tier = 3 → fieldNumber s.level = 5 → band.scaled s = band.high := by
  intro band hmem
  have hnarrow := isNarrow_of_mem_table band hmem
  have hwidth := width_pos_of_mem_table band hmem
  have hscaled := toInt_scaled hnarrow
  have hgrows : ∀ s other, fieldNumber s.rate = fieldNumber other.rate →
      fieldNumber s.rate ≤ 7 → fieldNumber s.tier ≤ fieldNumber other.tier →
        fieldNumber s.level ≤ fieldNumber other.level → band.scaled s ≤ band.scaled other := by
    intro s other hrate hseven htier hlevel
    rw [Int64.le_iff_toInt_le, hscaled, hscaled]
    exact halfUp_le_halfUp hwidth (blendPart_le_blendPart hrate hseven htier hlevel)
  have hfirst : ∀ s, fieldNumber s.tier = 1 → fieldNumber s.level = 1 →
      band.scaled s = band.low := by
    intro s htier hlevel
    rw [← Int64.toInt_inj, hscaled]
    exact halfUp_of_blendPart_eq_zero band (blendPart_of_first htier hlevel)
  have hlast : ∀ s, fieldNumber s.tier = 3 → fieldNumber s.level = 5 →
      band.scaled s = band.high := by
    intro s htier hlevel
    rw [← Int64.toInt_inj, hscaled]
    exact halfUp_of_blendPart_eq band (blendPart_of_last htier hlevel)
  refine ⟨fun s => ⟨noStepRounds hnarrow s, hscaled s⟩, hgrows, ?_, hfirst, hlast⟩
  intro s hseven htier htier' hlevel hlevel'
  -- the ends of the ranges at the same rate
  let first : Scaling := { tier := some 1, level := some 1, rate := s.rate }
  let last : Scaling := { tier := some 3, level := some 5, rate := s.rate }
  have hlow : band.scaled first ≤ band.scaled s := hgrows first s rfl hseven htier hlevel
  have hhigh : band.scaled s ≤ band.scaled last := hgrows s last rfl hseven htier' hlevel'
  rw [hfirst first rfl rfl] at hlow
  rw [hlast last rfl rfl] at hhigh
  exact ⟨hlow, hhigh⟩

/-- The sixth band at a rate beyond seven, where its value is negative and half way between two
integers, and at the ends of the ranges. -/
theorem scaled_eq_halfUp_sixth :
    let band : Band := ⟨6, 12, 40⟩
    band ∈ table ∧ (band.scaled (.of 2 1 17)).toInt = -5 ∧
      band.width * blendPart (.of 2 1 17) = 32 * (-17) - 16 ∧
      band.scaled {} = 12 ∧ band.scaled (.of 3 5 0) = 40 := by
  intro band
  have hmem : band ∈ table := by decide
  obtain ⟨hformula, -, -, hfirst, hlast⟩ := scaled_eq_halfUp_of_mem_table band hmem
  exact ⟨hmem, (hformula (.of 2 1 17)).2.trans (by decide), by decide, hfirst {} rfl rfl,
    hlast (.of 3 5 0) rfl rfl⟩

end DiceDuel.Band
