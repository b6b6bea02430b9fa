import Mathlib.Data.Int.Order.Basic
import Mathlib.Tactic.Common

/-!
# Fractions of a second

An NTP time counts 2^32 parts of a second. `NTPFRAC` turns microseconds into such parts, and
`USEC` turns them back. A second has 15625 microseconds for each 2^26 parts, which is what
`x >> 12` makes of them but for 759. `USEC` takes off this excess in one go, halfway between
two multiples of 2^26, where `NTPFRAC` multiplies first and shifts then.
-/

namespace OpenTaker.NtpFractions

/-- `USEC`: microseconds from a fraction of a second, in arithmetic of 32 bits. -/
def usec (x : UInt32) : UInt32 := (x >>> 12) - (759 : UInt32) * (((x >>> 10) + 32768) >>> 16)

/-- `NTPFRAC`: a fraction of a second from microseconds, by whole numbers and a shift. -/
def ntpFrac (x : Int) : Int := 4294 * x + (1981 * x).shiftRight 11

/-- The number of the multiple of 2^26 that is nearest. -/
def centre (x : UInt32) : Nat := (x.toNat + 33554432) / 67108864

/-- The distance from the nearest multiple of 2^26, in which the error of the conversion is linear. -/
def offCentre (x : UInt32) : Int := x.toNat - 67108864 * centre x

/-- The whole microseconds of a fraction, which the conversion is compared with. -/
def micros (x : UInt32) : Nat := x.toNat * 1000000 / 4294967296

/-- Two counts of microseconds differ by one at most. -/
def Near (first second : Nat) : Prop := first ≤ second + 1 ∧ second ≤ first + 1

/-- Whether two numbers are near each other is a comparison, which the examples evaluate. -/
instance {first second : Nat} : Decidable (Near first second) := inferInstanceAs (Decidable (_ ∧ _))

/-! ## The values -/

/-- The centre of a fraction is not far above it: by half of the width at most. -/
theorem centre_le (x : UInt32) : 67108864 * centre x ≤ x.toNat + 33554432 := by
  rw [centre]
  omega

/-- And it is not far below it: by less than half of the width. -/
theorem lt_centre (x : UInt32) : x.toNat < 67108864 * centre x + 33554432 := by
  rw [centre]
  omega

/-- The correction that is taken off is never more than there is, so that the conversion does not
wrap. -/
theorem usec_toNat (x : UInt32) : (usec x).toNat = x.toNat / 4096 - 759 * centre x := by
  have bound := x.toNat_lt
  have below := centre_le x
  have shifted : (((x >>> 10) + 32768) >>> 16).toNat = centre x := by
    rw [UInt32.toNat_shiftRight, UInt32.toNat_add, UInt32.toNat_shiftRight, centre]
    simp only [UInt32.reduceToNat, Nat.shiftRight_eq_div_pow, Nat.reduceMod, Nat.reducePow]
    omega
  have product : ((759 : UInt32) * (((x >>> 10) + 32768) >>> 16)).toNat = 759 * centre x := by
    rw [UInt32.toNat_mul, shifted]
    simp only [UInt32.reduceToNat]
    omega
  have quotient : (x >>> 12).toNat = x.toNat / 4096 := by
    rw [UInt32.toNat_shiftRight]
    simp only [UInt32.reduceToNat, Nat.shiftRight_eq_div_pow, Nat.reduceMod, Nat.reducePow]
  rw [usec, UInt32.toNat_sub_of_le, product, quotient]
  rw [UInt32.le_iff_toNat_le, product, quotient]
  omega

/-- The excess that is taken off is not larger than the value. -/
theorem excess_le (x : UInt32) : 759 * centre x ≤ x.toNat / 4096 := by
  have below := centre_le x
  omega

/-- No value is a whole second, so that the microseconds of a time stay below a million. -/
theorem usec_le (x : UInt32) : (usec x).toNat ≤ 999999 := by
  have bound := x.toNat_lt
  have above := lt_centre x
  rw [usec_toNat]
  omega

/-! ## Order -/

/-- Larger fractions have larger centres, so that the conversion keeps the order. -/
theorem centre_mono {x y : UInt32} (order : x ≤ y) : centre x ≤ centre y :=
  Nat.div_le_div_right (Nat.add_le_add_right (UInt32.le_iff_toNat_le.mp order) _)

/-- Where the centre moves on, the value falls back by the excess. -/
theorem usec_le_usec_iff {x y : UInt32} (order : x ≤ y) :
    usec x ≤ usec y ↔ centre x = centre y ∨ x.toNat / 4096 + 759 ≤ y.toNat / 4096 := by
  have ordered := UInt32.le_iff_toNat_le.mp order
  have centres := centre_mono order
  have xExcess := excess_le x
  have yExcess := excess_le y
  rw [UInt32.le_iff_toNat_le, usec_toNat, usec_toNat]
  rcases Nat.lt_or_ge (centre x + 1) (centre y) with far | near
  · -- More than one centre apart the numbers are far enough from each other for any excess.
    have above := lt_centre x
    have below := centre_le y
    omega
  · omega

/-! ## Accuracy -/

/-- Off a centre the excess grows in small steps, and none of it is taken off. -/
theorem near_micros_iff (x : UInt32) : Near (usec x).toNat (micros x) ↔
    -134217728 < 759 * offCentre x - 16384 * (x.toNat % 4096) ∧
      759 * offCentre x - 16384 * (x.toNat % 4096) ≤ 67108864 := by
  have excess := excess_le x
  rw [Near, usec_toNat, micros, offCentre]
  omega

/-- The parts that microseconds are turned into, in 32 bits. -/
def parts (micro : Nat) : UInt32 := UInt32.ofInt (ntpFrac micro)

/-- The parts of a number of microseconds are computed without overflow, for all of them below a
second. -/
theorem parts_toNat {micro : Nat} (below : micro < 1000000) :
    (parts micro).toNat = 4294 * micro + 1981 * micro / 2048 := by
  have value : ntpFrac micro = ((4294 * micro + 1981 * micro / 2048 : Nat) : Int) := by
    have shifted : (1981 * (micro : Int)).shiftRight 11 = 1981 * (micro : Int) / 2048 :=
      Int.shiftRight_eq_div_pow _ 11
    rw [ntpFrac, shifted]
    omega
  have small : 4294 * micro + 1981 * micro / 2048 < 4294967296 := by omega
  rw [parts, value, UInt32.ofInt, UInt32.toNat_ofNat', Int.emod_eq_of_lt (by omega) (by omega),
    Int.toNat_natCast, Nat.mod_eq_of_lt small]

/-- Back and forth, the excess does not show near a multiple of 15625 microseconds only. -/
theorem near_parts_iff {micro : Nat} (below : micro < 1000000) :
    Near (usec (parts micro)).toNat micro ↔ (micro + 20) % 15625 ≤ 61 := by
  have value := parts_toNat below
  have reached := centre_le (parts micro)
  have above := lt_centre (parts micro)
  have excess := excess_le (parts micro)
  -- A centre of the parts is a multiple of 15625 microseconds, up to the error of `NTPFRAC`.
  have centres : centre (parts micro) = (micro + 20) / 15625 ∨
      centre (parts micro) = (micro + 20) / 15625 + 1 := by omega
  rw [Near, usec_toNat, value] at *
  rcases centres with same | next
  · omega
  · omega

/-- The value is always below a second. The order, the accuracy and the way back are right where the excess
that is taken off agrees with the one that has grown so far. -/
theorem usec_accuracy (x y : UInt32) (micro : Nat) :
    (usec x).toNat ≤ 999999 ∧
    (x ≤ y → (usec x ≤ usec y ↔ centre x = centre y ∨ x.toNat / 4096 + 759 ≤ y.toNat / 4096)) ∧
    (Near (usec x).toNat (micros x) ↔
      -134217728 < 759 * offCentre x - 16384 * (x.toNat % 4096) ∧
        759 * offCentre x - 16384 * (x.toNat % 4096) ≤ 67108864) ∧
    (micro < 1000000 → (Near (usec (parts micro)).toNat micro ↔ (micro + 20) % 15625 ≤ 61)) :=
  ⟨usec_le x, usec_le_usec_iff, near_micros_iff x, near_parts_iff⟩

/-- Where the excess is taken off, the clock goes back by 758 microseconds from one fraction to the
next. -/
theorem usec_falls_back :
    ¬ ((∀ x, (usec x).toNat ≤ 999999) ∧ (∀ x y, x ≤ y → usec x ≤ usec y) ∧
      (∀ x, Near (usec x).toNat (micros x)) ∧ ∀ micro < 1000000, Near (usec (parts micro)).toNat micro) := by
  rintro ⟨-, monotone, -, -⟩
  exact absurd (monotone 33554431 33554432 (by decide)) (by decide)

end OpenTaker.NtpFractions
