import Mathlib.Algebra.Order.Field.Power
import Mathlib.Algebra.Order.Field.Rat
import Mathlib.Data.Rat.Floor
import Mathlib.Tactic.FieldSimp
import Mathlib.Tactic.Linarith
import Mathlib.Tactic.NormNum
import Mathlib.Tactic.Positivity
import Mathlib.Tactic.Ring
import SharedLinks.Percent

/-!
# Percentages are faithful

A percentage is rounded five times: both counters, their quotient and its hundredfold to 53 binary
places, and the result to two decimals. Three facts about rounding are enough to say what comes of
it: it keeps the order, it keeps what is on the grid already, and it is off by half a unit of the
grid at most. For integers they are `roundEven_mono`, `roundEven_intCast` and
`abs_roundEven_sub_le`; for binary64 numbers they are `binary64_mono`, `binary64_natCast` and
`off_binary64`.

The order of percentages and their bounds follow from the first two, even where the counters
themselves are no longer exact. The errors of the binary steps are shares of what is rounded, and
`Off` adds them up. `read` reads a percentage back, so `faithful_text` is about the text that is
shown.
-/

namespace SharedLinks.Percent

/-! ## Whole numbers -/

/-- A number is at most half a unit away from what it is rounded to. -/
theorem abs_roundEven_sub_le (x : Rat) : |(roundEven x : Rat) - x| ≤ 1 / 2 := by
  have hfloor := Rat.floor_le x
  have hnext := Rat.lt_floor_add_one x
  have hparity : 0 ≤ x.floor % 2 ∧ x.floor % 2 ≤ 1 := by omega
  have hlow : (0 : Rat) ≤ (x.floor % 2 : Int) := by exact_mod_cast hparity.1
  have hhigh : ((x.floor % 2 : Int) : Rat) ≤ 1 := by exact_mod_cast hparity.2
  rw [Int.cast_add, Int.cast_one] at hnext
  rw [abs_le]
  unfold roundEven
  dsimp only
  split_ifs
  · constructor <;> linarith
  · rw [Int.cast_add, Int.cast_one]
    constructor <;> linarith
  · -- halfway, either neighbour will do
    rw [Int.cast_add]
    constructor <;> linarith

theorem roundEven_intCast (n : Int) : roundEven n = n := by
  simp [roundEven, Rat.floor_intCast]

theorem roundEven_mono {x y : Rat} (h : x ≤ y) : roundEven x ≤ roundEven y := by
  rcases h.eq_or_lt with rfl | hlt
  · exact le_refl _
  · -- to get out of order, both would have to be halfway between the same integers
    have hx := (abs_le.mp (abs_roundEven_sub_le x)).2
    have hy := (abs_le.mp (abs_roundEven_sub_le y)).1
    have hcast : (roundEven x : Rat) < roundEven y + 1 := by linarith
    have hint : roundEven x < roundEven y + 1 := by exact_mod_cast hcast
    omega

/-! ## Binades -/

theorem twoPow_eq (e : Int) : twoPow e = 2 ^ e := by
  cases e with
  | ofNat n => simp [twoPow]
  | negSucc n => simp [twoPow, zpow_negSucc]

/-- The powers of two around a positive integer. -/
theorem zpow_log2_le {n : Nat} (hn : 0 < n) : (2 : Rat) ^ (n.log2 : Int) ≤ n := by
  rw [zpow_natCast]
  exact_mod_cast Nat.log2_self_le (Nat.ne_of_gt hn)

theorem lt_zpow_log2 (n : Nat) : (n : Rat) < 2 ^ ((n.log2 : Int) + 1) := by
  have hlt : n < 2 ^ (n.log2 + 1) := Nat.lt_log2_self
  exact_mod_cast hlt

/-- The logarithms of numerator and denominator leave two binades to choose from. -/
theorem binade_guess {x : Rat} (hx : 0 < x) :
    (2 : Rat) ^ ((x.num.toNat.log2 : Int) - x.den.log2 - 1) < x ∧
      x < 2 ^ ((x.num.toNat.log2 : Int) - x.den.log2 + 1) := by
  have hnum : 0 < x.num.toNat := by
    have := Rat.num_pos.mpr hx
    omega
  have hquot : x = (x.num.toNat : Rat) / x.den := by
    have hcast : ((x.num.toNat : Int) : Rat) = x.num := by
      rw [Int.toNat_of_nonneg (Rat.num_nonneg.mpr hx.le)]
    rw [← Int.cast_natCast, hcast, Rat.num_div_den]
  have hden : (0 : Rat) < x.den := by exact_mod_cast x.den_pos
  have htwo : (2 : Rat) ≠ 0 := by norm_num
  constructor
  · calc (2 : Rat) ^ ((x.num.toNat.log2 : Int) - x.den.log2 - 1)
        = 2 ^ (x.num.toNat.log2 : Int) / 2 ^ ((x.den.log2 : Int) + 1) := by
          rw [← zpow_sub₀ htwo]
          congr 1
          ring
      _ < (x.num.toNat : Rat) / x.den := by
          refine div_lt_div₀' (zpow_log2_le hnum) (lt_zpow_log2 x.den)
            (by exact_mod_cast hnum) hden
      _ = x := hquot.symm
  · calc x = (x.num.toNat : Rat) / x.den := hquot
      _ < 2 ^ ((x.num.toNat.log2 : Int) + 1) / 2 ^ (x.den.log2 : Int) :=
          div_lt_div₀ (lt_zpow_log2 _) (zpow_log2_le x.den_pos) (by positivity) (by positivity)
      _ = 2 ^ ((x.num.toNat.log2 : Int) - x.den.log2 + 1) := by
          rw [← zpow_sub₀ htwo]
          congr 1
          ring

/-- The binade is that of the largest power of two that is not above. -/
theorem binade_spec {x : Rat} (hx : 0 < x) :
    (2 : Rat) ^ binade x ≤ x ∧ x < 2 ^ (binade x + 1) := by
  obtain ⟨hlow, hhigh⟩ := binade_guess hx
  unfold binade
  simp only [twoPow_eq]
  split
  · exact ⟨‹_›, hhigh⟩
  · rename_i hguess
    refine ⟨hlow.le, ?_⟩
    rw [sub_add_cancel]
    exact not_le.mp hguess

theorem binade_mono {x y : Rat} (hx : 0 < x) (h : x ≤ y) : binade x ≤ binade y := by
  have hlt : (2 : Rat) ^ binade x < 2 ^ (binade y + 1) :=
    (binade_spec hx).1.trans_lt (h.trans_lt (binade_spec (hx.trans_le h)).2)
  have := (zpow_lt_zpow_iff_right₀ (by norm_num : (1 : Rat) < 2)).mp hlt
  omega

theorem unitInLastPlace_eq (x : Rat) : unitInLastPlace x = 2 ^ (binade x - 52) :=
  twoPow_eq _

theorem unitInLastPlace_pos (x : Rat) : 0 < unitInLastPlace x := by
  rw [unitInLastPlace_eq]
  positivity

/-- A binade begins after `2 ^ 52` units and ends after `2 ^ 53`. -/
theorem zpow_binade (x : Rat) : (2 : Rat) ^ binade x = 2 ^ 52 * unitInLastPlace x ∧
    (2 : Rat) ^ (binade x + 1) = 2 ^ 53 * unitInLastPlace x := by
  have htwo : (2 : Rat) ≠ 0 := by norm_num
  rw [unitInLastPlace_eq, ← zpow_natCast, ← zpow_natCast, ← zpow_add₀ htwo, ← zpow_add₀ htwo]
  constructor <;> congr 1 <;> push_cast <;> ring

/-! ## Binary64 numbers -/

theorem binary64_of_pos {x : Rat} (hx : 0 < x) :
    binary64 x = roundEven (x / unitInLastPlace x) * unitInLastPlace x :=
  if_neg hx.ne'

theorem binary64_zero : binary64 0 = 0 := if_pos rfl

/-- Rounding does not leave a binade but for its end. -/
theorem binary64_bounds {x : Rat} (hx : 0 < x) :
    (2 : Rat) ^ binade x ≤ binary64 x ∧ binary64 x ≤ 2 ^ (binade x + 1) := by
  obtain ⟨hlow, hhigh⟩ := binade_spec hx
  have hunit := unitInLastPlace_pos x
  rw [(zpow_binade x).1] at hlow
  rw [(zpow_binade x).2] at hhigh
  rw [(zpow_binade x).1, (zpow_binade x).2, binary64_of_pos hx]
  constructor
  · have hround := roundEven_mono ((le_div_iff₀ hunit).mpr hlow)
    rw [show (2 : Rat) ^ 52 = ((2 ^ 52 : Int) : Rat) by norm_num, roundEven_intCast] at hround
    refine mul_le_mul_of_nonneg_right ?_ hunit.le
    exact_mod_cast hround
  · have hround := roundEven_mono ((div_le_iff₀ hunit).mpr hhigh.le)
    rw [show (2 : Rat) ^ 53 = ((2 ^ 53 : Int) : Rat) by norm_num, roundEven_intCast] at hround
    refine mul_le_mul_of_nonneg_right ?_ hunit.le
    exact_mod_cast hround

theorem binary64_nonneg {x : Rat} (hx : 0 ≤ x) : 0 ≤ binary64 x := by
  rcases hx.eq_or_lt with rfl | hpos
  · exact binary64_zero.ge
  · exact (by positivity : (0 : Rat) ≤ 2 ^ binade x).trans (binary64_bounds hpos).1

theorem binary64_mono {x y : Rat} (hx : 0 ≤ x) (h : x ≤ y) : binary64 x ≤ binary64 y := by
  rcases hx.eq_or_lt with rfl | hpos
  · rw [binary64_zero]
    exact binary64_nonneg h
  have hy := hpos.trans_le h
  rcases (binade_mono hpos h).lt_or_eq with hlt | heq
  · -- the end of the lower binade lies between the two
    have hbetween : (2 : Rat) ^ (binade x + 1) ≤ 2 ^ binade y :=
      zpow_le_zpow_right₀ (by norm_num) (by omega)
    exact (binary64_bounds hpos).2.trans (hbetween.trans (binary64_bounds hy).1)
  · have hunits : unitInLastPlace x = unitInLastPlace y := by
      rw [unitInLastPlace_eq, unitInLastPlace_eq, heq]
    have hunit := unitInLastPlace_pos y
    rw [binary64_of_pos hpos, binary64_of_pos hy, hunits]
    refine mul_le_mul_of_nonneg_right ?_ hunit.le
    exact_mod_cast roundEven_mono (div_le_div_of_nonneg_right h hunit.le)

/-- Integers of at most 53 places are binary64 numbers. -/
theorem binary64_natCast {n : Nat} (hn : n < 2 ^ 53) : binary64 n = n := by
  rcases Nat.eq_zero_or_pos n with rfl | hpos
  · exact_mod_cast binary64_zero
  have hcast : (0 : Rat) < n := by exact_mod_cast hpos
  have hbinade : binade n < 53 := by
    have hlt : (2 : Rat) ^ binade n < 2 ^ (53 : Int) :=
      (binade_spec hcast).1.trans_lt (by exact_mod_cast hn)
    exact (zpow_lt_zpow_iff_right₀ (by norm_num)).mp hlt
  obtain ⟨m, hm⟩ := Int.eq_ofNat_of_zero_le (by omega : 0 ≤ 52 - binade n)
  have hplaces : (n : Rat) / unitInLastPlace n = ((n * 2 ^ m : Int) : Rat) := by
    rw [unitInLastPlace_eq, ← neg_sub, hm, zpow_neg, div_inv_eq_mul]
    push_cast
    rw [zpow_natCast]
  rw [binary64_of_pos hcast, hplaces, roundEven_intCast, ← hplaces,
    div_mul_cancel₀ _ (unitInLastPlace_pos _).ne']

/-! ## Errors -/

/-- The second number is off from the first by at most a share of it. -/
def Off (share x y : Rat) : Prop := |y - x| ≤ share * x

namespace Off

variable {s t x x' y y' z : Rat}

theorem trans (ht : 0 ≤ t) (h : Off s x y) (h' : Off t y z) :
    Off (s + t + s * t) x z := by
  have hy : y ≤ (1 + s) * x := by
    have := (abs_le.mp h).2
    linarith
  calc |z - x| ≤ |z - y| + |y - x| := abs_sub_le z y x
    _ ≤ t * y + s * x := add_le_add h' h
    _ ≤ t * ((1 + s) * x) + s * x := by gcongr
    _ = (s + t + s * t) * x := by ring

theorem mul_right (h : Off s x y) {c : Rat} (hc : 0 ≤ c) : Off s (x * c) (y * c) := by
  unfold Off
  rw [← sub_mul, abs_mul, abs_of_nonneg hc, ← mul_assoc]
  exact mul_le_mul_of_nonneg_right h hc

theorem one_sub_mul_le (h : Off s x y) : (1 - s) * x ≤ y := by
  have := (abs_le.mp h).1
  linarith

theorem pos (hx : 0 < x) (hs : s < 1) (h : Off s x y) : 0 < y :=
  (mul_pos (by linarith) hx).trans_le h.one_sub_mul_le

/-- Both errors of a quotient may add up. -/
theorem div (hx : 0 ≤ x) (hy : 0 < y) (hs : 0 ≤ s) (hs' : s < 1) (h : Off s x x')
    (h' : Off s y y') : Off (2 * s / (1 - s)) (x / y) (x' / y') := by
  have hlow := h'.one_sub_mul_le
  have hpos := h'.pos hy hs'
  have hone : 0 < 1 - s := by linarith
  -- over the common denominator, each error is a share of the product
  have hnum : |x' * y - x * y'| ≤ 2 * s * (x * y) := by
    calc |x' * y - x * y'| = |(x' - x) * y - x * (y' - y)| := by ring_nf
      _ ≤ |(x' - x) * y| + |x * (y' - y)| := abs_sub _ _
      _ = |x' - x| * y + x * |y' - y| := by
          rw [abs_mul, abs_mul, abs_of_pos hy, abs_of_nonneg hx]
      _ ≤ s * x * y + x * (s * y) := by gcongr <;> assumption
      _ = 2 * s * (x * y) := by ring
  unfold Off
  rw [div_sub_div _ _ hpos.ne' hy.ne', abs_div, abs_of_pos (mul_pos hpos hy)]
  rw [div_le_iff₀ (mul_pos hpos hy)]
  calc |x' * y - y' * x| = |x' * y - x * y'| := by rw [mul_comm y']
    _ ≤ 2 * s * (x * y) := hnum
    _ = 2 * s / (1 - s) * (x / y) * (((1 - s) * y) * y) := by field_simp
    _ ≤ 2 * s / (1 - s) * (x / y) * (y' * y) := by gcongr

end Off

/-- Half a unit in the last place, as a share of the least number of a binade. -/
def halfUnit : Rat := 1 / 2 ^ 53

/-- Rounding is off by half a unit at most. -/
theorem off_binary64 {x : Rat} (hx : 0 ≤ x) : Off halfUnit x (binary64 x) := by
  rcases hx.eq_or_lt with rfl | hpos
  · simp [Off, binary64_zero]
  have hunit := unitInLastPlace_pos x
  have hlow := (binade_spec hpos).1
  rw [(zpow_binade x).1] at hlow
  have hscaled : binary64 x - x =
      (roundEven (x / unitInLastPlace x) - x / unitInLastPlace x) * unitInLastPlace x := by
    rw [sub_mul, div_mul_cancel₀ _ hunit.ne', binary64_of_pos hpos]
  calc |binary64 x - x|
      = |roundEven (x / unitInLastPlace x) - x / unitInLastPlace x| * unitInLastPlace x := by
        rw [hscaled, abs_mul, abs_of_pos hunit]
    _ ≤ 1 / 2 * unitInLastPlace x :=
        mul_le_mul_of_nonneg_right (abs_roundEven_sub_le _) hunit.le
    _ ≤ halfUnit * x := by
        unfold halfUnit
        linarith

/-! ## The percentage -/

/-- The percentage before it is rounded to two decimals. -/
def percent (part whole : UInt64) : Rat := binary64 (quotient part whole * 100)

variable {part part' whole : UInt64}

theorem cast_toNat_pos (pos : 0 < whole) : (0 : Rat) < whole.toNat := by
  exact_mod_cast UInt64.lt_iff_toNat_lt.mp pos

theorem quotient_of_pos (pos : 0 < whole) : quotient part whole =
    binary64 (binary64 part.toNat / binary64 whole.toNat) := by
  refine if_neg ?_
  rintro rfl
  exact absurd pos (by decide)

theorem binary64_toNat_pos (pos : 0 < whole) : 0 < binary64 whole.toNat :=
  (off_binary64 (cast_toNat_pos pos).le).pos (cast_toNat_pos pos) (by norm_num [halfUnit])

theorem ratio_nonneg (part whole : UInt64) :
    0 ≤ binary64 part.toNat / binary64 whole.toNat :=
  div_nonneg (binary64_nonneg (Nat.cast_nonneg _)) (binary64_nonneg (Nat.cast_nonneg _))

theorem quotient_nonneg (part whole : UInt64) : 0 ≤ quotient part whole := by
  unfold quotient
  split
  · exact le_refl 0
  · exact binary64_nonneg (ratio_nonneg part whole)

theorem percent_nonneg (part whole : UInt64) : 0 ≤ percent part whole :=
  binary64_nonneg (mul_nonneg (quotient_nonneg part whole) (by norm_num))

/-- More hits among as many make no smaller percentage. -/
theorem percent_mono (pos : 0 < whole) (h : part ≤ part') :
    percent part whole ≤ percent part' whole := by
  have hcount : (part.toNat : Rat) ≤ part'.toNat := by
    exact_mod_cast UInt64.le_iff_toNat_le.mp h
  have hratio : binary64 part.toNat / binary64 whole.toNat ≤
      binary64 part'.toNat / binary64 whole.toNat :=
    div_le_div_of_nonneg_right (binary64_mono (Nat.cast_nonneg _) hcount)
      (binary64_toNat_pos pos).le
  have hquotient : quotient part whole ≤ quotient part' whole := by
    rw [quotient_of_pos pos, quotient_of_pos pos]
    exact binary64_mono (ratio_nonneg part whole) hratio
  exact binary64_mono (mul_nonneg (quotient_nonneg part whole) (by norm_num))
    (mul_le_mul_of_nonneg_right hquotient (by norm_num))

/-- All are exactly a hundred percent, however their number is rounded. -/
theorem percent_self (pos : 0 < whole) : percent whole whole = 100 := by
  have hone : binary64 1 = 1 := by exact_mod_cast binary64_natCast (n := 1) (by norm_num)
  have hhundred : binary64 100 = 100 := by
    exact_mod_cast binary64_natCast (n := 100) (by norm_num)
  rw [percent, quotient_of_pos pos, div_self (binary64_toNat_pos pos).ne', hone, one_mul, hhundred]

/-- The four roundings on the way do not add up to much. -/
theorem off_percent (pos : 0 < whole) :
    Off (1 / 10 ^ 14) (100 * part.toNat / whole.toNat) (percent part whole) := by
  have hunit : (0 : Rat) ≤ halfUnit := by norm_num [halfUnit]
  have hpart : (0 : Rat) ≤ part.toNat := Nat.cast_nonneg _
  have hwhole := cast_toNat_pos pos
  -- the counters, their quotient and its hundredfold, in this order
  have hratio := (off_binary64 hpart).div hpart hwhole hunit (by norm_num [halfUnit])
    (off_binary64 hwhole.le)
  have hquotient := hratio.trans hunit
    (off_binary64 (ratio_nonneg part whole))
  rw [← quotient_of_pos pos] at hquotient
  have hscaled := hquotient.mul_right (by norm_num : (0 : Rat) ≤ 100)
  have hexact : (part.toNat : Rat) / whole.toNat * 100 = 100 * part.toNat / whole.toNat := by ring
  rw [hexact] at hscaled
  have hnonneg : (0 : Rat) ≤ 100 * part.toNat / whole.toNat := by positivity
  have hpercent := hscaled.trans hunit
    (off_binary64 (mul_nonneg (quotient_nonneg part whole) (by norm_num)))
  refine le_trans hpercent (mul_le_mul_of_nonneg_right ?_ hnonneg)
  norm_num [halfUnit]

/-! ## Hundredths -/

theorem roundEven_percent_nonneg (part whole : UInt64) :
    0 ≤ roundEven (percent part whole * 100) := by
  have h := roundEven_mono
    (mul_nonneg (percent_nonneg part whole) (by norm_num : (0 : Rat) ≤ 100))
  rwa [← Int.cast_zero, roundEven_intCast] at h

theorem cast_hundredths (part whole : UInt64) :
    (hundredths part whole : Int) = roundEven (percent part whole * 100) :=
  Int.toNat_of_nonneg (roundEven_percent_nonneg part whole)

theorem hundredths_mono (pos : 0 < whole) (h : part ≤ part') :
    hundredths part whole ≤ hundredths part' whole :=
  Int.toNat_le_toNat (roundEven_mono
    (mul_le_mul_of_nonneg_right (percent_mono pos h) (by norm_num)))

theorem hundredths_self (pos : 0 < whole) : hundredths whole whole = 10000 := by
  have h := cast_hundredths whole whole
  rw [percent_self pos, show (100 : Rat) * 100 = ((10000 : Int) : Rat) by norm_num,
    roundEven_intCast] at h
  exact_mod_cast h

/-- What two decimals leave out is at most half a hundredth. -/
theorem abs_hundredths_sub_le (part whole : UInt64) :
    |(hundredths part whole : Rat) / 100 - percent part whole| ≤ 1 / 200 := by
  have hround := abs_roundEven_sub_le (percent part whole * 100)
  have hcast : (hundredths part whole : Rat) = roundEven (percent part whole * 100) := by
    exact_mod_cast congrArg (Int.cast (R := Rat)) (cast_hundredths part whole)
  rw [hcast]
  rw [abs_le] at hround ⊢
  constructor <;> linarith

/-! ## Texts -/

/-- The number that a percentage says. It has decimal digits, a point, two more digits and the
percent sign; the digits without the point are the hundredths. -/
def read (s : String) : Option Rat :=
  match s.toList.reverse with
  | '%' :: ones :: tens :: '.' :: units =>
    if !units.isEmpty && (ones :: tens :: units).all Char.isDigit then
      some ((Nat.ofDigitChars 10 (ones :: tens :: units).reverse 0 : Rat) / 100)
    else none
  | _ => none

theorem read_eq {s : String} {units : List Char} {tens ones : Char}
    (text : s.toList = units ++ ['.', tens, ones, '%']) (some_units : units ≠ [])
    (digits : ∀ c ∈ units ++ [tens, ones], c.isDigit) :
    read s = some ((Nat.ofDigitChars 10 (units ++ [tens, ones]) 0 : Rat) / 100) := by
  have hreverse : s.toList.reverse = '%' :: ones :: tens :: '.' :: units.reverse := by
    rw [text, List.reverse_append]
    rfl
  have hunits : !units.reverse.isEmpty := by simpa using some_units
  have hdigits : (ones :: tens :: units.reverse).all Char.isDigit := by
    rw [List.all_eq_true]
    intro c hc
    refine digits c ?_
    simpa [or_comm, or_left_comm, or_assoc] using hc
  unfold read
  rw [hreverse]
  simp only
  rw [if_pos (by rw [hunits, hdigits, Bool.and_self])]
  simp

theorem toList_toString_digit {n : Nat} (hn : n < 10) : (toString n).toList = [n.digitChar] := by
  rw [Nat.toString_eq_ofList_toDigits, String.toList_ofList, Nat.toDigits_of_lt_base hn]

theorem toList_text (part whole : UInt64) : (text part whole).toList =
    Nat.toDigits 10 (hundredths part whole / 100) ++
      ['.', (hundredths part whole % 100 / 10).digitChar, (hundredths part whole % 10).digitChar,
        '%'] := by
  have htens := toList_toString_digit (by omega : hundredths part whole % 100 / 10 < 10)
  have hones := toList_toString_digit (by omega : hundredths part whole % 10 < 10)
  unfold text
  simp only [String.toList_append, htens, hones, List.append_assoc]
  rw [Nat.toString_eq_ofList_toDigits, String.toList_ofList]
  rfl

/-- The text says how many hundredths there are. -/
theorem read_text (part whole : UInt64) :
    read (text part whole) = some ((hundredths part whole : Rat) / 100) := by
  generalize hn : hundredths part whole = n
  have htens : n % 100 / 10 < 10 := by omega
  have hones : n % 10 < 10 := by omega
  have hdigits : ∀ c ∈ Nat.toDigits 10 (n / 100) ++
      [(n % 100 / 10).digitChar, (n % 10).digitChar], c.isDigit := by
    intro c hc
    rcases List.mem_append.mp hc with hunits | hlast
    · exact Nat.isDigit_of_mem_toDigits (by decide) (by decide) hunits
    · simp only [List.mem_cons, List.not_mem_nil, or_false] at hlast
      rcases hlast with rfl | rfl
      · simpa [Nat.isDigit_digitChar] using htens
      · simpa [Nat.isDigit_digitChar] using hones
  have hvalue : Nat.ofDigitChars 10 (Nat.toDigits 10 (n / 100) ++
      [(n % 100 / 10).digitChar, (n % 10).digitChar]) 0 = n := by
    rw [Nat.ofDigitChars_append, Nat.ofDigitChars_ten_toDigits,
      Nat.ofDigitChars_cons_digitChar_of_lt_ten htens,
      Nat.ofDigitChars_cons_digitChar_of_lt_ten hones, Nat.ofDigitChars_nil]
    omega
  have htext := toList_text part whole
  rw [hn] at htext
  rw [read_eq htext Nat.toDigits_ne_nil hdigits, hvalue]

/-- The share of a part in a whole, neither of which may be exact once it is rounded, is shown as a
percentage from 0.00% to 100.00%. The whole of it is shown as 100.00%, less is never shown as more,
and what is shown is at most half a hundredth off, but for the tiny error of the steps before. -/
theorem faithful_text (le : part ≤ whole) (pos : 0 < whole) :
    ∃ p : Rat, read (text part whole) = some p ∧ 0 ≤ p ∧ p ≤ 100 ∧
      (part = whole → text part whole = "100.00%") ∧
      (∀ less, less ≤ part → ∃ q, read (text less whole) = some q ∧ q ≤ p) ∧
      |p - 100 * part.toNat / whole.toNat| ≤ 0.005 + 1 / 10 ^ 12 := by
  refine ⟨_, read_text part whole, by positivity, ?_, ?_, fun less hless => ?_, ?_⟩
  · have hall : (hundredths part whole : Rat) ≤ 10000 := by
      exact_mod_cast (hundredths_mono pos le).trans_eq (hundredths_self pos)
    linarith
  · rintro rfl
    simp only [text, hundredths_self pos]
    rfl
  · refine ⟨_, read_text less whole, ?_⟩
    have hmono : (hundredths less whole : Rat) ≤ hundredths part whole := by
      exact_mod_cast hundredths_mono pos hless
    linarith
  · have hwhole := cast_toNat_pos pos
    have hexact : (100 : Rat) * part.toNat / whole.toNat ≤ 100 := by
      rw [div_le_iff₀ hwhole]
      have : (part.toNat : Rat) ≤ whole.toNat := by exact_mod_cast UInt64.le_iff_toNat_le.mp le
      linarith
    have hsteps : |percent part whole - 100 * part.toNat / whole.toNat| ≤ 1 / 10 ^ 12 := by
      refine le_trans (off_percent pos) ?_
      linarith
    calc |(hundredths part whole : Rat) / 100 - 100 * part.toNat / whole.toNat|
        ≤ |(hundredths part whole : Rat) / 100 - percent part whole| +
            |percent part whole - 100 * part.toNat / whole.toNat| := abs_sub_le _ _ _
      _ ≤ 1 / 200 + 1 / 10 ^ 12 := add_le_add (abs_hundredths_sub_le part whole) hsteps
      _ = 0.005 + 1 / 10 ^ 12 := by norm_num

/-- Neither of these counts is a binary64 number. -/
theorem faithful_text_inexact :
    (9007199254740993 : UInt64) ≤ 18446744073709551615 ∧ (0 : UInt64) < 18446744073709551615 ∧
      text 9007199254740993 18446744073709551615 = "0.05%" ∧
      |(5 / 100 : Rat) - 100 * 9007199254740993 / 18446744073709551615| ≤
        0.005 + 1 / 10 ^ 12 := by
  have hle : (9007199254740993 : UInt64) ≤ 18446744073709551615 := by decide
  have hpos : (0 : UInt64) < 18446744073709551615 := by decide
  have htext : text 9007199254740993 18446744073709551615 = "0.05%" := by decide +kernel
  have hvalue : read "0.05%" = some (5 / 100) := by decide +kernel
  obtain ⟨p, hread, -, -, -, -, herror⟩ := faithful_text hle hpos
  rw [htext, hvalue] at hread
  obtain rfl := Option.some.inj hread
  exact ⟨hle, hpos, htext, herror⟩

end SharedLinks.Percent
