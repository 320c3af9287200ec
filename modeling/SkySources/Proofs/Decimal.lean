import Mathlib
import SkySources.Decimal.Text
import SkySources.Proofs.Count
import SkySources.Proofs.Double.Nearest
import SkySources.Proofs.Numeral

/-!
# Decimals and what they stand for

A finite double is a fraction, and so is a decimal. A double with a fixed count of digits after
the point is the nearest fraction on a decimal grid, and its text is read back digit by digit,
signs, carries and zeros included: no digit is lost, only those beyond the grid. The other way
round, a decimal becomes the nearest double, and a text means a float by the rules of numerals.

What is proved:
  1. `value_eq`, `value_ofInt`: the fraction of a double, and that of a whole number;
  2. `abs_value_atPlaces_sub_le`: rounding to a count of digits after the point moves a
     double by half a unit of the last one at most;
  3. `isAt_magnitudeToFloat`: a decimal becomes the nearest double;
  4. `decimalOf?_fixedText`: the text of a decimal reads as that decimal;
  5. `exists_decimalOf?_fixed`, `toInt?_integerText`: so the text of a finite double reads as the
     nearest decimal, and that of a whole number as that number;
  6. `float?_eq_some_iff`: which texts mean which floats.
-/

namespace SkySources

/-! ## Doubles as fractions -/

namespace Double

theorem isFinite_of_ofFloat? {x : Float} {b : Binary} (h : Binary.ofFloat? x = some b) :
    x.isFinite = true := by
  rw [ofFloat?_eq] at h
  change x.toModel.unpack.isFinite = true
  cases hx : x.toModel.unpack with
  | finite s m e hm => rfl
  | zero s => rfl
  | infinity s => rw [hx] at h; cases h
  | notANumber => rw [hx] at h; cases h

/-- The measure of a double, from its digits. -/
theorem exact_eq {x : Float} {b : Binary} (h : Binary.ofFloat? x = some b) :
    exact x = b.signed (b.significand * 2 ^ (b.exponent + 1074).toNat) := by
  rw [ofFloat?_eq] at h
  rw [exact]
  cases hx : x.toModel.unpack with
  | infinity s => rw [hx] at h; cases h
  | notANumber => rw [hx] at h; cases h
  | zero s =>
    rw [hx] at h
    cases h
    rw [Nat.zero_mul, Binary.signed]
    split <;> rfl
  | finite s m e hm =>
    rw [hx] at h
    cases h
    cases s <;> rfl

end Double

namespace Binary

/-- One with the sign of a number. -/
def unitSign (negative : Bool) : ℚ := if negative then -1 else 1

theorem abs_unitSign_mul (negative : Bool) (x : ℚ) : |unitSign negative * x| = |x| := by
  cases negative with
  | true => rw [unitSign, if_pos rfl, neg_one_mul, abs_neg]
  | false => rw [unitSign, if_neg Bool.false_ne_true, one_mul]

theorem signed_eq (b : Binary) (n : Nat) : (b.signed n : ℚ) = unitSign b.negative * n := by
  rw [signed, unitSign]
  split
  · rw [neg_one_mul, Int.cast_neg]
    rfl
  · rw [one_mul]
    rfl

theorem ratio_pos (b : Binary) : 0 < b.ratio.2 := Nat.two_pow_pos _

end Binary

namespace Double

open Binary

/-- A double stands for the fraction of its digits. -/
theorem value_eq {x : Float} {b : Binary} (h : Binary.ofFloat? x = some b) :
    value x = unitSign b.negative * (b.ratio.1 / b.ratio.2) := by
  have hlow := (place_eq_standing h).1
  have hpow : 2 ^ (b.exponent + 1074).toNat * 2 ^ (-b.exponent).toNat =
      2 ^ b.exponent.toNat * unit := by
    rw [← Nat.pow_add, ← two_pow_eq_unit (k := 1074) rfl, ← Nat.pow_add]
    congr 1
    omega
  have hden : (b.ratio.2 : ℚ) ≠ 0 := Nat.cast_ne_zero.2 b.ratio_pos.ne'
  rw [value, exact_eq h, signed_eq, mul_div_assoc]
  congr 1
  rw [div_eq_div_iff unit_ne_zero hden]
  have hscaled : b.significand * 2 ^ (b.exponent + 1074).toNat * b.ratio.2 = b.ratio.1 * unit := by
    simp only [ratio, Nat.pow_eq]
    rw [Nat.mul_assoc, hpow, Nat.mul_assoc]
  exact_mod_cast hscaled

/-- A whole number of so few digits is what its double stands for. -/
theorem value_ofInt {n : Int} (h : n.natAbs < 2 ^ 53) :
    (Float.ofInt n).isFinite = true ∧ value (Float.ofInt n) = n := by
  cases n with
  | ofNat n =>
    have hn : n < 2 ^ 53 := h
    refine ⟨isFinite_ofNat hn, ?_⟩
    change value (Float.ofNat n) = (n : Int)
    rw [value, exact_ofNat hn, Int.cast_mul, Int.cast_natCast, Int.cast_natCast,
      mul_div_cancel_right₀ _ unit_ne_zero]
  | negSucc n =>
    have hn : n + 1 < 2 ^ 53 := h
    have hfinite := isFinite_iff.1 (isFinite_ofNat hn)
    have hexact : exact (-Float.ofNat (n + 1)) = -exact (Float.ofNat (n + 1)) := by
      change measure (Float.Model.pack (Float.ofNat (n + 1)).toModel.unpack.neg).unpack = _
      rw [unpack_pack_of_canonical (canonical_neg (canonical_toModel _)), measure_neg, exact]
    constructor
    · change (-Float.ofNat (n + 1)).isFinite = true
      rw [isFinite_iff, place_neg, if_pos hfinite.2.le]
      omega
    · change value (-Float.ofNat (n + 1)) = _
      rw [value, hexact, exact_ofNat hn, Int.cast_neg, Int.cast_mul, Int.cast_natCast,
        Int.cast_natCast, neg_div, mul_div_cancel_right₀ _ unit_ne_zero, Int.negSucc_eq]
      push_cast
      ring

end Double

/-! ## Rounding on a decimal grid -/

namespace Decimal

open Binary

/-- The fraction that a decimal stands for. -/
def value (d : Decimal) : ℚ := unitSign d.negative * (d.digits * 10 ^ d.exponent)

/-- The nearest whole number is at most one half away from a fraction. -/
theorem abs_roundQuotient_sub_le (num : Nat) {den : Nat} (hden : 0 < den) :
    |(roundQuotient num den : ℚ) - num / den| ≤ 1 / 2 := by
  have hdiv := Nat.div_add_mod num den
  have hmod := Nat.mod_lt num hden
  have hsucc : den * (num / den + 1) = den * (num / den) + den := Nat.mul_succ _ _
  -- twice the numerator lies within one denominator of twice the multiple
  have hbounds : 2 * (den * roundQuotient num den) ≤ 2 * num + den ∧
      2 * num ≤ 2 * (den * roundQuotient num den) + den := by
    unfold roundQuotient
    simp only
    split_ifs <;> omega
  have hden' : (0 : ℚ) < den := Nat.cast_pos.2 hden
  have hlow : (2 : ℚ) * (den * roundQuotient num den) ≤ 2 * num + den := by
    exact_mod_cast hbounds.1
  have hhigh : (2 : ℚ) * num ≤ 2 * (den * roundQuotient num den) + den := by
    exact_mod_cast hbounds.2
  have hnum : (num : ℚ) = den * (num / den) := (mul_div_cancel₀ _ hden'.ne').symm
  rw [hnum] at hlow hhigh
  rw [abs_le]
  constructor <;> nlinarith

theorem unitsOf_places (num den places : Nat) :
    unitsOf num den (-(places : Int)) = roundQuotient (num * 10 ^ places) den := by
  rw [unitsOf, Int.neg_neg, Int.toNat_natCast, Int.toNat_neg_natCast, Nat.pow_eq, Nat.pow_eq,
    Nat.pow_zero, Nat.mul_one]

/-- Rounded to a count of digits after the point, a double moves by half a unit of the last one
at most. -/
theorem abs_value_atPlaces_sub_le {x : Float} {b : Binary} (h : Binary.ofFloat? x = some b)
    (places : Nat) :
    |(atPlaces places b).value - Double.value x| ≤ 1 / 2 * 10 ^ (-(places : Int)) := by
  have hgrid : (0 : ℚ) < 10 ^ places := pow_pos (by norm_num) places
  have hround := abs_roundQuotient_sub_le (b.ratio.1 * 10 ^ places) b.ratio_pos
  rw [Nat.cast_mul, Nat.cast_pow, Nat.cast_ofNat] at hround
  have hvalue : (atPlaces places b).value = unitSign b.negative *
      (roundQuotient (b.ratio.1 * 10 ^ places) b.ratio.2 * 10 ^ (-(places : Int))) := by
    rw [← unitsOf_places]
    rfl
  rw [hvalue, Double.value_eq h, ← mul_sub, abs_unitSign_mul, zpow_neg, zpow_natCast]
  have hscale : (roundQuotient (b.ratio.1 * 10 ^ places) b.ratio.2 : ℚ) * (10 ^ places)⁻¹ -
      b.ratio.1 / b.ratio.2 =
      (roundQuotient (b.ratio.1 * 10 ^ places) b.ratio.2 -
        b.ratio.1 * 10 ^ places / b.ratio.2) * (10 ^ places)⁻¹ := by
    field_simp
  rw [hscale, abs_mul, abs_of_pos (inv_pos.2 hgrid)]
  exact mul_le_mul_of_nonneg_right hround (inv_pos.2 hgrid).le

/-! ## The nearest double -/

/-- The magnitude of a decimal, as a fraction. -/
def size (d : Decimal) : ℚ := d.digits * 10 ^ d.exponent

theorem ten_zpow_pos (e : Int) : (0 : ℚ) < 10 ^ e := zpow_pos (by norm_num) e

theorem size_nonneg (d : Decimal) : 0 ≤ d.size :=
  mul_nonneg (Nat.cast_nonneg _) (ten_zpow_pos _).le

/-- The order of a decimal is that of its magnitude. -/
theorem size_between {d : Decimal} (h : d.digits ≠ 0) :
    10 ^ (d.order - 1) ≤ d.size ∧ d.size < 10 ^ d.order := by
  have hpos : 0 < width d.digits := List.length_pos_iff.2 Nat.toDigits_ne_nil
  have hhigh : d.digits < 10 ^ width d.digits := (Nat.length_toDigits_le_iff (by decide) hpos).1 le_rfl
  have hlow : 10 ^ (width d.digits - 1) ≤ d.digits := by
    rcases Nat.eq_zero_or_pos (width d.digits - 1) with hzero | hmore
    · rw [hzero]
      exact Nat.one_le_iff_ne_zero.2 h
    · by_contra hlt
      have hle := (Nat.length_toDigits_le_iff (by decide) hmore).2 (not_le.1 hlt)
      change width d.digits ≤ width d.digits - 1 at hle
      omega
  have hlow' : (10 : ℚ) ^ ((width d.digits : Int) - 1) ≤ d.digits := by
    have hcast : ((width d.digits : Int) - 1) = (width d.digits - 1 : Nat) := by omega
    rw [hcast, zpow_natCast]
    exact_mod_cast hlow
  have hhigh' : (d.digits : ℚ) < 10 ^ (width d.digits : Int) := by
    rw [zpow_natCast]
    exact_mod_cast hhigh
  have hsplit : d.order - 1 = ((width d.digits : Int) - 1) + d.exponent := by
    unfold order
    rw [Int.ofNat_eq_natCast]
    omega
  have hsplit' : d.order = (width d.digits : Int) + d.exponent := rfl
  rw [hsplit, hsplit', zpow_add₀ (by norm_num), zpow_add₀ (by norm_num), size]
  exact ⟨mul_le_mul_of_nonneg_right hlow' (ten_zpow_pos _).le,
    mul_lt_mul_of_pos_right hhigh' (ten_zpow_pos _)⟩

theorem ratio_eq_size (d : Decimal) :
    ((d.digits * 10 ^ d.exponent.toNat : Nat) : ℚ) / (10 ^ (-d.exponent).toNat : Nat) =
      d.size := by
  rw [size, Nat.cast_mul, Nat.cast_pow, Nat.cast_pow, Nat.cast_ofNat, mul_div_assoc]
  congr 1
  rcases le_total 0 d.exponent with h | h
  · obtain ⟨n, hn⟩ := Int.eq_ofNat_of_zero_le h
    rw [hn, Int.toNat_natCast, Int.toNat_neg_natCast, pow_zero, div_one, zpow_natCast]
  · obtain ⟨n, hn⟩ := Int.exists_eq_neg_ofNat h
    rw [hn, Int.neg_neg, Int.toNat_natCast, Int.toNat_neg_natCast, pow_zero, zpow_neg,
      zpow_natCast, one_div]

/-- A magnitude becomes the nearest double. What is next to zero or beyond the doubles is told by
its order. -/
theorem isAt_magnitudeToFloat (d : Decimal) : Double.IsAt d.size d.magnitudeToFloat := by
  unfold magnitudeToFloat
  split
  · next h =>
    apply Double.isAt_zero
    by_cases hzero : d.digits = 0
    · rw [size, hzero, Nat.cast_zero, zero_mul, zero_mul, mul_zero]
      exact zero_lt_one
    · have horder := h.resolve_left hzero
      have hlt : d.size < 10 ^ (-330 : Int) :=
        (size_between hzero).2.trans_le (zpow_le_zpow_right₀ (by norm_num) horder.le)
      have hunit : (Double.unit : ℚ) ≤ 10 ^ (324 : Int) := by
        have hnat : Double.unit ≤ 10 ^ 324 := by decide +kernel
        exact_mod_cast hnat
      calc 2 * (d.size * Double.unit) ≤ 2 * (10 ^ (-330 : Int) * 10 ^ (324 : Int)) :=
            mul_le_mul_of_nonneg_left (mul_le_mul hlt.le hunit (Nat.cast_nonneg _)
              (ten_zpow_pos _).le) zero_le_two
        _ = 2 * 10 ^ (-6 : Int) := by rw [← zpow_add₀ (by norm_num)]; rfl
        _ < 1 := by norm_num
  · next h =>
    rw [not_or] at h
    split
    · next horder =>
      apply Double.isAt_infinity
      have hlimit : (Double.wholeLimit : ℚ) ≤ 10 ^ (310 : Int) := by
        have hnat : Double.wholeLimit ≤ 10 ^ 310 := by decide +kernel
        exact_mod_cast hnat
      exact hlimit.trans ((zpow_le_zpow_right₀ (by norm_num) (by omega)).trans
        (size_between h.1).1)
    · have hden : 0 < Nat.pow 10 (-d.exponent).toNat := Nat.pow_pos (by decide)
      rw [← ratio_eq_size]
      exact Double.isAt_ofRatio hden _

end Decimal

/-! ## Reading digits -/

namespace Text

/-- The decimal that a text stands for. Blanks around it do not matter, and a sign may come
first. -/
def decimalOf? (text : String) : Option Decimal :=
  let (negative, cs) := signed (trimmedNumber text.toList)
  decimal? negative cs

variable {c : Char} {cs rest : List Char}

theorem toNat_of_isDigit (h : c.isDigit = true) : 48 ≤ c.toNat ∧ c.toNat ≤ 57 := by
  simp only [Char.isDigit, Bool.and_eq_true, decide_eq_true_eq] at h
  exact h

/-- What a common digit counts. -/
def digitValue (c : Char) : Nat := c.toNat - '0'.toNat

/-- Common digits spell themselves. -/
theorem spells_of_isDigit (hne : cs ≠ []) (h : ∀ c ∈ cs, c.isDigit = true) :
    Spells cs (cs.map digitValue) := by
  have hdigit {c : Char} (hc : c.isDigit = true) : IsDigitOf c (digitValue c) := by
    obtain ⟨hlow, hhigh⟩ := toNat_of_isDigit hc
    have hvalue : digitValue c = c.toNat - 48 := rfl
    exact ⟨by omega, 0x30, List.mem_cons_self, by omega⟩
  induction cs with
  | nil => exact absurd rfl hne
  | cons c cs ih =>
    have hc := hdigit (h c List.mem_cons_self)
    cases cs with
    | nil => exact .last hc
    | cons c' cs =>
      exact .more hc (ih (List.cons_ne_nil _ _) fun x hx => h x (List.mem_cons_of_mem c hx))

theorem digits_append (hne : cs ≠ []) (h : ∀ c ∈ cs, c.isDigit = true) (hrest : Ends rest) :
    digits digit? (cs ++ rest) = (cs.map digitValue, rest) :=
  digits_complete (.inr (spells_of_isDigit hne h)) hrest

theorem number_map (cs : List Char) :
    number 10 (cs.map digitValue) = Nat.ofDigitChars 10 cs 0 := by
  simp only [number, List.foldl_map, digitValue, Nat.ofDigitChars, Nat.mul_comm]

theorem isNumberBlank_of_isDigit (h : c.isDigit = true) : isNumberBlank c = false :=
  (spells_of_isDigit (List.cons_ne_nil c []) (List.forall_mem_singleton.2 h)).solid c
    List.mem_cons_self

theorem trimmedNumber_eq (h : ∀ c ∈ cs, isNumberBlank c = false) : trimmedNumber cs = cs := by
  have hstripped := stripped_append (List.forall_mem_nil _) (List.forall_mem_nil _) h
  rwa [List.nil_append, List.append_nil] at hstripped

/-- Digits, a point and digits are read as one number. -/
theorem decimal?_point {whole part : List Char} (hwhole : ∀ c ∈ whole, c.isDigit = true)
    (hpart : ∀ c ∈ part, c.isDigit = true) (hne : whole ≠ []) (hne' : part ≠ [])
    (negative : Bool) : decimal? negative (whole ++ '.' :: part) =
      some ⟨negative, Nat.ofDigitChars 10 (whole ++ part) 0, -(part.length : Int)⟩ := by
  have hfront := digits_append hne hwhole (show Ends ('.' :: part) from rfl)
  have hback := digits_append hne' hpart ends_nil
  rw [List.append_nil] at hback
  have hsome : ¬((whole.map digitValue).isEmpty = true ∧ (part.map digitValue).isEmpty = true) := by
    rw [List.isEmpty_iff, List.map_eq_nil_iff]
    exact fun h => hne h.1
  simp only [decimal?, hfront, fraction, hback, if_neg hsome, exponent?, Option.map_some]
  rw [← List.map_append, number_map, List.length_map, Int.ofNat_eq_natCast, Int.zero_sub]

/-- A minus sign is read before a digit. -/
theorem signed_signText (h : ∀ c ∈ cs.head?, c.isDigit = true) (negative : Bool) :
    signed ((Decimal.signText negative).toList ++ cs) = (negative, cs) := by
  have hsign : IsSign (Decimal.signText negative).toList negative := by
    cases negative with
    | true => exact .minus
    | false => exact .none
  apply hsign.signed_append
  intro c hc
  have hdigit := h c hc
  constructor
  · rintro rfl
    cases hdigit
  · rintro rfl
    cases hdigit

end Text

/-! ## The text of a decimal -/

namespace Decimal

open Text

/-- The digits behind a point: those of a number, with zeros before them. -/
def fractionDigits (places n : Nat) : List Char :=
  List.replicate (places - (Nat.toDigits 10 n).length) '0' ++ Nat.toDigits 10 n

section Digits
variable {places n : Nat}

theorem isDigit_of_mem_toDigits {c : Char} (h : c ∈ Nat.toDigits 10 n) : c.isDigit = true :=
  Nat.isDigit_of_mem_toDigits (by decide) (by decide) h

theorem isDigit_of_mem_fractionDigits (places n : Nat) :
    ∀ c ∈ fractionDigits places n, c.isDigit = true := by
  intro c hc
  rcases List.mem_append.1 hc with hc | hc
  · rw [(List.mem_replicate.1 hc).2]
    rfl
  · exact isDigit_of_mem_toDigits hc

theorem length_fractionDigits (hplaces : 0 < places) (h : n < 10 ^ places) :
    (fractionDigits places n).length = places := by
  have hlength := (Nat.length_toDigits_le_iff (by decide) hplaces).2 h
  rw [fractionDigits, List.length_append, List.length_replicate]
  omega

theorem ofDigitChars_fractionDigits : Nat.ofDigitChars 10 (fractionDigits places n) 0 = n := by
  rw [fractionDigits, Nat.ofDigitChars_append, Nat.ofDigitChars_replicate_zero, Nat.mul_zero,
    Nat.ofDigitChars_toDigits (by decide) (by decide)]

end Digits

/-- The characters of a decimal with digits behind the point. -/
theorem toList_fixedText {places : Nat} (hplaces : places ≠ 0) (d : Decimal) :
    (fixedText places d).toList = (signText d.negative).toList ++
      (Nat.toDigits 10 (d.digits / 10 ^ places) ++
        '.' :: fractionDigits places (d.digits % 10 ^ places)) := by
  rw [fixedText, if_neg hplaces]
  simp only [String.toList_append, String.length_ofList, digitsText, zeros, String.toList_ofList,
    Nat.pow_eq, fractionDigits, List.append_assoc]
  rfl

/-- A character that decimals are written with. -/
def isNumeral (c : Char) : Bool := c.isDigit || c == '-' || c == '.'

theorem isNumeral_of_isDigit {c : Char} (h : c.isDigit = true) : isNumeral c = true := by
  rw [isNumeral, h]
  rfl

theorem isNumberBlank_of_isNumeral {c : Char} (h : isNumeral c = true) :
    isNumberBlank c = false := by
  simp only [isNumeral, Bool.or_eq_true, beq_iff_eq] at h
  rcases h with (h | rfl) | rfl
  · exact isNumberBlank_of_isDigit h
  · rfl
  · rfl

theorem isNumeral_of_mem_signText {negative : Bool} :
    ∀ c ∈ (signText negative).toList, isNumeral c = true := by
  intro c hc
  cases negative with
  | true =>
    rw [List.mem_singleton.1 (show c ∈ ['-'] from hc)]
    rfl
  | false => cases (show c ∈ [] from hc)

theorem isNumeral_of_mem_fixedText {places : Nat} (hplaces : places ≠ 0) {d : Decimal} :
    ∀ c ∈ (fixedText places d).toList, isNumeral c = true := by
  intro c hc
  rw [toList_fixedText hplaces, List.mem_append, List.mem_append, List.mem_cons] at hc
  rcases hc with hc | hc | rfl | hc
  · exact isNumeral_of_mem_signText c hc
  · exact isNumeral_of_isDigit (isDigit_of_mem_toDigits hc)
  · rfl
  · exact isNumeral_of_isDigit (isDigit_of_mem_fractionDigits _ _ c hc)

/-- The text of a decimal reads as that decimal. -/
theorem decimalOf?_fixedText {places : Nat} (hplaces : 0 < places) {d : Decimal}
    (h : d.exponent = -(places : Int)) : decimalOf? (fixedText places d) = some d := by
  have hgrid : 0 < 10 ^ places := Nat.pow_pos (by decide)
  have hwhole : ∀ c ∈ Nat.toDigits 10 (d.digits / 10 ^ places), c.isDigit = true :=
    fun c => isDigit_of_mem_toDigits
  have hpart := isDigit_of_mem_fractionDigits places (d.digits % 10 ^ places)
  have hne : Nat.toDigits 10 (d.digits / 10 ^ places) ≠ [] := Nat.toDigits_ne_nil
  have hlength := length_fractionDigits hplaces (Nat.mod_lt d.digits hgrid)
  have hne' : fractionDigits places (d.digits % 10 ^ places) ≠ [] := by
    apply List.ne_nil_of_length_pos
    omega
  have hhead : ∀ c ∈ (Nat.toDigits 10 (d.digits / 10 ^ places) ++
      '.' :: fractionDigits places (d.digits % 10 ^ places)).head?, c.isDigit = true := by
    intro c hc
    rw [List.head?_append_of_ne_nil _ hne] at hc
    exact hwhole c (List.mem_of_mem_head? hc)
  -- in front of the point stands the quotient by the grid, and behind it the remainder
  have hnumber : Nat.ofDigitChars 10 (Nat.toDigits 10 (d.digits / 10 ^ places) ++
      fractionDigits places (d.digits % 10 ^ places)) 0 = d.digits := by
    rw [Nat.ofDigitChars_append, Nat.ofDigitChars_toDigits (by decide) (by decide),
      Nat.ofDigitChars_eq_ofDigitChars_zero, hlength, ofDigitChars_fractionDigits]
    exact Nat.div_add_mod _ _
  have htrimmed := trimmedNumber_eq fun c hc =>
    isNumberBlank_of_isNumeral (isNumeral_of_mem_fixedText hplaces.ne' (d := d) c hc)
  rw [decimalOf?, htrimmed, toList_fixedText hplaces.ne',
    signed_signText hhead]
  simp only
  rw [decimal?_point hwhole hpart hne hne', hnumber, hlength, ← h]

/-! ## The text of a double and of a whole number -/

/-- A finite double with a fixed count of digits behind the point reads as a decimal that is half
a unit of the last digit away from it at most. -/
theorem exists_decimalOf?_fixed {places : Nat} (hplaces : 0 < places) {x : Float}
    (h : x.isFinite = true) : ∃ d, decimalOf? (fixed places x) = some d ∧
      |d.value - Double.value x| ≤ 1 / 2 * 10 ^ (-(places : Int)) := by
  obtain ⟨b, hb⟩ := Double.exists_ofFloat? h
  refine ⟨atPlaces places b, ?_, abs_value_atPlaces_sub_le hb places⟩
  rw [fixed, orWord, hb]
  exact decimalOf?_fixedText hplaces rfl

theorem fixed_of_not_isFinite (places : Nat) {x : Float} (h : x.isFinite = false) :
    fixed places x = "-inf" ∨ fixed places x = "inf" ∨ fixed places x = "nan" := by
  rw [fixed, orWord]
  cases hx : Binary.ofFloat? x with
  | some b =>
    rw [Double.isFinite_of_ofFloat? hx] at h
    cases h
  | none =>
    simp only
    split_ifs
    · exact .inl rfl
    · exact .inr (.inl rfl)
    · exact .inr (.inr rfl)

/-- A double that is not finite does not read as a decimal. -/
theorem decimalOf?_fixed_eq_none {places : Nat} {x : Float} (h : x.isFinite = false) :
    decimalOf? (fixed places x) = none := by
  rcases fixed_of_not_isFinite places h with hx | hx | hx <;> rw [hx] <;> rfl

theorem integerText_eq_repr (n : Int) : integerText n = n.repr := by
  rw [integerText, digitsText, Int.repr_eq_if]
  by_cases h : n < 0
  · have habs : (-n).toNat = n.natAbs := by omega
    rw [decide_eq_true h, if_neg (not_le.2 h), habs, Nat.repr_eq_ofList_toDigits]
    rfl
  · have habs : n.toNat = n.natAbs := by omega
    rw [decide_eq_false h, if_pos (not_lt.1 h), habs, Nat.repr_eq_ofList_toDigits]
    exact String.empty_append

/-- The text of a whole number reads as that number. -/
theorem toInt?_integerText (n : Int) : (integerText n).toInt? = some n := by
  rw [integerText_eq_repr, Int.toInt?_repr]

theorem isNumeral_of_mem_integerText {n : Int} :
    ∀ c ∈ (integerText n).toList, isNumeral c = true := by
  intro c hc
  rw [integerText, digitsText, String.toList_append, String.toList_ofList, List.mem_append] at hc
  rcases hc with hc | hc
  · exact isNumeral_of_mem_signText c hc
  · exact isNumeral_of_isDigit (isDigit_of_mem_toDigits hc)

end Decimal

/-! ## Floats in text -/

namespace Text

/-- The characters are a float without its sign: the word for a missing number or for infinity,
in small or capital letters, or a decimal, which means the nearest double. -/
inductive IsMagnitude : List Char → Float → Prop where
  | missing {cs : List Char} : cs.map Char.toLower = ['n', 'a', 'n'] → IsMagnitude cs (0.0 / 0.0)
  | infinite {cs : List Char} :
      cs.map Char.toLower = ['i', 'n', 'f'] ∨
        cs.map Char.toLower = ['i', 'n', 'f', 'i', 'n', 'i', 't', 'y'] →
      IsMagnitude cs (1.0 / 0.0)
  | decimal {cs : List Char} {q : ℚ} {x : Float} :
      IsDecimal cs q → Double.IsNearest q x → IsMagnitude cs x

/-- The text is a numeral of a float. -/
def IsFloat (text : String) (x : Float) : Prop :=
  ∃ negative body y, Wraps text negative body ∧ IsMagnitude body y ∧ x = if negative then -y else y

theorem isPlain_of_mem_missing : ∀ w ∈ ['n', 'a', 'n'], IsPlain w := isPlain_of_all (by decide)

theorem isPlain_of_mem_infinity : (∀ w ∈ ['i', 'n', 'f'], IsPlain w) ∧
    ∀ w ∈ ['i', 'n', 'f', 'i', 'n', 'i', 't', 'y'], IsPlain w :=
  ⟨isPlain_of_all (by decide), isPlain_of_all (by decide)⟩

/-- A decimal is no word. -/
theorem IsDecimal.lower_ne {cs : List Char} {q : ℚ} (h : IsDecimal cs q) {word : List Char}
    (hword : ∀ w ∈ word, IsPlain w) : lower cs ≠ word := by
  obtain ⟨c, rest, rfl, hc⟩ := h.exists_head
  rintro rfl
  have hplain : IsPlain c.toLower := hword _ List.mem_cons_self
  rcases hc with rfl | ⟨d, hd⟩
  · exact absurd hplain (by decide)
  · exact hd.not_isPlain hplain

theorem IsMagnitude.isBody {cs : List Char} {x : Float} (h : IsMagnitude cs x) : IsBody cs := by
  cases h with
  | missing h => exact isBody_of_word h isPlain_of_mem_missing
  | infinite h =>
    rcases h with h | h
    · exact isBody_of_word h isPlain_of_mem_infinity.1
    · exact isBody_of_word h isPlain_of_mem_infinity.2
  | decimal h => exact h.isBody

/-- The sign of a missing number does not show, and that of infinity does. -/
theorem neg_missing : (-(0.0 / 0.0) : Float) = 0.0 / 0.0 := by
  apply congrArg Float.ofModel
  decide +kernel

theorem neg_infinity : (-(1.0 / 0.0) : Float) = -1.0 / 0.0 := by
  apply congrArg Float.ofModel
  decide +kernel

/-- A decimal means the nearest double, behind its sign. -/
theorem IsDecimal.isNearest_iff {cs : List Char} {q : ℚ} (h : IsDecimal cs q) (negative : Bool) :
    ∃ d, decimal? negative cs = some d ∧ ∀ y, Double.IsNearest q y ↔
      y = d.magnitudeToFloat ∧ d.toFloat = if negative then -y else y := by
  obtain ⟨d, hd, rfl, rfl⟩ := decimal?_complete h negative
  refine ⟨d, hd, fun y => ?_⟩
  have hnearest := (Decimal.isAt_magnitudeToFloat d).isNearest_iff d.size_nonneg (y := y)
  rw [Decimal.size] at hnearest
  rw [hnearest, iff_self_and]
  rintro rfl
  rfl

theorem float?_of_signed {text : String} {negative : Bool} {cs : List Char}
    (h : signed (trimmedNumber text.toList) = (negative, cs)) {x : Float} :
    float? text = some x ↔ ∃ y, IsMagnitude cs y ∧ x = if negative then -y else y := by
  have hnan : String.ofList (lower cs) = "nan" ↔ lower cs = ['n', 'a', 'n'] := String.ofList_inj
  have hinf : String.ofList (lower cs) = "inf" ↔ lower cs = ['i', 'n', 'f'] := String.ofList_inj
  have hinfinity : String.ofList (lower cs) = "infinity" ↔
      lower cs = ['i', 'n', 'f', 'i', 'n', 'i', 't', 'y'] := String.ofList_inj
  simp only [float?, h, hnan, hinf, hinfinity]
  constructor
  · intro hx
    split at hx
    · next hword =>
      refine ⟨_, .missing hword, ?_⟩
      rw [neg_missing, ite_self, ← Option.some.inj hx]
    · split at hx
      · next hword =>
        refine ⟨_, .infinite hword, ?_⟩
        rw [neg_infinity, ← Option.some.inj hx]
      · obtain ⟨d, hd, rfl⟩ := Option.map_eq_some_iff.1 hx
        obtain ⟨rfl, hdecimal⟩ := decimal?_sound hd
        exact ⟨_, .decimal hdecimal
          ((Decimal.isAt_magnitudeToFloat d).isNearest d.size_nonneg), rfl⟩
  · intro hx
    obtain ⟨y, hy, rfl⟩ := hx
    cases hy with
    | missing hword =>
      have hword : lower cs = ['n', 'a', 'n'] := hword
      rw [if_pos hword, neg_missing, ite_self]
    | infinite hword =>
      have hword : lower cs = ['i', 'n', 'f'] ∨
        lower cs = ['i', 'n', 'f', 'i', 'n', 'i', 't', 'y'] := hword
      have hne : ¬lower cs = ['n', 'a', 'n'] := by
        intro heq
        rw [heq] at hword
        simp at hword
      rw [if_neg hne, if_pos hword, neg_infinity]
    | decimal hdecimal hnearest =>
      obtain ⟨d, hd, hiff⟩ := hdecimal.isNearest_iff negative
      have hinfinite := not_or.2 ⟨hdecimal.lower_ne isPlain_of_mem_infinity.1,
        hdecimal.lower_ne isPlain_of_mem_infinity.2⟩
      rw [if_neg (hdecimal.lower_ne isPlain_of_mem_missing), if_neg hinfinite, hd, Option.map_some,
        ((hiff y).1 hnearest).2]

theorem float?_eq_some_iff {text : String} {x : Float} : float? text = some x ↔ IsFloat text x := by
  constructor
  · intro h
    obtain ⟨y, hy, rfl⟩ := (float?_of_signed rfl).1 h
    exact ⟨_, _, y, wraps_of_signed rfl, hy, rfl⟩
  · intro h
    obtain ⟨negative, body, y, hwraps, hy, rfl⟩ := h
    exact (float?_of_signed (hwraps.signed_eq hy.isBody)).2 ⟨y, hy, rfl⟩

end Text
end SkySources
