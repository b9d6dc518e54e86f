import Mathlib.Algebra.Order.Field.Rat
import Mathlib.Data.List.DropRight
import Mathlib.Data.Nat.Digits.Defs
import Mathlib.Tactic.FieldSimp
import Mathlib.Tactic.LinearCombination
import Mathlib.Tactic.Positivity
import Mathlib.Tactic.Ring

/-!
# Exact decimals

A decimal is an integer coefficient and a number of digits after the point.  Different
decimals have the same value (`1.5` and `1.50`), so the facts below are about `value`: two
decimals on a common scale compare as their coefficients do (`scaleTo_lt`, `scaleTo_eq`),
and the text of a decimal depends on its value alone (`text_congr`).

`Written` is a decimal as it is written, without a superfluous zero.  The written decimals
are the texts (`text_decimal`, `exists_written`).
-/

/-- `coefficient * 10 ^ -scale`. -/
structure Decimal where
  coefficient : Int
  scale : Nat
deriving DecidableEq, Repr

namespace Decimal

variable {a b d : Decimal} {s : Nat}

def value (d : Decimal) : ℚ := d.coefficient / 10 ^ d.scale

/-- The coefficient on a finer scale. -/
def scaleTo (d : Decimal) (scale : Nat) : Int := d.coefficient * 10 ^ (scale - d.scale)

theorem scaleTo_value (h : d.scale ≤ s) : (d.scaleTo s : ℚ) = d.value * 10 ^ s := by
  obtain ⟨k, rfl⟩ := Nat.exists_eq_add_of_le h
  rw [scaleTo, value, Nat.add_sub_cancel_left, pow_add]
  push_cast
  field_simp

theorem value_eq_scaleTo (h : d.scale ≤ s) : d.value = d.scaleTo s / 10 ^ s := by
  rw [scaleTo_value h]
  field_simp

theorem scaleTo_lt (ha : a.scale ≤ s) (hb : b.scale ≤ s) :
    a.scaleTo s < b.scaleTo s ↔ a.value < b.value := by
  rw [← Int.cast_lt (R := ℚ), scaleTo_value ha, scaleTo_value hb]
  exact mul_lt_mul_iff_left₀ (by positivity)

theorem scaleTo_eq (ha : a.scale ≤ s) (hb : b.scale ≤ s) :
    a.scaleTo s = b.scaleTo s ↔ a.value = b.value := by
  rw [← Int.cast_inj (α := ℚ), scaleTo_value ha, scaleTo_value hb]
  exact mul_left_inj' (by positivity)

/-- A number of steps on a common scale. -/
theorem scaleTo_steps {origin step : Decimal} {n : Int} (hd : d.scale ≤ s)
    (horigin : origin.scale ≤ s) (hstep : step.scale ≤ s) :
    d.scaleTo s - origin.scaleTo s = step.scaleTo s * n ↔
      d.value = origin.value + n * step.value := by
  have hpos : (10 : ℚ) ^ s ≠ 0 := by positivity
  rw [← Int.cast_inj (α := ℚ)]
  push_cast
  rw [scaleTo_value hd, scaleTo_value horigin, scaleTo_value hstep]
  constructor
  · intro h
    have hmul : d.value * 10 ^ s = (origin.value + n * step.value) * 10 ^ s := by
      linear_combination h
    exact mul_right_cancel₀ hpos hmul
  · intro h
    rw [h]
    ring

/-! ## Text -/

/-- The digits of a number, before and after the point. -/
def digits (d : Decimal) : List Char :=
  (Nat.toDigits 10 d.coefficient.natAbs).leftpad (d.scale + 1) '0'

def integerDigits (d : Decimal) : List Char := d.digits.take (d.digits.length - d.scale)

/-- The digits after the point, without the zeros at their end. -/
def fractionDigits (d : Decimal) : List Char :=
  (d.digits.drop (d.digits.length - d.scale)).rdropWhile (· = '0')

/-- A sign, digits, and a fraction if there is one. -/
def write (negative : Bool) (integer fraction : List Char) : List Char :=
  (if negative then ['-'] else []) ++ integer ++ if fraction = [] then [] else '.' :: fraction

/-- The text of a decimal, without a superfluous zero. -/
def text (d : Decimal) : List Char :=
  write (d.coefficient < 0) d.integerDigits d.fractionDigits

/-! ### Digits -/

/-- Only digits. -/
def AllDigits (l : List Char) : Prop := ∀ ch ∈ l, ch.isDigit = true

instance (l : List Char) : Decidable (AllDigits l) :=
  inferInstanceAs (Decidable (∀ ch ∈ l, ch.isDigit = true))

theorem AllDigits.nil : AllDigits [] := fun _ hch => absurd hch List.not_mem_nil

theorem AllDigits.zero : AllDigits ['0'] := by
  intro ch hch
  rw [List.mem_singleton.mp hch]
  rfl

theorem allDigits_toDigits (n : Nat) : AllDigits (Nat.toDigits 10 n) :=
  fun _ hmem => Nat.isDigit_of_mem_toDigits (by omega) (by omega) hmem

theorem digit_val {ch : Char} (h : ch.isDigit = true) : ch.toNat - '0'.toNat < 10 ∧
    Nat.digitChar (ch.toNat - '0'.toNat) = ch := by
  obtain ⟨hlow, hhigh⟩ := Char.isDigit_iff_toNat.mp h
  change 48 ≤ ch.toNat at hlow
  change ch.toNat ≤ 57 at hhigh
  change ch.toNat - 48 < 10 ∧ Nat.digitChar (ch.toNat - 48) = ch
  have hall : ∀ k : Fin 10, Nat.digitChar k = Char.ofNat (k + 48) := by decide
  have hch := hall ⟨ch.toNat - 48, by omega⟩
  dsimp only at hch
  rw [Nat.sub_add_cancel hlow, Char.ofNat_toNat] at hch
  exact ⟨by omega, hch⟩

theorem ofDigitChars_snoc (l : List Char) (ch : Char) : Nat.ofDigitChars 10 (l ++ [ch]) 0 =
    10 * Nat.ofDigitChars 10 l 0 + (ch.toNat - '0'.toNat) := by
  rw [Nat.ofDigitChars_append, Nat.ofDigitChars_cons, Nat.ofDigitChars_nil]

theorem toDigits_snoc {n k : Nat} (hn : 0 < n) (hk : k < 10) :
    Nat.toDigits 10 (10 * n + k) = Nat.toDigits 10 n ++ [Nat.digitChar k] := by
  rw [← Nat.toDigits_append_toDigits (by omega) hn hk, Nat.toDigits_of_lt_base hk]

theorem leftpad_snoc (n : Nat) (ch last : Char) (l : List Char) :
    (l ++ [last]).leftpad (n + 1) ch = l.leftpad n ch ++ [last] := by
  simp [List.leftpad]

theorem leftpad_zero (n : Nat) : List.leftpad (n + 1) '0' ['0'] = List.replicate (n + 1) '0' := by
  rw [List.leftpad, List.length_singleton, Nat.add_sub_cancel, ← List.replicate_succ']

/-- A digit string is the number it stands for, padded to its length. -/
theorem leftpad_toDigits {l : List Char} (h : AllDigits l) (hne : l ≠ []) :
    (Nat.toDigits 10 (Nat.ofDigitChars 10 l 0)).leftpad l.length '0' = l := by
  induction l using List.reverseRecOn with
  | nil => exact absurd rfl hne
  | append_singleton l ch ih =>
      have hl : AllDigits l := fun c hc => h c (List.mem_append_left _ hc)
      obtain ⟨hlt, hch⟩ := digit_val (h ch (List.mem_append_right _ (List.mem_singleton_self ch)))
      rw [ofDigitChars_snoc, List.length_append, List.length_singleton]
      cases Nat.eq_zero_or_pos (Nat.ofDigitChars 10 l 0) with
      | inl hzero =>
          have hzeros : l = List.replicate l.length '0' := by
            cases l with
            | nil => rfl
            | cons first rest =>
                have hpad := ih hl (List.cons_ne_nil _ _)
                rw [hzero, Nat.toDigits_zero] at hpad
                rw [← hpad]
                simp [List.leftpad, ← List.replicate_succ']
          rw [hzero, Nat.mul_zero, Nat.zero_add, Nat.toDigits_of_lt_base hlt, hch]
          have hpad := leftpad_snoc l.length '0' ch []
          rw [List.nil_append] at hpad
          rw [hpad]
          congr 1
          rw [List.leftpad, List.length_nil, Nat.sub_zero, List.append_nil]
          exact hzeros.symm
      | inr hpos =>
          have hlne : l ≠ [] := by
            rintro rfl
            exact absurd hpos (lt_irrefl 0)
          rw [toDigits_snoc hpos hlt, hch, leftpad_snoc, ih hl hlne]

/-- The digits of a positive number do not start with a zero. -/
theorem head_toDigits {n : Nat} (hn : 0 < n) : (Nat.toDigits 10 n).head? ≠ some '0' := by
  induction n using Nat.strong_induction_on with
  | _ n ih =>
      by_cases hsmall : n < 10
      · rw [Nat.toDigits_of_lt_base hsmall]
        intro h
        have hzero := Nat.digitChar_eq_zero.mp (Option.some.inj h)
        omega
      · rw [Nat.toDigits_of_base_le (by omega) (by omega),
          List.head?_append_of_ne_nil _ Nat.toDigits_ne_nil]
        exact ih (n / 10) (by omega) (by omega)

/-! ### Written decimals -/

/-- A decimal as it is written. -/
structure Written where
  negative : Bool
  integer : List Char
  fraction : List Char
  integer_digits : AllDigits integer
  fraction_digits : AllDigits fraction
  integer_ne_nil : integer ≠ []
  /-- No zero before another digit. -/
  no_leading : integer = ['0'] ∨ integer.head? ≠ some '0'
  /-- No zero at the end of the fraction. -/
  no_trailing : fraction.getLast? ≠ some '0'
  /-- Zero has no sign. -/
  no_minus : negative = true → integer = ['0'] → fraction ≠ []

namespace Written

def chars (w : Written) : List Char := write w.negative w.integer w.fraction

/-- The number its digits stand for. -/
def magnitude (w : Written) : Nat := Nat.ofDigitChars 10 (w.integer ++ w.fraction) 0

def decimal (w : Written) : Decimal where
  coefficient := if w.negative then -(w.magnitude : Int) else w.magnitude
  scale := w.fraction.length

variable (w : Written)

theorem allDigits : AllDigits (w.integer ++ w.fraction) := fun ch hmem =>
  (List.mem_append.mp hmem).elim (w.integer_digits ch) (w.fraction_digits ch)

theorem natAbs_coefficient : w.decimal.coefficient.natAbs = w.magnitude := by
  rw [decimal]
  dsimp only
  split <;> omega

theorem digits_decimal : w.decimal.digits = w.integer ++ w.fraction := by
  have hpad := leftpad_toDigits w.allDigits (List.append_ne_nil_of_left_ne_nil w.integer_ne_nil _)
  rw [digits, natAbs_coefficient]
  change (Nat.toDigits 10 w.magnitude).leftpad (w.fraction.length + 1) '0' = _
  rcases w.no_leading with hzero | hhead
  · have hlen : (w.integer ++ w.fraction).length = w.fraction.length + 1 := by
      rw [List.length_append, hzero, List.length_singleton, Nat.add_comm]
    rw [← hlen]
    exact hpad
  · -- nothing was padded, as a padded zero would come first
    have hsame : Nat.toDigits 10 w.magnitude = w.integer ++ w.fraction := by
      rw [← hpad]
      by_cases hlen : (w.integer ++ w.fraction).length ≤ (Nat.toDigits 10 w.magnitude).length
      · rw [List.leftpad]
        change _ = List.replicate (_ - (Nat.toDigits 10 w.magnitude).length) '0' ++ _
        rw [Nat.sub_eq_zero_of_le hlen]
        rfl
      · refine absurd ?_ hhead
        obtain ⟨k, hk⟩ : ∃ k, (w.integer ++ w.fraction).length -
            (Nat.toDigits 10 w.magnitude).length = k + 1 := ⟨_, (Nat.succ_pred (by omega)).symm⟩
        have happend : (w.integer ++ w.fraction).head? = w.integer.head? :=
          List.head?_append_of_ne_nil _ w.integer_ne_nil
        rw [← happend, ← hpad]
        change (List.replicate (_ - (Nat.toDigits 10 w.magnitude).length) '0' ++ _).head? = _
        rw [hk]
        rfl
    have hlong : w.fraction.length + 1 ≤ (w.integer ++ w.fraction).length := by
      have := List.length_pos_of_ne_nil w.integer_ne_nil
      rw [List.length_append]
      omega
    rw [hsame, List.leftpad, Nat.sub_eq_zero_of_le hlong]
    rfl

theorem magnitude_pos (hneg : w.negative = true) : 0 < w.magnitude := by
  refine Nat.pos_of_ne_zero fun hzero => ?_
  have hdigits := w.digits_decimal
  rw [digits, natAbs_coefficient, hzero, Nat.toDigits_zero, leftpad_zero] at hdigits
  have hall : ∀ ch ∈ w.integer ++ w.fraction, ch = '0' := fun ch hmem => by
    rw [← hdigits] at hmem
    exact List.eq_of_mem_replicate hmem
  have hinteger : w.integer = ['0'] := by
    refine w.no_leading.resolve_right fun hhead => ?_
    obtain ⟨ch, rest, heq⟩ := List.exists_cons_of_ne_nil w.integer_ne_nil
    rw [heq] at hhead
    exact hhead (congrArg some (hall ch (by rw [heq]; exact List.mem_cons_self)))
  obtain ⟨ch, hlast⟩ := Option.ne_none_iff_exists'.mp fun hnone =>
    w.no_minus hneg hinteger (List.getLast?_eq_none_iff.mp hnone)
  refine w.no_trailing (hlast.trans (congrArg some (hall ch ?_)))
  exact List.mem_append_right _ (List.mem_of_getLast? hlast)

theorem negative_iff : w.decimal.coefficient < 0 ↔ w.negative = true := by
  rw [decimal]
  dsimp only
  cases hneg : w.negative with
  | true =>
      have hpos := w.magnitude_pos hneg
      simpa using hpos
  | false => simp

end Written

/-- A written decimal is the text of what it stands for. -/
theorem text_decimal (w : Written) : text w.decimal = w.chars := by
  have hlen : w.decimal.digits.length - w.decimal.scale = w.integer.length := by
    rw [w.digits_decimal, List.length_append]
    exact Nat.add_sub_cancel _ _
  have hinteger : w.decimal.integerDigits = w.integer := by
    rw [integerDigits, hlen, w.digits_decimal]
    exact List.take_left
  have hfraction : w.decimal.fractionDigits = w.fraction := by
    rw [fractionDigits, hlen, w.digits_decimal, List.drop_left]
    refine List.rdropWhile_eq_self_iff.mpr fun hne hlast => ?_
    refine w.no_trailing ?_
    rw [List.getLast?_eq_some_getLast hne]
    exact congrArg some (of_decide_eq_true hlast)
  rw [text, hinteger, hfraction, Written.chars]
  congr 1
  rw [Bool.eq_iff_iff, decide_eq_true_iff]
  exact w.negative_iff

/-! ### The text depends on the value -/

theorem digits_mul_ten (d : Decimal) (hne : d.coefficient ≠ 0) :
    digits ⟨d.coefficient * 10, d.scale + 1⟩ = d.digits ++ ['0'] := by
  have habs : (d.coefficient * 10).natAbs = 10 * d.coefficient.natAbs + 0 := by omega
  change (Nat.toDigits 10 (d.coefficient * 10).natAbs).leftpad (d.scale + 1 + 1) '0' = _
  rw [habs, toDigits_snoc (Int.natAbs_pos.mpr hne) (by omega), leftpad_snoc]
  rfl

theorem text_zero (s : Nat) : text ⟨0, s⟩ = ['0'] := by
  have hdigits : digits ⟨0, s⟩ = List.replicate (s + 1) '0' := by
    rw [digits, Int.natAbs_zero, Nat.toDigits_zero, leftpad_zero]
  have hlen : (List.replicate (s + 1) '0').length - s = 1 := by
    rw [List.length_replicate]
    omega
  have hinteger : integerDigits ⟨0, s⟩ = ['0'] := by
    rw [integerDigits, hdigits, hlen]
    rfl
  have hfraction : fractionDigits ⟨0, s⟩ = [] := by
    rw [fractionDigits, hdigits, hlen, List.rdropWhile_eq_nil_iff]
    intro ch hmem
    exact decide_eq_true (List.eq_of_mem_replicate (List.mem_of_mem_drop hmem))
  rw [text, hinteger, hfraction]
  rfl

theorem text_mul_ten (d : Decimal) : text ⟨d.coefficient * 10, d.scale + 1⟩ = text d := by
  by_cases hzero : d.coefficient = 0
  · obtain ⟨coefficient, scale⟩ := d
    change coefficient = 0 at hzero
    change text ⟨coefficient * 10, scale + 1⟩ = _
    rw [hzero, Int.zero_mul, text_zero, text_zero]
  · have hdigits := digits_mul_ten d hzero
    have hscale : d.scale ≤ d.digits.length := by
      rw [digits, List.length_leftpad]
      omega
    have hlen : (d.digits ++ ['0']).length - (d.scale + 1) = d.digits.length - d.scale := by
      rw [List.length_append, List.length_singleton]
      omega
    have hinteger : integerDigits ⟨d.coefficient * 10, d.scale + 1⟩ = d.integerDigits := by
      rw [integerDigits, hdigits, hlen, integerDigits]
      exact List.take_append_of_le_length (Nat.sub_le _ _)
    have hfraction : fractionDigits ⟨d.coefficient * 10, d.scale + 1⟩ = d.fractionDigits := by
      rw [fractionDigits, hdigits, hlen, fractionDigits,
        List.drop_append_of_le_length (Nat.sub_le _ _), List.rdropWhile_concat_pos]
      rfl
    rw [text, hinteger, hfraction, text]
    congr 1
    rw [Bool.eq_iff_iff, decide_eq_true_iff, decide_eq_true_iff]
    dsimp only
    omega

theorem text_scaleTo (h : d.scale ≤ s) : text ⟨d.scaleTo s, s⟩ = text d := by
  obtain ⟨k, rfl⟩ := Nat.exists_eq_add_of_le h
  rw [scaleTo, Nat.add_sub_cancel_left]
  induction k with
  | zero => rw [pow_zero, mul_one, Nat.add_zero]
  | succ k ih =>
      have hnext := text_mul_ten ⟨d.coefficient * 10 ^ k, d.scale + k⟩
      rw [ih (Nat.le_add_right _ _), mul_assoc, ← pow_succ] at hnext
      exact hnext

theorem text_congr (h : a.value = b.value) : text a = text b := by
  rw [← text_scaleTo (le_max_left a.scale b.scale), ← text_scaleTo (le_max_right a.scale b.scale),
    (scaleTo_eq (le_max_left _ _) (le_max_right _ _)).mpr h]

/-! ### Every text is written -/

theorem ofDigitChars_zeros (l : List Char) (k : Nat) :
    Nat.ofDigitChars 10 (l ++ List.replicate k '0') 0 = Nat.ofDigitChars 10 l 0 * 10 ^ k := by
  rw [Nat.ofDigitChars_append, Nat.ofDigitChars_replicate_zero, Nat.mul_comm]

/-- What is dropped at the end are zeros. -/
theorem rdropWhile_append_zeros (l : List Char) :
    ∃ k, l = l.rdropWhile (· = '0') ++ List.replicate k '0' := by
  refine ⟨(l.rtakeWhile (· = '0')).length, ?_⟩
  have hzeros : l.rtakeWhile (· = '0') =
      List.replicate (l.rtakeWhile (· = '0')).length '0' :=
    List.eq_replicate_of_mem fun ch hmem => by
      have hdec := List.mem_rtakeWhile_imp hmem
      exact of_decide_eq_true hdec
  rw [← hzeros, List.rdropWhile_append_rtakeWhile]

theorem length_digits (d : Decimal) : d.scale < d.digits.length := by
  rw [digits, List.length_leftpad]
  omega

theorem allDigits_digits (d : Decimal) : AllDigits d.digits := by
  intro ch hmem
  rcases List.mem_append.mp hmem with hzero | hdigit
  · rw [List.eq_of_mem_replicate hzero]
    rfl
  · exact allDigits_toDigits _ ch hdigit

theorem ofDigitChars_digits (d : Decimal) :
    Nat.ofDigitChars 10 d.digits 0 = d.coefficient.natAbs := by
  rw [digits, List.leftpad, Nat.ofDigitChars_append, Nat.ofDigitChars_replicate_zero, Nat.mul_zero,
    Nat.ofDigitChars_ten_toDigits]

theorem integerDigits_head (d : Decimal) (hne : d.coefficient ≠ 0) :
    d.integerDigits = ['0'] ∨ d.integerDigits.head? ≠ some '0' := by
  have hlong := d.length_digits
  by_cases hpad : d.scale < (Nat.toDigits 10 d.coefficient.natAbs).length
  · right
    have hdigits : d.digits = Nat.toDigits 10 d.coefficient.natAbs := by
      rw [digits, List.leftpad, Nat.sub_eq_zero_of_le hpad]
      rfl
    rw [integerDigits, List.head?_take, if_neg (by omega), hdigits]
    exact head_toDigits (Int.natAbs_pos.mpr hne)
  · left
    have hlen : d.digits.length - d.scale = 1 := by
      rw [digits, List.length_leftpad]
      omega
    obtain ⟨k, hk⟩ : ∃ k, d.scale + 1 - (Nat.toDigits 10 d.coefficient.natAbs).length = k + 1 :=
      ⟨_, (Nat.succ_pred (by omega)).symm⟩
    rw [integerDigits, hlen, digits, List.leftpad, hk]
    rfl

theorem value_scaleTo (h : d.scale ≤ s) : value ⟨d.scaleTo s, s⟩ = d.value :=
  (value_eq_scaleTo h).symm

/-- The text of a decimal is written, and stands for its value. -/
theorem exists_written (d : Decimal) :
    ∃ w : Written, w.chars = text d ∧ w.decimal.value = d.value := by
  by_cases hzero : d.coefficient = 0
  · refine ⟨⟨false, ['0'], [], .zero, .nil, by decide, .inl rfl, by decide, by decide⟩, ?_, ?_⟩
    · obtain ⟨coefficient, scale⟩ := d
      change coefficient = 0 at hzero
      rw [hzero, text_zero]
      rfl
    · rw [value, value, hzero]
      change ((0 : Int) : ℚ) / _ = _
      rw [Int.cast_zero, zero_div, zero_div]
  have hlong := d.length_digits
  have hsplit : d.integerDigits ++ d.digits.drop (d.digits.length - d.scale) = d.digits :=
    List.take_append_drop _ _
  obtain ⟨k, hk⟩ := rdropWhile_append_zeros (d.digits.drop (d.digits.length - d.scale))
  change _ = d.fractionDigits ++ _ at hk
  have hscale : d.scale = d.fractionDigits.length + k := by
    have hlen := congrArg List.length hk
    rw [List.length_drop, List.length_append, List.length_replicate] at hlen
    omega
  have hvalue : d.coefficient.natAbs =
      Nat.ofDigitChars 10 (d.integerDigits ++ d.fractionDigits) 0 * 10 ^ k := by
    rw [← ofDigitChars_digits, ← hsplit, hk, ← List.append_assoc, ofDigitChars_zeros]
  have hdigits : ∀ ch ∈ d.integerDigits ++ d.fractionDigits, ch.isDigit = true := by
    intro ch hmem
    refine d.allDigits_digits ch ?_
    rw [← hsplit, hk, ← List.append_assoc]
    exact List.mem_append_left _ hmem
  let w : Written :=
    { negative := d.coefficient < 0
      integer := d.integerDigits
      fraction := d.fractionDigits
      integer_digits := fun ch hmem => hdigits ch (List.mem_append_left _ hmem)
      fraction_digits := fun ch hmem => hdigits ch (List.mem_append_right _ hmem)
      integer_ne_nil := by
        rw [integerDigits, ne_eq, List.take_eq_nil_iff, not_or]
        exact ⟨by omega, List.ne_nil_of_length_pos (by omega)⟩
      no_leading := d.integerDigits_head hzero
      no_trailing := by
        intro hlast
        have hne : d.fractionDigits ≠ [] := fun hnil => by
          rw [hnil] at hlast
          cases hlast
        rw [List.getLast?_eq_some_getLast hne] at hlast
        have hnot := List.rdropWhile_last_not _ _ hne
        exact hnot (decide_eq_true (Option.some.inj hlast))
      no_minus := by
        intro _ hinteger hfraction
        rw [hinteger, hfraction] at hvalue
        have hnil : Nat.ofDigitChars 10 (['0'] ++ []) 0 = 0 := by decide
        rw [hnil, Nat.zero_mul, Int.natAbs_eq_zero] at hvalue
        exact hzero hvalue }
  refine ⟨w, rfl, ?_⟩
  have hcoefficient : w.decimal.scaleTo d.scale = d.coefficient := by
    have hw : w.decimal.scale = d.fractionDigits.length := rfl
    rw [scaleTo, hw, hscale, Nat.add_sub_cancel_left]
    change (if decide (d.coefficient < 0) = true then -(w.magnitude : Int) else w.magnitude) * _ = _
    have hmagnitude : (d.coefficient.natAbs : Int) = w.magnitude * 10 ^ k := by
      exact_mod_cast hvalue
    split
    · rename_i hneg
      have hlt := of_decide_eq_true hneg
      rw [neg_mul, ← hmagnitude]
      omega
    · rename_i hneg
      have hle : ¬ d.coefficient < 0 := fun hlt => hneg (decide_eq_true hlt)
      rw [← hmagnitude]
      omega
  have hle : w.decimal.scale ≤ d.scale := by
    rw [hscale]
    exact Nat.le_add_right _ _
  rw [← value_scaleTo hle, hcoefficient]

/-- A written decimal has the least scale of its value. -/
theorem Written.scale_le (w : Written) (h : w.decimal.value = d.value) :
    w.decimal.scale ≤ d.scale := by
  by_contra hlt
  rw [not_le] at hlt
  have hcoefficient : w.decimal.coefficient = d.scaleTo w.decimal.scale := by
    rw [← (scaleTo_eq le_rfl hlt.le).mpr h, scaleTo, Nat.sub_self, pow_zero, mul_one]
  obtain ⟨k, hk⟩ : ∃ k, w.decimal.scale - d.scale = k + 1 :=
    ⟨_, (Nat.succ_pred (by omega)).symm⟩
  rw [scaleTo, hk, pow_succ, ← mul_assoc] at hcoefficient
  have hmagnitude : w.magnitude % 10 = 0 := by
    rw [← w.natAbs_coefficient, hcoefficient]
    omega
  have hne : w.fraction ≠ [] := fun hnil => by
    have hscale : w.decimal.scale = w.fraction.length := rfl
    rw [hscale, hnil] at hlt
    exact absurd hlt (Nat.not_lt_zero _)
  obtain ⟨rest, last, hlast⟩ := List.eq_nil_or_concat w.fraction |>.resolve_left hne
  rw [List.concat_eq_append] at hlast
  have hdigit := digit_val (w.fraction_digits last (by rw [hlast]; simp))
  rw [Written.magnitude, hlast, ← List.append_assoc, ofDigitChars_snoc] at hmagnitude
  have hzero : last.toNat - '0'.toNat = 0 := by omega
  rw [hzero] at hdigit
  refine w.no_trailing ?_
  rw [hlast, List.getLast?_concat, ← hdigit.2]
  rfl

/-- A written integer has no fraction. -/
theorem Written.decimal_of_int (w : Written) {n : Int} (h : w.decimal.value = n) :
    w.decimal = ⟨n, 0⟩ := by
  have hvalue : (⟨n, 0⟩ : Decimal).value = n := by
    rw [value]
    simp
  have hscale : w.decimal.scale = 0 := Nat.le_zero.mp (w.scale_le (h.trans hvalue.symm))
  have hcoefficient : (w.decimal.coefficient : ℚ) = n := by
    rw [← h, value, hscale, pow_zero, div_one]
  generalize w.decimal = d at *
  obtain ⟨coefficient, scale⟩ := d
  cases hscale
  exact congrArg (Decimal.mk · 0) (Int.cast_inj.mp hcoefficient)

end Decimal
