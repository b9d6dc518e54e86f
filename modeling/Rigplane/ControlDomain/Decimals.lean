import Rigplane.ControlDomain.Frontend
import Rigplane.ControlDomain.Python

/-!
# The decimals of the two halves

Both halves compute with the exact decimals of `Lib.Decimal`: they parse the written
decimals (`decimal_eq_some`), render the text (`text_eq`), compare by value, and find the
number of lattice steps.  The Python half does the same as the browser's unless a conversion
is too long (`parseDecimal_eq`, `text_eq`).
-/

namespace Rigplane.ControlDomain

open Decimal

/-! ## Canonical strings -/

/-- The point and the fraction of a decimal, if it has one. -/
def pointPart (fraction : List Char) : List Char := if fraction = [] then [] else '.' :: fraction

theorem write_eq (negative : Bool) (integer fraction : List Char) :
    write negative integer fraction =
      if negative then '-' :: (integer ++ pointPart fraction)
      else integer ++ pointPart fraction := by
  rw [write, pointPart]
  cases negative <;> simp

/-- The sign of a written decimal, and what follows it. -/
theorem written_split (w : Written) : (w.chars.head? = some '-' ↔ w.negative = true) ∧
    (if w.chars.head? = some '-' then w.chars.tail else w.chars) =
      w.integer ++ pointPart w.fraction := by
  have hchars : w.chars = write w.negative w.integer w.fraction := rfl
  rw [hchars, write_eq]
  obtain ⟨first, rest, hinteger⟩ := List.exists_cons_of_ne_nil w.integer_ne_nil
  have hfirst : first ≠ '-' := by
    rintro rfl
    exact absurd (w.integer_digits '-' (by rw [hinteger]; exact List.mem_cons_self)) (by decide)
  cases w.negative with
  | true => simp
  | false => simp [hinteger, hfirst]

theorem point_not_digit : Char.isDigit '.' = false := rfl

theorem takeWhile_digits {integer : List Char} (h : AllDigits integer) (fraction : List Char) :
    (integer ++ pointPart fraction).takeWhile Char.isDigit = integer ∧
      (integer ++ pointPart fraction).dropWhile Char.isDigit = pointPart fraction := by
  have hrest : (pointPart fraction).takeWhile Char.isDigit = [] ∧
      (pointPart fraction).dropWhile Char.isDigit = pointPart fraction := by
    rw [pointPart]
    split <;> simp [point_not_digit]
  constructor
  · rw [List.takeWhile_append_of_pos h, hrest.1, List.append_nil]
  · rw [List.dropWhile_append_of_pos h, hrest.2]

theorem digit_ne_point {ch : Char} (h : ch.isDigit = true) : decide (ch ≠ '.') = true := by
  refine decide_eq_true ?_
  rintro rfl
  exact absurd h (by decide)

theorem partitionPoint_digits {integer : List Char} (h : AllDigits integer) (fraction : List Char) :
    partitionPoint (integer ++ pointPart fraction) = (integer, fraction) := by
  have hall : ∀ ch ∈ integer, decide (ch ≠ '.') = true := fun ch hmem => digit_ne_point (h ch hmem)
  rw [partitionPoint, List.takeWhile_append_of_pos hall, List.dropWhile_append_of_pos hall,
    pointPart]
  split
  · rename_i hnil
    simp [hnil]
  · simp

theorem written_canonical (w : Written) :
    w.chars ≠ ['-', '0'] ∧ canonicalDecimal w.chars = true := by
  obtain ⟨hsign, hunsigned⟩ := written_split w
  obtain ⟨htake, hdrop⟩ := takeWhile_digits w.integer_digits w.fraction
  constructor
  · intro heq
    have hneg : w.negative = true := hsign.mp (by rw [heq]; rfl)
    rw [heq] at hunsigned
    change ['0'] = _ at hunsigned
    have hsplit := partitionPoint_digits w.integer_digits w.fraction
    rw [← hunsigned] at hsplit
    obtain ⟨hinteger, hfraction⟩ := Prod.mk.inj hsplit
    exact w.no_minus hneg hinteger.symm hfraction.symm
  · rw [canonicalDecimal, hunsigned, htake, hdrop, Bool.and_eq_true]
    constructor
    · rw [Bool.or_eq_true]
      refine w.no_leading.imp (fun h => decide_eq_true h) fun h => ?_
      obtain ⟨first, rest, hinteger⟩ := List.exists_cons_of_ne_nil w.integer_ne_nil
      rw [hinteger] at h ⊢
      change nonzeroDigit first = true
      rw [nonzeroDigit, w.integer_digits first (by rw [hinteger]; exact List.mem_cons_self)]
      simpa using h
    · rw [pointPart]
      split
      · rename_i h
        split at h
        · rfl
        · cases h
      · rename_i point fraction h
        split at h
        · cases h
        · rename_i hne
          cases h
          have hall : w.fraction.all Char.isDigit = true := List.all_eq_true.mpr w.fraction_digits
          rw [hall, List.getLast?_eq_some_getLast hne]
          have hlast := w.no_trailing
          rw [List.getLast?_eq_some_getLast hne] at hlast
          have hdigit := w.fraction_digits _ (List.getLast_mem hne)
          simp only [Option.any_some, nonzeroDigit, hdigit]
          simpa using hlast

theorem nonzeroDigit_spec {ch : Char} (h : nonzeroDigit ch = true) :
    ch.isDigit = true ∧ ch ≠ '0' := by
  rw [nonzeroDigit, Bool.and_eq_true] at h
  exact ⟨h.1, by simpa using h.2⟩

/-- What follows the sign of a canonical string. -/
theorem unsigned_split {unsigned : List Char}
    (hinteger : (unsigned.takeWhile Char.isDigit = ['0'] ||
      (unsigned.takeWhile Char.isDigit).head?.any nonzeroDigit) = true)
    (hrest : (match unsigned.dropWhile Char.isDigit with
      | [] => true
      | point :: fraction =>
          point = '.' && fraction.all Char.isDigit && fraction.getLast?.any nonzeroDigit) = true) :
    ∃ integer fraction : List Char, unsigned = integer ++ pointPart fraction ∧
      AllDigits integer ∧ AllDigits fraction ∧ integer ≠ [] ∧
      (integer = ['0'] ∨ integer.head? ≠ some '0') ∧ fraction.getLast? ≠ some '0' := by
  have hsplit : unsigned.takeWhile Char.isDigit ++ unsigned.dropWhile Char.isDigit = unsigned :=
    List.takeWhile_append_dropWhile
  have hdigits : AllDigits (unsigned.takeWhile Char.isDigit) :=
    fun ch hmem => List.mem_takeWhile_imp hmem
  have hlead : unsigned.takeWhile Char.isDigit ≠ [] ∧ (unsigned.takeWhile Char.isDigit = ['0'] ∨
      (unsigned.takeWhile Char.isDigit).head? ≠ some '0') := by
    rcases Bool.or_eq_true_iff.mp hinteger with hzero | hany
    · have hzero := of_decide_eq_true hzero
      exact ⟨by rw [hzero]; exact List.cons_ne_nil _ _, .inl hzero⟩
    · obtain ⟨first, hfirst, hnonzero⟩ := (Option.any_eq_true _ _).mp hany
      refine ⟨fun hnil => ?_, .inr fun hhead => ?_⟩
      · rw [hnil] at hfirst
        cases hfirst
      · cases hfirst.symm.trans hhead
        exact (nonzeroDigit_spec hnonzero).2 rfl
  cases htail : unsigned.dropWhile Char.isDigit with
  | nil =>
      rw [htail] at hsplit
      exact ⟨_, [], by rw [pointPart, if_pos rfl]; exact hsplit.symm, hdigits,
        .nil, hlead.1, hlead.2, by decide⟩
  | cons point fraction =>
      rw [htail] at hsplit hrest
      dsimp only at hrest
      rw [Bool.and_eq_true, Bool.and_eq_true] at hrest
      obtain ⟨⟨hpoint, hall⟩, hlast⟩ := hrest
      cases of_decide_eq_true hpoint
      obtain ⟨last, hgetLast, hnonzero⟩ := (Option.any_eq_true _ _).mp hlast
      have hne : fraction ≠ [] := by
        rintro rfl
        cases hgetLast
      refine ⟨_, fraction, by rw [pointPart, if_neg hne]; exact hsplit.symm, hdigits,
        List.all_eq_true.mp hall, hlead.1, hlead.2, fun hzero => ?_⟩
      cases hgetLast.symm.trans hzero
      exact (nonzeroDigit_spec hnonzero).2 rfl

theorem canonical_written {value : List Char} (hminus : value ≠ ['-', '0'])
    (h : canonicalDecimal value = true) : ∃ w : Written, w.chars = value := by
  rw [canonicalDecimal, Bool.and_eq_true] at h
  obtain ⟨integer, fraction, hunsigned, hinteger, hfraction, hne, hlead, htrail⟩ :=
    unsigned_split h.1 h.2
  have hvalue : value = write (value.head? = some '-') integer fraction := by
    rw [write_eq, ← hunsigned]
    cases value with
    | nil => rfl
    | cons first rest =>
        by_cases hfirst : first = '-'
        · simp [hfirst]
        · simp [hfirst]
  refine ⟨⟨value.head? = some '-', integer, fraction, hinteger, hfraction, hne, hlead, htrail,
    fun hneg hzero hnil => hminus ?_⟩, hvalue.symm⟩
  rw [hvalue, of_decide_eq_true hneg, hzero, hnil]
  rfl

/-- A string is canonical, and not `-0`, just where it is a written decimal. -/
theorem canonical_iff {value : List Char} :
    ¬ (value = ['-', '0'] ∨ canonicalDecimal value = false) ↔ ∃ w : Written, w.chars = value := by
  rw [not_or, Bool.not_eq_false]
  constructor
  · exact fun h => canonical_written h.1 h.2
  · rintro ⟨w, rfl⟩
    exact written_canonical w

/-! ## Parsing -/

theorem partition_chars (w : Written) :
    partitionPoint (if w.chars.head? = some '-' then w.chars.tail else w.chars) =
      (w.integer, w.fraction) := by
  rw [(written_split w).2]
  exact partitionPoint_digits w.integer_digits w.fraction

/-- What the browser reads is written. -/
theorem Frontend.decimal_chars (w : Written) :
    Frontend.decimal (.str (String.ofList w.chars)) = some w.decimal := by
  have hcanonical := canonical_iff.mpr ⟨w, rfl⟩
  obtain ⟨hinteger, hfraction⟩ := Prod.mk.inj (partition_chars w)
  have hall : ∀ ch ∈ w.fraction, decide (ch ≠ '.') = true :=
    fun ch hmem => digit_ne_point (w.fraction_digits ch hmem)
  rw [Frontend.decimal]
  dsimp only [Json.asStr]
  rw [String.toList_ofList, if_neg hcanonical, hinteger, hfraction,
    List.takeWhile_eq_self_iff.mpr hall]
  have hsign := (written_split w).1
  rw [Written.decimal]
  by_cases hneg : w.negative = true
  · rw [if_pos (hsign.mpr hneg), if_pos hneg]
    rfl
  · rw [if_neg fun h => hneg (hsign.mp h), if_neg hneg]
    rfl

theorem Frontend.decimal_eq_some {value : Json} {d : Decimal} :
    Frontend.decimal value = some d ↔
      ∃ w : Written, value = .str (String.ofList w.chars) ∧ d = w.decimal := by
  constructor
  · intro h
    cases value with
    | str text =>
        have hcanonical : ¬ (text.toList = ['-', '0'] ∨ canonicalDecimal text.toList = false) := by
          intro hnot
          rw [Frontend.decimal] at h
          dsimp only [Json.asStr] at h
          rw [if_pos hnot] at h
          cases h
        obtain ⟨w, hw⟩ := canonical_iff.mp hcanonical
        have htext : text = String.ofList w.chars := by rw [hw, String.ofList_toList]
        rw [htext, Frontend.decimal_chars] at h
        exact ⟨w, by rw [htext], (Option.some.inj h).symm⟩
    | null | bool | int | float | arr | obj => cases h
  · rintro ⟨w, rfl, rfl⟩
    exact Frontend.decimal_chars w

/-- A result that is only reached where nothing before it has raised. -/
def guarded {α : Type} (raises : Bool) (result : α) : Except Python.Raised α :=
  if raises then .error .valueError else .ok result

theorem guarded_bind {α β : Type} (raises : Bool) (result : α) (next : α → Except Python.Raised β) :
    (guarded raises result >>= next) = if raises then .error .valueError else next result := by
  cases raises <;> rfl

theorem guarded_eq_ok {α : Type} {raises : Bool} {result value : α} :
    guarded raises result = .ok value ↔ raises = false ∧ result = value := by
  cases raises <;> simp [guarded]

/-- A decimal of too many digits for `int`. -/
def overlong (value : Json) : Bool :=
  value.asStr.any fun text =>
    canonicalDecimal text.toList && text.toList ≠ ['-', '0'] &&
      Python.maxStrDigits < (text.toList.filter Char.isDigit).length

/-- A coefficient of too many digits for `str`. -/
def tooLong (value : Decimal) : Bool := 10 ^ Python.maxStrDigits ≤ value.coefficient.natAbs

theorem filter_digits {l : List Char} (h : AllDigits l) : l.filter Char.isDigit = l :=
  List.filter_eq_self.mpr h

theorem overlong_chars (w : Written) : overlong (.str (String.ofList w.chars)) =
    decide (Python.maxStrDigits < (w.integer ++ w.fraction).length) := by
  obtain ⟨hminus, hcanonical⟩ := written_canonical w
  have hdigits : w.chars.filter Char.isDigit = w.integer ++ w.fraction := by
    have hchars : w.chars = write w.negative w.integer w.fraction := rfl
    rw [hchars, write_eq, pointPart]
    split <;> split <;>
      simp [filter_digits w.integer_digits, filter_digits w.fraction_digits, point_not_digit, *]
  rw [overlong]
  dsimp only [Json.asStr, Option.any_some]
  rw [String.toList_ofList, hcanonical, hdigits, Bool.true_and, decide_eq_true hminus,
    Bool.true_and]

theorem Python.pyInt_chars (w : Written) :
    Python.pyInt ((if w.chars.head? = some '-' then ['-'] else []) ++ w.integer ++ w.fraction) =
      guarded (overlong (.str (String.ofList w.chars))) w.decimal.coefficient := by
  have hsign := (written_split w).1
  have hfirst : (w.integer ++ w.fraction).head? ≠ some '-' := by
    intro hhead
    exact absurd (w.allDigits '-' (List.mem_of_head? hhead)) (by decide)
  have hguard : ∀ coefficient : Int,
      (if (w.integer ++ w.fraction).length ≤ Python.maxStrDigits then .ok coefficient
        else .error .valueError) = guarded (overlong
          (.str (String.ofList w.chars))) coefficient := by
    intro coefficient
    rw [overlong_chars, guarded]
    split
    · rw [if_neg]
      rw [decide_eq_true_iff]
      omega
    · rw [if_pos]
      rw [decide_eq_true_iff]
      omega
  by_cases hneg : w.negative = true
  · rw [if_pos (hsign.mpr hneg), List.append_assoc, Python.pyInt, List.singleton_append]
    have hhead : ('-' :: (w.integer ++ w.fraction)).head? = some '-' := rfl
    dsimp only
    rw [if_pos hhead, if_pos hhead, List.tail_cons, hguard, Written.decimal, if_pos hneg]
    rfl
  · rw [if_neg fun h => hneg (hsign.mp h), List.nil_append, Python.pyInt]
    dsimp only
    rw [if_neg hfirst, if_neg hfirst, hguard, Written.decimal, if_neg hneg]
    rfl

theorem Python.parseDecimal_eq (value : Json) :
    Python.parseDecimal value = guarded (overlong value) (Frontend.decimal value) := by
  cases value with
  | str text =>
      by_cases hcanonical : text.toList = ['-', '0'] ∨ canonicalDecimal text.toList = false
      · have hshort : overlong (.str text) = false := by
          rw [overlong]
          dsimp only [Json.asStr, Option.any_some]
          rcases hcanonical with hminus | hnot
          · rw [hminus]
            rfl
          · rw [hnot, Bool.false_and, Bool.false_and]
        rw [hshort, Python.parseDecimal, Frontend.decimal]
        dsimp only [Json.asStr]
        rw [if_pos hcanonical, if_pos hcanonical]
        rfl
      · obtain ⟨w, hw⟩ := canonical_iff.mp hcanonical
        have htext : text = String.ofList w.chars := by rw [hw, String.ofList_toList]
        subst htext
        rw [Frontend.decimal_chars, Python.parseDecimal]
        dsimp only [Json.asStr]
        rw [if_neg hcanonical, String.toList_ofList, partition_chars]
        dsimp only
        rw [Python.pyInt_chars]
        cases overlong (.str (String.ofList w.chars)) <;> rfl
  | null | bool | int | float | arr | obj => rfl

/-! ## Rendering -/

theorem Frontend.text_eq (d : Decimal) : Frontend.text d = String.ofList d.text := by
  rw [Frontend.text]
  split
  · rename_i hzero
    obtain ⟨coefficient, scale⟩ := d
    change coefficient = 0 at hzero
    rw [hzero, text_zero]
  · have hsign : (if d.coefficient < 0 then ['-'] else []) =
        if decide (d.coefficient < 0) = true then ['-'] else [] := by
      split <;> simp [*]
    dsimp only
    rw [Decimal.text, write, ← hsign]
    split
    · rename_i hscale
      have hlen : (Nat.toDigits 10 d.coefficient.natAbs).leftpad (0 + 1) '0' =
          Nat.toDigits 10 d.coefficient.natAbs := by
        rw [List.leftpad, Nat.sub_eq_zero_of_le Nat.length_toDigits_pos]
        rfl
      rw [integerDigits, fractionDigits, digits, hscale, hlen, Nat.sub_zero, List.take_length,
        List.drop_length, List.rdropWhile_nil, if_pos rfl, List.append_nil]
    · rfl

theorem rdropWhile_append (p : Char → Bool) (l r : List Char) : (l ++ r).rdropWhile p =
    if r.rdropWhile p = [] then l.rdropWhile p else l ++ r.rdropWhile p := by
  rw [List.rdropWhile, List.rdropWhile, List.rdropWhile, List.reverse_append, List.dropWhile_append]
  cases hrest : r.reverse.dropWhile p with
  | nil => simp
  | cons ch rest => simp

theorem rdropWhile_snoc {p : Char → Bool} {last : Char} (hlast : p last = false) (l : List Char) :
    (l ++ [last]).rdropWhile p = l ++ [last] :=
  List.rdropWhile_concat_neg _ _ _ (by rw [hlast]; exact Bool.false_ne_true)

/-- The zeros and the point at the end of a rendered decimal. -/
theorem strip_point (front fraction : List Char) (hfront : ∀ ch ∈ front, ch ≠ '.')
    (hfraction : AllDigits fraction) :
    ((front ++ '.' :: fraction).rdropWhile (· = '0')).rdropWhile (· = '.') =
      front ++ pointPart (fraction.rdropWhile (· = '0')) := by
  have happend : front ++ '.' :: fraction = (front ++ ['.']) ++ fraction := by simp
  rw [happend, rdropWhile_append]
  split
  · rename_i hnil
    rw [rdropWhile_snoc rfl, List.rdropWhile_concat_pos _ _ _ rfl, pointPart, if_pos hnil,
      List.append_nil]
    refine List.rdropWhile_eq_self_iff.mpr fun hne hlast => ?_
    exact hfront _ (List.getLast_mem hne) (of_decide_eq_true hlast)
  · rename_i hne
    have hlast : (fraction.rdropWhile (· = '0')).rdropWhile (· = '.') =
        fraction.rdropWhile (· = '0') := by
      refine List.rdropWhile_eq_self_iff.mpr fun hne hlast => ?_
      have hmem := (List.rdropWhile_prefix _ fraction).subset (List.getLast_mem hne)
      exact absurd (of_decide_eq_true hlast) (of_decide_eq_true (digit_ne_point (hfraction _ hmem)))
    rw [rdropWhile_append, hlast, if_neg hne, pointPart, if_neg hne, List.append_assoc]
    rfl

theorem formatFixed_eq (d : Decimal) (hscale : d.scale ≠ 0) :
    Python.formatFixed (d.coefficient < 0) (Nat.toDigits 10 d.coefficient.natAbs) d.scale =
      (if decide (d.coefficient < 0) = true then ['-'] else []) ++ d.integerDigits ++
        '.' :: d.digits.drop (d.digits.length - d.scale) := by
  rw [Python.formatFixed, if_neg hscale, List.append_assoc, integerDigits]
  congr 1
  split
  · rename_i hshort
    have hdigits : d.digits = Nat.toDigits 10 d.coefficient.natAbs := by
      rw [digits, List.leftpad, Nat.sub_eq_zero_of_le hshort]
      rfl
    rw [hdigits]
  · rename_i hlong
    have hlen : d.digits.length - d.scale = 1 := by
      rw [digits, List.length_leftpad]
      omega
    have hpad : d.scale + 1 - (Nat.toDigits 10 d.coefficient.natAbs).length =
        d.scale - (Nat.toDigits 10 d.coefficient.natAbs).length + 1 := by omega
    rw [hlen, digits, List.leftpad, hpad]
    rfl

theorem publicDecimal_format (d : Decimal) :
    Python.publicDecimal (Python.formatFixed (d.coefficient < 0)
      (Nat.toDigits 10 d.coefficient.natAbs) d.scale) = d.text := by
  have hpoint : ∀ (negative : Bool) (l : List Char), AllDigits l →
      ∀ ch ∈ (if negative = true then ['-'] else []) ++ l, ch ≠ '.' := by
    intro negative l hl ch hmem
    rcases List.mem_append.mp hmem with hsign | hdigit
    · cases negative with
      | true =>
          rw [List.mem_singleton.mp hsign]
          decide
      | false => cases hsign
    · exact of_decide_eq_true (digit_ne_point (hl ch hdigit))
  have hinteger : AllDigits d.integerDigits :=
    fun ch hmem => d.allDigits_digits ch (List.mem_of_mem_take hmem)
  rw [Python.publicDecimal]
  generalize hformat : Python.formatFixed (d.coefficient < 0)
    (Nat.toDigits 10 d.coefficient.natAbs) d.scale = rendered
  have hrendered : (if '.' ∈ rendered then (rendered.rdropWhile (· = '0')).rdropWhile (· = '.')
      else rendered) = d.text := by
    rw [← hformat]
    by_cases hscale : d.scale = 0
    · have hformat : Python.formatFixed (d.coefficient < 0)
          (Nat.toDigits 10 d.coefficient.natAbs) d.scale =
            (if decide (d.coefficient < 0) = true then ['-'] else []) ++
              Nat.toDigits 10 d.coefficient.natAbs := by
        rw [Python.formatFixed, if_pos hscale]
      have hdigits : d.digits = Nat.toDigits 10 d.coefficient.natAbs := by
        rw [digits, List.leftpad, hscale, Nat.sub_eq_zero_of_le Nat.length_toDigits_pos]
        rfl
      rw [hformat, if_neg fun hmem => hpoint _ _ (allDigits_toDigits _) _ hmem rfl, Decimal.text,
        write, integerDigits, fractionDigits, hscale, Nat.sub_zero, List.take_length,
        List.drop_length, List.rdropWhile_nil, if_pos rfl, List.append_nil, hdigits]
    · rw [formatFixed_eq d hscale, if_pos (List.mem_append_right _ List.mem_cons_self),
        strip_point _ _ (hpoint _ _ hinteger)
          fun ch hmem => d.allDigits_digits ch (List.mem_of_mem_drop hmem)]
      rfl
  rw [hrendered]
  split
  · rename_i h
    refine (h.resolve_right fun hminus => ?_).symm
    obtain ⟨w, hw, -⟩ := exists_written d
    exact (written_canonical w).1 (hw.trans hminus)
  · rfl

theorem Python.text_eq (d : Decimal) : Python.text d = guarded (tooLong d) (Frontend.text d) := by
  have hlen : (Nat.toDigits 10 d.coefficient.natAbs).length ≤ Python.maxStrDigits ↔
      d.coefficient.natAbs < 10 ^ Python.maxStrDigits :=
    Nat.length_toDigits_le_iff (by omega) (by decide)
  rw [Python.text, Python.pyStr, guarded, tooLong]
  by_cases hshort : d.coefficient.natAbs < 10 ^ Python.maxStrDigits
  · rw [if_pos (hlen.mpr hshort), if_neg (by simpa using hshort)]
    dsimp only
    rw [publicDecimal_format, Frontend.text_eq]
  · rw [if_neg fun h => hshort (hlen.mp h), if_pos (by simpa using hshort)]

/-! ## Arithmetic -/

namespace Frontend

variable {a b value origin step : Decimal} {n : Int}

theorem align_pair (a b : Decimal) : align [a, b] =
    [a.scaleTo (max a.scale b.scale), b.scaleTo (max a.scale b.scale)] := by
  rw [← Nat.zero_max a.scale]
  rfl

theorem align_triple (a b c : Decimal) : align [a, b, c] =
    [a.scaleTo (max (max a.scale b.scale) c.scale), b.scaleTo (max (max a.scale b.scale) c.scale),
      c.scaleTo (max (max a.scale b.scale) c.scale)] := by
  rw [← Nat.zero_max a.scale]
  rfl

theorem compare_eq (a b : Decimal) : compare a b =
    if a.value = b.value then 0 else if a.value < b.value then -1 else 1 := by
  have ha : a.scale ≤ max a.scale b.scale := le_max_left _ _
  have hb : b.scale ≤ max a.scale b.scale := le_max_right _ _
  rw [compare, align_pair]
  dsimp only
  rw [if_congr (scaleTo_eq ha hb) rfl (if_congr (scaleTo_lt ha hb) rfl rfl)]

theorem compare_neg : compare a b < 0 ↔ a.value < b.value := by
  rw [compare_eq]
  split
  · rename_i h
    simp [h]
  · split <;> simp [*]

theorem compare_pos : 0 < compare a b ↔ b.value < a.value := by
  rw [compare_eq]
  split
  · rename_i h
    simp [h]
  · rename_i hne
    split
    · rename_i hlt
      exact ⟨fun h => by omega, fun h => absurd h hlt.not_gt⟩
    · rename_i hnot
      exact ⟨fun _ => lt_of_le_of_ne (not_lt.mp hnot) (Ne.symm hne), fun _ => by omega⟩

theorem compare_zero : compare a b = 0 ↔ a.value = b.value := by
  rw [compare_eq]
  split
  · rename_i h
    simp [h]
  · split <;> simp [*]

theorem compare_nonneg : compare a b ≥ 0 ↔ b.value ≤ a.value := by
  rw [ge_iff_le, ← not_lt, compare_neg, not_lt]

theorem compare_nonpos : compare a b ≤ 0 ↔ a.value ≤ b.value := by
  rw [← not_lt, compare_pos, not_lt]

theorem add_value (origin : Decimal) (n : Int) (step : Decimal) :
    (add origin n step).value = origin.value + n * step.value := by
  have horigin : origin.scale ≤ max origin.scale step.scale := le_max_left _ _
  have hstep : step.scale ≤ max origin.scale step.scale := le_max_right _ _
  have hadd : add origin n step = ⟨origin.scaleTo (max origin.scale step.scale) +
      n * step.scaleTo (max origin.scale step.scale), max origin.scale step.scale⟩ := by
    rw [add, align_pair]
  rw [hadd, value_eq_scaleTo horigin, value_eq_scaleTo hstep, Decimal.value]
  push_cast
  ring

theorem zero_value : (⟨0, 0⟩ : Decimal).value = 0 := by
  rw [Decimal.value]
  simp

/-- A value lies on a lattice, so many steps from its origin. -/
theorem lattice_eq_some : lattice value origin step = some n ↔
    0 < step.value ∧ value.value = origin.value + n * step.value := by
  have hzero := compare_nonpos (a := step) (b := ⟨0, 0⟩)
  rw [zero_value] at hzero
  rw [lattice]
  split
  · rename_i h
    rw [hzero] at h
    simp [h.not_gt]
  · rename_i h
    rw [hzero, not_le] at h
    rw [align_triple]
    dsimp only
    have hvalue : value.scale ≤ max (max value.scale origin.scale) step.scale := by omega
    have horigin : origin.scale ≤ max (max value.scale origin.scale) step.scale := by omega
    have hstep : step.scale ≤ max (max value.scale origin.scale) step.scale := le_max_right _ _
    generalize max (max value.scale origin.scale) step.scale = s at *
    have hsteps := scaleTo_steps (n := n) hvalue horigin hstep
    have hpos : 0 < step.scaleTo s := by
      rw [← Int.cast_pos (R := ℚ), scaleTo_value hstep]
      positivity
    rw [and_iff_right h, ← hsteps]
    split
    · rename_i hdvd
      have hmul := Int.mul_tdiv_cancel' (Int.dvd_of_tmod_eq_zero hdvd)
      constructor
      · intro hsome
        rw [← Option.some.inj hsome, hmul]
      · intro heq
        rw [heq, Int.mul_tdiv_cancel_left _ hpos.ne']
    · rename_i hdvd
      refine ⟨fun hsome => (by cases hsome), fun heq => absurd ?_ hdvd⟩
      rw [heq]
      exact Int.mul_tmod_right _ _

end Frontend

theorem Python.compare_eq (a b : Decimal) : Python.compare a b = Frontend.compare a b := by
  have halign : Python.align [a, b] = Frontend.align [a, b] := rfl
  rw [Python.compare, Frontend.compare, halign, Frontend.align_pair]
  dsimp only
  split <;> split <;> split <;> omega

/-- Both divisions find the same number of steps. -/
theorem fdiv_eq_tdiv {difference unit : Int} (hunit : 0 < unit) :
    (if difference.fmod unit = 0 then some (difference.fdiv unit) else none) =
      if difference.tmod unit = 0 then some (difference.tdiv unit) else none := by
  have hfmod : difference.fmod unit = 0 ↔ unit ∣ difference :=
    ⟨Int.dvd_of_fmod_eq_zero, Int.fmod_eq_zero_of_dvd⟩
  have htmod : difference.tmod unit = 0 ↔ unit ∣ difference :=
    ⟨Int.dvd_of_tmod_eq_zero, Int.tmod_eq_zero_of_dvd⟩
  by_cases hdvd : unit ∣ difference
  · obtain ⟨n, rfl⟩ := hdvd
    rw [if_pos (hfmod.mpr (Int.dvd_mul_right _ _)), if_pos (htmod.mpr (Int.dvd_mul_right _ _)),
      Int.mul_fdiv_cancel_left _ hunit.ne', Int.mul_tdiv_cancel_left _ hunit.ne']
  · rw [if_neg fun h => hdvd (hfmod.mp h), if_neg fun h => hdvd (htmod.mp h)]

theorem Python.lattice_eq (value origin step : Decimal) :
    Python.lattice value origin step = Frontend.lattice value origin step := by
  rw [Python.lattice, Frontend.lattice, Python.compare_eq]
  split
  · rfl
  · rename_i h
    have hpos := Frontend.compare_pos.mp (not_le.mp h)
    have halign : Python.align [value, origin, step] = Frontend.align [value, origin, step] := rfl
    have hstep : step.scale ≤ max (max value.scale origin.scale) step.scale := le_max_right _ _
    rw [halign, Frontend.align_triple]
    refine fdiv_eq_tdiv ?_
    rw [← Int.cast_pos (R := ℚ), scaleTo_value hstep]
    rw [Frontend.zero_value] at hpos
    positivity

end Rigplane.ControlDomain
