import Rigplane.ControlDomain.Published

/-!
# The Python half

`profiles/control_domain.py`, function by function.

`int(text)` and `str(number)` of the interpreter refuse more than 4300 digits
with a `ValueError`, so every function that parses or renders a decimal may raise.
-/

namespace Rigplane.ControlDomain.Python

open Decimal

/-- The exception of a conversion that is too long. -/
inductive Raised where
  | valueError
deriving DecidableEq

/-- `sys.get_int_max_str_digits()`. -/
def maxStrDigits : Nat := 4300

/-- `int(value)` of a sign and digits. -/
def pyInt (value : List Char) : Except Raised Int :=
  let negative := value.head? = some '-'
  let digits := if negative then value.tail else value
  if digits.length ≤ maxStrDigits then
    let magnitude : Int := Nat.ofDigitChars 10 digits 0
    .ok (if negative then -magnitude else magnitude)
  else .error .valueError

/-- `str(number)` of a number that is not negative. -/
def pyStr (number : Nat) : Except Raised (List Char) :=
  let digits := Nat.toDigits 10 number
  if digits.length ≤ maxStrDigits then .ok digits else .error .valueError

/-! ## Decimals -/

/-- `_parse_decimal`. -/
def parseDecimal (value : Json) : Except Raised (Option Decimal) :=
  match value.asStr with
  | none => .ok none
  | some text =>
      let chars := text.toList
      if chars = ['-', '0'] ∨ canonicalDecimal chars = false then .ok none
      else
        let negative := chars.head? = some '-'
        let unsigned := if negative then chars.tail else chars
        let (integer, fraction) := partitionPoint unsigned
        let sign := if negative then ['-'] else []
        match pyInt (sign ++ integer ++ fraction) with
        | .error raised => .error raised
        | .ok coefficient => .ok (some ⟨coefficient, fraction.length⟩)

/-- `format(Decimal((sign, digits, -scale)), "f")`. -/
def formatFixed (negative : Bool) (digits : List Char) (scale : Nat) : List Char :=
  (if negative then ['-'] else []) ++
    if scale = 0 then digits
    else if scale < digits.length then
      digits.take (digits.length - scale) ++ '.' :: digits.drop (digits.length - scale)
    else '0' :: '.' :: (List.replicate (scale - digits.length) '0' ++ digits)

/-- `_public_decimal`, of what it has formatted. -/
def publicDecimal (rendered : List Char) : List Char :=
  let rendered :=
    if '.' ∈ rendered then (rendered.rdropWhile (· = '0')).rdropWhile (· = '.') else rendered
  if rendered = ['0'] ∨ rendered = ['-', '0'] then ['0'] else rendered

/-- `_text`. -/
def text (value : Decimal) : Except Raised String :=
  match pyStr value.coefficient.natAbs with
  | .error raised => .error raised
  | .ok digits =>
      .ok (String.ofList (publicDecimal (formatFixed (value.coefficient < 0) digits value.scale)))

/-- `_align`. -/
def align (values : List Decimal) : List Int :=
  let scale := (values.map Decimal.scale).foldl max 0
  values.map fun value => value.coefficient * 10 ^ (scale - value.scale)

/-- `_compare`. -/
def compare (left right : Decimal) : Int :=
  match align [left, right] with
  | [first, second] => (if first > second then 1 else 0) - (if first < second then 1 else 0)
  | _ => 0

/-- `_add`. -/
def add (origin : Decimal) (steps : Int) (step : Decimal) : Decimal :=
  match align [origin, step] with
  | [base, increment] => ⟨base + steps * increment, max origin.scale step.scale⟩
  | _ => origin

/-- `_lattice`. -/
def lattice (value origin step : Decimal) : Option Int :=
  if compare step ⟨0, 0⟩ ≤ 0 then none
  else
    match align [value, origin, step] with
    | [item, base, unit] =>
        let quotient := (item - base).fdiv unit
        let remainder := (item - base).fmod unit
        if remainder = 0 then some quotient else none
    | _ => none

/-! ## Domains -/

/-- `_safe_int`, with the integer. -/
def safeInt : Json → Option Int
  | .int value => if -safeIntegerMax ≤ value ∧ value ≤ safeIntegerMax then some value else none
  | _ => none

/-- `_raw_index`. -/
def rawIndex (domain : Domain) (raw : Json) : Option Int :=
  match safeInt raw, safeInt (Json.get domain "raw_min"), safeInt (Json.get domain "raw_max"),
    safeInt (Json.get domain "raw_step"), safeInt (Json.get domain "raw_origin") with
  | some raw, some rawMin, some rawMax, some rawStep, some rawOrigin =>
      if rawMin ≥ rawMax ∨ rawStep ≤ 0 ∨ ¬ (rawMin ≤ rawOrigin ∧ rawOrigin ≤ rawMax) ∨
          ¬ (rawMin ≤ raw ∧ raw ≤ rawMax) then none
      else if (rawMin - rawOrigin).fmod rawStep ≠ 0 ∨ (rawMax - rawOrigin).fmod rawStep ≠ 0 then
        none
      else if (raw - rawOrigin).fmod rawStep ≠ 0 then none
      else some ((raw - rawOrigin).fdiv rawStep)
  | _, _, _, _, _ => none

/-- `_axis`. -/
def axis (domain : Domain) : Except Raised (Option Axis) := do
  let displayMin ← parseDecimal (Json.get domain "display_min")
  let displayMax ← parseDecimal (Json.get domain "display_max")
  let displayStep ← parseDecimal (Json.get domain "display_step")
  let displayOrigin ← parseDecimal (Json.get domain "display_origin")
  match displayMin, displayMax, displayStep, displayOrigin with
  | some low, some high, some step, some origin =>
      if compare low high ≥ 0 ∨ compare step ⟨0, 0⟩ ≤ 0 then return none
      else if compare origin low < 0 ∨ compare origin high > 0 then return none
      else if lattice low origin step = none ∨ lattice high origin step = none then return none
      else return some ⟨low, high, step, origin⟩
  | _, _, _, _ => return none

/-- `_in_range`. -/
def inRange (value : Decimal) (values : Axis) : Bool :=
  compare value values.displayMin ≥ 0 && compare value values.displayMax ≤ 0

/-- `_in_axis`. -/
def inAxis (value : Decimal) (values : Axis) : Bool :=
  compare value values.displayMin ≥ 0 && compare value values.displayMax ≤ 0 &&
    (lattice value values.displayOrigin values.displayStep).isSome

/-- `_LookupPoint`. -/
structure LookupPoint where
  raw : Int
  text : String
  display : Decimal

/-- The points found so far, and the directions they go. -/
structure Points where
  points : List LookupPoint := []
  rawDirection : Int := 0
  displayDirection : Int := 0

/-- `(left > right) - (left < right)`. -/
def direction (left right : Int) : Int :=
  (if left > right then 1 else 0) - (if left < right then 1 else 0)

/-- `set(item) == {"raw", "display"}`. -/
def PointKeys (record : List (String × Json)) : Prop :=
  (∀ key ∈ recordKeys record, key = "raw" ∨ key = "display") ∧ "raw" ∈ recordKeys record ∧
    "display" ∈ recordKeys record

instance (record : List (String × Json)) : Decidable (PointKeys record) :=
  inferInstanceAs (Decidable (_ ∧ _))

/-- One round of the loop of `_lookup_points`. -/
def lookupRound (domain : Domain) (values : Axis) (found : Points) (item : Json) :
    Except Raised (Option Points) :=
  match item with
  | .obj record =>
      if ¬ PointKeys record then .ok none
      else do
        let display ← parseDecimal (Json.get record "display")
        match safeInt (Json.get record "raw"), (Json.get record "display").asStr, display with
        | some raw, some displayText, some display =>
            if rawIndex domain (.int raw) = none ∨ inAxis display values = false then return none
            else
              let point : LookupPoint := ⟨raw, displayText, display⟩
              match found.points.getLast? with
              | none => return some { found with points := found.points ++ [point] }
              | some previous =>
                  let nextRawDirection := direction raw previous.raw
                  let nextDisplayDirection := compare display previous.display
                  if nextRawDirection = 0 ∨ nextDisplayDirection = 0 ∨
                      (found.rawDirection ≠ 0 ∧ found.rawDirection ≠ nextRawDirection) ∨
                      (found.displayDirection ≠ 0 ∧
                        found.displayDirection ≠ nextDisplayDirection) then return none
                  else return some ⟨found.points ++ [point], nextRawDirection, nextDisplayDirection⟩
        | _, _, _ => return none
  | _ => .ok none

/-- The loop of `_lookup_points`. -/
def lookupLoop (domain : Domain) (values : Axis) (found : Points) :
    List Json → Except Raised (Option (List LookupPoint))
  | [] => .ok (some found.points)
  | item :: rest => do
      match ← lookupRound domain values found item with
      | none => return none
      | some found => lookupLoop domain values found rest

/-- `_lookup_points`. -/
def lookupPoints (domain : Domain) (values : Axis) : Except Raised (Option (List LookupPoint)) :=
  match Json.get domain "lookup" with
  | .arr (item :: rest) => lookupLoop domain values {} (item :: rest)
  | _ => .ok none

/-- `_scalar_index`. -/
def scalarIndex (domain : Domain) : Option (Int × Int) :=
  match rawIndex domain (Json.get domain "raw_min"),
      rawIndex domain (Json.get domain "raw_origin") with
  | some rawMin, some rawOrigin => some (rawMin, rawOrigin)
  | _, _ => none

/-- `_same_cardinality`. -/
def sameCardinality (domain : Domain) (values : Axis) : Bool :=
  match rawIndex domain (Json.get domain "raw_min"), rawIndex domain (Json.get domain "raw_max"),
    lattice values.displayMin values.displayOrigin values.displayStep,
    lattice values.displayMax values.displayOrigin values.displayStep with
  | some rawMin, some rawMax, some displayMin, some displayMax =>
      rawMax - rawMin = displayMax - displayMin
  | _, _, _, _ => false

/-- `_is_identity`. -/
def isIdentity (domain : Domain) (values : Axis) : Bool :=
  if rawIndex domain (Json.get domain "raw_min") = none ∨
      rawIndex domain (Json.get domain "raw_max") = none then false
  else
    [("raw_min", values.displayMin), ("raw_max", values.displayMax),
      ("raw_step", values.displayStep), ("raw_origin", values.displayOrigin)].all
      fun (key, display) =>
        match safeInt (Json.get domain key) with
        | none => false
        | some raw => compare ⟨raw, 0⟩ display = 0

/-- `_centered_aligned`. -/
def centeredAligned (domain : Domain) (values : Axis) : Except Raised Bool :=
  if (Json.get domain "mapping").asStr ≠ some "centered" then .ok false
  else do
    let rawMin := rawIndex domain (Json.get domain "raw_min")
    let rawCenter := rawIndex domain (Json.get domain "raw_center")
    let displayCenter ← parseDecimal (Json.get domain "display_center")
    let displayOffset := displayCenter.bind fun center =>
      lattice center values.displayMin values.displayStep
    match rawMin, rawCenter, displayCenter, displayOffset with
    | some rawMin, some rawCenter, some displayCenter, some displayOffset =>
        return inAxis displayCenter values && rawCenter - rawMin = displayOffset &&
          sameCardinality domain values
    | _, _, _, _ => return false

/-- `_valid_domain`. -/
def validDomain (domain : Domain) (values : Axis) : Except Raised Bool :=
  match (Json.get domain "quantization").asStr with
  | none => .ok false
  | some quantization =>
      if quantization ∉ quantizations then .ok false
      else
        let mapping := (Json.get domain "mapping").asStr
        if mapping = some "identity" then .ok (isIdentity domain values)
        else if mapping = some "linear" then
          .ok (match scalarIndex domain,
              lattice values.displayOrigin values.displayMin values.displayStep with
            | some (rawMin, rawOrigin), some originIndex =>
                rawOrigin - rawMin = originIndex && sameCardinality domain values
            | _, _ => false)
        else if mapping = some "centered" then centeredAligned domain values
        else if mapping = some "lookup" then do
          let points ← lookupPoints domain values
          return points.isSome
        else .ok false

/-- `_domain_is_exact`. -/
def domainIsExact (domain : Domain) (values : Axis) : Except Raised Bool :=
  if (Json.get domain "restoration").asStr ≠ some "exact" then .ok false
  else if (Json.get domain "mapping").asStr ≠ some "lookup" then .ok true
  else do
    let points ← lookupPoints domain values
    match rawIndex domain (Json.get domain "raw_min"),
      rawIndex domain (Json.get domain "raw_max"), points with
    | some minIndex, some maxIndex, some points =>
        return ((points.length : Int) = maxIndex - minIndex + 1)
    | _, _, _ => return false

/-! ## Decode, quantize, encode -/

/-- `_text(result) if _in_axis(result, values) else None`. -/
def textInAxis (result : Decimal) (values : Axis) : Except Raised (Option String) :=
  if inAxis result values then do return some (← text result) else .ok none

/-- `decode_control_domain`. -/
def decodeControlDomain (domain : Domain) (raw : Json) : Except Raised (Option String) := do
  match ← axis domain, rawIndex domain raw, safeInt raw with
  | some values, some index, some raw =>
      if ¬ (← validDomain domain values) then return none
      let mapping := (Json.get domain "mapping").asStr
      if mapping = some "identity" then
        if isIdentity domain values then return some (← text ⟨raw, 0⟩) else return none
      else if mapping = some "lookup" then
        match ← lookupPoints domain values with
        | none => return none
        | some points => return (points.find? fun point => point.raw = raw).map LookupPoint.text
      else if mapping = some "linear" then
        textInAxis (add values.displayOrigin index values.displayStep) values
      else if mapping = some "centered" then
        match rawIndex domain (Json.get domain "raw_center"),
          ← parseDecimal (Json.get domain "display_center") with
        | some center, some displayCenter =>
            textInAxis (add displayCenter (index - center) values.displayStep) values
        | _, _ => return none
      else return none
  | _, _, _ => return none

/-- The lattice index a quantization posture picks, of a quotient and a remainder. -/
def quantizedIndex (quantization : Option String) (quotient remainder step : Int) : Option Int :=
  if quantization = some "floor" then some quotient
  else if quantization = some "ceil" then
    some (if remainder = 0 then quotient else quotient + 1)
  else if quantization = some "reject" then
    if remainder ≠ 0 then none else some quotient
  else if quantization = some "nearest_ties_down" then
    some (if remainder * 2 > step then quotient + 1 else quotient)
  else if quantization = some "nearest_ties_up" then
    some (if remainder * 2 ≥ step then quotient + 1 else quotient)
  else none

/-- The lattice value a domain quantizes a value in its range to. -/
def quantized (domain : Domain) (values : Axis) (value : Decimal) : Option Decimal :=
  match align [value, values.displayOrigin, values.displayStep] with
  | [item, origin, step] =>
      let quotient := (item - origin).fdiv step
      let remainder := (item - origin).fmod step
      match quantizedIndex (Json.get domain "quantization").asStr quotient remainder step with
      | none => none
      | some index => some (add values.displayOrigin index values.displayStep)
  | _ => none

/-- `quantize_control_domain`. -/
def quantizeControlDomain (domain : Domain) (display : Json) : Except Raised (Option String) := do
  match ← axis domain, ← parseDecimal display with
  | some values, some value =>
      if inRange value values = false then return none
      if ¬ (← validDomain domain values) then return none
      match quantized domain values value with
      | none => return none
      | some result => textInAxis result values
  | _, _ => return none

/-- The end of `encode_control_domain`, of a linear or a centered mapping. -/
def restored (domain : Domain) (raw : Int) (quantized : String) : Except Raised (Option Int) :=
  if ¬ (-safeIntegerMax ≤ raw ∧ raw ≤ safeIntegerMax) then .ok none
  else if rawIndex domain (.int raw) = none then .ok none
  else do
    let decoded ← decodeControlDomain domain (.int raw)
    return if decoded ≠ some quantized then none else some raw

/-- `encode_control_domain`. -/
def encodeControlDomain (domain : Domain) (display : Json) : Except Raised (Option Int) := do
  match ← axis domain with
  | none => return none
  | some values =>
      if ¬ (← validDomain domain values) then return none
      if ¬ (← domainIsExact domain values) then return none
      match ← quantizeControlDomain domain display with
      | none => return none
      | some quantized =>
          let mapping := (Json.get domain "mapping").asStr
          if mapping = some "identity" then
            if ¬ isIdentity domain values then return none
            match ← parseDecimal (.str quantized), safeInt (Json.get domain "raw_min"),
              safeInt (Json.get domain "raw_max") with
            | some value, some rawMin, some rawMax =>
                if value.scale ≠ 0 ∨
                    ¬ (rawMin ≤ value.coefficient ∧ value.coefficient ≤ rawMax) then
                  return none
                else
                  return if (rawIndex domain (.int value.coefficient)).isSome then
                    some value.coefficient else none
            | _, _, _ => return none
          else if mapping = some "lookup" then
            match ← lookupPoints domain values with
            | none => return none
            | some points =>
                match (points.filter fun point => point.text = quantized).map LookupPoint.raw with
                | [raw] => return some raw
                | _ => return none
          else
            match ← parseDecimal (.str quantized) with
            | none => return none
            | some target =>
                if mapping = some "linear" then
                  match lattice target values.displayOrigin values.displayStep,
                    safeInt (Json.get domain "raw_origin"),
                    safeInt (Json.get domain "raw_step") with
                  | some displayIndex, some rawOrigin, some rawStep =>
                      restored domain (rawOrigin + displayIndex * rawStep) quantized
                  | _, _, _ => return none
                else if mapping = some "centered" then
                  match rawIndex domain (Json.get domain "raw_center"),
                    ← parseDecimal (Json.get domain "display_center"),
                    safeInt (Json.get domain "raw_center"),
                    safeInt (Json.get domain "raw_step") with
                  | some _, some displayCenter, some rawCenter, some rawStep =>
                      match lattice target displayCenter values.displayStep with
                      | none => return none
                      | some offset => restored domain (rawCenter + offset * rawStep) quantized
                  | _, _, _, _ => return none
                else return none

end Rigplane.ControlDomain.Python
