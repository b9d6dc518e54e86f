import Rigplane.ControlDomain.Published

/-!
# The browser half

`frontend/src/lib/radio/control-domain.ts`, function by function.

A JavaScript number does not tell `10` from `10.0`.  `BigInt` divides towards zero, and its
conversions have no limit on the digits.
-/

namespace Rigplane.ControlDomain.Frontend

open Decimal

/-! ## Decimals -/

/-- `decimal`. -/
def decimal (value : Json) : Option Decimal :=
  match value.asStr with
  | none => none
  | some text =>
      let chars := text.toList
      if chars = ['-', '0'] ∨ canonicalDecimal chars = false then none
      else
        let negative := chars.head? = some '-'
        let unsigned := if negative then chars.tail else chars
        -- `unsigned.split('.')`
        let integer := unsigned.takeWhile (· ≠ '.')
        let fraction := (unsigned.dropWhile (· ≠ '.')).tail.takeWhile (· ≠ '.')
        let magnitude : Int := Nat.ofDigitChars 10 (integer ++ fraction) 0
        some ⟨if negative then -magnitude else magnitude, fraction.length⟩

/-- `text`. -/
def text (value : Decimal) : String :=
  if value.coefficient = 0 then "0"
  else
    let negative := if value.coefficient < 0 then ['-'] else []
    let digits := Nat.toDigits 10 value.coefficient.natAbs
    if value.scale = 0 then String.ofList (negative ++ digits)
    else
      let padded := digits.leftpad (value.scale + 1) '0'
      let fraction := (padded.drop (padded.length - value.scale)).rdropWhile (· = '0')
      String.ofList (negative ++ padded.take (padded.length - value.scale) ++
        if fraction = [] then [] else '.' :: fraction)

/-- `align`. -/
def align (values : List Decimal) : List Int :=
  let scale := (values.map Decimal.scale).foldl max 0
  values.map fun value => value.coefficient * 10 ^ (scale - value.scale)

/-- `compare`. -/
def compare (left right : Decimal) : Int :=
  match align [left, right] with
  | [a, b] => if a = b then 0 else if a < b then -1 else 1
  | _ => 0

/-- `add`. -/
def add (origin : Decimal) (steps : Int) (step : Decimal) : Decimal :=
  match align [origin, step] with
  | [base, increment] => ⟨base + steps * increment, max origin.scale step.scale⟩
  | _ => origin

/-- `lattice`. -/
def lattice (value origin step : Decimal) : Option Int :=
  if compare step ⟨0, 0⟩ ≤ 0 then none
  else
    match align [value, origin, step] with
    | [item, base, unit] =>
        let difference := item - base
        if difference.tmod unit = 0 then some (difference.tdiv unit) else none
    | _ => none

/-- `floorDivide`. -/
def floorDivide (value divisor : Int) : Int :=
  let quotient := value.tdiv divisor
  if value < 0 ∧ value.tmod divisor ≠ 0 then quotient - 1 else quotient

/-! ## Domains -/

/-- `Number.isSafeInteger`, with the integer. -/
def safeInteger : Json → Option Int
  | .int value => if -safeIntegerMax ≤ value ∧ value ≤ safeIntegerMax then some value else none
  | .float value =>
      if value.den = 1 ∧ -safeIntegerMax ≤ value.num ∧ value.num ≤ safeIntegerMax then
        some value.num
      else none
  | _ => none

/-- `rawIndex`. -/
def rawIndex (domain : Domain) (raw : Json) : Option Int :=
  match safeInteger raw, safeInteger (Json.get domain "raw_min"),
    safeInteger (Json.get domain "raw_max"), safeInteger (Json.get domain "raw_step"),
    safeInteger (Json.get domain "raw_origin") with
  | some raw, some rawMin, some rawMax, some rawStep, some rawOrigin =>
      if rawMin ≥ rawMax ∨ rawStep ≤ 0 ∨ rawOrigin < rawMin ∨ rawOrigin > rawMax ∨ raw < rawMin ∨
          raw > rawMax then none
      else if (rawMin - rawOrigin).tmod rawStep ≠ 0 ∨ (rawMax - rawOrigin).tmod rawStep ≠ 0 then
        none
      else
        let index := (raw - rawOrigin).tdiv rawStep
        if (raw - rawOrigin).tmod rawStep = 0 then some index else none
  | _, _, _, _, _ => none

/-- `axis`. -/
def axis (domain : Domain) : Option Axis :=
  match decimal (Json.get domain "display_min"), decimal (Json.get domain "display_max"),
    decimal (Json.get domain "display_step"), decimal (Json.get domain "display_origin") with
  | some low, some high, some step, some origin =>
      if compare low high ≥ 0 ∨ compare step ⟨0, 0⟩ ≤ 0 then none
      else if compare origin low < 0 ∨ compare origin high > 0 then none
      else if lattice low origin step = none ∨ lattice high origin step = none then none
      else some ⟨low, high, step, origin⟩
  | _, _, _, _ => none

/-- `inAxis`. -/
def inAxis (value : Decimal) (values : Axis) : Bool :=
  compare value values.displayMin ≥ 0 && compare value values.displayMax ≤ 0 &&
    (lattice value values.displayOrigin values.displayStep).isSome

/-- `inRange`. -/
def inRange (value : Decimal) (values : Axis) : Bool :=
  compare value values.displayMin ≥ 0 && compare value values.displayMax ≤ 0

/-- `LookupPoint`. -/
structure LookupPoint where
  raw : Int
  display : String
deriving DecidableEq

/-- The points found so far, and the directions they go. -/
structure Points where
  points : List LookupPoint := []
  rawDirection : Int := 0
  displayDirection : Int := 0

/-- One round of the loop of `lookup`. -/
def lookupRound (domain : Domain) (values : Axis) (found : Points) (item : Json) : Option Points :=
  match item with
  | .obj record =>
      let keys := recordKeys record
      if keys.length ≠ 2 ∨ "raw" ∉ keys ∨ "display" ∉ keys then none
      else
        match safeInteger (Json.get record "raw"), (Json.get record "display").asStr with
        | some raw, some displayText =>
            match decimal (.str displayText) with
            | none => none
            | some display =>
                if rawIndex domain (.int raw) = none ∨ inAxis display values = false then none
                else
                  let point : LookupPoint := ⟨raw, displayText⟩
                  match found.points.getLast? with
                  | none => some { found with points := found.points ++ [point] }
                  | some previous =>
                      let nextRawDirection : Int :=
                        if raw > previous.raw then 1 else if raw < previous.raw then -1 else 0
                      let nextDisplayDirection :=
                        compare display ((decimal (.str previous.display)).getD ⟨0, 0⟩)
                      if nextRawDirection = 0 ∨ nextDisplayDirection = 0 ∨
                          (found.rawDirection ≠ 0 ∧ found.rawDirection ≠ nextRawDirection) ∨
                          (found.displayDirection ≠ 0 ∧
                            found.displayDirection ≠ nextDisplayDirection) then none
                      else some ⟨found.points ++ [point], nextRawDirection, nextDisplayDirection⟩
        | _, _ => none
  | _ => none

/-- The loop of `lookup`. -/
def lookupLoop (domain : Domain) (values : Axis) (found : Points) :
    List Json → Option (List LookupPoint)
  | [] => some found.points
  | item :: rest =>
      match lookupRound domain values found item with
      | none => none
      | some found => lookupLoop domain values found rest

/-- `lookup`. -/
def lookup (domain : Domain) (values : Axis) : Option (List LookupPoint) :=
  match Json.get domain "lookup" with
  | .arr (item :: rest) => lookupLoop domain values {} (item :: rest)
  | _ => none

/-- `scalarIndex`. -/
def scalarIndex (domain : Domain) : Option (Int × Int) :=
  match rawIndex domain (Json.get domain "raw_min"),
      rawIndex domain (Json.get domain "raw_origin") with
  | some rawMin, some rawOrigin => some (rawMin, rawOrigin)
  | _, _ => none

/-- `sameCardinality`. -/
def sameCardinality (domain : Domain) (values : Axis) : Bool :=
  match rawIndex domain (Json.get domain "raw_min"), rawIndex domain (Json.get domain "raw_max"),
    lattice values.displayMin values.displayOrigin values.displayStep,
    lattice values.displayMax values.displayOrigin values.displayStep with
  | some rawMin, some rawMax, some displayMin, some displayMax =>
      rawMax - rawMin = displayMax - displayMin
  | _, _, _, _ => false

/-- `isIdentity`. -/
def isIdentity (domain : Domain) (values : Axis) : Bool :=
  if rawIndex domain (Json.get domain "raw_min") = none ∨
      rawIndex domain (Json.get domain "raw_max") = none then false
  else
    [("raw_min", values.displayMin), ("raw_max", values.displayMax),
      ("raw_step", values.displayStep), ("raw_origin", values.displayOrigin)].all
      fun (key, display) =>
        match safeInteger (Json.get domain key) with
        | none => false
        | some raw => compare ⟨raw, 0⟩ display = 0

/-- `centeredAligned`. -/
def centeredAligned (domain : Domain) (values : Axis) : Bool :=
  if (Json.get domain "mapping").asStr ≠ some "centered" then false
  else
    let rawMin := rawIndex domain (Json.get domain "raw_min")
    let rawCenter := rawIndex domain (Json.get domain "raw_center")
    let displayCenter := decimal (Json.get domain "display_center")
    let displayOffset := displayCenter.bind fun center =>
      lattice center values.displayMin values.displayStep
    match rawMin, rawCenter, displayCenter, displayOffset with
    | some rawMin, some rawCenter, some displayCenter, some displayOffset =>
        inAxis displayCenter values && rawCenter - rawMin = displayOffset &&
          sameCardinality domain values
    | _, _, _, _ => false

/-- `validDomain`. -/
def validDomain (domain : Domain) (values : Axis) : Bool :=
  match (Json.get domain "quantization").asStr with
  | none => false
  | some quantization =>
      if quantization ∉ quantizations then false
      else
        let mapping := (Json.get domain "mapping").asStr
        if mapping = some "identity" then isIdentity domain values
        else if mapping = some "linear" then
          match scalarIndex domain,
            lattice values.displayOrigin values.displayMin values.displayStep with
          | some (rawMin, rawOrigin), some originIndex =>
              rawOrigin - rawMin = originIndex && sameCardinality domain values
          | _, _ => false
        else if mapping = some "centered" then centeredAligned domain values
        else mapping = some "lookup" && (lookup domain values).isSome

/-- `domainIsExact`. -/
def domainIsExact (domain : Domain) (values : Axis) : Bool :=
  if (Json.get domain "restoration").asStr ≠ some "exact" then false
  else if (Json.get domain "mapping").asStr ≠ some "lookup" then true
  else
    match rawIndex domain (Json.get domain "raw_min"), rawIndex domain (Json.get domain "raw_max"),
      lookup domain values with
    | some min, some max, some points => (points.length : Int) = max - min + 1
    | _, _, _ => false

/-! ## Decode, quantize, encode -/

/-- `inAxis(result, values) ? text(result) : null`. -/
def textInAxis (result : Decimal) (values : Axis) : Option String :=
  if inAxis result values then some (text result) else none

/-- `decodeControlDomain`. -/
def decodeControlDomain (domain : Domain) (raw : Json) : Option String :=
  match axis domain, rawIndex domain raw, safeInteger raw with
  | some values, some index, some raw =>
      if validDomain domain values = false then none
      else
        let mapping := (Json.get domain "mapping").asStr
        if mapping = some "identity" then
          if isIdentity domain values then some (text ⟨raw, 0⟩) else none
        else if mapping = some "lookup" then
          match lookup domain values with
          | none => none
          | some points => (points.find? fun point => point.raw = raw).map LookupPoint.display
        else if mapping = some "linear" then
          textInAxis (add values.displayOrigin index values.displayStep) values
        else if mapping = some "centered" then
          match rawIndex domain (Json.get domain "raw_center"),
            decimal (Json.get domain "display_center") with
          | some center, some displayCenter =>
              textInAxis (add displayCenter (index - center) values.displayStep) values
          | _, _ => none
        else none
  | _, _, _ => none

/-- The lattice index a quantization picks, of a quotient and a remainder. -/
def quantizedIndex (quantization : Option String) (quotient remainder step : Int) : Option Int :=
  if quantization = some "floor" then some quotient
  else if quantization = some "ceil" then
    some (if remainder = 0 then quotient else quotient + 1)
  else if quantization = some "reject" then
    if remainder ≠ 0 then none else some quotient
  else if quantization = some "nearest_ties_down" then
    some (if remainder * 2 > step then quotient + 1 else quotient)
  else if quantization = some "nearest_ties_up" then
    some (if remainder * 2 ≥ step then quotient + 1 else quotient)
  else none

/-- The lattice value a domain quantizes a value in its range to. -/
def quantized (domain : Domain) (values : Axis) (value : Decimal) : Option Decimal :=
  match align [value, values.displayOrigin, values.displayStep] with
  | [item, origin, step] =>
      let difference := item - origin
      let quotient := floorDivide difference step
      let remainder := difference - quotient * step
      match quantizedIndex (Json.get domain "quantization").asStr quotient remainder step with
      | none => none
      | some index => some (add values.displayOrigin index values.displayStep)
  | _ => none

/-- `quantizeControlDomain`. -/
def quantizeControlDomain (domain : Domain) (display : Json) : Option String :=
  match axis domain, decimal display with
  | some values, some value =>
      if inRange value values = false ∨ validDomain domain values = false then none
      else
        match quantized domain values value with
        | none => none
        | some result => textInAxis result values
  | _, _ => none

/-- The end of `encodeControlDomain`, of a linear or a centered mapping.  `Number(raw)` is
no safe integer where it has to round. -/
def restored (domain : Domain) (raw : Int) (quantized : String) : Option Int :=
  if (-safeIntegerMax ≤ raw ∧ raw ≤ safeIntegerMax) ∧ rawIndex domain (.int raw) ≠ none ∧
      decodeControlDomain domain (.int raw) = some quantized then some raw
  else none

/-- `encodeControlDomain`. -/
def encodeControlDomain (domain : Domain) (display : Json) : Option Int :=
  match axis domain with
  | none => none
  | some values =>
      if validDomain domain values = false ∨ domainIsExact domain values = false then none
      else
        match quantizeControlDomain domain display with
        | none => none
        | some quantized =>
            let mapping := (Json.get domain "mapping").asStr
            if mapping = some "identity" then
              if isIdentity domain values = false then none
              else
                match decimal (.str quantized), safeInteger (Json.get domain "raw_min"),
                  safeInteger (Json.get domain "raw_max") with
                | some value, some rawMin, some rawMax =>
                    if value.scale ≠ 0 ∨ value.coefficient < rawMin ∨
                        value.coefficient > rawMax then
                      none
                    else if rawIndex domain (.int value.coefficient) = none then none
                    else some value.coefficient
                | _, _, _ => none
            else if mapping = some "lookup" then
              match lookup domain values with
              | none => none
              | some points =>
                  match points.filter fun point => point.display = quantized with
                  | [point] => some point.raw
                  | _ => none
            else
              match decimal (.str quantized) with
              | none => none
              | some target =>
                  if mapping = some "linear" then
                    match lattice target values.displayOrigin values.displayStep,
                      safeInteger (Json.get domain "raw_origin"),
                      safeInteger (Json.get domain "raw_step") with
                    | some displayIndex, some rawOrigin, some rawStep =>
                        restored domain (rawOrigin + displayIndex * rawStep) quantized
                    | _, _, _ => none
                  else if mapping = some "centered" then
                    match rawIndex domain (Json.get domain "raw_center"),
                      decimal (Json.get domain "display_center"),
                      safeInteger (Json.get domain "raw_center"),
                      safeInteger (Json.get domain "raw_step") with
                    | some _, some displayCenter, some rawCenter, some rawStep =>
                        match lattice target displayCenter values.displayStep with
                        | none => none
                        | some offset => restored domain (rawCenter + offset * rawStep) quantized
                    | _, _, _, _ => none
                  else none

end Rigplane.ControlDomain.Frontend
