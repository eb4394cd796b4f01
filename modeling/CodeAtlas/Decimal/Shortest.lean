/-! Binary floating-point numbers of 64 bits, held by the shortest decimal that reads back as the
same number. All rounding is exact arithmetic on natural numbers: to the nearest, ties to even. -/

namespace CodeAtlas

/-- A 64-bit floating-point number. A finite one is `digits × 10 ^ exponent`, with as few digits as
identify it and no trailing zero; zero has no digits and keeps its sign. -/
inductive Real64 where
  | finite (negative : Bool) (digits : Nat) (exponent : Int)
  | infinite (negative : Bool)
  | notANumber
  deriving Repr, DecidableEq, Inhabited

namespace Decimal

def roundDiv (num den : Nat) : Nat :=
  let quotient := num / den
  let twice := 2 * (num % den)
  if twice < den then quotient
  else if twice > den then quotient + 1
  else quotient + quotient % 2

def scaledRound (num den : Nat) (power : Int) : Nat :=
  if power < 0 then roundDiv (num * Nat.pow 2 power.natAbs) den
  else roundDiv num (den * Nat.pow 2 power.natAbs)

/-- The binary significand and exponent nearest to the positive `num / den`: at most 53 bits, and an
exponent of at least -1074. -/
def nearestBinary (num den : Nat) : Nat × Int :=
  let estimate : Int := (Nat.log2 num : Int) - (Nat.log2 den : Int) - 53
  let power := max estimate (-1074)
  let significand := scaledRound num den power
  if significand < Nat.pow 2 53 then (significand, power)
  else
    let significand := scaledRound num den (power + 1)
    if significand < Nat.pow 2 53 then (significand, power + 1) else (significand / 2, power + 2)

def tenPower (power : Int) : Nat × Nat :=
  if power < 0 then (1, Nat.pow 10 power.natAbs) else (Nat.pow 10 power.natAbs, 1)

def twoPower (power : Int) : Nat × Nat :=
  if power < 0 then (1, Nat.pow 2 power.natAbs) else (Nat.pow 2 power.natAbs, 1)

/-- Whether `digits × 10 ^ power` rounds to `significand × 2 ^ binary`: it lies between the
midpoints to the two neighbours, which count when the significand is even. -/
def readsBack (significand : Nat) (binary : Int) (digits : Nat) (power : Int) : Bool :=
  let (a, b) := tenPower power
  let (c, d) := twoPower (binary - 2)
  let value := digits * a * d
  let unit := b * c
  let below := if significand == Nat.pow 2 52 && binary > -1074 then 1 else 2
  let low := (4 * significand - below) * unit
  let high := (4 * significand + 2) * unit
  if significand % 2 == 0 then low ≤ value && value ≤ high else low < value && value < high

def decimalOrder (num den : Nat) (start : Int) : Nat → Int
  | 0 => start
  | fuel + 1 =>
    let (a, b) := tenPower (start + 1)
    if a * den ≤ num * b then decimalOrder num den (start + 1) fuel else start

def stripZeros (digits : Nat) (power : Int) : Nat → Nat × Int
  | 0 => (digits, power)
  | fuel + 1 =>
    if digits != 0 && digits % 10 == 0 then stripZeros (digits / 10) (power + 1) fuel
    else (digits, power)

/-- The shortest decimal that reads back as `significand × 2 ^ binary`: of the two grid neighbours
of the value the nearer one, on the coarsest grid that has one. -/
def shortestFrom (significand : Nat) (binary : Int) (order : Int) : Nat → Nat → Nat × Int
  | _, 0 => (significand, 0)
  | count, fuel + 1 =>
    let power := order - count + 1
    let (c, d) := twoPower binary
    let (a, b) := tenPower power
    let num := significand * c * b
    let den := d * a
    let floor := num / den
    let lowOk := floor != 0 && readsBack significand binary floor power
    let highOk := readsBack significand binary (floor + 1) power
    if lowOk || highOk then
      let takeHigh := highOk && (!lowOk || 2 * (num % den) > den)
      stripZeros (if takeHigh then floor + 1 else floor) power 20
    else shortestFrom significand binary order (count + 1) fuel

def shortest (significand : Nat) (binary : Int) : Nat × Int :=
  let (c, d) := twoPower binary
  let num := significand * c
  let bits : Int := (Nat.log2 num : Int) - (Nat.log2 d : Int)
  let start := (bits - 1) * 30103 / 100000 - 2
  shortestFrom significand binary (decimalOrder num d start 8) 1 17

end Decimal

def Real64.ofDecimal (negative : Bool) (mantissa : Nat) (exponent : Int) : Real64 :=
  if mantissa = 0 then .finite negative 0 0
  else
    let size : Int := (Nat.toDigits 10 mantissa).length + exponent
    if size > 400 then .infinite negative
    else if size < -400 then .finite negative 0 0
    else
      let (a, b) := Decimal.tenPower exponent
      let (significand, power) := Decimal.nearestBinary (mantissa * a) b
      if significand = 0 then .finite negative 0 0
      else if significand ≥ Nat.pow 2 52 && power > 971 then .infinite negative
      else
        let (digits, order) := Decimal.shortest significand power
        .finite negative digits order

def Real64.whole? : Real64 → Option Int
  | .finite negative digits exponent =>
    if digits = 0 then some 0
    else
      let (a, b) := Decimal.tenPower exponent
      let (significand, power) := Decimal.nearestBinary (digits * a) b
      let (c, d) := Decimal.twoPower power
      let magnitude := significand * c / d
      if significand * c % d = 0 then some (if negative then -(magnitude : Int) else magnitude)
      else none
  | _ => none

/-- The decimal text: positional while the order of magnitude is from -4 to 15, otherwise with an
exponent of at least two figures; a whole number keeps `.0`. -/
def Real64.render : Real64 → String
  | .notANumber => "nan"
  | .infinite negative => if negative then "-inf" else "inf"
  | .finite negative digits exponent =>
    let sign := if negative then "-" else ""
    if digits = 0 then sign ++ "0.0"
    else
      let figures := Nat.toDigits 10 digits
      let order : Int := figures.length + exponent - 1
      let zeros (n : Nat) := List.replicate n '0'
      let body : List Char :=
        if -4 ≤ order && order < 16 then
          if order < 0 then '0' :: '.' :: zeros (order.natAbs - 1) ++ figures
          else
            let whole := order.natAbs + 1
            let padded := figures ++ zeros (whole - figures.length)
            let fraction := padded.drop whole
            padded.take whole ++ '.' :: (if fraction.isEmpty then ['0'] else fraction)
        else
          let power := Nat.toDigits 10 order.natAbs
          let mantissa := match figures with
            | first :: second :: rest => first :: '.' :: second :: rest
            | short => short
          mantissa ++ 'e' :: (if order < 0 then '-' else '+') ::
            (if power.length < 2 then '0' :: power else power)
      sign ++ String.ofList body

def Decimal.sixPlaces (num den : Nat) : String :=
  let (significand, power) := if num = 0 then (0, 0) else Decimal.nearestBinary num den
  let (c, d) := Decimal.twoPower power
  let scaled := Decimal.roundDiv (significand * c * Nat.pow 10 6) d
  let fraction := Nat.toDigits 10 (scaled % Nat.pow 10 6)
  String.ofList (Nat.toDigits 10 (scaled / Nat.pow 10 6) ++ '.' ::
    (List.replicate (6 - fraction.length) '0' ++ fraction))

end CodeAtlas
