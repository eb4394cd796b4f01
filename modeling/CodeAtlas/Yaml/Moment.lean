/-! Dates and times of day. A text can have the form of a date without naming one, as the thirtieth
of February does: reading gives its figures, and `Moment.isPossible` says whether they name a
moment. -/

namespace CodeAtlas.Yaml

/-- A time of day to the microsecond. Where it is told, `offset` is by how many minutes it is ahead
of universal time. -/
structure Clock where
  hour : Nat
  minute : Nat
  second : Nat
  microsecond : Nat
  offset : Option Int
  deriving DecidableEq, Repr

structure Moment where
  year : Nat
  month : Nat
  day : Nat
  clock : Option Clock
  deriving DecidableEq, Repr

def daysIn (year month : Nat) : Nat :=
  if month = 2 then
    if year % 4 = 0 && (year % 100 ≠ 0 || year % 400 = 0) then 29 else 28
  else if month = 4 || month = 6 || month = 9 || month = 11 then 30
  else 31

def Clock.isPossible (clock : Clock) : Bool :=
  clock.hour < 24 && clock.minute < 60 && clock.second < 60 &&
    (clock.offset.getD 0).natAbs < 24 * 60

/-- Whether there is such a moment in the years 1 to 9999. -/
def Moment.isPossible (moment : Moment) : Bool :=
  1 ≤ moment.year && moment.year ≤ 9999 && 1 ≤ moment.month && moment.month ≤ 12 &&
    1 ≤ moment.day && moment.day ≤ daysIn moment.year moment.month &&
    moment.clock.all Clock.isPossible

/-! Reading -/

def figure (digits : List Char) : Nat := digits.foldl (fun n c => 10 * n + (c.toNat - 48)) 0

def readDigits (count : Nat) (text : List Char) : Option (Nat × List Char) :=
  let digits := text.take count
  if digits.length == count && digits.all Char.isDigit then some (figure digits, text.drop count)
  else none

def readDigitOrTwo (text : List Char) : Option (Nat × List Char) :=
  (readDigits 2 text).or (readDigits 1 text)

def pass (c : Char) : List Char → Option (List Char)
  | d :: rest => if c == d then some rest else none
  | [] => none

def isGap (c : Char) : Bool := c == ' ' || c == '\t'

def readOffset (text : List Char) : Option (Option Int) :=
  match text.dropWhile isGap with
  | [] => if text.isEmpty then some none else none
  | ['Z'] => some (some 0)
  | sign :: rest => do
    let signed (minutes : Nat) : Option (Option Int) :=
      if sign == '+' then some (some minutes)
      else if sign == '-' then some (some (-minutes))
      else none
    let (hours, rest) ← readDigitOrTwo rest
    match rest with
    | [] => signed (60 * hours)
    | _ =>
      let (minutes, rest) ← readDigits 2 (← pass ':' rest)
      if rest.isEmpty then signed (60 * hours + minutes) else none

/-- The microseconds of a fraction of a second, of which six digits count. -/
def microseconds (fraction : List Char) : Nat :=
  figure ((fraction ++ List.replicate 6 '0').take 6)

def Clock.ofText? (text : List Char) : Option Clock := do
  let (hour, rest) ← readDigitOrTwo text
  let (minute, rest) ← readDigits 2 (← pass ':' rest)
  let (second, rest) ← readDigits 2 (← pass ':' rest)
  let (fraction, rest) := match rest with
    | '.' :: rest => (rest.takeWhile Char.isDigit, rest.dropWhile Char.isDigit)
    | rest => ([], rest)
  let offset ← readOffset rest
  return { hour, minute, second, microsecond := microseconds fraction, offset }

def Moment.ofText? (text : List Char) : Option Moment := do
  let (year, rest) ← readDigits 4 text
  let (month, rest) ← readDigitOrTwo (← pass '-' rest)
  let (day, rest) ← readDigitOrTwo (← pass '-' rest)
  let clock ← match rest with
    | [] => some none
    | 'T' :: rest | 't' :: rest => (Clock.ofText? rest).map some
    | c :: rest =>
      if isGap c then (Clock.ofText? (rest.dropWhile isGap)).map some else none
  return { year, month, day, clock }

/-- The moment that a text writes unasked: a date by itself then has two digits for month and
day. -/
def Moment.ofWord? (text : List Char) : Option Moment :=
  (Moment.ofText? text).filter fun moment => moment.clock.isSome || text.length == 10

/-! Writing -/

def padded (width n : Nat) : String :=
  let digits := Nat.toDigits 10 n
  String.ofList (List.replicate (width - digits.length) '0' ++ digits)

def offsetText (minutes : Int) : String :=
  (if minutes < 0 then "-" else "+") ++ padded 2 (minutes.natAbs / 60) ++ ":" ++
    padded 2 (minutes.natAbs % 60)

def Clock.render (clock : Clock) : String :=
  padded 2 clock.hour ++ ":" ++ padded 2 clock.minute ++ ":" ++ padded 2 clock.second ++
    (if clock.microsecond = 0 then "" else "." ++ padded 6 clock.microsecond) ++
    (clock.offset.map offsetText).getD ""

def Moment.render (moment : Moment) : String :=
  padded 4 moment.year ++ "-" ++ padded 2 moment.month ++ "-" ++ padded 2 moment.day ++
    (moment.clock.map fun clock => " " ++ clock.render).getD ""

end CodeAtlas.Yaml
