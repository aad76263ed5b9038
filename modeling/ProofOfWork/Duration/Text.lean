import ProofOfWork.Decimal.Literal
import ProofOfWork.Duration.Basic
import ProofOfWork.Text.Basic
set_option autoImplicit false

namespace ProofOfWork.Duration
open ProofOfWork.Text

/-- A unit of time: its names, and how many nanoseconds or whole seconds it has. -/
structure TimeUnit where
  names : List String
  subsecond : Bool
  size : Nat

def timeUnits : List TimeUnit := [
  ⟨["nanos", "nsec", "ns"], true, 1⟩,
  ⟨["usec", "us", "\u00B5s"], true, 1000⟩,
  ⟨["millis", "msec", "ms"], true, 1000000⟩,
  ⟨["seconds", "second", "secs", "sec", "s"], false, 1⟩,
  ⟨["minutes", "minute", "min", "mins", "m"], false, 60⟩,
  ⟨["hours", "hour", "hrs", "hr", "h"], false, 3600⟩,
  ⟨["days", "day", "d"], false, 86400⟩,
  ⟨["weeks", "week", "wk", "wks", "w"], false, 604800⟩,
  ⟨["months", "month", "M"], false, 2630016⟩,
  ⟨["years", "year", "yr", "yrs", "y"], false, 31557600⟩]

def timeUnit? (name : List Char) : Option TimeUnit :=
  timeUnits.find? fun u => u.names.contains (String.ofList name)

def word? (n : Nat) : Option Nat := if n < 2 ^ 64 then some n else none

/-- The sum so far and some more seconds and nanoseconds. -/
def extend? (sum seconds nanos : Nat) : Option Nat := do
  let _ ← word? (sum % nanosPerSecond + nanos)
  let total := sum + seconds * nanosPerSecond + nanos
  if total < durationLimit then some total else none

/-- The sum so far and `whole` units. -/
def addWhole? (sum whole : Nat) (u : TimeUnit) : Option Nat := do
  let size ← word? (whole * u.size)
  if u.subsecond then extend? sum 0 size else extend? sum size 0

def quotient? (n d : Nat) : Option Nat := if n % d = 0 then some (n / d) else none

/-- The sum so far and the decimals `fraction` of one unit. They have to come to whole nanoseconds,
for hours and longer units to whole seconds; a nanosecond has no decimals. -/
def addFraction? (sum : Nat) (fraction : List Char) (u : TimeUnit) : Option Nat := do
  let parts ← word? (10 ^ fraction.length)
  let count := Decimal.digitsValue fraction
  if u.subsecond && u.size == 1 then none
  else if u.subsecond then
    extend? sum 0 (← quotient? (← word? (count * u.size)) parts)
  else if u.size ≤ 60 then
    extend? sum 0 (← quotient? (← word? (count * (u.size * nanosPerSecond))) parts)
  else extend? sum (← quotient? (← word? (count * u.size)) parts) 0

def isDigitOrBlank (c : Char) : Bool := c.isDigit || isBlank c

def isUnitLetter (c : Char) : Bool := c.isAlpha || c = '\u00B5'

/-- One number with its unit, and the rest of the text. -/
def term? (sum : Nat) (text : List Char) : Option (Nat × List Char) := do
  let whole ← word? (Decimal.digitsValue ((text.takeWhile isDigitOrBlank).filter Char.isDigit))
  let rest := text.dropWhile isDigitOrBlank
  let (fraction, rest) : Option (List Char) × List Char := match rest with
    | '.' :: rest =>
      (some ((rest.takeWhile isDigitOrBlank).filter Char.isDigit), rest.dropWhile isDigitOrBlank)
    | rest => (none, rest)
  let u ← timeUnit? (rest.takeWhile isUnitLetter)
  let sum ← addWhole? sum whole u
  let sum ← match fraction with
    | none => some sum
    | some [] => none
    | some digits => addFraction? sum digits u
  return (sum, rest.dropWhile isUnitLetter)

/-- Numbers with units up to the end of the text; each one starts with a digit. -/
def terms? (sum : Nat) : Nat → List Char → Option Nat
  | 0, _ => none
  | fuel + 1, text =>
    match text.dropWhile isBlank with
    | [] => some sum
    | c :: rest =>
      if c.isDigit then do
        let (sum, rest) ← term? sum (c :: rest)
        terms? sum fuel rest
      else none

/-- A duration as text; a lone `0` needs no unit. -/
def read? (text : List Char) : Option Duration :=
  if text = ['0'] then some zero
  else if text.all isBlank then none
  else (terms? 0 (text.length + 1) text).bind ofNanos?

/-- A count with its unit, if there is anything to count. -/
def part (count : Nat) (unit : String) (plural : Bool) : List String :=
  if count = 0 then []
  else [String.ofList (decimal count) ++ unit ++ (if plural && count > 1 then "s" else "")]

def text (d : Duration) : String :=
  let s := d.seconds
  let inYear := s % 31557600
  let inMonth := inYear % 2630016
  let inDay := inMonth % 86400
  let n := d.subsecond
  let parts :=
    part (s / 31557600) "year" true ++ part (inYear / 2630016) "month" true ++
    part (inMonth / 86400) "day" true ++ part (inDay / 3600) "h" false ++
    part (inDay % 3600 / 60) "m" false ++ part (inDay % 60) "s" false ++
    part (n / 1000000) "ms" false ++ part (n / 1000 % 1000) "us" false ++
    part (n % 1000) "ns" false
  if d.nanos = 0 then "0s" else " ".intercalate parts

end ProofOfWork.Duration
