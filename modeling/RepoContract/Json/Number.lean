/-
# RepoContract.Json.Number: reading a number

A number is read into a significand below 2^64 and a power of ten. Digits that no longer fit are
not read into the significand: before the point each of them raises the power by one, after it
they are passed over. Without fraction, exponent and lost digits the number is an integer, if it
fits; all others are doubles, the significand rounded and then multiplied or divided by the
rounded power of ten.
-/
import RepoContract.Json.Stop
import RepoContract.Json.Value
import RepoContract.Text.Decimal

namespace RepoContract.Json

set_option autoImplicit false

/-- Read digits into the significand while it stays below 2^64; the digits left over. -/
def absorb : Nat → List Char → Nat × List Char
  | significand, [] => (significand, [])
  | significand, d :: rest =>
    let next := significand * 10 + Text.digitValue d
    if next < UInt64.size then absorb next rest else (significand, d :: rest)

/-- Ten to a power of at most 308, rounded. -/
def powerOfTen (exponent : Nat) : Float :=
  Float.ofScientific 1 false exponent

/-- A double scaled by a power of ten in steps of 308; none when it is too large. -/
def scale (value : Float) (exponent : Int) : Option Float :=
  if exponent.natAbs ≤ 308 then
    if 0 ≤ exponent then
      let scaled := value * powerOfTen exponent.natAbs
      if scaled.isInf then none else some scaled
    else some (value / powerOfTen exponent.natAbs)
  else if value == 0.0 then some value
  else if 0 ≤ exponent then none
  else scale (value / powerOfTen 308) (exponent + 308)
  termination_by exponent.natAbs

/-- The double of a sign, a significand and a power of ten. -/
def double? (negative : Bool) (significand : Nat) (exponent : Int) : Option Number :=
  (scale significand.toUInt64.toFloat exponent).map fun value =>
    .double (if negative then -value else value).toBits

/-- An integer as a number: minus zero and what lies below -2^63 are doubles. -/
def integer (negative : Bool) (significand : Nat) : Number :=
  if !negative then .integer significand
  else if 0 < significand && significand ≤ UInt64.size / 2 then .integer (-significand)
  else .double (-significand.toUInt64.toFloat).toBits

/-- The largest power of ten that is written out; a longer one is told apart by its sign alone. -/
def exponentLimit : Nat := UInt32.size / 2 - 1

/-- The digits of a power of ten, up to and with the one that passes the limit. -/
def passExponent : Nat → List Char → Option (List Char)
  | _, [] => none
  | value, d :: rest =>
    let next := value * 10 + Text.digitValue d
    if next ≤ exponentLimit then passExponent next rest else some rest

/-- Read what follows the letter of an exponent. -/
def readExponent (negative : Bool) (significand : Nat) (start : Int) (text : List Char) :
    Except Stop (Number × List Char) :=
  let (down, text) : Bool × List Char :=
    match text with
    | '+' :: rest => (false, rest)
    | '-' :: rest => (true, rest)
    | _ => (false, text)
  let digits := text.takeWhile Char.isDigit
  let rest := text.dropWhile Char.isDigit
  if digits.isEmpty then
    .error (if text.isEmpty then .before .endInValue [] else .at .badNumber text)
  else
    match passExponent 0 digits with
    | some left =>
      if significand != 0 && !down then .error (.before .numberTooLarge (left ++ rest))
      else .ok (.double (if negative then (-0.0 : Float) else 0.0).toBits, rest)
    | none =>
      let power : Int := Text.decimalValue digits
      match double? negative significand (if down then start - power else start + power) with
      | some number => .ok (number, rest)
      | none => .error (.before .numberTooLarge rest)

/-- Read an exponent, if there is one. -/
def readScaled (negative : Bool) (significand : Nat) (exponent : Int) (text : List Char) :
    Except Stop (Number × List Char) :=
  let plain : Except Stop (Number × List Char) :=
    match double? negative significand exponent with
    | some number => .ok (number, text)
    | none => .error (.before .numberTooLarge text)
  match text with
  | 'e' :: rest => readExponent negative significand exponent rest
  | 'E' :: rest => readExponent negative significand exponent rest
  | _ => plain

/-- Read what follows a decimal point. -/
def readFraction (negative : Bool) (significand : Nat) (exponent : Int) (text : List Char) :
    Except Stop (Number × List Char) :=
  let digits := text.takeWhile Char.isDigit
  let rest := text.dropWhile Char.isDigit
  if digits.isEmpty then
    .error (if text.isEmpty then .before .endInValue [] else .at .badNumber text)
  else
    let (significand, lost) := absorb significand digits
    readScaled negative significand (exponent - (digits.length - lost.length : Nat)) rest

/-- Read a number from its first digit on. -/
def readDigits (negative : Bool) (text : List Char) : Except Stop (Number × List Char) :=
  match text with
  | [] => .error (.before .endInValue [])
  | first :: after =>
    if !first.isDigit then .error (.at .badNumber text)
    else if first = '0' && after.head?.any Char.isDigit then .error (.at .badNumber after)
    else
      let (significand, lost) := absorb 0 (text.takeWhile Char.isDigit)
      match text.dropWhile Char.isDigit with
      | '.' :: rest => readFraction negative significand lost.length rest
      | rest =>
        if lost.isEmpty && !(rest.head?.any fun c => c = 'e' || c = 'E') then
          .ok (integer negative significand, rest)
        else readScaled negative significand lost.length rest

end RepoContract.Json
