import DeclaredSource.Decimal.Shortest

/-!
# JSON numbers

A number is an integer of at most 64 bits or the bit pattern of a double. Its text is the plain
integer, or the shortest digits that read back: positional, always with a point, for values from
`10 ^ (-5)` to below `10 ^ 16`, and with a signed exponent otherwise. Reading a double collects the
digits into 64 bits and scales once by a power of ten, so the last bit is not always the nearest.
-/

namespace DeclaredSource.Json

inductive Number where
  | integer (value : Int)
  | double (bits : UInt64)
  deriving DecidableEq, Repr

namespace Number

def positional (digits : String) (exponent : Int) : String :=
  let all := digits.toList
  if exponent < 0 then
    "0." ++ String.ofList (List.replicate (-exponent - 1).toNat '0') ++ digits
  else
    let whole := exponent.toNat + 1
    if all.length ≤ whole then
      digits ++ String.ofList (List.replicate (whole - all.length) '0') ++ ".0"
    else String.ofList (all.take whole) ++ "." ++ String.ofList (all.drop whole)

def scientific (digits : String) (exponent : Int) : String :=
  let mantissa :=
    match digits.toList with
    | [] => ""
    | [only] => String.singleton only
    | first :: rest => String.singleton first ++ "." ++ String.ofList rest
  mantissa ++ (if exponent < 0 then "e-" else "e+") ++ toString exponent.natAbs

/-- Scientific exponents from −5 to 15 are written out. -/
def magnitudeText (d : Decimal.Scaled) : String :=
  let digits := toString d.digits
  let exponent := d.exponent + digits.length - 1
  if -5 ≤ exponent ∧ exponent ≤ 15 then positional digits exponent
  else scientific digits exponent

/-- The number of values of a 64-bit word, half of which have the sign bit. -/
def wordCount : Nat := 0x10000000000000000

def signBit : Nat := 0x8000000000000000

def doubleText (bits : UInt64) : String :=
  let binary := Decimal.Binary.ofBits bits
  (if signBit ≤ bits.toNat then "-" else "")
    ++ (if binary.significand = 0 then "0.0" else magnitudeText binary.shortest)

def text : Number → String
  | .integer value => toString value
  | .double bits => doubleText bits

/-- The parts of a number as it is spelled; all digits are decimal. -/
structure Spelling where
  negative : Bool
  whole : List Char
  fraction : Option (List Char)
  /-- Whether the exponent is negative, and its digits. -/
  exponent : Option (Bool × List Char)
  deriving DecidableEq, Repr

def digitValue (c : Char) : Nat :=
  c.toNat - '0'.toNat

/-- Takes digits while the significand fits a word; gives back the digits left over. -/
def collect (significand : Nat) : List Char → Nat × List Char
  | [] => (significand, [])
  | c :: rest =>
    let next := significand * 10 + digitValue c
    if next < wordCount then collect next rest else (significand, c :: rest)

/-- What the digits say, if it fits a word. -/
def word? (digits : List Char) : Option Nat :=
  match collect 0 digits with
  | (value, []) => some value
  | _ => none

/-- Divides by `10 ^ 308` until one power of ten reaches the rest, or nothing is left. -/
def scaleDown (value : Float) (exponent : Nat) : Nat → Float
  | 0 => value
  | fuel + 1 =>
    if exponent ≤ 308 then value / Float.ofScientific 1 false exponent
    else if value == 0 then value
    else scaleDown (value / Float.ofScientific 1 false 308) (exponent - 308) fuel

/-- No result when the magnitude is too large for a double. -/
def scale? (significand : Nat) (exponent : Int) : Option Float :=
  let value := significand.toUInt64.toFloat
  if exponent < 0 then
    some (scaleDown value exponent.natAbs (exponent.natAbs / 308 + 1))
  else if exponent ≤ 308 then
    let scaled := value * Float.ofScientific 1 false exponent.toNat
    if scaled.isInf then none else some scaled
  else if significand = 0 then some value
  else none

def largestExponent : Nat := 0x7FFFFFFF

/-- An exponent beyond 31 bits leaves only zero, or nothing when it would make the value large. -/
def magnitude? (spelling : Spelling) : Option Float :=
  let (significand, wholeLeft) := collect 0 spelling.whole
  let fraction := spelling.fraction.getD []
  let (significand, fractionLeft) := collect significand fraction
  let shift : Int := (wholeLeft.length : Int) - (fraction.length - fractionLeft.length : Nat)
  match spelling.exponent with
  | none => scale? significand shift
  | some (negative, digits) =>
    match (word? digits).filter (· ≤ largestExponent) with
    | none => if significand ≠ 0 && !negative then none else some 0
    | some exponent =>
      let exponent : Int := if negative then -exponent else exponent
      scale? significand (max (-largestExponent - 1) (min largestExponent (shift + exponent)))

def ofFloat (negative : Bool) (magnitude : Float) : Number :=
  .double (if negative then -magnitude else magnitude).toBits

/-- Minus zero and integers beyond 64 bits are doubles. -/
def ofSpelling? (spelling : Spelling) : Option Number :=
  let double := (magnitude? spelling).map (ofFloat spelling.negative)
  match spelling.fraction, spelling.exponent, word? spelling.whole with
  | none, none, some whole =>
    if !spelling.negative then some (.integer whole)
    else if 0 < whole ∧ whole ≤ signBit then some (.integer (-whole))
    else double
  | _, _, _ => double

end Number

end DeclaredSource.Json
