import DeclaredSource.Json.Basic

/-!
# Reading JSON text

Strict JSON, read from left to right: no comments, no trailing commas, no leading zeros, only four
blank characters, at most 127 levels of nesting, and nothing but blanks after the value. Of two
fields of one name the last is kept. A text that fails does so either because it ends too early or
because of something in it, and these are the only two kinds of failure.
-/

namespace DeclaredSource.Json

inductive ReadError where
  | endOfText
  | malformed
  deriving DecidableEq, Repr

namespace Reading

/-- Takes a value off the front of a text. -/
abbrev Reader (α : Type) := List Char → Except ReadError (α × List Char)

def isBlank (c : Char) : Bool :=
  c = ' ' || c = '\n' || c = '\t' || c = '\r'

def skipBlanks (text : List Char) : List Char :=
  text.dropWhile isBlank

/-- The failure of a text that cannot go on as it does. -/
def failure : List Char → ReadError
  | [] => .endOfText
  | _ => .malformed

def word (value : Json) : List Char → Reader Json
  | [], text => .ok (value, text)
  | _ :: _, [] => .error .endOfText
  | expected :: rest, c :: text =>
    if c = expected then word value rest text else .error .malformed

/-- At least one digit. -/
def digits (text : List Char) : Except ReadError (List Char × List Char) :=
  match text.span Char.isDigit with
  | ([], rest) => .error (failure rest)
  | taken => .ok taken

/-- A leading zero stands alone. -/
def wholePart (text : List Char) : Except ReadError (List Char × List Char) :=
  match text with
  | '0' :: rest =>
    if rest.head?.any Char.isDigit then .error .malformed else .ok (['0'], rest)
  | _ => digits text

def fractionPart (text : List Char) : Except ReadError (Option (List Char) × List Char) :=
  match text with
  | '.' :: rest => do
    let (taken, rest) ← digits rest
    return (some taken, rest)
  | _ => .ok (none, text)

def exponentSign : List Char → Bool × List Char
  | '-' :: rest => (true, rest)
  | '+' :: rest => (false, rest)
  | text => (false, text)

def exponentPart (text : List Char) : Except ReadError (Option (Bool × List Char) × List Char) :=
  match text with
  | c :: rest =>
    if c = 'e' || c = 'E' then do
      let (negative, rest) := exponentSign rest
      let (taken, rest) ← digits rest
      return (some (negative, taken), rest)
    else .ok (none, text)
  | [] => .ok (none, [])

def number (negative : Bool) : Reader Json := fun text ↦ do
  let (whole, rest) ← wholePart text
  let (fraction, rest) ← fractionPart rest
  let (exponent, rest) ← exponentPart rest
  match Number.ofSpelling? ⟨negative, whole, fraction, exponent⟩ with
  | some value => return (.number value, rest)
  | none => .error .malformed

def hexDigit? (c : Char) : Option Nat :=
  if c.isDigit then some (c.toNat - '0'.toNat)
  else if 'a' ≤ c ∧ c ≤ 'f' then some (c.toNat - 'a'.toNat + 10)
  else if 'A' ≤ c ∧ c ≤ 'F' then some (c.toNat - 'A'.toNat + 10)
  else none

def byteCount (text : List Char) : Nat :=
  text.foldl (fun count c ↦ count + c.utf8Size) 0

/-- Four hexadecimal digits. A text with fewer than four bytes left has ended, whatever they are. -/
def hexUnit : Reader Nat := fun text ↦
  if byteCount (text.take 4) < 4 then .error .endOfText
  else
    match (text.take 4).mapM hexDigit? with
    | some values =>
      if values.length = 4 then .ok (values.foldl (fun n v ↦ n * 16 + v) 0, text.drop 4)
      else .error .malformed
    | none => .error .malformed

/-- A code point, written as one unit or as a high and a low surrogate. -/
def unicodeEscape : Reader Char := fun text ↦ do
  let (unit, rest) ← hexUnit text
  if 0xDC00 ≤ unit ∧ unit ≤ 0xDFFF then .error .malformed
  else if unit < 0xD800 ∨ 0xDBFF < unit then return (Char.ofNat unit, rest)
  else
    match rest with
    | '\\' :: 'u' :: rest => do
      let (low, rest) ← hexUnit rest
      if low < 0xDC00 ∨ 0xDFFF < low then .error .malformed
      else return (Char.ofNat (0x10000 + (unit - 0xD800) * 0x400 + (low - 0xDC00)), rest)
    | ['\\'] => .error .endOfText
    | _ => .error (failure rest)

def escaped : Reader Char
  | [] => .error .endOfText
  | 'u' :: rest => unicodeEscape rest
  | '"' :: rest => .ok ('"', rest)
  | '\\' :: rest => .ok ('\\', rest)
  | '/' :: rest => .ok ('/', rest)
  | 'b' :: rest => .ok ('\x08', rest)
  | 'f' :: rest => .ok ('\x0c', rest)
  | 'n' :: rest => .ok ('\n', rest)
  | 'r' :: rest => .ok ('\r', rest)
  | 't' :: rest => .ok ('\t', rest)
  | _ => .error .malformed

/-- Up to the closing quote. Every step takes a character, so the text's length is enough fuel. -/
def stringBody (taken : List Char) : Nat → Reader String
  | 0, text => .error (failure text)
  | _ + 1, [] => .error .endOfText
  | fuel + 1, c :: rest =>
    if c = '"' then .ok (String.ofList taken.reverse, rest)
    else if c = '\\' then
      match escaped rest with
      | .error error => .error error
      | .ok (meant, rest) => stringBody (meant :: taken) fuel rest
    else if c.toNat < 0x20 then .error .malformed
    else stringBody (c :: taken) fuel rest

/-- What follows an item, up to the closing character. Every item takes a character. -/
def itemsThen {α : Type} (item : Reader α) (close : Char) (taken : List α) : Nat → Reader (List α)
  | 0, text => .error (failure text)
  | fuel + 1, text =>
    match item text with
    | .error error => .error error
    | .ok (value, rest) =>
      match skipBlanks rest with
      | [] => .error .endOfText
      | c :: rest =>
        if c = close then .ok ((value :: taken).reverse, rest)
        else if c = ',' then itemsThen item close (value :: taken) fuel (skipBlanks rest)
        else .error .malformed

/-- The items after an opening character, separated by commas. -/
def items {α : Type} (fuel : Nat) (item : Reader α) (close : Char) : Reader (List α) := fun text ↦
  match skipBlanks text with
  | [] => .error .endOfText
  | c :: rest =>
    if c = close then .ok ([], rest)
    else itemsThen item close [] fuel (c :: rest)

def field (fuel : Nat) (value : Reader Json) : Reader (String × Json)
  | '"' :: text => do
    let (name, rest) ← stringBody [] fuel text
    match skipBlanks rest with
    | ':' :: rest =>
      let (value, rest) ← value rest
      return ((name, value), rest)
    | rest => .error (failure rest)
  | text => .error (failure text)

/-- Keeps the place of the first field of a name and the value of the last. -/
def insertField (fields : List (String × Json)) (new : String × Json) : List (String × Json) :=
  if fields.any (·.1 = new.1) then
    fields.map fun old ↦ if old.1 = new.1 then new else old
  else fields ++ [new]

/-- A value whose items and fields, if it may have any, are read by `nested?`. -/
def valueWith (fuel : Nat) (nested? : Option (Reader Json)) : Reader Json := fun text ↦
  match skipBlanks text with
  | [] => .error .endOfText
  | 'n' :: rest => word .null ['u', 'l', 'l'] rest
  | 't' :: rest => word (.bool true) ['r', 'u', 'e'] rest
  | 'f' :: rest => word (.bool false) ['a', 'l', 's', 'e'] rest
  | '"' :: rest => do
    let (value, rest) ← stringBody [] fuel rest
    return (.string value, rest)
  | '-' :: rest => number true rest
  | '[' :: rest =>
    match nested? with
    | none => .error .malformed
    | some nested => do
      let (values, rest) ← items fuel nested ']' rest
      return (.array values, rest)
  | '\x7b' :: rest =>
    match nested? with
    | none => .error .malformed
    | some nested => do
      let (fields, rest) ← items fuel (field fuel nested) '\x7d' rest
      return (.object (fields.foldl insertField []), rest)
  | c :: rest => if c.isDigit then number false (c :: rest) else .error .malformed

/-- A value with at most so many levels of nesting. -/
def value (fuel : Nat) : Nat → Reader Json
  | 0 => valueWith fuel none
  | depth + 1 => valueWith fuel (some (value fuel depth))

end Reading

/-- No string and no list has more steps than the text has characters, and one step ends it. -/
def read (text : String) : Except ReadError Json := do
  let (value, rest) ← Reading.value (text.length + 1) 127 text.toList
  match Reading.skipBlanks rest with
  | [] => return value
  | _ => .error .malformed

end DeclaredSource.Json
