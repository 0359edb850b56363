/-!
# JSON strings

The written form of a string: quotes, backslashes and controls are escaped, by a letter where one
is agreed on and by their code point otherwise; every other character stands for itself.
-/

namespace DeclaredSource.Json

def hexDigitChar (n : Nat) : Char :=
  if n < 10 then Char.ofNat ('0'.toNat + n) else Char.ofNat ('a'.toNat + n - 10)

def stringEscape (c : Char) : String :=
  if c = '"' then "\\\""
  else if c = '\\' then "\\\\"
  else if c = '\x08' then "\\b"
  else if c = '\t' then "\\t"
  else if c = '\n' then "\\n"
  else if c = '\x0c' then "\\f"
  else if c = '\r' then "\\r"
  else if c.toNat < 0x20 then
    "\\u00" ++ String.ofList [hexDigitChar (c.toNat / 16), hexDigitChar (c.toNat % 16)]
  else String.singleton c

def quoted (text : String) : String :=
  "\"" ++ String.join (text.toList.map stringEscape) ++ "\""

end DeclaredSource.Json
