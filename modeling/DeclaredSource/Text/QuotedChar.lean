import DeclaredSource.Text.Unseen

/-!
# A character in quotes

The form in which a message shows a single character: between single quotes, with the usual
backslash escapes, and by its code point in lower-case hexadecimal when it cannot be seen.
-/

namespace DeclaredSource.Text

def hexadecimal (n : Nat) : String :=
  String.ofList (Nat.toDigits 16 n)

def charEscape (c : Char) : String :=
  if c = '\x00' then "\\0"
  else if c = '\t' then "\\t"
  else if c = '\r' then "\\r"
  else if c = '\n' then "\\n"
  else if c = '\'' then "\\'"
  else if c = '\\' then "\\\\"
  else if isUnseen c then "\\u\x7b" ++ hexadecimal c.toNat ++ "\x7d"
  else String.singleton c

def quotedChar (c : Char) : String :=
  "'" ++ charEscape c ++ "'"

end DeclaredSource.Text
