import ManagedCode.Text.Legible

set_option autoImplicit false

/-! # Quoted text and flag sets

Names of members are shown in double quotes. Inside the quotes a quote and a backslash are
preceded by a backslash, four control characters have a letter each, and every other
character that does not print as itself is written by its code point. -/

namespace ManagedCode.Text

/-- Lower-case hexadecimal digits without leading zeros. -/
def hexDigits (n : Nat) : List Char := Nat.toDigits 16 n

/-- A character as it stands between quotes. -/
def escape (c : Char) : List Char :=
  if c = '\x00' then ['\\', '0']
  else if c = '\t' then ['\\', 't']
  else if c = '\r' then ['\\', 'r']
  else if c = '\n' then ['\\', 'n']
  else if c = '\\' then ['\\', '\\']
  else if c = '\"' then ['\\', '\"']
  else if isLegible c then [c]
  else ['\\', 'u', '\x7b'] ++ hexDigits c.toNat ++ ['\x7d']

/-- The text in double quotes. -/
def quote (s : String) : String :=
  String.ofList ('\"' :: s.toList.flatMap escape ++ ['\"'])

/-- Names of the flags that are set, in the order given. -/
def flags (named : List (Bool × String)) : String :=
  match (named.filter (·.1)).map (·.2) with
  | [] => "(empty)"
  | names => " | ".intercalate names

/-- A list of texts in brackets. -/
def bracketed (parts : List String) : String := "[" ++ ", ".intercalate parts ++ "]"

/-- A truth value in words. -/
def boolean (b : Bool) : String := if b then "true" else "false"

end ManagedCode.Text
