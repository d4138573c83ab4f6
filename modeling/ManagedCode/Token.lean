set_option autoImplicit false

/-! # Metadata tokens

A token is a 32-bit word whose high byte names a table and whose low 24 bits are a row of it.
Rows are counted from one, so row zero names nothing.
-/

namespace ManagedCode

/-- A metadata token as it stands in the code. -/
abbrev Token := UInt32

/-- The tables that tokens point into. -/
inductive TokenTable where
  | field | method | signature | type | string
  deriving DecidableEq

/-- The high byte of the tokens of a table. -/
def TokenTable.number : TokenTable → Nat
  | .field => 0x04
  | .method => 0x06
  | .signature => 0x11
  | .type => 0x1B
  | .string => 0x70

/-- The number of rows that a token can tell apart. -/
def TokenTable.rows : Nat := 0x1000000

/-- The token of the entry that stands `position` entries behind the first: the number of the table
above the row. -/
def TokenTable.token (table : TokenTable) (position : Nat) : Token :=
  UInt32.ofNat table.number <<< 24 ||| UInt32.ofNat (position + 1)

/-- Where in `table` the token points to, counted from zero. -/
def TokenTable.position? (table : TokenTable) (token : Token) : Option Nat :=
  if token.toNat / rows = table.number then
    match token.toNat % rows with
    | 0 => none
    | position + 1 => some position
  else none

end ManagedCode
