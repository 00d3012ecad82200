/-!
# Decimal and hexadecimal digits

Numbers are written without leading zeros; a negative number starts with a minus sign.
-/

namespace Agenda.Text

/-- The digit of value `n`, for `n` below sixteen, in lower case. -/
def digit (n : Nat) : Char :=
  if n < 10 then Char.ofNat ('0'.toNat + n) else Char.ofNat ('a'.toNat + (n - 10))

/-- The digits of `n` in the given base, most significant first. -/
def digits (base : Nat) (n : Nat) : List Char :=
  if n < base ∨ base < 2 then [digit n] else digits base (n / base) ++ [digit (n % base)]
termination_by n
decreasing_by
  rename_i h
  exact Nat.div_lt_self (by omega) (by omega)

/-- A whole number in decimal. -/
def decimal (n : Int) : List Char :=
  if n < 0 then '-' :: digits 10 n.natAbs else digits 10 n.natAbs

/-- The value of a decimal digit. -/
def digitValue? (c : Char) : Option Nat :=
  if '0' ≤ c ∧ c ≤ '9' then some (c.toNat - '0'.toNat) else none

/-- The value of a hexadecimal digit of either case. -/
def hexValue? (c : Char) : Option Nat :=
  if '0' ≤ c ∧ c ≤ '9' then some (c.toNat - '0'.toNat)
  else if 'a' ≤ c ∧ c ≤ 'f' then some (c.toNat - 'a'.toNat + 10)
  else if 'A' ≤ c ∧ c ≤ 'F' then some (c.toNat - 'A'.toNat + 10)
  else none

/-- A decimal digit. -/
def isDigit (c : Char) : Bool :=
  (digitValue? c).isSome

/-- The number that a run of decimal digits stands for. -/
def value (cs : List Char) : Nat :=
  cs.foldl (fun n c => 10 * n + (digitValue? c).getD 0) 0

/-- The text of a whole number. -/
def number (n : Int) : String :=
  String.ofList (decimal n)

/-- The text of a truth value. -/
def truth (b : Bool) : String :=
  if b then "true" else "false"

end Agenda.Text
