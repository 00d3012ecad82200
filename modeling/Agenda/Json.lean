import Agenda.Text.Decimal

/-!
# JSON values

A value is a tree. Objects keep their members in the order of the text, and may name one key
twice: what that means is for the reader of a record to say. Numbers that are not whole and texts
that cannot be decoded are kept as they were written, since a member that nobody asks for may hold
them.
-/

namespace Agenda

/-- A text in a JSON document. -/
inductive Json.Text where
  /-- A text with all escapes resolved. -/
  | plain (s : String)
  /-- The inside of a quotation in which half of a surrogate pair is missing, as written. -/
  | broken (raw : List Char)
  deriving DecidableEq, Repr, Inhabited

/-- A JSON value. -/
inductive Json where
  | null
  | bool (b : Bool)
  /-- A whole number, written without fraction and exponent. -/
  | int (n : Int)
  /-- Any other number, as written; a negative zero is one of them. -/
  | real (literal : List Char)
  | text (t : Json.Text)
  | array (items : List Json)
  | object (members : List (Json.Text × Json))
  deriving Repr, Inhabited

namespace Json

/-- A text value. -/
def str (s : String) : Json :=
  .text (.plain s)

/-- A natural number. -/
def nat (n : Nat) : Json :=
  .int n

/-- A value that may be absent, absence being written as null. -/
def option {α : Type} (f : α → Json) : Option α → Json
  | none => .null
  | some a => f a

/-- An object with the given keys, in order. -/
def record (members : List (String × Json)) : Json :=
  .object (members.map fun member => (.plain member.1, member.2))

/-- A text value that can be decoded. -/
def string? : Json → Option String
  | .text (.plain s) => some s
  | _ => none

/-- A truth value. -/
def bool? : Json → Option Bool
  | .bool b => some b
  | _ => none

/-- A whole number between two bounds. -/
def int? (lo hi : Int) : Json → Option Int
  | .int n => if lo ≤ n ∧ n ≤ hi then some n else none
  | _ => none

/-- A whole number of 32 bits with a sign. -/
def int32? (v : Json) : Option Int32 :=
  (v.int? (-2147483648) 2147483647).map Int32.ofInt

/-- A whole number of 64 bits with a sign. -/
def int64? (v : Json) : Option Int64 :=
  (v.int? (-9223372036854775808) 9223372036854775807).map Int64.ofInt

/-- A whole number of 64 bits without a sign. -/
def uint64? (v : Json) : Option UInt64 :=
  (v.int? 0 18446744073709551615).map fun n => UInt64.ofNat n.toNat

/-- A value or null. -/
def option? {α : Type} (f : Json → Option α) : Json → Option (Option α)
  | .null => some none
  | v => (f v).map some

/-- The items of an array, read one by one. -/
def list? {α : Type} (f : Json → Option α) : Json → Option (List α)
  | .array items => items.mapM f
  | _ => none

end Json

end Agenda
