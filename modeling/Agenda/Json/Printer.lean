import Agenda.Json

/-!
# JSON texts: writing

The compact form has no blanks. The indented form has a member or an item on each line, two blanks
deeper than what holds it. In a quotation only the quote, the backslash and the control characters
below U+0020 are escaped, five of them with a letter.
-/

namespace Agenda.Json

/-- One character inside a quotation. -/
def escapeChar (c : Char) : List Char :=
  match c with
  | '"' => ['\\', '"']
  | '\\' => ['\\', '\\']
  | '\x08' => ['\\', 'b']
  | '\x0c' => ['\\', 'f']
  | '\n' => ['\\', 'n']
  | '\r' => ['\\', 'r']
  | '\t' => ['\\', 't']
  | c =>
    if c.toNat < 32 then
      ['\\', 'u', '0', '0', Agenda.Text.digit (c.toNat / 16), Agenda.Text.digit (c.toNat % 16)]
    else [c]

/-- The inside of a quotation. -/
def Text.inside : Text → List Char
  | .plain s => s.toList.flatMap escapeChar
  | .broken raw => raw

/-- A text with its quotes. -/
def Text.render (t : Text) : List Char :=
  '"' :: t.inside ++ ['"']

/-- Parts with a comma between each two. -/
def separated : List (List Char) → List Char
  | [] => []
  | [part] => part
  | part :: parts => part ++ ',' :: separated parts

mutual

/-- The compact form of a value. -/
def render : Json → List Char
  | .null => ['n', 'u', 'l', 'l']
  | .bool true => ['t', 'r', 'u', 'e']
  | .bool false => ['f', 'a', 'l', 's', 'e']
  | .int n => Agenda.Text.decimal n
  | .real literal => literal
  | .text t => t.render
  | .array items => '[' :: separated (renderItems items) ++ [']']
  | .object members => '\x7b' :: separated (renderMembers members) ++ ['\x7d']

/-- The compact forms of the items of an array. -/
def renderItems : List Json → List (List Char)
  | [] => []
  | item :: items => render item :: renderItems items

/-- The compact forms of the members of an object. -/
def renderMembers : List (Text × Json) → List (List Char)
  | [] => []
  | (key, v) :: members => (key.render ++ ':' :: render v) :: renderMembers members

end

/-- A line break and the blanks of a line `depth` levels deep. -/
def lineBreak (depth : Nat) : List Char :=
  '\n' :: List.replicate (2 * depth) ' '

/-- Parts on lines of their own between two brackets, or just the brackets. -/
def block (depth : Nat) (opening closing : Char) (parts : List (List Char)) : List Char :=
  if parts.isEmpty then [opening, closing]
  else
    opening :: separated (parts.map (lineBreak (depth + 1) ++ ·)) ++ lineBreak depth ++ [closing]

mutual

/-- The indented form of a value that starts on a line `depth` levels deep. -/
def indented (depth : Nat) : Json → List Char
  | .array items => block depth '[' ']' (indentedItems (depth + 1) items)
  | .object members => block depth '\x7b' '\x7d' (indentedMembers (depth + 1) members)
  | v => v.render

/-- The indented forms of the items of an array. -/
def indentedItems (depth : Nat) : List Json → List (List Char)
  | [] => []
  | item :: items => indented depth item :: indentedItems depth items

/-- The indented forms of the members of an object. -/
def indentedMembers (depth : Nat) : List (Text × Json) → List (List Char)
  | [] => []
  | (key, v) :: members =>
    (key.render ++ [':', ' '] ++ indented depth v) :: indentedMembers depth members

end

/-- The compact text of a value. -/
def compact (v : Json) : String :=
  String.ofList v.render

/-- The indented text of a value. -/
def pretty (v : Json) : String :=
  String.ofList (v.indented 0)

end Agenda.Json
