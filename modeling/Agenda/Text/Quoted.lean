import Agenda.Text.Unprintable
import Agenda.Text.Extending
import Agenda.Text.Decimal

/-!
# Quoted text

The form in which diagnostics show a name: between double quotes, with an escape for every
character that would not be seen, that would end the quotation, or that would merge with the
character before it.
-/

namespace Agenda.Text

/-- An escape by number, such as `\u` and `200b` in braces. -/
def escapedCode (c : Char) : List Char :=
  ['\\', 'u', '\x7b'] ++ digits 16 c.toNat ++ ['\x7d']

/-- One character inside a quotation. -/
def quotedChar (c : Char) : List Char :=
  match c with
  | '\x00' => ['\\', '0']
  | '\t' => ['\\', 't']
  | '\r' => ['\\', 'r']
  | '\n' => ['\\', 'n']
  | '\\' => ['\\', '\\']
  | '"' => ['\\', '"']
  | c => if isExtending c || isUnprintable c then escapedCode c else [c]

/-- A text between double quotes, on one line. -/
def quoted (s : String) : String :=
  String.ofList ('"' :: s.toList.flatMap quotedChar ++ ['"'])

end Agenda.Text
