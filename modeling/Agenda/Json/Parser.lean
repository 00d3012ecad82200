import Agenda.Json

/-!
# JSON texts: reading

Each reader takes a part from the front of a text and answers with the rest. Blanks may stand
around every value; nothing may follow the document. A reader of a value gets a bound on the depth
of nesting, for which the length of the text is always enough, since every level has a bracket of
its own.
-/

namespace Agenda.Json

/-- The characters that may stand around a value. -/
def isBlank (c : Char) : Bool :=
  c == ' ' || c == '\t' || c == '\n' || c == '\r'

/-- A text from its first character that is no blank. -/
def skipBlanks (cs : List Char) : List Char :=
  cs.dropWhile isBlank

/-- A piece of a quotation: a character, or a number given by an escape. -/
inductive Piece where
  | char (c : Char)
  | code (n : Nat)
  deriving DecidableEq, Repr

/-- The character that a one-letter escape stands for. -/
def letterEscape? : Char → Option Char
  | '"' => some '"'
  | '\\' => some '\\'
  | '/' => some '/'
  | 'b' => some '\x08'
  | 'f' => some '\x0c'
  | 'n' => some '\n'
  | 'r' => some '\r'
  | 't' => some '\t'
  | _ => none

/-- The number that four hexadecimal digits stand for. -/
def hexCode? (a b c d : Char) : Option Nat := do
  let a ← Agenda.Text.hexValue? a
  let b ← Agenda.Text.hexValue? b
  let c ← Agenda.Text.hexValue? c
  let d ← Agenda.Text.hexValue? d
  return ((a * 16 + b) * 16 + c) * 16 + d

/-- The pieces of a quotation whose opening quote has been read. -/
def pieces? : List Char → Option (List Piece × List Char)
  | [] => none
  | '"' :: rest => some ([], rest)
  | '\\' :: 'u' :: a :: b :: c :: d :: rest => do
    let n ← hexCode? a b c d
    let (ps, rest) ← pieces? rest
    return (.code n :: ps, rest)
  | '\\' :: e :: rest => do
    let c ← letterEscape? e
    let (ps, rest) ← pieces? rest
    return (.char c :: ps, rest)
  | c :: rest => do
    guard (32 ≤ c.toNat ∧ c ≠ '\\')
    let (ps, rest) ← pieces? rest
    return (.char c :: ps, rest)

/-- The first half of a surrogate pair. -/
def isHighHalf (n : Nat) : Bool :=
  0xD800 ≤ n && n ≤ 0xDBFF

/-- The second half of a surrogate pair. -/
def isLowHalf (n : Nat) : Bool :=
  0xDC00 ≤ n && n ≤ 0xDFFF

/-- The text of a quotation, two halves of a surrogate pair being one character. A half that
stands alone is no text. -/
def join? : List Piece → Option (List Char)
  | [] => some []
  | .char c :: ps => (join? ps).map (c :: ·)
  | [.code n] => if isHighHalf n || isLowHalf n then none else some [Char.ofNat n]
  | .code n :: .char c :: ps =>
    if isHighHalf n || isLowHalf n then none
    else (join? (.char c :: ps)).map (Char.ofNat n :: ·)
  | .code n :: .code k :: ps =>
    if isHighHalf n && isLowHalf k then
      (join? ps).map (Char.ofNat (0x10000 + (n - 0xD800) * 1024 + (k - 0xDC00)) :: ·)
    else if isHighHalf n || isLowHalf n then none
    else (join? (.code k :: ps)).map (Char.ofNat n :: ·)

/-- A text whose opening quote has been read. -/
def text? (cs : List Char) : Option (Text × List Char) := do
  let (ps, rest) ← pieces? cs
  match join? ps with
  | some s => return (.plain (String.ofList s), rest)
  | none => return (.broken (cs.take (cs.length - rest.length - 1)), rest)

/-- At least one digit. -/
def someDigits? (cs : List Char) : Option (List Char × List Char) :=
  let ds := cs.takeWhile Agenda.Text.isDigit
  if ds.isEmpty then none else some (ds, cs.dropWhile Agenda.Text.isDigit)

/-- The whole part of a number: digits without a leading zero. -/
def whole? (cs : List Char) : Option (List Char × List Char) := do
  let (ds, rest) ← someDigits? cs
  guard (ds = ['0'] ∨ ds.head? ≠ some '0')
  return (ds, rest)

/-- The fraction of a number, which may be missing. -/
def fraction? : List Char → Option (List Char × List Char)
  | '.' :: rest => do
    let (ds, rest) ← someDigits? rest
    return ('.' :: ds, rest)
  | rest => some ([], rest)

/-- The exponent of a number, which may be missing. -/
def exponent? : List Char → Option (List Char × List Char)
  | e :: rest =>
    if e = 'e' ∨ e = 'E' then do
      let (sign, rest) := rest.span fun c => c == '+' || c == '-'
      guard (sign.length ≤ 1)
      let (ds, rest) ← someDigits? rest
      return (e :: sign ++ ds, rest)
    else some ([], e :: rest)
  | [] => some ([], [])

/-- A number without its sign. -/
def magnitude? (negative : Bool) (cs : List Char) : Option (Json × List Char) := do
  let (ds, rest) ← whole? cs
  let (fraction, rest) ← fraction? rest
  let (exponent, rest) ← exponent? rest
  let n := Agenda.Text.value ds
  if fraction.isEmpty ∧ exponent.isEmpty ∧ ¬ (negative ∧ n = 0) then
    return (.int (if negative then -n else n), rest)
  else
    return (.real ((if negative then ['-'] else []) ++ ds ++ fraction ++ exponent), rest)

/-- A number. -/
def number? : List Char → Option (Json × List Char)
  | '-' :: rest => magnitude? true rest
  | cs => magnitude? false cs

mutual

/-- A value, with at most `bound` levels of nesting. -/
def value? : (bound : Nat) → List Char → Option (Json × List Char)
  | 0, _ => none
  | bound + 1, cs =>
    match skipBlanks cs with
    | 'n' :: 'u' :: 'l' :: 'l' :: rest => some (.null, rest)
    | 't' :: 'r' :: 'u' :: 'e' :: rest => some (.bool true, rest)
    | 'f' :: 'a' :: 'l' :: 's' :: 'e' :: rest => some (.bool false, rest)
    | '"' :: rest => (text? rest).map fun (t, rest) => (.text t, rest)
    | '[' :: rest =>
      match skipBlanks rest with
      | ']' :: rest => some (.array [], rest)
      | rest => (items? bound rest).map fun (vs, rest) => (.array vs, rest)
    | '\x7b' :: rest =>
      match skipBlanks rest with
      | '\x7d' :: rest => some (.object [], rest)
      | rest => (members? bound rest).map fun (ms, rest) => (.object ms, rest)
    | rest => number? rest

/-- The items of an array up to its closing bracket; there is at least one. -/
def items? : (bound : Nat) → List Char → Option (List Json × List Char)
  | 0, _ => none
  | bound + 1, cs => do
    let (v, rest) ← value? bound cs
    match skipBlanks rest with
    | ',' :: rest => (items? bound rest).map fun (vs, rest) => (v :: vs, rest)
    | ']' :: rest => some ([v], rest)
    | _ => none

/-- The members of an object up to its closing bracket; there is at least one. -/
def members? : (bound : Nat) → List Char → Option (List (Text × Json) × List Char)
  | 0, _ => none
  | bound + 1, cs =>
    match skipBlanks cs with
    | '"' :: rest => do
      let (key, rest) ← text? rest
      match skipBlanks rest with
      | ':' :: rest =>
        let (v, rest) ← value? bound rest
        match skipBlanks rest with
        | ',' :: rest => (members? bound rest).map fun (ms, rest) => ((key, v) :: ms, rest)
        | '\x7d' :: rest => some ([(key, v)], rest)
        | _ => none
      | _ => none
    | _ => none

end

/-- The value of a whole document. -/
def parse? (s : String) : Option Json :=
  let cs := s.toList
  match value? (2 * cs.length + 2) cs with
  | some (v, rest) => if (skipBlanks rest).isEmpty then some v else none
  | none => none

end Agenda.Json
