import TwoWay.Exchange.Document

/-!
Reading a document from its text. The grammar is that of JSON without extensions: blanks are
spaces, tabs and line ends; numbers have no leading zeros; quoted texts hold no control
characters; no comma stands before a closing bracket; nothing follows the document.
-/

namespace TwoWay
namespace Document

def isBlank (c : Char) : Bool := c == ' ' || c == '\t' || c == '\n' || c == '\r'

def skipBlanks (input : List Char) : List Char := input.dropWhile isBlank

def hexValue? (c : Char) : Option Nat :=
  if c.isDigit then some (c.toNat - '0'.toNat)
  else if 'a' ≤ c ∧ c ≤ 'f' then some (c.toNat - 'a'.toNat + 10)
  else if 'A' ≤ c ∧ c ≤ 'F' then some (c.toNat - 'A'.toNat + 10)
  else none

def hexNumber? (digits : List Char) : Option Nat :=
  digits.foldlM (fun value c => (hexValue? c).map (value * 16 + ·)) 0

def escaped? : Char → Option Char
  | '"' => some '"'
  | '\\' => some '\\'
  | '/' => some '/'
  | 'b' => some '\x08'
  | 'f' => some '\x0c'
  | 'n' => some '\n'
  | 'r' => some '\r'
  | 't' => some '\t'
  | _ => none

/-- Reads a quoted text from behind its opening quote. -/
def readText (found : List TextUnit) : List Char → Option (List TextUnit × List Char)
  | '"' :: rest => some (found.reverse, rest)
  | '\\' :: 'u' :: a :: b :: c :: d :: rest =>
    match hexNumber? [a, b, c, d] with
    | none => none
    | some value => readText (.unit value :: found) rest
  | '\\' :: letter :: rest =>
    match escaped? letter with
    | none => none
    | some c => readText (.char c :: found) rest
  | c :: rest => if c.toNat < 32 then none else readText (.char c :: found) rest
  | [] => none

def spanDigits (input : List Char) : List Char × List Char := input.span Char.isDigit

/-- The digits in front of a point or an exponent: a lone zero, or a run without leading zero. -/
def readWhole (input : List Char) : Option (List Char × List Char) :=
  match spanDigits input with
  | ([], _) => none
  | (['0'], rest) => some (['0'], rest)
  | ('0' :: _, _) => none
  | (digits, rest) => some (digits, rest)

def readFraction : List Char → Option (List Char × List Char)
  | '.' :: input =>
    match spanDigits input with
    | ([], _) => none
    | (digits, rest) => some ('.' :: digits, rest)
  | input => some ([], input)

def readSign : List Char → List Char × List Char
  | '+' :: rest => (['+'], rest)
  | '-' :: rest => (['-'], rest)
  | input => ([], input)

def readExponent : List Char → Option (List Char × List Char)
  | c :: input =>
    if c = 'e' ∨ c = 'E' then
      let (sign, input) := readSign input
      match spanDigits input with
      | ([], _) => none
      | (digits, rest) => some (c :: sign ++ digits, rest)
    else some ([], c :: input)
  | [] => some ([], [])

def readNumber (input : List Char) : Option (List Char × List Char) := do
  let (sign, input) := match input with
    | '-' :: rest => (['-'], rest)
    | _ => ([], input)
  let (whole, input) ← readWhole input
  let (fraction, input) ← readFraction input
  let (exponent, input) ← readExponent input
  return (sign ++ whole ++ fraction ++ exponent, input)

mutual

/-- Reads a document, with `fuel` as a bound on the steps. -/
def readValue (fuel : Nat) (input : List Char) : Option (Document × List Char) :=
  match fuel with
  | 0 => none
  | fuel + 1 =>
    match skipBlanks input with
    | 'n' :: 'u' :: 'l' :: 'l' :: rest => some (.null, rest)
    | 't' :: 'r' :: 'u' :: 'e' :: rest => some (.boolean true, rest)
    | 'f' :: 'a' :: 'l' :: 's' :: 'e' :: rest => some (.boolean false, rest)
    | '"' :: rest => (readText [] rest).map fun (units, rest) => (.text units, rest)
    | '[' :: rest =>
      match skipBlanks rest with
      | ']' :: rest => some (.array [], rest)
      | rest => readItems fuel [] rest
    | '\x7b' :: rest =>
      match skipBlanks rest with
      | '\x7d' :: rest => some (.object [], rest)
      | rest => readMembers fuel [] rest
    | rest => (readNumber rest).map fun (literal, rest) => (.number literal, rest)

/-- Reads the items of an array that are still to come, and its closing bracket. -/
def readItems (fuel : Nat) (found : List Document) (input : List Char) :
    Option (Document × List Char) :=
  match fuel with
  | 0 => none
  | fuel + 1 =>
    match readValue fuel input with
    | none => none
    | some (item, rest) =>
      match skipBlanks rest with
      | ',' :: rest => readItems fuel (item :: found) rest
      | ']' :: rest => some (.array (item :: found).reverse, rest)
      | _ => none

/-- Reads the members of an object that are still to come, and its closing brace. -/
def readMembers (fuel : Nat) (found : List (List TextUnit × Document)) (input : List Char) :
    Option (Document × List Char) :=
  match fuel with
  | 0 => none
  | fuel + 1 =>
    match skipBlanks input with
    | '"' :: rest =>
      match readText [] rest with
      | none => none
      | some (name, rest) =>
        match skipBlanks rest with
        | ':' :: rest =>
          match readValue fuel rest with
          | none => none
          | some (value, rest) =>
            match skipBlanks rest with
            | ',' :: rest => readMembers fuel ((name, value) :: found) rest
            | '\x7d' :: rest => some (.object ((name, value) :: found).reverse, rest)
            | _ => none
        | _ => none
    | _ => none

end

/-- The document that a text holds. Each character is looked at in at most two steps. -/
def ofText? (source : String) : Option Document :=
  match readValue (2 * source.length + 2) source.toList with
  | none => none
  | some (document, rest) => if skipBlanks rest = [] then some document else none

end Document
end TwoWay
