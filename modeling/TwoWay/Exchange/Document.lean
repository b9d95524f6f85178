/-!
Exchange documents in JSON and their compact text. A text keeps the escapes of 16-bit units it was
read with, since only a reader of the text has to make characters of them; a number keeps its
literal.
-/

namespace TwoWay

/-- A part of a quoted text: a character, or a 16-bit unit given by its number. -/
inductive TextUnit where
  | char (c : Char)
  | unit (value : Nat)
  deriving DecidableEq

inductive Document where
  | null
  | boolean (value : Bool)
  | number (literal : List Char)
  | text (units : List TextUnit)
  | array (items : List Document)
  | object (members : List (List TextUnit × Document))

namespace TextUnit

def ofString (text : String) : List TextUnit := text.toList.map char

/-- The characters that a text stands for. Units from D800 to DBFF and from DC00 to DFFF are halves
of a character and come in pairs, or the text stands for nothing. -/
def decode? : List TextUnit → Option (List Char)
  | [] => some []
  | char c :: rest => (decode? rest).map (c :: ·)
  | [unit value] => if 0xD800 ≤ value ∧ value < 0xE000 then none else some [Char.ofNat value]
  | unit value :: char c :: rest =>
    if 0xD800 ≤ value ∧ value < 0xE000 then none
    else (decode? rest).map (Char.ofNat value :: c :: ·)
  | unit high :: unit low :: rest =>
    if 0xD800 ≤ high ∧ high < 0xDC00 then
      if 0xDC00 ≤ low ∧ low < 0xE000 then
        (decode? rest).map (Char.ofNat (0x10000 + (high - 0xD800) * 0x400 + (low - 0xDC00)) :: ·)
      else none
    else if 0xDC00 ≤ high ∧ high < 0xE000 then none
    else (decode? (unit low :: rest)).map (Char.ofNat high :: ·)

/-- The digits of a number in base 16, with zeros in front up to a width. -/
def hexDigits (width value : Nat) : List Char :=
  let digits := Nat.toDigits 16 value
  List.replicate (width - digits.length) '0' ++ digits

def write : TextUnit → List Char
  | unit value => '\\' :: 'u' :: hexDigits 4 value
  | char '"' => ['\\', '"']
  | char '\\' => ['\\', '\\']
  | char '\x08' => ['\\', 'b']
  | char '\x0c' => ['\\', 'f']
  | char '\n' => ['\\', 'n']
  | char '\r' => ['\\', 'r']
  | char '\t' => ['\\', 't']
  | char c => if c.toNat < 32 then '\\' :: 'u' :: hexDigits 4 c.toNat else [c]

def writeText (units : List TextUnit) : List Char := '"' :: units.flatMap write ++ ['"']

end TextUnit

namespace Document

mutual

def write : Document → List Char
  | null => ['n', 'u', 'l', 'l']
  | boolean true => ['t', 'r', 'u', 'e']
  | boolean false => ['f', 'a', 'l', 's', 'e']
  | number literal => literal
  | text units => TextUnit.writeText units
  | array [] => ['[', ']']
  | array (item :: items) => '[' :: item.write ++ writeItems items
  | object [] => ['\x7b', '\x7d']
  | object ((name, value) :: members) =>
    '\x7b' :: TextUnit.writeText name ++ ':' :: value.write ++ writeMembers members

def writeItems : List Document → List Char
  | [] => [']']
  | item :: items => ',' :: item.write ++ writeItems items

def writeMembers : List (List TextUnit × Document) → List Char
  | [] => ['\x7d']
  | (name, value) :: members =>
    ',' :: TextUnit.writeText name ++ ':' :: value.write ++ writeMembers members

end

def render (document : Document) : String := String.ofList document.write

end Document
end TwoWay
