/-!
Outlines: trees that describe a value for a reader, with two layouts. The compact layout stays on
one line; the indented layout gives every entry of a group a line of its own.
-/

namespace TwoWay

/-- The brackets around the entries of a group. -/
inductive Brackets where
  | braces
  | parentheses
  | squares

inductive Outline where
  | leaf (text : String)
  | labelled (label : String) (value : Outline)
  /-- A named group; unless it is complete, dots stand for the entries that are left out. -/
  | group (brackets : Brackets) (name : String) (entries : List Outline) (complete : Bool)

namespace Brackets

def opening (name : String) : Brackets → String
  | braces => name ++ " \x7b"
  | parentheses => name ++ "("
  | squares => name ++ "["

def closing : Brackets → String
  | braces => "\x7d"
  | parentheses => ")"
  | squares => "]"

/-- The blank inside the brackets of a one-line group. -/
def padding : Brackets → String
  | braces => " "
  | parentheses | squares => ""

def line (brackets : Brackets) (name : String) (entries : List String) (complete : Bool) : String :=
  let parts := entries ++ if complete then [] else [".."]
  let padding := if parts.isEmpty then "" else brackets.padding
  brackets.opening name ++ padding ++ ", ".intercalate parts ++ padding ++ brackets.closing

end Brackets

namespace Outline

mutual

def compact : Outline → String
  | leaf text => text
  | labelled label value => label ++ ": " ++ value.compact
  | group brackets name entries complete => brackets.line name (compactEach entries) complete

def compactEach : List Outline → List String
  | [] => []
  | entry :: entries => entry.compact :: compactEach entries

end

def indentation (depth : Nat) : String := String.ofList (List.replicate (4 * depth) ' ')

mutual

/-- The layout with one entry a line. Every entry ends in a comma, the dots do not. -/
def indented (depth : Nat) : Outline → String
  | leaf text => text
  | labelled label value => label ++ ": " ++ value.indented depth
  | group brackets name [] complete => brackets.line name [] complete
  | group brackets name (entry :: entries) complete =>
    brackets.opening name ++ "\n" ++
      indentation (depth + 1) ++ entry.indented (depth + 1) ++ ",\n" ++
      indentedEach (depth + 1) entries ++
      (if complete then "" else indentation (depth + 1) ++ "..\n") ++
      indentation depth ++ brackets.closing

def indentedEach (depth : Nat) : List Outline → String
  | [] => ""
  | entry :: entries =>
    indentation depth ++ entry.indented depth ++ ",\n" ++ indentedEach depth entries

end

def pretty (outline : Outline) : String := outline.indented 0

def list (items : List Outline) : Outline := .group .squares "" items true

def tuple (name : String) (parts : List Outline) : Outline := .group .parentheses name parts true

def hiddenTuple (name : String) : Outline := .group .parentheses name [] false

/-- A name with labelled parts in braces; dots stand for further parts that do not show. -/
def fields (name : String) (parts : List (String × Outline)) (complete : Bool) : Outline :=
  .group .braces name (parts.map fun part => .labelled part.1 part.2) complete

end Outline
end TwoWay
