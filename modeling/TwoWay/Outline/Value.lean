import TwoWay.Choice
import TwoWay.Decimal
import TwoWay.Error
import TwoWay.NonEmptyList
import TwoWay.Outline.Basic
import TwoWay.SharedList.Basic

/-!
The outlines of values.
-/

namespace TwoWay

class Outlined (α : Type) where
  outline : α → Outline

export Outlined (outline)

namespace Outline

/-- The characters with which a character is written between quotes. Quotes, backslashes and
control characters are escaped. -/
def quoted (quote c : Char) : List Char :=
  if c = '\x00' then ['\\', '0']
  else if c = '\t' then ['\\', 't']
  else if c = '\r' then ['\\', 'r']
  else if c = '\n' then ['\\', 'n']
  else if c = '\\' ∨ c = quote then ['\\', c]
  else if c.toNat < 32 ∨ 127 ≤ c.toNat ∧ c.toNat < 160 then
    ['\\', 'u', '\x7b'] ++ Nat.toDigits 16 c.toNat ++ ['\x7d']
  else [c]

end Outline

instance : Outlined Unit := ⟨fun _ => .leaf "()"⟩

instance : Outlined Int64 := ⟨fun n => .leaf (String.ofList (Decimal.write n))⟩

instance : Outlined Char :=
  ⟨fun c => .leaf (String.ofList ('\'' :: Outline.quoted '\'' c ++ ['\'']))⟩

instance : Outlined String :=
  ⟨fun text => .leaf (String.ofList ('"' :: text.toList.flatMap (Outline.quoted '"') ++ ['"']))⟩

instance : Outlined Error where
  outline
    | .noMatch => .leaf "NoMatch"
    | .cannotBuild => .leaf "CannotBuild"
    | .inconsistentDriver => .leaf "InconsistentDriver"

variable {α β : Type} [Outlined α] [Outlined β]

instance : Outlined (α × β) := ⟨fun (x, y) => .tuple "" [outline x, outline y]⟩

instance : Outlined (α ⊕ β) where
  outline
    | .inl x => .tuple "Left" [outline x]
    | .inr y => .tuple "Right" [outline y]

instance : Outlined (Option α) where
  outline
    | none => .leaf "None"
    | some x => .tuple "Some" [outline x]

instance : Outlined (List α) := ⟨fun xs => .list (xs.map outline)⟩

instance : Outlined (NonEmptyList α) := ⟨fun list => outline list.toList⟩

instance : Outlined (SharedList α) := ⟨fun list => outline list.toList⟩

end TwoWay
