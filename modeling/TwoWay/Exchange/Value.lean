import TwoWay.Decimal
import TwoWay.Exchange.Reader
import TwoWay.NonEmptyList

/-!
The exchange form of values. An integer is a number written without point and exponent; a choice
is an object whose only member is named for the alternative; a nonempty list is an object with a
head and a tail, or an array of the two. Members that a nonempty list does not know are passed
over.
-/

namespace TwoWay

class Exchange (α : Type) where
  toDocument : α → Document
  ofDocument? : Document → Option α

namespace Exchange

/-- The members of an object with the characters of their names. -/
def named? (members : List (List TextUnit × Document)) : Option (List (List Char × Document)) :=
  members.mapM fun (name, value) => (TextUnit.decode? name).map (·, value)

def only? (members : List (List Char × Document)) (name : String) : Option Document :=
  match members.filter (·.1 = name.toList) with
  | [(_, value)] => some value
  | _ => none

instance : Exchange Unit where
  toDocument _ := .null
  ofDocument?
    | .null => some ()
    | _ => none

instance : Exchange Int64 where
  toDocument n := .number (Decimal.write n)
  ofDocument?
    | .number ['-', '0'] => none
    | .number literal => Decimal.read? literal
    | _ => none

instance : Exchange String where
  toDocument text := .text (TextUnit.ofString text)
  ofDocument?
    | .text units => (TextUnit.decode? units).map String.ofList
    | _ => none

variable {α β : Type} [Exchange α] [Exchange β]

instance : Exchange (List α) where
  toDocument xs := .array (xs.map toDocument)
  ofDocument?
    | .array items => items.mapM ofDocument?
    | _ => none

instance : Exchange (α ⊕ β) where
  toDocument
    | .inl x => .object [(TextUnit.ofString "Left", toDocument x)]
    | .inr y => .object [(TextUnit.ofString "Right", toDocument y)]
  ofDocument?
    | .object members => do
      let [(name, value)] ← named? members | none
      if name = "Left".toList then (ofDocument? value).map .inl
      else if name = "Right".toList then (ofDocument? value).map .inr
      else none
    | _ => none

instance : Exchange (NonEmptyList α) where
  toDocument list :=
    .object [(TextUnit.ofString "head", toDocument list.head),
      (TextUnit.ofString "tail", toDocument list.tail)]
  ofDocument?
    | .object members => do
      let members ← named? members
      return ⟨← ofDocument? (← only? members "head"), ← ofDocument? (← only? members "tail")⟩
    | .array [head, tail] => do return ⟨← ofDocument? head, ← ofDocument? tail⟩
    | _ => none

def render (value : α) : String := (toDocument value).render

def ofText? (text : String) : Option α := (Document.ofText? text).bind ofDocument?

end Exchange
end TwoWay
