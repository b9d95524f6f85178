/-!
Lists with at least one element: a head and the elements behind it.
-/

namespace TwoWay

structure NonEmptyList (α : Type) where
  head : α
  tail : List α
  deriving DecidableEq, Hashable

namespace NonEmptyList

variable {α : Type}

def singleton (x : α) : NonEmptyList α := ⟨x, []⟩

def ofList? : List α → Option (NonEmptyList α)
  | [] => none
  | x :: xs => some ⟨x, xs⟩

def toList (list : NonEmptyList α) : List α := list.head :: list.tail

def length (list : NonEmptyList α) : Nat := list.tail.length + 1

def isEmpty (_ : NonEmptyList α) : Bool := false

def parts (list : NonEmptyList α) : α × List α := (list.head, list.tail)

theorem ofList?_eq_some_iff {xs : List α} {list : NonEmptyList α} :
    ofList? xs = some list ↔ xs = list.toList := by
  cases xs with
  | nil => simp [ofList?, toList]
  | cons x xs =>
      obtain ⟨y, ys⟩ := list
      simp [ofList?, toList]

@[simp] theorem length_toList (list : NonEmptyList α) : list.toList.length = list.length := rfl

end NonEmptyList
end TwoWay
