/-!
The value of a choice between two alternatives is a sum: which alternative was taken, with its
value. The functions here look into such sums, merge them and order them, the first alternative
before the second.
-/

namespace TwoWay
namespace Choice

variable {α β : Type}

def content : α ⊕ α → α := Sum.elim id id

def ofOption : Option α → α ⊕ Unit
  | some x => .inl x
  | none => .inr ()

/-- Every first alternative is below every second one; within one alternative the contents
decide. -/
def compare [Ord α] [Ord β] : α ⊕ β → α ⊕ β → Ordering
  | .inl x, .inl y => Ord.compare x y
  | .inl _, .inr _ => .lt
  | .inr _, .inl _ => .gt
  | .inr x, .inr y => Ord.compare x y

instance hashable [Hashable α] [Hashable β] : Hashable (α ⊕ β) where
  hash
    | .inl x => mixHash 1 (hash x)
    | .inr y => mixHash 2 (hash y)

@[simp] theorem getLeft?_ofOption (x : Option α) : (ofOption x).getLeft? = x := by
  cases x <;> rfl

@[simp] theorem ofOption_getLeft? (x : α ⊕ Unit) : ofOption x.getLeft? = x := by
  cases x <;> rfl

end Choice
end TwoWay
