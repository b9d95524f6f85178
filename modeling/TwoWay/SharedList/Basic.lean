import TwoWay.Sequence.Basic

/-!
Singly linked lists whose tails are shared and whose length is kept beside the nodes. Every
operation maintains the length on its own; a list whose length counts its nodes is *sound*. The
empty list is sound and each operation keeps soundness, so on sound lists the operations answer
as those of the plain list of nodes do.
-/

namespace TwoWay

/-- A chain of nodes with its length beside it. -/
structure SharedList (α : Type) where
  nodes : List α
  length : Nat

namespace SharedList

variable {α : Type}

def empty : SharedList α := ⟨[], 0⟩

/-- The list with one more element in front; the given list is its tail. -/
def prepend (list : SharedList α) (x : α) : SharedList α := ⟨x :: list.nodes, list.length + 1⟩

def head? (list : SharedList α) : Option α := list.nodes.head?

/-- The list without its first element; the empty list has the empty tail. -/
def tail (list : SharedList α) : SharedList α :=
  match list.nodes with
  | [] => empty
  | _ :: rest => ⟨rest, list.length - 1⟩

def splitFirst? (list : SharedList α) : Option (α × SharedList α) :=
  match list.nodes with
  | [] => none
  | x :: rest => some (x, ⟨rest, list.length - 1⟩)

def isEmpty (list : SharedList α) : Bool := list.length == 0

/-- Links one node per element, from the last element to the first. -/
def ofList (xs : List α) : SharedList α :=
  ⟨xs.reverse.foldl (fun nodes x => x :: nodes) [], xs.length⟩

/-- Prepends the elements one after the other, so the last of them ends up in front. -/
def prependEach (list : SharedList α) (xs : List α) : SharedList α := xs.foldl prepend list

def dropFirst (list : SharedList α) : Nat → SharedList α
  | 0 => list
  | n + 1 => list.tail.dropFirst n

/-- A position inside a list: the nodes still to come and the number of them that is announced. -/
structure Cursor (α : Type) where
  pending : List α
  remaining : Nat

def start (list : SharedList α) : Cursor α := ⟨list.nodes, list.length⟩

namespace Cursor

def next? (cursor : Cursor α) : Option (α × Cursor α) :=
  match cursor.pending with
  | [] => none
  | x :: rest => some (x, ⟨rest, cursor.remaining - 1⟩)

def bounds (cursor : Cursor α) : Nat × Option Nat := (cursor.remaining, some cursor.remaining)

/-- The elements that stepping to the end yields, each with the position behind it. -/
def visits (cursor : Cursor α) : List (α × Cursor α) :=
  go cursor.pending cursor
where
  go : List α → Cursor α → List (α × Cursor α)
    | [], _ => []
    | _ :: rest, cursor =>
      match cursor.next? with
      | none => []
      | some (x, behind) => (x, behind) :: go rest behind

end Cursor

def toList (list : SharedList α) : List α := list.start.visits.map Prod.fst

def display (list : SharedList α) (text : α → String) : String :=
  String.join (list.toList.map text)

/-- Two lists are equal when their lengths are and no pair of elements at one position differs. -/
def beq [BEq α] (a b : SharedList α) : Bool :=
  a.length == b.length && (a.toList.zip b.toList).all fun pair => pair.1 == pair.2

instance [BEq α] : BEq (SharedList α) := ⟨beq⟩

/-- Feeds the length and then each element, front to back, into a digest. -/
def feed {η : Type} (list : SharedList α) (length : η → Nat → η) (element : η → α → η)
    (digest : η) : η :=
  list.toList.foldl element (length digest list.length)

instance [Hashable α] : Hashable (SharedList α) where
  hash list := list.feed (fun h n => mixHash h (hash n)) (fun h x => mixHash h (hash x)) 7

/-- The length counts the nodes. -/
def Sound (list : SharedList α) : Prop := list.length = list.nodes.length

theorem Sound.empty : (empty : SharedList α).Sound := rfl

theorem Sound.prepend {list : SharedList α} (h : list.Sound) (x : α) : (list.prepend x).Sound := by
  simp [Sound, SharedList.prepend, show list.length = _ from h]

theorem Sound.splitFirst {list rest : SharedList α} {x : α} (h : list.Sound)
    (hs : list.splitFirst? = some (x, rest)) : rest.Sound := by
  obtain ⟨nodes, length⟩ := list
  cases nodes with
  | nil => simp [splitFirst?] at hs
  | cons y ys =>
      simp only [splitFirst?, Option.some.injEq, Prod.mk.injEq] at hs
      obtain ⟨-, rfl⟩ := hs
      simp [Sound] at h ⊢
      omega

theorem Sound.tail {list : SharedList α} (h : list.Sound) : list.tail.Sound := by
  obtain ⟨nodes, length⟩ := list
  cases nodes with
  | nil => rfl
  | cons y ys =>
      simp [Sound, SharedList.tail] at h ⊢
      omega

@[simp] theorem nodes_ofList (xs : List α) : (ofList xs).nodes = xs := by
  simp [ofList]

theorem Sound.ofList (xs : List α) : (ofList xs).Sound := by
  simp [Sound, SharedList.ofList]

private theorem map_visits_go (nodes : List α) (remaining : Nat) :
    (Cursor.visits.go nodes ⟨nodes, remaining⟩).map Prod.fst = nodes := by
  induction nodes generalizing remaining with
  | nil => rfl
  | cons x rest ih => simp [Cursor.visits.go, Cursor.next?, ih]

@[simp] theorem toList_eq_nodes (list : SharedList α) : list.toList = list.nodes :=
  map_visits_go list.nodes list.length

theorem toList_ofList (xs : List α) : (ofList xs).toList = xs := by
  rw [toList_eq_nodes, nodes_ofList]

/-- Sound lists are read and extended at the front by their own operations. -/
instance : Sequence {list : SharedList α // list.Sound} α where
  toList s := s.val.toList
  ofList xs := ⟨ofList xs, .ofList xs⟩
  size s := s.val.length
  empty := ⟨empty, .empty⟩
  uncons s :=
    match h : s.val.splitFirst? with
    | none => none
    | some (x, rest) => some (x, ⟨rest, s.property.splitFirst h⟩)
  cons x s := ⟨s.val.prepend x, s.property.prepend x⟩

instance : LawfulSequence {list : SharedList α // list.Sound} α where
  toList_injective {s t} h := by
    obtain ⟨⟨xs, m⟩, hs⟩ := s
    obtain ⟨⟨ys, n⟩, ht⟩ := t
    simp only [Sequence.toList, toList_eq_nodes] at h
    simp only [Sound] at hs ht
    subst h hs ht
    rfl
  toList_ofList xs := by simp [Sequence.toList, Sequence.ofList]
  size_eq_length s := by
    simp only [Sequence.toList, Sequence.size, toList_eq_nodes]
    exact s.property
  toList_empty := rfl
  toList_uncons s := by
    obtain ⟨⟨xs, n⟩, hs⟩ := s
    cases xs with
    | nil => simp [Sequence.uncons, Sequence.toList, splitFirst?]
    | cons x xs => simp [Sequence.uncons, Sequence.toList, splitFirst?]
  toList_cons x s := by simp [Sequence.toList, Sequence.cons, SharedList.prepend]

end SharedList
end TwoWay
