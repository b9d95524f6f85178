import Mathlib.Data.List.Induction
import Mathlib.Logic.Function.Basic
import TwoWay.Outline.Value
import TwoWay.SharedList.Registers

/-!
Named shared lists beside named ordinary lists. Whatever row of operations is carried out on both,
each register holds the shared list of the elements that the ordinary list of its name has: its
length counts its nodes, so it answers every question as the ordinary list does. An operation
changes the register it stores into and no other, whatever nodes they have in common.
-/

namespace TwoWay
namespace SharedList

variable {α : Type}

theorem ofList_eq (xs : List α) : ofList xs = ⟨xs, xs.length⟩ := by
  simp [ofList]

theorem prepend_ofList (xs : List α) (x : α) : (ofList xs).prepend x = ofList (x :: xs) := by
  rw [ofList_eq, ofList_eq]
  rfl

theorem tail_ofList (xs : List α) : (ofList xs).tail = ofList xs.tail := by
  rw [ofList_eq, ofList_eq]
  cases xs <;> rfl

theorem splitFirst?_ofList (xs : List α) :
    (ofList xs).splitFirst? = xs.head?.map fun x => (x, ofList xs.tail) := by
  rw [ofList_eq, ofList_eq]
  cases xs <;> rfl

theorem map_uncons (list : {list : SharedList α // list.Sound}) :
    (Sequence.uncons list).map (Prod.map id Subtype.val) = list.val.splitFirst? := by
  simp only [Sequence.uncons]
  split
  next h => exact h.symm
  next h => exact h.symm

theorem prependEach_ofList (xs items : List α) :
    (ofList xs).prependEach items = ofList (items.reverse ++ xs) := by
  induction items generalizing xs with
  | nil => rfl
  | cons x items ih =>
      change ((ofList xs).prepend x).prependEach items = _
      rw [prepend_ofList, ih, List.reverse_cons, List.append_assoc]
      rfl

theorem dropFirst_ofList (xs : List α) (n : Nat) :
    (ofList xs).dropFirst n = ofList (xs.drop n) := by
  induction n generalizing xs with
  | zero => rfl
  | succ n ih =>
      rw [dropFirst, tail_ofList, ih, List.drop_tail]

/-- A shared list answers as an ordinary list does. -/
structure AnswersAs [Outlined α] (list : SharedList α) (xs : List α) : Prop where
  length : list.length = xs.length
  isEmpty : list.isEmpty = xs.isEmpty
  head : list.head? = xs.head?
  tail : list.tail = ofList xs.tail
  splitFirst : list.splitFirst? = xs.head?.map fun x => (x, ofList xs.tail)
  iterates : list.toList = xs
  debug : outline list = outline xs
  display : ∀ text : α → String, list.display text = String.join (xs.map text)
  cons : ∀ (sound : list.Sound) x,
    (Sequence.cons x (⟨list, sound⟩ : {list : SharedList α // list.Sound})).val = ofList (x :: xs)
  uncons : ∀ sound : list.Sound,
    (Sequence.uncons (⟨list, sound⟩ : {list : SharedList α // list.Sound})).map
      (Prod.map id Subtype.val) = xs.head?.map fun x => (x, ofList xs.tail)
  /-- Where there is an element to take off, the length is one more than what remains. -/
  unsaturated : xs ≠ [] → list.length - 1 + 1 = list.length

theorem answersAs_ofList [Outlined α] (xs : List α) : (ofList xs).AnswersAs xs where
  length := by rw [ofList_eq]
  isEmpty := by
    rw [ofList_eq]
    cases xs <;> rfl
  head := by rw [ofList_eq, head?]
  tail := tail_ofList xs
  splitFirst := splitFirst?_ofList xs
  iterates := toList_ofList xs
  debug := by
    change outline (ofList xs).toList = outline xs
    rw [toList_ofList]
  display text := by rw [display, toList_ofList]
  cons _ x := prepend_ofList xs x
  uncons sound := by rw [map_uncons, splitFirst?_ofList]
  unsaturated hne := by
    have positive := List.length_pos_iff.2 hne
    rw [ofList_eq]
    exact Nat.sub_add_cancel positive

/-- The register that an operation stores into or removes. -/
def Operation.target : Operation α → String
  | .create target | .collect target _ | .prepend target _ _ | .prependEach target _ _
  | .tail target _ | .dropFirst target _ _ | .splitFirst target _ | .copy target _
  | .discard target => target

/-- What stands under each name once the list that was made, if any, is stored. -/
def storing {β : Type} (target : String) (made : Option β) (named : String → Option β) :
    String → Option β :=
  match made with
  | none => named
  | some list => Function.update named target (some list)

/-- What stands under each name behind an operation that makes `made`. -/
def Operation.leaves {β : Type} (made : Option β) (named : String → Option β) :
    Operation α → String → Option β
  | .discard name => Function.update named name none
  | operation => storing operation.target made named

/-- The ordinary list that an operation makes, with the element it splits off. -/
def Operation.make (lists : String → Option (List α)) : Operation α → Option (Option α × List α)
  | .create _ => some (none, [])
  | .collect _ items => some (none, items)
  | .prepend _ source item => (lists source).map fun xs => (none, item :: xs)
  | .prependEach _ source items => (lists source).map fun xs => (none, items.reverse ++ xs)
  | .tail _ source => (lists source).map fun xs => (none, xs.tail)
  | .dropFirst _ source count => (lists source).map fun xs => (none, xs.drop count)
  | .copy _ source => (lists source).map fun xs => (none, xs)
  | .splitFirst _ source =>
    match lists source with
    | none | some [] => none
    | some (x :: xs) => some (some x, xs)
  | .discard _ => none

/-- The ordinary lists behind a row of operations that starts from none. -/
def ordinary (operations : List (Operation α)) : String → Option (List α) :=
  operations.foldl
    (fun lists operation => operation.leaves ((operation.make lists).map Prod.snd) lists)
    fun _ => none

/-- The list an answer brings, with the element split off in front of it. -/
def Answer.made : Answer α → Option (Option α × SharedList α)
  | .stored list => some (none, list)
  | .split first tail => some (some first, tail)
  | .discarded _ | .absent => none

theorem storing_of_ne {β : Type} {target name : String} (h : name ≠ target) (made : Option β)
    (named : String → Option β) : storing target made named name = named name := by
  cases made with
  | none => rfl
  | some list => exact Function.update_of_ne h ..

theorem storing_map {β γ : Type} (f : β → γ) (target : String) (made : Option β)
    (named : String → Option β) :
    storing target (made.map f) (Option.map f ∘ named) =
      Option.map f ∘ storing target made named := by
  cases made with
  | none => rfl
  | some list => exact (Function.comp_update (Option.map f) named target (some list)).symm

theorem Operation.leaves_of_ne {β : Type} {operation : Operation α} {name : String}
    (h : name ≠ operation.target) (made : Option β) (named : String → Option β) :
    operation.leaves made named name = named name := by
  cases operation with
  | discard _ => exact Function.update_of_ne h ..
  | _ => exact storing_of_ne h ..

theorem Operation.leaves_map {β γ : Type} (f : β → γ) (operation : Operation α) (made : Option β)
    (named : String → Option β) :
    operation.leaves (made.map f) (Option.map f ∘ named) =
      Option.map f ∘ operation.leaves made named := by
  cases operation with
  | discard name => exact (Function.comp_update (Option.map f) named name none).symm
  | _ => exact storing_map ..

namespace Registers

/-- The registers behind a row of operations that starts from none. -/
def after (operations : List (Operation α)) : Registers α :=
  operations.foldl (fun registers operation => (registers.apply operation).2) empty

theorem lookup_filter_self {β : Type} (name : String) (entries : List (String × β)) :
    (entries.filter fun entry => entry.1 != name).lookup name = none := by
  induction entries with
  | nil => rfl
  | cons entry entries ih =>
      by_cases h : entry.1 = name
      · rw [List.filter_cons_of_neg (by simp [h]), ih]
      · rw [List.filter_cons_of_pos (by simp [h]), List.lookup_cons, ih,
          beq_false_of_ne (Ne.symm h)]

theorem lookup_filter_ne {β : Type} {name other : String} (h : other ≠ name)
    (entries : List (String × β)) :
    (entries.filter fun entry => entry.1 != name).lookup other = entries.lookup other := by
  induction entries with
  | nil => rfl
  | cons entry entries ih =>
      by_cases hname : entry.1 = name
      · rw [List.filter_cons_of_neg (by simp [hname]), List.lookup_cons, ih, hname,
          beq_false_of_ne h]
      · rw [List.filter_cons_of_pos (by simp [hname]), List.lookup_cons, List.lookup_cons, ih]

theorem get?_erase (registers : Registers α) (name : String) :
    (registers.erase name).get? = Function.update registers.get? name none := by
  funext other
  by_cases h : other = name
  · rw [h, Function.update_self]
    exact lookup_filter_self name registers.entries
  · rw [Function.update_of_ne h]
    exact lookup_filter_ne h registers.entries

theorem get?_store (registers : Registers α) (name : String) (list : SharedList α) :
    (registers.store name list).get? = Function.update registers.get? name (some list) := by
  funext other
  rw [get?, store, List.lookup_cons]
  by_cases h : other = name
  · rw [h, beq_self_eq_true, Function.update_self]
  · rw [beq_false_of_ne h, Function.update_of_ne h]
    exact lookup_filter_ne h registers.entries

theorem get?_derive (registers : Registers α) (target source : String)
    (f : SharedList α → SharedList α) :
    (registers.derive target source f).2.get? =
      storing target ((registers.derive target source f).1.made.map Prod.snd) registers.get? := by
  rw [derive]
  split
  · rfl
  · exact get?_store ..

/-- An operation stores the list it answers with, and does nothing else. -/
theorem get?_apply (registers : Registers α) (operation : Operation α) :
    (registers.apply operation).2.get? =
      operation.leaves ((registers.apply operation).1.made.map Prod.snd) registers.get? := by
  cases operation with
  | create _ | collect _ _ => exact get?_store ..
  | prepend _ _ _ | prependEach _ _ _ | tail _ _ | dropFirst _ _ _ | copy _ _ =>
      exact get?_derive ..
  | splitFirst target source =>
      rw [apply]
      split
      · rfl
      · exact get?_store ..
  | discard name => exact get?_erase ..

section

variable {registers : Registers α} {lists : String → Option (List α)}

theorem made_derive (h : registers.get? = Option.map ofList ∘ lists) (target source : String)
    {f : SharedList α → SharedList α} {g : List α → List α}
    (hf : ∀ xs, f (ofList xs) = ofList (g xs)) :
    (registers.derive target source f).1.made =
      ((lists source).map fun xs => (none, g xs)).map (Prod.map id ofList) := by
  rw [derive, h, Function.comp_apply]
  cases lists source with
  | none => rfl
  | some xs => exact congrArg (fun list => some (none, list)) (hf xs)

/-- Where the registers hold the ordinary lists, an operation makes the same list of both. -/
theorem made_apply (h : registers.get? = Option.map ofList ∘ lists) (operation : Operation α) :
    (registers.apply operation).1.made =
      (operation.make lists).map (Prod.map id ofList) := by
  cases operation with
  | create _ | collect _ _ | discard _ => rfl
  | prepend _ _ item => exact made_derive h _ _ fun xs => prepend_ofList xs item
  | prependEach _ _ items => exact made_derive h _ _ fun xs => prependEach_ofList xs items
  | tail _ _ => exact made_derive h _ _ tail_ofList
  | dropFirst _ _ count => exact made_derive h _ _ fun xs => dropFirst_ofList xs count
  | copy _ _ => exact made_derive h _ _ fun _ => rfl
  | splitFirst _ source =>
      rw [apply, Operation.make, h, Function.comp_apply]
      rcases lists source with _ | _ | ⟨x, xs⟩
      · rfl
      · rfl
      · rw [Option.map_some, Option.bind_some, splitFirst?_ofList]
        rfl

theorem get?_apply_of_lists (h : registers.get? = Option.map ofList ∘ lists)
    (operation : Operation α) :
    (registers.apply operation).2.get? =
      Option.map ofList ∘ operation.leaves ((operation.make lists).map Prod.snd) lists := by
  rw [get?_apply, made_apply h, ← Operation.leaves_map, Option.map_map, Option.map_map, h]
  rfl

end

/-- The registers hold the ordinary lists behind every row of operations. -/
theorem get?_after (operations : List (Operation α)) :
    (after operations).get? = Option.map ofList ∘ ordinary operations := by
  induction operations using List.reverseRecOn with
  | nil => rfl
  | append_singleton operations operation ih =>
      rw [after, ordinary, List.foldl_append, List.foldl_append]
      exact get?_apply_of_lists ih operation

end Registers

open Registers

/-- Shared lists behave as ordinary ones over every row of operations. Each register holds the
elements of the ordinary list of its name, counts its nodes and answers as that list does; a further
operation makes the list that it makes of ordinary ones and leaves every other register alone. -/
theorem registers_refine_lists [Outlined α] (operations : List (Operation α)) :
    (∀ name, (after operations).get? name = (ordinary operations name).map ofList) ∧
    (∀ name list, (after operations).get? name = some list →
      ∃ xs, ordinary operations name = some xs ∧ list.length = list.nodes.length ∧
        list.nodes = xs ∧ list.AnswersAs xs) ∧
    ∀ operation : Operation α,
      ((after operations).apply operation).1.made =
        (operation.make (ordinary operations)).map (Prod.map id ofList) ∧
      ∀ name, name ≠ operation.target →
        ((after operations).apply operation).2.get? name = (after operations).get? name := by
  have held := get?_after operations
  refine ⟨congrFun held, fun name list h => ?_, fun operation => ⟨made_apply held operation, ?_⟩⟩
  · rw [held] at h
    obtain ⟨xs, hxs, rfl⟩ := Option.map_eq_some_iff.1 h
    exact ⟨xs, hxs, Sound.ofList xs, nodes_ofList xs, answersAs_ofList xs⟩
  · intro name hname
    rw [get?_apply, Operation.leaves_of_ne hname]

/-- A row in which two lists share their tail: extending one, splitting it and taking the rest. -/
theorem registers_refine_lists_sharing :
    let operations := [.collect "yz" ['y', 'z'], .prepend "xyz" "yz" 'x', .splitFirst "rest" "xyz"]
    (after operations).get? "xyz" = some ⟨['x', 'y', 'z'], 3⟩ ∧
    ordinary operations "xyz" = some ['x', 'y', 'z'] ∧
    AnswersAs ⟨['x', 'y', 'z'], 3⟩ ['x', 'y', 'z'] ∧
    "yz" ≠ (Operation.tail "xyz" "yz" : Operation Char).target ∧
    ((after operations).apply (.tail "xyz" "yz")).2.get? "yz" = (after operations).get? "yz" := by
  intro operations
  obtain ⟨-, answers, frame⟩ := registers_refine_lists operations
  have extended : (after operations).get? "xyz" = some ⟨['x', 'y', 'z'], 3⟩ := rfl
  obtain ⟨xs, hxs, -, rfl, agrees⟩ := answers "xyz" _ extended
  have other : "yz" ≠ (Operation.tail "xyz" "yz" : Operation Char).target := by decide
  exact ⟨extended, hxs, agrees, other, (frame (.tail "xyz" "yz")).2 "yz" other⟩

end SharedList
end TwoWay
