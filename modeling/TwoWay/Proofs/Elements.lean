import Mathlib.Data.List.Forall2
import TwoWay.Proofs.Registers

/-!
What shared lists say of their elements. Equality looks at the two lengths and then at the positions
that both lists have, a digest is fed the length before the elements, and a cursor counts down by
itself beside the nodes that it passes. All three rely on lengths that count nodes, as they do in
the lists that registers hold: there equality and digests depend on the elements alone, and a cursor
that has been moved any number of times is one at the front of the elements still to come.
-/

namespace TwoWay
namespace SharedList

variable {α : Type}

/-- Two shared lists are equal if the elements at each position are and neither list goes on where
the other one ends. -/
theorem beq_ofList_iff [BEq α] (xs ys : List α) :
    (ofList xs == ofList ys) = true ↔ List.Forall₂ (fun x y => (x == y) = true) xs ys := by
  change beq (ofList xs) (ofList ys) = true ↔ _
  rw [beq, toList_ofList, toList_ofList, Bool.and_eq_true, beq_iff_eq, List.all_eq_true,
    List.forall₂_iff_zip, Prod.forall]
  rfl

/-- With a length that does not count its nodes a list would pass for the front of itself. -/
example : ((⟨['a'], 1⟩ : SharedList Char) == ⟨['a', 'b'], 1⟩) = true := by decide

theorem beq_ofList_iff_eq [BEq α] [LawfulBEq α] (xs ys : List α) :
    (ofList xs == ofList ys) = true ↔ xs = ys := by
  rw [beq_ofList_iff]
  simp only [beq_iff_eq, List.forall₂_eq_eq_eq]

section Digests

variable {η : Type} (length : η → Nat → η) (element : η → α → η)

theorem feed_ofList (xs : List α) (digest : η) :
    (ofList xs).feed length element digest = xs.foldl element (length digest xs.length) := by
  rw [feed, toList_ofList, ofList_eq]

/-- Equal lists feed the same, provided that equal elements do. -/
theorem feed_eq_of_beq [BEq α] {xs ys : List α}
    (alike : ∀ digest x y, (x == y) = true → element digest x = element digest y)
    (h : (ofList xs == ofList ys) = true) (digest : η) :
    (ofList xs).feed length element digest = (ofList ys).feed length element digest := by
  have related := (beq_ofList_iff xs ys).1 h
  rw [feed_ofList, feed_ofList, related.length_eq]
  refine List.rel_foldl (P := Eq) ?_ rfl related
  intro before before' same x y hxy
  rw [same, alike before' x y hxy]

end Digests

namespace Cursor

/-- Where a further call leaves the cursor: behind the element it yields, or at the end. -/
def moved (cursor : Cursor α) : Cursor α := (cursor.next?.map Prod.snd).getD cursor

def movedBy (cursor : Cursor α) : Nat → Cursor α
  | 0 => cursor
  | n + 1 => cursor.moved.movedBy n

end Cursor

theorem next?_start_ofList (xs : List α) :
    (ofList xs).start.next? = xs.head?.map fun x => (x, (ofList xs.tail).start) := by
  rw [ofList_eq, ofList_eq]
  cases xs <;> rfl

theorem moved_start_ofList (xs : List α) : (ofList xs).start.moved = (ofList xs.tail).start := by
  rw [Cursor.moved, next?_start_ofList]
  cases xs <;> rfl

/-- Moving a cursor is taking elements off the front, also where there are none left. -/
theorem movedBy_start_ofList (xs : List α) (n : Nat) :
    (ofList xs).start.movedBy n = (ofList (xs.drop n)).start := by
  induction n generalizing xs with
  | zero => rfl
  | succ n ih => rw [Cursor.movedBy, moved_start_ofList, ih, List.drop_tail]

theorem bounds_start_ofList (xs : List α) :
    (ofList xs).start.bounds = (xs.length, some xs.length) := by
  rw [ofList_eq]
  rfl

theorem visits_start_ofList (xs : List α) : (ofList xs).start.visits.map Prod.fst = xs :=
  toList_ofList xs

open Registers

/-- Any two lists that registers hold behind a row of operations are equal exactly if they hold
equal elements in the same order; each feeds a digest the number of its elements and then the
elements, so equal lists feed the same. After any number of calls a cursor announces exactly the
elements that are still to come, and yields the next one as long as there is one. -/
theorem registers_agree_with_elements [BEq α] (operations : List (Operation α))
    {name name' : String} {a b : SharedList α} (ha : (after operations).get? name = some a)
    (hb : (after operations).get? name' = some b) :
    ∃ xs ys, ordinary operations name = some xs ∧ ordinary operations name' = some ys ∧
      ((a == b) = true ↔ List.Forall₂ (fun x y => (x == y) = true) xs ys) ∧
      (∀ [LawfulBEq α], (a == b) = true ↔ xs = ys) ∧
      (∀ {η : Type} (length : η → Nat → η) (element : η → α → η) (digest : η),
        a.feed length element digest = xs.foldl element (length digest xs.length) ∧
        ((∀ digest x y, (x == y) = true → element digest x = element digest y) →
          (a == b) = true → a.feed length element digest = b.feed length element digest)) ∧
      ∀ calls,
        let cursor := a.start.movedBy calls
        cursor.visits.map Prod.fst = xs.drop calls ∧
        cursor.bounds = (cursor.visits.length, some cursor.visits.length) ∧
        cursor.next?.map Prod.fst = xs[calls]? ∧
        (cursor.next?.isSome = true ↔ 0 < cursor.visits.length) := by
  rw [get?_after] at ha hb
  obtain ⟨xs, hxs, rfl⟩ := Option.map_eq_some_iff.1 ha
  obtain ⟨ys, hys, rfl⟩ := Option.map_eq_some_iff.1 hb
  refine ⟨xs, ys, hxs, hys, beq_ofList_iff xs ys, beq_ofList_iff_eq xs ys, ?_, ?_⟩
  · intro η length element digest
    refine ⟨feed_ofList length element xs digest, fun alike same => ?_⟩
    exact feed_eq_of_beq length element alike same digest
  · intro calls cursor
    have here : cursor = (ofList (xs.drop calls)).start := movedBy_start_ofList xs calls
    have coming : cursor.visits.map Prod.fst = xs.drop calls := by
      rw [here, visits_start_ofList]
    have count : cursor.visits.length = (xs.drop calls).length := by
      rw [← coming, List.length_map]
    refine ⟨coming, ?_, ?_, ?_⟩
    · rw [count, here, bounds_start_ofList]
    · rw [here, next?_start_ofList, Option.map_map, ← List.head?_drop]
      exact Option.map_id_apply
    · rw [count, here, next?_start_ofList, Option.isSome_map, List.length_pos_iff]
      exact List.isSome_head?

/-- A list that shares its nodes with another one and is the front of a third; a fourth is equal to
it as long as case does not matter. -/
theorem registers_agree_with_elements_shared :
    let operations : List (Operation Char) :=
      [.collect "bc" ['b', 'c'], .prepend "abc" "bc" 'a', .tail "tail" "abc",
        .collect "bcd" ['b', 'c', 'd'], .collect "upper" ['B', 'C']]
    let tail : SharedList Char := ⟨['b', 'c'], 2⟩
    let bcd : SharedList Char := ⟨['b', 'c', 'd'], 3⟩
    let upper : SharedList Char := ⟨['B', 'C'], 2⟩
    let caseless (c d : Char) : Bool := c.toLower == d.toLower
    let fed (list : SharedList Char) : List (Nat ⊕ Char) :=
      list.feed (fun fed n => fed ++ [.inl n]) (fun fed c => fed ++ [.inr c.toLower]) []
    (after operations).get? "tail" = some tail ∧ (after operations).get? "bc" = some tail ∧
    (after operations).get? "bcd" = some bcd ∧ (after operations).get? "upper" = some upper ∧
    (tail == tail) = true ∧ ¬ (tail == bcd) = true ∧ @beq Char ⟨caseless⟩ tail upper = true ∧
    fed tail = [.inl 2, .inr 'b', .inr 'c'] ∧ fed tail = fed upper ∧
    (tail.start.movedBy 1).bounds = (1, some 1) ∧
    (tail.start.movedBy 1).next?.map Prod.fst = some 'c' ∧
    (tail.start.movedBy 3).bounds = (0, some 0) ∧
    (tail.start.movedBy 3).next?.map Prod.fst = none := by
  intro operations tail bcd upper caseless fed
  have taken : (after operations).get? "tail" = some tail := rfl
  have collected : (after operations).get? "bc" = some tail := rfl
  have longer : (after operations).get? "bcd" = some bcd := rfl
  have capital : (after operations).get? "upper" = some upper := rfl
  obtain ⟨_, _, hxs, hys, -, same, -, moves⟩ :=
    registers_agree_with_elements operations taken collected
  obtain ⟨_, _, hxs', hzs, -, same', -, -⟩ :=
    registers_agree_with_elements operations taken longer
  obtain ⟨_, _, hxs'', hus, related, -, feeds, -⟩ :=
    @registers_agree_with_elements Char ⟨caseless⟩ operations _ _ _ _ taken capital
  cases hxs
  cases hys
  cases hxs'
  cases hzs
  cases hxs''
  cases hus
  have alike : @beq Char ⟨caseless⟩ tail upper = true :=
    related.2 (.cons rfl (.cons rfl .nil))
  refine ⟨taken, collected, longer, capital, same.2 rfl, ?_, alike, (feeds _ _ []).1, ?_, ?_⟩
  · rw [same']
    decide
  · refine (feeds _ _ []).2 (fun digest x y hxy => ?_) alike
    have lower : x.toLower = y.toLower := eq_of_beq (α := Char) hxy
    rw [lower]
  · exact ⟨(moves 1).2.1, (moves 1).2.2.1, (moves 3).2.1, (moves 3).2.2.1⟩

end SharedList
end TwoWay
