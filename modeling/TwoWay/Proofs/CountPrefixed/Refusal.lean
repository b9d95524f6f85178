import TwoWay.Proofs.CountPrefixed

/-!
What the checked format refuses to write. A word is bad where it stands if it holds something
else than letters, or if it is empty and a nonempty word follows it, whose count its zero would
join. Words are written from the last to the first, so the last bad one is reported.
-/

namespace TwoWay
namespace CountPrefixed

open Grammar Sequence

instance : DecidablePred Lettered :=
  fun word => inferInstanceAs (Decidable (∀ c ∈ word.toList, c.isAlpha = true))

/-- The word at an index cannot be written in front of the words behind it. -/
def BadAt (ws : List String) (i : Nat) : Prop :=
  ∃ word ∈ ws[i]?, ¬ Lettered word ∨ word = "" ∧ ∃ next ∈ ws[i + 1]?, next ≠ ""

/-- The error for a bad word, which cannot be built or not be read back. -/
def badWordError (word : String) : Error :=
  if Lettered word then .inconsistentDriver else .cannotBuild

variable {word : String} {ws : List String}

theorem badAt_succ_iff {i : Nat} : BadAt (word :: ws) (i + 1) ↔ BadAt ws i := Iff.rfl

theorem badAt_zero_iff : BadAt (word :: ws) 0 ↔
    ¬ Lettered word ∨ word = "" ∧ ∃ next ∈ ws.head?, next ≠ "" := by
  simp [BadAt, List.head?_eq_getElem?]

/-- Without bad words the empty ones stand at the end. -/
theorem forall_not_badAt_iff :
    (∀ i, ¬ BadAt ws i) ↔ (∀ word ∈ ws, Lettered word) ∧ EmptyLast ws := by
  induction ws with
  | nil => exact iff_of_true (fun i bad => by simp [BadAt] at bad) ⟨by simp, .nil⟩
  | cons word ws ih =>
      simp only [← Nat.and_forall_add_one (p := fun i => ¬ BadAt (word :: ws) i), badAt_succ_iff]
      rw [ih, badAt_zero_iff, not_or, Decidable.not_not, List.forall_mem_cons]
      constructor
      · rintro ⟨⟨hword, hnext⟩, hws, last⟩
        refine ⟨⟨hword, hws⟩, .cons (fun later hlater hempty => ?_) last⟩
        cases ws with
        | nil => cases hlater
        | cons next ws =>
            have next_empty : next = "" :=
              Decidable.byContradiction fun hne => hnext ⟨hempty, next, rfl, hne⟩
            obtain rfl | hlater := List.mem_cons.1 hlater
            · exact next_empty
            · exact List.rel_of_pairwise_cons last hlater next_empty
      · rintro ⟨⟨hword, hws⟩, last⟩
        refine ⟨⟨hword, ?_⟩, hws, last.tail⟩
        rintro ⟨hempty, next, hnext, hne⟩
        exact hne (List.rel_of_pairwise_cons last (List.mem_of_mem_head? hnext) hempty)

section Writing

variable {σ : Type} [Sequence σ Char] [LawfulSequence σ Char] {ρ : Type → Type} {m : Meaning ρ σ}

theorem write_bad_item (hws : ∀ later ∈ ws, Writable later) (bad : BadAt (word :: ws) 0) :
    ((bindChecked integer letters count : Grammar Char ρ String).write m word
      (prepend (text ws) (empty : σ))).outcome = .refused (badWordError word) := by
  by_cases hword : Lettered word
  · -- The zero of an empty word is read as part of the next count, which says some letters.
    rw [badWordError, if_pos hword]
    obtain ⟨rfl, next, hnext, hne⟩ := (badAt_zero_iff.1 bad).resolve_left (not_not_intro hword)
    obtain ⟨others, rfl⟩ := List.head?_eq_some_iff.1 hnext
    have merged := read_merged (m := m) (hws next (List.mem_cons_self ..)) hne
      (prepend (text others) empty)
    have different := count_ne_count_empty (hws next (List.mem_cons_self ..)) hne
    refine write_bindChecked_eq_refused_iff.2
      (.inr ⟨rfl, _, spells_item.writes writable_empty _, ?_⟩)
    rw [prepend_text_cons]
    exact readsBackAs_eq_refused_iff.2 (.inr ⟨_, _, merged, .inl (beq_false_of_ne different)⟩)
  · rw [badWordError, if_neg hword]
    have unwritable : ¬ Writable word := fun writable => hword writable.2
    exact write_bindChecked_eq_refused_iff.2 (.inl (spells_item.refuses unwritable _))

/-- The last bad word ends the writing, after the words behind it are written. -/
theorem write_checked_of_bad (short : ∀ word ∈ ws, word.length ≤ Int64.maxValue.toInt.toNat)
    (bad : ∃ i, BadAt ws i) :
    ∃ i word, ws[i]? = some word ∧ BadAt ws i ∧ (∀ j, BadAt ws j → j ≤ i) ∧
      ((many (bindChecked integer letters count) : Grammar Char ρ (List String)).write m ws
        (empty : σ)).outcome = .refused (badWordError word) := by
  induction ws with
  | nil =>
      obtain ⟨i, bad⟩ := bad
      simp [BadAt] at bad
  | cons word ws ih =>
      obtain ⟨-, short⟩ := List.forall_mem_cons.1 short
      by_cases later : ∃ i, BadAt ws i
      · obtain ⟨i, word', hi, here, last, refused⟩ := ih short later
        refine ⟨i + 1, word', hi, here, ?_, write_many_cons_eq_refused_iff.2 (.inl refused)⟩
        intro j hj
        cases j with
        | zero => exact Nat.zero_le _
        | succ j => exact Nat.succ_le_succ (last j hj)
      · have good := not_exists.1 later
        obtain ⟨lettered, emptyLast⟩ := forall_not_badAt_iff.1 good
        have writable := (forall_writable_iff short).2 lettered
        have written := write_checked_eq_done_iff (m := m).2 ⟨writable, emptyLast, rfl⟩
        have here : BadAt (word :: ws) 0 := by
          obtain ⟨i, hi⟩ := bad
          cases i with
          | zero => exact hi
          | succ i => exact absurd hi (good i)
        refine ⟨0, word, rfl, here, ?_,
          write_many_cons_eq_refused_iff.2 (.inr ⟨_, written, write_bad_item writable here⟩)⟩
        intro j hj
        cases j with
        | zero => exact Nat.le_refl _
        | succ j => exact absurd hj (good j)

/-- The checked format writes words none of which is bad, and reports the last bad one. -/
theorem checkedWords_print_last_bad (m : Meaning ρ σ)
    (short : ∀ word ∈ ws, word.length ≤ Int64.maxValue.toInt.toNat) :
    ((∃ out : σ, (checkedWords.print m ws).outcome = .done out) ↔ ∀ i, ¬ BadAt ws i) ∧
    ((∃ i, BadAt ws i) → ∃ i word, ws[i]? = some word ∧ BadAt ws i ∧
      (∀ j, BadAt ws j → j ≤ i) ∧
      (checkedWords.print m ws).outcome = .refused (badWordError word)) := by
  constructor
  · simp only [print_eq_done_iff, checkedWords, write_seqLeft_eof, write_checked_eq_done_iff,
      forall_writable_iff short, forall_not_badAt_iff, exists_and_left, exists_eq, and_true]
  · intro bad
    obtain ⟨i, word, hi, here, last, refused⟩ := write_checked_of_bad (m := m) short bad
    exact ⟨i, word, hi, here, last, print_eq_refused_iff.2 refused⟩

end Writing

theorem checkedWords_print_last_bad_of_two :
    let ws := ["x1", "", "a", ""]
    (∀ word ∈ ws, word.length ≤ Int64.maxValue.toInt.toNat) ∧ (∃ i, BadAt ws i) ∧
    ∃ i word, ws[i]? = some word ∧ BadAt ws i ∧ (∀ j, BadAt ws j → j ≤ i) ∧
      (checkedWords.print (NoRule.meaning : Meaning NoRule (List Char)) ws).outcome =
        .refused (badWordError word) := by
  intro ws
  have short : ∀ word ∈ ws, word.length ≤ Int64.maxValue.toInt.toNat := by decide
  have bad : ∃ i, BadAt ws i := ⟨1, "", rfl, .inr ⟨rfl, "a", rfl, by decide⟩⟩
  exact ⟨short, bad, (checkedWords_print_last_bad NoRule.meaning short).2 bad⟩

end CountPrefixed
end TwoWay
