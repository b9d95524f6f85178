import TwoWay.Proofs.Numeral

/-!
Laws of two-way functions. An iso is lawful if going one way and back the other gives the same
value again, from either side. A prism has two laws of this kind, and they are independent: what it
builds is found again, and what it finds is built again as it was. Each of the three is kept by
every way of making a larger two-way function out of smaller ones, so an expression of any size has
a law that its leaves have.
-/

namespace TwoWay

variable {α β γ : Type}

namespace Iso

/-- Neither direction loses anything. -/
structure Lawful (iso : Iso α β) : Prop where
  reverseGet_get : ∀ x, iso.reverseGet (iso.get x) = x
  get_reverseGet : ∀ y, iso.get (iso.reverseGet y) = y

namespace Lawful

variable {iso other : Iso α β}

theorem reverse (h : iso.Lawful) : iso.reverse.Lawful where
  reverseGet_get := h.get_reverseGet
  get_reverseGet := h.reverseGet_get

theorem compose {inner : Iso β γ} (ho : iso.Lawful) (hi : inner.Lawful) :
    (iso.compose inner).Lawful where
  reverseGet_get x := by
    rw [get_compose, reverseGet_compose, hi.reverseGet_get, ho.reverseGet_get]
  get_reverseGet z := by
    rw [get_compose, reverseGet_compose, ho.get_reverseGet, hi.get_reverseGet]

theorem of_eq (h : iso.Lawful) (get : ∀ x, other.get x = iso.get x)
    (reverseGet : ∀ y, other.reverseGet y = iso.reverseGet y) : other.Lawful where
  reverseGet_get x := by rw [get, reverseGet, h.reverseGet_get]
  get_reverseGet y := by rw [get, reverseGet, h.get_reverseGet]

end Lawful

/-- The isos that expressions start from. -/
inductive Standard : {α β : Type} → Iso α β → Prop
  | identity {α : Type} : Standard (identity : Iso α α)
  | swapped {α β : Type} : Standard (swapped : Iso (α × β) (β × α))
  | list {α : Type} : Standard (list : Iso ((α × List α) ⊕ Unit) (List α))
  | nonEmpty {α : Type} : Standard (nonEmpty : Iso (α × List α) (NonEmptyList α))
  | charsText : Standard charsText
  | listReversal {α : Type} : Standard (listReversal : Iso (List α) (List α))
  | negation : Standard negation
  | addition (k : Int64) : Standard (addition k)

theorem Standard.lawful {iso : Iso α β} (h : iso.Standard) : iso.Lawful := by
  cases h with
  | identity | swapped | nonEmpty => exact ⟨fun _ => rfl, fun _ => rfl⟩
  | list =>
      refine ⟨fun x => ?_, fun xs => ?_⟩
      · cases x <;> rfl
      · cases xs <;> rfl
  | charsText => exact ⟨fun _ => String.toList_ofList, fun _ => String.ofList_toList⟩
  | listReversal => exact ⟨List.reverse_reverse, List.reverse_reverse⟩
  | negation => exact ⟨fun _ => Int64.neg_neg, fun _ => Int64.neg_neg⟩
  | addition k => exact ⟨fun x => Int64.add_sub_cancel x k, fun y => Int64.sub_add_cancel y k⟩

/-- The expressions made of leaves by reversing and composing. An iso that is used by reference goes
both ways as the iso itself does. -/
inductive MadeOf (leaf : {α β : Type} → Iso α β → Prop) : {α β : Type} → Iso α β → Prop
  | leaf {α β : Type} {iso : Iso α β} (h : leaf iso) : MadeOf @leaf iso
  | reverse {α β : Type} {iso : Iso α β} (h : MadeOf @leaf iso) : MadeOf @leaf iso.reverse
  | compose {α β γ : Type} {outer : Iso α β} {inner : Iso β γ} (ho : MadeOf @leaf outer)
      (hi : MadeOf @leaf inner) : MadeOf @leaf (outer.compose inner)
  | byReference {α β : Type} {iso other : Iso α β} (h : MadeOf @leaf iso)
      (get : ∀ x, other.get x = iso.get x)
      (reverseGet : ∀ y, other.reverseGet y = iso.reverseGet y) : MadeOf @leaf other

theorem MadeOf.lawful {leaf : {α β : Type} → Iso α β → Prop} {iso : Iso α β} (h : iso.MadeOf leaf)
    (leaves : ∀ {α β : Type} {iso : Iso α β}, leaf iso → iso.Lawful) : iso.Lawful := by
  induction h with
  | leaf h => exact leaves h
  | reverse _ ih => exact ih.reverse
  | compose _ _ iho ihi => exact iho.compose ihi
  | byReference _ get reverseGet ih => exact ih.of_eq get reverseGet

/-- Merging a choice forgets which alternative was taken. -/
theorem not_lawful_content (isFirst : α → Bool) (x : α) : ¬ (content isFirst).Lawful := by
  intro h
  have first := h.reverseGet_get (.inl x)
  have second := h.reverseGet_get (.inr x)
  rw [get_content] at first second
  cases first.symm.trans second

/-- An expression of any size, made of the standard isos, goes either way and back without a loss,
and as a prism it finds everything. -/
theorem standard_expressions_lossless {iso : Iso α β} (h : iso.MadeOf Standard) :
    (∀ x, iso.reverseGet (iso.get x) = x) ∧
    (∀ y, iso.get (iso.reverseGet y) = y) ∧
    (∀ x, (Prism.ofIso iso).preview x = some (iso.get x)) ∧
    ∀ y, (Prism.ofIso iso).preview ((Prism.ofIso iso).review y) = some y := by
  have lawful : iso.Lawful := h.lawful Standard.lawful
  refine ⟨lawful.reverseGet_get, lawful.get_reverseGet, fun x => rfl, fun y => ?_⟩
  rw [Prism.preview_ofIso, Prism.review_ofIso, lawful.get_reverseGet]

/-- A reversed expression that uses another one by reference, at the end of the integers. -/
theorem standard_expressions_lossless_at_least :
    let shifted : Iso Int64 Int64 := (addition 1).compose negation
    let reference : Iso Int64 Int64 := .functions shifted.get shifted.reverseGet
    let iso := (reference.compose (addition 7)).reverse
    iso.MadeOf Standard ∧ iso.get Int64.minValue = Int64.minValue + 6 ∧
    iso.reverseGet (iso.get Int64.minValue) = Int64.minValue ∧
    (Prism.ofIso iso).preview ((Prism.ofIso iso).review Int64.maxValue) = some Int64.maxValue := by
  intro shifted reference iso
  have made : iso.MadeOf Standard :=
    .reverse (.compose
      (.byReference (.compose (.leaf (.addition 1)) (.leaf .negation)) (fun _ => rfl) fun _ => rfl)
      (.leaf (.addition 7)))
  obtain ⟨back, -, -, found⟩ := standard_expressions_lossless made
  exact ⟨made, by decide, back _, found _⟩

end Iso

namespace Prism

/-- What is built is found again. -/
structure FindsBuilt (prism : Prism α β) : Prop where
  preview_review : ∀ y, prism.preview (prism.review y) = some y

/-- What is found is built again as it was. -/
structure RebuildsFound (prism : Prism α β) : Prop where
  review_eq : ∀ {x y}, prism.preview x = some y → prism.review y = x

namespace FindsBuilt

variable {prism other : Prism α β}

theorem ofIso {iso : Iso α β} (h : iso.Lawful) : (ofIso iso).FindsBuilt where
  preview_review y := by rw [preview_ofIso, review_ofIso, h.get_reverseGet]

/-- The inner prism has found its part before the outer one looks. -/
theorem compose {inner : Prism β γ} (ho : prism.FindsBuilt) (hi : inner.FindsBuilt) :
    (prism.compose inner).FindsBuilt where
  preview_review z := by
    rw [preview_compose, review_compose, ho.preview_review, Option.bind_some, hi.preview_review]

theorem aside (h : prism.FindsBuilt) : (aside prism : Prism (γ × α) (γ × β)).FindsBuilt where
  preview_review := by
    rintro ⟨kept, y⟩
    rw [review_aside, preview_aside, h.preview_review, Option.map_some]

theorem of_eq (h : prism.FindsBuilt) (preview : ∀ x, other.preview x = prism.preview x)
    (review : ∀ y, other.review y = prism.review y) : other.FindsBuilt where
  preview_review y := by rw [preview, review, h.preview_review]

/-- The second edit finds what the first one has built. -/
theorem modifyOption_modifyOption (h : prism.FindsBuilt) {edit edit' : β → β} {x x' : α}
    (edited : prism.modifyOption x edit = some x') :
    prism.modifyOption x' edit' = prism.modifyOption x (edit' ∘ edit) := by
  obtain ⟨y, found, rfl⟩ := Option.map_eq_some_iff.1 edited
  rw [modifyOption, modifyOption, h.preview_review, found]
  rfl

end FindsBuilt

namespace RebuildsFound

variable {prism other : Prism α β}

theorem ofIso {iso : Iso α β} (h : iso.Lawful) : (ofIso iso).RebuildsFound where
  review_eq found := by
    cases found
    exact h.reverseGet_get _

theorem compose {inner : Prism β γ} (ho : prism.RebuildsFound) (hi : inner.RebuildsFound) :
    (prism.compose inner).RebuildsFound where
  review_eq found := by
    obtain ⟨y, outside, inside⟩ := Option.bind_eq_some_iff.1 found
    rw [review_compose, hi.review_eq inside, ho.review_eq outside]

theorem aside (h : prism.RebuildsFound) :
    (aside prism : Prism (γ × α) (γ × β)).RebuildsFound where
  review_eq {whole part} found := by
    obtain ⟨kept, x⟩ := whole
    obtain ⟨y, inside, rfl⟩ := Option.map_eq_some_iff.1 found
    rw [review_aside, h.review_eq inside]

theorem of_eq (h : prism.RebuildsFound) (preview : ∀ x, other.preview x = prism.preview x)
    (review : ∀ y, other.review y = prism.review y) : other.RebuildsFound where
  review_eq {x y} found := by
    rw [preview] at found
    rw [review, h.review_eq found]

end RebuildsFound

/-- The expressions made of leaves and of lawful isos by composing and by carrying a passenger
along. A prism that is used by reference finds and builds as the prism itself does. -/
inductive MadeOf (leaf : {α β : Type} → Prism α β → Prop) : {α β : Type} → Prism α β → Prop
  | leaf {α β : Type} {prism : Prism α β} (h : leaf prism) : MadeOf @leaf prism
  | ofIso {α β : Type} {iso : Iso α β} (h : iso.Lawful) : MadeOf @leaf (ofIso iso)
  | compose {α β γ : Type} {outer : Prism α β} {inner : Prism β γ} (ho : MadeOf @leaf outer)
      (hi : MadeOf @leaf inner) : MadeOf @leaf (outer.compose inner)
  | aside {α β γ : Type} {prism : Prism α β} (h : MadeOf @leaf prism) :
      MadeOf @leaf (aside prism : Prism (γ × α) (γ × β))
  | byReference {α β : Type} {prism other : Prism α β} (h : MadeOf @leaf prism)
      (preview : ∀ x, other.preview x = prism.preview x)
      (review : ∀ y, other.review y = prism.review y) : MadeOf @leaf other

section Expressions

variable {leaf : {α β : Type} → Prism α β → Prop} {prism : Prism α β}

theorem MadeOf.findsBuilt (h : prism.MadeOf leaf)
    (leaves : ∀ {α β : Type} {p : Prism α β}, leaf p → p.FindsBuilt) : prism.FindsBuilt := by
  induction h with
  | leaf h => exact leaves h
  | ofIso h => exact .ofIso h
  | compose _ _ iho ihi => exact iho.compose ihi
  | aside _ ih => exact ih.aside
  | byReference _ preview review ih => exact ih.of_eq preview review

theorem MadeOf.rebuildsFound (h : prism.MadeOf leaf)
    (leaves : ∀ {α β : Type} {p : Prism α β}, leaf p → p.RebuildsFound) :
    prism.RebuildsFound := by
  induction h with
  | leaf h => exact leaves h
  | ofIso h => exact .ofIso h
  | compose _ _ iho ihi => exact iho.compose ihi
  | aside _ ih => exact ih.aside
  | byReference _ preview review ih => exact ih.of_eq preview review

/-- Each law of the leaves is a law of every expression made of them. By the first law two edits in
a row are one edit. -/
theorem expressions_keep_laws (h : prism.MadeOf leaf) :
    ((∀ {α β : Type} {p : Prism α β}, leaf p → ∀ y, p.preview (p.review y) = some y) →
      (∀ y, prism.preview (prism.review y) = some y) ∧
      ∀ (edit edit' : β → β) x x', prism.modifyOption x edit = some x' →
        prism.modifyOption x' edit' = prism.modifyOption x (edit' ∘ edit)) ∧
    ((∀ {α β : Type} {p : Prism α β}, leaf p → ∀ x y, p.preview x = some y → p.review y = x) →
      ∀ x y, prism.preview x = some y → prism.review y = x) := by
  constructor
  · intro leaves
    have finds : prism.FindsBuilt := h.findsBuilt fun hp => ⟨leaves hp⟩
    exact ⟨finds.preview_review, fun edit edit' x x' => finds.modifyOption_modifyOption⟩
  · intro leaves x y
    have rebuilds : prism.RebuildsFound := h.rebuildsFound fun hp => ⟨leaves hp _ _⟩
    exact rebuilds.review_eq

end Expressions

/-- The prisms onto the parts of choices and options. -/
inductive Part : {α β : Type} → Prism α β → Prop
  | left {α β : Type} : Part (left : Prism (α ⊕ β) α)
  | right {α β : Type} : Part (right : Prism (α ⊕ β) β)
  | present {α : Type} : Part (present : Prism (Option α) α)

theorem Part.findsBuilt {prism : Prism α β} (h : prism.Part) : prism.FindsBuilt := by
  cases h with
  | left | right | present => exact ⟨fun _ => rfl⟩

theorem Part.rebuildsFound {prism : Prism α β} (h : prism.Part) : prism.RebuildsFound := by
  cases h with
  | left => exact ⟨fun found => (Sum.getLeft?_eq_some_iff.1 found).symm⟩
  | right => exact ⟨fun found => (Sum.getRight?_eq_some_iff.1 found).symm⟩
  | present => exact ⟨Eq.symm⟩

/-- The number of an optional field beside a character, edited twice. -/
theorem expressions_keep_laws_of_parts :
    let tagged : Prism ((Option Int64 × Char) ⊕ Unit) (Char × Option Int64) :=
      left.compose (ofIso .swapped)
    let reference : Prism ((Option Int64 × Char) ⊕ Unit) (Char × Option Int64) :=
      .functions tagged.preview tagged.review
    let prism : Prism ((Option Int64 × Char) ⊕ Unit) (Char × Int64) :=
      reference.compose (aside present)
    let next : Char × Int64 → Char × Int64 := fun p => (p.1, p.2 + 1)
    prism.MadeOf Part ∧
    prism.preview (prism.review ('c', 7)) = some ('c', 7) ∧
    prism.review ('c', 7) = .inl (some 7, 'c') ∧
    prism.modifyOption (.inl (some 7, 'c')) next = some (.inl (some 8, 'c')) ∧
    prism.modifyOption (.inl (some 8, 'c')) next =
      prism.modifyOption (.inl (some 7, 'c')) (next ∘ next) := by
  intro tagged reference prism next
  have made : prism.MadeOf Part :=
    .compose
      (.byReference (.compose (.leaf .left) (.ofIso Iso.Standard.swapped.lawful)) (fun _ => rfl)
        fun _ => rfl)
      (.aside (.leaf .present))
  obtain ⟨finds, rebuilds⟩ := expressions_keep_laws made
  obtain ⟨found, fused⟩ := finds fun hp => hp.findsBuilt.preview_review
  have edited : prism.modifyOption (.inl (some 7, 'c')) next = some (.inl (some 8, 'c')) := rfl
  exact ⟨made, found _, rebuilds (fun hp _ _ => hp.rebuildsFound.review_eq) _ _ rfl, edited,
    fused _ _ _ _ edited⟩

/-! The two laws are independent: numbers as text have the first one only, and values that pass a
test the second one only. -/

theorem FindsBuilt.integerText : integerText.FindsBuilt where
  preview_review n := by
    rw [Prism.integerText, preview_functions, review_functions, String.toList_ofList,
      Decimal.read?_write]

/-- Zeros in front of a number are not built again. -/
theorem not_rebuildsFound_integerText : ¬ integerText.RebuildsFound := by
  intro h
  have found : integerText.preview "07" = some 7 := by decide +kernel
  have built : integerText.review 7 ≠ "07" := by decide +kernel
  exact built (h.review_eq found)

theorem RebuildsFound.subset (accepts : α → Bool) : (subset accepts).RebuildsFound where
  review_eq found := by
    obtain ⟨-, same⟩ := Option.ite_none_right_eq_some.1 found
    exact (Option.some.inj same).symm

/-- A value that does not pass the test is built all the same. -/
theorem not_findsBuilt_subset {accepts : α → Bool} {x : α} (h : accepts x = false) :
    ¬ (subset accepts).FindsBuilt := by
  intro finds
  obtain ⟨passes, -⟩ := Option.ite_none_right_eq_some.1 (finds.preview_review x)
  change accepts x = true at passes
  rw [h] at passes
  cases passes

end Prism
end TwoWay
