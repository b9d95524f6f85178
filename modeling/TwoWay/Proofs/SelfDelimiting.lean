import TwoWay.Proofs.Leftover

/-!
Formats that mark their own end. What such a format writes in front of a rest reads back as the same
value and leaves exactly that rest behind, whatever the rest is. Single elements are of this kind,
and so are fixed numbers of parts, parts in a row, and a driver with the format it selects. The last
one holds for every way of computing the driver from the value: the driver that was written is the
one that is read, so it selects the format the value was written in. Reading the output back to
check it therefore finds the very driver and value, and passes unless one of them is not equal to
itself.
-/

namespace TwoWay
namespace Grammar

variable {σ ε : Type} [Sequence σ ε] {ρ : Type → Type} {α β δ : Type} {m : Meaning ρ σ}

/-- Whatever is written reads back as the value, with the rest left behind. -/
structure ReadsBack (m : Meaning ρ σ) (g : Grammar ε ρ α) : Prop where
  read : ∀ {x rest out}, (g.write m x rest).outcome = .done out → g.read m out = .done (x, rest)

/-- No output is refused for what it reads as. -/
structure OnlyCannotBuild (m : Meaning ρ σ) (g : Grammar ε ρ α) : Prop where
  error_eq : ∀ {x rest error}, (g.write m x rest).outcome = .refused error → error = .cannotBuild

namespace ReadsBack

theorem fromPrism {prism : FrontPrism ε α}
    (back : ∀ x (rest : σ), (prism σ).preview ((prism σ).review (x, rest)) = some (x, rest)) :
    ReadsBack m (fromPrism prism : Grammar ε ρ α) where
  read {x rest out} written := by
    cases written
    rw [read_fromPrism, back]
    rfl

theorem element [LawfulSequence σ ε] : ReadsBack m (element : Grammar ε ρ ε) where
  read {x rest out} written := by
    cases written
    exact read_element_eq_done_iff.2 (Sequence.uncons_cons x rest)

theorem satisfy [LawfulSequence σ ε] (accepts : ε → Bool) :
    ReadsBack m (satisfy accepts : Grammar ε ρ ε) where
  read {x rest out} written := by
    obtain ⟨hx, rfl⟩ := write_satisfy_eq_done_iff.1 written
    exact read_satisfy_eq_done_iff.2 ⟨Sequence.uncons_cons x rest, hx⟩

theorem both {first : Grammar ε ρ α} {second : Grammar ε ρ β} (hf : ReadsBack m first)
    (hs : ReadsBack m second) : ReadsBack m (both first second) where
  read {p rest out} written := by
    obtain ⟨x, y⟩ := p
    obtain ⟨mid, hy, hx⟩ := write_both_eq_done_iff.1 written
    exact read_both_eq_done_iff.2 ⟨mid, hf.read hx, hs.read hy⟩

/-- Items written one after the other are read one after the other. -/
theorem chain {item : Grammar ε ρ α} (hi : ReadsBack m item) {xs : List α} {rest out : σ}
    (written : ((many item).write m xs rest).outcome = .done out) :
    Chain (item.read m) out xs rest := by
  induction xs generalizing out with
  | nil =>
      cases written
      exact .nil _
  | cons x xs ih =>
      obtain ⟨mid, hxs, hx⟩ := write_many_cons_eq_done_iff.1 written
      exact .cons (hi.read hx) (ih hxs)

theorem replicate {item : Grammar ε ρ α} (hi : ReadsBack m item) (count : Nat) :
    ReadsBack m (replicate count item) where
  read {xs rest out} written := by
    obtain ⟨hlen, hxs⟩ := write_replicate_eq_done_iff.1 written
    exact read_replicate_eq_done_iff.2 ⟨hlen, hi.chain hxs⟩

theorem adapt {prism : Prism α β} {inner : Grammar ε ρ α}
    (back : ∀ y, prism.preview (prism.review y) = some y) (hi : ReadsBack m inner) :
    ReadsBack m (adapt prism inner) where
  read written := read_adapt_eq_done_iff.2 ⟨_, hi.read written, back _⟩

/-- The driver that was written is read, and it selects the format the value was written in. -/
theorem bind {driver : Grammar ε ρ δ} {continuation : δ → Grammar ε ρ α} (hd : ReadsBack m driver)
    (hc : ∀ d, ReadsBack m (continuation d)) (driverOf : α → δ) :
    ReadsBack m (bind driver continuation driverOf) where
  read {x rest out} written := by
    obtain ⟨mid, hx, hdriver⟩ := write_bind_eq_done_iff.1 written
    exact read_bind_eq_done_iff.2 ⟨driverOf x, mid, hd.read hdriver, (hc _).read hx⟩

variable [BEq δ] [BEq α] {driver : Grammar ε ρ δ} {continuation : δ → Grammar ε ρ α}
variable {driverOf : α → δ} {x : α} {rest out : σ}

theorem bindChecked (hd : ReadsBack m driver) (hc : ∀ d, ReadsBack m (continuation d))
    (driverOf : α → δ) : ReadsBack m (bindChecked driver continuation driverOf) where
  read {x rest out} written := by
    rw [read_bindChecked]
    exact (hd.bind hc driverOf).read (write_bindChecked_eq_done_iff.1 written).1

/-- Reading back finds the driver and the value that were written, and compares them with
themselves. -/
theorem reproduces_iff_self (hd : ReadsBack m driver) (hc : ∀ d, ReadsBack m (continuation d))
    (written : ((Grammar.bind driver continuation driverOf).write m x rest).outcome = .done out) :
    Reproduces m driver continuation (driverOf x) x out ↔ driverOf x == driverOf x ∧ x == x := by
  obtain ⟨mid, hx, hdriver⟩ := write_bind_eq_done_iff.1 written
  have first := hd.read hdriver
  have second := (hc _).read hx
  refine ⟨?_, ?_⟩
  · intro h
    obtain ⟨found, mid', y, left, hfound, same, hy, same'⟩ := h
    cases first.symm.trans hfound
    cases second.symm.trans hy
    exact ⟨same, same'⟩
  · intro h
    exact ⟨_, mid, x, rest, first, h.1, second, h.2⟩

/-- The check passes an output of a driver and a format that read back, if the driver and the value
are equal to themselves. -/
theorem write_bindChecked (hd : ReadsBack m driver) (hc : ∀ d, ReadsBack m (continuation d))
    (reflects : ∀ out, ((Grammar.bind driver continuation driverOf).write m x rest).outcome =
      .done out → driverOf x == driverOf x ∧ x == x) :
    (Grammar.bindChecked driver continuation driverOf).write m x rest =
      (Grammar.bind driver continuation driverOf).write m x rest :=
  write_bindChecked_eq_write_bind fun out written =>
    (hd.reproduces_iff_self hc written).2 (reflects out written)

/-- Otherwise it refuses the output: reading it back always ends. -/
theorem write_bindChecked_eq_inconsistentDriver (hd : ReadsBack m driver)
    (hc : ∀ d, ReadsBack m (continuation d))
    (written : ((Grammar.bind driver continuation driverOf).write m x rest).outcome = .done out)
    (differs : ¬ (driverOf x == driverOf x ∧ x == x)) :
    ((Grammar.bindChecked driver continuation driverOf).write m x rest).outcome =
      .refused .inconsistentDriver := by
  obtain ⟨mid, hx, hdriver⟩ := write_bind_eq_done_iff.1 written
  have first := hd.read hdriver
  refine Grammar.write_bindChecked_eq_inconsistentDriver written (by simp [first]) ?_
    (mt (hd.reproduces_iff_self hc written).1 differs)
  intro found mid' h _
  cases first.symm.trans h
  simp [(hc _).read hx]

end ReadsBack

namespace OnlyCannotBuild

theorem failure : OnlyCannotBuild m (failure : Grammar ε ρ α) where
  error_eq refused := by
    cases refused
    rfl

theorem satisfy (accepts : ε → Bool) : OnlyCannotBuild m (satisfy accepts : Grammar ε ρ ε) where
  error_eq refused := by
    rw [write_satisfy] at refused
    split at refused
    · cases refused
    · cases refused
      rfl

theorem both {first : Grammar ε ρ α} {second : Grammar ε ρ β} (hf : OnlyCannotBuild m first)
    (hs : OnlyCannotBuild m second) : OnlyCannotBuild m (both first second) where
  error_eq {p rest error} refused := by
    obtain ⟨x, y⟩ := p
    rw [write_both, Traced.outcome_andThen_eq_refused_iff] at refused
    obtain hy | ⟨mid, -, hx⟩ := refused
    · exact hs.error_eq hy
    · exact hf.error_eq hx

theorem many {item : Grammar ε ρ α} (hi : OnlyCannotBuild m item) :
    OnlyCannotBuild m (many item) where
  error_eq {xs rest error} refused := by
    induction xs with
    | nil => cases refused
    | cons x xs ih =>
        obtain hxs | ⟨mid, -, hx⟩ := write_many_cons_eq_refused_iff.1 refused
        · exact ih hxs
        · exact hi.error_eq hx

theorem replicate {item : Grammar ε ρ α} (hi : OnlyCannotBuild m item) (count : Nat) :
    OnlyCannotBuild m (replicate count item) where
  error_eq {xs rest error} refused := by
    rw [write_replicate] at refused
    split at refused
    · exact hi.many.error_eq refused
    · cases refused
      rfl

theorem adapt {inner : Grammar ε ρ α} (hi : OnlyCannotBuild m inner) (prism : Prism α β) :
    OnlyCannotBuild m (adapt prism inner) where
  error_eq refused := hi.error_eq refused

theorem bind {driver : Grammar ε ρ δ} {continuation : δ → Grammar ε ρ α}
    (hd : OnlyCannotBuild m driver) (hc : ∀ d, OnlyCannotBuild m (continuation d))
    (driverOf : α → δ) : OnlyCannotBuild m (bind driver continuation driverOf) where
  error_eq {x rest error} refused := by
    rw [write_bind, Traced.outcome_andThen_eq_refused_iff] at refused
    obtain hx | ⟨mid, -, hdriver⟩ := refused
    · exact (hc _).error_eq hx
    · exact hd.error_eq hdriver

end OnlyCannotBuild

/-- The formats that mark their own end by how they are built. Nothing is asked of the function
that recovers a driver. -/
inductive SelfDelimiting (σ : Type) [Sequence σ ε] : {α : Type} → Grammar ε ρ α → Prop
  | element : SelfDelimiting σ element
  | fromPrism {α : Type} {prism : FrontPrism ε α}
      (back : ∀ x (rest : σ), (prism σ).preview ((prism σ).review (x, rest)) = some (x, rest)) :
      SelfDelimiting σ (fromPrism prism)
  | failure {α : Type} : SelfDelimiting σ (failure : Grammar ε ρ α)
  | satisfy (accepts : ε → Bool) : SelfDelimiting σ (satisfy accepts)
  | both {α β : Type} {first : Grammar ε ρ α} {second : Grammar ε ρ β}
      (hf : SelfDelimiting σ first) (hs : SelfDelimiting σ second) :
      SelfDelimiting σ (both first second)
  | replicate {α : Type} (count : Nat) {item : Grammar ε ρ α} (hi : SelfDelimiting σ item) :
      SelfDelimiting σ (replicate count item)
  | adapt {α β : Type} {prism : Prism α β} {inner : Grammar ε ρ α}
      (back : ∀ y, prism.preview (prism.review y) = some y) (hi : SelfDelimiting σ inner) :
      SelfDelimiting σ (adapt prism inner)
  | bind {δ α : Type} {driver : Grammar ε ρ δ} {continuation : δ → Grammar ε ρ α}
      (hd : SelfDelimiting σ driver) (hc : ∀ d, SelfDelimiting σ (continuation d))
      (driverOf : α → δ) : SelfDelimiting σ (bind driver continuation driverOf)
  | bindChecked {δ α : Type} [BEq δ] [BEq α] {driver : Grammar ε ρ δ}
      {continuation : δ → Grammar ε ρ α} (hd : SelfDelimiting σ driver)
      (hc : ∀ d, SelfDelimiting σ (continuation d)) (driverOf : α → δ) :
      SelfDelimiting σ (bindChecked driver continuation driverOf)
  | call {α : Type} (rule : ρ α) : SelfDelimiting σ (call rule)

/-- Every check compares drivers and values that are equal to themselves. -/
def ChecksReflect : {α : Type} → Grammar ε ρ α → Prop
  | _, element | _, fromPrism _ | _, success _ | _, failure | _, eof | _, satisfy _ | _, call _ =>
    True
  | _, both first second | _, choose first second => first.ChecksReflect ∧ second.ChecksReflect
  | _, many item | _, replicate _ item => item.ChecksReflect
  | _, adapt _ inner => inner.ChecksReflect
  | _, bind driver continuation _ => driver.ChecksReflect ∧ ∀ d, (continuation d).ChecksReflect
  | _, bindChecked driver continuation driverOf =>
    (driver.ChecksReflect ∧ ∀ d, (continuation d).ChecksReflect) ∧
      ∀ x, driverOf x == driverOf x ∧ x == x

namespace SelfDelimiting

/-! The derived forms without a choice change values through isos that read back. -/

theorem adapt_iso {iso : Iso α β} {inner : Grammar ε ρ α}
    (back : ∀ y, iso.get (iso.reverseGet y) = y) (hi : SelfDelimiting σ inner) :
    SelfDelimiting σ (Grammar.adapt (.ofIso iso) inner) := by
  refine .adapt (fun y => ?_) hi
  rw [Prism.preview_ofIso, Prism.review_ofIso, back]

theorem matching {inner : Grammar ε ρ α} (hi : SelfDelimiting σ inner) (value : α) :
    SelfDelimiting σ (matching inner value) :=
  .adapt_iso (fun _ => rfl) hi

theorem literal [BEq ε] (expected : ε) :
    SelfDelimiting σ (literal expected : Grammar ε ρ Unit) :=
  .matching (.satisfy _) expected

theorem seqLeft {left : Grammar ε ρ α} {right : Grammar ε ρ Unit} (hl : SelfDelimiting σ left)
    (hr : SelfDelimiting σ right) : SelfDelimiting σ (seqLeft left right) :=
  .adapt_iso (fun _ => rfl) (.both hl hr)

theorem seqRight {left : Grammar ε ρ Unit} {right : Grammar ε ρ α} (hl : SelfDelimiting σ left)
    (hr : SelfDelimiting σ right) : SelfDelimiting σ (seqRight left right) :=
  .adapt_iso (fun _ => rfl) (.both hl hr)

theorem between {left right : Grammar ε ρ Unit} {middle : Grammar ε ρ α}
    (hl : SelfDelimiting σ left) (hr : SelfDelimiting σ right) (hm : SelfDelimiting σ middle) :
    SelfDelimiting σ (between left right middle) :=
  .seqRight hl (.seqLeft hm hr)

variable [LawfulSequence σ ε] {g : Grammar ε ρ α}

theorem uncons : SelfDelimiting σ (uncons : Grammar ε ρ ε) :=
  .fromPrism fun x rest => Sequence.uncons_cons x rest

theorem readsBack (hg : SelfDelimiting σ g)
    (calls : ∀ {β : Type} (rule : ρ β), ReadsBack m (Grammar.call rule : Grammar ε ρ β)) :
    ReadsBack m g := by
  induction hg with
  | element => exact .element
  | fromPrism back => exact .fromPrism back
  | failure => exact ⟨fun written => by cases written⟩
  | satisfy accepts => exact .satisfy accepts
  | both _ _ ihf ihs => exact ihf.both ihs
  | replicate count _ ih => exact ih.replicate count
  | adapt back _ ih => exact .adapt back ih
  | bind _ _ driverOf ihd ihc => exact ihd.bind ihc driverOf
  | bindChecked _ _ driverOf ihd ihc => exact ihd.bindChecked ihc driverOf
  | call rule => exact calls rule

theorem onlyCannotBuild (hg : SelfDelimiting σ g) (reflect : g.ChecksReflect)
    (calls : ∀ {β : Type} (rule : ρ β), ReadsBack m (Grammar.call rule : Grammar ε ρ β))
    (refusals : ∀ {β : Type} (rule : ρ β),
      OnlyCannotBuild m (Grammar.call rule : Grammar ε ρ β)) :
    OnlyCannotBuild m g := by
  induction hg with
  | element | fromPrism _ => exact ⟨fun refused => by cases refused⟩
  | failure => exact .failure
  | satisfy accepts => exact .satisfy accepts
  | both _ _ ihf ihs => exact (ihf reflect.1).both (ihs reflect.2)
  | replicate count _ ih => exact (ih reflect).replicate count
  | adapt _ _ ih => exact (ih reflect).adapt _
  | bind _ _ driverOf ihd ihc => exact (ihd reflect.1).bind (fun d => ihc d (reflect.2 d)) driverOf
  | bindChecked hd hc driverOf ihd ihc =>
      refine ⟨fun {x rest error} refused => ?_⟩
      -- The check never fails here, so the refusal is one of the unchecked bind.
      rw [(hd.readsBack calls).write_bindChecked (fun d => (hc d).readsBack calls)
        fun _ _ => reflect.2 x] at refused
      exact ((ihd reflect.1.1).bind (fun d => ihc d (reflect.1.2 d)) driverOf).error_eq refused
  | call rule => exact refusals rule

end SelfDelimiting

namespace Rules

/-- Whatever is written reads back as the value, with the rest left behind, at whatever depth of
calls. -/
structure ReadsBack (rules : Rules ε ρ) (σ : Type) [Sequence σ ε] (g : Grammar ε ρ α) : Prop where
  reads : ∀ {x : α} {rest out : σ}, rules.Writes g x rest out → rules.Reads g out x rest

variable {rules : Rules ε ρ}

theorem ReadsBack.of_meaning {g : Grammar ε ρ α}
    (h : ∀ depth, Grammar.ReadsBack (rules.meaning depth : Meaning ρ σ) g) :
    rules.ReadsBack σ g where
  reads written := by
    obtain ⟨depth, hd⟩ := written
    exact ⟨depth, (h depth).read hd⟩

variable [LawfulSequence σ ε]

/-- Rules that are defined by such formats read back at every depth. -/
theorem meaning_readsBack
    (table : ∀ {β : Type} (rule : ρ β), SelfDelimiting σ (rules.definition rule)) (depth : Nat)
    {α : Type} (rule : ρ α) :
    Grammar.ReadsBack (rules.meaning depth : Meaning ρ σ) (call rule : Grammar ε ρ α) := by
  induction depth generalizing α with
  | zero => exact ⟨fun written => by cases written⟩
  | succ depth ih => exact ⟨fun written => ((table rule).readsBack ih).read written⟩

theorem meaning_onlyCannotBuild
    (table : ∀ {β : Type} (rule : ρ β), SelfDelimiting σ (rules.definition rule))
    (reflect : ∀ {β : Type} (rule : ρ β), (rules.definition rule).ChecksReflect) (depth : Nat)
    {α : Type} (rule : ρ α) :
    OnlyCannotBuild (rules.meaning depth : Meaning ρ σ) (call rule : Grammar ε ρ α) := by
  induction depth generalizing α with
  | zero => exact ⟨fun refused => by cases refused⟩
  | succ depth ih =>
      have plain := (table rule).onlyCannotBuild (reflect rule) (meaning_readsBack table depth) ih
      exact ⟨fun refused => plain.error_eq refused⟩

end Rules

/-- Among self-delimiting formats every output of a bind reads back, whatever function recovers the
driver. A checked bind writes exactly what the unchecked one writes and fails exactly as that one
fails, but for the outputs whose driver or value is not equal to itself: these it refuses. So where
all that is compared is equal to itself no check ever fails. -/
theorem self_delimiting_check_redundant (rules : Rules ε ρ) [LawfulSequence σ ε]
    (table : ∀ {β : Type} (rule : ρ β), SelfDelimiting σ (rules.definition rule))
    [BEq δ] [BEq α] {driver : Grammar ε ρ δ} {continuation : δ → Grammar ε ρ α}
    (hd : SelfDelimiting σ driver) (hc : ∀ d, SelfDelimiting σ (continuation d))
    (driverOf : α → δ) (depth : Nat) (x : α) (rest : σ) :
    let m : Meaning ρ σ := rules.meaning depth
    let plain := bind driver continuation driverOf
    let checked := bindChecked driver continuation driverOf
    (∀ out, (plain.write m x rest).outcome = .done out ∨
        (checked.write m x rest).outcome = .done out → checked.read m out = .done (x, rest)) ∧
    ((∀ out, (plain.write m x rest).outcome = .done out → driverOf x == driverOf x ∧ x == x) →
      checked.write m x rest = plain.write m x rest) ∧
    (∀ out, (plain.write m x rest).outcome = .done out → ¬ (driverOf x == driverOf x ∧ x == x) →
      (checked.write m x rest).outcome = .refused .inconsistentDriver) ∧
    ((∀ {β : Type} (rule : ρ β), (rules.definition rule).ChecksReflect) → plain.ChecksReflect →
      driverOf x == driverOf x → x == x →
      (checked.write m x rest).outcome ≠ .refused .inconsistentDriver) := by
  intro m plain checked
  have calls : ∀ {β : Type} (rule : ρ β), ReadsBack m (call rule : Grammar ε ρ β) :=
    Rules.meaning_readsBack table depth
  have back := hd.readsBack calls
  have back' (d : δ) := (hc d).readsBack calls
  have same (reflects : ∀ out, (plain.write m x rest).outcome = .done out →
      driverOf x == driverOf x ∧ x == x) : checked.write m x rest = plain.write m x rest :=
    back.write_bindChecked back' reflects
  refine ⟨?_, same, fun out => back.write_bindChecked_eq_inconsistentDriver back', ?_⟩
  · intro out written
    obtain written | written := written
    · exact (back.bind back' driverOf).read written
    · exact (back.bindChecked back' driverOf).read written
  · intro rulesReflect reflect hdriver hx refused
    have plainly : SelfDelimiting σ plain := .bind hd hc driverOf
    rw [same fun _ _ => ⟨hdriver, hx⟩] at refused
    cases (plainly.onlyCannotBuild reflect calls
      (Rules.meaning_onlyCannotBuild table rulesReflect depth)).error_eq refused

/-- A number of letters and that many letters in parentheses, behind a driver that is read as any
character and always written as the same one. -/
theorem self_delimiting_check_redundant_in_parentheses :
    let rules : Rules Char NoRule := ⟨fun rule => nomatch rule⟩
    let field : Grammar Char NoRule (List Char) :=
      between (literal '(') (literal ')')
        (bindChecked digit (fun d => replicate (d.toNat - '0'.toNat) alpha)
          fun letters => Nat.digitChar letters.length)
    let plain := bind uncons (fun _ => field) fun _ => '7'
    let checked := bindChecked uncons (fun _ => field) fun _ => '7'
    (∀ {β : Type} (rule : NoRule β), SelfDelimiting (List Char) (rules.definition rule)) ∧
    SelfDelimiting (List Char) (uncons : Grammar Char NoRule Char) ∧
    SelfDelimiting (List Char) field ∧ plain.ChecksReflect ∧
    (checked.write (rules.meaning 0) ['a', 'b'] ['!']).outcome =
      .done ['7', '(', '2', 'a', 'b', ')', '!'] ∧
    checked.write (rules.meaning 0) ['a', 'b'] ['!'] =
      plain.write (rules.meaning 0) ['a', 'b'] ['!'] ∧
    (checked.write (rules.meaning 0) ['a', 'b'] ['!']).outcome ≠ .refused .inconsistentDriver ∧
    checked.read (rules.meaning 0) ['7', '(', '2', 'a', 'b', ')', '!'] =
      .done (['a', 'b'], ['!']) := by
  intro rules field plain checked
  have table : ∀ {β : Type} (rule : NoRule β),
      SelfDelimiting (List Char) (rules.definition rule) := fun rule => nomatch rule
  have driver : SelfDelimiting (List Char) (uncons : Grammar Char NoRule Char) := .uncons
  have parts : SelfDelimiting (List Char) field :=
    .between (.literal '(') (.literal ')')
      (.bindChecked (.satisfy _) (fun _ => .replicate _ (.satisfy _)) _)
  have reflect : field.ChecksReflect :=
    ⟨trivial, ⟨⟨trivial, fun _ => trivial⟩, fun _ => ⟨BEq.rfl, BEq.rfl⟩⟩, trivial⟩
  have written : (checked.write (rules.meaning 0) ['a', 'b'] ['!']).outcome =
      .done ['7', '(', '2', 'a', 'b', ')', '!'] := by decide
  obtain ⟨back, same, -, never⟩ := self_delimiting_check_redundant rules table driver
    (fun _ => parts) (fun _ => '7') 0 ['a', 'b'] ['!']
  exact ⟨table, driver, parts, ⟨trivial, fun _ => reflect⟩, written,
    same fun _ _ => ⟨BEq.rfl, BEq.rfl⟩,
    never (fun rule => nomatch rule) ⟨trivial, fun _ => reflect⟩ BEq.rfl BEq.rfl,
    back _ (.inr written)⟩

/-- Not a number is written and read back as it was, but the check compares it with itself. -/
theorem self_delimiting_check_refuses_nan :
    let m : Meaning NoRule (List Float) := NoRule.meaning
    let nan : Float := 0.0 / 0.0
    let plain : Grammar Float NoRule Float := bind element (fun _ => element) fun _ => 0.0
    let checked : Grammar Float NoRule Float := bindChecked element (fun _ => element) fun _ => 0.0
    SelfDelimiting (List Float) (element : Grammar Float NoRule Float) ∧
    (plain.write m nan []).outcome = .done [0.0, nan] ∧
    plain.read m [0.0, nan] = .done (nan, []) ∧
    (checked.write m nan []).outcome = .refused .inconsistentDriver := by
  intro m nan plain checked
  exact ⟨.element, by decide, by decide, by decide⟩

end Grammar
end TwoWay
