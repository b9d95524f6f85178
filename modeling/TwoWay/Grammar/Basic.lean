import TwoWay.Optic.Standard
import TwoWay.Outcome

/-!
Grammars: descriptions of a format that are used in both directions. One grammar reads a value
from the front of a sequence and writes a value in front of one, for every kind of sequence with
the same elements. Reading is greedy and never undoes a finished part; a choice tries its
alternatives in order. Writing goes from right to left, so of several parts that cannot be
written the last one is reported.

Recursive formats name rules. What a rule reads and writes is a parameter of both directions, and
`Grammar.Rules` supplies it from a table of definitions, up to a given depth of calls.
-/

namespace TwoWay

/-- A description of a format over elements `ε` with rules `ρ`, for values of a type. -/
inductive Grammar (ε : Type) (ρ : Type → Type) : Type → Type 1
  | element : Grammar ε ρ ε
  /-- A prism between a sequence and a value in front of the rest. -/
  | fromPrism {α : Type} (prism : (σ : Type) → [Sequence σ ε] → Prism σ (α × σ)) : Grammar ε ρ α
  /-- Reads nothing and yields a fixed value; writes nothing for any value. -/
  | success {α : Type} (value : α) : Grammar ε ρ α
  | failure {α : Type} : Grammar ε ρ α
  | eof : Grammar ε ρ Unit
  | satisfy (accepts : ε → Bool) : Grammar ε ρ ε
  | both {α β : Type} (first : Grammar ε ρ α) (second : Grammar ε ρ β) : Grammar ε ρ (α × β)
  /-- The first alternative that reads; the tag of a value tells which one writes it. -/
  | choose {α β : Type} (first : Grammar ε ρ α) (second : Grammar ε ρ β) : Grammar ε ρ (α ⊕ β)
  | many {α : Type} (item : Grammar ε ρ α) : Grammar ε ρ (List α)
  | replicate {α : Type} (count : Nat) (item : Grammar ε ρ α) : Grammar ε ρ (List α)
  /-- The same format with its values seen through a prism. -/
  | adapt {α β : Type} (prism : Prism α β) (inner : Grammar ε ρ α) : Grammar ε ρ β
  /-- A driver that selects the format of what follows. The driver is no part of the value; it is
  recovered from the value for writing. -/
  | bind {δ α : Type} (driver : Grammar ε ρ δ) (continuation : δ → Grammar ε ρ α)
      (driverOf : α → δ) : Grammar ε ρ α
  /-- As `bind`, but an output is only given if it reads back as an equal driver and value. -/
  | bindChecked {δ α : Type} [BEq δ] [BEq α] (driver : Grammar ε ρ δ)
      (continuation : δ → Grammar ε ρ α) (driverOf : α → δ) : Grammar ε ρ α
  | call {α : Type} (rule : ρ α) : Grammar ε ρ α

/-- A value with the sequence left behind it, or a refusal. -/
abbrev Reading (α σ : Type) := Outcome Unit (α × σ)

/-- The sequence with a value written in front, or the error that kept it from being written. -/
abbrev Writing (σ : Type) := Traced Error σ

/-- What each rule reads from and writes in front of a kind of sequence. -/
structure Meaning (ρ : Type → Type) (σ : Type) : Type 1 where
  read : {α : Type} → ρ α → σ → Reading α σ
  write : {α : Type} → ρ α → α → σ → Writing σ

namespace Grammar

variable {σ ε : Type} [Sequence σ ε] {ρ : Type → Type} {α : Type}

/-- Reads items until one is refused. A sequence of `bound` elements holds at most `bound` items
that leave a shorter sequence behind, so for such items the bound is never met. An item through a
prism may leave as much behind as it found, or more; a run over it can use up the bound and end as
exhausted although a refusal would have come later. -/
def readMany (item : σ → Reading α σ) (bound : Nat) (found : List α) (input : σ) :
    Reading (List α) σ :=
  match item input with
  | .refused _ => .done (found.reverse, input)
  | .exhausted => .exhausted
  | .done (x, rest) =>
    match bound with
    | 0 => .exhausted
    | bound + 1 => readMany item bound (x :: found) rest

def readCount (item : σ → Reading α σ) (count : Nat) (found : List α) (input : σ) :
    Reading (List α) σ :=
  match count with
  | 0 => .done (found.reverse, input)
  | count + 1 =>
    match item input with
    | .refused _ => .refused ()
    | .exhausted => .exhausted
    | .done (x, rest) => readCount item count (x :: found) rest

def read (meaning : Meaning ρ σ) : {α : Type} → Grammar ε ρ α → σ → Reading α σ
  | _, element, input => .ofOption (Sequence.uncons input)
  | _, fromPrism prism, input => .ofOption ((prism σ).preview input)
  | _, success value, input => .done (value, input)
  | _, failure, _ => .refused ()
  | _, eof, input =>
    match Sequence.uncons input with
    | none => .done ((), Sequence.empty)
    | some _ => .refused ()
  | _, satisfy accepts, input =>
    match Sequence.uncons input with
    | none => .refused ()
    | some (x, rest) => if accepts x then .done (x, rest) else .refused ()
  | _, both first second, input =>
    (first.read meaning input).bind fun (x, rest) =>
      (second.read meaning rest).map fun (y, rest) => ((x, y), rest)
  | _, choose first second, input =>
    ((first.read meaning input).map fun (x, rest) => (.inl x, rest)).orElse fun _ =>
      (second.read meaning input).map fun (y, rest) => (.inr y, rest)
  | _, many item, input => readMany (item.read meaning) (Sequence.size input) [] input
  | _, replicate count item, input => readCount (item.read meaning) count [] input
  | _, adapt prism inner, input =>
    (inner.read meaning input).bind fun found => .ofOption (prism.onFirst.preview found)
  | _, bind driver continuation _, input | _, bindChecked driver continuation _, input =>
    (driver.read meaning input).bind fun (d, rest) => (continuation d).read meaning rest
  | _, call rule, input => meaning.read rule input

/-- Whether a sequence reads as a driver and a value behind it that are equal to the given ones. The
value is read in the format of the driver that was read, and both comparisons are those of the
types: they need neither be reflexive nor tell all values apart. -/
def readsBackAs {δ : Type} [BEq δ] [BEq α] (readDriver : σ → Reading δ σ)
    (readValue : δ → σ → Reading α σ) (driver : δ) (value : α) (output : σ) :
    Outcome Unit Unit :=
  (readDriver output).bind fun (d, rest) =>
    (Outcome.require (d == driver)).bind fun _ =>
      (readValue d rest).bind fun (x, _) => Outcome.require (x == value)

/-- Writes a list from its last item to its first. -/
def writeEach (item : α → σ → Writing σ) (values : List α) (rest : σ) : Writing σ :=
  values.foldr (fun x written => written.andThen (item x)) (.done rest)

def write (meaning : Meaning ρ σ) : {α : Type} → Grammar ε ρ α → α → σ → Writing σ
  | _, element, x, rest => .done (Sequence.cons x rest)
  | _, fromPrism prism, x, rest => .done ((prism σ).review (x, rest))
  | _, success _, _, rest => .done rest
  | _, failure, _, _ => .refused .cannotBuild
  | _, eof, _, rest => .done rest
  | _, satisfy accepts, x, rest =>
    if accepts x then .done (Sequence.cons x rest) else .refused .cannotBuild
  | _, both first second, (x, y), rest =>
    (second.write meaning y rest).andThen (first.write meaning x)
  | _, choose first _, .inl x, rest => first.write meaning x rest
  | _, choose _ second, .inr y, rest => second.write meaning y rest
  | _, many item, xs, rest => writeEach (item.write meaning) xs rest
  | _, replicate count item, xs, rest =>
    if xs.length = count then writeEach (item.write meaning) xs rest
    else .refused .cannotBuild
  | _, adapt prism inner, y, rest =>
    let lifted := prism.onFirst.review (y, rest)
    inner.write meaning lifted.1 lifted.2
  | _, bind driver continuation driverOf, x, rest =>
    ((continuation (driverOf x)).write meaning x rest).andThen
      (driver.write meaning (driverOf x))
  | _, bindChecked driver continuation driverOf, x, rest =>
    (((continuation (driverOf x)).write meaning x rest).andThen
      (driver.write meaning (driverOf x))).andThen fun output =>
        match readsBackAs (driver.read meaning) (fun d => (continuation d).read meaning)
            (driverOf x) x output with
        | .done () => .done output
        | .refused () => ⟨.refused .inconsistentDriver, [.notReproduced]⟩
        | .exhausted => ⟨.exhausted, []⟩
  | _, call rule, x, rest => meaning.write rule x rest

variable {β δ : Type} {m : Meaning ρ σ} {s rest : σ}

theorem read_element : (element : Grammar ε ρ ε).read m s = .ofOption (Sequence.uncons s) := rfl

theorem read_fromPrism {prism : (σ : Type) → [Sequence σ ε] → Prism σ (α × σ)} :
    (fromPrism prism : Grammar ε ρ α).read m s = .ofOption ((prism σ).preview s) := rfl

theorem read_success {x : α} : (success x : Grammar ε ρ α).read m s = .done (x, s) := rfl

theorem read_eof : (eof : Grammar ε ρ Unit).read m s =
    match Sequence.uncons s with
    | none => .done ((), Sequence.empty)
    | some _ => .refused () := rfl

theorem read_satisfy {accepts : ε → Bool} : (satisfy accepts : Grammar ε ρ ε).read m s =
    match Sequence.uncons s with
    | none => .refused ()
    | some (x, rest) => if accepts x then .done (x, rest) else .refused () := rfl

theorem read_both {first : Grammar ε ρ α} {second : Grammar ε ρ β} :
    (both first second).read m s = (first.read m s).bind fun (x, rest) =>
      (second.read m rest).map fun (y, rest) => ((x, y), rest) := rfl

theorem read_choose {first : Grammar ε ρ α} {second : Grammar ε ρ β} :
    (choose first second).read m s =
      ((first.read m s).map fun (x, rest) => (.inl x, rest)).orElse fun _ =>
        (second.read m s).map fun (y, rest) => (.inr y, rest) := rfl

theorem read_many {item : Grammar ε ρ α} :
    (many item).read m s = readMany (item.read m) (Sequence.size s) [] s := rfl

theorem read_replicate {count : Nat} {item : Grammar ε ρ α} :
    (replicate count item).read m s = readCount (item.read m) count [] s := rfl

theorem read_adapt {prism : Prism α β} {inner : Grammar ε ρ α} :
    (adapt prism inner).read m s =
      (inner.read m s).bind fun found => .ofOption (prism.onFirst.preview found) := rfl

theorem read_bind {driver : Grammar ε ρ δ} {continuation : δ → Grammar ε ρ α} {driverOf : α → δ} :
    (bind driver continuation driverOf).read m s =
      (driver.read m s).bind fun (d, rest) => (continuation d).read m rest := rfl

/-- A checked bind reads as the unchecked one does. -/
theorem read_bindChecked [BEq δ] [BEq α] {driver : Grammar ε ρ δ}
    {continuation : δ → Grammar ε ρ α} {driverOf : α → δ} :
    (bindChecked driver continuation driverOf).read m s =
      (bind driver continuation driverOf).read m s := rfl

theorem write_satisfy {accepts : ε → Bool} {x : ε} :
    (satisfy accepts : Grammar ε ρ ε).write m x rest =
      if accepts x then .done (Sequence.cons x rest) else .refused .cannotBuild := rfl

theorem write_both {first : Grammar ε ρ α} {second : Grammar ε ρ β} {x : α} {y : β} :
    (both first second).write m (x, y) rest =
      (second.write m y rest).andThen (first.write m x) := rfl

theorem write_many_cons {item : Grammar ε ρ α} {x : α} {xs : List α} :
    (many item).write m (x :: xs) rest =
      ((many item).write m xs rest).andThen (item.write m x) := rfl

theorem write_replicate {count : Nat} {item : Grammar ε ρ α} {xs : List α} :
    (replicate count item).write m xs rest =
      if xs.length = count then (many item).write m xs rest else .refused .cannotBuild := rfl

theorem write_adapt {prism : Prism α β} {inner : Grammar ε ρ α} {y : β} :
    (adapt prism inner).write m y rest = inner.write m (prism.review y) rest := rfl

theorem write_bind {driver : Grammar ε ρ δ} {continuation : δ → Grammar ε ρ α} {driverOf : α → δ}
    {x : α} : (bind driver continuation driverOf).write m x rest =
      ((continuation (driverOf x)).write m x rest).andThen (driver.write m (driverOf x)) := rfl

theorem write_bindChecked [BEq δ] [BEq α] {driver : Grammar ε ρ δ}
    {continuation : δ → Grammar ε ρ α} {driverOf : α → δ} {x : α} :
    (bindChecked driver continuation driverOf).write m x rest =
      ((bind driver continuation driverOf).write m x rest).andThen fun output =>
        match readsBackAs (driver.read m) (fun d => (continuation d).read m) (driverOf x) x
            output with
        | .done () => .done output
        | .refused () => ⟨.refused .inconsistentDriver, [.notReproduced]⟩
        | .exhausted => ⟨.exhausted, []⟩ := rfl

end Grammar
end TwoWay
