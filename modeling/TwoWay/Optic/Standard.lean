import TwoWay.Choice
import TwoWay.Decimal
import TwoWay.NonEmptyList
import TwoWay.Optic.Prism

/-!
The optics that formats are built with: lists as choices, nonempty lists as pairs, text as
characters, numbers as text, and the parts of sums and options.
-/

namespace TwoWay
namespace Iso

variable {α β : Type}

def list : Iso ((α × List α) ⊕ Unit) (List α) :=
  .functions
    (fun
      | .inl (head, tail) => head :: tail
      | .inr () => [])
    (fun
      | [] => .inr ()
      | head :: tail => .inl (head, tail))

def nonEmpty : Iso (α × List α) (NonEmptyList α) :=
  .functions (fun p => ⟨p.1, p.2⟩) NonEmptyList.parts

def charsText : Iso (List Char) String := .functions String.ofList String.toList

def listReversal : Iso (List α) (List α) := .functions List.reverse List.reverse

/-- Negation, which wraps around at the least number. -/
def negation : Iso Int64 Int64 := .functions (- ·) (- ·)

/-- Addition of a constant, which wraps around at either end. -/
def addition (k : Int64) : Iso Int64 Int64 := .functions (· + k) (· - k)

def unitRight : Iso (α × Unit) α := .functions Prod.fst fun x => (x, ())

def unitLeft : Iso (Unit × α) α := .functions Prod.snd fun x => ((), x)

/-- Forgets a value and puts a fixed one in its place. -/
def forgetting (value : α) : Iso α Unit := .functions (fun _ => ()) fun _ => value

def option : Iso (α ⊕ Unit) (Option α) := .functions Sum.getLeft? Choice.ofOption

/-- Drops the tag of a choice; the tag is decided anew from the content. -/
def content (isFirst : α → Bool) : Iso (α ⊕ α) α :=
  .functions Choice.content fun x => if isFirst x then .inl x else .inr x

@[simp] theorem get_content (isFirst : α → Bool) (x : α ⊕ α) :
    (content isFirst).get x = Choice.content x := rfl

@[simp] theorem reverseGet_content (isFirst : α → Bool) (x : α) :
    (content isFirst).reverseGet x = if isFirst x then .inl x else .inr x := rfl

/-- An optional sign in front of digits is one run of characters. A minus sign in front of such a
run is split off again. -/
def signedDigits : Iso (Option Char × List Char) (List Char) :=
  .functions
    (fun
      | (some sign, digits) => sign :: digits
      | (none, digits) => digits)
    (fun
      | '-' :: digits => (some '-', digits)
      | digits => (none, digits))

end Iso

namespace Prism

variable {α β : Type}

def integerText : Prism String Int64 :=
  .functions (fun text => Decimal.read? text.toList) fun n => String.ofList (Decimal.write n)

def left : Prism (α ⊕ β) α := .functions Sum.getLeft? .inl

def right : Prism (α ⊕ β) β := .functions Sum.getRight? .inr

def present : Prism (Option α) α := .functions id some

/-- The values that pass a test; building one does not repeat the test. -/
def subset (accepts : α → Bool) : Prism α α :=
  .functions (fun x => if accepts x then some x else none) id

def range (low high : Int64) : Prism Int64 Int64 := subset fun n => low ≤ n && n ≤ high

def even : Prism Int64 Int64 := subset fun n => n % 2 == 0

def exactly [BEq α] (value : α) : Prism α Unit :=
  .functions (fun x => if x == value then some () else none) fun _ => value

/-- The value of a digit. A number below 2^32 is built as the digit of its remainder by 36 where
that is a single digit, any other number as a question mark. -/
def digitValue : Prism Char Int64 :=
  .functions (fun c => if c.isDigit then some (Int64.ofNat (c.toNat - '0'.toNat)) else none)
    fun n =>
      if 0 ≤ n && n < 4294967296 && n % 36 < 10 then Nat.digitChar (n % 36).toInt.toNat else '?'

/-- The text without the spaces around it, unless nothing is left. -/
def trimmed : Prism String String :=
  .functions
    (fun text =>
      match (text.toList.dropWhile (· == ' ')).reverse.dropWhile (· == ' ') with
      | [] => none
      | rest => some (String.ofList rest.reverse))
    id

def nonEmptyList : Prism (List α) (NonEmptyList α) :=
  .functions NonEmptyList.ofList? NonEmptyList.toList

end Prism
end TwoWay
