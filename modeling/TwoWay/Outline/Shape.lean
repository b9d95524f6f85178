import TwoWay.Grammar.Basic
import TwoWay.Outline.Basic

/-!
The outlines of optics and grammars: which basic form each of them has and what it is made of.
Functions and rules have no outline of their own and show as dots.
-/

namespace TwoWay
namespace Outline

def functionIso : Outline := hiddenTuple "FunctionIso"
def swapped : Outline := leaf "Swapped"
def reversedIso (iso : Outline) : Outline := tuple "ReversedIso" [iso]
def composedIso (outer inner : Outline) : Outline := tuple "ComposedIso" [outer, inner]

def functionPrism : Outline := hiddenTuple "FunctionPrism"
def isoAsPrism (iso : Outline) : Outline := tuple "IsoAsPrism" [iso]
def composedPrism (outer inner : Outline) : Outline := tuple "ComposedPrism" [outer, inner]
def aside (prism : Outline) : Outline := tuple "Aside" [prism]
def uncons : Outline := leaf "Uncons"

def element : Outline := leaf "Element"
def eof : Outline := leaf "Eof"
def failure : Outline := leaf "Failure"
def satisfy : Outline := fields "Satisfy" [] false
def success (value : Outline) : Outline := fields "Success" [("value", value)] true
def fromPrism (prism : Outline) : Outline := fields "FromPrism" [("prism", prism)] true

def both (first second : Outline) : Outline :=
  fields "Both" [("first", first), ("second", second)] true

def choose (first second : Outline) : Outline :=
  fields "Choose" [("first", first), ("second", second)] true

def many (item : Outline) : Outline := fields "Many" [("grammar", item)] true

def replicate (count : Nat) (item : Outline) : Outline :=
  fields "Replicate" [("count", leaf (toString count)), ("grammar", item)] true

def adapt (prism inner : Outline) : Outline :=
  fields "Adapt" [("grammar", inner), ("prism", prism)] true

def bind (driver : Outline) : Outline := fields "Bind" [("grammar", driver)] false

def bindChecked (driver : Outline) : Outline := fields "BindChecked" [("inner", bind driver)] true

/-- A grammar that is looked up when it is used. -/
def deferred : Outline := fields "Lazy" [] false

end Outline

def Iso.outline : {α β : Type} → Iso α β → Outline
  | _, _, .functions _ _ => .functionIso
  | _, _, .swapped => .swapped
  | _, _, .reverse iso => .reversedIso iso.outline
  | _, _, .compose outer inner => .composedIso outer.outline inner.outline

def Prism.outline : {α β : Type} → Prism α β → Outline
  | _, _, .functions _ _ => .functionPrism
  | _, _, .ofIso iso => .isoAsPrism iso.outline
  | _, _, .compose outer inner => .composedPrism outer.outline inner.outline
  | _, _, .aside prism => .aside prism.outline
  | _, _, @Prism.uncons _ _ _ => .uncons

/-- The shape of a grammar, with the values in it shown by `describe`. -/
def Grammar.outline {ε : Type} {ρ : Type → Type} (describe : {α : Type} → α → Outline) :
    {α : Type} → Grammar ε ρ α → Outline
  | _, element => .element
  | _, fromPrism prism => .fromPrism (prism (List ε)).outline
  | _, success value => .success (describe value)
  | _, failure => .failure
  | _, eof => .eof
  | _, satisfy _ => .satisfy
  | _, both first second => .both (first.outline describe) (second.outline describe)
  | _, choose first second => .choose (first.outline describe) (second.outline describe)
  | _, many item => .many (item.outline describe)
  | _, replicate count item => .replicate count (item.outline describe)
  | _, adapt prism inner => .adapt prism.outline (inner.outline describe)
  | _, bind driver _ _ => .bind (driver.outline describe)
  | _, bindChecked driver _ _ => .bindChecked (driver.outline describe)
  | _, call _ => .deferred

end TwoWay
