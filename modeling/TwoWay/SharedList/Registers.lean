import TwoWay.SharedList.Basic

/-!
Named shared lists. Each operation builds its list from at most one other and stores it under a
name; the lists under all other names stay as they are, whether they share nodes with it or not.
-/

namespace TwoWay
namespace SharedList

/-- The lists in use, each under its name. -/
structure Registers (α : Type) where
  entries : List (String × SharedList α)

/-- An operation that stores its list in the register `target` or removes a register. -/
inductive Operation (α : Type) where
  | create (target : String)
  | collect (target : String) (items : List α)
  | prepend (target source : String) (item : α)
  | prependEach (target source : String) (items : List α)
  | tail (target source : String)
  | dropFirst (target source : String) (count : Nat)
  | splitFirst (target source : String)
  | copy (target source : String)
  | discard (name : String)

inductive Answer (α : Type) where
  | stored (list : SharedList α)
  | split (first : α) (tail : SharedList α)
  | discarded (existed : Bool)
  | absent

namespace Registers

variable {α : Type}

def empty : Registers α := ⟨[]⟩

def get? (registers : Registers α) (name : String) : Option (SharedList α) :=
  registers.entries.lookup name

def erase (registers : Registers α) (name : String) : Registers α :=
  ⟨registers.entries.filter fun entry => entry.1 != name⟩

def store (registers : Registers α) (name : String) (list : SharedList α) : Registers α :=
  ⟨(name, list) :: (registers.erase name).entries⟩

def derive (registers : Registers α) (target source : String) (f : SharedList α → SharedList α) :
    Answer α × Registers α :=
  match registers.get? source with
  | none => (.absent, registers)
  | some list => (.stored (f list), registers.store target (f list))

def apply (registers : Registers α) : Operation α → Answer α × Registers α
  | .create target => (.stored .empty, registers.store target .empty)
  | .collect target items => (.stored (ofList items), registers.store target (ofList items))
  | .prepend target source item => registers.derive target source (·.prepend item)
  | .prependEach target source items => registers.derive target source (·.prependEach items)
  | .tail target source => registers.derive target source SharedList.tail
  | .dropFirst target source count => registers.derive target source (·.dropFirst count)
  | .copy target source => registers.derive target source id
  | .splitFirst target source =>
    match (registers.get? source).bind splitFirst? with
    | none => (.absent, registers)
    | some (first, tail) => (.split first tail, registers.store target tail)
  | .discard name => (.discarded (registers.get? name).isSome, registers.erase name)

end Registers
end SharedList
end TwoWay
