import Provisioning.Dialogue
import Provisioning.Document.Basic
import Provisioning.Extension
import Provisioning.FactoryError

/-!
# Cells that are filled once

A factory keeps three things in cells: its document, its persistence provider and its hook
providers. A cell is empty, claimed by someone who is about to fill it, or full. Whoever fails to
fill a cell leaves it empty; a full cell stays as it is.
-/

namespace Provisioning

/-- A place for a value that is computed on demand and no more than once. -/
inductive Cell (α : Type) where
  | empty
  | claimed
  | full (a : α)
  deriving DecidableEq, Repr

def Cell.content? {α : Type} : Cell α → Option α
  | full a => some a
  | _ => none

inductive Slot where
  | document
  | persistence
  | hooks
  deriving DecidableEq, Repr

abbrev Slot.Content : Slot → Type
  | document => ProvidersDocument
  | persistence => Instance
  | hooks => List Instance

structure Cells where
  document : Cell ProvidersDocument := .empty
  persistence : Cell Instance := .empty
  hooks : Cell (List Instance) := .empty
  deriving DecidableEq, Repr

namespace Cells

def get (c : Cells) : (s : Slot) → Cell s.Content
  | .document => c.document
  | .persistence => c.persistence
  | .hooks => c.hooks

def set (c : Cells) : (s : Slot) → Cell s.Content → Cells
  | .document, d => ⟨d, c.persistence, c.hooks⟩
  | .persistence, p => ⟨c.document, p, c.hooks⟩
  | .hooks, h => ⟨c.document, c.persistence, h⟩

/-- The cells after an attempt to fill one of them. -/
def settle (c : Cells) (s : Slot) : Except FactoryError s.Content → Cells
  | .ok a => c.set s (.full a)
  | .error _ => c.set s .empty

end Cells

/-- How the cells of a factory are filled: the work for each, given the document if there is one, and
what is done when the document is asked for that is there already. -/
structure Plan (I : Interface) where
  fill : (s : Slot) → Option ProvidersDocument → Dialogue I (Except FactoryError s.Content)
  again : Dialogue I Unit

end Provisioning
