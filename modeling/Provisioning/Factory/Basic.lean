import Provisioning.Factory.Cell

/-!
# Factories

A factory hands out providers. It has to be started first, which fills the cell of its document;
each role is made on the first demand. What fails can be tried again, and what succeeded is not done
again.
-/

namespace Provisioning

/-- A factory at some time, and the state of its surroundings. -/
structure Factory (σ : Type) where
  cells : Cells := {}
  around : σ

inductive Call where
  | start
  | isInitialized
  | document
  | persistenceProvider
  | hookProviders
  deriving DecidableEq, Repr

inductive Reply where
  | done
  | flag (b : Bool)
  | document (d : ProvidersDocument)
  | provider (p : Instance)
  | providers (ps : List Instance)
  deriving DecidableEq, Repr

def Slot.reply : (s : Slot) → s.Content → Reply
  | .document, _ => .done
  | .persistence, p => .provider p
  | .hooks, ps => .providers ps

namespace Factory

variable {I : Interface} {σ : Type}

def isInitialized (f : Factory σ) : Bool :=
  f.cells.document.content?.isSome

def document (f : Factory σ) : Except FactoryError ProvidersDocument :=
  match f.cells.document.content? with
  | some d => .ok d
  | none => .error .notInitialized

def fill (plan : Plan I) (answering : Answering I σ) (s : Slot) (f : Factory σ) :
    Except FactoryError s.Content × Factory σ :=
  match (plan.fill s f.cells.document.content?).run answering f.around with
  | (outcome, around) => (outcome, ⟨f.cells.settle s outcome, around⟩)

/-- The content of a cell, which is filled if it is not full. -/
def obtain (plan : Plan I) (answering : Answering I σ) (s : Slot) (f : Factory σ) :
    Except FactoryError s.Content × Factory σ :=
  match (f.cells.get s).content? with
  | some a => (.ok a, f)
  | none => f.fill plan answering s

def start (plan : Plan I) (answering : Answering I σ) (f : Factory σ) :
    Except FactoryError Unit × Factory σ :=
  if f.isInitialized then (.ok (), ⟨f.cells, (plan.again.run answering f.around).2⟩)
  else
    match f.obtain plan answering .document with
    | (outcome, f) => (outcome.map fun _ => (), f)

def persistenceProvider (plan : Plan I) (answering : Answering I σ) (f : Factory σ) :
    Except FactoryError Instance × Factory σ :=
  f.obtain plan answering .persistence

def hookProviders (plan : Plan I) (answering : Answering I σ) (f : Factory σ) :
    Except FactoryError (List Instance) × Factory σ :=
  f.obtain plan answering .hooks

/-- What a call returns, and the factory after it. -/
def perform (plan : Plan I) (answering : Answering I σ) (f : Factory σ) :
    Call → Except FactoryError Reply × Factory σ
  | .start =>
    match f.start plan answering with
    | (outcome, f) => (outcome.map fun () => .done, f)
  | .isInitialized => (.ok (.flag f.isInitialized), f)
  | .document => (f.document.map .document, f)
  | .persistenceProvider =>
    match f.persistenceProvider plan answering with
    | (outcome, f) => (outcome.map .provider, f)
  | .hookProviders =>
    match f.hookProviders plan answering with
    | (outcome, f) => (outcome.map .providers, f)

end Factory

end Provisioning
