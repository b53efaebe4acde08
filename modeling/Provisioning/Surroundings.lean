import Provisioning.ConfigError
import Provisioning.Dialogue
import Provisioning.Extension
import Provisioning.FactoryError
import Provisioning.Log.Event

/-!
# The surroundings of a factory

A factory asks for a document, for the extension that an identifier stands for, for an instance that
an extension makes, and for the configuration of an instance; and it has events noted. It is given
surroundings that answer. Instances are numbered in the order in which their making begins, so that
what was made twice is told apart.
-/

namespace Provisioning

inductive Question where
  | load (path : Path)
  | resolve (identifier : String)
  | construct (extension : Extension)
  | configure (target : Instance) (context : Context)
  | note (event : LogEvent)

abbrev Question.Answer : Question → Type
  | load _ => Except ConfigError ProvidersDocument
  | resolve _ => Option Extension
  | construct _ => Except Failure Instance
  | configure .. => Except ProviderError Unit
  | note _ => Unit

abbrev Question.interface : Interface where
  Question := Question
  Answer := Question.Answer

/-- Work in a factory that yields a value or an error. -/
abbrev Work (α : Type) := Dialogue Question.interface (Except FactoryError α)

/-- What a factory is surrounded by: a source of documents, a resolver of identifiers, the ways to
make and to configure providers, and a log. -/
structure Surroundings (σ : Type) where
  load : Path → σ → Except ConfigError ProvidersDocument × σ
  resolve : String → σ → Option Extension × σ
  construct : Extension → Instance → σ → Except Failure Unit × σ
  configure : Instance → Context → σ → Except ProviderError Unit × σ
  note : LogEvent → σ → σ

/-- A state of some surroundings, and how many instances they have been asked to make. -/
structure Numbered (σ : Type) where
  made : Nat := 0
  state : σ

namespace Surroundings

variable {σ : Type}

def make (around : Surroundings σ) (extension : Extension) (n : Numbered σ) :
    Except Failure Instance × Numbered σ :=
  match around.construct extension ⟨n.made⟩ n.state with
  | (.ok (), state) => (.ok ⟨n.made⟩, ⟨n.made + 1, state⟩)
  | (.error failure, state) => (.error failure, ⟨n.made + 1, state⟩)

def answering (around : Surroundings σ) : Answering Question.interface (Numbered σ)
  | .load path, n =>
    match around.load path n.state with
    | (answer, state) => (answer, ⟨n.made, state⟩)
  | .resolve identifier, n =>
    match around.resolve identifier n.state with
    | (answer, state) => (answer, ⟨n.made, state⟩)
  | .construct extension, n => around.make extension n
  | .configure target context, n =>
    match around.configure target context n.state with
    | (answer, state) => (answer, ⟨n.made, state⟩)
  | .note event, n => ((), ⟨n.made, around.note event n.state⟩)

end Surroundings

end Provisioning
