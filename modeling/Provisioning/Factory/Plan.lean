import Provisioning.Factory.Basic
import Provisioning.Instantiation
import Provisioning.Settings

/-!
# How a factory is filled

The document is loaded from where the settings say. The providers are made from the entries of the
document, and cannot be made before it is there. A document without hooks yields no hooks, but one
without a persistence provider has none to give. What a factory waits for is the same whoever loads
the document and makes the providers.
-/

namespace Provisioning

/-- The work that a factory leaves to others: to load the document, to make the provider of an entry
or the providers of several, and to take note of a document that is asked for once more. -/
structure Works (I : Interface) where
  load : Dialogue I (Except FactoryError ProvidersDocument)
  persistence : ProviderEntry → Dialogue I (Except FactoryError Instance)
  hooks : List ProviderEntry → Dialogue I (Except FactoryError (List Instance))
  again : Dialogue I Unit

def Works.plan {I : Interface} (w : Works I) : Plan I where
  fill
    | .document, _ => w.load
    | .persistence, some d =>
      match d.persistence with
      | some entry => w.persistence entry
      | none => .done (.error (.roleMissing .persistence))
    | .hooks, some d => w.hooks d.hooks
    | .persistence, none => .done (.error .notInitialized)
    | .hooks, none => .done (.error .notInitialized)
  again := w.again

/-- Makes hook providers, if there are any to be made. -/
def makeHooks : List ProviderEntry → Work (List Instance)
  | [] => .ask (.note .noHooks) fun () => .done (.ok [])
  | entries => instantiateAll .hook entries

namespace Settings

def loadDocument (s : Settings) : Work ProvidersDocument :=
  .ask (.note (.loading s.providersFile)) fun () =>
    .ask (.load s.providersFile) fun
      | .ok d => .done (.ok d)
      | .error e => .done (.error (.config e))

def works (s : Settings) : Works Question.interface where
  load := s.loadDocument
  persistence := instantiate .persistence
  hooks := makeHooks
  again := .ask (.note .alreadyInitialized) fun () => .done ()

def plan (s : Settings) : Plan Question.interface :=
  s.works.plan

end Settings

def Factory.text {σ : Type} (s : Settings) (f : Factory σ) : String :=
  "StandardProviderFactory \x7b settings: FactorySettings \x7b providers_file: " ++
    Text.quoted s.providersFile.display ++ " \x7d, initialized: " ++ toString f.isInitialized ++
    ", persistence_resolved: " ++ toString f.cells.persistence.content?.isSome ++
    ", hooks_resolved: " ++ toString f.cells.hooks.content?.isSome ++ " \x7d"

end Provisioning
