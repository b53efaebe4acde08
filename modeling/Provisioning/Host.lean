import Provisioning.Deployment
import Provisioning.Factory.Plan
import Provisioning.Factory.Race

/-!
# Hosts

A host has a factory in a deployment. It gets its providers from the factory and uses them; what it
does to the deployment in between, the factory sees when it looks there again.
-/

namespace Provisioning

/-- A factory with its settings, in a deployment. -/
structure Host where
  settings : Settings
  factory : Factory (Numbered Deployment)

namespace Host

def ofDeployment (settings : Settings) (d : Deployment) : Host :=
  ⟨settings, ⟨{}, ⟨0, d⟩⟩⟩

def deployment (h : Host) : Deployment :=
  h.factory.around.state

def withDeployment (h : Host) (d : Deployment) : Host :=
  ⟨h.settings, ⟨h.factory.cells, ⟨h.factory.around.made, d⟩⟩⟩

def act {α : Type} (h : Host) (change : Deployment → α × Deployment) : α × Host :=
  match change h.deployment with
  | (a, d) => (a, h.withDeployment d)

def resume {α : Type} (h : Host) (result : α × Factory (Numbered Deployment)) : α × Host :=
  (result.1, ⟨h.settings, result.2⟩)

def start (h : Host) : Except FactoryError Unit × Host :=
  h.resume (h.factory.start h.settings.plan Deployment.surroundings.answering)

def persistenceProvider (h : Host) : Except FactoryError Instance × Host :=
  h.resume (h.factory.persistenceProvider h.settings.plan Deployment.surroundings.answering)

def hookProviders (h : Host) : Except FactoryError (List Instance) × Host :=
  h.resume (h.factory.hookProviders h.settings.plan Deployment.surroundings.answering)

def perform (h : Host) (call : Call) : Outcome × Host :=
  h.resume (h.factory.perform h.settings.plan Deployment.surroundings.answering call)

def race (h : Host) (threads : Nat) (calls : List Call) :
    Race Question.interface (Numbered Deployment) × Host :=
  let ended := Race.run h.settings.plan Deployment.surroundings.answering h.factory threads calls
  (ended, ⟨h.settings, ended.factory⟩)

/-- Makes a provider for a role, without the factory. -/
def instantiate (h : Host) (role : Role) (entry : ProviderEntry) :
    Except FactoryError Instance × Host :=
  match (Provisioning.instantiate role entry).run Deployment.surroundings.answering h.factory.around with
  | (outcome, around) => (outcome, ⟨h.settings, ⟨h.factory.cells, around⟩⟩)

def construct (h : Host) (e : Extension) : Except Failure Instance × Host :=
  match Deployment.surroundings.make e h.factory.around with
  | (outcome, around) => (outcome, ⟨h.settings, ⟨h.factory.cells, around⟩⟩)

def withPersistence {α : Type} (h : Host) (change : Instance → Deployment → α × Deployment) :
    Except FactoryError α × Host :=
  match h.persistenceProvider with
  | (.error e, h) => (.error e, h)
  | (.ok p, h) =>
    match h.act (change p) with
    | (a, h) => (.ok a, h)

def withHooks {α : Type} (h : Host) (change : List Instance → Deployment → α × Deployment) :
    Except FactoryError α × Host :=
  match h.hookProviders with
  | (.error e, h) => (.error e, h)
  | (.ok ps, h) =>
    match h.act (change ps) with
    | (a, h) => (.ok a, h)

def save (h : Host) (key : String) (content : List UInt8) :
    Except FactoryError (Except ProviderError Unit) × Host :=
  h.withPersistence (Deployment.use (Provider.save key content))

def load (h : Host) (key : String) :
    Except FactoryError (Except ProviderError (Option (List UInt8))) × Host :=
  h.withPersistence (Deployment.use (Provider.load key))

def delete (h : Host) (key : String) : Except FactoryError (Except ProviderError Bool) × Host :=
  h.withPersistence (Deployment.use (Provider.delete key))

def shouldHandle (h : Host) (e : HookEvent) : Except FactoryError (List Bool) × Host :=
  h.withHooks fun ps d => (ps.map (d.shouldHandle e), d)

def dispatch (h : Host) (e : HookEvent) :
    Except FactoryError (List (Option (Except ProviderError Unit))) × Host :=
  h.withHooks (Deployment.dispatch e)

def handleAll (h : Host) (e : HookEvent) :
    Except FactoryError (List (Except ProviderError Unit)) × Host :=
  h.withHooks (Deployment.handleAll e)

/-- The part of a factory that makes providers, in one line. -/
def makerText : String := "ProviderInstantiator \x7b .. \x7d"

def text (h : Host) : String :=
  h.factory.text h.settings

def trialPath : Path := .ofString "providers.toml"

/-- A host for trials: the extensions that are at hand, and a document in TOML if one is given. -/
def trial (complaint : Format → String → String) (document : Option String) : Host :=
  let files : FileTree :=
    match document with
    | some text => FileTree.write {} trialPath (Text.encode text)
    | none => {}
  .ofDeployment ⟨trialPath⟩
    (Registry.standard.foldl Deployment.register { store := ⟨files, complaint⟩ })

def writeTrial (h : Host) (document : String) : Host :=
  h.withDeployment
    { h.deployment with
      store.files := h.deployment.store.files.write trialPath (Text.encode document) }

end Host

end Provisioning
