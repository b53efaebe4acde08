import Provisioning.Document.Loading
import Provisioning.Provider
import Provisioning.Registry
import Provisioning.Surroundings

/-!
# Deployments

A deployment is what a factory is given in practice: files, a registry of extensions, the providers
that were made so far with their reports, and a log. Documents come from the files, or are the same
each time; how often one was asked for is counted.
-/

namespace Provisioning

/-- Where documents come from. -/
inductive Source where
  | files
  | fixed (d : ProvidersDocument)
  | failing (e : ConfigError)

/-- The surroundings of a factory at some time. -/
structure Deployment where
  store : Store := {}
  source : Source := .files
  loads : Nat := 0
  registry : Registry := {}
  providers : List (Instance × Provider) := []
  probe : Probe := {}
  log : List LogEvent := []

namespace Deployment

def note (d : Deployment) (events : List LogEvent) : Deployment :=
  { d with log := d.log ++ events }

def register (d : Deployment) (e : Extension) : Deployment :=
  { d.note (d.registry.registering e) with registry := d.registry.register e }

def fetch (d : Deployment) (path : Path) : Logged (Except ConfigError ProvidersDocument) :=
  match d.source with
  | .files => ProvidersDocument.load d.store path
  | .fixed document => ⟨[], .ok document⟩
  | .failing e => ⟨[], .error e⟩

def load (path : Path) (d : Deployment) : Except ConfigError ProvidersDocument × Deployment :=
  let fetched := d.fetch path
  (fetched.result, { d.note fetched.events with loads := d.loads + 1 })

def resolve (identifier : String) (d : Deployment) : Option Extension × Deployment :=
  (d.registry.get? identifier, d)

def construct (e : Extension) (target : Instance) (d : Deployment) :
    Except Failure Unit × Deployment :=
  match e.make d.probe with
  | (.ok p, probe) =>
    (.ok (), { d with providers := (target, p) :: d.providers, probe := probe })
  | (.error failure, probe) => (.error failure, { d with probe := probe })

def provider? (d : Deployment) (target : Instance) : Option Provider :=
  d.providers.lookup target

def replace (d : Deployment) (target : Instance) (p : Provider) : Deployment :=
  { d with providers := (target, p) :: d.providers.filter fun e => e.1 ≠ target }

def use {α : Type} (act : Provider → Probe → Use α) (target : Instance) (d : Deployment) :
    Except ProviderError α × Deployment :=
  match d.provider? target with
  | some p =>
    let used := act p d.probe
    (used.outcome, { d.replace target used.provider with probe := used.probe })
  | none => (.error (.other ⟨"no such provider", []⟩), d)

def configure (target : Instance) (c : Context) (d : Deployment) :
    Except ProviderError Unit × Deployment :=
  d.use (Provider.configure c) target

def surroundings : Surroundings Deployment where
  load := load
  resolve := resolve
  construct := construct
  configure := configure
  note event d := d.note [event]

def shouldHandle (d : Deployment) (e : HookEvent) (target : Instance) : Bool :=
  ((d.provider? target).map (Provider.shouldHandle e)).getD false

/-- Has some instances handle an event one after the other, whether they want it or not. -/
def handleAll (e : HookEvent) :
    List Instance → Deployment → List (Except ProviderError Unit) × Deployment
  | [], d => ([], d)
  | target :: rest, d =>
    match d.use (Provider.handle e) target with
    | (outcome, d) =>
      match handleAll e rest d with
      | (outcomes, d) => (outcome :: outcomes, d)

/-- Has those of some instances handle an event that want it; the others are passed over. -/
def dispatch (e : HookEvent) :
    List Instance → Deployment → List (Option (Except ProviderError Unit)) × Deployment
  | [], d => ([], d)
  | target :: rest, d =>
    if d.shouldHandle e target then
      match d.use (Provider.handle e) target with
      | (outcome, d) =>
        match dispatch e rest d with
        | (outcomes, d) => (some outcome :: outcomes, d)
    else
      match dispatch e rest d with
      | (outcomes, d) => (none :: outcomes, d)

end Deployment

end Provisioning
