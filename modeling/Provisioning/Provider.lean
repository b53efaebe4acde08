import Provisioning.Extension
import Provisioning.Probe

/-!
# Providers

A provider is made by an extension, configured once and then used. Keepers hold content in memory,
listeners note the events that they handle, and some providers follow a script. They report what
happens to them. An event has a kind and fields; a field may occur several times, and its first value
counts.
-/

namespace Provisioning

structure HookEvent where
  kind : String
  fields : List (String × String) := []
  deriving DecidableEq, Repr

def HookEvent.field? (e : HookEvent) (name : String) : Option String :=
  e.fields.lookup name

/-- A provider at some time. -/
inductive Provider where
  | keeper (identifier : String) (rejects : Bool) (content : List (String × List UInt8))
  | listener (identifier : String) (only : Option String)
  | scripted (identifier : String) (script : Script)
  deriving DecidableEq, Repr

/-- What comes of using a provider: the outcome, the provider afterwards and what was reported. -/
structure Use (α : Type) where
  outcome : Except ProviderError α
  provider : Provider
  probe : Probe

def Extension.make (e : Extension) (probe : Probe) : Except Failure Provider × Probe :=
  match e.implementation with
  | .keeper rejects => (.ok (.keeper e.identifier rejects []), probe.noteConstruction)
  | .listener => (.ok (.listener e.identifier none), probe.noteConstruction)
  | .failing _ text => (.error ⟨text, []⟩, probe)
  | .scripted _ script =>
    let probe := probe.write (.construct e.identifier)
    match script.constructFault with
    | some text => (.error ⟨text, []⟩, probe)
    | none => (.ok (.scripted e.identifier script), probe)

namespace Provider

def identifier : Provider → String
  | keeper identifier _ _ => identifier
  | listener identifier _ => identifier
  | scripted identifier _ => identifier

def configure (c : Context) (p : Provider) (probe : Probe) : Use Unit :=
  match p with
  | keeper identifier rejects _ =>
    if rejects then
      ⟨.error (.invalidProperty "dir" ((c.get? "dir").getD "") "rejected by stub"), p, probe⟩
    else ⟨.ok (), p, probe.noteConfiguration identifier c⟩
  | listener identifier _ =>
    ⟨.ok (), listener identifier (c.get? "only"), probe.noteConfiguration identifier c⟩
  | scripted identifier script => ⟨script.check c, p, probe.write (.configure identifier c)⟩

def play {α : Type} (act : Act) (identifier : String) (script : Script) (result : α) (probe : Probe) :
    Use α :=
  let outcome :=
    match script.actFault with
    | some e => .error e
    | none => .ok result
  ⟨outcome, scripted identifier script, probe.write (.act act identifier)⟩

def save (key : String) (content : List UInt8) (p : Provider) (probe : Probe) : Use Unit :=
  match p with
  | keeper identifier rejects kept =>
    ⟨.ok (), keeper identifier rejects (Keyed.put key content kept), probe⟩
  | listener .. => ⟨.ok (), p, probe⟩
  | scripted identifier script => play .save identifier script () probe

def load (key : String) (p : Provider) (probe : Probe) : Use (Option (List UInt8)) :=
  match p with
  | keeper _ _ kept => ⟨.ok (Keyed.lookup key kept), p, probe⟩
  | listener .. => ⟨.ok none, p, probe⟩
  | scripted identifier script => play .load identifier script none probe

/-- Has a provider give up the content under a key, and tells whether there was any. -/
def delete (key : String) (p : Provider) (probe : Probe) : Use Bool :=
  match p with
  | keeper identifier rejects kept =>
    ⟨.ok (Keyed.lookup key kept).isSome, keeper identifier rejects (Keyed.erase key kept), probe⟩
  | listener .. => ⟨.ok false, p, probe⟩
  | scripted identifier script => play .delete identifier script false probe

def handle (e : HookEvent) (p : Provider) (probe : Probe) : Use Unit :=
  match p with
  | keeper .. => ⟨.ok (), p, probe⟩
  | listener identifier _ => ⟨.ok (), p, probe.noteHandled identifier e.kind⟩
  | scripted identifier script => play .handle identifier script () probe

def shouldHandle (e : HookEvent) : Provider → Bool
  | listener _ (some kind) => kind = e.kind
  | _ => true

end Provider

end Provisioning
