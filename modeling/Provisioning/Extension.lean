import Provisioning.Context
import Provisioning.Role

/-!
# Extensions

An extension is something that a document can name: it makes providers of one role. Those here keep
content or note events in memory, always fail, or follow a script.
-/

namespace Provisioning

/-- A value of a property that a provider refuses, and why. -/
structure Refusal where
  name : String
  value : String
  reason : String
  deriving DecidableEq, Repr

/-- What a provider does that follows a script: whether it can be made, what it demands of its
configuration, and how it fails when it is used. -/
structure Script where
  constructFault : Option String := none
  required : List String := []
  refusal : Option Refusal := none
  fatal : Option (String × String) := none
  actFault : Option ProviderError := none
  deriving DecidableEq, Repr

namespace Script

def checkRequired (script : Script) (c : Context) : Except ProviderError Unit :=
  script.required.forM fun name => do
    let _ ← c.require name

def checkRefusal (script : Script) (c : Context) : Except ProviderError Unit :=
  match script.refusal with
  | some r =>
    if c.get? r.name = some r.value then .error (.invalidProperty r.name r.value r.reason) else .ok ()
  | none => .ok ()

def checkFatal (script : Script) (c : Context) : Except ProviderError Unit :=
  match script.fatal with
  | some (name, text) => if c.contains name then .error (.other ⟨text, []⟩) else .ok ()
  | none => .ok ()

def check (script : Script) (c : Context) : Except ProviderError Unit := do
  script.checkRequired c
  script.checkRefusal c
  script.checkFatal c

end Script

inductive Implementation where
  | keeper (rejects : Bool)
  | listener
  | failing (role : Role) (text : String)
  | scripted (role : Role) (script : Script)
  deriving DecidableEq, Repr

def Implementation.role : Implementation → Role
  | keeper _ => .persistence
  | listener => .hook
  | failing role _ => role
  | scripted role _ => role

/-- Something that makes providers. -/
structure Extension where
  identifier : String
  description : String
  implementation : Implementation
  deriving DecidableEq, Repr

namespace Extension

def role (e : Extension) : Role :=
  e.implementation.role

def text (e : Extension) : String :=
  "Extension \x7b identifier: " ++ Text.quoted e.identifier ++ ", description: " ++
    Text.quoted e.description ++ ", role: " ++ e.role.label ++ " \x7d"

end Extension

/-- A provider that was made. No two have the same number. -/
structure Instance where
  number : Nat
  deriving DecidableEq, Repr

end Provisioning
