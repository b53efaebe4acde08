import Provisioning.Document.Basic
import Provisioning.Keyed
import Provisioning.Failure

/-!
# Configurations of providers

A provider is configured with one value for each name that its entry declares: the value that was
declared last.
-/

namespace Provisioning

/-- What a provider is configured with. -/
structure Context where
  values : List (String × String) := []
  deriving DecidableEq, Repr

namespace Context

/-- The configuration with the given values, the last of several under one name. -/
def ofList (values : List (String × String)) : Context :=
  ⟨Keyed.gather values⟩

def ofProperties (properties : List Property) : Context :=
  ofList (properties.map fun p => (p.name, p.value))

def get? (c : Context) (name : String) : Option String :=
  Keyed.lookup name c.values

def require (c : Context) (name : String) : Except ProviderError String :=
  match c.get? name with
  | some value => .ok value
  | none => .error (.missingProperty name)

def contains (c : Context) (name : String) : Bool :=
  (c.get? name).isSome

def size (c : Context) : Nat :=
  c.values.length

def isEmpty (c : Context) : Bool :=
  c.values.isEmpty

end Context

end Provisioning
