import Provisioning.Extension
import Provisioning.Log.Event

/-!
# Registries

A registry knows extensions by their identifiers. Registering an extension replaces the one that had
the same identifier.
-/

namespace Provisioning

/-- Extensions under their identifiers. -/
structure Registry where
  entries : List (String × Extension) := []

namespace Registry

/-- The registry with one more extension, or with another one in place of its namesake. -/
def register (r : Registry) (e : Extension) : Registry :=
  ⟨Keyed.put e.identifier e r.entries⟩

def get? (r : Registry) (identifier : String) : Option Extension :=
  Keyed.lookup identifier r.entries

def contains (r : Registry) (identifier : String) : Bool :=
  (r.get? identifier).isSome

def registering (r : Registry) (e : Extension) : List LogEvent :=
  if r.contains e.identifier then [.replacing e.identifier] else []

def identifiers (r : Registry) : List String :=
  r.entries.map Prod.fst

def size (r : Registry) : Nat :=
  r.entries.length

def isEmpty (r : Registry) : Bool :=
  r.entries.isEmpty

/-- The extensions that are at hand for trials. -/
def standard : List Extension := [
  ⟨"stub.PersistenceProvider", "in-memory persistence stub", .keeper false⟩,
  ⟨"stub.RejectingPersistenceProvider", "rejects its configuration", .keeper true⟩,
  ⟨"stub.FailingPersistenceProvider", "constructor always fails",
    .failing .persistence "stub constructor failure"⟩,
  ⟨"stub.HookProvider", "journaling hook stub", .listener⟩,
  ⟨"stub.AuditHookProvider", "journaling hook stub", .listener⟩,
  ⟨"stub.FailingHookProvider", "constructor always fails", .failing .hook "stub constructor failure"⟩]

def text (r : Registry) : String :=
  let entries := r.entries.map fun e => Text.quoted e.1 ++ ": " ++ e.2.text
  "ExtensionRegistry \x7b entries: \x7b" ++ ", ".intercalate entries ++ "\x7d \x7d"

end Registry

end Provisioning
