import Provisioning.ConfigError
import Provisioning.Document.Basic
import Provisioning.Schema
import Provisioning.Store

/-!
# Loading providers documents

The tree of a file is checked against the schema as a whole before any of it is read as a document. By
the schema extensions and property names are not empty. Everything else that a document may say is
text, and nothing may stand in it that has no meaning.
-/

namespace Provisioning

namespace Schema

def property : Schema :=
  .object ["name", "value"] [("name", .text 1), ("value", .text 0)]

def provider : Schema :=
  .object ["extension"] [("extension", .text 1), ("property", .list property)]

def providers : Schema :=
  .object [] [("hook_provider", .list provider), ("persistence_provider", provider)]

end Schema

namespace ProvidersDocument

def validate (path : Path) (t : Tree) : Except ConfigError Unit :=
  match Schema.providers.violations t with
  | [] => .ok ()
  | violations => .error (.nonconforming path (violations.map Violation.message))

/-- The document that a tree holds, if it conforms to the schema. -/
def interpret (path : Path) (t : Tree) : Except ConfigError ProvidersDocument := do
  validate path t
  match read t with
  | .ok d => .ok d
  | .error e => .error (.invalid path e.message)

/-- The providers document in the file at a path. -/
def load (store : Store) (path : Path) : Logged (Except ConfigError ProvidersDocument) :=
  let tree := store.readTree path
  match tree.result with
  | .error e => ⟨tree.events, .error (.ofRead path e)⟩
  | .ok t =>
    match interpret path t with
    | .error e => ⟨tree.events, .error e⟩
    | .ok d => ⟨tree.events ++ [.loaded path d.persistence.isSome d.hooks.length], .ok d⟩

end ProvidersDocument

end Provisioning
