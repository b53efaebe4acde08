import Provisioning.FactoryError
import Provisioning.Record
import Provisioning.Store

/-!
# Factory settings

Settings tell a factory where its providers document is. They may be kept in a file, and a relative
path in it is seen from the directory of that file. The format of the file is looked at before the
file itself.
-/

namespace Provisioning

/-- Where a factory finds its providers document. -/
structure Settings where
  providersFile : Path := .ofString "conf/providers.toml"
  deriving DecidableEq, Repr

namespace Settings

def readPath : Tree → Except DecodeError Path
  | .str s => .ok (.ofString s)
  | t => .error (.wrongType t "path string")

def record : Record Settings where
  name := "FactorySettings"
  draft := {}
  fields := [⟨"providers_file", true, fun t _ => do return ⟨← readPath t⟩⟩]

def toTree (s : Settings) : Tree :=
  .obj [("providers_file", .str s.providersFile.display)]

/-- The settings with the path in them seen from the directory of the settings file. -/
def resolve (path : Path) (s : Settings) : Settings :=
  match path.parent? with
  | some directory => ⟨directory.resolve s.providersFile⟩
  | none => s

def interpret (path : Path) (format : Format) (t : Tree) : Except ReadError Settings :=
  match record.read t with
  | .ok s => .ok s
  | .error e => .error (.malformed path format.name e.message)

/-- The settings in the file at a path, as they are written there. -/
def read (store : Store) (path : Path) : Logged (Except ReadError Settings) :=
  match Format.ofPath path with
  | .error extension => ⟨[], .error (.unsupported extension)⟩
  | .ok format =>
    let tree := store.readTree path
    ⟨tree.events, tree.result.bind (interpret path format)⟩

def load (store : Store) (path : Path) : Logged (Except FactoryError Settings) :=
  let written := read store path
  match written.result with
  | .error e => ⟨written.events, .error (.settings path e)⟩
  | .ok s =>
    let resolved := s.resolve path
    ⟨written.events ++ [.settingsLoaded path resolved.providersFile], .ok resolved⟩

end Settings

end Provisioning
