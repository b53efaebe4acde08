import Provisioning.FileTree
import Provisioning.Json.Reader
import Provisioning.Log.Event
import Provisioning.ReadError
import Provisioning.Toml.Reader
import Provisioning.Yaml.Reader

/-!
# Reading documents from files

A file is read as a tree, whatever the format of the document in it. It has to exist and to be UTF-8
before its format is looked at.
-/

namespace Provisioning

namespace Format

def parse? : Format → List Char → Option Tree
  | .toml, text => Toml.read? text
  | .json, text => Json.read? text
  | .yaml, text => Yaml.read? text

/-- The tree that a text spells, or an error with the complaint about a text that spells none. -/
def parse (format : Format) (complaint : String → String) (path : Path) (text : String) :
    Except ReadError Tree :=
  match format.parse? text.toList with
  | some t => .ok t
  | none => .error (.malformed path format.name (complaint text))

end Format

def FileTree.readText (files : FileTree) (path : Path) : Except ReadError String :=
  match files.read? path with
  | none => .error (.notFound path)
  | some (.error f) => .error (.ofIo path f)
  | some (.ok content) =>
    match Text.decode? content with
    | none => .error (.notUtf8 path)
    | some text => .ok text

/-- Files that hold documents. What is wrong with a text that cannot be parsed, the readers here do not
tell; a complaint says it in the words of those who parse. -/
structure Store where
  files : FileTree := {}
  complaint : Format → String → String := fun _ _ => ""

def Store.readTree (store : Store) (path : Path) : Logged (Except ReadError Tree) :=
  match store.files.readText path with
  | .error e => ⟨[], .error e⟩
  | .ok text =>
    match Format.ofPath path with
    | .error extension => ⟨[], .error (.unsupported extension)⟩
    | .ok format => ⟨[.parsing path format], format.parse (store.complaint format) path text⟩

end Provisioning
