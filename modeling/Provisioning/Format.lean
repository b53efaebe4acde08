import Provisioning.Path
import Provisioning.Text.Lowercase

/-!
# Document formats

The format of a document follows from the extension of its path, whatever the case of its letters.
-/

namespace Provisioning

inductive Format where
  | toml
  | json
  | yaml
  deriving DecidableEq, Repr

namespace Format

def name : Format → String
  | .toml => "TOML"
  | .json => "JSON"
  | .yaml => "YAML"

def ofExtension? (ext : List Char) : Option Format :=
  if ext = "toml".toList then some .toml
  else if ext = "json".toList then some .json
  else if ext = "yaml".toList ∨ ext = "yml".toList then some .yaml
  else none

/-- The extension of a path as text: empty if there is none or if it is not UTF-8. -/
def extensionText (p : Path) : String :=
  (p.extension?.bind Text.decode?).getD ""

/-- The format of a path, or the extension that has none. -/
def ofPath (p : Path) : Except String Format :=
  let ext := extensionText p
  match ofExtension? (Text.lower ext.toList) with
  | some format => .ok format
  | none => .error ext

end Format

end Provisioning
