import Provisioning.ReadError

/-!
# Why a providers document could not be loaded

A document that is missing or that the file system keeps back counts as not found. All other faults
lie in the document, except that a schema may be at fault itself.
-/

namespace Provisioning

/-- Why a providers document could not be loaded. -/
inductive ConfigError where
  | notFound (path : Path) (source : Option ReadError)
  | invalid (path : Path) (detail : String)
  | nonconforming (path : Path) (violations : List String)
  | badSchema (detail : String)
  deriving DecidableEq, Repr

namespace ConfigError

def message : ConfigError → String
  | notFound path _ => "Unable to find the providers configuration file at " ++ path.display
  | invalid path detail => "Invalid providers configuration at " ++ path.display ++ ": " ++ detail
  | nonconforming path violations =>
    "Providers configuration at " ++ path.display ++ " does not conform to the schema: " ++
      "; ".intercalate violations
  | badSchema detail => "Providers schema could not be compiled: " ++ detail

def causes : ConfigError → List String
  | notFound _ (some source) => source.message :: source.causes
  | _ => []

def isNotFound : ConfigError → Bool
  | notFound .. => true
  | _ => false

/-- What it means for loading the document at a path that it could not be read. -/
def ofRead (path : Path) : ReadError → ConfigError
  | .notFound _ => notFound path none
  | .io place kind source =>
    if kind = .invalidData then invalid path ("document is not valid UTF-8: " ++ source.text)
    else notFound path (some (.io place kind source))
  | .malformed _ format detail => invalid path (format ++ " syntax error: " ++ detail)
  | .unsupported extension => invalid path ("unsupported document format " ++ Text.quoted extension)

end ConfigError

end Provisioning
