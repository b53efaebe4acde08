import Provisioning.Failure
import Provisioning.Format

/-!
# Why a document could not be read

Four causes, each with the wording that messages use for it.
-/

namespace Provisioning

inductive ReadError where
  | notFound (path : Path)
  | io (path : Path) (kind : IoKind) (source : Failure)
  | malformed (path : Path) (format : String) (detail : String)
  | unsupported (extension : String)
  deriving DecidableEq, Repr

namespace ReadError

def notUtf8 (path : Path) : ReadError :=
  io path .invalidData ⟨"stream did not contain valid UTF-8", []⟩

/-- Why the regular file at a path could not be read. If it is gone by then, it was never there. -/
def ofIo (path : Path) (f : IoFailure) : ReadError :=
  if f.kind = .notFound then notFound path else io path f.kind f.failure

def message : ReadError → String
  | notFound path => "File not found: " ++ path.display
  | io path _ source => "I/O error at " ++ path.display ++ ": " ++ source.text
  | malformed path format detail =>
    "Failed to parse " ++ format ++ " document at " ++ path.display ++ ": " ++ detail
  | unsupported extension => "Unsupported document format: " ++ Text.quoted extension

def causes : ReadError → List String
  | io _ _ source => source.chain
  | _ => []

def isNotFound : ReadError → Bool
  | notFound _ => true
  | _ => false

end ReadError

end Provisioning
