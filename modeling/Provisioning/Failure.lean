import Provisioning.Text.Quoted

/-!
# Failures

Providers, constructors and file systems fail for reasons of their own. Of such a failure its text
is known, and the texts of the failures behind it, the nearest first; a file system also says of
which kind it is. A provider refuses a configuration that lacks a property or gives it a value that
will not do.
-/

namespace Provisioning

/-- A failure that something outside reports. -/
structure Failure where
  text : String
  causes : List String := []
  deriving DecidableEq, Repr

/-- The text of a failure and the texts behind it. -/
def Failure.chain (f : Failure) : List String :=
  f.text :: f.causes

inductive IoKind where
  | invalidData
  | permissionDenied
  | notFound
  | unexpectedEof
  | other
  deriving DecidableEq, Repr

structure IoFailure where
  kind : IoKind
  failure : Failure
  deriving DecidableEq, Repr

/-- Why a provider refuses its configuration or fails to act. -/
inductive ProviderError where
  | missingProperty (name : String)
  | invalidProperty (name value reason : String)
  | other (failure : Failure)
  deriving DecidableEq, Repr

namespace ProviderError

def message : ProviderError → String
  | missingProperty name => "missing required property '" ++ name ++ "'"
  | invalidProperty name value reason =>
    "invalid value " ++ Text.quoted value ++ " for property '" ++ name ++ "': " ++ reason
  | other failure => failure.text

def causes : ProviderError → List String
  | other failure => failure.causes
  | _ => []

end ProviderError

end Provisioning
