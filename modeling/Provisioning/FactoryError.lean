import Provisioning.ConfigError
import Provisioning.Failure
import Provisioning.Role

/-!
# Why a factory cannot hand out a provider

Every error has one of seven kinds. Errors that concern one role or one extension name it. The
message of a provider that could not be made ends in the message of the cause.
-/

namespace Provisioning

/-- Why one provider could not be made. -/
inductive CreationError where
  | extensionNotFound
  | instantiationFailed (failure : Failure)
  | configurationRejected (error : ProviderError)
  deriving DecidableEq, Repr

namespace CreationError

def message : CreationError → String
  | extensionNotFound => "extension not found by the extension resolver"
  | instantiationFailed failure => "instantiation failed: " ++ failure.text
  | configurationRejected error => "configuration rejected: " ++ error.message

def causes : CreationError → List String
  | extensionNotFound => []
  | instantiationFailed failure => failure.chain
  | configurationRejected error => error.message :: error.causes

end CreationError

inductive ErrorKind where
  | configNotFound
  | configInvalid
  | factoryNotInitialized
  | roleMissing
  | extensionNotFound
  | instantiationFailed
  | configurationRejected
  deriving DecidableEq, Repr

def ErrorKind.text : ErrorKind → String
  | configNotFound => "config not found"
  | configInvalid => "config invalid"
  | factoryNotInitialized => "factory not initialized"
  | roleMissing => "role missing"
  | extensionNotFound => "extension not found"
  | instantiationFailed => "instantiation failed"
  | configurationRejected => "configuration rejected"

/-- Why a factory cannot do what it is asked for. -/
inductive FactoryError where
  | config (error : ConfigError)
  | settings (path : Path) (source : ReadError)
  | notInitialized
  | roleMissing (role : Role)
  | creation (role : Role) (extension : String) (source : CreationError)
  deriving DecidableEq, Repr

namespace FactoryError

def message : FactoryError → String
  | config error => error.message
  | settings path source =>
    "Unable to load factory settings from " ++ path.display ++ ": " ++ source.message
  | notInitialized => "ProviderFactory must be initialized before obtaining a provider"
  | roleMissing role => "No " ++ role.name ++ " is configured in the providers configuration"
  | creation role extension source =>
    "Error creating " ++ role.name ++ " with extension " ++ extension ++ ": " ++ source.message

def causes : FactoryError → List String
  | config error => error.causes
  | settings _ source => source.message :: source.causes
  | creation _ _ source => source.message :: source.causes
  | _ => []

def kind : FactoryError → ErrorKind
  | config error => if error.isNotFound then .configNotFound else .configInvalid
  | settings _ source => if source.isNotFound then .configNotFound else .configInvalid
  | notInitialized => .factoryNotInitialized
  | roleMissing _ => .roleMissing
  | creation _ _ .extensionNotFound => .extensionNotFound
  | creation _ _ (.instantiationFailed _) => .instantiationFailed
  | creation _ _ (.configurationRejected _) => .configurationRejected

def role? : FactoryError → Option Role
  | roleMissing role => some role
  | creation role .. => some role
  | _ => none

def extension? : FactoryError → Option String
  | creation _ extension _ => some extension
  | _ => none

end FactoryError

end Provisioning
