import Provisioning.Format
import Provisioning.Role

/-!
# Log events

What is worth a line in the log, from reading a document to configuring a provider. An event has a
level, a source, a message and fields; a field shows its value as it is or in quotes.
-/

namespace Provisioning

inductive LogLevel where
  | error
  | warn
  | info
  | debug
  | trace
  deriving DecidableEq, Repr

namespace LogLevel

def name : LogLevel → String
  | error => "ERROR"
  | warn => "WARN"
  | info => "INFO"
  | debug => "DEBUG"
  | trace => "TRACE"

/-- How far down a level lies: less matters less. -/
def rank : LogLevel → Nat
  | error => 1
  | warn => 2
  | info => 3
  | debug => 4
  | trace => 5

end LogLevel

inductive LogValue where
  | plain (text : String)
  | quoted (text : String)
  deriving DecidableEq, Repr

def LogValue.text : LogValue → String
  | plain text => text
  | quoted text => text

inductive LogEvent where
  | parsing (path : Path) (format : Format)
  | loaded (path : Path) (persistence : Bool) (hooks : Nat)
  | settingsLoaded (settings providersFile : Path)
  | replacing (extension : String)
  | loading (path : Path)
  | alreadyInitialized
  | noHooks
  | instantiated (role : Role) (extension : String)
  | configured (role : Role) (extension : String) (properties : Nat)
  deriving DecidableEq, Repr

namespace LogEvent

def level : LogEvent → LogLevel
  | loaded .. => .info
  | instantiated .. => .info
  | configured .. => .info
  | _ => .debug

def target : LogEvent → String
  | parsing .. => "provider_fs::store"
  | loaded .. => "provider_meta::loader"
  | settingsLoaded .. => "provider_core::settings"
  | replacing _ => "provider_core::registry"
  | loading _ => "provider_core::factory"
  | alreadyInitialized => "provider_core::factory"
  | noHooks => "provider_core::factory"
  | instantiated .. => "provider_core::instantiator"
  | configured .. => "provider_core::instantiator"

def message : LogEvent → String
  | parsing .. => "Parsing document"
  | loaded .. => "Loaded providers configuration"
  | settingsLoaded .. => "Loaded factory settings"
  | replacing _ => "Replacing registered extension"
  | loading _ => "Loading providers configuration"
  | alreadyInitialized => "Provider factory already initialized"
  | noHooks => "No hook providers configured"
  | instantiated .. => "Instantiated provider"
  | configured .. => "Configured provider"

def fields : LogEvent → List (String × LogValue)
  | parsing path format => [("path", .plain path.display), ("format", .plain format.name)]
  | loaded path persistence hooks =>
    [("path", .plain path.display), ("persistence", .plain (toString persistence)),
      ("hooks", .plain (toString hooks))]
  | settingsLoaded settings providersFile =>
    [("settings", .plain settings.display), ("providers_file", .plain providersFile.display)]
  | replacing extension => [("extension", .quoted extension)]
  | loading path => [("path", .plain path.display)]
  | alreadyInitialized => []
  | noHooks => []
  | instantiated role extension => [("role", .plain role.name), ("extension", .quoted extension)]
  | configured role extension properties =>
    [("role", .plain role.name), ("extension", .quoted extension),
      ("properties", .plain (toString properties))]

end LogEvent

/-- The result of an activity and the events on the way to it, in order. -/
structure Logged (α : Type) where
  events : List LogEvent
  result : α

end Provisioning
