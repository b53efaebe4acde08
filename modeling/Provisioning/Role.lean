/-!
# Roles

A host gives each of its providers one of two roles: to keep content, or to be told of events.
-/

namespace Provisioning

inductive Role where
  | persistence
  | hook
  deriving DecidableEq, Repr

namespace Role

def name : Role → String
  | persistence => "PersistenceProvider"
  | hook => "HookProvider"

/-- The short name of a role, as descriptions of extensions use it. -/
def label : Role → String
  | persistence => "Persistence"
  | hook => "Hook"

def isSingleton : Role → Bool
  | persistence => true
  | hook => false

end Role

end Provisioning
