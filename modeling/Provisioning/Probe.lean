import Provisioning.Context

/-!
# What providers report

Providers that keep content or note events in memory report what is done with them: how many were
made, how each was configured and which events they handled. Those that follow a script write a
journal.
-/

namespace Provisioning

inductive Act where
  | save
  | load
  | delete
  | handle
  deriving DecidableEq, Repr

def Act.name : Act → String
  | save => "save"
  | load => "load"
  | delete => "delete"
  | handle => "handle"

/-- What a provider that follows a script writes down, with the identifier of its extension. -/
inductive JournalEntry where
  | construct (identifier : String)
  | configure (identifier : String) (context : Context)
  | act (act : Act) (identifier : String)
  deriving DecidableEq, Repr

/-- What was reported so far, in order. -/
structure Probe where
  constructed : Nat := 0
  configured : Nat := 0
  configurations : List (String × Context) := []
  handled : List (String × String) := []
  journal : List JournalEntry := []
  deriving DecidableEq, Repr

namespace Probe

def noteConstruction (p : Probe) : Probe :=
  ⟨p.constructed + 1, p.configured, p.configurations, p.handled, p.journal⟩

def noteConfiguration (p : Probe) (identifier : String) (c : Context) : Probe :=
  ⟨p.constructed, p.configured + 1, p.configurations ++ [(identifier, c)], p.handled, p.journal⟩

def noteHandled (p : Probe) (identifier kind : String) : Probe :=
  ⟨p.constructed, p.configured, p.configurations, p.handled ++ [(identifier, kind)], p.journal⟩

def write (p : Probe) (entry : JournalEntry) : Probe :=
  ⟨p.constructed, p.configured, p.configurations, p.handled, p.journal ++ [entry]⟩

end Probe

end Provisioning
