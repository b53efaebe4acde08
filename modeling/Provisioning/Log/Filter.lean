import Provisioning.Log.Event
import Provisioning.Text.Quoted

/-!
# The log

A filter says which events go into the log. It is a list of directives: a level for every part of
the system, or for the parts whose names begin in some way. The directive with the longest such
beginning decides, and of two with the same beginning the later one. Without a directive only errors
go into the log.
-/

namespace Provisioning

/-- How much has to matter what comes from some part of the system. All parts are meant if there is
no name. -/
structure Directive where
  target : Option String := none
  limit : Nat
  deriving DecidableEq, Repr

abbrev Filter := List Directive

namespace Filter

def limits : List String := ["off", "error", "warn", "info", "debug", "trace"]

def lenient : Nat := 5

def numericLimit? (text : String) : Option Nat :=
  match text.toNat? with
  | some n => if n ≤ lenient ∧ text.all Char.isDigit then some n else none
  | none => none

/-- The limit that a text names, whatever the case of its letters, or gives by its number. -/
def limit? (text : String) : Option Nat :=
  match numericLimit? text with
  | some n => some n
  | none => limits.findIdx? fun name => name = text.toLower

def startsName (c : Char) : Bool :=
  c.isAlphanum || c = '-' || c = ':' || c = '_'

def isDirective (text : List Char) : Bool :=
  (text.head?.map startsName).getD false && text.all fun c => c ≠ '[' && !c.isWhitespace

/-- The directive that a text spells: a limit, a name, or a name with a limit. -/
def directive? (text : List Char) : Option Directive :=
  if !isDirective text then none
  else
    match text.span fun c => c ≠ '=' with
    | (name, []) =>
      match limit? (String.ofList name) with
      | some limit => some ⟨none, limit⟩
      | none => some ⟨some (String.ofList name), lenient⟩
    | (name, [_]) => some ⟨some (String.ofList name), lenient⟩
    | (name, _ :: level) =>
      (limit? (String.ofList level)).map fun limit => ⟨some (String.ofList name), limit⟩

def pieces : List Char → List (List Char)
  | [] => [[]]
  | c :: rest =>
    if c = ',' then [] :: pieces rest
    else
      match pieces rest with
      | [] => [[c]]
      | piece :: others => (c :: piece) :: others

def parse? (text : String) : Option Filter :=
  ((pieces text.toList).filter fun piece => !piece.isEmpty).mapM directive?

def standard : Filter := [⟨none, 2⟩, ⟨some "provider_core", 3⟩, ⟨some "provider_meta", 3⟩]

def choose (wish : Option String) : Filter :=
  (wish.bind parse?).getD standard

def applies (target : String) (d : Directive) : Bool :=
  match d.target with
  | none => true
  | some name => name.toList.isPrefixOf target.toList

def weight (d : Directive) : Nat :=
  match d.target with
  | none => 0
  | some name => name.length + 1

/-- The more specific of two directives, and of equals the second. -/
def prefer (first second : Directive) : Directive :=
  if weight first ≤ weight second then second else first

def deciding? (filter : Filter) (target : String) : Option Directive :=
  (filter.filter (applies target)).foldl (fun best d => some ((best.map (prefer · d)).getD d)) none

def admits (filter : Filter) (e : LogEvent) : Bool :=
  if filter.isEmpty then e.level.rank ≤ LogLevel.error.rank
  else
    match filter.deciding? e.target with
    | some d => e.level.rank ≤ d.limit
    | none => false

end Filter

/-! ## Lines

An event is written on a line with its level, its source, its message and its fields. A process has
one log: the first attempt to install it succeeds and decides on the filter, and every other fails.
-/

def LogValue.shown : LogValue → String
  | plain text => text
  | quoted text => Text.quoted text

def LogEvent.line (e : LogEvent) : String :=
  e.level.name ++ " " ++ e.target ++ ": " ++ e.message ++
    String.join (e.fields.map fun field => " " ++ field.1 ++ "=" ++ field.2.shown)

/-- What attempts to install the log come to. -/
def installAttempts : Nat → List (Except String Unit)
  | 0 => []
  | n + 1 =>
    .ok () :: List.replicate n (.error "a global default trace dispatcher has already been set")

/-- The lines of a log with the filter that was asked for, if it was installed at all. -/
def logLines (wish : Option String) (attempts : Nat) (events : List LogEvent) : List String :=
  if attempts = 0 then [] else (events.filter (Filter.choose wish).admits).map LogEvent.line

end Provisioning
