import Provisioning.Json.Text
import Provisioning.Record

/-!
# Providers documents

A providers document names at most one provider that keeps content and any number of providers that
are told of events, in order. Each is named by its extension and comes with the properties that it
is configured with; the same name may be declared several times.
-/

namespace Provisioning

structure Property where
  name : String
  value : String
  deriving DecidableEq, Repr

/-- A provider as a document declares it. -/
structure ProviderEntry where
  extension : String
  properties : List Property := []
  deriving DecidableEq, Repr

/-- The providers that a host is to be given. -/
structure ProvidersDocument where
  persistence : Option ProviderEntry := none
  hooks : List ProviderEntry := []
  deriving DecidableEq, Repr

namespace ProvidersDocument

def withPersistence (d : ProvidersDocument) (entry : ProviderEntry) : ProvidersDocument :=
  ⟨some entry, d.hooks⟩

/-- The document with one more hook provider, after the others. -/
def withHook (d : ProvidersDocument) (entry : ProviderEntry) : ProvidersDocument :=
  ⟨d.persistence, d.hooks ++ [entry]⟩

def isEmpty (d : ProvidersDocument) : Bool :=
  d.persistence.isNone && d.hooks.isEmpty

end ProvidersDocument

/-! ## Reading

Reading is more lenient than the schema: records may be written as lists, texts may be empty, and a
persistence provider may be null.
-/

def Property.record : Record Property where
  name := "Property"
  draft := ⟨"", ""⟩
  fields := [
    ⟨"name", false, fun t p => do return ⟨← t.readText, p.value⟩⟩,
    ⟨"value", false, fun t p => do return ⟨p.name, ← t.readText⟩⟩]

def ProviderEntry.record : Record ProviderEntry where
  name := "ProviderEntry"
  draft := ⟨"", []⟩
  fields := [
    ⟨"extension", false, fun t e => do return ⟨← t.readText, e.properties⟩⟩,
    ⟨"property", true, fun t e => do return ⟨e.extension, ← t.readList Property.record.read⟩⟩]

def ProvidersDocument.record : Record ProvidersDocument where
  name := "ProvidersDocument"
  draft := ⟨none, []⟩
  fields := [
    ⟨"persistence_provider", true, fun t d => do
      return ⟨← t.readOptional ProviderEntry.record.read, d.hooks⟩⟩,
    ⟨"hook_provider", true, fun t d => do
      return ⟨d.persistence, ← t.readList ProviderEntry.record.read⟩⟩]

/-- The providers document that a tree spells. -/
def ProvidersDocument.read (t : Tree) : Except DecodeError ProvidersDocument :=
  ProvidersDocument.record.read t

/-! ## Writing

A document is written as a tree, or as compact JSON text with the persistence provider ahead of the
hooks. What a document does not declare is not written.
-/

def Property.toTree (p : Property) : Tree :=
  .obj [("name", .str p.name), ("value", .str p.value)]

def listEntry {α : Type} (key : String) (toTree : α → Tree) : List α → List (String × Tree)
  | [] => []
  | items => [(key, .arr (items.map toTree))]

def ProviderEntry.toTree (e : ProviderEntry) : Tree :=
  .obj (("extension", .str e.extension) :: listEntry "property" Property.toTree e.properties)

namespace ProvidersDocument

def persistenceEntry (d : ProvidersDocument) : List (String × Tree) :=
  match d.persistence with
  | some e => [("persistence_provider", e.toTree)]
  | none => []

def hooksEntry (d : ProvidersDocument) : List (String × Tree) :=
  listEntry "hook_provider" ProviderEntry.toTree d.hooks

def toTree (d : ProvidersDocument) : Tree :=
  .obj (d.hooksEntry ++ d.persistenceEntry)

/-- A document as compact JSON text, in the order in which documents are written by hand. -/
def text (d : ProvidersDocument) : String :=
  Json.compact (.obj (d.persistenceEntry ++ d.hooksEntry))

end ProvidersDocument

end Provisioning
