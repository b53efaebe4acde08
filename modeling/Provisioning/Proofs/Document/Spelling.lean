import Provisioning.Document.Basic
import Provisioning.Document.Loading
import Provisioning.Proofs.Record
import Provisioning.Proofs.Schema

/-!
# The trees that spell a document

A document is spelled by its own tree, and by those that say in so many words that a list is empty. These
are the trees that conform to the schema. They are read as the document, and so are some others: trees in
which a record is a list, or the persistence provider a null.
-/

namespace Provisioning

variable {α : Type}

/-- A list is spelled item by item; an empty one may be left out. -/
inductive SpellsList (spells : α → Tree → Prop) : List α → Option Tree → Prop where
  | absent : SpellsList spells [] none
  | present {as : List α} {ts : List Tree} (h : List.Forall₂ spells as ts) :
      SpellsList spells as (some (.arr ts))

def Property.Spelled (p : Property) (t : Tree) : Prop :=
  t = p.toTree

def ProviderEntry.Spelled (e : ProviderEntry) (t : Tree) : Prop :=
  ∃ properties, SpellsList Property.Spelled e.properties properties ∧
    t = .obj (Keyed.pair "extension" (some (.str e.extension)) "property" properties)

def ProvidersDocument.Spelled (d : ProvidersDocument) (t : Tree) : Prop :=
  ∃ hooks persistence, SpellsList ProviderEntry.Spelled d.hooks hooks ∧
    Option.Rel ProviderEntry.Spelled d.persistence persistence ∧
    t = .obj (Keyed.pair "hook_provider" hooks "persistence_provider" persistence)

def Property.Named (p : Property) : Prop :=
  p.name ≠ ""

def ProviderEntry.Named (e : ProviderEntry) : Prop :=
  e.extension ≠ "" ∧ ∀ p ∈ e.properties, p.Named

def ProvidersDocument.Named (d : ProvidersDocument) : Prop :=
  (∀ e ∈ d.persistence, e.Named) ∧ ∀ e ∈ d.hooks, e.Named

/-! ## What conforms -/

section Conforming

variable {items : Schema} {spells : α → Tree → Prop} {named : α → Prop}

theorem exists_forall₂ {ts : List Tree} :
    (∀ t ∈ ts, ∃ a, named a ∧ spells a t) ↔
      ∃ as, (∀ a ∈ as, named a) ∧ List.Forall₂ spells as ts := by
  induction ts with
  | nil =>
    constructor
    · intro _
      exact ⟨[], by simp, .nil⟩
    · simp
  | cons t ts ih =>
    rw [List.forall_mem_cons, ih]
    constructor
    · intro h
      rcases h with ⟨⟨a, ha, hat⟩, as, has, hts⟩
      exact ⟨a :: as, List.forall_mem_cons.mpr ⟨ha, has⟩, .cons hat hts⟩
    · intro h
      rcases h with ⟨as, has, hts⟩
      cases hts with
      | cons hat hts =>
        have hnamed := List.forall_mem_cons.mp has
        exact ⟨⟨_, hnamed.1, hat⟩, _, hnamed.2, hts⟩

/-- If the items conform that spell something, so do the lists of them. -/
theorem list_place_conforms_iff
    (hi : ∀ t : Tree, t.Ordered → (items.violations t = [] ↔ ∃ a, named a ∧ spells a t))
    {place : Option Tree} (ho : ∀ t, place = some t → t.Ordered) :
    (∀ t, place = some t → (Schema.list items).violations t = []) ↔
      ∃ as, (∀ a ∈ as, named a) ∧ SpellsList spells as place := by
  cases place with
  | none =>
    constructor
    · intro _
      exact ⟨[], by simp, .absent⟩
    · simp
  | some t =>
    have ht := ho t rfl
    simp only [Option.some.injEq, forall_eq', Schema.list_conforms_iff]
    constructor
    · intro h
      rcases h with ⟨ts, rfl, hts⟩
      cases ht with
      | arr hordered =>
        have hall : ∀ u ∈ ts, ∃ a, named a ∧ spells a u := fun u hu =>
          (hi u (hordered u hu)).mp (hts u hu)
        obtain ⟨as, has, h⟩ := exists_forall₂.mp hall
        exact ⟨as, has, .present h⟩
    · intro h
      rcases h with ⟨as, has, h⟩
      cases h with
      | @present _ ts h =>
        cases ht with
        | arr hordered =>
          have hall := exists_forall₂.mpr ⟨as, has, h⟩
          exact ⟨ts, rfl, fun u hu => (hi u (hordered u hu)).mpr (hall u hu)⟩

end Conforming

theorem text_one_conforms_iff {t : Tree} :
    (Schema.text 1).violations t = [] ↔ ∃ s, s ≠ "" ∧ t = .str s := by
  rw [Schema.text_conforms_iff]
  constructor
  · intro h
    rcases h with ⟨s, rfl, hs⟩
    refine ⟨s, ?_, rfl⟩
    rintro rfl
    simp at hs
  · intro h
    rcases h with ⟨s, hs, rfl⟩
    refine ⟨s, rfl, ?_⟩
    have hlen : s.length ≠ 0 := by simpa using hs
    omega

theorem Property.conforms_iff {t : Tree} (ht : t.Ordered) :
    Schema.property.violations t = [] ↔ ∃ p : Property, p.Named ∧ p.Spelled t := by
  unfold Schema.property
  rw [Schema.pair_conforms_iff (by decide) ht]
  constructor
  · intro h
    rcases h with ⟨x, y, rfl, hrequired, hname, hvalue⟩
    simp only [List.forall_mem_cons, Keyed.lookup_pair_left, Keyed.lookup_pair_right, ne_eq,
      String.reduceEq, not_false_eq_true, Option.isSome_iff_exists] at hrequired
    rcases hrequired with ⟨⟨u, rfl⟩, ⟨v, rfl⟩, -⟩
    obtain ⟨name, hn, rfl⟩ := text_one_conforms_iff.mp (hname u rfl)
    obtain ⟨value, rfl, -⟩ := Schema.text_conforms_iff.mp (hvalue v rfl)
    exact ⟨⟨name, value⟩, hn, rfl⟩
  · intro h
    rcases h with ⟨⟨name, value⟩, hn, rfl⟩
    refine ⟨some (.str name), some (.str value), rfl, by simp [Keyed.lookup, Keyed.pair,
      Keyed.optional], ?_, ?_⟩
    · intro u hu
      cases hu
      exact text_one_conforms_iff.mpr ⟨name, hn, rfl⟩
    · intro u hu
      cases hu
      exact Schema.text_conforms_iff.mpr ⟨value, rfl, Nat.zero_le _⟩

theorem ProviderEntry.conforms_iff {t : Tree} (ht : t.Ordered) :
    Schema.provider.violations t = [] ↔ ∃ e : ProviderEntry, e.Named ∧ e.Spelled t := by
  unfold Schema.provider
  rw [Schema.pair_conforms_iff (by decide) ht]
  constructor
  · intro h
    rcases h with ⟨x, y, rfl, hrequired, hextension, hlist⟩
    simp only [List.forall_mem_cons, Keyed.lookup_pair_left, ne_eq, String.reduceEq,
      not_false_eq_true, Option.isSome_iff_exists] at hrequired
    rcases hrequired with ⟨⟨u, rfl⟩, -⟩
    obtain ⟨extension, hx, rfl⟩ := text_one_conforms_iff.mp (hextension u rfl)
    rcases (list_place_conforms_iff (fun t ht => Property.conforms_iff ht) fun t h =>
      ht.of_lookup ((Keyed.lookup_pair_right (by decide)).trans h)).mp hlist with
      ⟨properties, hnamed, hspelled⟩
    exact ⟨⟨extension, properties⟩, ⟨hx, hnamed⟩, y, hspelled, rfl⟩
  · intro h
    rcases h with ⟨⟨extension, properties⟩, ⟨hx, hnamed⟩, y, hspelled, rfl⟩
    refine ⟨some (.str extension), y, rfl, by simp [Keyed.lookup_pair_left], ?_, ?_⟩
    · intro u hu
      cases hu
      exact text_one_conforms_iff.mpr ⟨extension, hx, rfl⟩
    · exact (list_place_conforms_iff (fun t ht => Property.conforms_iff ht) fun t h =>
        ht.of_lookup ((Keyed.lookup_pair_right (by decide)).trans h)).mpr
        ⟨properties, hnamed, hspelled⟩

theorem ProvidersDocument.conforms_iff {t : Tree} (ht : t.Ordered) :
    Schema.providers.violations t = [] ↔ ∃ d : ProvidersDocument, d.Named ∧ d.Spelled t := by
  unfold Schema.providers
  rw [Schema.pair_conforms_iff (by decide) ht]
  constructor
  · intro h
    rcases h with ⟨x, y, rfl, -, hlist, hprovider⟩
    rcases (list_place_conforms_iff (fun t ht => ProviderEntry.conforms_iff ht) fun t h =>
      ht.of_lookup ((Keyed.lookup_pair_left (by decide)).trans h)).mp hlist with
      ⟨hooks, hnamed, hspelled⟩
    have hy : ∀ u, y = some u → u.Ordered := fun u hu =>
      ht.of_lookup ((Keyed.lookup_pair_right (by decide)).trans hu)
    cases y with
    | none => exact ⟨⟨none, hooks⟩, ⟨by simp, hnamed⟩, x, none, hspelled, .none, rfl⟩
    | some u =>
      obtain ⟨e, he, hu⟩ := (ProviderEntry.conforms_iff (hy u rfl)).mp (hprovider u rfl)
      refine ⟨⟨some e, hooks⟩, ⟨?_, hnamed⟩, x, some u, hspelled, .some hu, rfl⟩
      intro u hu
      cases hu
      exact he
  · intro h
    rcases h with ⟨⟨persistence, hooks⟩, ⟨hpnamed, hnamed⟩, x, y, hspelled, hpspelled, rfl⟩
    refine ⟨x, y, rfl, by simp, ?_, ?_⟩
    · exact (list_place_conforms_iff (fun t ht => ProviderEntry.conforms_iff ht) fun t h =>
        ht.of_lookup ((Keyed.lookup_pair_left (by decide)).trans h)).mpr ⟨hooks, hnamed, hspelled⟩
    · rintro u rfl
      cases hpspelled with
      | @some e _ he =>
        have hu := ht.of_lookup (Keyed.lookup_pair_right (a := "hook_provider") (by decide))
        exact (ProviderEntry.conforms_iff hu).mpr ⟨e, hpnamed e rfl, he⟩

end Provisioning
