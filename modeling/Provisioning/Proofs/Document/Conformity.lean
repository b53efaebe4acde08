import Provisioning.Document.Loading
import Provisioning.Proofs.Document.Reading
import Provisioning.Proofs.Store.Ordered

/-!
# Conforming trees and documents

A tree conforms to the schema if and only if it is read as a document without empty names, none of its
records is a list and its persistence provider is not a null. Such a tree is what the document is written
as, but for lists that it gives although they are empty.
-/

namespace Provisioning

variable {α : Type}

namespace Tree

def isIdle (key : String) : Tree → Bool
  | .arr [] => key = "hook_provider" || key = "property"
  | _ => false

mutual

/-- A tree without the lists that say nothing. -/
def prune : Tree → Tree
  | .arr items => .arr (pruneItems items)
  | .obj entries => .obj (pruneEntries entries)
  | t => t

def pruneItems : List Tree → List Tree
  | [] => []
  | t :: rest => prune t :: pruneItems rest

def pruneEntries : List (String × Tree) → List (String × Tree)
  | [] => []
  | (key, t) :: rest =>
    if isIdle key t then pruneEntries rest else (key, prune t) :: pruneEntries rest

end

theorem isIdle_eq_false (key : String) {t : Tree} (h : t.isList = false) : isIdle key t = false := by
  cases t with
  | arr => cases h
  | _ => rfl

theorem pruneEntries_append (xs ys : List (String × Tree)) :
    pruneEntries (xs ++ ys) = pruneEntries xs ++ pruneEntries ys := by
  induction xs with
  | nil => rfl
  | cons e xs ih =>
    rcases e with ⟨key, t⟩
    rw [List.cons_append, pruneEntries, pruneEntries, ih]
    split <;> rfl

theorem pruneItems_eq_map {spells : α → Tree → Prop} {toTree : α → Tree} {as : List α}
    {ts : List Tree} (h : List.Forall₂ spells as ts) (hp : ∀ a t, spells a t → t.prune = toTree a) :
    pruneItems ts = as.map toTree := by
  induction h with
  | nil => rfl
  | cons hat _ ih => rw [pruneItems, hp _ _ hat, ih, List.map_cons]

end Tree

section Spelled

variable {spells : α → Tree → Prop} {as : List α} {place : Option Tree}

theorem exists_of_forall₂ {ts : List Tree} (h : List.Forall₂ spells as ts) :
    ∀ t ∈ ts, ∃ a, spells a t := by
  induction h with
  | nil => simp
  | cons hat _ ih => exact List.forall_mem_cons.mpr ⟨⟨_, hat⟩, ih⟩

theorem exists_of_mem_itemsAt {entries : List (String × Tree)} {key : String}
    (hs : SpellsList spells as place) (hm : Keyed.lookup key entries = place) :
    ∀ u ∈ (Tree.obj entries).itemsAt key, ∃ a, spells a u := by
  cases hs with
  | absent => simp [Tree.itemsAt, Tree.member?, hm]
  | present h =>
    rw [Tree.itemsAt_obj hm]
    exact exists_of_forall₂ h

theorem pruneEntries_optional {toTree : α → Tree} {key : String} (hs : SpellsList spells as place)
    (hp : ∀ a t, spells a t → t.prune = toTree a) (hkey : Tree.isIdle key (.arr []) = true) :
    Tree.pruneEntries (Keyed.optional key place) = listEntry key toTree as := by
  cases hs with
  | absent => rfl
  | @present _ ts h =>
    have hitems := Tree.pruneItems_eq_map h hp
    cases h with
    | nil => simp [Keyed.optional, Tree.pruneEntries, hkey, listEntry]
    | cons => simp [Keyed.optional, Tree.pruneEntries, Tree.isIdle, Tree.prune, hitems, listEntry]

end Spelled

namespace Property

variable {p : Property} {t : Tree}

theorem Spelled.isList_eq (h : p.Spelled t) : t.isList = false := by
  rw [h]
  rfl

theorem Spelled.prune_eq (h : p.Spelled t) : t.prune = p.toTree := by
  rw [h]
  simp [toTree, Tree.prune, Tree.pruneEntries, Tree.isIdle]

end Property

namespace ProviderEntry

variable {e : ProviderEntry} {t : Tree}

theorem Spelled.isList_eq (h : e.Spelled t) : ∀ u ∈ places t, u.isList = false := by
  rcases h with ⟨y, hs, rfl⟩
  refine List.forall_mem_cons.mpr ⟨rfl, ?_⟩
  intro u hu
  obtain ⟨p, hp⟩ := exists_of_mem_itemsAt hs (Keyed.lookup_pair_right (by decide)) u hu
  exact hp.isList_eq

theorem Spelled.prune_eq (h : e.Spelled t) : t.prune = e.toTree := by
  rcases h with ⟨y, hs, rfl⟩
  have hlist : Tree.pruneEntries (Keyed.optional "property" y) =
      listEntry "property" Property.toTree e.properties :=
    pruneEntries_optional hs (fun p u hp => hp.prune_eq) rfl
  rw [Tree.prune, Keyed.pair, Tree.pruneEntries_append, hlist]
  simp [toTree, Keyed.optional, Tree.pruneEntries, Tree.prune, Tree.isIdle]

end ProviderEntry

namespace ProvidersDocument

variable {d : ProvidersDocument} {t : Tree}

theorem Spelled.isList_eq (h : d.Spelled t) : ∀ u ∈ places t, u.isList = false := by
  rcases d with ⟨persistence, hooks⟩
  rcases h with ⟨x, y, hs, hp, rfl⟩
  refine List.forall_mem_cons.mpr ⟨rfl, ?_⟩
  intro u hu
  obtain ⟨v, hv, hu⟩ := List.mem_flatMap.mp hu
  have hspelled : ∃ e : ProviderEntry, e.Spelled v := by
    rcases List.mem_append.mp hv with hv | hv
    · rw [Tree.member?, Keyed.lookup_pair_right (by decide)] at hv
      cases hp with
      | none => simp at hv
      | some he =>
        have hvt := Option.some.inj (Option.mem_toList.mp hv)
        rw [← hvt]
        exact ⟨_, he⟩
    · exact exists_of_mem_itemsAt hs (Keyed.lookup_pair_left (by decide)) v hv
  rcases hspelled with ⟨e, he⟩
  exact he.isList_eq u hu

theorem Spelled.member_ne_null (h : d.Spelled t) :
    t.member? "persistence_provider" ≠ some .null := by
  rcases d with ⟨persistence, hooks⟩
  rcases h with ⟨x, y, hs, hp, rfl⟩
  rw [Tree.member?, Keyed.lookup_pair_right (by decide)]
  cases hp with
  | none => simp
  | some he =>
    rcases he with ⟨z, -, rfl⟩
    simp

theorem Spelled.prune_eq (h : d.Spelled t) : t.prune = d.toTree := by
  rcases h with ⟨x, y, hs, hp, rfl⟩
  have hlist : Tree.pruneEntries (Keyed.optional "hook_provider" x) = d.hooksEntry :=
    pruneEntries_optional hs (fun e u he => he.prune_eq) rfl
  rw [Tree.prune, Keyed.pair, Tree.pruneEntries_append, hlist]
  rcases d with ⟨persistence, hooks⟩
  cases hp with
  | none => rfl
  | some he =>
    have hidle := Tree.isIdle_eq_false "persistence_provider" (he.isList_eq _ List.mem_cons_self)
    rw [Keyed.optional, Tree.pruneEntries, hidle, he.prune_eq]
    rfl

theorem conforms_iff_read (ht : t.Ordered) :
    Schema.providers.violations t = [] ↔
      ∃ d, read t = .ok d ∧ (∀ u ∈ places t, u.isList = false) ∧
        t.member? "persistence_provider" ≠ some .null ∧ d.Named := by
  rw [conforms_iff ht]
  constructor
  · intro h
    rcases h with ⟨d, hnamed, hs⟩
    have hread := (read_iff ht hs.isList_eq hs.member_ne_null).mpr hs
    exact ⟨d, hread, hs.isList_eq, hs.member_ne_null, hnamed⟩
  · intro h
    rcases h with ⟨d, hread, hl, hn, hnamed⟩
    exact ⟨d, hnamed, (read_iff ht hl hn).mp hread⟩

/-- A tree that conforms says no more than the document that it is read as. -/
theorem toTree_eq_prune (ht : t.Ordered) (h : Schema.providers.violations t = [])
    (hread : read t = .ok d) : d.toTree = t.prune := by
  obtain ⟨d', -, hs⟩ := (conforms_iff ht).mp h
  have hread' := (read_iff ht hs.isList_eq hs.member_ne_null).mpr hs
  obtain rfl : d = d' := Except.ok.inj (hread.symm.trans hread')
  exact hs.prune_eq.symm

theorem validate_eq_ok_iff {path : Path} :
    validate path t = .ok () ↔ Schema.providers.violations t = [] := by
  unfold validate
  split
  next h => simp [h]
  next h => exact ⟨nofun, fun hv => (h hv).elim⟩

theorem read_of_validate (ht : t.Ordered) {path : Path} (h : validate path t = .ok ()) :
    ∃ d, read t = .ok d ∧ d.Named := by
  obtain ⟨d, hread, -, -, hnamed⟩ := (conforms_iff_read ht).mp (validate_eq_ok_iff.mp h)
  exact ⟨d, hread, hnamed⟩

theorem load_result {store : Store} {path : Path} {t : Tree}
    (h : (store.readTree path).result = .ok t) :
    (load store path).result = interpret path t := by
  unfold load
  dsimp only
  split
  next e he =>
    rw [h] at he
    cases he
  next t' ht' =>
    obtain rfl : t = t' := Except.ok.inj (h.symm.trans ht')
    cases interpret path t <;> rfl

theorem load_of_validate {store : Store} {path : Path} {t : Tree}
    (h : (store.readTree path).result = .ok t) (hv : validate path t = .ok ()) :
    ∃ d, read t = .ok d ∧ d.Named ∧ (load store path).result = .ok d := by
  obtain ⟨d, hread, hnamed⟩ := read_of_validate (Store.readTree_ordered h) hv
  refine ⟨d, hread, hnamed, ?_⟩
  rw [load_result h, interpret, hv, hread]
  rfl

theorem named_of_load {store : Store} {path : Path} (h : (load store path).result = .ok d) :
    d.Named := by
  cases ht : (store.readTree path).result with
  | error e =>
    unfold load at h
    simp [ht] at h
  | ok t =>
    cases hv : validate path t with
    | error e =>
      rw [load_result ht, interpret, hv] at h
      cases h
    | ok =>
      obtain ⟨d', -, hnamed, hload⟩ := load_of_validate ht hv
      obtain rfl : d = d' := Except.ok.inj (h.symm.trans hload)
      exact hnamed

/-- The schema and the reading of documents agree. -/
theorem conforming_iff_readable :
    (∀ t : Tree, t.Ordered →
      (Schema.providers.violations t = [] ↔
        ∃ d, read t = .ok d ∧ (∀ u ∈ places t, u.isList = false) ∧
          t.member? "persistence_provider" ≠ some .null ∧ d.Named) ∧
      (Schema.providers.violations t = [] → ∀ d, read t = .ok d → d.toTree = t.prune)) ∧
    ∀ (store : Store) (path : Path),
      (∀ t, (store.readTree path).result = .ok t → validate path t = .ok () →
        ∃ d, read t = .ok d ∧ (load store path).result = .ok d) ∧
      ∀ d, (load store path).result = .ok d → d.Named := by
  refine ⟨?_, ?_⟩
  · intro t ht
    refine ⟨conforms_iff_read ht, ?_⟩
    intro h d hread
    exact toTree_eq_prune ht h hread
  · intro store path
    refine ⟨?_, ?_⟩
    · intro t h hv
      obtain ⟨d, hread, -, hload⟩ := load_of_validate h hv
      exact ⟨d, hread, hload⟩
    · intro d h
      exact named_of_load h

def wordy : Tree :=
  .obj [("hook_provider", .arr []),
    ("persistence_provider", .obj [("extension", .str "store"), ("property", .arr [])])]

theorem conforming_iff_readable_wordy :
    wordy.Ordered ∧ Schema.providers.violations wordy = [] ∧
      ∃ d, read wordy = .ok d ∧ d.Named ∧
        d.toTree = .obj [("persistence_provider", .obj [("extension", .str "store")])] := by
  have hprovider : (Tree.obj [("extension", .str "store"), ("property", .arr [])]).Ordered := by
    refine .obj (List.pairwise_pair.mpr (by decide)) ?_
    exact List.forall_mem_cons.mpr ⟨.str _, List.forall_mem_singleton.mpr (.arr nofun)⟩
  have hordered : wordy.Ordered := by
    refine .obj (List.pairwise_pair.mpr (by decide)) ?_
    exact List.forall_mem_cons.mpr ⟨.arr nofun, List.forall_mem_singleton.mpr hprovider⟩
  have hconforms : Schema.providers.violations wordy = [] := by rfl
  have hagree := conforming_iff_readable.1 wordy hordered
  obtain ⟨d, hread, -, -, hnamed⟩ := hagree.1.mp hconforms
  exact ⟨hordered, hconforms, d, hread, hnamed, hagree.2 hconforms d hread⟩

end ProvidersDocument

end Provisioning
