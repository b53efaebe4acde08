import Provisioning.Proofs.Document.Spelling

/-!
# Which trees are read as a document

A tree in which no record is written as a list, and whose persistence provider is not a null, is read as
the document that it spells and as no other.
-/

namespace Provisioning

variable {α : Type}

namespace Tree

def member? (key : String) : Tree → Option Tree
  | .obj entries => Keyed.lookup key entries
  | _ => none

def itemsAt (key : String) (t : Tree) : List Tree :=
  match t.member? key with
  | some (.arr items) => items
  | _ => []

end Tree

theorem Tree.itemsAt_obj {entries : List (String × Tree)} {key : String} {ts : List Tree}
    (h : Keyed.lookup key entries = some (.arr ts)) : (Tree.obj entries).itemsAt key = ts := by
  simp [itemsAt, member?, h]

def ProviderEntry.places (t : Tree) : List Tree :=
  t :: t.itemsAt "property"

def ProvidersDocument.places (t : Tree) : List Tree :=
  t :: ((t.member? "persistence_provider").toList ++ t.itemsAt "hook_provider").flatMap
    ProviderEntry.places

theorem forall₂_imp_of_mem {β : Type} {R S : α → β → Prop} {as : List α} {bs : List β}
    (himp : ∀ b ∈ bs, ∀ a, R a b → S a b) (h : List.Forall₂ R as bs) : List.Forall₂ S as bs := by
  induction h with
  | nil => exact .nil
  | cons hab _ ih =>
    have hall := List.forall_mem_cons.mp himp
    exact .cons (hall.1 _ hab) (ih hall.2)

/-- If items are read as what they spell, so are the lists of them, and a list that is left out is read
as the empty one. -/
theorem list_place_read_iff {read : Tree → Except DecodeError α} {spells : α → Tree → Prop}
    {place : Option Tree} {as : List α}
    (h : ∀ ts, place = some (.arr ts) → ∀ u ∈ ts, ∀ a, read u = .ok a ↔ spells a u) :
    SpellsList spells as place ↔
      (place = none ∧ as = []) ∨ ∃ t, place = some t ∧ t.readList read = .ok as := by
  constructor
  · intro hs
    cases hs with
    | absent => exact .inl ⟨rfl, rfl⟩
    | @present _ ts hts =>
      have hread := forall₂_imp_of_mem (fun u hu a => (h ts rfl u hu a).mpr) hts
      exact .inr ⟨_, rfl, Tree.readList_eq_ok_iff.mpr ⟨ts, rfl, hread⟩⟩
  · intro h
    rcases h with ⟨rfl, rfl⟩ | ⟨t, rfl, ht⟩
    · exact .absent
    · obtain ⟨ts, rfl, hts⟩ := Tree.readList_eq_ok_iff.mp ht
      exact .present (forall₂_imp_of_mem (fun u hu a => (h ts rfl u hu a).mp) hts)

section Absent

variable {x y : Option Tree}

theorem Property.absent?_eq_none_iff :
    Property.record.absent? (Keyed.pair "name" x "value" y) = none ↔
      x.isSome = true ∧ y.isSome = true := by
  cases x <;> cases y <;>
    simp [Record.absent?, record, Keyed.lookup_pair_left, Keyed.lookup_pair_right]

theorem ProviderEntry.absent?_eq_none_iff :
    ProviderEntry.record.absent? (Keyed.pair "extension" x "property" y) = none ↔
      x.isSome = true := by
  cases x <;> simp [Record.absent?, record, Keyed.lookup_pair_left]

theorem ProvidersDocument.absent?_eq_none (entries : List (String × Tree)) :
    ProvidersDocument.record.absent? entries = none := by
  simp [Record.absent?, record]

end Absent

theorem Property.read_iff {t : Tree} (ht : t.Ordered) (hl : t.isList = false) {p : Property} :
    Property.record.read t = .ok p ↔ p.Spelled t := by
  rw [Record.read_pair_iff (b := "name") (c := "value") (by decide) rfl rfl
    (by simp [Property.record]) ht hl]
  simp only [absent?_eq_none_iff, Option.isSome_iff_exists]
  constructor
  · intro h
    rcases h with ⟨_, _, rfl, ⟨⟨u, rfl⟩, ⟨v, rfl⟩⟩, draft, hname, hvalue⟩
    simp only [Field.readPlace, bind_pure_comp, map_eq_ok_iff, Tree.readText_eq_ok_iff] at hname hvalue
    rcases hname with ⟨name, rfl, rfl⟩
    rcases hvalue with ⟨value, rfl, rfl⟩
    rfl
  · intro h
    rw [h]
    exact ⟨_, _, rfl, ⟨⟨.str p.name, rfl⟩, ⟨.str p.value, rfl⟩⟩, ⟨p.name, ""⟩, rfl, rfl⟩

section Places

variable {x y : Option Tree}

theorem ProviderEntry.properties_read_iff
    (ht : (Tree.obj (Keyed.pair "extension" x "property" y)).Ordered)
    (hl : ∀ u ∈ places (.obj (Keyed.pair "extension" x "property" y)), u.isList = false)
    (ps : List Property) :
    SpellsList Property.Spelled ps y ↔
      (y = none ∧ ps = []) ∨ ∃ v, y = some v ∧ v.readList Property.record.read = .ok ps := by
  apply list_place_read_iff
  intro ts hy u hu p
  subst hy
  have hm := Keyed.lookup_pair_right (a := "extension") (b := "property") (x := x)
    (y := some (Tree.arr ts)) (by decide)
  have hitem : u ∈ places (.obj (Keyed.pair "extension" x "property" (some (.arr ts)))) := by
    rw [places, Tree.itemsAt_obj hm]
    exact List.mem_cons_of_mem _ hu
  cases ht.of_lookup hm with
  | arr hordered => exact Property.read_iff (hordered u hu) (hl u hitem)

theorem ProviderEntry.read_iff {t : Tree} (ht : t.Ordered)
    (hl : ∀ u ∈ ProviderEntry.places t, u.isList = false) {e : ProviderEntry} :
    ProviderEntry.record.read t = .ok e ↔ e.Spelled t := by
  rw [Record.read_pair_iff (b := "extension") (c := "property") (by decide) rfl rfl
    (by simp [ProviderEntry.record]) ht (hl t List.mem_cons_self)]
  simp only [absent?_eq_none_iff, Option.isSome_iff_exists]
  constructor
  · intro h
    rcases h with ⟨_, y, rfl, ⟨u, rfl⟩, draft, hextension, hlist⟩
    simp only [Field.readPlace, bind_pure_comp, map_eq_ok_iff, Tree.readText_eq_ok_iff] at hextension
    rcases hextension with ⟨extension, rfl, rfl⟩
    obtain ⟨ps, hps, rfl⟩ := (Field.readPlace_iff (fun e ps => ⟨e.extension, ps⟩) [] rfl rfl).mp hlist
    exact ⟨y, (properties_read_iff ht hl ps).mpr hps, rfl⟩
  · intro h
    rcases h with ⟨y, hspelled, rfl⟩
    refine ⟨_, y, rfl, ⟨.str e.extension, rfl⟩, ⟨e.extension, []⟩, rfl, ?_⟩
    exact (Field.readPlace_iff (fun e ps => ⟨e.extension, ps⟩) [] rfl rfl).mpr
      ⟨e.properties, (properties_read_iff ht hl _).mp hspelled, rfl⟩

theorem ProvidersDocument.hooks_read_iff
    (ht : (Tree.obj (Keyed.pair "hook_provider" x "persistence_provider" y)).Ordered)
    (hl : ∀ u ∈ places (.obj (Keyed.pair "hook_provider" x "persistence_provider" y)),
      u.isList = false)
    (es : List ProviderEntry) :
    SpellsList ProviderEntry.Spelled es x ↔
      (x = none ∧ es = []) ∨ ∃ v, x = some v ∧ v.readList ProviderEntry.record.read = .ok es := by
  apply list_place_read_iff
  intro ts hx u hu e
  subst hx
  have hm := Keyed.lookup_pair_left (a := "hook_provider") (b := "persistence_provider")
    (x := some (Tree.arr ts)) (y := y) (by decide)
  cases ht.of_lookup hm with
  | arr hordered =>
    apply ProviderEntry.read_iff (hordered u hu)
    intro w hw
    apply hl
    rw [places, Tree.itemsAt_obj hm]
    exact List.mem_cons_of_mem _ (List.mem_flatMap.mpr ⟨u, List.mem_append_right _ hu, hw⟩)

theorem ProvidersDocument.persistence_read_iff {v : Tree}
    (ht : (Tree.obj (Keyed.pair "hook_provider" x "persistence_provider" (some v))).Ordered)
    (hl : ∀ u ∈ places (.obj (Keyed.pair "hook_provider" x "persistence_provider" (some v))),
      u.isList = false)
    (e : ProviderEntry) : ProviderEntry.record.read v = .ok e ↔ e.Spelled v := by
  have hm := Keyed.lookup_pair_right (a := "hook_provider") (b := "persistence_provider")
    (x := x) (y := some v) (by decide)
  apply ProviderEntry.read_iff (ht.of_lookup hm)
  intro w hw
  apply hl
  rw [places, Tree.member?, hm]
  refine List.mem_cons_of_mem _ (List.mem_flatMap.mpr ⟨v, ?_, hw⟩)
  exact List.mem_append_left _ (by simp)

theorem ProvidersDocument.read_iff {t : Tree} (ht : t.Ordered)
    (hl : ∀ u ∈ ProvidersDocument.places t, u.isList = false)
    (hn : t.member? "persistence_provider" ≠ some .null) {d : ProvidersDocument} :
    ProvidersDocument.read t = .ok d ↔ d.Spelled t := by
  unfold ProvidersDocument.read
  rw [Record.read_pair_iff (b := "hook_provider") (c := "persistence_provider") (by decide) rfl rfl
    (by simp [ProvidersDocument.record]) ht (hl t List.mem_cons_self)]
  have hnull : ∀ x v, t = .obj (Keyed.pair "hook_provider" x "persistence_provider" (some v)) →
      v ≠ .null := by
    intro x v htree hv
    apply hn
    rw [htree, Tree.member?, Keyed.lookup_pair_right (by decide), hv]
  constructor
  · intro h
    rcases h with ⟨x, y, rfl, -, draft, hhooks, hpersistence⟩
    obtain ⟨hooks, hh, rfl⟩ := (Field.readPlace_iff (fun d es => ⟨d.persistence, es⟩) [] rfl rfl).mp hhooks
    obtain ⟨persistence, hp, rfl⟩ := (Field.readPlace_iff (fun d e => ⟨e, d.hooks⟩) none rfl rfl).mp
      hpersistence
    have hspelled := (hooks_read_iff ht hl hooks).mpr hh
    rcases hp with ⟨rfl, rfl⟩ | ⟨v, rfl, hv⟩
    · exact ⟨x, none, hspelled, .none, rfl⟩
    · rcases Tree.readOptional_eq_ok_iff.mp hv with ⟨hv, -⟩ | ⟨-, e, he, rfl⟩
      · exact (hnull _ v rfl hv).elim
      · exact ⟨x, some v, hspelled, .some ((persistence_read_iff ht hl e).mp he), rfl⟩
  · intro h
    rcases h with ⟨x, y, hspelled, hpspelled, rfl⟩
    rcases d with ⟨persistence, hooks⟩
    refine ⟨x, y, rfl, absent?_eq_none _, ⟨none, hooks⟩, ?_, ?_⟩
    · exact (Field.readPlace_iff (fun d es => ⟨d.persistence, es⟩) [] rfl rfl).mpr
        ⟨hooks, (hooks_read_iff ht hl _).mp hspelled, rfl⟩
    · refine (Field.readPlace_iff (fun d e => ⟨e, d.hooks⟩) none rfl rfl).mpr ⟨persistence, ?_, rfl⟩
      cases hpspelled with
      | none => exact .inl ⟨rfl, rfl⟩
      | @some e v he =>
        have hread := (persistence_read_iff ht hl e).mpr he
        exact .inr ⟨v, rfl, Tree.readOptional_eq_ok_iff.mpr (.inr ⟨hnull _ v rfl, e, hread, rfl⟩)⟩

end Places

end Provisioning
