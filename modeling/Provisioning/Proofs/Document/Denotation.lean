import Provisioning.Proofs.Document.RoundTrip

/-!
# The trees that denote a document

Wherever a record stands in a tree, it may be written as an object or as a list. A tree denotes a
document by what it gives for each field, in either manner and with any mixture of both, and by nothing
else. The trees that denote a document are those that are read, and each is read as what it denotes.
-/

namespace Provisioning

variable {α : Type} {t : Tree}

/-- A value that may be lacking is denoted by nothing or by a null if it is, and else by what spells it. -/
inductive SpellsOption (spells : α → Tree → Prop) : Option α → Option Tree → Prop where
  | absent : SpellsOption spells none none
  | null : SpellsOption spells none (some .null)
  | present {a : α} {t : Tree} (h : spells a t) : SpellsOption spells (some a) (some t)

def Property.Denoted (p : Property) (t : Tree) : Prop :=
  t.Gives "name" "value" (some (.str p.name)) (some (.str p.value))

def ProviderEntry.Denoted (e : ProviderEntry) (t : Tree) : Prop :=
  ∃ properties, SpellsList Property.Denoted e.properties properties ∧
    t.Gives "extension" "property" (some (.str e.extension)) properties

def ProvidersDocument.Denoted (d : ProvidersDocument) (t : Tree) : Prop :=
  ∃ persistence hooks, SpellsOption ProviderEntry.Denoted d.persistence persistence ∧
    SpellsList ProviderEntry.Denoted d.hooks hooks ∧
    t.Gives "persistence_provider" "hook_provider" persistence hooks

/-! ## What is read -/

theorem Property.read_iff_denoted (ht : t.Ordered) {p : Property} :
    Property.record.read t = .ok p ↔ p.Denoted t := by
  rw [Record.read_gives_iff rfl (by decide) (fun h => absurd h (by decide)) ht]
  constructor
  · rintro ⟨x, y, hg, hx, hy, between, hname, hvalue⟩
    cases x with
    | none => cases hx rfl
    | some u =>
      cases y with
      | none => cases hy rfl
      | some v =>
        simp only [Field.readPlace, bind_pure_comp, map_eq_ok_iff, Tree.readText_eq_ok_iff]
          at hname hvalue
        rcases hname with ⟨name, rfl, rfl⟩
        rcases hvalue with ⟨value, rfl, rfl⟩
        exact hg
  · intro hg
    exact ⟨_, _, hg, by simp, by simp, ⟨p.name, ""⟩, rfl, rfl⟩

/-- A place for a list is read item by item, if its items are read as what they denote. -/
theorem list_place_read_iff_of_ordered {read : Tree → Except DecodeError α}
    {denoted : α → Tree → Prop} {place : Option Tree}
    (hr : ∀ t : Tree, t.Ordered → ∀ a, read t = .ok a ↔ denoted a t)
    (ho : ∀ t, place = some t → t.Ordered) {as : List α} :
    SpellsList denoted as place ↔
      (place = none ∧ as = []) ∨ ∃ t, place = some t ∧ t.readList read = .ok as := by
  apply list_place_read_iff
  intro ts hts u hu a
  cases ho _ hts with
  | arr hi => exact hr u (hi u hu) a

theorem ProviderEntry.read_iff_denoted (ht : t.Ordered) {e : ProviderEntry} :
    ProviderEntry.record.read t = .ok e ↔ e.Denoted t := by
  rw [Record.read_gives_iff rfl (by decide) (fun h => absurd h (by decide)) ht]
  have hplace : ∀ {x y : Option Tree} {ps : List Property}, t.Gives "extension" "property" x y →
      (SpellsList Property.Denoted ps y ↔
        (y = none ∧ ps = []) ∨ ∃ v, y = some v ∧ v.readList Property.record.read = .ok ps) :=
    fun hg => list_place_read_iff_of_ordered (fun _ hu _ => Property.read_iff_denoted hu)
      (hg.ordered ht).2
  constructor
  · rintro ⟨x, y, hg, hx, -, between, hextension, hproperties⟩
    cases x with
    | none => cases hx rfl
    | some u =>
      simp only [Field.readPlace, bind_pure_comp, map_eq_ok_iff, Tree.readText_eq_ok_iff]
        at hextension
      rcases hextension with ⟨extension, rfl, rfl⟩
      obtain ⟨ps, hps, rfl⟩ := (Field.readPlace_iff (fun e ps => ⟨e.extension, ps⟩) [] rfl rfl).mp
        hproperties
      exact ⟨y, (hplace hg).mpr hps, hg⟩
  · rintro ⟨y, hs, hg⟩
    refine ⟨_, y, hg, by simp, fun _ => rfl, ⟨e.extension, []⟩, rfl, ?_⟩
    exact (Field.readPlace_iff (fun e ps => ⟨e.extension, ps⟩) [] rfl rfl).mpr
      ⟨e.properties, (hplace hg).mp hs, rfl⟩

theorem option_place_read_iff {place : Option Tree} (ho : ∀ t, place = some t → t.Ordered)
    {e : Option ProviderEntry} :
    SpellsOption ProviderEntry.Denoted e place ↔
      (place = none ∧ e = none) ∨
        ∃ t, place = some t ∧ t.readOptional ProviderEntry.record.read = .ok e := by
  cases place with
  | none =>
    constructor
    · intro h
      cases h
      exact .inl ⟨rfl, rfl⟩
    · rintro (⟨-, rfl⟩ | ⟨t, ht, -⟩)
      · exact .absent
      · cases ht
  | some t =>
    have ht := ho t rfl
    simp only [reduceCtorEq, false_and, false_or, Option.some.injEq, exists_eq_left',
      Tree.readOptional_eq_ok_iff]
    constructor
    · intro h
      cases h with
      | null => exact .inl ⟨rfl, rfl⟩
      | present h =>
        refine .inr ⟨?_, _, (ProviderEntry.read_iff_denoted ht).mpr h, rfl⟩
        rintro rfl
        obtain ⟨_, -, hg⟩ := h
        cases hg
    · rintro (⟨rfl, rfl⟩ | ⟨-, b, hb, rfl⟩)
      · exact .null
      · exact .present ((ProviderEntry.read_iff_denoted ht).mp hb)

namespace ProvidersDocument

/-- The fields are read by their keys in objects and in another order in lists. -/
theorem fields_commute {first second : Field ProvidersDocument}
    (hr : record.fields = [first, second]) : first.Commutes second := by
  cases hr
  intro x y draft a
  cases x with
  | none => cases y <;> simp [Field.readPlace]
  | some u =>
    cases y with
    | none => simp [Field.readPlace]
    | some v =>
      simp only [Field.readPlace]
      cases u.readOptional ProviderEntry.record.read <;> cases v.readList ProviderEntry.record.read <;>
        simp [bind, Except.bind, pure, Except.pure]

theorem read_iff_denoted (ht : t.Ordered) {d : ProvidersDocument} : read t = .ok d ↔ d.Denoted t := by
  unfold read
  rw [Record.read_gives_iff rfl (by decide) (fun _ => fields_commute rfl) ht]
  have hpersistence : ∀ {x y : Option Tree} {e : Option ProviderEntry},
      t.Gives "persistence_provider" "hook_provider" x y →
      (SpellsOption ProviderEntry.Denoted e x ↔
        (x = none ∧ e = none) ∨
          ∃ u, x = some u ∧ u.readOptional ProviderEntry.record.read = .ok e) :=
    fun hg => option_place_read_iff (hg.ordered ht).1
  have hhooks : ∀ {x y : Option Tree} {es : List ProviderEntry},
      t.Gives "persistence_provider" "hook_provider" x y →
      (SpellsList ProviderEntry.Denoted es y ↔
        (y = none ∧ es = []) ∨ ∃ v, y = some v ∧ v.readList ProviderEntry.record.read = .ok es) :=
    fun hg => list_place_read_iff_of_ordered (fun _ hu _ => ProviderEntry.read_iff_denoted hu)
      (hg.ordered ht).2
  constructor
  · rintro ⟨x, y, hg, -, -, between, hx, hy⟩
    obtain ⟨e, he, rfl⟩ := (Field.readPlace_iff (fun d e => ⟨e, d.hooks⟩) none rfl rfl).mp hx
    obtain ⟨es, hes, rfl⟩ := (Field.readPlace_iff (fun d es => ⟨d.persistence, es⟩) [] rfl rfl).mp hy
    exact ⟨x, y, (hpersistence hg).mpr he, (hhooks hg).mpr hes, hg⟩
  · rintro ⟨x, y, hx, hy, hg⟩
    refine ⟨x, y, hg, fun _ => rfl, fun _ => rfl, ⟨d.persistence, []⟩, ?_, ?_⟩
    · exact (Field.readPlace_iff (fun d e => ⟨e, d.hooks⟩) none rfl rfl).mpr
        ⟨d.persistence, (hpersistence hg).mp hx, rfl⟩
    · exact (Field.readPlace_iff (fun d es => ⟨d.persistence, es⟩) [] rfl rfl).mpr
        ⟨d.hooks, (hhooks hg).mp hy, rfl⟩

end ProvidersDocument

/-! ## Documents written in any manner -/

/-- Which records are written as lists. -/
structure Manner where
  document : Bool := false
  provider : ProviderEntry → Bool := fun _ => false
  property : Property → Bool := fun _ => false

def Property.written (m : Manner) (p : Property) : Tree :=
  if m.property p then .arr [.str p.name, .str p.value] else p.toTree

def ProviderEntry.written (m : Manner) (e : ProviderEntry) : Tree :=
  let properties := listPlace (Property.written m) e.properties
  if m.provider e then .arr (.str e.extension :: properties.toList)
  else .obj (Keyed.pair "extension" (some (.str e.extension)) "property" properties)

def ProvidersDocument.written (m : Manner) (d : ProvidersDocument) : Tree :=
  let persistence := d.persistence.map (ProviderEntry.written m)
  let hooks := listPlace (ProviderEntry.written m) d.hooks
  if m.document then .arr (persistence.getD .null :: hooks.toList)
  else .obj (Keyed.pair "hook_provider" hooks "persistence_provider" persistence)

theorem Property.denoted_written (m : Manner) (p : Property) : p.Denoted (p.written m) := by
  unfold written
  split
  next => exact .both _ _
  next =>
    have hne : "name" ≠ "value" := by decide
    exact Tree.gives_pair hne (some (.str p.name)) (some (.str p.value))

theorem Property.written_ordered (m : Manner) (p : Property) : (p.written m).Ordered := by
  unfold written
  split
  next => exact .arr (List.forall_mem_cons.mpr ⟨.str _, List.forall_mem_singleton.mpr (.str _)⟩)
  next => exact p.toTree_ordered

theorem listPlace_ordered {write : α → Tree} (h : ∀ a, (write a).Ordered) (as : List α) :
    ∀ u, listPlace write as = some u → u.Ordered := by
  cases as with
  | nil => nofun
  | cons a as =>
    rintro u ⟨rfl⟩
    exact .arr (List.forall_mem_map.mpr fun a _ => h a)

theorem ProviderEntry.denoted_written (m : Manner) (e : ProviderEntry) : e.Denoted (e.written m) := by
  refine ⟨_, listPlace_spelled (Property.denoted_written m) e.properties, ?_⟩
  unfold written
  dsimp only
  split
  next => cases listPlace (Property.written m) e.properties <;> constructor
  next => exact Tree.gives_pair (by decide) _ _

theorem ProviderEntry.written_ordered (m : Manner) (e : ProviderEntry) : (e.written m).Ordered := by
  have hproperties := listPlace_ordered (Property.written_ordered m) e.properties
  unfold written
  dsimp only
  split
  next =>
    refine .arr (List.forall_mem_cons.mpr ⟨.str _, fun u hu => hproperties u ?_⟩)
    exact Option.mem_toList.mp hu
  next => exact Tree.ordered_pair (by decide) (by rintro u ⟨rfl⟩; exact .str _) hproperties

namespace ProvidersDocument

theorem denoted_written (m : Manner) (d : ProvidersDocument) : d.Denoted (d.written m) := by
  have hhooks := listPlace_spelled (ProviderEntry.denoted_written m) d.hooks
  have hpersistence : SpellsOption ProviderEntry.Denoted d.persistence
      (d.persistence.map (ProviderEntry.written m)) := by
    cases d.persistence with
    | none => exact .absent
    | some e => exact .present (e.denoted_written m)
  unfold written
  dsimp only
  split
  next =>
    refine ⟨some ((d.persistence.map (ProviderEntry.written m)).getD .null), _, ?_, hhooks, ?_⟩
    · cases hp : d.persistence with
      | none => exact .null
      | some e => exact .present (e.denoted_written m)
    · cases listPlace (ProviderEntry.written m) d.hooks <;> constructor
  next => exact ⟨_, _, hpersistence, hhooks, Tree.gives_pair_swapped (by decide) _ _⟩

theorem written_ordered (m : Manner) (d : ProvidersDocument) : (d.written m).Ordered := by
  have hhooks := listPlace_ordered (ProviderEntry.written_ordered m) d.hooks
  have hpersistence : ∀ u, d.persistence.map (ProviderEntry.written m) = some u → u.Ordered := by
    intro u hu
    obtain ⟨e, -, rfl⟩ := Option.map_eq_some_iff.mp hu
    exact e.written_ordered m
  unfold written
  dsimp only
  split
  next =>
    refine .arr (List.forall_mem_cons.mpr ⟨?_, fun u hu => hhooks u (Option.mem_toList.mp hu)⟩)
    cases hp : d.persistence.map (ProviderEntry.written m) with
    | none => exact .null
    | some u => exact hpersistence u hp
  next => exact Tree.ordered_pair (by decide) hhooks hpersistence

/-- A tree is read as a document if and only if it denotes it, whatever the manner in which the records
in it are written. -/
theorem read_iff_denotes :
    (∀ t : Tree, t.Ordered → ∀ d, read t = .ok d ↔ d.Denoted t) ∧
    (∀ t : Tree, t.Ordered → ((∃ e, read t = .error e) ↔ ∀ d : ProvidersDocument, ¬ d.Denoted t)) ∧
    (∀ (d : ProvidersDocument) (t t' : Tree), t.Ordered → t'.Ordered → d.Denoted t → d.Denoted t' →
      read t = read t') ∧
    ∀ (d : ProvidersDocument) (m : Manner), d.Denoted (d.written m) ∧ read (d.written m) = .ok d := by
  refine ⟨fun t ht d => read_iff_denoted ht, ?_, ?_, ?_⟩
  · intro t ht
    cases hread : read t with
    | error e =>
      refine ⟨fun _ d hd => ?_, fun _ => ⟨e, rfl⟩⟩
      cases hread.symm.trans ((read_iff_denoted ht).mpr hd)
    | ok d =>
      refine ⟨nofun, fun h => ?_⟩
      exact (h d ((read_iff_denoted ht).mp hread)).elim
  · intro d t t' ht ht' hd hd'
    rw [(read_iff_denoted ht).mpr hd, (read_iff_denoted ht').mpr hd']
  · intro d m
    have hd := d.denoted_written m
    exact ⟨hd, (read_iff_denoted (d.written_ordered m)).mpr hd⟩

def chequered : Tree :=
  .arr [
    .obj [("extension", .str "store"),
      ("property", .arr [.arr [.str "dir", .str "/a"], .obj [("name", .str "dir"), ("value", .str "")]])],
    .arr [.arr [.str "log"], .obj [("extension", .str "audit")]]]

/-- It denotes a document, and no tree does that gives a null for the hooks. -/
theorem read_iff_denotes_chequered :
    let d : ProvidersDocument :=
      ⟨some ⟨"store", [⟨"dir", "/a"⟩, ⟨"dir", ""⟩]⟩, [⟨"log", []⟩, ⟨"audit", []⟩]⟩
    let bare : Tree := .obj [("hook_provider", .null)]
    chequered.Ordered ∧ d.Denoted chequered ∧ read chequered = read (d.written {}) ∧
      bare.Ordered ∧ (∃ e, read bare = .error e) ∧ ∀ d : ProvidersDocument, ¬ d.Denoted bare := by
  intro d bare
  obtain ⟨-, hfails, hsame, hwritten⟩ := read_iff_denotes
  let m : Manner := ⟨true, fun e => e.extension == "log", fun p => p.value == "/a"⟩
  have htree : d.written m = chequered := by rfl
  have hordered : chequered.Ordered := htree ▸ d.written_ordered m
  have hdenoted : d.Denoted chequered := htree ▸ (hwritten d m).1
  have hbare : bare.Ordered :=
    .obj (List.pairwise_singleton _ _) (List.forall_mem_singleton.mpr .null)
  have herror : ∃ e, read bare = .error e := ⟨_, rfl⟩
  refine ⟨hordered, hdenoted, ?_, hbare, herror, (hfails bare hbare).mp herror⟩
  exact hsame d _ _ hordered (d.written_ordered {}) hdenoted (hwritten d {}).1

end ProvidersDocument

end Provisioning
