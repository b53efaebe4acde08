import Provisioning.Proofs.Document.Conformity
import Provisioning.Proofs.Json.RoundTrip

/-!
# Documents that are written and read again

The tree that a document is written as is read as that document, and so is its text. A file with that
text is loaded as the document if no name in it is empty. Otherwise the schema has one fault to find for
every empty name, and no other.
-/

namespace Provisioning

theorem Format.ofPath_eq_json {path : Path} (h : path.extension? = some (Text.encode "json")) :
    ofPath path = .ok .json := by
  have htext : extensionText path = "json" := by
    rw [extensionText, h, Option.bind_some, Text.decode?_encode]
    rfl
  rw [ofPath, htext]
  rfl

/-! ## The tree of a document -/

section Lists

variable {α : Type} {spells : α → Tree → Prop} {toTree : α → Tree}

def listPlace (toTree : α → Tree) : List α → Option Tree
  | [] => none
  | items => some (.arr (items.map toTree))

theorem listEntry_eq_optional (key : String) (as : List α) :
    listEntry key toTree as = Keyed.optional key (listPlace toTree as) := by
  cases as <;> rfl

theorem listPlace_spelled (h : ∀ a, spells a (toTree a)) (as : List α) :
    SpellsList spells as (listPlace toTree as) := by
  cases as with
  | nil => exact .absent
  | cons a as => exact .present (List.forall₂_map_right_iff.mpr (List.forall₂_same.mpr fun a _ => h a))

theorem forall_mem_listEntry {P : String × Tree → Prop} {key : String} {as : List α}
    (h : P (key, .arr (as.map toTree))) : ∀ e ∈ listEntry key toTree as, P e := by
  cases as with
  | nil => nofun
  | cons a as => exact List.forall_mem_singleton.mpr h

theorem listEntry_ascending (key : String) (as : List α) :
    Keyed.Ascending (listEntry key toTree as) := by
  cases as with
  | nil => exact .nil
  | cons a as => exact List.pairwise_singleton _ _

end Lists

namespace Tree

theorem depth_arr_le {items : List Tree} {n : Nat} (h : ∀ t ∈ items, t.depth ≤ n) :
    (arr items).depth ≤ n + 1 := by
  rw [depth, Nat.add_le_add_iff_right]
  induction items with
  | nil => exact Nat.zero_le n
  | cons t rest ih =>
    have hall := List.forall_mem_cons.mp h
    exact Nat.max_le.mpr ⟨hall.1, ih hall.2⟩

theorem depth_obj_le {entries : List (String × Tree)} {n : Nat} (h : ∀ e ∈ entries, e.2.depth ≤ n) :
    (obj entries).depth ≤ n + 1 := by
  rw [depth, Nat.add_le_add_iff_right]
  induction entries with
  | nil => exact Nat.zero_le n
  | cons e rest ih =>
    have hall := List.forall_mem_cons.mp h
    exact Nat.max_le.mpr ⟨hall.1, ih hall.2⟩

end Tree

namespace Property

theorem toTree_depth (p : Property) : p.toTree.depth ≤ 1 := Nat.le_refl 1

theorem toTree_ordered (p : Property) : p.toTree.Ordered := by
  refine .obj (List.pairwise_pair.mpr (show "name" < "value" by decide)) ?_
  exact List.forall_mem_cons.mpr ⟨.str _, List.forall_mem_singleton.mpr (.str _)⟩

theorem toTree_numberFree (p : Property) : p.toTree.NumberFree :=
  .obj (List.forall_mem_cons.mpr ⟨.str _, List.forall_mem_singleton.mpr (.str _)⟩)

end Property

namespace ProviderEntry

theorem toTree_eq_pair (e : ProviderEntry) :
    e.toTree = .obj (Keyed.pair "extension" (some (.str e.extension)) "property"
      (listPlace Property.toTree e.properties)) := by
  rw [toTree, listEntry_eq_optional]
  rfl

theorem toTree_spelled (e : ProviderEntry) : e.Spelled e.toTree := by
  have hp : ∀ p : Property, p.Spelled p.toTree := fun _ => rfl
  exact ⟨_, listPlace_spelled hp e.properties, e.toTree_eq_pair⟩

theorem toTree_ordered (e : ProviderEntry) : e.toTree.Ordered := by
  refine .obj (List.pairwise_cons.mpr ⟨?_, listEntry_ascending _ _⟩) ?_
  · exact forall_mem_listEntry (show "extension" < "property" by decide)
  · refine List.forall_mem_cons.mpr ⟨.str _, forall_mem_listEntry (.arr ?_)⟩
    exact List.forall_mem_map.mpr fun p _ => p.toTree_ordered

theorem toTree_depth (e : ProviderEntry) : e.toTree.depth ≤ 3 := by
  refine Tree.depth_obj_le (List.forall_mem_cons.mpr ⟨Nat.zero_le 2, forall_mem_listEntry ?_⟩)
  exact Tree.depth_arr_le (List.forall_mem_map.mpr fun p _ => p.toTree_depth)

theorem toTree_numberFree (e : ProviderEntry) : e.toTree.NumberFree := by
  refine .obj (List.forall_mem_cons.mpr ⟨.str _, forall_mem_listEntry (.arr ?_)⟩)
  exact List.forall_mem_map.mpr fun p _ => p.toTree_numberFree

end ProviderEntry

namespace ProvidersDocument

variable {d : ProvidersDocument}

theorem toTree_eq_pair (d : ProvidersDocument) :
    d.toTree = .obj (Keyed.pair "hook_provider" (listPlace ProviderEntry.toTree d.hooks)
      "persistence_provider" (d.persistence.map ProviderEntry.toTree)) := by
  rw [toTree, hooksEntry, listEntry_eq_optional, persistenceEntry]
  cases d.persistence <;> rfl

theorem toTree_spelled (d : ProvidersDocument) : d.Spelled d.toTree := by
  refine ⟨_, _, listPlace_spelled ProviderEntry.toTree_spelled d.hooks, ?_, d.toTree_eq_pair⟩
  cases d.persistence with
  | none => exact .none
  | some e => exact .some e.toTree_spelled

theorem forall_mem_persistenceEntry {P : String × Tree → Prop}
    (h : ∀ e, d.persistence = some e → P ("persistence_provider", e.toTree)) :
    ∀ e ∈ d.persistenceEntry, P e := by
  unfold persistenceEntry
  cases hp : d.persistence with
  | none => nofun
  | some e => exact List.forall_mem_singleton.mpr (h e hp)

theorem toTree_ordered (d : ProvidersDocument) : d.toTree.Ordered := by
  refine .obj (List.pairwise_append.mpr ⟨listEntry_ascending _ _, ?_, ?_⟩) ?_
  · unfold persistenceEntry
    split
    · exact List.pairwise_singleton _ _
    · exact .nil
  · refine forall_mem_listEntry (forall_mem_persistenceEntry fun e _ => ?_)
    show "hook_provider" < "persistence_provider"
    decide
  · refine List.forall_mem_append.mpr ⟨forall_mem_listEntry (.arr ?_), ?_⟩
    · exact List.forall_mem_map.mpr fun e _ => e.toTree_ordered
    · exact forall_mem_persistenceEntry fun e _ => e.toTree_ordered

theorem read_toTree (d : ProvidersDocument) : read d.toTree = .ok d := by
  have hs := d.toTree_spelled
  exact (read_iff d.toTree_ordered hs.isList_eq hs.member_ne_null).mpr hs

theorem toTree_injective {d d' : ProvidersDocument} (h : d.toTree = d'.toTree) : d = d' := by
  have hread := d.read_toTree
  rw [h, read_toTree] at hread
  exact (Except.ok.inj hread).symm

end ProvidersDocument

/-! ## The faults of a document -/

def Violation.blank : Violation := .tooShort "" 1

def Violation.ofNames (names : List String) : List Violation :=
  List.replicate (names.count "") blank

theorem Violation.ofNames_append (names names' : List String) :
    ofNames (names ++ names') = ofNames names ++ ofNames names' := by
  simp only [ofNames, List.count_append, List.replicate_add]

theorem text_one_violations (s : String) :
    (Schema.text 1).violations (.str s) = Violation.ofNames [s] := by
  unfold Schema.violations
  by_cases h : s = ""
  · subst h
    rfl
  · have hlen : s.length ≠ 0 := by simpa using h
    have hnot : ¬ s.length < 1 := by omega
    simp [Violation.ofNames, h, hnot]

/-- If the faults of every item are those of its names, so are the faults of the list of them, whether
it is written or left out. -/
theorem listPlace_violations {α : Type} {items : Schema} {toTree : α → Tree} {names : α → List String}
    (h : ∀ a, items.violations (toTree a) = Violation.ofNames (names a)) (as : List α) :
    (listPlace toTree as).elim [] (Schema.list items).violations =
      Violation.ofNames (as.flatMap names) := by
  have hitems : as.flatMap (fun a => items.violations (toTree a)) =
      Violation.ofNames (as.flatMap names) := by
    induction as with
    | nil => rfl
    | cons a as ih => rw [List.flatMap_cons, h, ih, ← Violation.ofNames_append, List.flatMap_cons]
  rw [← hitems]
  cases as with
  | nil => rfl
  | cons a as => simp [listPlace, Schema.violations, List.flatMap_map]

def ProviderEntry.names (e : ProviderEntry) : List String :=
  e.extension :: e.properties.map Property.name

/-- How many extensions are empty in a document, and how many names of properties. -/
def ProvidersDocument.blanks (d : ProvidersDocument) : Nat :=
  let providers := d.persistence.toList ++ d.hooks
  (providers.map ProviderEntry.extension).count "" +
    ((providers.flatMap ProviderEntry.properties).map Property.name).count ""

theorem ProviderEntry.count_names (es : List ProviderEntry) :
    (es.flatMap names).count "" =
      (es.map extension).count "" + ((es.flatMap properties).map Property.name).count "" := by
  induction es with
  | nil => rfl
  | cons e es ih =>
    rw [List.flatMap_cons, List.count_append, ih, names, List.count_cons, List.map_cons,
      List.count_cons, List.flatMap_cons, List.map_append, List.count_append]
    omega

theorem Property.violations_toTree (p : Property) :
    Schema.property.violations p.toTree = Violation.ofNames [p.name] := by
  have hpair : p.toTree =
      .obj (Keyed.pair "name" (some (.str p.name)) "value" (some (.str p.value))) := rfl
  have hvalue : (Schema.text 0).violations (.str p.value) = [] :=
    Schema.text_conforms_iff.mpr ⟨_, rfl, Nat.zero_le _⟩
  rw [Schema.property, hpair, Schema.pair_violations (by decide)
    (by simp [Keyed.lookup, Keyed.pair, Keyed.optional]), ← text_one_violations]
  simp [hvalue]

theorem ProviderEntry.violations_toTree (e : ProviderEntry) :
    Schema.provider.violations e.toTree = Violation.ofNames e.names := by
  have hlist := listPlace_violations Property.violations_toTree e.properties
  have hnames : e.names = [e.extension] ++ e.properties.flatMap fun p => [p.name] := by
    rw [names, List.map_eq_flatMap]
    rfl
  rw [Schema.provider, toTree_eq_pair, Schema.pair_violations (by decide)
    (by simp [Keyed.lookup_pair_left]), hlist, hnames, Violation.ofNames_append,
    ← text_one_violations]
  rfl

namespace ProvidersDocument

variable {d : ProvidersDocument}

theorem violations_toTree (d : ProvidersDocument) :
    Schema.providers.violations d.toTree = List.replicate d.blanks .blank := by
  have hhooks := listPlace_violations ProviderEntry.violations_toTree d.hooks
  have hpersistence : (d.persistence.map ProviderEntry.toTree).elim [] Schema.provider.violations =
      Violation.ofNames (d.persistence.toList.flatMap ProviderEntry.names) := by
    cases d.persistence with
    | none => rfl
    | some e => simpa using e.violations_toTree
  -- the faults of the hooks come first, as their key does
  have hcount : d.blanks = (d.hooks.flatMap ProviderEntry.names ++
      d.persistence.toList.flatMap ProviderEntry.names).count "" := by
    rw [blanks, ← ProviderEntry.count_names, List.flatMap_append, List.count_append,
      List.count_append, Nat.add_comm]
  rw [Schema.providers, toTree_eq_pair, Schema.pair_violations (by decide) (by simp), hhooks,
    hpersistence, ← Violation.ofNames_append, hcount, Violation.ofNames]

theorem named_of_conforms (h : Schema.providers.violations d.toTree = []) : d.Named := by
  obtain ⟨d', hread, -, -, hnamed⟩ := (conforms_iff_read d.toTree_ordered).mp h
  obtain rfl : d = d' := Except.ok.inj (d.read_toTree.symm.trans hread)
  exact hnamed

theorem interpret_toTree_of_named {path : Path} (h : d.Named) : interpret path d.toTree = .ok d := by
  have hconforms := (conforms_iff d.toTree_ordered).mpr ⟨d, h, d.toTree_spelled⟩
  rw [interpret, validate_eq_ok_iff.mpr hconforms, read_toTree]
  rfl

theorem interpret_toTree_of_not_named {path : Path} (h : ¬ d.Named) :
    interpret path d.toTree =
      .error (.nonconforming path (List.replicate d.blanks Violation.blank.message)) := by
  have hfaults : validate path d.toTree =
      .error (.nonconforming path (List.replicate d.blanks Violation.blank.message)) := by
    unfold validate
    split
    next hnil => exact (h (named_of_conforms hnil)).elim
    next => rw [violations_toTree, List.map_replicate]
  rw [interpret, hfaults]
  rfl

/-! ## The text of a document -/

/-- A document as a tree, in the order in which its text gives the entries. -/
def writtenTree (d : ProvidersDocument) : Tree :=
  .obj (d.persistenceEntry ++ d.hooksEntry)

theorem writtenTree_numberFree (d : ProvidersDocument) : d.writtenTree.NumberFree := by
  refine .obj (List.forall_mem_append.mpr ⟨?_, forall_mem_listEntry (.arr ?_)⟩)
  · exact forall_mem_persistenceEntry fun e _ => e.toTree_numberFree
  · exact List.forall_mem_map.mpr fun e _ => e.toTree_numberFree

theorem gather_written (d : ProvidersDocument) :
    Keyed.gather (d.persistenceEntry ++ d.hooksEntry) = d.hooksEntry ++ d.persistenceEntry := by
  rcases d with ⟨_ | entry, _ | ⟨hook, hooks⟩⟩
  · rfl
  · rfl
  · rfl
  · exact Keyed.gather_swap (by decide) _ _

theorem gathered_writtenTree (d : ProvidersDocument) : d.writtenTree.gathered = d.toTree := by
  have hparts : ∀ e ∈ d.persistenceEntry ++ d.hooksEntry, e.2.gathered = e.2 := by
    refine List.forall_mem_append.mpr ⟨?_, forall_mem_listEntry ?_⟩
    · exact forall_mem_persistenceEntry fun e _ => e.toTree_ordered.gathered_eq
    · exact (Tree.Ordered.arr (List.forall_mem_map.mpr fun e _ => e.toTree_ordered)).gathered_eq
  rw [writtenTree, Tree.gathered, Tree.gatheredEntries_eq_self hparts, Tree.ofEntries, gather_written,
    toTree]

theorem writtenTree_depth (d : ProvidersDocument) : d.writtenTree.depth ≤ 5 := by
  refine Tree.depth_obj_le (List.forall_mem_append.mpr ⟨?_, forall_mem_listEntry ?_⟩)
  · exact forall_mem_persistenceEntry fun e _ => Nat.le_succ_of_le e.toTree_depth
  · exact Tree.depth_arr_le (List.forall_mem_map.mpr fun e _ => e.toTree_depth)

theorem read?_text (d : ProvidersDocument) : Json.read? d.text.toList = some d.toTree := by
  have hlist : d.text.toList = Json.text d.writtenTree := String.toList_ofList
  have hdepth : d.writtenTree.depth ≤ Json.maxDepth := Nat.le_trans d.writtenTree_depth (by decide)
  rw [hlist, Json.read?_text d.writtenTree_numberFree hdepth, gathered_writtenTree]

theorem spells_text {store : Store} {path : Path}
    (hfile : store.files.read? path = some (.ok (Text.encode d.text)))
    (hpath : path.extension? = some (Text.encode "json")) : store.Spells path d.toTree :=
  ⟨d.text, .json, ⟨_, hfile, Text.decode?_encode _⟩, Format.ofPath_eq_json hpath, d.read?_text⟩

/-- A document is read from its tree, from its text and from a file with its text, unless a name in it
is empty. -/
theorem text_round_trip :
    (∀ d : ProvidersDocument, read d.toTree = .ok d) ∧
    (∀ d d' : ProvidersDocument, d.text = d'.text → d = d') ∧
    ∀ (store : Store) (path : Path) (d : ProvidersDocument),
      store.files.read? path = some (.ok (Text.encode d.text)) →
      path.extension? = some (Text.encode "json") →
      (d.Named → (load store path).result = .ok d) ∧
      (¬ d.Named → (load store path).result =
        .error (.nonconforming path
          (List.replicate d.blanks "\"\" is shorter than 1 character"))) := by
  refine ⟨read_toTree, ?_, ?_⟩
  · intro d d' h
    have hread := d.read?_text
    rw [h, read?_text] at hread
    exact (toTree_injective (Option.some.inj hread)).symm
  · intro store path d hfile hpath
    rw [load_result (Store.spells_iff.mp (spells_text hfile hpath))]
    refine ⟨interpret_toTree_of_named, ?_⟩
    intro h
    rw [interpret_toTree_of_not_named h]
    rfl

def awkward : ProvidersDocument :=
  ⟨some ⟨"store", [⟨"dir", "say \"é\"\n"⟩, ⟨"dir", "\\\x01"⟩]⟩, [⟨"echo", []⟩]⟩

def nameless : ProvidersDocument :=
  ⟨some ⟨"", [⟨"", "a"⟩, ⟨"dir", ""⟩]⟩, [⟨"echo", []⟩, ⟨"", []⟩]⟩

theorem text_round_trip_awkward :
    let path := Path.ofString "conf/d.json"
    let store := fun d : ProvidersDocument =>
      ({ files := FileTree.write {} path (Text.encode d.text) } : Store)
    let fault := "\"\" is shorter than 1 character"
    (∀ d ∈ [awkward, nameless], (store d).files.read? path = some (.ok (Text.encode d.text))) ∧
      path.extension? = some (Text.encode "json") ∧ awkward.Named ∧ ¬ nameless.Named ∧
      (load (store awkward) path).result = .ok awkward ∧
      (load (store nameless) path).result =
        .error (.nonconforming path [fault, fault, fault]) := by
  intro path store fault
  have hfile : ∀ d ∈ [awkward, nameless],
      (store d).files.read? path = some (.ok (Text.encode d.text)) := by
    decide +kernel
  have hpath : path.extension? = some (Text.encode "json") := by decide +kernel
  have hnamed : awkward.Named := by
    simp [awkward, Named, ProviderEntry.Named, Property.Named]
  have hnameless : ¬ nameless.Named := fun h => (h.1 _ rfl).1 rfl
  have hawkward := text_round_trip.2.2 (store awkward) path awkward (hfile _ (by simp)) hpath
  have hfaults := text_round_trip.2.2 (store nameless) path nameless (hfile _ (by simp)) hpath
  exact ⟨hfile, hpath, hnamed, hnameless, hawkward.1 hnamed, hfaults.2 hnameless⟩

end ProvidersDocument

end Provisioning
