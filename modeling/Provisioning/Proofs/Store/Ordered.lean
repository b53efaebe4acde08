import Provisioning.Proofs.Store.Reading
import Provisioning.Proofs.Keyed

/-!
# Trees from files

Whatever format a file is in, the tree that is read from it is ordered.
-/

namespace Provisioning

section Yields

variable {α β : Type} {P : α → Prop} {Q : β → Prop} {x : Option α}

/-- Whatever there is, if anything, is of some kind. -/
def Yields (P : α → Prop) (x : Option α) : Prop :=
  ∀ a, x = some a → P a

theorem Yields.none : Yields P none := nofun

theorem Yields.some {a : α} (h : P a) : Yields P (some a) := by
  intro b hb
  cases hb
  exact h

theorem Yields.map {f : α → β} (h : Yields P x) (hf : ∀ a, P a → Q (f a)) : Yields Q (x.map f) := by
  intro b hb
  obtain ⟨a, ha, rfl⟩ := Option.map_eq_some_iff.mp hb
  exact hf a (h a ha)

theorem Yields.bind {f : α → Option β} (h : Yields P x) (hf : ∀ a, P a → Yields Q (f a)) :
    Yields Q (x.bind f) := by
  intro b hb
  obtain ⟨a, ha, hb⟩ := Option.bind_eq_some_iff.mp hb
  exact hf a (h a ha) b hb

theorem Yields.of_any (x : Option α) : Yields (fun _ => True) x := fun _ _ => trivial

end Yields

/-! ## JSON -/

namespace Json

/-- What the readers for values, for items and for entries yield with some fuel is ordered. -/
structure Orderly (fuel : Nat) : Prop where
  value (depth : Nat) (cs : List Char) : Yields (fun p => p.1.Ordered) (value? fuel depth cs)
  items (depth : Nat) (cs : List Char) :
    Yields (fun p => ∀ t ∈ p.1, t.Ordered) (items? fuel depth cs)
  entries (depth : Nat) (cs : List Char) :
    Yields (fun p => ∀ e ∈ p.1, e.2.Ordered) (entries? fuel depth cs)

variable {fuel : Nat}

theorem Orderly.value_succ (h : Orderly fuel) (depth : Nat) (cs : List Char) :
    Yields (fun p => p.1.Ordered) (value? (fuel + 1) depth cs) := by
  unfold value?
  split
  · exact .map (.of_any _) fun p _ => .str _
  · split
    · exact .none
    · split
      · exact .some (.arr nofun)
      · exact .map (h.items _ _) fun p hp => .arr hp
  · split
    · exact .none
    · split
      · exact .some (.obj .nil nofun)
      · exact .map (h.entries _ _) fun p hp => Tree.ofEntries_ordered hp
  · exact .some .null
  · exact .some (.bool true)
  · exact .some (.bool false)
  · exact .map (.of_any _) fun p _ => .num _

theorem Orderly.items_succ (h : Orderly fuel) (depth : Nat) (cs : List Char) :
    Yields (fun p => ∀ t ∈ p.1, t.Ordered) (items? (fuel + 1) depth cs) := by
  unfold items?
  refine .bind (h.value depth cs) ?_
  intro p hp
  split
  · exact .map (h.items _ _) fun q hq => List.forall_mem_cons.mpr ⟨hp, hq⟩
  · exact .some (List.forall_mem_singleton.mpr hp)
  · exact .none

theorem Orderly.entries_succ (h : Orderly fuel) (depth : Nat) (cs : List Char) :
    Yields (fun p => ∀ e ∈ p.1, e.2.Ordered) (entries? (fuel + 1) depth cs) := by
  unfold entries?
  split
  · refine .bind (.of_any _) ?_
    intro k _
    split
    · refine .bind (h.value _ _) ?_
      intro p hp
      split
      · exact .map (h.entries _ _) fun q hq => List.forall_mem_cons.mpr ⟨hp, hq⟩
      · exact .some (List.forall_mem_singleton.mpr hp)
      · exact .none
    · exact .none
  · exact .none

theorem Orderly.zero : Orderly 0 where
  value _ _ := by
    unfold value?
    exact .none
  items _ _ := by
    unfold items?
    exact .none
  entries _ _ := by
    unfold entries?
    exact .none

theorem orderly (fuel : Nat) : Orderly fuel := by
  induction fuel with
  | zero => exact .zero
  | succ fuel ih => exact ⟨ih.value_succ, ih.items_succ, ih.entries_succ⟩

theorem read_ordered (text : List Char) : Yields Tree.Ordered (read? text) := by
  have hvalue := (orderly (2 * text.length + 2)).value maxDepth text
  unfold read?
  split
  next t rest h =>
    split
    · exact .some (hvalue _ h)
    · exact .none
  next => exact .none

end Json

/-! ## TOML -/

namespace Toml

/-- A finished item is ordered, and so are the entries of tables under construction. -/
inductive Item.Ordered : Item → Prop where
  | value {t : Tree} (ht : t.Ordered) : Ordered (.value t)
  | table {origin : Origin} {entries : List (String × Item)} (ha : Keyed.Ascending entries)
      (he : ∀ e ∈ entries, Ordered e.2) : Ordered (.table origin entries)
  | tables {elements : List (List (String × Item))} (ha : ∀ es ∈ elements, Keyed.Ascending es)
      (he : ∀ es ∈ elements, ∀ e ∈ es, Ordered e.2) : Ordered (.tables elements)

structure Entries.Ordered (entries : Entries) : Prop where
  ascending : Keyed.Ascending entries
  items : ∀ e ∈ entries, e.2.Ordered

namespace Item

theorem entriesToTrees_eq_map (entries : List (String × Item)) :
    entriesToTrees entries = entries.map fun e => (e.1, e.2.toTree) := by
  induction entries with
  | nil => rfl
  | cons e rest ih =>
    rw [entriesToTrees, ih]
    rfl

theorem elementsToTrees_eq_map (elements : List (List (String × Item))) :
    elementsToTrees elements = elements.map fun es => .obj (entriesToTrees es) := by
  induction elements with
  | nil => rfl
  | cons es rest ih =>
    rw [elementsToTrees, ih]
    rfl

theorem obj_ordered {entries : List (String × Item)} (ha : Keyed.Ascending entries)
    (he : ∀ e ∈ entries, e.2.toTree.Ordered) : (Tree.obj (entriesToTrees entries)).Ordered := by
  rw [entriesToTrees_eq_map]
  refine .obj (List.pairwise_map.mpr ha) ?_
  intro e hm
  obtain ⟨e', he', rfl⟩ := List.mem_map.mp hm
  exact he e' he'

theorem toTree_ordered {i : Item} (h : i.Ordered) : i.toTree.Ordered := by
  induction h with
  | value ht => exact ht
  | table ha _ ih => exact obj_ordered ha ih
  | tables ha _ ih =>
    rw [toTree, elementsToTrees_eq_map]
    refine .arr ?_
    intro t ht
    obtain ⟨es, hes, rfl⟩ := List.mem_map.mp ht
    exact obj_ordered (ha es hes) (ih es hes)

end Item

namespace Entries

theorem Ordered.toTree {entries : Entries} (h : entries.Ordered) :
    (Tree.obj (Item.entriesToTrees entries)).Ordered :=
  Item.obj_ordered h.ascending fun e he => Item.toTree_ordered (h.items e he)

theorem nil_ordered : Ordered [] := ⟨.nil, nofun⟩

theorem Ordered.put {entries : Entries} (h : entries.Ordered) {i : Item} (hi : i.Ordered)
    (key : String) : Ordered (Keyed.put key i entries) := by
  refine ⟨Keyed.put_ascending h.ascending, ?_⟩
  intro e he
  rcases Keyed.mem_put he with rfl | he
  · exact hi
  · exact h.items e he

theorem Ordered.lookup {entries : Entries} (h : entries.Ordered) {key : String} {i : Item}
    (hi : Keyed.lookup key entries = some i) : i.Ordered :=
  h.items _ (Keyed.mem_of_lookup hi)

theorem editLast_ordered {edit : Entries → Option Entries} {elements : List Entries}
    (hedit : ∀ es : Entries, es.Ordered → Yields Ordered (edit es))
    (h : ∀ es ∈ elements, Ordered es) :
    Yields (fun elements => ∀ es ∈ elements, Ordered es) (editLast? edit elements) := by
  induction elements with
  | nil => exact .none
  | cons es rest ih =>
    have hall := List.forall_mem_cons.mp h
    cases rest with
    | nil => exact .map (hedit es hall.1) fun es' hes' => List.forall_mem_singleton.mpr hes'
    | cons next rest =>
      exact .map (ih hall.2) fun elements he => List.forall_mem_cons.mpr ⟨hall.1, he⟩

/-- An edit at the end of a path keeps a table in order if the edit itself does. -/
theorem editAt_ordered {edit : Edit} (viaDots : Bool) (path : List String)
    (hedit : ∀ origin (es : Entries), es.Ordered → Yields Ordered (edit origin es)) :
    ∀ origin (entries : Entries), entries.Ordered →
      Yields Ordered (editAt? viaDots path edit origin entries) := by
  induction path with
  | nil => exact hedit
  | cons key path ih =>
    intro origin entries h
    unfold editAt?
    dsimp only
    split
    next =>
      refine .map (ih _ [] nil_ordered) ?_
      intro inner hinner
      exact h.put (.table hinner.ascending hinner.items) key
    next => exact .none
    next elements hl =>
      have hi := h.lookup hl
      cases hi with
      | tables ha he =>
        refine .map (editLast_ordered (ih .defined) fun es hes => ⟨ha es hes, he es hes⟩) ?_
        intro inner hinner
        refine h.put (.tables ?_ ?_) key
        · exact fun es hes => (hinner es hes).ascending
        · exact fun es hes => (hinner es hes).items
    next origin' inner hl =>
      have hi := h.lookup hl
      split
      · exact .none
      · cases hi with
        | table ha he =>
          refine .map (ih _ inner ⟨ha, he⟩) ?_
          intro inner' hinner
          exact h.put (.table hinner.ascending hinner.items) key

theorem assign_ordered (key : List String) {t : Tree} (ht : t.Ordered) {entries : Entries}
    (h : entries.Ordered) : Yields Ordered (assign? key t entries) := by
  unfold assign?
  split
  · exact .none
  · apply editAt_ordered _ _ _ _ _ h
    intro origin es hes
    unfold add?
    split
    · exact .some (hes.put (.value ht) _)
    · exact .none

theorem define_ordered (header : List String) {entries : Entries} (h : entries.Ordered) :
    Yields Ordered (define? header entries) := by
  unfold define?
  split
  · exact .none
  · apply editAt_ordered _ _ _ _ _ h
    intro origin es hes
    unfold define?.open?
    split
    next => exact .some (hes.put (.table .nil nofun) _)
    next inner hl =>
      have hi := hes.lookup hl
      cases hi with
      | table ha he => exact .some (hes.put (.table ha he) _)
    next => exact .none

theorem append_ordered (header : List String) {entries : Entries} (h : entries.Ordered) :
    Yields Ordered (append? header entries) := by
  unfold append?
  split
  · exact .none
  · apply editAt_ordered _ _ _ _ _ h
    intro origin es hes
    unfold append?.extend?
    split
    next =>
      refine .some (hes.put (.tables ?_ ?_) _)
      · exact List.forall_mem_singleton.mpr .nil
      · exact List.forall_mem_singleton.mpr nofun
    next elements hl =>
      have hi := hes.lookup hl
      cases hi with
      | tables ha he =>
        refine .some (hes.put (.tables ?_ ?_) _)
        · exact List.forall_mem_append.mpr ⟨ha, List.forall_mem_singleton.mpr .nil⟩
        · exact List.forall_mem_append.mpr ⟨he, List.forall_mem_singleton.mpr nofun⟩
    next => exact .none

end Entries

theorem whole_ordered (negative : Bool) (n : Nat) : Yields Tree.Ordered (whole? negative n) := by
  unfold whole?
  split
  · split
    · exact .some (.num _)
    · exact .none
  · split
    · exact .some (.num _)
    · exact .none

theorem integer_ordered (cs : List Char) : Yields (fun p => p.1.Ordered) (integer? cs) := by
  have hbased : ∀ base cs, Yields (fun p => p.1.Ordered) (based? base cs) := fun base cs =>
    .bind (.of_any _) fun p _ => .map (whole_ordered _ _) fun t ht => ht
  unfold integer?
  split
  · exact hbased _ _
  · exact hbased _ _
  · exact hbased _ _
  · exact .bind (.of_any _) fun p _ => .map (whole_ordered _ _) fun t ht => ht

theorem real_ordered (negative : Bool) (digits : Nat) (exponent : Int) :
    Yields Tree.Ordered (real? negative digits exponent) := by
  unfold real?
  split
  · exact .some (.num _)
  · split
    · exact .some .null
    · exact .none

theorem float_ordered (cs : List Char) : Yields (fun p => p.1.Ordered) (float? cs) := by
  have hreal : ∀ negative digits exponent rest,
      Yields (fun p => p.1.Ordered) ((real? negative digits exponent).map (·, (rest : List Char))) :=
    fun negative digits exponent rest => .map (real_ordered _ _ _) fun t ht => ht
  unfold float?
  split
  · split
    · exact .some .null
    · exact .some .null
    · exact .none
  · split
    · dsimp only
      split
      · exact hreal _ _ _ _
      · exact hreal _ _ _ _
    · split
      · exact hreal _ _ _ _
      · exact .none

theorem numeral_ordered (cs : List Char) : Yields (fun p => p.1.Ordered) (numeral? cs) := by
  have hfloat := float_ordered cs
  unfold numeral?
  split
  next text rest _ =>
    refine .some (.obj (List.pairwise_singleton _ _) ?_)
    exact List.forall_mem_singleton.mpr (.str _)
  next =>
    split
    next p hp => exact .some (hfloat p hp)
    next => exact integer_ordered cs

/-- What the readers for values, for items and for assignments yield with some fuel is ordered. -/
structure Orderly (fuel : Nat) : Prop where
  value (depth : Nat) (cs : List Char) : Yields (fun p => p.1.Ordered) (value? fuel depth cs)
  items (depth : Nat) (cs : List Char) :
    Yields (fun p => ∀ t ∈ p.1, t.Ordered) (items? fuel depth cs)
  pairs (depth : Nat) (cs : List Char) {entries : Entries} (h : entries.Ordered) :
    Yields (fun p => p.1.Ordered) (pairs? fuel depth cs entries)

variable {fuel : Nat}

theorem Orderly.value_succ (h : Orderly fuel) (depth : Nat) (cs : List Char) :
    Yields (fun p => p.1.Ordered) (value? (fuel + 1) depth cs) := by
  cases cs with
  | nil => exact .none
  | cons c rest =>
    unfold value?
    split
    · exact .map (.of_any _) fun p _ => .str _
    · split
      · split
        · exact .none
        · split
          · exact .some (.arr nofun)
          · exact .map (h.items _ _) fun p hp => .arr hp
      · split
        · split
          · exact .none
          · split
            · exact .some (.obj .nil nofun)
            · exact .map (h.pairs _ _ Entries.nil_ordered) fun p hp => hp.toTree
        · split
          · exact .some (.bool true)
          · exact .some (.bool false)
          · exact numeral_ordered _

theorem Orderly.items_succ (h : Orderly fuel) (depth : Nat) (cs : List Char) :
    Yields (fun p => ∀ t ∈ p.1, t.Ordered) (items? (fuel + 1) depth cs) := by
  unfold items?
  refine .bind (h.value _ _) ?_
  intro p hp
  split
  · exact .some (List.forall_mem_singleton.mpr hp)
  · split
    · exact .some (List.forall_mem_singleton.mpr hp)
    · exact .map (h.items _ _) fun q hq => List.forall_mem_cons.mpr ⟨hp, hq⟩
  · exact .none

theorem Orderly.pairs_succ (h : Orderly fuel) (depth : Nat) (cs : List Char) {entries : Entries}
    (he : entries.Ordered) : Yields (fun p => p.1.Ordered) (pairs? (fuel + 1) depth cs entries) := by
  unfold pairs?
  refine .bind (.of_any _) ?_
  intro k _
  split
  · refine .bind (h.value _ _) ?_
    intro p hp
    refine .bind (Entries.assign_ordered k.1 hp he) ?_
    intro entries' he'
    split
    · exact .some he'
    · exact h.pairs _ _ he'
    · exact .none
  · exact .none

theorem Orderly.zero : Orderly 0 where
  value _ _ := by
    unfold value?
    exact .none
  items _ _ := by
    unfold items?
    exact .none
  pairs _ _ _ _ := by
    unfold pairs?
    exact .none

theorem orderly (fuel : Nat) : Orderly fuel := by
  induction fuel with
  | zero => exact .zero
  | succ fuel ih => exact ⟨ih.value_succ, ih.items_succ, ih.pairs_succ⟩

def State.Ordered (s : State) : Prop :=
  s.entries.Ordered

theorem assignment_ordered {s : State} (hs : s.Ordered) (cs : List Char) :
    Yields (fun p => p.1.Ordered) (assignment? s cs) := by
  unfold assignment?
  refine .bind (.of_any _) ?_
  intro k _
  split
  · refine .bind ((orderly _).value _ _) ?_
    intro p hp
    refine .bind (.of_any _) ?_
    intro rest _
    have hassign : Yields State.Ordered (s.assign? k.1 p.1) := by
      refine .map (Entries.editAt_ordered _ _ ?_ _ _ hs) fun entries he => he
      exact fun origin es hes => Entries.assign_ordered k.1 hp hes
    exact .map hassign fun s' hs' => hs'
  · exact .none

theorem header_ordered {s : State} (hs : s.Ordered) (cs : List Char) :
    Yields (fun p => p.1.Ordered) (header? s cs) := by
  unfold header?
  split
  · refine .bind (.of_any _) ?_
    intro k _
    split
    · refine .bind (.of_any _) ?_
      intro rest _
      exact .map (Entries.append_ordered k.1 hs) fun entries he => he
    · exact .none
  · refine .bind (.of_any _) ?_
    intro k _
    split
    · refine .bind (.of_any _) ?_
      intro rest _
      exact .map (Entries.define_ordered k.1 hs) fun entries he => he
    · exact .none

theorem lines_ordered (fuel : Nat) {s : State} (hs : s.Ordered) (cs : List Char) :
    Yields State.Ordered (lines? fuel s cs) := by
  induction fuel generalizing s cs with
  | zero =>
    unfold lines?
    split
    · exact .some hs
    · exact .none
  | succ fuel ih =>
    unfold lines?
    split
    · exact .some hs
    · exact .bind (header_ordered hs _) fun p hp => ih hp _
    · exact .bind (.of_any _) fun rest _ => ih hs _
    · split
      · exact ih hs _
      · split
        · exact .none
        · exact .bind (assignment_ordered hs _) fun p hp => ih hp _

theorem read_ordered (text : List Char) : Yields Tree.Ordered (read? text) := by
  have hstart : State.Ordered {} := Entries.nil_ordered
  exact .map (lines_ordered _ hstart _) fun s hs => Entries.Ordered.toTree hs

end Toml

/-! ## YAML -/

namespace Yaml

theorem whole_ordered (i : Int) : Yields (Yields Tree.Ordered) (wholeTree? i) := by
  unfold wholeTree?
  split
  · exact .some (.some (.num _))
  · split
    · exact .some .none
    · exact .none

theorem real_ordered (cs : List Char) : Yields Tree.Ordered (real? cs) := by
  unfold real?
  split
  · exact .some .null
  · exact .bind (.of_any _) fun p _ => .map (.of_any _) fun m _ => .num _

theorem plain_ordered (cs : List Char) : Yields Tree.Ordered (plainTree? cs) := by
  have hwhole : Yields (Yields Tree.Ordered) ((whole? cs).bind wholeTree?) :=
    .bind (.of_any _) fun i _ => whole_ordered i
  have hreal := real_ordered cs
  unfold plainTree?
  split
  · exact .some .null
  · split
    next b _ => exact .some (.bool b)
    next =>
      split
      next t ht => exact hwhole t ht
      next =>
        split
        next t ht =>
          split at ht
          · cases ht
          · exact .some (hreal t ht)
        next => exact .some (.str _)

theorem scalar_ordered (tag : Option (List Char)) (cs : List Char) (plain : Bool) :
    Yields Tree.Ordered (scalarTree? tag cs plain) := by
  have hplain := plain_ordered cs
  have hwhole : Yields Tree.Ordered ((whole? cs).bind wholeTree?).join := by
    intro t ht
    obtain ⟨i, -, hi⟩ := Option.bind_eq_some_iff.mp (Option.join_eq_some_iff.mp ht)
    exact whole_ordered i _ hi t rfl
  unfold scalarTree?
  split
  · split
    · exact hplain
    · exact .some (.str _)
  · split
    · exact .none
    · split
      · exact .map (.of_any _) fun b _ => .bool b
      · split
        · exact hwhole
        · split
          · exact real_ordered cs
          · split
            · split
              · exact .some .null
              · exact .none
            · split
              · exact hplain
              · exact .some (.str _)

theorem each_yields {α β : Type} {P : β → Prop} {read : α → Budgeted β} {xs : List α}
    (h : ∀ x ∈ xs, ∀ left, Yields (fun p => P p.1) (read x left)) (left : Nat) :
    Yields (fun p => ∀ y ∈ p.1, P y) (each? read xs left) := by
  induction xs generalizing left with
  | nil => exact .some nofun
  | cons x xs ih =>
    have hall := List.forall_mem_cons.mp h
    refine .bind (hall.1 left) ?_
    intro p hp
    exact .map (ih hall.2 _) fun q hq => List.forall_mem_cons.mpr ⟨hp, hq⟩

theorem tree_ordered (anchors : Anchors) (fuel : Nat) :
    ∀ depth n left, Yields (fun p => p.1.Ordered) (tree? anchors fuel depth n left) := by
  induction fuel with
  | zero =>
    unfold tree?
    exact fun _ _ _ => .none
  | succ fuel ih =>
    intro depth n left
    cases n with
    | scalar tag text plain => exact .map (scalar_ordered tag text plain) fun t ht => ht
    | «alias» slot =>
      unfold tree?
      split
      · exact ih _ _ _
      · exact .none
    | sequence tag items =>
      unfold tree?
      split
      · exact .none
      · refine .map (each_yields (P := Tree.Ordered) ?_ left) fun p hp => .arr hp
        exact fun n _ left => ih (depth - 1) n left
    | mapping tag entries =>
      unfold tree?
      split
      · exact .none
      · refine .map (each_yields (P := fun e : String × Tree => e.2.Ordered) ?_ left) fun p hp =>
          Tree.ofEntries_ordered hp
        intro e _ left
        refine .bind (.of_any _) ?_
        intro k _
        exact .map (ih (depth - 1) e.2 k.2) fun t ht => ht

theorem read_ordered (text : List Char) : Yields Tree.Ordered (read? text) := by
  unfold read?
  split
  · exact .some (.obj .nil nofun)
  · refine .bind (.of_any _) ?_
    intro d _
    cases d with
    | absent => exact .some .null
    | root n anchors => exact .map (tree_ordered _ _ _ _ _) fun p hp => hp

end Yaml

theorem Format.parse?_ordered {format : Format} {cs : List Char} {t : Tree}
    (h : format.parse? cs = some t) : t.Ordered := by
  cases format with
  | toml => exact Toml.read_ordered _ _ h
  | json => exact Json.read_ordered _ _ h
  | yaml => exact Yaml.read_ordered _ _ h

theorem Store.readTree_ordered {store : Store} {path : Path} {t : Tree}
    (h : (store.readTree path).result = .ok t) : t.Ordered := by
  obtain ⟨_, _, -, -, hparse⟩ := spells_iff.mpr h
  exact Format.parse?_ordered hparse

end Provisioning
