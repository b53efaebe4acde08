import Mathlib.Data.List.Forall2
import Provisioning.Proofs.Keyed
import Provisioning.Record

/-!
# What can be read

When the parts of a tree can be read, and what that says about them.
-/

namespace Provisioning

variable {α β : Type}

theorem bind_eq_ok_iff {ε : Type} {x : Except ε α} {f : α → Except ε β} {b : β} :
    x >>= f = .ok b ↔ ∃ a, x = .ok a ∧ f a = .ok b := by
  cases x with
  | error e => simp [bind, Except.bind]
  | ok a => simp [bind, Except.bind]

theorem map_eq_ok_iff {ε : Type} {x : Except ε α} {f : α → β} {b : β} :
    f <$> x = .ok b ↔ ∃ a, x = .ok a ∧ f a = b := by
  cases x with
  | error e => simp [Functor.map, Except.map]
  | ok a => simp [Functor.map, Except.map]

theorem mapM_eq_ok_iff {ε : Type} {f : α → Except ε β} {xs : List α} {ys : List β} :
    xs.mapM f = .ok ys ↔ List.Forall₂ (fun y x => f x = .ok y) ys xs := by
  induction xs generalizing ys with
  | nil =>
    rw [List.forall₂_nil_right_iff]
    simp [pure, Except.pure, eq_comm]
  | cons x xs ih =>
    rw [List.mapM_cons, List.forall₂_cons_right_iff, bind_eq_ok_iff]
    simp only [bind_eq_ok_iff, ih]
    constructor
    · intro h
      rcases h with ⟨y, hy, ys', hys, h⟩
      cases h
      exact ⟨y, ys', hy, hys, rfl⟩
    · intro h
      rcases h with ⟨y, ys', hy, hys, rfl⟩
      exact ⟨y, hy, ys', hys, rfl⟩

namespace Tree

def isList : Tree → Bool
  | .arr _ => true
  | _ => false

variable {read : Tree → Except DecodeError α} {t : Tree}

theorem readText_eq_ok_iff {s : String} : t.readText = .ok s ↔ t = .str s := by
  cases t <;> simp [readText]

theorem readList_eq_ok_iff {as : List α} :
    t.readList read = .ok as ↔ ∃ ts, t = .arr ts ∧ List.Forall₂ (fun a t => read t = .ok a) as ts := by
  cases t with
  | arr items =>
    rw [readList, mapM_eq_ok_iff]
    simp
  | _ => simp [readList]

theorem readOptional_eq_ok_iff {a : Option α} :
    t.readOptional read = .ok a ↔
      (t = .null ∧ a = none) ∨ t ≠ .null ∧ ∃ b, read t = .ok b ∧ a = some b := by
  have hmap : ∀ x : Except DecodeError α, x.map some = .ok a ↔ ∃ b, x = .ok b ∧ a = some b := by
    intro x
    cases x <;> simp [Except.map, eq_comm]
  cases t with
  | null => simp [readOptional, eq_comm]
  | _ => simp [readOptional, hmap]

end Tree

def Field.readPlace (field : Field α) (place : Option Tree) (draft : α) : Except DecodeError α :=
  match place with
  | none => .ok draft
  | some t => field.read t draft

/-- Where there is nothing to read for a field, the draft keeps its own value. -/
theorem Field.readPlace_iff {field : Field α} {read : Tree → Except DecodeError β} {draft a : α}
    {place : Option Tree} (put : α → β → α) (own : β)
    (hf : field.read = fun t draft => do return put draft (← read t)) (ho : put draft own = draft) :
    field.readPlace place draft = .ok a ↔
      ∃ b, ((place = none ∧ b = own) ∨ ∃ t, place = some t ∧ read t = .ok b) ∧ a = put draft b := by
  cases place with
  | none => simp [readPlace, ho, eq_comm]
  | some t =>
    simp only [readPlace, hf, bind_pure_comp, map_eq_ok_iff]
    simp [eq_comm]

/-- A tree gives values for two fields: under their names, and nothing else, or by their position in a
list, from which those at the end may be left out. -/
inductive Tree.Gives (first second : String) : Tree → Option Tree → Option Tree → Prop where
  | named {entries : List (String × Tree)} (hn : ∀ e ∈ entries, e.1 = first ∨ e.1 = second) :
      Gives first second (.obj entries) (Keyed.lookup first entries) (Keyed.lookup second entries)
  | neither : Gives first second (.arr []) none none
  | one (x : Tree) : Gives first second (.arr [x]) (some x) none
  | both (x y : Tree) : Gives first second (.arr [x, y]) (some x) (some y)

theorem Tree.Gives.ordered {first second : String} {t : Tree} {x y : Option Tree}
    (h : t.Gives first second x y) (ht : t.Ordered) :
    (∀ u, x = some u → u.Ordered) ∧ ∀ u, y = some u → u.Ordered := by
  cases h with
  | named => exact ⟨fun u hu => ht.of_lookup hu, fun u hu => ht.of_lookup hu⟩
  | neither => exact ⟨nofun, nofun⟩
  | one x =>
    cases ht with
    | arr hi => exact ⟨fun u hu => hi u (by simp_all), nofun⟩
  | both x y =>
    cases ht with
    | arr hi => exact ⟨fun u hu => hi u (by simp_all), fun u hu => hi u (by simp_all)⟩

theorem Tree.gives_pair {first second : String} (hne : first ≠ second) (x y : Option Tree) :
    (Tree.obj (Keyed.pair first x second y)).Gives first second x y := by
  have hg : (Tree.obj (Keyed.pair first x second y)).Gives first second _ _ :=
    .named fun _ he => Keyed.mem_pair he
  rwa [Keyed.lookup_pair_left hne, Keyed.lookup_pair_right hne] at hg

theorem Tree.gives_pair_swapped {first second : String} (hne : first ≠ second) (x y : Option Tree) :
    (Tree.obj (Keyed.pair second y first x)).Gives first second x y := by
  have hg : (Tree.obj (Keyed.pair second y first x)).Gives first second _ _ :=
    .named fun _ he => (Keyed.mem_pair he).symm
  rwa [Keyed.lookup_pair_right hne.symm, Keyed.lookup_pair_left hne.symm] at hg

def Field.Commutes (first second : Field α) : Prop :=
  ∀ x y draft a,
    (∃ between, first.readPlace x draft = .ok between ∧ second.readPlace y between = .ok a) ↔
      ∃ between, second.readPlace y draft = .ok between ∧ first.readPlace x between = .ok a

namespace Record

variable {r : Record α} {a : α} {entries : List (String × Tree)}

theorem known_of_readEntry {draft : α} {entry : String × Tree}
    (h : r.readEntry draft entry = .ok a) : entry.1 ∈ r.fields.map Field.name := by
  unfold readEntry at h
  split at h
  next field hf =>
    have hname : field.name = entry.1 := by simpa using List.find?_some hf
    rw [← hname]
    exact List.mem_map_of_mem (List.mem_of_find?_eq_some hf)
  next => cases h

/-- A record is read from an object with no other keys than the names of its fields. -/
theorem known_of_readEntries (h : r.readEntries entries = .ok a) :
    ∀ e ∈ entries, e.1 ∈ r.fields.map Field.name := by
  unfold readEntries at h
  rw [bind_eq_ok_iff] at h
  rcases h with ⟨whole, hfold, -⟩
  generalize r.draft = draft at hfold
  induction entries generalizing draft with
  | nil => simp
  | cons entry rest ih =>
    rw [List.foldlM_cons, bind_eq_ok_iff] at hfold
    rcases hfold with ⟨next, hn, hfold⟩
    intro e he
    rcases List.mem_cons.mp he with rfl | he
    · exact known_of_readEntry hn
    · exact ih next hfold e he

variable {b c : String} {x y : Option Tree} {first second : Field α}

theorem foldlM_optional {draft : α}
    (hf : r.fields.find? (fun field => field.name = b) = some first) :
    (Keyed.optional b x).foldlM r.readEntry draft = first.readPlace x draft := by
  cases x with
  | none => rfl
  | some t =>
    simp only [Keyed.optional, List.foldlM_cons, readEntry, hf]
    cases h : first.read t draft <;> simp [Field.readPlace, h, bind, Except.bind, pure, Except.pure]

theorem readEntries_pair_iff (hf : r.fields.find? (fun field => field.name = b) = some first)
    (hs : r.fields.find? (fun field => field.name = c) = some second) :
    r.readEntries (Keyed.pair b x c y) = .ok a ↔
      r.absent? (Keyed.pair b x c y) = none ∧
        ∃ draft, first.readPlace x r.draft = .ok draft ∧ second.readPlace y draft = .ok a := by
  unfold readEntries
  rw [Keyed.pair, List.foldlM_append, foldlM_optional hf, bind_eq_ok_iff]
  simp only [bind_eq_ok_iff, foldlM_optional hs]
  cases r.absent? (Keyed.optional b x ++ Keyed.optional c y) <;> simp

theorem read_pair_iff (hbc : b < c)
    (hf : r.fields.find? (fun field => field.name = b) = some first)
    (hs : r.fields.find? (fun field => field.name = c) = some second)
    (hn : ∀ name ∈ r.fields.map Field.name, name = b ∨ name = c) {t : Tree} (ht : t.Ordered)
    (hl : t.isList = false) :
    r.read t = .ok a ↔
      ∃ x y, t = .obj (Keyed.pair b x c y) ∧ r.absent? (Keyed.pair b x c y) = none ∧
        ∃ draft, first.readPlace x r.draft = .ok draft ∧ second.readPlace y draft = .ok a := by
  cases ht with
  | arr => cases hl
  | @obj entries ha _ =>
    unfold read
    constructor
    · intro h
      have hpair := Keyed.eq_pair hbc ha fun e he => hn _ (known_of_readEntries h e he)
      rw [hpair] at h
      exact ⟨_, _, congrArg Tree.obj hpair, (readEntries_pair_iff hf hs).mp h⟩
    · intro h
      rcases h with ⟨x, y, hpair, h⟩
      cases hpair
      exact (readEntries_pair_iff hf hs).mpr h
  | _ => simp [read]

/-! ## Records by name or by position -/

variable {t : Tree}

/-- What two fields come to that are read one after the other, if none is missing. -/
def Filled (first second : Field α) (x y : Option Tree) (draft a : α) : Prop :=
  (x = none → first.optional = true) ∧ (y = none → second.optional = true) ∧
    ∃ between, first.readPlace x draft = .ok between ∧ second.readPlace y between = .ok a

theorem absent?_eq_none_iff (hr : r.fields = [first, second]) {entries : List (String × Tree)} :
    r.absent? entries = none ↔
      (Keyed.lookup first.name entries = none → first.optional = true) ∧
        (Keyed.lookup second.name entries = none → second.optional = true) := by
  rw [absent?, hr, List.find?_eq_none, List.forall_mem_cons, List.forall_mem_singleton]
  cases first.optional <;> cases second.optional <;> simp

theorem read_list_iff (hr : r.fields = [first, second]) {items : List Tree} :
    r.read (.arr items) = .ok a ↔
      ∃ x y, (Tree.arr items).Gives first.name second.name x y ∧
        Filled first second x y r.draft a := by
  unfold read
  rw [hr]
  constructor
  · intro h
    match items with
    | [] =>
      refine ⟨none, none, .neither, ?_⟩
      simp only [readItems] at h
      split at h
      next hf =>
        split at h
        next hs => exact ⟨fun _ => hf, fun _ => hs, r.draft, rfl, h⟩
        next => cases h
      next => cases h
    | [t] =>
      refine ⟨some t, none, .one t, ?_⟩
      simp only [readItems, bind_eq_ok_iff] at h
      obtain ⟨between, hb, h⟩ := h
      split at h
      next hs => exact ⟨nofun, fun _ => hs, between, hb, h⟩
      next => cases h
    | [t, u] =>
      refine ⟨some t, some u, .both t u, nofun, nofun, ?_⟩
      simp only [readItems, bind_eq_ok_iff] at h
      obtain ⟨between, hb, whole, hw, h⟩ := h
      cases h
      exact ⟨between, hb, hw⟩
    | t :: u :: v :: rest =>
      simp only [readItems, bind_eq_ok_iff] at h
      obtain ⟨_, -, _, -, h⟩ := h
      cases h
  · rintro ⟨x, y, hg, hx, hy, between, hb, hw⟩
    cases hg with
    | neither =>
      cases hb
      cases hw
      simp [readItems, hx rfl, hy rfl]
    | one t =>
      cases hw
      have hb' : first.read t r.draft = .ok a := hb
      simp [readItems, hb', hy rfl, bind, Except.bind]
    | both t u =>
      have hb' : first.read t r.draft = .ok between := hb
      have hw' : second.read u between = .ok a := hw
      simp [readItems, hb', hw', bind, Except.bind]

theorem read_object_iff (hr : r.fields = [first, second]) (hne : first.name ≠ second.name)
    (hc : second.name < first.name → first.Commutes second) {entries : List (String × Tree)}
    (ht : (Tree.obj entries).Ordered) :
    r.read (.obj entries) = .ok a ↔
      (∀ e ∈ entries, e.1 = first.name ∨ e.1 = second.name) ∧
        Filled first second (Keyed.lookup first.name entries) (Keyed.lookup second.name entries)
          r.draft a := by
  have hfirst : r.fields.find? (fun field => field.name = first.name) = some first := by simp [hr]
  have hsecond : r.fields.find? (fun field => field.name = second.name) = some second := by
    simp [hr, hne]
  have ha : Keyed.Ascending entries := by
    cases ht with
    | obj ha _ => exact ha
  by_cases hlt : first.name < second.name
  · rw [read_pair_iff hlt hfirst hsecond (by simp [hr]) ht rfl]
    simp only [Tree.obj.injEq, absent?_eq_none_iff hr, Keyed.lookup_pair_left hne,
      Keyed.lookup_pair_right hne, Keyed.exists_eq_pair_iff hlt ha, Filled, and_assoc]
  · have hgt : second.name < first.name := Keyed.lt_of_ne hne hlt
    rw [read_pair_iff hgt hsecond hfirst (by simp [hr, or_comm]) ht rfl]
    simp only [Tree.obj.injEq, absent?_eq_none_iff hr, Keyed.lookup_pair_left hne.symm,
      Keyed.lookup_pair_right hne.symm, Keyed.exists_eq_pair_iff hgt ha, Filled, and_assoc, hc hgt _ _ _ _,
      or_comm]

/-- A record with two fields is read from a tree that gives values for them. -/
theorem read_gives_iff (hr : r.fields = [first, second]) (hne : first.name ≠ second.name)
    (hc : second.name < first.name → first.Commutes second) (ht : t.Ordered) :
    r.read t = .ok a ↔
      ∃ x y, t.Gives first.name second.name x y ∧ Filled first second x y r.draft a := by
  cases ht with
  | arr => exact read_list_iff hr
  | @obj entries ha he =>
    rw [read_object_iff hr hne hc (.obj ha he)]
    constructor
    · rintro ⟨hk, hf⟩
      exact ⟨_, _, .named hk, hf⟩
    · rintro ⟨x, y, hg, hf⟩
      cases hg with
      | named hk => exact ⟨hk, hf⟩
  | null | bool | num | str =>
    constructor
    · intro h
      cases h
    · rintro ⟨x, y, hg, -⟩
      cases hg

theorem read_object_optional {field : Field α} (hr : r.fields = [field])
    (ho : field.optional = true) (x : Option Tree) :
    r.read (.obj (Keyed.optional field.name x)) = field.readPlace x r.draft := by
  have hfind : r.fields.find? (fun known => known.name = field.name) = some field := by simp [hr]
  have hnone (entries : List (String × Tree)) : r.absent? entries = none := by
    simp [absent?, hr, ho]
  rw [read, readEntries, foldlM_optional hfind, hnone]
  cases field.readPlace x r.draft <;> rfl

theorem read_list_optional {field : Field α} (hr : r.fields = [field])
    (ho : field.optional = true) (x : Option Tree) :
    r.read (.arr x.toList) = field.readPlace x r.draft := by
  cases x with
  | none => simp [read, hr, readItems, ho, Field.readPlace]
  | some u =>
    rw [read, hr, Option.toList_some, readItems]
    cases h : field.read u r.draft <;> simp [h, Field.readPlace, readItems, bind, Except.bind]

theorem read_single_iff {field : Field α} (hr : r.fields = [field]) (ho : field.optional = true)
    (ht : t.Ordered) :
    r.read t = .ok a ↔
      ∃ x, (t = .obj (Keyed.optional field.name x) ∨ t = .arr x.toList) ∧
        field.readPlace x r.draft = .ok a := by
  have hobject := read_object_optional hr ho
  have hlist := read_list_optional hr ho
  constructor
  · intro h
    cases ht with
    | @obj entries ha =>
      have hone := Keyed.eq_optional ha fun e he => by
        simpa [hr] using known_of_readEntries h e he
      rw [hone, hobject] at h
      exact ⟨_, .inl (congrArg Tree.obj hone), h⟩
    | @arr items =>
      match items with
      | [] => exact ⟨none, .inr rfl, (hlist none).symm.trans h⟩
      | [u] => exact ⟨some u, .inr rfl, (hlist (some u)).symm.trans h⟩
      | u :: v :: rest =>
        simp only [read, hr, readItems, bind_eq_ok_iff] at h
        obtain ⟨_, -, h⟩ := h
        cases h
    | null | bool | num | str => cases h
  · rintro ⟨x, rfl | rfl, h⟩
    · exact (hobject x).trans h
    · exact (hlist x).trans h

end Record

end Provisioning
