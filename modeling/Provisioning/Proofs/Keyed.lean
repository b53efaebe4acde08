import Mathlib.Data.List.Induction
import Provisioning.Tree

/-!
# Keyed lists and trees in order

A keyed list is in ascending order, and stays so when values are put into it. A tree is ordered when all
of its objects are keyed lists. An ascending list whose keys are all known is given by the values under
the known keys.
-/

namespace Provisioning

namespace Keyed

variable {α β : Type} {key : String} {value : α} {entries : List (String × α)}

/-- The keys are in ascending order, and none occurs twice. -/
def Ascending (entries : List (String × α)) : Prop :=
  entries.Pairwise fun a b => a.1 < b.1

def optional (key : String) : Option α → List (String × α)
  | none => []
  | some value => [(key, value)]

def pair (a : String) (x : Option α) (b : String) (y : Option α) : List (String × α) :=
  optional a x ++ optional b y

theorem eq_key_of_mem_optional {e : String × α} {found : Option α} (he : e ∈ optional key found) :
    e.1 = key := by
  cases found with
  | none => cases he
  | some value => rw [List.mem_singleton.mp he]

theorem lt_of_ne {a b : String} (hne : a ≠ b) (hlt : ¬ a < b) : b < a := by
  have hle : b ≤ a := String.not_lt.mp hlt
  by_cases h : b < a
  · exact h
  · have hge : a ≤ b := String.not_lt.mp h
    exact (hne (String.le_antisymm hge hle)).elim

theorem mem_put {e : String × α} (he : e ∈ put key value entries) : e = (key, value) ∨ e ∈ entries := by
  induction entries with
  | nil =>
    left
    simpa [put] using he
  | cons head rest ih =>
    unfold put at he
    split at he
    · rcases List.mem_cons.mp he with rfl | hr
      · exact .inl rfl
      · exact .inr (List.mem_cons_of_mem _ hr)
    · split at he
      · rcases List.mem_cons.mp he with rfl | hr
        · exact .inl rfl
        · exact .inr hr
      · rcases List.mem_cons.mp he with rfl | hr
        · exact .inr List.mem_cons_self
        · rcases ih hr with h | h
          · exact .inl h
          · exact .inr (List.mem_cons_of_mem _ h)

theorem put_ascending (h : Ascending entries) : Ascending (put key value entries) := by
  induction entries with
  | nil => simp [put, Ascending]
  | cons head rest ih =>
    rcases head with ⟨k, v⟩
    have hhead := (List.pairwise_cons.mp h).1
    have hrest := (List.pairwise_cons.mp h).2
    unfold put
    split
    next hk =>
      subst hk
      exact List.pairwise_cons.mpr ⟨hhead, hrest⟩
    next hk =>
      split
      next hlt =>
        refine List.pairwise_cons.mpr ⟨?_, h⟩
        intro e he
        rcases List.mem_cons.mp he with rfl | hr
        · exact hlt
        · exact String.lt_trans hlt (hhead e hr)
      next hlt =>
        refine List.pairwise_cons.mpr ⟨?_, ih hrest⟩
        intro e he
        rcases mem_put he with rfl | hr
        · exact lt_of_ne hk hlt
        · exact hhead e hr

theorem foldl_put_ascending (more : List (String × α)) (h : Ascending entries) :
    Ascending (more.foldl (fun acc e => put e.1 e.2 acc) entries) := by
  induction more generalizing entries with
  | nil => exact h
  | cons e more ih => exact ih (put_ascending h)

theorem mem_foldl_put {more : List (String × α)} {e : String × α}
    (he : e ∈ more.foldl (fun acc e => put e.1 e.2 acc) entries) : e ∈ entries ∨ e ∈ more := by
  induction more generalizing entries with
  | nil => exact .inl he
  | cons e' more ih =>
    rcases ih he with h | h
    · rcases mem_put h with rfl | h
      · exact .inr List.mem_cons_self
      · exact .inl h
    · exact .inr (List.mem_cons_of_mem _ h)

theorem gather_ascending (entries : List (String × α)) : Ascending (gather entries) :=
  foldl_put_ascending entries .nil

theorem mem_gather {e : String × α} (he : e ∈ gather entries) : e ∈ entries := by
  rcases mem_foldl_put he with h | h
  · cases h
  · exact h

theorem put_eq_append (h : ∀ e ∈ entries, e.1 < key) :
    put key value entries = entries ++ [(key, value)] := by
  induction entries with
  | nil => rfl
  | cons head rest ih =>
    have hall := List.forall_mem_cons.mp h
    have hne : key ≠ head.1 := fun he => String.lt_irrefl _ (he ▸ hall.1)
    have hnot : ¬ key < head.1 := fun hlt => String.lt_irrefl _ (String.lt_trans hlt hall.1)
    rw [put, if_neg hne, if_neg hnot, ih hall.2]
    rfl

theorem gather_swap {other : String} (h : other < key) (value other_value : α) :
    gather [(key, value), (other, other_value)] = [(other, other_value), (key, value)] := by
  have hne : other ≠ key := fun he => String.lt_irrefl _ (he ▸ h)
  simp only [gather, List.foldl_cons, List.foldl_nil, put, if_neg hne, if_pos h]

theorem foldl_put_eq_append {more : List (String × α)} (h : Ascending (entries ++ more)) :
    more.foldl (fun acc e => put e.1 e.2 acc) entries = entries ++ more := by
  induction more generalizing entries with
  | nil => simp
  | cons e more ih =>
    have hlt := (List.pairwise_append.mp h).2.2
    have hput : put e.1 e.2 entries = entries ++ [(e.1, e.2)] :=
      put_eq_append fun e' he' => hlt e' he' e List.mem_cons_self
    rw [List.foldl_cons, hput, ih (by simpa using h)]
    simp

theorem gather_eq_self (h : Ascending entries) : gather entries = entries :=
  foldl_put_eq_append h

theorem mem_of_lookup (h : lookup key entries = some value) : (key, value) ∈ entries := by
  induction entries with
  | nil => cases h
  | cons head rest ih =>
    unfold lookup at h
    split at h
    next hk =>
      cases h
      rw [← hk]
      exact List.mem_cons_self
    next => exact List.mem_cons_of_mem _ (ih h)

theorem lookup_eq_none (h : ∀ e ∈ entries, e.1 ≠ key) : lookup key entries = none := by
  induction entries with
  | nil => rfl
  | cons head rest ih =>
    unfold lookup
    rw [if_neg (h head List.mem_cons_self)]
    exact ih fun e he => h e (List.mem_cons_of_mem _ he)

@[simp] theorem lookup_put_self : lookup key (put key value entries) = some value := by
  induction entries with
  | nil => simp [put, lookup]
  | cons head rest ih =>
    rcases head with ⟨k, v⟩
    unfold put
    split
    next => simp [lookup]
    next hk =>
      split
      next => simp [lookup]
      next => rw [lookup, if_neg (Ne.symm hk), ih]

theorem lookup_put_of_ne {other : String} (h : other ≠ key) :
    lookup other (put key value entries) = lookup other entries := by
  induction entries with
  | nil => simp [put, lookup, Ne.symm h]
  | cons head rest ih =>
    rcases head with ⟨k, v⟩
    unfold put
    split
    next hk =>
      subst hk
      rw [lookup, lookup, if_neg (Ne.symm h), if_neg (Ne.symm h)]
    next =>
      split
      next => rw [lookup, if_neg (Ne.symm h)]
      next => rw [lookup, lookup, ih]

@[simp] theorem lookup_erase_self : lookup key (erase key entries) = none :=
  lookup_eq_none fun e he => by simpa [erase] using (List.mem_filter.mp he).2

theorem lookup_erase_of_ne {other : String} (h : other ≠ key) :
    lookup other (erase key entries) = lookup other entries := by
  induction entries with
  | nil => rfl
  | cons head rest ih =>
    rcases head with ⟨k, v⟩
    by_cases hk : k = key
    · subst hk
      rw [erase, List.filter_cons_of_neg (by simp), lookup, if_neg (Ne.symm h)]
      exact ih
    · rw [erase, List.filter_cons_of_pos (by simpa using hk), lookup, lookup, ← ih]
      rfl

theorem gather_concat (entries : List (String × α)) (e : String × α) :
    gather (entries ++ [e]) = put e.1 e.2 (gather entries) := by
  rw [gather, List.foldl_append]
  rfl

/-- What is put into a keyed list last counts before what was in it. -/
theorem lookup_foldl_put (more entries : List (String × α)) (key : String) :
    lookup key (more.foldl (fun acc e => put e.1 e.2 acc) entries) =
      (lookup key (gather more)).or (lookup key entries) := by
  induction more using List.reverseRecOn with
  | nil => rfl
  | append_singleton more e ih =>
    rw [gather_concat, List.foldl_append, List.foldl_cons, List.foldl_nil]
    by_cases hk : key = e.1
    · rw [hk, lookup_put_self, lookup_put_self, Option.some_or]
    · rw [lookup_put_of_ne hk, lookup_put_of_ne hk, ih]

theorem map_fst_put (h : Ascending entries) (hm : key ∈ entries.map Prod.fst) :
    (put key value entries).map Prod.fst = entries.map Prod.fst := by
  induction entries with
  | nil => cases hm
  | cons head rest ih =>
    rcases head with ⟨k, v⟩
    have hlater := (List.pairwise_cons.mp h).1
    unfold put
    split
    next hk => rw [List.map_cons, List.map_cons, hk]
    next hk =>
      have hr : key ∈ rest.map Prod.fst := List.mem_of_ne_of_mem hk hm
      obtain ⟨e, he, hek⟩ := List.mem_map.mp hr
      have hlt : k < key := hek ▸ hlater e he
      rw [if_neg fun hgt => String.lt_irrefl _ (String.lt_trans hlt hgt), List.map_cons,
        List.map_cons, ih (List.pairwise_cons.mp h).2 hr]

theorem isSome_lookup_iff : (lookup key entries).isSome = true ↔ key ∈ entries.map Prod.fst := by
  induction entries with
  | nil => simp [lookup]
  | cons head rest ih =>
    unfold lookup
    split
    next hk => simp [hk]
    next hk => simp [ih, Ne.symm hk]

theorem lookup_of_mem (h : Ascending entries) (hm : (key, value) ∈ entries) :
    lookup key entries = some value := by
  induction entries with
  | nil => cases hm
  | cons head rest ih =>
    have hlater := (List.pairwise_cons.mp h).1
    unfold lookup
    rcases List.mem_cons.mp hm with rfl | hr
    · rw [if_pos rfl]
    · have hne : head.1 ≠ key := fun he => String.lt_irrefl _ (he ▸ hlater _ hr)
      rw [if_neg hne]
      exact ih (List.pairwise_cons.mp h).2 hr

theorem Ascending.nodup (h : Ascending entries) : entries.Nodup := by
  refine List.Pairwise.imp ?_ h
  rintro a b hlt rfl
  exact String.lt_irrefl _ hlt

theorem put_of_lookup (h : Ascending entries) (hl : lookup key entries = some value) :
    put key value entries = entries := by
  induction entries with
  | nil => cases hl
  | cons head rest ih =>
    rcases head with ⟨k, v⟩
    unfold lookup at hl
    split at hl
    next hk =>
      cases hl
      rw [put, if_pos hk.symm, hk]
    next hk =>
      have hlt : k < key := (List.pairwise_cons.mp h).1 _ (mem_of_lookup hl)
      rw [put, if_neg (Ne.symm hk), if_neg fun hgt => String.lt_irrefl _ (String.lt_trans hlt hgt),
        ih (List.pairwise_cons.mp h).2 hl]

theorem mem_iff_lookup (h : Ascending entries) :
    (key, value) ∈ entries ↔ lookup key entries = some value :=
  ⟨lookup_of_mem h, mem_of_lookup⟩

/-- A keyed list is known by what stands under each key. -/
theorem eq_of_lookup {entries' : List (String × α)} (h : Ascending entries)
    (h' : Ascending entries') (hl : ∀ key, lookup key entries = lookup key entries') :
    entries = entries' := by
  have hperm : entries.Perm entries' := by
    refine (List.perm_ext_iff_of_nodup h.nodup h'.nodup).mpr fun e => ?_
    rw [mem_iff_lookup h, mem_iff_lookup h', hl]
  refine hperm.eq_of_pairwise (fun a b _ _ hab hba => ?_) h h'
  exact (String.lt_irrefl _ (String.lt_trans hab hba)).elim

/-- An ascending list with known keys is made up of the values under these. -/
theorem eq_flatMap_optional {known : List String} (hk : known.Pairwise (· < ·))
    (he : Ascending entries) (hknown : ∀ e ∈ entries, e.1 ∈ known) :
    entries = known.flatMap fun key => optional key (lookup key entries) := by
  induction known generalizing entries with
  | nil =>
    cases entries with
    | nil => rfl
    | cons e rest => cases hknown e List.mem_cons_self
  | cons a known ih =>
    have ha := (List.pairwise_cons.mp hk).1
    rw [List.flatMap_cons]
    cases entries with
    | nil => simp [lookup, optional]
    | cons head rest =>
      rcases head with ⟨k, v⟩
      have hhead := (List.pairwise_cons.mp he).1
      have hlater : ∀ e ∈ rest, e.1 ≠ a → e.1 ∈ known := by
        intro e hr hne
        exact List.mem_of_ne_of_mem hne (hknown e (List.mem_cons_of_mem _ hr))
      -- the list starts with the first of the keys, or does not have it at all
      by_cases hka : k = a
      · subst hka
        have hrest := ih (List.pairwise_cons.mp hk).2 (List.pairwise_cons.mp he).2 fun e hr =>
          hlater e hr fun h => String.lt_irrefl _ (h ▸ hhead e hr)
        have hsame : ∀ key ∈ known, lookup key ((k, v) :: rest) = lookup key rest := by
          intro key hkey
          have hne : k ≠ key := fun h => String.lt_irrefl _ (h ▸ ha key hkey)
          simp [lookup, hne]
        have hflat : (known.flatMap fun key => optional key (lookup key ((k, v) :: rest))) = rest := by
          rw [List.flatMap_def, List.map_congr_left fun key hkey => by rw [hsame key hkey],
            ← List.flatMap_def]
          exact hrest.symm
        rw [hflat]
        simp [lookup, optional]
      · have hk' : k ∈ known := List.mem_of_ne_of_mem hka (hknown (k, v) List.mem_cons_self)
        have hgt : ∀ e ∈ (k, v) :: rest, a < e.1 := by
          intro e hr
          rcases List.mem_cons.mp hr with rfl | hr
          · exact ha k hk'
          · exact String.lt_trans (ha k hk') (hhead e hr)
        have hne : ∀ e ∈ (k, v) :: rest, e.1 ≠ a := fun e hr h =>
          String.lt_irrefl _ (h ▸ hgt e hr)
        have hall := ih (List.pairwise_cons.mp hk).2 he fun e hr =>
          List.mem_of_ne_of_mem (hne e hr) (hknown e hr)
        rw [lookup_eq_none hne]
        exact hall

variable {a b : String} {x y : Option α}

theorem lookup_pair_left (hab : a ≠ b) : lookup a (pair a x b y) = x := by
  cases x <;> cases y <;> simp [pair, optional, lookup, hab.symm]

theorem lookup_pair_right (hab : a ≠ b) : lookup b (pair a x b y) = y := by
  cases x <;> cases y <;> simp [pair, optional, lookup, hab]

theorem eq_pair (hab : a < b) (he : Ascending entries)
    (hknown : ∀ e ∈ entries, e.1 = a ∨ e.1 = b) :
    entries = pair a (lookup a entries) b (lookup b entries) := by
  have hk : [a, b].Pairwise (· < ·) := by simpa using hab
  have hflat := eq_flatMap_optional hk he fun e hm => by simpa using hknown e hm
  rw [List.flatMap_cons, List.flatMap_cons, List.flatMap_nil, List.append_nil] at hflat
  exact hflat

theorem eq_optional (he : Ascending entries) (hknown : ∀ e ∈ entries, e.1 = a) :
    entries = optional a (lookup a entries) := by
  have hflat := eq_flatMap_optional (List.pairwise_singleton _ a) he fun e hm => by
    simpa using hknown e hm
  rwa [List.flatMap_cons, List.flatMap_nil, List.append_nil] at hflat

theorem mem_pair {e : String × α} (he : e ∈ pair a x b y) : e.1 = a ∨ e.1 = b :=
  (List.mem_append.mp he).imp eq_key_of_mem_optional eq_key_of_mem_optional

theorem exists_eq_pair_iff {P : Option α → Option α → Prop} (hab : a < b) (he : Ascending entries) :
    (∃ x y, entries = pair a x b y ∧ P x y) ↔
      (∀ e ∈ entries, e.1 = a ∨ e.1 = b) ∧ P (lookup a entries) (lookup b entries) := by
  have hne : a ≠ b := by
    rintro rfl
    exact String.lt_irrefl _ hab
  constructor
  · rintro ⟨x, y, rfl, hp⟩
    rw [lookup_pair_left hne, lookup_pair_right hne]
    exact ⟨fun e hm => mem_pair hm, hp⟩
  · rintro ⟨hk, hp⟩
    exact ⟨_, _, eq_pair hab he hk, hp⟩

end Keyed

/-- All objects of a tree are keyed lists. -/
inductive Tree.Ordered : Tree → Prop where
  | null : Ordered .null
  | bool (b : Bool) : Ordered (.bool b)
  | num (n : Number) : Ordered (.num n)
  | str (s : String) : Ordered (.str s)
  | arr {items : List Tree} (hi : ∀ t ∈ items, Ordered t) : Ordered (.arr items)
  | obj {entries : List (String × Tree)} (ha : Keyed.Ascending entries)
      (he : ∀ e ∈ entries, Ordered e.2) : Ordered (.obj entries)

theorem Tree.Ordered.of_lookup {entries : List (String × Tree)} (ht : (Tree.obj entries).Ordered)
    {key : String} {u : Tree} (hu : Keyed.lookup key entries = some u) : u.Ordered := by
  cases ht with
  | obj _ he => exact he _ (Keyed.mem_of_lookup hu)

theorem Tree.ordered_pair {a b : String} (hab : a < b) {x y : Option Tree}
    (hx : ∀ u, x = some u → u.Ordered) (hy : ∀ u, y = some u → u.Ordered) :
    (Tree.obj (Keyed.pair a x b y)).Ordered := by
  cases x <;> cases y <;> refine .obj ?_ ?_ <;>
    simp_all [Keyed.pair, Keyed.optional, Keyed.Ascending]

theorem Tree.ofEntries_ordered {entries : List (String × Tree)} (h : ∀ e ∈ entries, e.2.Ordered) :
    (ofEntries entries).Ordered :=
  .obj (Keyed.gather_ascending entries) fun e he => h e (Keyed.mem_gather he)

end Provisioning
