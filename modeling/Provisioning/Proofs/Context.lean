import Mathlib.Data.Finset.Card
import Mathlib.Data.List.Induction
import Provisioning.Context
import Provisioning.Proofs.Keyed

/-!
# Configurations and the properties that declare them

A configuration holds the last value that is declared under each name, and nothing else of what its
properties say. More properties override it, their order matters only within one name, and those that a
later one overrides do not matter at all.
-/

namespace Provisioning

/-! ## Properties -/

namespace Property

/-- The value that some properties declare last under a name. -/
def latest? (ps : List Property) (name : String) : Option String :=
  (ps.reverse.find? fun p => p.name = name).map Property.value

variable {ps before after : List Property} {p q : Property} {name value : String}

theorem latest?_append (ps qs : List Property) (name : String) :
    latest? (ps ++ qs) name = (latest? qs name).or (latest? ps name) := by
  rw [latest?, List.reverse_append, List.find?_append, Option.map_or]
  rfl

theorem latest?_singleton (p : Property) (name : String) :
    latest? [p] name = if p.name = name then some p.value else none := by
  by_cases h : p.name = name <;> simp [latest?, h]

theorem latest?_cons (p : Property) (ps : List Property) (name : String) :
    latest? (p :: ps) name =
      (latest? ps name).or (if p.name = name then some p.value else none) := by
  rw [← latest?_singleton, ← latest?_append, List.singleton_append]

theorem latest?_concat (ps : List Property) (p : Property) (name : String) :
    latest? (ps ++ [p]) name = if p.name = name then some p.value else latest? ps name := by
  rw [latest?_append, latest?_singleton]
  split <;> rfl

theorem latest?_eq_none_iff : latest? ps name = none ↔ ∀ p ∈ ps, p.name ≠ name := by
  rw [latest?, Option.map_eq_none_iff, List.find?_eq_none]
  simp

theorem latest?_eq_some_iff :
    latest? ps name = some value ↔
      ∃ before after, ps = before ++ ⟨name, value⟩ :: after ∧ ∀ q ∈ after, q.name ≠ name := by
  constructor
  · intro h
    obtain ⟨p, hfind, rfl⟩ := Option.map_eq_some_iff.mp h
    obtain ⟨hname, later, earlier, hsplit, hlater⟩ := List.find?_eq_some_iff_append.mp hfind
    obtain rfl : p.name = name := by simpa using hname
    refine ⟨earlier.reverse, later.reverse, ?_, ?_⟩
    · simpa using congrArg List.reverse hsplit
    · intro q hq
      simpa using hlater q (List.mem_reverse.mp hq)
  · rintro ⟨before, after, rfl, hafter⟩
    rw [latest?_append, latest?_cons, latest?_eq_none_iff.mpr hafter, if_pos rfl]
    rfl

theorem latest?_swap (h : p.name ≠ q.name) (name : String) :
    latest? (before ++ p :: q :: after) name = latest? (before ++ q :: p :: after) name := by
  rw [latest?_append, latest?_append, latest?_cons, latest?_cons, latest?_cons, latest?_cons]
  by_cases hp : p.name = name
  · have hq : q.name ≠ name := fun hq => h (hp.trans hq.symm)
    rw [if_pos hp, if_neg hq, Option.or_none, Option.or_none]
  · rw [if_neg hp, Option.or_none, Option.or_none]

theorem latest?_drop (h : ∃ q ∈ after, q.name = p.name) (name : String) :
    latest? (before ++ p :: after) name = latest? (before ++ after) name := by
  rw [latest?_append, latest?_append, latest?_cons]
  by_cases hp : p.name = name
  · have hlater : (latest? after name).isSome := by
      rw [Option.isSome_iff_ne_none, ne_eq, latest?_eq_none_iff]
      obtain ⟨q, hq, hname⟩ := h
      exact fun hnone => hnone q hq (hname.trans hp)
    rw [Option.or_of_isSome hlater]
  · rw [if_neg hp, Option.or_none]

theorem latest?_of_mem (hn : (ps.map Property.name).Nodup) (hp : p ∈ ps) :
    latest? ps p.name = some p.value := by
  obtain ⟨before, after, rfl⟩ := List.append_of_mem hp
  refine latest?_eq_some_iff.mpr ⟨before, after, rfl, fun q hq hname => ?_⟩
  rw [List.map_append, List.map_cons] at hn
  exact (List.nodup_cons.mp (List.nodup_append.mp hn).2.1).1 (hname ▸ List.mem_map_of_mem hq)

end Property

/-! ## Configurations -/

namespace Context

variable {ps qs before after : List Property} {p q : Property} {name value : String} {c d : Context}

/-- The configuration with the values of another put over its own. -/
def overriddenBy (c d : Context) : Context :=
  ⟨d.values.foldl (fun acc e => Keyed.put e.1 e.2 acc) c.values⟩

theorem ofProperties_concat (ps : List Property) (p : Property) :
    ofProperties (ps ++ [p]) = ⟨Keyed.put p.name p.value (ofProperties ps).values⟩ := by
  simp [ofProperties, ofList, Keyed.gather]

theorem ofList_ascending (values : List (String × String)) : Keyed.Ascending (ofList values).values :=
  Keyed.gather_ascending values

theorem ofProperties_ascending (ps : List Property) : Keyed.Ascending (ofProperties ps).values :=
  ofList_ascending _

theorem eq_of_get? (hc : Keyed.Ascending c.values) (hd : Keyed.Ascending d.values)
    (h : ∀ name, c.get? name = d.get? name) : c = d :=
  congrArg Context.mk (Keyed.eq_of_lookup hc hd h)

theorem get?_ofProperties (ps : List Property) (name : String) :
    (ofProperties ps).get? name = Property.latest? ps name := by
  induction ps using List.reverseRecOn with
  | nil => rfl
  | append_singleton ps p ih =>
    rw [ofProperties_concat, Property.latest?_concat, ← ih]
    split
    next h =>
      subst h
      exact Keyed.lookup_put_self
    next h => exact Keyed.lookup_put_of_ne (Ne.symm h)

theorem ofProperties_eq_iff :
    ofProperties ps = ofProperties qs ↔ ∀ name, Property.latest? ps name = Property.latest? qs name := by
  constructor
  · intro h name
    rw [← get?_ofProperties, h, get?_ofProperties]
  · intro h
    refine eq_of_get? (ofProperties_ascending ps) (ofProperties_ascending qs) fun name => ?_
    rw [get?_ofProperties, h, get?_ofProperties]

theorem get?_overriddenBy (hd : Keyed.Ascending d.values) (name : String) :
    (c.overriddenBy d).get? name = (d.get? name).or (c.get? name) := by
  have hlookup := Keyed.lookup_foldl_put d.values c.values name
  rw [Keyed.gather_eq_self hd] at hlookup
  exact hlookup

theorem ofProperties_append (ps qs : List Property) :
    ofProperties (ps ++ qs) = (ofProperties ps).overriddenBy (ofProperties qs) := by
  have hover : Keyed.Ascending ((ofProperties ps).overriddenBy (ofProperties qs)).values :=
    Keyed.foldl_put_ascending _ (ofProperties_ascending ps)
  refine eq_of_get? (ofProperties_ascending _) hover fun name => ?_
  rw [get?_overriddenBy (ofProperties_ascending qs), get?_ofProperties, get?_ofProperties,
    get?_ofProperties, Property.latest?_append]

theorem mem_names_iff :
    name ∈ (ofProperties ps).values.map Prod.fst ↔ name ∈ ps.map Property.name := by
  rw [← Keyed.isSome_lookup_iff, Option.isSome_iff_ne_none, ne_eq]
  have hget : Keyed.lookup name (ofProperties ps).values = Property.latest? ps name :=
    get?_ofProperties ps name
  rw [hget, Property.latest?_eq_none_iff]
  simp

theorem names_nodup (hc : Keyed.Ascending c.values) : (c.values.map Prod.fst).Nodup := by
  rw [List.nodup_iff_pairwise_ne, List.pairwise_map]
  refine List.Pairwise.imp ?_ hc
  intro a b hlt heq
  exact String.lt_irrefl _ (heq ▸ hlt)

theorem size_ofProperties (ps : List Property) :
    (ofProperties ps).size = (ps.map Property.name).toFinset.card := by
  have hsame : ((ofProperties ps).values.map Prod.fst).toFinset = (ps.map Property.name).toFinset := by
    ext name
    rw [List.mem_toFinset, List.mem_toFinset, mem_names_iff]
  rw [← hsame, List.toFinset_card_of_nodup (names_nodup (ofProperties_ascending ps)), List.length_map]
  rfl

theorem isEmpty_ofProperties : (ofProperties ps).isEmpty = true ↔ ps = [] := by
  have hempty : (ofProperties ps).isEmpty = true ↔ (ofProperties ps).size = 0 :=
    List.isEmpty_iff_length_eq_zero
  rw [hempty, size_ofProperties, Finset.card_eq_zero, List.toFinset_eq_empty_iff, List.map_eq_nil_iff]

theorem require_eq_ok_iff : c.require name = .ok value ↔ c.get? name = some value := by
  unfold require
  cases c.get? name <;> simp

theorem require_eq_error_iff {e : ProviderError} :
    c.require name = .error e ↔ c.get? name = none ∧ e = .missingProperty name := by
  unfold require
  cases c.get? name <;> simp [eq_comm]

/-- The entries of a configuration, in whatever order they are declared, make it up again. -/
theorem ofProperties_of_perm (hc : Keyed.Ascending c.values)
    (h : (ps.map fun p => (p.name, p.value)).Perm c.values) : ofProperties ps = c := by
  have hnames : (ps.map Property.name).Nodup := by
    have hperm := h.map Prod.fst
    rw [List.map_map] at hperm
    exact hperm.nodup_iff.mpr (names_nodup hc)
  refine eq_of_get? (ofProperties_ascending ps) hc fun name => ?_
  rw [get?_ofProperties]
  cases hget : c.get? name with
  | none =>
    rw [Property.latest?_eq_none_iff]
    rintro p hp rfl
    have hmem : (p.name, p.value) ∈ c.values := h.mem_iff.mp (List.mem_map_of_mem hp)
    have hsome : c.get? p.name = some p.value := Keyed.lookup_of_mem hc hmem
    rw [hget] at hsome
    cases hsome
  | some value =>
    have hmem := h.mem_iff.mpr (Keyed.mem_of_lookup hget)
    obtain ⟨p, hp, hpair⟩ := List.mem_map.mp hmem
    cases hpair
    exact Property.latest?_of_mem hnames hp

/-- The last value under each name is all that a configuration knows of the properties that declare it. -/
theorem last_value_counts (ps : List Property) :
    let c := ofProperties ps
    (∀ name value, c.get? name = some value ↔
      ∃ before after, ps = before ++ ⟨name, value⟩ :: after ∧ ∀ q ∈ after, q.name ≠ name) ∧
    (∀ name, (c.get? name = none ↔ ∀ p ∈ ps, p.name ≠ name) ∧
      (c.contains name = true ↔ ∃ value, c.get? name = some value) ∧
      (∀ value, c.require name = .ok value ↔ c.get? name = some value) ∧
      ∀ e, c.require name = .error e ↔ c.get? name = none ∧ e = .missingProperty name) ∧
    c.size = (ps.map Property.name).toFinset.card ∧
    (c.isEmpty = true ↔ ps = []) ∧
    (∀ qs, ofProperties (ps ++ qs) = c.overriddenBy (ofProperties qs) ∧
      ∀ name, (c.overriddenBy (ofProperties qs)).get? name =
        ((ofProperties qs).get? name).or (c.get? name)) ∧
    (∀ before p q after, ps = before ++ p :: q :: after → p.name ≠ q.name →
      ofProperties (before ++ q :: p :: after) = c) ∧
    (∀ before p after, ps = before ++ p :: after → (∃ q ∈ after, q.name = p.name) →
      ofProperties (before ++ after) = c) ∧
    (∀ qs, ofProperties qs = c ↔ ∀ name, Property.latest? qs name = Property.latest? ps name) ∧
    ∀ values qs, (qs.map fun q => (q.name, q.value)).Perm (ofList values).values →
      ofProperties qs = ofList values := by
  intro c
  refine ⟨?_, ?_, size_ofProperties ps, isEmpty_ofProperties, ?_, ?_, ?_, ?_, ?_⟩
  · intro name value
    rw [get?_ofProperties, Property.latest?_eq_some_iff]
  · intro name
    refine ⟨?_, ?_, fun value => require_eq_ok_iff, fun e => require_eq_error_iff⟩
    · rw [get?_ofProperties, Property.latest?_eq_none_iff]
    · rw [contains, Option.isSome_iff_exists]
  · exact fun qs => ⟨ofProperties_append ps qs, get?_overriddenBy (ofProperties_ascending qs)⟩
  · rintro before p q after rfl hne
    exact ofProperties_eq_iff.mpr (Property.latest?_swap (Ne.symm hne))
  · rintro before p after rfl hlater
    exact ofProperties_eq_iff.mpr fun name => (Property.latest?_drop hlater name).symm
  · exact fun qs => ofProperties_eq_iff
  · exact fun values qs => ofProperties_of_perm (ofList_ascending values)

def revised : List Property :=
  [⟨"dir", "/a"⟩, ⟨"mode", "fast"⟩, ⟨"dir", "/b"⟩, ⟨"mode", "slow"⟩]

theorem last_value_counts_revised :
    let c := ofProperties revised
    c.values = [("dir", "/b"), ("mode", "slow")] ∧ c.size = 2 ∧
      c.get? "dir" = some "/b" ∧ c.require "url" = .error (.missingProperty "url") ∧
      ofProperties [⟨"mode", "fast"⟩, ⟨"dir", "/a"⟩, ⟨"dir", "/b"⟩, ⟨"mode", "slow"⟩] = c ∧
      ofProperties [⟨"dir", "/a"⟩, ⟨"dir", "/b"⟩, ⟨"mode", "slow"⟩] = c ∧
      ofProperties [⟨"mode", "slow"⟩, ⟨"dir", "/b"⟩] = c := by
  intro c
  obtain ⟨hget, hnone, hsize, -, -, hswap, hdrop, -, henum⟩ := last_value_counts revised
  have hvalues : c.values = [("dir", "/b"), ("mode", "slow")] := by decide +kernel
  refine ⟨hvalues, hsize.trans (by decide +kernel), ?_, ?_, ?_, ?_, ?_⟩
  · exact (hget "dir" "/b").mpr
      ⟨[⟨"dir", "/a"⟩, ⟨"mode", "fast"⟩], [⟨"mode", "slow"⟩], rfl, by decide⟩
  · exact ((hnone "url").2.2.2 _).mpr ⟨(hnone "url").1.mpr (by decide), rfl⟩
  · exact hswap [] ⟨"dir", "/a"⟩ ⟨"mode", "fast"⟩ _ rfl (by decide)
  · exact hdrop [⟨"dir", "/a"⟩] ⟨"mode", "fast"⟩ _ rfl (by decide)
  · refine henum (revised.map fun p => (p.name, p.value)) _ ?_
    have hown : (ofList (revised.map fun p => (p.name, p.value))).values = _ := hvalues
    rw [hown]
    exact List.Perm.swap _ _ _

end Context

end Provisioning
