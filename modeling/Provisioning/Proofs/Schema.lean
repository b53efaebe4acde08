import Provisioning.Proofs.Keyed
import Provisioning.Schema

/-!
# What conforms to a schema

Which trees have no fault, for each kind of schema.
-/

namespace Provisioning.Schema

variable {t : Tree}

theorem text_conforms_iff {least : Nat} :
    (text least).violations t = [] ↔ ∃ s, t = .str s ∧ least ≤ s.length := by
  cases t with
  | str s =>
    unfold violations
    dsimp only
    split
    next h =>
      simp
      omega
    next h => simpa using h
  | _ => simp [violations]

theorem list_conforms_iff {items : Schema} :
    (list items).violations t = [] ↔ ∃ ts, t = .arr ts ∧ ∀ u ∈ ts, items.violations u = [] := by
  cases t with
  | arr ts => simp [violations]
  | _ => simp [violations]

variable {entries : List (String × Tree)}

theorem missing_eq_nil_iff {required : List String} :
    missing required entries = [] ↔ ∀ name ∈ required, (Keyed.lookup name entries).isSome = true := by
  unfold missing
  rw [List.map_eq_nil_iff, List.filter_eq_nil_iff]
  simp [Option.isSome_iff_ne_none]

theorem violationsBelow_eq_nil_iff {properties : List (String × Schema)} :
    violationsBelow properties entries = [] ↔
      ∀ p ∈ properties, ∀ u, Keyed.lookup p.1 entries = some u → p.2.violations u = [] := by
  induction properties with
  | nil => simp [violationsBelow]
  | cons p rest ih =>
    rcases p with ⟨name, schema⟩
    unfold violationsBelow
    rw [List.append_eq_nil_iff, ih, List.forall_mem_cons]
    cases Keyed.lookup name entries <;> simp

theorem unexpected_eq_nil_iff {known : List String} :
    unexpected known entries = [] ↔ ∀ e ∈ entries, e.1 ∈ known := by
  have hs : strangers known entries = [] ↔ ∀ e ∈ entries, e.1 ∈ known := by
    unfold strangers
    rw [List.filter_eq_nil_iff]
    simp
  rw [← hs]
  unfold unexpected
  split <;> simp_all

/-- The faults of an object that has no more than values for two properties, and all that is required,
are those of these values. -/
theorem pair_violations {required : List String} {a b : String} {first second : Schema}
    {x y : Option Tree} (hab : a ≠ b)
    (hr : ∀ name ∈ required, (Keyed.lookup name (Keyed.pair a x b y)).isSome = true) :
    (object required [(a, first), (b, second)]).violations (.obj (Keyed.pair a x b y)) =
      x.elim [] first.violations ++ y.elim [] second.violations := by
  have hmissing := missing_eq_nil_iff.mpr hr
  have hunexpected : unexpected [a, b] (Keyed.pair a x b y) = [] :=
    unexpected_eq_nil_iff.mpr fun e he => by simpa using Keyed.mem_pair he
  simp only [violations, violationsBelow, hmissing, List.map_cons, List.map_nil, hunexpected,
    Keyed.lookup_pair_left hab, Keyed.lookup_pair_right hab]
  cases x <;> cases y <;> simp

theorem pair_conforms_iff {required : List String} {a b : String} {first second : Schema}
    (hab : a < b) (ht : t.Ordered) :
    (object required [(a, first), (b, second)]).violations t = [] ↔
      ∃ x y, t = .obj (Keyed.pair a x b y) ∧
        (∀ name ∈ required, (Keyed.lookup name (Keyed.pair a x b y)).isSome = true) ∧
        (∀ u, x = some u → first.violations u = []) ∧
        ∀ u, y = some u → second.violations u = [] := by
  have hne : a ≠ b := by
    rintro rfl
    exact String.lt_irrefl _ hab
  cases ht with
  | @obj entries ha _ =>
    simp only [violations, List.append_eq_nil_iff, missing_eq_nil_iff, violationsBelow_eq_nil_iff,
      unexpected_eq_nil_iff, List.forall_mem_cons, Tree.obj.injEq]
    constructor
    · intro h
      rcases h with ⟨⟨hrequired, hfirst, hsecond, -⟩, hknown⟩
      have hpair := Keyed.eq_pair hab ha fun e he => by simpa using hknown e he
      rw [hpair] at hrequired
      exact ⟨_, _, hpair, hrequired, hfirst, hsecond⟩
    · intro h
      rcases h with ⟨x, y, rfl, hrequired, hfirst, hsecond⟩
      rw [Keyed.lookup_pair_left hne, Keyed.lookup_pair_right hne]
      exact ⟨⟨hrequired, hfirst, hsecond, by simp⟩, fun e he => by simpa using Keyed.mem_pair he⟩
  | _ => simp [violations]

end Provisioning.Schema
