import Provisioning.Proofs.Keyed
import Provisioning.Schema

/-!
# Where the faults of a part are reported

A place in a tree has a schema of its own. The faults of what stands there make up one block of the
report on the whole tree, and what is reported before and after it does not depend on what stands there.
-/

namespace Provisioning

def Tree.kind? : Tree → Option Kind
  | .obj _ => some .object
  | .arr _ => some .array
  | .str _ => some .string
  | _ => none

namespace Schema

def kind : Schema → Kind
  | text _ => .string
  | list _ => .array
  | object .. => .object

variable {s : Schema} {t : Tree}

theorem violations_of_kind_ne (h : t.kind? ≠ some s.kind) : s.violations t = [.wrongKind t s.kind] := by
  cases s <;> cases t <;> first | rfl | exact absurd rfl h

/-- The trees with a place in them for a part, given by the trees that they are with each part: with the
schema of the whole, and that of the part. -/
inductive Place : Schema → Schema → (Tree → Tree) → Prop where
  | whole (s : Schema) : Place s s fun t => t
  | item {items part : Schema} {fill : Tree → Tree} (before after : List Tree)
      (h : Place items part fill) :
      Place (.list items) part fun t => .arr (before ++ fill t :: after)
  | member {required : List String} {properties : List (String × Schema)} {name : String}
      {below part : Schema} {fill : Tree → Tree} (entries : List (String × Tree))
      (hm : (name, below) ∈ properties) (hd : (properties.map Prod.fst).Nodup)
      (h : Place below part fill) :
      Place (.object required properties) part fun t => .obj (Keyed.put name (fill t) entries)

theorem Place.trans {outer inner part : Schema} {fill fill' : Tree → Tree}
    (h : Place outer inner fill) (h' : Place inner part fill') :
    Place outer part fun t => fill (fill' t) := by
  induction h with
  | whole => exact h'
  | item before after _ ih => exact .item before after (ih h')
  | member entries hm hd _ ih => exact .member entries hm hd (ih h')

/-! ## Objects with another value under a key -/

section Put

variable {name : String} {entries : List (String × Tree)}

theorem missing_put (required : List String) :
    missing required (Keyed.put name t entries) = missing (required.filter (· ≠ name)) entries := by
  unfold missing
  rw [List.filter_filter]
  congr 1
  apply List.filter_congr
  intro other _
  by_cases h : other = name
  · simp [h]
  · simp [h, Keyed.lookup_put_of_ne h]

theorem strangers_put {known : List String} (h : name ∈ known) :
    strangers known (Keyed.put name t entries) = strangers known entries := by
  unfold strangers
  induction entries with
  | nil => simp [Keyed.put, h]
  | cons head rest ih =>
    rcases head with ⟨k, v⟩
    unfold Keyed.put
    split
    next hk => simp [hk]
    next =>
      split
      next => simp [h]
      next => rw [List.map_cons, List.filter_cons, ih, List.map_cons, List.filter_cons]

theorem unexpected_put {known : List String} (h : name ∈ known) :
    unexpected known (Keyed.put name t entries) = unexpected known entries := by
  rw [unexpected, strangers_put h, unexpected]

theorem violationsBelow_put_of_not_mem {properties : List (String × Schema)}
    (h : name ∉ properties.map Prod.fst) :
    violationsBelow properties (Keyed.put name t entries) = violationsBelow properties entries := by
  induction properties with
  | nil => rfl
  | cons p rest ih =>
    rw [List.map_cons, List.mem_cons, not_or] at h
    rw [violationsBelow, violationsBelow, Keyed.lookup_put_of_ne (Ne.symm h.1), ih h.2]

/-- The faults below one property stand between those below the others. -/
theorem exists_violationsBelow_put {properties : List (String × Schema)} {below : Schema}
    (hm : (name, below) ∈ properties) (hd : (properties.map Prod.fst).Nodup)
    (entries : List (String × Tree)) :
    ∃ front back, ∀ t, violationsBelow properties (Keyed.put name t entries) =
      front ++ below.violations t ++ back := by
  induction properties with
  | nil => cases hm
  | cons p rest ih =>
    rcases p with ⟨other, schema⟩
    have hrest := List.nodup_cons.mp hd
    rcases List.mem_cons.mp hm with hp | hm
    · cases hp
      refine ⟨[], violationsBelow rest entries, fun t => ?_⟩
      rw [violationsBelow, Keyed.lookup_put_self, violationsBelow_put_of_not_mem hrest.1,
        List.nil_append]
    · obtain ⟨front, back, h⟩ := ih hm hrest.2
      have hname : name ∈ rest.map Prod.fst := List.mem_map_of_mem hm
      have hne : other ≠ name := by
        rintro rfl
        exact hrest.1 hname
      refine ⟨violationsBelow [(other, schema)] entries ++ front, back, fun t => ?_⟩
      rw [violationsBelow, Keyed.lookup_put_of_ne hne, h, violationsBelow, violationsBelow]
      simp only [List.append_nil, List.append_assoc]

end Put

/-- The faults of a part are one block of the report, whatever the part is. -/
theorem Place.exists_violations {outer part : Schema} {fill : Tree → Tree} (h : Place outer part fill) :
    ∃ front back, ∀ t, outer.violations (fill t) = front ++ part.violations t ++ back := by
  induction h with
  | whole s => exact ⟨[], [], fun t => by simp⟩
  | @item items part fill before after _ ih =>
    obtain ⟨front, back, h⟩ := ih
    refine ⟨before.flatMap items.violations ++ front, back ++ after.flatMap items.violations,
      fun t => ?_⟩
    rw [violations, List.flatMap_append, List.flatMap_cons, h]
    simp only [List.append_assoc]
  | @member required properties name below part fill entries hm hd _ ih =>
    obtain ⟨front, back, h⟩ := ih
    obtain ⟨front', back', h'⟩ := exists_violationsBelow_put hm hd entries
    refine ⟨missing (required.filter (· ≠ name)) entries ++ front' ++ front,
      back ++ back' ++ unexpected (properties.map Prod.fst) entries, fun t => ?_⟩
    rw [violations, missing_put, h', h, unexpected_put (List.mem_map_of_mem hm)]
    simp only [List.append_assoc]

end Schema

end Provisioning
