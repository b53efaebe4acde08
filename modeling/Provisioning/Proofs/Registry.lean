import Mathlib.Data.List.Induction
import Provisioning.Host
import Provisioning.Proofs.Keyed
import Provisioning.Proofs.Text.Utf8

/-!
# What a registry knows

A registry starts empty and is changed by registrations only. It answers with the extension that was
registered last under an identifier, and lists the identifiers in order. How it came to know them does
not matter.
-/

namespace Provisioning

/-- An extension is registered as a whole, or by its parts for a role that it is to have. -/
inductive Registration where
  | whole (e : Extension)
  | parts (role : Role) (identifier description : String) (implementation : Implementation)
    (h : implementation.role = role)

namespace Registration

def extension : Registration → Extension
  | whole e => e
  | parts _ identifier description implementation _ => ⟨identifier, description, implementation⟩

def identifier (g : Registration) : String :=
  g.extension.identifier

def ofExtension (e : Extension) : Registration :=
  parts e.role e.identifier e.description e.implementation rfl

def latest? (gs : List Registration) (identifier : String) : Option Extension :=
  (gs.map extension).reverse.find? fun e => e.identifier = identifier

variable {gs : List Registration} {identifier : String} {e : Extension}

theorem latest?_concat (gs : List Registration) (g : Registration) (identifier : String) :
    latest? (gs ++ [g]) identifier =
      if g.identifier = identifier then some g.extension else latest? gs identifier := by
  unfold latest? Registration.identifier
  rw [List.map_append, List.reverse_append, List.map_singleton, List.reverse_singleton,
    List.singleton_append, List.find?_cons]
  by_cases h : g.extension.identifier = identifier <;> simp [h]

theorem identifier_of_latest? (h : latest? gs identifier = some e) : e.identifier = identifier := by
  simpa using List.find?_some h

theorem latest?_eq_none_iff :
    latest? gs identifier = none ↔ ∀ g ∈ gs, g.identifier ≠ identifier := by
  unfold latest?
  rw [List.find?_eq_none]
  simp [Registration.identifier]

theorem isSome_latest?_iff :
    (latest? gs identifier).isSome = true ↔ ∃ g ∈ gs, g.identifier = identifier := by
  rw [Option.isSome_iff_ne_none, ne_eq, latest?_eq_none_iff]
  simp

end Registration

namespace Registry

variable {r : Registry} {e : Extension} {identifier : String}

@[simp] theorem get?_register_self : (r.register e).get? e.identifier = some e :=
  Keyed.lookup_put_self

theorem get?_register_of_ne (h : identifier ≠ e.identifier) :
    (r.register e).get? identifier = r.get? identifier :=
  Keyed.lookup_put_of_ne h

theorem contains_iff : r.contains identifier = true ↔ identifier ∈ r.identifiers :=
  Keyed.isSome_lookup_iff

def ofRegistrations (gs : List Registration) : Registry :=
  gs.foldl (fun r g => r.register g.extension) {}

variable {gs : List Registration}

theorem ofRegistrations_concat (gs : List Registration) (g : Registration) :
    ofRegistrations (gs ++ [g]) = (ofRegistrations gs).register g.extension := by
  rw [ofRegistrations, List.foldl_append]
  rfl

/-- The last registration under an identifier counts, and no other. -/
theorem get?_ofRegistrations (gs : List Registration) (identifier : String) :
    (ofRegistrations gs).get? identifier = Registration.latest? gs identifier := by
  induction gs using List.reverseRecOn with
  | nil => rfl
  | append_singleton gs g ih =>
    rw [ofRegistrations_concat, Registration.latest?_concat]
    split
    next h =>
      subst h
      exact get?_register_self
    next h => rw [get?_register_of_ne (Ne.symm h), ih]

theorem get?_concat_self (gs : List Registration) (g : Registration) :
    (ofRegistrations (gs ++ [g])).get? g.identifier = some g.extension := by
  rw [get?_ofRegistrations, Registration.latest?_concat, if_pos rfl]

theorem get?_concat_of_ne {g : Registration} (h : g.identifier ≠ identifier) :
    (ofRegistrations (gs ++ [g])).get? identifier = (ofRegistrations gs).get? identifier := by
  rw [get?_ofRegistrations, Registration.latest?_concat, if_neg h, get?_ofRegistrations]

theorem ofRegistrations_ascending (gs : List Registration) :
    Keyed.Ascending (ofRegistrations gs).entries := by
  induction gs using List.reverseRecOn with
  | nil => exact .nil
  | append_singleton gs g ih =>
    rw [ofRegistrations_concat]
    exact Keyed.put_ascending ih

theorem mem_identifiers_iff :
    identifier ∈ (ofRegistrations gs).identifiers ↔ ∃ g ∈ gs, g.identifier = identifier := by
  rw [← contains_iff, contains, get?_ofRegistrations, Registration.isSome_latest?_iff]

theorem identifiers_ascending (gs : List Registration) :
    (ofRegistrations gs).identifiers.Pairwise (· < ·) :=
  List.pairwise_map.mpr (ofRegistrations_ascending gs)

theorem ofRegistrations_congr {gs' : List Registration}
    (h : ∀ identifier, Registration.latest? gs identifier = Registration.latest? gs' identifier) :
    ofRegistrations gs = ofRegistrations gs' := by
  have hentries := Keyed.eq_of_lookup (ofRegistrations_ascending gs) (ofRegistrations_ascending gs')
    fun identifier => by
      have hget := get?_ofRegistrations gs identifier
      rw [h, ← get?_ofRegistrations] at hget
      exact hget
  exact congrArg Registry.mk hentries

theorem isEmpty_iff : (ofRegistrations gs).isEmpty = true ↔ gs = [] := by
  constructor
  · intro h
    have hnone : (ofRegistrations gs).identifiers = [] := by
      rw [identifiers, List.isEmpty_iff.mp h, List.map_nil]
    rw [List.eq_nil_iff_forall_not_mem]
    intro g hg
    have hmem : g.identifier ∈ (ofRegistrations gs).identifiers := mem_identifiers_iff.mpr ⟨g, hg, rfl⟩
    rw [hnone] at hmem
    cases hmem
  · rintro rfl
    rfl

/-- An identifier that is registered anew stays in its place, with another extension behind it. -/
theorem identifiers_concat {g : Registration} (h : g.identifier ∈ (ofRegistrations gs).identifiers) :
    (ofRegistrations (gs ++ [g])).identifiers = (ofRegistrations gs).identifiers := by
  rw [ofRegistrations_concat]
  exact Keyed.map_fst_put (ofRegistrations_ascending gs) h

end Registry

theorem Deployment.registry_foldl_register (es : List Extension) (d : Deployment) :
    (es.foldl Deployment.register d).registry = es.foldl Registry.register d.registry := by
  induction es generalizing d with
  | nil => rfl
  | cons e es ih => exact ih (d.register e)

theorem Host.registry_trial (complaint : Format → String → String) (document : Option String) :
    (trial complaint document).deployment.registry =
      .ofRegistrations (Registry.standard.map Registration.ofExtension) := by
  have hdeployment : ∀ settings d, (ofDeployment settings d).deployment = d := fun _ _ => rfl
  unfold trial
  rw [hdeployment, Deployment.registry_foldl_register, Registry.ofRegistrations, List.foldl_map]
  rfl

namespace Registry

/-- A registry answers for each identifier with what was registered last under it, lists what it knows
by the bytes of the identifiers, and keeps nothing else of the registrations. -/
theorem last_registration_counts (gs : List Registration) :
    let r := ofRegistrations gs
    (∀ identifier, r.get? identifier = Registration.latest? gs identifier ∧
      (∀ d : Deployment, d.registry = r →
        d.resolve identifier = (Registration.latest? gs identifier, d)) ∧
      (r.get? identifier = none ↔ ∀ g ∈ gs, g.identifier ≠ identifier) ∧
      (∀ e, r.get? identifier = some e → e.identifier = identifier) ∧
      r.contains identifier = (r.get? identifier).isSome ∧
      (identifier ∈ r.identifiers ↔ ∃ g ∈ gs, g.identifier = identifier)) ∧
    (r.identifiers.Pairwise fun a b => Text.encode a < Text.encode b) ∧
    r.size = r.identifiers.length ∧
    (r.isEmpty = true ↔ gs = []) ∧
    (∀ g identifier, g.identifier ≠ identifier →
      (ofRegistrations (gs ++ [g])).get? identifier = r.get? identifier) ∧
    (∀ gs', (∀ identifier, Registration.latest? gs identifier = Registration.latest? gs' identifier) →
      r = ofRegistrations gs') ∧
    (∀ role identifier description implementation (h : implementation.role = role),
      identifier ∈ r.identifiers →
      let moved := ofRegistrations (gs ++ [.parts role identifier description implementation h])
      moved.get? identifier = some ⟨identifier, description, implementation⟩ ∧
        (moved.get? identifier).map Extension.role = some role ∧
        moved.identifiers = r.identifiers) ∧
    standard.length = 6 ∧
    ∀ complaint document, (Host.trial complaint document).deployment.registry =
      ofRegistrations (standard.map Registration.ofExtension) := by
  intro r
  refine ⟨fun identifier => ⟨get?_ofRegistrations gs identifier, ?_, ?_, ?_, ?_, ?_⟩,
    ?_, ?_, ?_, ?_, ?_, ?_, ?_, ?_⟩
  · intro d hd
    rw [Deployment.resolve, hd, get?_ofRegistrations]
  · rw [get?_ofRegistrations, Registration.latest?_eq_none_iff]
  · intro e he
    rw [get?_ofRegistrations] at he
    exact Registration.identifier_of_latest? he
  · rfl
  · exact mem_identifiers_iff
  · exact (identifiers_ascending gs).imp Text.encode_lt_encode
  · exact (List.length_map _).symm
  · exact isEmpty_iff
  · exact fun _ _ => get?_concat_of_ne
  · exact fun _ => ofRegistrations_congr
  · intro role identifier description implementation h hknown moved
    have hmoved : moved.get? identifier = some ⟨identifier, description, implementation⟩ :=
      get?_concat_self gs (.parts role identifier description implementation h)
    refine ⟨hmoved, ?_, identifiers_concat hknown⟩
    rw [hmoved]
    exact congrArg some h
  · rfl
  · exact Host.registry_trial

/-- Three identifiers, of which one is registered for one role and then for the other. -/
def wandering : List Registration := [
  .parts .hook "\uffff" "" .listener rfl,
  .whole ⟨"😀", "", .listener⟩,
  .parts .persistence "\uffff" "moved" (.keeper true) rfl,
  .whole ⟨"a", "", .keeper false⟩]

def settled : List Registration := [
  .whole ⟨"a", "", .keeper false⟩,
  .whole ⟨"\uffff", "moved", .keeper true⟩,
  .whole ⟨"😀", "", .listener⟩]

theorem last_registration_counts_wandering :
    (∀ identifier, Registration.latest? wandering identifier =
      Registration.latest? settled identifier) ∧
    ofRegistrations wandering = ofRegistrations settled ∧
    (ofRegistrations wandering).identifiers = ["a", "\uffff", "😀"] ∧
    ((ofRegistrations (wandering.take 2)).get? "\uffff").map Extension.role = some .hook ∧
    ((ofRegistrations (wandering.take 3)).get? "\uffff").map Extension.role = some .persistence := by
  have hsame : ∀ identifier, Registration.latest? wandering identifier =
      Registration.latest? settled identifier := by
    intro identifier
    simp only [wandering, settled, Registration.latest?, Registration.extension, List.map_cons,
      List.map_nil, List.reverse_cons, List.reverse_nil, List.nil_append, List.cons_append,
      List.find?_cons]
    by_cases ha : "a" = identifier
    · subst ha
      simp
    by_cases hm : "\uffff" = identifier
    · subst hm
      simp
    by_cases hs : "😀" = identifier <;> simp [ha, hm, hs]
  have hlaws := (last_registration_counts wandering).2.2.2.2.2.1
  have hmoves := (last_registration_counts (wandering.take 2)).2.2.2.2.2.2.1
  obtain ⟨-, hmoved, -⟩ :=
    hmoves .persistence "\uffff" "moved" (.keeper true) rfl (by decide +kernel)
  exact ⟨hsame, hlaws settled hsame, by decide +kernel, by decide +kernel, hmoved⟩

end Registry

end Provisioning
