import Mathlib.Data.List.OfFn
import Mathlib.Logic.Equiv.Defs
import Provisioning.Document.Loading
import Provisioning.Proofs.Schema.Place

/-!
# The report on a document

What is reported of a tree that should be a document is put together from what is reported of its parts,
place by place. A part that is changed changes its own block of the report and nothing else, and a part of
the wrong kind is reported once, whatever is in it.
-/

namespace Provisioning

/-- What is reported of a tree with regard to a schema, as texts. -/
def Schema.report (s : Schema) (t : Tree) : List String :=
  (s.violations t).map Violation.message

/-! ## The texts -/

namespace Report

def inQuotes (name : String) : String :=
  "\"" ++ name ++ "\""

def notOfKind (t : Tree) (kind : String) : String :=
  Json.compact t ++ " is not of type " ++ inQuotes kind

def required (name : String) (entries : List (String × Tree)) : List String :=
  if (Keyed.lookup name entries).isSome then [] else [inQuotes name ++ " is a required property"]

def below (name : String) (part : Tree → List String) (entries : List (String × Tree)) : List String :=
  match Keyed.lookup name entries with
  | some t => part t
  | none => []

def unknownKeys (known : List String) (entries : List (String × Tree)) : List String :=
  (entries.map Prod.fst).filter fun name => name ∉ known

def quoted (name : String) : String :=
  "'" ++ name ++ "'"

def unknown (known : List String) (entries : List (String × Tree)) : List String :=
  match unknownKeys known entries with
  | [] => []
  | [name] => ["Additional properties are not allowed (" ++ quoted name ++ " was unexpected)"]
  | names =>
    ["Additional properties are not allowed (" ++ ", ".intercalate (names.map quoted) ++
      " were unexpected)"]

def anyText : Tree → List String
  | .str _ => []
  | t => [notOfKind t "string"]

def properText : Tree → List String
  | .str s => if s = "" then ["\"\" is shorter than 1 character"] else []
  | t => [notOfKind t "string"]

def items (part : Tree → List String) : Tree → List String
  | .arr ts => ts.flatMap part
  | t => [notOfKind t "array"]

def property : Tree → List String
  | .obj entries =>
    required "name" entries ++ required "value" entries ++ below "name" properText entries ++
      below "value" anyText entries ++ unknown ["name", "value"] entries
  | t => [notOfKind t "object"]

def provider : Tree → List String
  | .obj entries =>
    required "extension" entries ++ below "extension" properText entries ++
      below "property" (items property) entries ++ unknown ["extension", "property"] entries
  | t => [notOfKind t "object"]

def document : Tree → List String
  | .obj entries =>
    below "hook_provider" (items provider) entries ++ below "persistence_provider" provider entries ++
      unknown ["hook_provider", "persistence_provider"] entries
  | t => [notOfKind t "object"]

end Report

namespace Schema

variable {t : Tree}

theorem message_wrongKind (t : Tree) (kind : Kind) :
    (Violation.wrongKind t kind).message = Report.notOfKind t kind.name := by
  have hkind : Json.compact (.str kind.name) = Report.inQuotes kind.name := by
    cases kind <;> decide +kernel
  exact congrArg (Json.compact t ++ " is not of type " ++ ·) hkind

theorem report_of_kind_ne {s : Schema} (h : t.kind? ≠ some s.kind) :
    s.report t = [Report.notOfKind t s.kind.name] := by
  rw [report, violations_of_kind_ne h, List.map_singleton, message_wrongKind]

theorem report_text_zero (t : Tree) : (text 0).report t = Report.anyText t := by
  cases t with
  | str s => rfl
  | _ => exact report_of_kind_ne (by simp [Tree.kind?, kind])

theorem report_text_one (t : Tree) : (text 1).report t = Report.properText t := by
  cases t with
  | str s =>
    rw [Report.properText, report, violations]
    by_cases hs : s = ""
    · subst hs
      rfl
    · have hlen : s.length ≠ 0 := by simpa using hs
      rw [if_neg hs, if_neg (by omega)]
      rfl
  | _ => exact report_of_kind_ne (by simp [Tree.kind?, kind])

theorem report_list {items : Schema} {part : Tree → List String} (h : ∀ t, items.report t = part t)
    (t : Tree) : (list items).report t = Report.items part t := by
  cases t with
  | arr ts =>
    rw [report, violations, Report.items, List.map_flatMap]
    exact congrArg ts.flatMap (funext h)
  | _ => exact report_of_kind_ne (by simp [Tree.kind?, kind])

variable {entries : List (String × Tree)}

theorem report_below {properties : List (String × Schema)} :
    (violationsBelow properties entries).map Violation.message =
      properties.flatMap fun p => Report.below p.1 p.2.report entries := by
  induction properties with
  | nil => rfl
  | cons p rest ih =>
    rcases p with ⟨name, schema⟩
    rw [violationsBelow, List.map_append, ih, List.flatMap_cons, Report.below]
    congr 1
    cases Keyed.lookup name entries <;> rfl

theorem message_unexpected (known : List String) (entries : List (String × Tree)) :
    (unexpected known entries).map Violation.message = Report.unknown known entries := by
  have hkeys : strangers known entries = Report.unknownKeys known entries := by
    unfold strangers Report.unknownKeys
    congr 1
    funext name
    simp
  rw [unexpected, hkeys, Report.unknown]
  rcases Report.unknownKeys known entries with _ | ⟨name, _ | ⟨second, names⟩⟩
  · rfl
  · have hlisted : Violation.listed [name] = Report.quoted name := by
      simp [Violation.listed, Report.quoted]
    exact congrArg (fun text => ["Additional properties are not allowed (" ++ text ++ " was unexpected)"])
      hlisted
  · rfl

theorem message_missing {names : List String}
    (hplain : ∀ name ∈ names, Json.compact (.str name) = Report.inQuotes name) :
    (missing names entries).map Violation.message =
      names.flatMap fun name => Report.required name entries := by
  induction names with
  | nil => rfl
  | cons name rest ih =>
    obtain ⟨hname, hrest⟩ := List.forall_mem_cons.mp hplain
    have htext : (Violation.missing name).message = Report.inQuotes name ++ " is a required property" :=
      congrArg (· ++ " is a required property") hname
    have htail := ih hrest
    unfold missing at htail ⊢
    rw [List.filter_cons, List.flatMap_cons, Report.required, ← htail]
    cases Keyed.lookup name entries <;> simp [htext]

theorem report_object {names : List String}
    (hplain : ∀ name ∈ names, Json.compact (.str name) = Report.inQuotes name)
    (properties : List (String × Schema)) :
    (object names properties).report (.obj entries) =
      (names.flatMap fun name => Report.required name entries) ++
        (properties.flatMap fun p => Report.below p.1 p.2.report entries) ++
        Report.unknown (properties.map Prod.fst) entries := by
  rw [report, violations, List.map_append, List.map_append, message_missing hplain, report_below,
    message_unexpected]

theorem report_property (t : Tree) : property.report t = Report.property t := by
  cases t with
  | obj entries =>
    rw [property, report_object (by decide +kernel), Report.property]
    simp only [List.flatMap_cons, List.flatMap_nil, List.append_nil, List.map_cons, List.map_nil,
      List.append_assoc, funext report_text_one, funext report_text_zero]
  | _ => exact report_of_kind_ne nofun

theorem report_provider (t : Tree) : provider.report t = Report.provider t := by
  cases t with
  | obj entries =>
    rw [provider, report_object (by decide +kernel), Report.provider]
    simp only [List.flatMap_cons, List.flatMap_nil, List.append_nil, List.map_cons, List.map_nil,
      List.append_assoc, funext report_text_one, funext (report_list report_property)]
  | _ => exact report_of_kind_ne nofun

theorem report_providers (t : Tree) : providers.report t = Report.document t := by
  cases t with
  | obj entries =>
    rw [providers, report_object (by decide +kernel), Report.document]
    simp only [List.flatMap_cons, List.flatMap_nil, List.nil_append, List.append_nil, List.map_cons,
      List.map_nil, List.append_assoc, funext report_provider, funext (report_list report_provider)]
  | _ => exact report_of_kind_ne nofun

theorem unknownKeys_ascending (known : List String) (h : (Tree.obj entries).Ordered) :
    (Report.unknownKeys known entries).Pairwise (· < ·) := by
  cases h with
  | obj ha _ => exact (List.pairwise_map.mpr ha).filter _

/-! ## Blocks -/

theorem Place.exists_report {outer part : Schema} {fill : Tree → Tree} (h : Place outer part fill) :
    ∃ front back, ∀ t, outer.report (fill t) = front ++ part.report t ++ back := by
  obtain ⟨front, back, h⟩ := h.exists_violations
  refine ⟨front.map Violation.message, back.map Violation.message, fun t => ?_⟩
  rw [report, h, List.map_append, List.map_append, report]

end Schema

/-- An object with some hooks in it, or with others in their place. -/
def Tree.withHooks (entries : List (String × Tree)) (hooks : List Tree) : Tree :=
  .obj (Keyed.put "hook_provider" (.arr hooks) entries)

def Tree.withProperties (entries : List (String × Tree)) (properties : List Tree) : Tree :=
  .obj (Keyed.put "property" (.arr properties) entries)

namespace Schema

theorem hook_place (entries : List (String × Tree)) (before after : List Tree) :
    Place providers provider fun t => .withHooks entries (before ++ t :: after) :=
  .member entries List.mem_cons_self (by decide) (.item before after (.whole provider))

theorem persistence_place (entries : List (String × Tree)) :
    Place providers provider fun t => .obj (Keyed.put "persistence_provider" t entries) :=
  .member entries (List.mem_cons_of_mem _ List.mem_cons_self) (by decide) (.whole provider)

theorem property_place {fill : Tree → Tree} (h : Place providers provider fill)
    (entries : List (String × Tree)) (before after : List Tree) :
    Place providers property fun t => fill (.withProperties entries (before ++ t :: after)) :=
  h.trans (.member entries (List.mem_cons_of_mem _ List.mem_cons_self) (by decide)
    (.item before after (.whole property)))

/-- The blocks of the hooks stand together, in the order of the hooks. -/
theorem exists_report_withHooks (entries : List (String × Tree)) :
    ∃ front back, ∀ hooks, providers.report (.withHooks entries hooks) =
      front ++ (hooks.map provider.report).flatten ++ back := by
  have hplace : Place providers (list provider) fun t => .obj (Keyed.put "hook_provider" t entries) :=
    .member entries List.mem_cons_self (by decide) (.whole _)
  obtain ⟨front, back, h⟩ := hplace.exists_report
  refine ⟨front, back, fun hooks => ?_⟩
  rw [Tree.withHooks, h, report_list fun _ => rfl, Report.items, List.flatMap_def]

/-- The report lists every fault of a document, part by part, and each part in a block that goes by the
part alone. -/
theorem report_in_blocks :
    (∀ t, providers.report t = Report.document t ∧ provider.report t = Report.provider t ∧
      property.report t = Report.property t) ∧
    (∀ known entries, (Tree.obj entries).Ordered →
      (Report.unknownKeys known entries).Pairwise (· < ·) ∧
        ∀ key, key ∈ Report.unknownKeys known entries ↔ key ∈ entries.map Prod.fst ∧ key ∉ known) ∧
    (∀ part fill, Place providers part fill → ∃ front back,
      (∀ t, providers.report (fill t) = front ++ part.report t ++ back) ∧
        ∀ t, t.kind? ≠ some part.kind →
          providers.report (fill t) = front ++ [Report.notOfKind t part.kind.name] ++ back) ∧
    (∀ entries before after,
      Place providers provider fun t => .withHooks entries (before ++ t :: after)) ∧
    (∀ entries, Place providers provider fun t => .obj (Keyed.put "persistence_provider" t entries)) ∧
    (∀ fill, Place providers provider fill → ∀ entries before after,
      Place providers property fun t => fill (.withProperties entries (before ++ t :: after))) ∧
    (∀ key entries t, (Tree.obj entries).Ordered → Keyed.lookup key entries = some t →
      Keyed.put key t entries = entries) ∧
    (∀ entries, ∃ front back, ∀ (n : Nat) (hooks : Fin n → Tree) (σ : Equiv.Perm (Fin n)),
      let block := fun i => provider.report (hooks i)
      providers.report (.withHooks entries (List.ofFn hooks)) =
          front ++ (List.ofFn block).flatten ++ back ∧
        providers.report (.withHooks entries (List.ofFn fun i => hooks (σ i))) =
          front ++ (List.ofFn fun i => block (σ i)).flatten ++ back) ∧
    ∀ xs ys, (list provider).report (.arr (xs ++ ys)) =
      (list provider).report (.arr xs) ++ (list provider).report (.arr ys) := by
  refine ⟨fun t => ⟨report_providers t, report_provider t, report_property t⟩, ?_, ?_, hook_place,
    persistence_place, fun _ => property_place, ?_, ?_, ?_⟩
  · intro known entries ho
    refine ⟨unknownKeys_ascending known ho, fun key => ?_⟩
    rw [Report.unknownKeys, List.mem_filter, decide_eq_true_iff]
  · intro part fill hplace
    obtain ⟨front, back, h⟩ := hplace.exists_report
    refine ⟨front, back, h, fun t ht => ?_⟩
    rw [h, report_of_kind_ne ht]
  · intro key entries t ho hl
    cases ho with
    | obj ha _ => exact Keyed.put_of_lookup ha hl
  · intro entries
    obtain ⟨front, back, h⟩ := exists_report_withHooks entries
    refine ⟨front, back, fun n hooks σ => ⟨?_, ?_⟩⟩
    · rw [h, List.map_ofFn]
      rfl
    · rw [h, List.map_ofFn]
      rfl
  · intro xs ys
    simp only [report_list report_provider, Report.items, List.flatMap_append]

def crowded : List (String × Tree) :=
  [("aa", .null), ("persistence_provider", .obj [("property", .bool true)]), ("zz", .null)]

/-- Eight faults at all levels are reported. A list in the place of the second hook is one of them. -/
theorem report_in_blocks_crowded :
    let hook : Tree := .obj [("extension", .str ""),
      ("property", .arr [.obj [("name", .str ""), ("x", .null)]])]
    let stray : Tree := .arr [.str "x"]
    (Tree.obj crowded).Ordered ∧
      Report.unknownKeys ["hook_provider", "persistence_provider"] crowded = ["aa", "zz"] ∧
      (Report.unknownKeys ["hook_provider", "persistence_provider"] crowded).Pairwise (· < ·) ∧
      providers.report (.withHooks crowded [hook, stray]) =
        ["\"\" is shorter than 1 character", "\"value\" is a required property",
          "\"\" is shorter than 1 character", "Additional properties are not allowed ('x' was unexpected)",
          "[\"x\"] is not of type \"object\"", "\"extension\" is a required property",
          "true is not of type \"array\"",
          "Additional properties are not allowed ('aa', 'zz' were unexpected)"] ∧
      ∃ front back, providers.report (.withHooks crowded [hook, stray]) =
          front ++ [Report.notOfKind stray "object"] ++ back ∧
        ∀ t, providers.report (.withHooks crowded [hook, t]) = front ++ provider.report t ++ back := by
  intro hook stray
  have hprovider : (Tree.obj [("property", .bool true)]).Ordered :=
    .obj (List.pairwise_singleton _ _) (List.forall_mem_singleton.mpr (.bool true))
  have hordered : (Tree.obj crowded).Ordered := by
    refine .obj (show List.Pairwise _ _ by decide) ?_
    exact List.forall_mem_cons.mpr ⟨.null, List.forall_mem_cons.mpr
      ⟨hprovider, List.forall_mem_singleton.mpr .null⟩⟩
  obtain ⟨-, hkeys, hblocks, hhook, -⟩ := report_in_blocks
  obtain ⟨front, back, hblock, hkind⟩ := hblocks _ _ (hhook crowded [hook] [])
  refine ⟨hordered, by decide +kernel, (hkeys _ _ hordered).1, by decide +kernel, front, back, ?_, hblock⟩
  exact hkind stray (by decide)

end Schema

end Provisioning
