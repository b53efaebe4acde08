import Provisioning.Proofs.Document.Conformity
import Provisioning.Proofs.Store.Reading

/-!
# What is found where a document is loaded from

At the path of a document there is one of seven things to be found: no file, a file that is kept back,
bytes that are not UTF-8, a text whose format is not known, a text that cannot be parsed, a tree that does
not conform to the schema, or a document. What loading comes to follows from it, and beyond the tree
nothing of the file matters.
-/

namespace Provisioning

inductive Finding where
  | missing
  | keptBack (f : IoFailure)
  | notUtf8
  | unsupported (extension : String)
  | malformed (format : Format) (text : String)
  | nonconforming (t : Tree)
  | conforming (d : ProvidersDocument)

namespace Finding

/-- This is what is found at a path. -/
def At (store : Store) (path : Path) : Finding → Prop
  | missing => store.files.read? path = none
  | keptBack f => store.files.read? path = some (.error f)
  | notUtf8 => ∃ bytes, store.files.read? path = some (.ok bytes) ∧ Text.decode? bytes = none
  | unsupported ext => (∃ text, store.files.HasText path text) ∧ ext = Format.extensionText path ∧
      ∀ known ∈ ["toml", "json", "yaml", "yml"], Text.lower ext.toList ≠ known.toList
  | malformed format text => store.files.HasText path text ∧ Format.ofPath path = .ok format ∧
      format.parse? text.toList = none
  | nonconforming t => store.Spells path t ∧ Schema.providers.violations t ≠ []
  | conforming d => ∃ t, store.Spells path t ∧ Schema.providers.violations t = [] ∧
      ProvidersDocument.read t = .ok d

/-- What loading the document at a path comes to. A file that is kept back counts as not found, like one
that is missing, but with the failure as the cause. -/
def verdict (complaint : Format → String → String) (path : Path) :
    Finding → Except ConfigError ProvidersDocument
  | missing => .error (.notFound path none)
  | keptBack f =>
    if f.kind = .notFound then .error (.notFound path none)
    else if f.kind = .invalidData then
      .error (.invalid path ("document is not valid UTF-8: " ++ f.failure.text))
    else .error (.notFound path (some (.io path f.kind f.failure)))
  | notUtf8 =>
    .error (.invalid path "document is not valid UTF-8: stream did not contain valid UTF-8")
  | unsupported ext => .error (.invalid path ("unsupported document format " ++ Text.quoted ext))
  | malformed format text =>
    .error (.invalid path (format.name ++ " syntax error: " ++ complaint format text))
  | nonconforming t =>
    .error (.nonconforming path ((Schema.providers.violations t).map Violation.message))
  | conforming d => .ok d

end Finding

def ConfigError.path? : ConfigError → Option Path
  | notFound path _ => some path
  | invalid path _ => some path
  | nonconforming path _ => some path
  | badSchema _ => none

theorem ConfigError.ofRead_cases (path : Path) (e : ReadError) :
    (∃ source, ofRead path e = notFound path source) ∨ ∃ detail, ofRead path e = invalid path detail := by
  cases e with
  | notFound => exact .inl ⟨_, rfl⟩
  | io place kind source =>
    by_cases hkind : kind = .invalidData
    · exact .inr ⟨_, if_pos hkind⟩
    · exact .inl ⟨_, if_neg hkind⟩
  | malformed | unsupported => exact .inr ⟨_, rfl⟩

theorem Format.parse?_blank_yaml {text : List Char} (h : Text.isBlank text = true) :
    yaml.parse? text = some (.obj []) := by
  rw [parse?, Yaml.read?, if_pos h]

namespace ProvidersDocument

variable {store : Store} {path : Path} {t : Tree}

theorem load_of_unreadable {e : ReadError} (h : (store.readTree path).result = .error e) :
    (load store path).result = .error (.ofRead path e) := by
  simp [load, h]

/-- A tree that does not conform is refused with all its faults, and any other is read. -/
theorem load_of_spells (h : store.Spells path t) :
    (∃ d, Schema.providers.violations t = [] ∧ read t = .ok d ∧
        (load store path).result = .ok d) ∨
      Schema.providers.violations t ≠ [] ∧ (load store path).result =
        .error (.nonconforming path ((Schema.providers.violations t).map Violation.message)) := by
  have hread := Store.spells_iff.mp h
  by_cases hv : Schema.providers.violations t = []
  · have hvalid : validate path t = .ok () := validate_eq_ok_iff.mpr hv
    obtain ⟨d, hd, -, hload⟩ := load_of_validate hread hvalid
    exact .inl ⟨d, hv, hd, hload⟩
  · refine .inr ⟨hv, ?_⟩
    have hfaults : validate path t = .error (.nonconforming path
        ((Schema.providers.violations t).map Violation.message)) := by
      unfold validate
      split
      next hnil => exact absurd hnil hv
      next => rfl
    rw [load_result hread, interpret, hfaults]
    rfl

end ProvidersDocument

namespace Finding

variable {store : Store} {path : Path} {finding finding' : Finding} {e : ReadError}
  {complaint : Format → String → String}

theorem exists_at (store : Store) (path : Path) : ∃ finding : Finding, finding.At store path := by
  cases hfile : store.files.read? path with
  | none => exact ⟨.missing, hfile⟩
  | some content =>
    cases content with
    | error f => exact ⟨.keptBack f, hfile⟩
    | ok bytes =>
      cases hdecode : Text.decode? bytes with
      | none => exact ⟨.notUtf8, bytes, hfile, hdecode⟩
      | some text =>
        have htext : store.files.HasText path text := ⟨bytes, hfile, hdecode⟩
        cases hformat : Format.ofPath path with
        | error ext =>
          exact ⟨.unsupported ext, ⟨text, htext⟩, Format.ofPath_eq_error_iff.mp hformat⟩
        | ok format =>
          cases hparse : format.parse? text.toList with
          | none => exact ⟨.malformed format text, htext, hformat, hparse⟩
          | some t =>
            have hspells : store.Spells path t := ⟨text, format, htext, hformat, hparse⟩
            rcases ProvidersDocument.load_of_spells hspells with ⟨d, hv, hread, -⟩ | ⟨hv, -⟩
            · exact ⟨.conforming d, t, hspells, hv, hread⟩
            · exact ⟨.nonconforming t, hspells, hv⟩

def fault? (complaint : Format → String → String) (path : Path) : Finding → Option ReadError
  | missing => some (.notFound path)
  | keptBack f => some (.ofIo path f)
  | notUtf8 => some (.notUtf8 path)
  | unsupported ext => some (.unsupported ext)
  | malformed format text => some (.malformed path format.name (complaint format text))
  | nonconforming _ | conforming _ => none

theorem At.readTree_result (h : finding.At store path)
    (he : finding.fault? store.complaint path = some e) :
    (store.readTree path).result = .error e := by
  cases finding with
  | missing =>
    cases he
    rw [Store.readTree_of_error (FileTree.readText_of_missing h)]
  | keptBack f =>
    cases he
    rw [Store.readTree_of_error (FileTree.readText_of_keptBack h)]
  | notUtf8 =>
    cases he
    obtain ⟨bytes, hbytes, hdecode⟩ := h
    rw [Store.readTree_of_error (FileTree.readText_of_not_utf8 hbytes hdecode)]
  | unsupported ext =>
    cases he
    obtain ⟨⟨text, htext⟩, hext⟩ := h
    rw [Store.readTree_of_unsupported htext (Format.ofPath_eq_error_iff.mpr hext)]
  | malformed format text =>
    cases he
    obtain ⟨htext, hformat, hparse⟩ := h
    simp [Store.readTree_eq htext hformat, Format.parse, hparse]
  | nonconforming | conforming => cases he

theorem verdict_of_fault (he : finding.fault? complaint path = some e) :
    finding.verdict complaint path = .error (.ofRead path e) := by
  cases finding with
  | keptBack f =>
    cases he
    by_cases hgone : f.kind = .notFound
    · simp [verdict, ReadError.ofIo, ConfigError.ofRead, hgone]
    · by_cases hdata : f.kind = .invalidData <;>
        simp [verdict, ReadError.ofIo, ConfigError.ofRead, hgone, hdata]
  | missing | notUtf8 | unsupported | malformed =>
    cases he
    rfl
  | nonconforming | conforming => cases he

theorem At.load_result (h : finding.At store path) :
    (ProvidersDocument.load store path).result = finding.verdict store.complaint path := by
  cases he : finding.fault? store.complaint path with
  | some e => rw [ProvidersDocument.load_of_unreadable (h.readTree_result he), verdict_of_fault he]
  | none =>
    cases finding with
    | nonconforming t =>
      rcases ProvidersDocument.load_of_spells h.1 with ⟨d, hv, -⟩ | ⟨-, hload⟩
      · exact absurd hv h.2
      · exact hload
    | conforming d =>
      obtain ⟨t, hspells, hv, hread⟩ := h
      rcases ProvidersDocument.load_of_spells hspells with ⟨d', -, hread', hload⟩ | ⟨hfaults, -⟩
      · obtain rfl : d = d' := Except.ok.inj (hread.symm.trans hread')
        exact hload
      · exact absurd hv hfaults
    | missing | keptBack | notUtf8 | unsupported | malformed => cases he

theorem at_unsupported_iff {ext : String} : (unsupported ext).At store path ↔
    (∃ text, store.files.HasText path text) ∧ Format.ofPath path = .error ext := by
  rw [Format.ofPath_eq_error_iff]
  rfl

theorem At.unique (h : finding.At store path) (h' : finding'.At store path) : finding = finding' := by
  -- each step of reading has one outcome, and the finding tells how far reading gets
  cases finding with
  | missing | keptBack | notUtf8 => cases finding' <;> grind [At, FileTree.HasText, Store.Spells]
  | unsupported ext =>
    obtain ⟨⟨text, htext⟩, hformat⟩ := at_unsupported_iff.mp h
    cases finding' <;> grind [At, at_unsupported_iff, FileTree.HasText, Store.Spells]
  | malformed format text =>
    obtain ⟨htext, hformat, hparse⟩ := h
    cases finding' <;> grind [At, at_unsupported_iff, FileTree.HasText, Store.Spells]
  | nonconforming t =>
    obtain ⟨hspells, hv⟩ := h
    cases finding' <;> grind [At, at_unsupported_iff, FileTree.HasText, Store.Spells]
  | conforming d =>
    obtain ⟨t, hspells, hv, hread⟩ := h
    cases finding' <;> grind [At, at_unsupported_iff, FileTree.HasText, Store.Spells]

/-- Every error is about the path, and blames the schema for nothing. -/
theorem verdict_error {e : ConfigError} (h : finding.verdict store.complaint path = .error e)
    (hf : finding.At store path) :
    e.path? = some path ∧ (∀ q, e ≠ .nonconforming q []) ∧ (∀ detail, e ≠ .badSchema detail) ∧
      ∀ q detail, e = .invalid q detail → ∀ t, ¬ store.Spells path t := by
  cases he : finding.fault? store.complaint path with
  | some fault =>
    obtain rfl : .ofRead path fault = e := Except.error.inj ((verdict_of_fault he).symm.trans h)
    have hnone : ∀ t, ¬ store.Spells path t := by
      intro t ht
      cases (hf.readTree_result he).symm.trans (Store.spells_iff.mp ht)
    rcases ConfigError.ofRead_cases path fault with ⟨source, hs⟩ | ⟨detail, hd⟩
    · rw [hs]
      exact ⟨rfl, nofun, nofun, nofun⟩
    · rw [hd]
      exact ⟨rfl, nofun, nofun, fun _ _ _ => hnone⟩
  | none =>
    cases finding with
    | conforming d => cases h
    | nonconforming t =>
      cases h
      exact ⟨rfl, by simpa using hf.2, nofun, nofun⟩
    | missing | keptBack | notUtf8 | unsupported | malformed => cases he

end Finding

namespace ProvidersDocument

/-- Loading goes by what is found at the path, and of a tree that is found by the tree alone. -/
theorem load_outcome (store : Store) (path : Path) :
    (∃! finding : Finding, finding.At store path) ∧
    (∀ finding : Finding, finding.At store path →
      (load store path).result = finding.verdict store.complaint path) ∧
    (∀ e, (load store path).result = .error e →
      e.path? = some path ∧ (∀ q, e ≠ .nonconforming q []) ∧ (∀ detail, e ≠ .badSchema detail) ∧
        ∀ q detail, e = .invalid q detail → ∀ t, ¬ store.Spells path t) ∧
    (∀ text, Text.isBlank text = true → Format.yaml.parse? text = some (.obj [])) ∧
    ∀ (store' : Store) (path' : Path) (t : Tree),
      store.Spells path t → store'.Spells path' t →
      (∃ d, (load store path).result = .ok d ∧ (load store' path').result = .ok d) ∨
        ∃ violations, (load store path).result = .error (.nonconforming path violations) ∧
          (load store' path').result = .error (.nonconforming path' violations) := by
  obtain ⟨finding, hfinding⟩ := Finding.exists_at store path
  refine ⟨⟨finding, hfinding, fun _ h => h.unique hfinding⟩, fun _ => Finding.At.load_result, ?_,
    fun _ => Format.parse?_blank_yaml, ?_⟩
  · intro e he
    rw [hfinding.load_result] at he
    exact Finding.verdict_error he hfinding
  · intro store' path' t ht ht'
    rcases load_of_spells ht with ⟨d, hv, hread, hload⟩ | ⟨hv, hload⟩ <;>
      rcases load_of_spells ht' with ⟨d', hv', hread', hload'⟩ | ⟨hv', hload'⟩
    · obtain rfl : d = d' := Except.ok.inj (hread.symm.trans hread')
      exact .inl ⟨d, hload, hload'⟩
    · exact absurd hv hv'
    · exact absurd hv' hv
    · exact .inr ⟨_, hload, hload'⟩

/-- Files of which one is neither UTF-8 nor of a known format, two others say nothing, and one is kept
back although nobody could read it as a document. -/
def emptyAndBroken : Store :=
  let denied : IoFailure := ⟨.permissionDenied, ⟨"Permission denied", []⟩⟩
  let broken := FileTree.write { current := [Text.encode "srv"] } (.ofString "conf/p.xml") [0xff]
  let blank := broken.write (.ofString "p.yaml") (Text.encode " \n")
  let plain := blank.write (.ofString "/p.JSON") (Text.encode "\x7b\x7d")
  { files := plain.put [Text.encode "srv", Text.encode "p.xml"] (.file (.error denied)) }

theorem load_outcome_emptyAndBroken :
    let broken := Path.ofString "/srv/conf/p.xml"
    let kept := Path.ofString "conf/../p.xml"
    let blank := Path.ofString "p.yaml"
    let plain := Path.ofString "../p.JSON"
    let denied : IoFailure := ⟨.permissionDenied, ⟨"Permission denied", []⟩⟩
    Finding.At emptyAndBroken broken .notUtf8 ∧
      (load emptyAndBroken broken).result =
        .error (.invalid broken "document is not valid UTF-8: stream did not contain valid UTF-8") ∧
      Finding.At emptyAndBroken kept (.keptBack denied) ∧
      (load emptyAndBroken kept).result =
        .error (.notFound kept (some (.io kept .permissionDenied denied.failure))) ∧
      emptyAndBroken.Spells blank (.obj []) ∧ emptyAndBroken.Spells plain (.obj []) ∧
      (load emptyAndBroken blank).result = .ok {} ∧ (load emptyAndBroken plain).result = .ok {} := by
  intro broken kept blank plain denied
  have hbroken : Finding.At emptyAndBroken broken .notUtf8 :=
    ⟨[0xff], by decide +kernel, by decide +kernel⟩
  have hkept : emptyAndBroken.files.read? kept = some (.error denied) := by decide +kernel
  have hblank : emptyAndBroken.Spells blank (.obj []) :=
    ⟨" \n", .yaml, ⟨Text.encode " \n", by decide +kernel, Text.decode?_encode _⟩,
      by decide +kernel, (load_outcome emptyAndBroken blank).2.2.2.1 _ (by decide +kernel)⟩
  have hplain : emptyAndBroken.Spells plain (.obj []) :=
    ⟨"\x7b\x7d", .json, ⟨Text.encode "\x7b\x7d", by decide +kernel, Text.decode?_encode _⟩,
      by decide +kernel, by rfl⟩
  have hload := (load_outcome emptyAndBroken blank).2.1 (.conforming {}) ⟨_, hblank, by rfl, by rfl⟩
  refine ⟨hbroken, (load_outcome emptyAndBroken broken).2.1 _ hbroken, hkept,
    (load_outcome emptyAndBroken kept).2.1 (.keptBack denied) hkept, hblank, hplain, hload, ?_⟩
  rcases (load_outcome emptyAndBroken blank).2.2.2.2 _ _ _ hblank hplain with
    ⟨d, hd, hload'⟩ | ⟨violations, hfaults, -⟩
  · obtain rfl : d = {} := Except.ok.inj (hd.symm.trans hload)
    exact hload'
  · cases hfaults.symm.trans hload

/-- Without the files that are kept back the list of outcomes is not complete. -/
theorem load_outcome_keptBack :
    let path := Path.ofString "p.toml"
    let denied : IoFailure := ⟨.permissionDenied, ⟨"Permission denied (os error 13)", []⟩⟩
    let store : Store := { files := FileTree.put {} [path.bytes] (.file (.error denied)) }
    store.files.read? path ≠ none ∧
      (load store path).result =
        .error (.notFound path (some (.io path .permissionDenied denied.failure))) ∧
      ∀ finding : Finding, (∀ f, finding ≠ .keptBack f) →
        (load store path).result ≠ finding.verdict store.complaint path := by
  intro path denied store
  have hkept : store.files.read? path = some (.error denied) := by decide +kernel
  have hfound : (Finding.keptBack denied).At store path := hkept
  have hload : (load store path).result =
      .error (.notFound path (some (.io path .permissionDenied denied.failure))) := hfound.load_result
  refine ⟨by simp [hkept], hload, fun finding hother => ?_⟩
  rw [hload]
  cases finding with
  | keptBack f => exact absurd rfl (hother f)
  | missing | notUtf8 | unsupported | malformed | nonconforming | conforming => nofun

end ProvidersDocument

end Provisioning
