import Provisioning.Store

/-!
# What reading a file comes to

A file is looked at in five steps: it is there, it can be read, it is UTF-8, its path has the extension of
a format, and it can be parsed in that format. The first step that fails gives the error.
-/

namespace Provisioning

namespace Format

theorem ofExtension?_eq_none_iff {ext : List Char} :
    ofExtension? ext = none ↔ ∀ known ∈ ["toml", "json", "yaml", "yml"], ext ≠ known.toList := by
  by_cases htoml : ext = "toml".toList
  · simp [ofExtension?, htoml]
  by_cases hjson : ext = "json".toList
  · simp [ofExtension?, hjson]
  by_cases hyaml : ext = "yaml".toList ∨ ext = "yml".toList
  · rcases hyaml with rfl | rfl <;> simp [ofExtension?]
  · simp_all [ofExtension?]

/-- A path has no format unless its extension is one of four, in letters of any case. -/
theorem ofPath_eq_error_iff {path : Path} {ext : String} :
    ofPath path = .error ext ↔
      ext = extensionText path ∧
        ∀ known ∈ ["toml", "json", "yaml", "yml"], Text.lower ext.toList ≠ known.toList := by
  rw [← ofExtension?_eq_none_iff, ofPath]
  constructor
  · intro h
    split at h
    next => cases h
    next hnone =>
      cases h
      exact ⟨rfl, hnone⟩
  · rintro ⟨rfl, hnone⟩
    rw [hnone]

end Format

namespace FileTree

variable {files : FileTree} {path : Path} {bytes : List UInt8} {text text' : String} {f : IoFailure}

def HasText (files : FileTree) (path : Path) (text : String) : Prop :=
  ∃ bytes, files.read? path = some (.ok bytes) ∧ Text.decode? bytes = some text

theorem readText_of_missing (h : files.read? path = none) :
    files.readText path = .error (.notFound path) := by
  simp [readText, h]

theorem readText_of_keptBack (h : files.read? path = some (.error f)) :
    files.readText path = .error (.ofIo path f) := by
  simp [readText, h]

theorem readText_of_not_utf8 (h : files.read? path = some (.ok bytes))
    (hd : Text.decode? bytes = none) : files.readText path = .error (.notUtf8 path) := by
  simp [readText, h, hd]

theorem readText_eq_ok_iff : files.readText path = .ok text ↔ files.HasText path text := by
  constructor
  · intro h
    unfold readText at h
    split at h
    next => cases h
    next => cases h
    next bytes hb =>
      split at h
      next => cases h
      next text' hd =>
        cases h
        exact ⟨bytes, hb, hd⟩
  · rintro ⟨bytes, hb, hd⟩
    simp [readText, hb, hd]

theorem HasText.unique (h : files.HasText path text) (h' : files.HasText path text') :
    text = text' := by
  rw [← readText_eq_ok_iff] at h h'
  exact Except.ok.inj (h.symm.trans h')

end FileTree

namespace Store

variable {store : Store} {path : Path} {text : String} {t : Tree}

theorem readTree_of_error {e : ReadError} (h : store.files.readText path = .error e) :
    store.readTree path = ⟨[], .error e⟩ := by
  simp [readTree, h]

theorem readTree_of_unsupported (h : store.files.HasText path text) {ext : String}
    (hf : Format.ofPath path = .error ext) :
    store.readTree path = ⟨[], .error (.unsupported ext)⟩ := by
  simp [readTree, FileTree.readText_eq_ok_iff.mpr h, hf]

theorem readTree_eq (h : store.files.HasText path text) {format : Format}
    (hf : Format.ofPath path = .ok format) :
    store.readTree path =
      ⟨[.parsing path format], format.parse (store.complaint format) path text⟩ := by
  simp [readTree, FileTree.readText_eq_ok_iff.mpr h, hf]

/-- The text of a file has a known format and spells a tree in it. -/
def Spells (store : Store) (path : Path) (t : Tree) : Prop :=
  ∃ text format, store.files.HasText path text ∧ Format.ofPath path = .ok format ∧
    format.parse? text.toList = some t

theorem spells_iff : store.Spells path t ↔ (store.readTree path).result = .ok t := by
  constructor
  · rintro ⟨text, format, htext, hformat, hparse⟩
    rw [readTree_eq htext hformat, Format.parse, hparse]
  · intro h
    cases htext : store.files.readText path with
    | error e => simp [readTree_of_error htext] at h
    | ok text =>
      rw [FileTree.readText_eq_ok_iff] at htext
      cases hformat : Format.ofPath path with
      | error ext => simp [readTree_of_unsupported htext hformat] at h
      | ok format =>
        cases hparse : format.parse? text.toList with
        | none => simp [readTree_eq htext hformat, Format.parse, hparse] at h
        | some t' =>
          obtain rfl : t' = t := by simpa [readTree_eq htext hformat, Format.parse, hparse] using h
          exact ⟨text, format, htext, hformat, hparse⟩

end Store

end Provisioning
