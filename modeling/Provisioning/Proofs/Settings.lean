import Mathlib.Data.List.Induction
import Provisioning.Document.Loading
import Provisioning.Proofs.Store.Reading
import Provisioning.Settings

/-!
# Missing settings and missing documents

A document that is missing counts as not found whatever its path. Settings that are missing do so only if
their path has the extension of a format, since it is looked at before the file. A complaint of the file
system other than that of text that is not UTF-8 makes a document count as not found, and settings as
invalid.
-/

namespace Provisioning

variable {store : Store} {path : Path}

theorem ProvidersDocument.load_of_missing (h : store.files.read? path = none) :
    (load store path).result = .error (.notFound path none) := by
  simp [load, Store.readTree_of_error (FileTree.readText_of_missing h), ConfigError.ofRead]

namespace Settings

/-- Settings are loaded by reading them as they are written, and then seeing the path in them from the
directory of the file. -/
theorem load_result_eq : (load store path).result =
    ((read store path).result.map (resolve path)).mapError (.settings path) := by
  unfold load
  dsimp only
  split
  next he =>
    rw [he]
    rfl
  next hs =>
    rw [hs]
    rfl

theorem load_of_unreadable {e : ReadError} (h : (read store path).result = .error e) :
    (load store path).result = .error (.settings path e) := by
  rw [load_result_eq, h]
  rfl

theorem load_of_unsupported {ext : String} (h : Format.ofPath path = .error ext) :
    (load store path).result = .error (.settings path (.unsupported ext)) := by
  apply load_of_unreadable
  simp only [read, h]

theorem load_of_missing {format : Format} (hf : Format.ofPath path = .ok format)
    (h : store.files.read? path = none) :
    (load store path).result = .error (.settings path (.notFound path)) := by
  apply load_of_unreadable
  simp only [read, hf, Store.readTree_of_error (FileTree.readText_of_missing h), Except.bind]

end Settings

namespace FactoryError

theorem kind_settings_eq_iff {e : ReadError} :
    (settings path e).kind = (config (.ofRead path e)).kind ↔
      ∀ place kind source, e = .io place kind source → kind = .invalidData := by
  cases e with
  | io place kind source =>
    by_cases hkind : kind = .invalidData <;>
      simp [FactoryError.kind, ConfigError.ofRead, ConfigError.isNotFound, ReadError.isNotFound, hkind]
  | notFound | malformed | unsupported =>
    simp [FactoryError.kind, ConfigError.ofRead, ConfigError.isNotFound, ReadError.isNotFound]

/-- How far settings and documents that cannot be read are classified alike: missing ones if the path has
the extension of a format, and others unless the file system has complained of something else than text
that is not UTF-8. -/
theorem missing_kinds {store : Store} {path : Path} (h : store.files.read? path = none) (e : ReadError)
    (place : Path) :
    (∃ e, (ProvidersDocument.load store path).result = .error e ∧
      (config e).kind = .configNotFound) ∧
    (∃ e, (Settings.load store path).result = .error e ∧
      (e.kind = .configNotFound ↔ ∃ format, Format.ofPath path = .ok format) ∧
      (e.kind = .configInvalid ↔ ∃ ext, Format.ofPath path = .error ext)) ∧
    ((settings place e).kind = (config (.ofRead place e)).kind ↔
      ∀ place kind source, e = .io place kind source → kind = .invalidData) := by
  refine ⟨⟨_, ProvidersDocument.load_of_missing h, rfl⟩, ?_, kind_settings_eq_iff⟩
  cases hf : Format.ofPath path with
  | ok format =>
    refine ⟨_, Settings.load_of_missing hf h, ?_⟩
    simp [FactoryError.kind, ReadError.isNotFound]
  | error ext =>
    refine ⟨_, Settings.load_of_unsupported hf, ?_⟩
    simp [FactoryError.kind, ReadError.isNotFound]

theorem missing_kinds_yaml :
    let path := Path.ofString "conf/s.YML"
    let denied : ReadError := .io path .permissionDenied ⟨"denied", []⟩
    (Store.files {}).read? path = none ∧
      (∃ e, (Settings.load {} path).result = .error e ∧ e.kind = .configNotFound) ∧
      (settings path denied).kind ≠ (config (.ofRead path denied)).kind := by
  intro path denied
  have hmissing : (Store.files {}).read? path = none := by decide +kernel
  obtain ⟨-, ⟨e, he, hfound, -⟩, hsame⟩ := missing_kinds hmissing denied path
  refine ⟨hmissing, ⟨e, he, hfound.mpr ⟨.yaml, by decide +kernel⟩⟩, ?_⟩
  intro heq
  cases hsame.mp heq _ _ _ rfl

/-- Not every missing file with settings counts as not found, and not every fault in reading is of the
same kind for settings as for documents. -/
theorem missing_kinds_differ :
    (¬ ∀ (store : Store) (path : Path), store.files.read? path = none →
      ∃ e, (Settings.load store path).result = .error e ∧ e.kind = .configNotFound) ∧
    ¬ ∀ (e : ReadError) (path : Path),
      (settings path e).kind = (config (.ofRead path e)).kind := by
  constructor
  · intro h
    obtain ⟨e, he, hkind⟩ := h {} (.ofString "s.xml") (by decide +kernel)
    have hformat : Format.ofPath (.ofString "s.xml") = .error "xml" := by decide +kernel
    rw [Settings.load_of_unsupported hformat] at he
    cases he
    cases hkind
  · intro h
    have hdenied := kind_settings_eq_iff.mp
      (h (.io (.ofString "s.toml") .permissionDenied ⟨"denied", []⟩) (.ofString "s.toml"))
    cases hdenied _ _ _ rfl

end FactoryError

end Provisioning
