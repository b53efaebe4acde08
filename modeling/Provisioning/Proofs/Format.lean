import Provisioning.Format
import Provisioning.Proofs.Path.FileName
import Provisioning.Proofs.Text.Lowercase
import Provisioning.Proofs.Text.Utf8

/-!
# The format of a path

The name that a path ends in decides on the format of the document there, by what stands behind its last
dot. Only the case of ASCII letters does not matter. A path without a format is reported with its
extension as it is written.
-/

namespace Provisioning.Format

variable {p : Path} {format : Format} {ext known : String}

def extensions : Format → List String
  | toml => ["toml"]
  | json => ["json"]
  | yaml => ["yaml", "yml"]

theorem mem_extensions_iff :
    known ∈ format.extensions ↔ (format = .toml ∧ known = "toml") ∨ (format = .json ∧ known = "json") ∨
      (format = .yaml ∧ (known = "yaml" ∨ known = "yml")) := by
  cases format <;> simp [extensions]

theorem ofExtension?_eq_some_iff {chars : List Char} :
    ofExtension? chars = some format ↔ ∃ known ∈ format.extensions, chars = known.toList := by
  constructor
  · intro h
    unfold ofExtension? at h
    split at h
    next hc =>
      cases h
      exact ⟨"toml", by decide, hc⟩
    next =>
      split at h
      next hc =>
        cases h
        exact ⟨"json", by decide, hc⟩
      next =>
        split at h
        next hc =>
          cases h
          rcases hc with hc | hc
          · exact ⟨"yaml", by decide, hc⟩
          · exact ⟨"yml", by decide, hc⟩
        next => cases h
  · rintro ⟨known, hknown, rfl⟩
    rcases mem_extensions_iff.mp hknown with ⟨rfl, rfl⟩ | ⟨rfl, rfl⟩ | ⟨rfl, rfl | rfl⟩ <;> rfl

theorem isPlainLetter_of_extension (h : known ∈ format.extensions) :
    ∀ c ∈ known.toList, Text.IsPlainLetter c := by
  have hall : known.toList.all (fun c => decide (Text.IsPlainLetter c)) = true := by
    rcases mem_extensions_iff.mp h with ⟨-, rfl⟩ | ⟨-, rfl⟩ | ⟨-, rfl | rfl⟩ <;> decide
  intro c hc
  exact of_decide_eq_true (List.all_eq_true.mp hall c hc)

/-- That capitals beyond ASCII have small letters too lets no more extensions through. -/
theorem exists_lower_eq_iff (ext : String) :
    (∃ known ∈ format.extensions, Text.lower ext.toList = known.toList) ↔
      ext.toLower ∈ format.extensions := by
  have hsame : ∀ known ∈ format.extensions,
      (Text.lower ext.toList = known.toList ↔ ext.toLower = known) := by
    intro known hknown
    have hlower : ext.toLower.toList = ext.toList.map Char.toLower := String.toList_map ..
    rw [Text.lower_eq_iff (isPlainLetter_of_extension hknown), ← String.toList_inj, hlower]
  constructor
  · rintro ⟨known, hknown, heq⟩
    rw [(hsame known hknown).mp heq]
    exact hknown
  · intro h
    exact ⟨_, h, (hsame _ h).mpr rfl⟩

/-! ## Paths -/

theorem extensionText_eq_iff :
    extensionText p = ext ↔ p.HasExtension (Text.encode ext) ∨
      ext = "" ∧ ∀ s, ¬ p.HasExtension (Text.encode s) := by
  have hsome : ∀ s, p.extension?.bind Text.decode? = some s ↔ p.HasExtension (Text.encode s) := by
    intro s
    rw [Option.bind_eq_some_iff, ← Path.extension?_eq_some_iff]
    simp [Text.decode?_eq_some_iff]
  unfold extensionText
  cases htext : p.extension?.bind Text.decode? with
  | none =>
    have hnone : ∀ s, ¬ p.HasExtension (Text.encode s) := by
      intro s hs
      rw [(hsome s).mpr hs] at htext
      cases htext
    simp [hnone, eq_comm]
  | some s =>
    have hs := (hsome s).mp htext
    constructor
    · rintro rfl
      exact .inl hs
    · rintro (hext | ⟨-, hnone⟩)
      · rw [(hsome ext).mpr hext] at htext
        cases htext
        rfl
      · exact (hnone s hs).elim

theorem ofPath_eq_ok_iff_text :
    ofPath p = .ok format ↔ (extensionText p).toLower ∈ format.extensions := by
  rw [← exists_lower_eq_iff, ← ofExtension?_eq_some_iff, ofPath]
  cases ofExtension? (Text.lower (extensionText p).toList) <;> simp

theorem ofPath_eq_ok_iff :
    ofPath p = .ok format ↔
      ∃ ext, p.HasExtension (Text.encode ext) ∧ ext.toLower ∈ format.extensions := by
  rw [ofPath_eq_ok_iff_text]
  constructor
  · intro h
    rcases extensionText_eq_iff.mp (rfl : extensionText p = _) with hext | ⟨hnone, -⟩
    · exact ⟨_, hext, h⟩
    · have hempty : "".toLower = "" := by decide +kernel
      rw [hnone, hempty] at h
      exact absurd h (by cases format <;> decide)
  · rintro ⟨ext, hext, hknown⟩
    rwa [extensionText_eq_iff.mpr (.inl hext)]

theorem ofPath_eq_error_iff_text :
    ofPath p = .error ext ↔ (∀ format, ofPath p ≠ .ok format) ∧ extensionText p = ext := by
  unfold ofPath
  dsimp only
  cases ofExtension? (Text.lower (extensionText p).toList) <;> simp

/-- A document has a format if the name of its path ends in one of four extensions, behind a dot that is
not its first character; else the extension is reported as it is written. -/
theorem format_detected (p : Path) :
    (∀ format, ofPath p = .ok format ↔
      ∃ name stem ext, p.EndsIn name ∧ name ≠ [Path.dot, Path.dot] ∧
        name = stem ++ Path.dot :: Text.encode ext ∧ stem ≠ [] ∧ Path.dot ∉ Text.encode ext ∧
        ext.toLower ∈ format.extensions) ∧
    (∀ ext, ofPath p = .error ext ↔
      (∀ format, ofPath p ≠ .ok format) ∧
        (p.HasExtension (Text.encode ext) ∨ ext = "" ∧ ∀ s, ¬ p.HasExtension (Text.encode s))) ∧
    (∀ (format : Format) (ext : String),
      (∃ known ∈ format.extensions, Text.lower ext.toList = known.toList) ↔
        ext.toLower ∈ format.extensions) ∧
    (∀ rest, p.EndsIn (Path.dot :: rest) → Path.dot ∉ rest →
      (∀ ext, ¬ p.HasExtension ext) ∧ ofPath p = .error "") ∧
    ∀ directories, Path.IsName p.bytes → ofPath ⟨directories ++ Path.slash :: p.bytes⟩ = ofPath p := by
  refine ⟨?_, ?_, fun format ext => exists_lower_eq_iff ext, ?_, ?_⟩
  · intro format
    rw [ofPath_eq_ok_iff]
    constructor
    · rintro ⟨ext, ⟨name, stem, hends, hne, hname, hstem, hdot⟩, hknown⟩
      exact ⟨name, stem, ext, hends, hne, hname, hstem, hdot, hknown⟩
    · rintro ⟨name, stem, ext, hends, hne, hname, hstem, hdot, hknown⟩
      exact ⟨ext, ⟨name, stem, hends, hne, hname, hstem, hdot⟩, hknown⟩
  · intro ext
    rw [ofPath_eq_error_iff_text, extensionText_eq_iff]
  · intro rest hends hdot
    have hnone : ∀ ext, ¬ p.HasExtension ext := fun ext => hends.not_hasExtension hdot
    refine ⟨hnone, ofPath_eq_error_iff_text.mpr ⟨?_, ?_⟩⟩
    · intro format hok
      obtain ⟨ext, hext, -⟩ := ofPath_eq_ok_iff.mp hok
      exact hnone _ hext
    · exact extensionText_eq_iff.mpr (.inr ⟨rfl, fun s => hnone _⟩)
  · intro directories hname
    have hsame := Path.extension?_append_slash directories hname
    simp only [ofPath, extensionText, hsame]

/-- A directory without a text, two dots in the name, and more behind it than a slash. -/
theorem format_detected_at_last_dot :
    let directories : List UInt8 := [0xff, Path.dot, Path.dot]
    let name := Text.encode "..YmL"
    let hidden := Text.encode ".toml"
    ofPath ⟨directories ++ Path.slash :: name ++ [Path.slash, Path.dot, Path.slash]⟩ = .ok yaml ∧
      ofPath ⟨directories ++ Path.slash :: name⟩ = ofPath ⟨name⟩ ∧
      ofPath ⟨directories ++ Path.slash :: hidden⟩ = .error "" := by
  intro directories name hidden
  have habove : (directories ++ [Path.slash]).getLast? = some Path.slash := by decide
  have hname : Path.IsName name := by constructor <;> decide +kernel
  have hhidden : Path.IsName hidden := by constructor <;> decide +kernel
  refine ⟨((format_detected _).1 yaml).mpr ?_, (format_detected ⟨name⟩).2.2.2.2 directories hname,
    ((format_detected _).2.2.2.1 (Text.encode "toml") ?_ ?_).2⟩
  · refine ⟨name, [Path.dot], "YmL", ⟨directories ++ [Path.slash], _, ?_, .inr habove, hname,
      ⟨[[Path.dot], []], by decide, rfl⟩⟩, ?_⟩
    all_goals decide +kernel
  · exact ⟨directories ++ [Path.slash], [], by decide +kernel, .inr habove, hhidden, [], by decide, rfl⟩
  · decide +kernel

end Provisioning.Format
