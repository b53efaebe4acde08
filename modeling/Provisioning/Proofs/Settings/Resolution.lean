import Provisioning.Host
import Provisioning.Proofs.Course.Hooks
import Provisioning.Proofs.Course.Lifecycle
import Provisioning.Proofs.Store.Ordered
import Provisioning.Proofs.Json.RoundTrip
import Provisioning.Proofs.Path
import Provisioning.Proofs.Record
import Provisioning.Proofs.Settings

/-!
# Where settings place the document

What loading settings comes to follows from the path of the file and from what the file holds, if there is
one. A relative path in it is written after the directory of the file, and there always is such a
directory, since a path without a name has no format. A factory with the settings then reads that path.
-/

namespace Provisioning

namespace Settings

variable {path f : Path} {content : Option (Except IoFailure (List UInt8))} {format : Format} {t : Tree}
  {complaint : Format → String → String}

/-! ## What the file holds -/

def readContent (complaint : Format → String → String) (path : Path)
    (content : Option (Except IoFailure (List UInt8))) : Except ReadError Settings :=
  match Format.ofPath path with
  | .error extension => .error (.unsupported extension)
  | .ok format =>
    match content with
    | none => .error (.notFound path)
    | some (.error failure) => .error (.ofIo path failure)
    | some (.ok bytes) =>
      match Text.decode? bytes with
      | none => .error (.notUtf8 path)
      | some text => (format.parse (complaint format) path text).bind (interpret path format)

/-- What loading settings from a path comes to, given what an attempt to read the file there gives if there
is one. -/
def loadContent (complaint : Format → String → String) (path : Path)
    (content : Option (Except IoFailure (List UInt8))) : Except FactoryError Settings :=
  ((readContent complaint path content).map (resolve path)).mapError (.settings path)

theorem read_result (store : Store) (path : Path) :
    (read store path).result = readContent store.complaint path (store.files.read? path) := by
  unfold read readContent
  cases hf : Format.ofPath path with
  | error extension => rfl
  | ok format =>
    cases hfile : store.files.read? path with
    | none => simp [Store.readTree_of_error (FileTree.readText_of_missing hfile), Except.bind]
    | some content =>
      cases content with
      | error failure =>
        simp [Store.readTree_of_error (FileTree.readText_of_keptBack hfile), Except.bind]
      | ok bytes =>
        cases hd : Text.decode? bytes with
        | none => simp [Store.readTree_of_error (FileTree.readText_of_not_utf8 hfile hd), hd, Except.bind]
        | some text => simp [Store.readTree_eq ⟨bytes, hfile, hd⟩ hf, hd]

/-- Nothing of the files matters beyond what an attempt to read the one at the path gives. -/
theorem load_result (store : Store) (path : Path) :
    (load store path).result = loadContent store.complaint path (store.files.read? path) := by
  rw [load_result_eq, read_result, loadContent]

/-- A tree declares where the document is, or leaves it open: in an object or as the item of a list. -/
inductive Declares : Tree → Option String → Prop where
  | openObject : Declares (.obj []) none
  | object (s : String) : Declares (.obj [("providers_file", .str s)]) (some s)
  | openList : Declares (.arr []) none
  | list (s : String) : Declares (.arr [.str s]) (some s)

def declaredPath : Option String → Path
  | some s => .ofString s
  | none => .ofString "conf/providers.toml"

theorem readPath_eq_ok_iff : readPath t = .ok f ↔ ∃ s, t = .str s ∧ f = .ofString s := by
  cases t <;> simp [readPath, eq_comm]

theorem read_iff_declares (ht : t.Ordered) {s : Settings} :
    record.read t = .ok s ↔ ∃ declared, Declares t declared ∧ s = ⟨declaredPath declared⟩ := by
  rw [Record.read_single_iff rfl rfl ht]
  constructor
  · rintro ⟨x, hshape, hread⟩
    obtain ⟨f, hf, rfl⟩ := (Field.readPlace_iff (fun _ f => ⟨f⟩) (declaredPath none) rfl rfl).mp hread
    rcases hf with ⟨rfl, rfl⟩ | ⟨u, rfl, hu⟩
    · rcases hshape with rfl | rfl
      · exact ⟨none, .openObject, rfl⟩
      · exact ⟨none, .openList, rfl⟩
    · obtain ⟨text, rfl, rfl⟩ := readPath_eq_ok_iff.mp hu
      rcases hshape with rfl | rfl
      · exact ⟨some text, .object text, rfl⟩
      · exact ⟨some text, .list text, rfl⟩
  · rintro ⟨declared, h, rfl⟩
    cases h with
    | openObject => exact ⟨none, .inl rfl, rfl⟩
    | object s => exact ⟨some (.str s), .inl rfl, rfl⟩
    | openList => exact ⟨none, .inr rfl, rfl⟩
    | list s => exact ⟨some (.str s), .inr rfl, rfl⟩

/-- What the content of the file at a path says: where the document is, or why that cannot be told. Of
several faults the first counts. -/
inductive Says (complaint : Format → String → String) (path : Path) :
    Option (Except IoFailure (List UInt8)) → Except ReadError Path → Prop where
  | unsupported {content : Option (Except IoFailure (List UInt8))}
      (hf : ∀ known ∈ ["toml", "json", "yaml", "yml"],
        Text.lower (Format.extensionText path).toList ≠ known.toList) :
      Says complaint path content (.error (.unsupported (Format.extensionText path)))
  | missing {format : Format} (hf : Format.ofPath path = .ok format) :
      Says complaint path none (.error (.notFound path))
  | gone {format : Format} {failure : IoFailure} (hf : Format.ofPath path = .ok format)
      (hk : failure.kind = .notFound) :
      Says complaint path (some (.error failure)) (.error (.notFound path))
  | keptBack {format : Format} {failure : IoFailure} (hf : Format.ofPath path = .ok format)
      (hk : failure.kind ≠ .notFound) :
      Says complaint path (some (.error failure)) (.error (.io path failure.kind failure.failure))
  | notUtf8 {format : Format} {bytes : List UInt8} (hf : Format.ofPath path = .ok format)
      (hd : Text.decode? bytes = none) :
      Says complaint path (some (.ok bytes)) (.error (.notUtf8 path))
  | malformed {format : Format} {bytes : List UInt8} {text : String}
      (hf : Format.ofPath path = .ok format) (hd : Text.decode? bytes = some text)
      (hp : format.parse? text.toList = none) :
      Says complaint path (some (.ok bytes))
        (.error (.malformed path format.name (complaint format text)))
  | misshapen {format : Format} {bytes : List UInt8} {text : String} {t : Tree} {fault : DecodeError}
      (hf : Format.ofPath path = .ok format) (hd : Text.decode? bytes = some text)
      (hp : format.parse? text.toList = some t) (ht : ∀ declared, ¬ Declares t declared)
      (hr : record.read t = .error fault) :
      Says complaint path (some (.ok bytes)) (.error (.malformed path format.name fault.message))
  | declares {format : Format} {bytes : List UInt8} {text : String} {t : Tree}
      {declared : Option String} (hf : Format.ofPath path = .ok format)
      (hd : Text.decode? bytes = some text) (hp : format.parse? text.toList = some t)
      (ht : Declares t declared) :
      Says complaint path (some (.ok bytes)) (.ok (declaredPath declared))

theorem Says.readContent_eq {outcome : Except ReadError Path}
    (h : Says complaint path content outcome) :
    readContent complaint path content = outcome.map Settings.mk := by
  cases h with
  | unsupported hf => simp [readContent, Format.ofPath_eq_error_iff.mpr ⟨rfl, hf⟩, Except.map]
  | missing hf => simp [readContent, hf, Except.map]
  | gone hf hk | keptBack hf hk => simp [readContent, hf, ReadError.ofIo, hk, Except.map]
  | notUtf8 hf hd => simp [readContent, hf, hd, Except.map]
  | malformed hf hd hp => simp [readContent, hf, hd, Format.parse, hp, Except.bind, Except.map]
  | misshapen hf hd hp ht hr =>
    simp [readContent, hf, hd, Format.parse, hp, interpret, hr, Except.bind, Except.map]
  | declares hf hd hp ht =>
    have hread := (read_iff_declares (Format.parse?_ordered hp)).mpr ⟨_, ht, rfl⟩
    simp [readContent, hf, hd, Format.parse, hp, interpret, hread, Except.bind, Except.map]

theorem exists_says_of_text {bytes : List UInt8} {text : String} (hf : Format.ofPath path = .ok format)
    (hd : Text.decode? bytes = some text) :
    ∃ outcome, Says complaint path (some (.ok bytes)) outcome := by
  cases hp : format.parse? text.toList with
  | none => exact ⟨_, .malformed hf hd hp⟩
  | some t =>
    have hshape := fun s => read_iff_declares (Format.parse?_ordered hp) (s := s)
    cases hr : record.read t with
    | ok s =>
      obtain ⟨declared, ht, -⟩ := (hshape s).mp hr
      exact ⟨_, .declares hf hd hp ht⟩
    | error fault =>
      refine ⟨_, .misshapen hf hd hp (fun declared ht => ?_) hr⟩
      cases hr.symm.trans ((hshape _).mpr ⟨declared, ht, rfl⟩)

theorem exists_outcome (complaint : Format → String → String) (path : Path)
    (content : Option (Except IoFailure (List UInt8))) :
    ∃ outcome, Says complaint path content outcome := by
  cases hf : Format.ofPath path with
  | error ext =>
    obtain ⟨rfl, hunknown⟩ := Format.ofPath_eq_error_iff.mp hf
    exact ⟨_, .unsupported hunknown⟩
  | ok format =>
    cases content with
    | none => exact ⟨_, .missing hf⟩
    | some content =>
      cases content with
      | error failure =>
        by_cases hk : failure.kind = .notFound
        · exact ⟨_, .gone hf hk⟩
        · exact ⟨_, .keptBack hf hk⟩
      | ok bytes =>
        cases hd : Text.decode? bytes with
        | none => exact ⟨_, .notUtf8 hf hd⟩
        | some text => exact exists_says_of_text hf hd

theorem existsUnique_outcome (complaint : Format → String → String) (path : Path)
    (content : Option (Except IoFailure (List UInt8))) :
    ∃! outcome, Says complaint path content outcome := by
  obtain ⟨outcome, h⟩ := exists_outcome complaint path content
  refine ⟨outcome, h, fun outcome' h' => ?_⟩
  have heq := h'.readContent_eq.symm.trans h.readContent_eq
  cases outcome <;> cases outcome' <;> simp_all [Except.map]

/-! ## Where the document is then looked for -/

theorem names_ne_nil_of_format (hf : Format.ofPath path = .ok format) : path.names ≠ [] := by
  intro hnone
  have hfile : path.fileName? = none := by simp [Path.fileName?, hnone]
  have htext : Format.extensionText path = "" := by
    simp [Format.extensionText, Path.extension?, hfile]
  cases hf.symm.trans (Format.ofPath_eq_error_iff.mpr ⟨htext.symm, by decide⟩)

theorem Says.exists_format (h : Says complaint path content (.ok f)) :
    ∃ format, Format.ofPath path = .ok format := by
  cases h with
  | declares hf => exact ⟨_, hf⟩

/-- Settings place the document that a file in a directory says is at `f`. -/
structure Places (s : Settings) (directory path f : Path) : Prop where
  /-- An absolute path is taken as it is. -/
  kept : f.isAbsolute = true → s.providersFile = f
  /-- Any other is written after the directory, with a slash between them where one is needed. -/
  joined : f.isAbsolute = false → s.providersFile.bytes = directory.bytes ++
    (if directory.bytes = [] ∨ directory.bytes.getLast? = some Path.slash then [] else [Path.slash]) ++
      f.bytes
  /-- A file that is named without a directory adds nothing. -/
  bare : Path.slash ∉ path.bytes → s.providersFile = f
  relative_iff : s.providersFile.isAbsolute = false ↔ path.isAbsolute = false ∧ f.isAbsolute = false

theorem resolve_places {directory : Path} (hp : path.parent? = some directory)
    (hd : directory.IsDirectory path) (hn : path.names ≠ []) (f : Path) :
    Places (resolve path ⟨f⟩) directory path f := by
  have hresolve : (resolve path ⟨f⟩).providersFile = directory.resolve f := by
    rw [resolve, hp]
  refine ⟨?_, ?_, ?_, ?_⟩
  · intro hf
    rw [hresolve, Path.resolve_of_absolute hf]
  · intro hf
    rw [hresolve, Path.resolve_bytes hf]
  · intro hs
    rw [hresolve, Path.resolve, hd.eq_nil hn hs]
    simp
  · rw [hresolve, Path.isAbsolute_resolve, hd.absolute, Bool.or_eq_false_iff]

/-- A factory with these settings that has no document yet asks for the one at a path when it is started,
and for no other; so a host gets the document that the file at this path holds. -/
structure StartsFrom (s : Settings) (p : Path) : Prop where
  asked {σ : Type} (answering : Answering Question.interface σ) (f : Factory σ)
    (hf : f.cells.document = .empty) :
    (f.asked s.plan answering .start).map Exchange.question = [.note (.loading p), .load p]
  loaded (h : Host) (hs : h.settings = s) (hf : h.factory.cells.document = .empty)
    (hd : h.deployment.source = .files) :
    (h.perform .start).1 =
      ((ProvidersDocument.load h.deployment.store p).result.mapError .config).map fun _ => .done

theorem startsFrom (s : Settings) : s.StartsFrom s.providersFile where
  asked answering f hf := by
    have hasked : f.asked s.plan answering .start = _ := Factory.asked_of_empty (s := .document) hf
    rw [hasked, hf]
    change (s.loadDocument.transcript answering f.around).map _ = _
    simp only [loadDocument, Dialogue.transcript, List.map_cons]
    split <;> rfl
  loaded h hs hf hd := by
    subst hs
    exact (Factory.perform_start h.settings Deployment.countsLoads hd hf).1

/-- Loading settings goes by the path and by what its file holds. What is said there is an error about the
path, or where the document is, seen from the directory of the file; and there a factory with the settings
looks for it. -/
theorem load_resolves (path : Path) :
    (∀ store : Store,
      (load store path).result = loadContent store.complaint path (store.files.read? path)) ∧
    ∀ (complaint : Format → String → String) (content : Option (Except IoFailure (List UInt8))),
      (∃! outcome, Says complaint path content outcome) ∧
      (∀ e, Says complaint path content (.error e) →
        loadContent complaint path content = .error (.settings path e)) ∧
      ∀ f, Says complaint path content (.ok f) → ∃ directory s,
        path.parent? = some directory ∧ directory.IsDirectory path ∧
          loadContent complaint path content = .ok s ∧ s.Places directory path f ∧
          s.StartsFrom s.providersFile := by
  refine ⟨fun store => load_result store path, fun complaint content =>
    ⟨existsUnique_outcome complaint path content, ?_, ?_⟩⟩
  · intro e h
    rw [loadContent, h.readContent_eq]
    rfl
  · intro f h
    obtain ⟨format, hformat⟩ := h.exists_format
    have hnames := names_ne_nil_of_format hformat
    obtain ⟨directory, hparent, hdirectory⟩ := Path.parent?_isDirectory hnames
    refine ⟨directory, resolve path ⟨f⟩, hparent, hdirectory, ?_,
      resolve_places hparent hdirectory hnames f, startsFrom _⟩
    rw [loadContent, h.readContent_eq]
    rfl

theorem load_resolves_listed :
    let path := Path.ofString "/etc//./s.JSON"
    let complaint : Format → String → String := fun _ _ => "expected value"
    let content := some (.ok (Text.encode "[\"d.toml\"]"))
    Says complaint path content (.ok (.ofString "d.toml")) ∧
      ∃ s, loadContent complaint path content = .ok s ∧ s.providersFile = .ofString "/etc/d.toml" ∧
        s.StartsFrom (.ofString "/etc/d.toml") := by
  intro path complaint content
  have hformat : Format.ofPath path = .ok .json := by decide +kernel
  have hwritten : "[\"d.toml\"]".toList = Json.text (.arr [.str "d.toml"]) := by decide +kernel
  have hparse : Format.json.parse? "[\"d.toml\"]".toList = some (.arr [.str "d.toml"]) := by
    rw [hwritten]
    exact Json.read?_text (.arr (List.forall_mem_singleton.mpr (.str "d.toml"))) (by decide +kernel)
  have hsaid : Says complaint path content (.ok (.ofString "d.toml")) :=
    .declares hformat (Text.decode?_encode _) hparse (.list "d.toml")
  obtain ⟨directory, s, hparent, -, hload, hplaces, hstarts⟩ :=
    ((load_resolves path).2 complaint content).2.2 _ hsaid
  obtain rfl : directory = .ofString "/etc" := by
    have hetc : path.parent? = some (.ofString "/etc") := by decide +kernel
    exact Option.some.inj (hparent.symm.trans hetc)
  have hbytes : s.providersFile.bytes = (Path.ofString "/etc/d.toml").bytes :=
    (hplaces.joined (by decide +kernel)).trans (by decide +kernel)
  have hs : s.providersFile = .ofString "/etc/d.toml" := congrArg Path.mk hbytes
  exact ⟨hsaid, s, hload, hs, hs ▸ hstarts⟩

end Settings

end Provisioning
