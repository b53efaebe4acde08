import Mathlib.Data.List.Infix
import Provisioning.FactoryError

/-!
# What error texts keep

An error that wraps another shows the text of the other at the end of its own, so that the texts slide
into one another down to a failure from outside, which comes with texts of its own. Where an error is
turned into one that wraps nothing, its details go into the message.
-/

namespace Provisioning

namespace Text

variable {text text' part : String}

def EndsIn (text tail : String) : Prop := tail.toList <:+ text.toList

def Contains (text part : String) : Prop := part.toList <:+: text.toList

theorem EndsIn.refl (text : String) : EndsIn text text := List.suffix_rfl

theorem EndsIn.trans (h : EndsIn text text') (h' : EndsIn text' part) : EndsIn text part :=
  List.IsSuffix.trans h' h

theorem endsIn_append (lead tail : String) : EndsIn (lead ++ tail) tail := by
  unfold EndsIn
  rw [String.toList_append]
  exact List.suffix_append ..

theorem EndsIn.contains (h : EndsIn text part) : Contains text part := List.IsSuffix.isInfix h

theorem Contains.refl (text : String) : Contains text text := List.infix_rfl

theorem contains_append (lead part : String) : Contains (lead ++ part) part :=
  (endsIn_append lead part).contains

theorem Contains.trans (h : Contains text text') (h' : Contains text' part) : Contains text part :=
  List.IsInfix.trans h' h

theorem Contains.append (h : Contains text part) (more : String) : Contains (text ++ more) part := by
  unfold Contains
  rw [String.toList_append]
  exact List.IsInfix.trans h (List.prefix_append ..).isInfix

theorem contains_intercalate {sep : String} {parts : List String} (h : part ∈ parts) :
    Contains (sep.intercalate parts) part := by
  unfold Contains
  rw [String.toList_intercalate]
  induction parts with
  | nil => cases h
  | cons first rest ih =>
    rw [List.map_cons]
    by_cases hrest : rest = []
    · subst hrest
      rw [List.mem_singleton.mp h]
      simp
    · rw [List.intercalate_cons_of_ne_nil (by simpa using hrest)]
      rcases List.mem_cons.mp h with rfl | hmem
      · rw [List.append_assoc]
        exact (List.prefix_append ..).isInfix
      · exact (ih hmem).trans (List.suffix_append ..).isInfix

/-- The first of some texts ends in each of them if each ends in the next. -/
theorem endsIn_of_isChain {texts : List String} (h : (text :: texts).IsChain EndsIn) :
    ∀ tail ∈ text :: texts, EndsIn text tail := by
  induction texts generalizing text with
  | nil =>
    intro tail htail
    rw [List.mem_singleton.mp htail]
    exact .refl text
  | cons next texts ih =>
    obtain ⟨hnext, hrest⟩ := List.isChain_cons_cons.mp h
    intro tail htail
    rcases List.mem_cons.mp htail with rfl | hmem
    · exact .refl tail
    · exact hnext.trans (ih hrest tail hmem)

end Text

/-- The texts of an error, from its own down to that of a failure from outside, which other texts stand
behind. What wraps an error puts words of its own before the text of that error. -/
inductive Telescope (behind : List String) : List String → Prop
  | root (text : String) : Telescope behind (text :: behind)
  | wrap (lead : String) {text : String} {rest : List String} :
    Telescope behind (text :: rest) → Telescope behind ((lead ++ text) :: text :: rest)

theorem Telescope.isChain {behind : List String} {text : String} {rest : List String}
    (h : Telescope behind (text :: rest)) :
    ∃ own, rest = own ++ behind ∧ (text :: own).IsChain Text.EndsIn := by
  generalize htexts : text :: rest = texts at h
  induction h generalizing text rest with
  | root first =>
    cases htexts
    exact ⟨[], rfl, .singleton first⟩
  | @wrap lead first below _ ih =>
    cases htexts
    obtain ⟨own, rfl, hchain⟩ := ih rfl
    exact ⟨first :: own, rfl, .cons_cons (Text.endsIn_append lead first) hchain⟩

/-! ## The texts of each kind of error -/

namespace ReadError

/-- The texts behind the failure from outside that an error wraps, if it wraps one. -/
def behind : ReadError → List String
  | io _ _ source => source.causes
  | _ => []

theorem telescope (e : ReadError) : Telescope e.behind (e.message :: e.causes) := by
  cases e with
  | io path kind source => exact .wrap _ (.root source.text)
  | notFound path => exact .root _
  | malformed path format detail => exact .root _
  | unsupported extension => exact .root _

end ReadError

namespace ProviderError

@[inherit_doc ReadError.behind]
def behind : ProviderError → List String
  | other failure => failure.causes
  | _ => []

theorem telescope (e : ProviderError) : Telescope e.behind (e.message :: e.causes) := by
  cases e with
  | other failure => exact .root failure.text
  | missingProperty name => exact .root _
  | invalidProperty name value reason => exact .root _

end ProviderError

namespace CreationError

@[inherit_doc ReadError.behind]
def behind : CreationError → List String
  | extensionNotFound => []
  | instantiationFailed failure => failure.causes
  | configurationRejected error => error.behind

theorem telescope (e : CreationError) : Telescope e.behind (e.message :: e.causes) := by
  cases e with
  | extensionNotFound => exact .root _
  | instantiationFailed failure => exact .wrap _ (.root failure.text)
  | configurationRejected error => exact .wrap _ error.telescope

end CreationError

namespace ConfigError

@[inherit_doc ReadError.behind]
def behind : ConfigError → List String
  | notFound _ (some source) => source.behind
  | _ => []

theorem contains_path (path : Path) (e : ReadError) :
    Text.Contains (ofRead path e).message path.display := by
  have hinvalid : ∀ detail, Text.Contains (invalid path detail).message path.display := fun detail =>
    ((Text.contains_append _ _).append _).append _
  have hnotFound : ∀ source, Text.Contains (notFound path source).message path.display := fun source =>
    Text.contains_append _ _
  cases e with
  | notFound place => exact hnotFound none
  | io place kind source =>
    rw [ofRead]
    by_cases hkind : kind = .invalidData
    · rw [if_pos hkind]
      exact hinvalid _
    · rw [if_neg hkind]
      exact hnotFound _
  | malformed place format detail => exact hinvalid _
  | unsupported extension => exact hinvalid _

/-- What says in detail why a document could not be read goes into the message, or stays behind it. -/
theorem keeps_detail (path place : Path) :
    (∀ format detail, Text.Contains (ofRead path (.malformed place format detail)).message format ∧
      Text.EndsIn (ofRead path (.malformed place format detail)).message detail) ∧
    (∀ extension,
      Text.EndsIn (ofRead path (.unsupported extension)).message (Text.quoted extension)) ∧
    (∀ source, Text.EndsIn (ofRead path (.io place .invalidData source)).message source.text) ∧
    ∀ kind source, kind ≠ .invalidData → (ofRead path (.io place kind source)).causes =
      (ReadError.io place kind source).message :: source.text :: source.causes := by
  have hinvalid : ∀ detail, Text.EndsIn (invalid path detail).message detail :=
    fun detail => Text.endsIn_append _ detail
  refine ⟨?_, ?_, ?_, ?_⟩
  · intro format detail
    have hdetail : Text.EndsIn (format ++ " syntax error: " ++ detail) detail := Text.endsIn_append _ _
    have hformat : Text.Contains (format ++ " syntax error: " ++ detail) format :=
      ((Text.Contains.refl format).append _).append _
    exact ⟨(hinvalid _).contains.trans hformat, (hinvalid _).trans hdetail⟩
  · intro extension
    exact (hinvalid _).trans (Text.endsIn_append _ _)
  · intro source
    rw [ofRead, if_pos rfl]
    exact (hinvalid _).trans (Text.endsIn_append _ _)
  · intro kind source hkind
    rw [ofRead, if_neg hkind]
    rfl

theorem keeps_violations (path : Path) (violations : List String) :
    Text.EndsIn (nonconforming path violations).message ("; ".intercalate violations) ∧
      ∀ violation ∈ violations, Text.Contains (nonconforming path violations).message violation := by
  have hall : Text.EndsIn (nonconforming path violations).message ("; ".intercalate violations) :=
    Text.endsIn_append _ _
  exact ⟨hall, fun violation h => hall.contains.trans (Text.contains_intercalate h)⟩

end ConfigError

namespace FactoryError

@[inherit_doc ReadError.behind]
def behind : FactoryError → List String
  | settings _ source => source.behind
  | creation _ _ source => source.behind
  | config error => error.behind
  | _ => []

theorem telescope {e : FactoryError} (h : ∀ error, e ≠ config error) :
    Telescope e.behind (e.message :: e.causes) := by
  cases e with
  | config error => exact (h error rfl).elim
  | settings path source => exact .wrap _ source.telescope
  | notInitialized => exact .root _
  | roleMissing role => exact .root _
  | creation role extension source => exact .wrap _ source.telescope

theorem endsIn_causes {e : FactoryError} (h : ∀ error, e ≠ config error) :
    ∃ own, e.causes = own ++ e.behind ∧ (e.message :: own).IsChain Text.EndsIn ∧
      ∀ text ∈ own, Text.EndsIn e.message text := by
  obtain ⟨own, hcauses, hchain⟩ := (telescope h).isChain
  exact ⟨own, hcauses, hchain, fun text hmem =>
    Text.endsIn_of_isChain hchain text (List.mem_cons_of_mem _ hmem)⟩

theorem contains_place (path : Path) (source : ReadError) :
    Text.Contains (settings path source).message path.display :=
  ((Text.contains_append _ _).append _).append _

theorem contains_part (role : Role) (extension : String) (source : CreationError) :
    Text.Contains (creation role extension source).message role.name ∧
      Text.Contains (creation role extension source).message extension :=
  ⟨((((Text.contains_append _ _).append _).append _).append _).append _,
    ((Text.contains_append _ _).append _).append _⟩

/-- The texts of an error lose nothing of what it wraps: each ends in the next, or they are those of the
error that it stands for. -/
theorem texts_lose_nothing :
    (∀ e : FactoryError, (∀ error, e ≠ config error) →
      (∃ own, e.causes = own ++ e.behind ∧ (e.message :: own).IsChain Text.EndsIn ∧
        ∀ text ∈ own, Text.EndsIn e.message text) ∧
      (e.behind = [] → (e.message :: e.causes).IsChain Text.EndsIn ∧
        ∀ root ∈ e.causes.getLast?, Text.EndsIn e.message root)) ∧
    (∀ role extension source,
      Text.Contains (creation role extension source).message role.name ∧
        Text.Contains (creation role extension source).message extension) ∧
    (∀ path source, Text.Contains (settings path source).message path.display) ∧
    (∀ error, (config error).message = error.message ∧ (config error).causes = error.causes) ∧
    (∀ path e, Text.Contains (ConfigError.ofRead path e).message path.display) ∧
    (∀ path place,
      (∀ format detail,
        Text.Contains (ConfigError.ofRead path (.malformed place format detail)).message format ∧
          Text.EndsIn (ConfigError.ofRead path (.malformed place format detail)).message detail) ∧
      (∀ extension,
        Text.EndsIn (ConfigError.ofRead path (.unsupported extension)).message
          (Text.quoted extension)) ∧
      (∀ source,
        Text.EndsIn (ConfigError.ofRead path (.io place .invalidData source)).message source.text) ∧
      ∀ kind source, kind ≠ .invalidData →
        (ConfigError.ofRead path (.io place kind source)).causes =
          (ReadError.io place kind source).message :: source.text :: source.causes) ∧
    ∀ path violations,
      Text.EndsIn (ConfigError.nonconforming path violations).message ("; ".intercalate violations) ∧
        ∀ violation ∈ violations,
          Text.Contains (ConfigError.nonconforming path violations).message violation := by
  refine ⟨?_, contains_part, contains_place, fun error => ⟨rfl, rfl⟩, ConfigError.contains_path,
    ConfigError.keeps_detail, ConfigError.keeps_violations⟩
  intro e h
  obtain ⟨own, hcauses, hchain, hends⟩ := endsIn_causes h
  refine ⟨⟨own, hcauses, hchain, hends⟩, ?_⟩
  intro hbehind
  have hown : e.causes = own := by rw [hcauses, hbehind, List.append_nil]
  rw [hown]
  exact ⟨hchain, fun root hroot => hends root (List.mem_of_getLast? hroot)⟩

/-- A provider refuses its configuration because of a file, and the system has its own word for why. -/
theorem texts_lose_nothing_nested :
    let failure : Failure := ⟨"cannot open state", ["permission denied"]⟩
    let refusal := creation .hook "audit" (.configurationRejected (.other failure))
    let plain := creation .hook "audit" (.configurationRejected (.missingProperty "file"))
    (∃ own, refusal.causes = own ++ ["permission denied"] ∧
      (refusal.message :: own).IsChain Text.EndsIn ∧ ∀ text ∈ own, Text.EndsIn refusal.message text) ∧
      (plain.message :: plain.causes).IsChain Text.EndsIn ∧
      Text.EndsIn plain.message "missing required property 'file'" ∧
      (ConfigError.ofRead ⟨[]⟩ (.io ⟨[]⟩ .permissionDenied failure)).causes =
        ["I/O error at : cannot open state", "cannot open state", "permission denied"] := by
  intro failure refusal plain
  obtain ⟨hlaw, -, -, -, -, hdetail, -⟩ := texts_lose_nothing
  obtain ⟨hchain, hroot⟩ := (hlaw plain nofun).2 rfl
  exact ⟨(hlaw refusal nofun).1, hchain, hroot _ rfl,
    (hdetail ⟨[]⟩ ⟨[]⟩).2.2.2 .permissionDenied failure nofun⟩

end FactoryError

end Provisioning
