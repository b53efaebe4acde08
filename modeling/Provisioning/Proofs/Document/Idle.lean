import Provisioning.Proofs.Document.Finding
import Provisioning.Proofs.Settings

/-!
# Documents that say nothing

A text may be nothing but spaces, comments and line ends. As TOML it is an empty table. As YAML it is one
only if there is no comment in it, and a null otherwise, which is neither a providers document nor
settings.
-/

namespace Provisioning

namespace Text

/-- A line that says nothing: spaces, and perhaps a comment of printable ASCII characters. -/
inductive IdleLine : List Char → Prop where
  | spaces (n : Nat) : IdleLine (List.replicate n ' ')
  | comment (n : Nat) {text : List Char} (h : ∀ c ∈ text, ' ' ≤ c ∧ c ≤ '~') :
      IdleLine (List.replicate n ' ' ++ '#' :: text)

def lineEnds : List (List Char) := [['\n'], ['\r', '\n']]

/-- A text of any number of lines that say nothing. -/
inductive Idle : List Char → Prop where
  | last {line : List Char} (h : IdleLine line) : Idle line
  | cons {line ending rest : List Char} (h : IdleLine line) (he : ending ∈ lineEnds)
      (hrest : Idle rest) : Idle (line ++ (ending ++ rest))

theorem mem_lineEnds {ending : List Char} :
    ending ∈ lineEnds ↔ ending = ['\n'] ∨ ending = ['\r', '\n'] := by
  simp [lineEnds]

/-- What may stand after a line: nothing, or the end of the line and more. -/
def Ending (cs : List Char) : Prop :=
  cs = [] ∨ (∃ rest, cs = '\n' :: rest) ∨ ∃ rest, cs = '\r' :: '\n' :: rest

theorem Ending.of_mem {ending : List Char} (h : ending ∈ lineEnds) (rest : List Char) :
    Ending (ending ++ rest) := by
  rcases mem_lineEnds.mp h with rfl | rfl
  · exact .inr (.inl ⟨rest, rfl⟩)
  · exact .inr (.inr ⟨rest, rfl⟩)

/-- Whatever goes on through a line but not through line ends stops at its end. -/
theorem Ending.dropWhile {cs : List Char} (h : Ending cs) {test : Char → Bool}
    (hlf : test '\n' = false) (hcr : test '\r' = false) : cs.dropWhile test = cs := by
  rcases h with rfl | ⟨rest, rfl⟩ | ⟨rest, rfl⟩
  · rfl
  · exact List.dropWhile_cons_of_neg (by simp [hlf])
  · exact List.dropWhile_cons_of_neg (by simp [hcr])

theorem dropWhile_spaces {test : Char → Bool} (h : test ' ' = true) (n : Nat) (cs : List Char) :
    (List.replicate n ' ' ++ cs).dropWhile test = cs.dropWhile test := by
  induction n with
  | zero => rfl
  | succ n ih => simp [List.replicate_succ, h, ih]

theorem dropWhile_comment {test : Char → Bool} (h : ∀ c, ' ' ≤ c → c ≤ '~' → test c = true)
    {text : List Char} (ht : ∀ c ∈ text, ' ' ≤ c ∧ c ≤ '~') (cs : List Char) :
    (text ++ cs).dropWhile test = cs.dropWhile test :=
  List.dropWhile_append_of_pos fun c hc => h c (ht c hc).1 (ht c hc).2

theorem IdleLine.printable {line : List Char} (h : IdleLine line) :
    ∀ c ∈ line, ' ' ≤ c ∧ c ≤ '~' := by
  have hspaces : ∀ n, ∀ c ∈ List.replicate n ' ', ' ' ≤ c ∧ c ≤ '~' := by
    intro n c hc
    rw [List.eq_of_mem_replicate hc]
    decide
  cases h with
  | spaces n => exact hspaces n
  | comment n ht =>
    refine List.forall_mem_append.mpr ⟨hspaces n, List.forall_mem_cons.mpr ⟨by decide, ht⟩⟩

theorem head?_ne_mark {line cs : List Char} (h : IdleLine line) (hcs : Ending cs) :
    (line ++ cs).head? ≠ some '\ufeff' := by
  cases line with
  | nil => rcases hcs with rfl | ⟨rest, rfl⟩ | ⟨rest, rfl⟩ <;> simp
  | cons c line =>
    intro hc
    cases hc
    exact absurd (h.printable _ List.mem_cons_self) (by decide)

theorem Idle.chars {text : List Char} (h : Idle text) :
    ∀ c ∈ text, c = '\n' ∨ c = '\r' ∨ ' ' ≤ c ∧ c ≤ '~' := by
  have hends : ∀ ending ∈ lineEnds, ∀ c ∈ ending, c = '\n' ∨ c = '\r' := by simp [lineEnds]
  induction h with
  | last h => exact fun c hc => .inr (.inr (h.printable c hc))
  | cons h he _ ih =>
    refine List.forall_mem_append.mpr ⟨fun c hc => .inr (.inr (h.printable c hc)), ?_⟩
    refine List.forall_mem_append.mpr ⟨fun c hc => ?_, ih⟩
    exact (hends _ he c hc).imp_right .inl

theorem IdleLine.isBlank_of_not_mem {line : List Char} (h : IdleLine line) (hno : '#' ∉ line) :
    isBlank line = true := by
  cases h with
  | spaces n =>
    refine List.all_eq_true.mpr fun c hc => ?_
    rw [List.eq_of_mem_replicate hc]
    decide
  | comment n h => simp at hno

/-- A text that says nothing is white space unless there is a comment in it. -/
theorem Idle.isBlank_iff {text : List Char} (h : Idle text) :
    isBlank text = true ↔ '#' ∉ text := by
  constructor
  · intro hblank hmem
    have hsign : whiteSpace.contains '#'.toNat = true := List.all_eq_true.mp hblank '#' hmem
    exact absurd hsign (by decide)
  · intro hno
    have hends : ∀ ending ∈ lineEnds, isBlank ending = true := by decide
    induction h with
    | last h => exact h.isBlank_of_not_mem hno
    | cons h he _ ih =>
      simp only [List.mem_append, not_or] at hno
      have hline := h.isBlank_of_not_mem hno.1
      have hending := hends _ he
      have hrest := ih hno.2.2
      simp_all [isBlank, List.all_append]

end Text

/-! ## TOML -/

namespace Toml

open Text

variable {cs line rest : List Char} {s : State} {fuel : Nat}

theorem lines?_spaces (n : Nat) :
    lines? (fuel + 1) s (List.replicate n ' ' ++ cs) = lines? (fuel + 1) s cs := by
  have hskip : skipBlank (List.replicate n ' ' ++ cs) = skipBlank cs := dropWhile_spaces rfl n cs
  rw [lines?, lines?, hskip]

theorem isLineChar_of_printable (c : Char) (hc : ' ' ≤ c) (hc' : c ≤ '~') : isLineChar c = true := by
  have hne : c ≠ '\x7f' := by
    rintro rfl
    exact absurd hc' (by decide)
  simp [isLineChar, hc, hne]

theorem lineRest?_comment {text : List Char} (ht : ∀ c ∈ text, ' ' ≤ c ∧ c ≤ '~') (hcs : Ending cs) :
    lineRest? ('#' :: (text ++ cs)) = lineRest? cs := by
  have hstop : (text ++ cs).dropWhile isLineChar = cs := by
    rw [dropWhile_comment isLineChar_of_printable ht, hcs.dropWhile rfl rfl]
  have hskip : skipBlank ('#' :: (text ++ cs)) = '#' :: (text ++ cs) := rfl
  rw [lineRest?, hskip, skipComment, hstop]
  rcases hcs with rfl | ⟨rest, rfl⟩ | ⟨rest, rfl⟩ <;> rfl

theorem lines?_line (h : IdleLine line) (hcs : Ending cs) :
    lines? (fuel + 1) s (line ++ cs) =
      (lineRest? cs).bind fun rest => lines? fuel s rest := by
  cases h with
  | spaces n =>
    rw [lines?_spaces]
    rcases hcs with rfl | ⟨rest, rfl⟩ | ⟨rest, rfl⟩
    · cases fuel <;> rfl
    · rfl
    · rfl
  | comment n ht =>
    rw [List.append_assoc, lines?_spaces, ← lineRest?_comment ht hcs]
    rfl

theorem lines?_idle (h : Idle cs) : cs.length < fuel → lines? fuel s cs = some s := by
  induction h generalizing fuel with
  | @last line h =>
    intro hfuel
    obtain ⟨fuel, rfl⟩ := Nat.exists_eq_add_one_of_ne_zero (Nat.ne_zero_of_lt hfuel)
    rw [← List.append_nil line, lines?_line h (.inl rfl)]
    cases fuel <;> rfl
  | @cons line ending rest h he _ ih =>
    intro hfuel
    obtain ⟨fuel, rfl⟩ := Nat.exists_eq_add_one_of_ne_zero (Nat.ne_zero_of_lt hfuel)
    have hrest : lineRest? (ending ++ rest) = some rest ∧ 0 < ending.length := by
      rcases mem_lineEnds.mp he with rfl | rfl <;> exact ⟨rfl, by decide⟩
    simp only [List.length_append] at hfuel
    rw [lines?_line h (.of_mem he rest), hrest.1]
    exact ih (by omega)

theorem read?_idle {text : List Char} (h : Idle text) : read? text = some (.obj []) := by
  have hmark : dropMark text = text := by
    unfold dropMark
    split
    next => exact absurd (h.chars _ List.mem_cons_self) (by decide)
    next => rfl
  rw [read?, hmark, lines?_idle h (Nat.lt_succ_self _)]
  rfl

end Toml

/-! ## YAML -/

namespace Yaml

open Text

theorem isAllowed_of_idle {text : List Char} (h : Idle text) : text.all isAllowed = true := by
  refine List.all_eq_true.mpr fun c hc => ?_
  rcases h.chars c hc with rfl | rfl | ⟨hc, hc'⟩
  · rfl
  · rfl
  · simp [isAllowed, hc, hc']

theorem isBreak_of_printable (c : Char) (hc : ' ' ≤ c) (hc' : c ≤ '~') : (!isBreak c) = true := by
  have hne : ∀ c', ¬ (' ' ≤ c' ∧ c' ≤ '~') → c ≠ c' := by
    rintro c' hno rfl
    exact hno ⟨hc, hc'⟩
  simp [isBreak, hne '\n' (by decide), hne '\r' (by decide), hne '\u0085' (by decide),
    hne '\u2028' (by decide), hne '\u2029' (by decide)]

namespace Cursor

theorem takeWhile_rest (c : Cursor) (test : Char → Bool) :
    (c.takeWhile test).2.rest = c.rest.dropWhile test := by
  simp only [Cursor.takeWhile, skip]
  induction c.rest with
  | nil => rfl
  | cons ch rest ih => by_cases h : test ch = true <;> simp [h, ih]

theorem skipComment_rest {c : Cursor} {text cs : List Char} (h : c.rest = '#' :: (text ++ cs))
    (ht : ∀ c ∈ text, ' ' ≤ c ∧ c ≤ '~') (hcs : Ending cs) : c.skipComment.rest = cs := by
  simp only [skipComment, h]
  rw [takeWhile_rest, h, List.dropWhile_cons_of_pos (by decide),
    dropWhile_comment isBreak_of_printable ht, hcs.dropWhile rfl rfl]

theorem skipComment_of_ending {c : Cursor} (h : Ending c.rest) : c.skipComment = c := by
  unfold skipComment
  split
  next hc => rcases h with h | ⟨rest, h⟩ | ⟨rest, h⟩ <;> simp [hc] at h
  next => rfl

theorem skipComment_line {c : Cursor} {line cs : List Char} (h : IdleLine line) (hcs : Ending cs)
    (hc : c.rest = line ++ cs) {test : Char → Bool} (hspace : test ' ' = true)
    (hno : ∀ ch ∈ ['#', '\n', '\r'], test ch = false) :
    (c.takeWhile test).2.skipComment.rest = cs := by
  have hrest : (c.takeWhile test).2.rest = (line ++ cs).dropWhile test := by
    rw [takeWhile_rest, hc]
  cases h with
  | spaces n =>
    rw [dropWhile_spaces hspace, hcs.dropWhile (hno _ (by simp)) (hno _ (by simp))] at hrest
    rw [skipComment_of_ending (by rw [hrest]; exact hcs), hrest]
  | comment n ht =>
    rw [List.append_assoc, dropWhile_spaces hspace,
      List.cons_append, List.dropWhile_cons_of_neg (by simp [hno])] at hrest
    exact skipComment_rest hrest ht hcs

end Cursor

namespace Scan

variable {s : Scan} {line cs : List Char} {fuel : Nat}

theorem skipGap_line (h : IdleLine line) (hcs : Ending cs) (hs : s.place.rest = line ++ cs) :
    ∃ c : Cursor, c.rest = cs ∧
      skipGap (fuel + 1) s =
        if startsBreak cs then
          skipGap fuel { s with place := c.nextLine.2, keyAllowed := s.flow = 0 || s.keyAllowed }
        else { s with place := c } := by
  have hmark : ¬ (s.place.column = 0 ∧ s.place.rest.head? = some '\ufeff') := by
    rw [hs]
    exact fun hm => head?_ne_mark h hcs hm.2
  simp only [skipGap, if_neg hmark]
  have hc (tabs : Bool) :
      (s.place.takeWhile fun ch => ch = ' ' || tabs && ch = '\t').2.skipComment.rest = cs :=
    Cursor.skipComment_line h hcs hs rfl (by simp)
  refine ⟨_, hc (s.flow > 0 || !s.keyAllowed), ?_⟩
  rw [hc]

theorem skipGap_idle (h : Idle cs) : s.place.rest = cs → cs.length < fuel →
    ∃ place allowed, place.rest = [] ∧
      skipGap fuel s = { s with place := place, keyAllowed := allowed } := by
  induction h generalizing s fuel with
  | @last line h =>
    intro hs hfuel
    obtain ⟨fuel, rfl⟩ := Nat.exists_eq_add_one_of_ne_zero (Nat.ne_zero_of_lt hfuel)
    obtain ⟨c, hc, hgap⟩ := skipGap_line h (.inl rfl) (hs.trans (List.append_nil line).symm)
    exact ⟨c, s.keyAllowed, hc, hgap⟩
  | @cons line ending rest h he _ ih =>
    intro hs hfuel
    obtain ⟨fuel, rfl⟩ := Nat.exists_eq_add_one_of_ne_zero (Nat.ne_zero_of_lt hfuel)
    obtain ⟨c, hc, hgap⟩ := skipGap_line h (.of_mem he rest) hs
    have hnext : c.nextLine.2.rest = rest ∧ startsBreak (ending ++ rest) = true ∧
        0 < ending.length := by
      rcases c with ⟨_, _, _, _⟩
      rcases mem_lineEnds.mp he with rfl | rfl <;> cases hc <;> exact ⟨rfl, rfl, by decide⟩
    have hleft : rest.length < fuel := by
      simp only [List.length_append] at hfuel
      omega
    rw [hgap, hnext.2.1, if_pos rfl]
    obtain ⟨place, allowed, hplace, hrest⟩ := ih
      (s := { s with place := c.nextLine.2, keyAllowed := s.flow = 0 || s.keyAllowed }) hnext.1 hleft
    exact ⟨place, allowed, hplace, hrest⟩

end Scan

theorem tokens?_idle {text : List Char} (h : Idle text) : tokens? text = some [.streamEnd] := by
  obtain ⟨place, allowed, hplace, hgap⟩ :=
    Scan.skipGap_idle (s := ⟨⟨text, 0, 0, 0⟩, [], 0, [], [none], true⟩) h rfl (Nat.lt_succ_self _)
  rw [tokens?, if_pos (isAllowed_of_idle h), Scan.run?, Scan.step?, hgap]
  simp [Scan.expireKeys?, Scan.unroll, Scan.flow, Scan.close, hplace, Scan.dropKey?, Scan.push]

/-- A text that says nothing stands for a null if there is a comment in it. -/
theorem read?_idle {text : List Char} (h : Idle text) :
    read? text = some (if '#' ∈ text then .null else .obj []) := by
  by_cases hno : '#' ∈ text
  · have hblank : ¬ Text.isBlank text = true := fun hb => h.isBlank_iff.mp hb hno
    rw [read?, if_neg hblank, tokens?_idle h, if_pos hno]
    rfl
  · rw [read?, if_pos (h.isBlank_iff.mpr hno), if_neg hno]

end Yaml

/-! ## Files -/

section Files

variable {store : Store} {path : Path} {text : String} {format : Format} {t : Tree}

theorem ProvidersDocument.load_of_empty (h : store.Spells path (.obj [])) :
    (load store path).result = .ok {} := by
  have hread : read (.obj []) = .ok {} := rfl
  rcases load_of_spells h with ⟨d, -, hread', hload⟩ | ⟨hv, -⟩
  · obtain rfl : d = {} := Except.ok.inj (hread'.symm.trans hread)
    exact hload
  · exact absurd rfl hv

theorem ProvidersDocument.load_of_null (h : store.Spells path .null) :
    (load store path).result =
      .error (.nonconforming path ["null is not of type \"object\""]) := by
  rcases load_of_spells h with ⟨d, hv, -⟩ | ⟨-, hload⟩
  · exact absurd hv nofun
  · rw [hload]
    rfl

theorem Settings.read_of_spells (hf : Format.ofPath path = .ok format) (h : store.Spells path t) :
    (read store path).result = interpret path format t := by
  simp only [read, hf, Store.spells_iff.mp h]
  rfl

theorem Settings.load_of_empty (hf : Format.ofPath path = .ok format)
    (h : store.Spells path (.obj [])) :
    (load store path).result = .ok (resolve path {}) := by
  rw [load_result_eq, read_of_spells hf h]
  rfl

theorem Settings.load_of_null (hf : Format.ofPath path = .ok format) (h : store.Spells path .null) :
    (load store path).result = .error (.settings path (.malformed path format.name
      "invalid type: null, expected struct FactorySettings")) :=
  load_of_unreadable (read_of_spells hf h)

/-- A file that says nothing holds an empty document and default settings. But if it is a YAML file with a
comment in it, it holds a null, which is neither a document nor settings. -/
theorem Store.idle_file_read (ht : store.files.HasText path text) (hi : Text.Idle text.toList) :
    (Format.ofPath path = .ok .toml ∨ Format.ofPath path = .ok .yaml ∧ '#' ∉ text.toList →
      (store.readTree path).result = .ok (.obj []) ∧
        (ProvidersDocument.load store path).result = .ok {} ∧
        (Settings.load store path).result = .ok (Settings.resolve path {})) ∧
    (Format.ofPath path = .ok .yaml ∧ '#' ∈ text.toList →
      (store.readTree path).result = .ok .null ∧
        (ProvidersDocument.load store path).result =
          .error (.nonconforming path ["null is not of type \"object\""]) ∧
        (Settings.load store path).result =
          .error (.settings path (.malformed path "YAML"
            "invalid type: null, expected struct FactorySettings"))) := by
  have hyaml : Format.yaml.parse? text.toList = _ := Yaml.read?_idle hi
  constructor
  · intro h
    have hspells : store.Spells path (.obj []) ∧ ∃ format, Format.ofPath path = .ok format := by
      rcases h with hf | ⟨hf, hno⟩
      · exact ⟨⟨text, _, ht, hf, Toml.read?_idle hi⟩, _, hf⟩
      · rw [if_neg hno] at hyaml
        exact ⟨⟨text, _, ht, hf, hyaml⟩, _, hf⟩
    obtain ⟨hempty, format, hf⟩ := hspells
    exact ⟨spells_iff.mp hempty, ProvidersDocument.load_of_empty hempty,
      Settings.load_of_empty hf hempty⟩
  · rintro ⟨hf, hcomment⟩
    rw [if_pos hcomment] at hyaml
    have hnull : store.Spells path .null := ⟨text, _, ht, hf, hyaml⟩
    exact ⟨spells_iff.mp hnull, ProvidersDocument.load_of_null hnull, Settings.load_of_null hf hnull⟩

end Files

def idleTwins : Store :=
  let first := FileTree.write {} (.ofString "conf/p.toml") (Text.encode "# off\n  \r\n")
  { files := first.write (.ofString "conf/p.YML") (Text.encode "# off\n  \r\n") }

theorem Store.idle_file_read_twins :
    let text := "# off\n  \r\n"
    let toml := Path.ofString "conf/p.toml"
    let yaml := Path.ofString "conf/p.YML"
    idleTwins.files.HasText toml text ∧ idleTwins.files.HasText yaml text ∧ Text.Idle text.toList ∧
      (ProvidersDocument.load idleTwins toml).result = .ok {} ∧
      (Settings.load idleTwins toml).result = .ok ⟨.ofString "conf/conf/providers.toml"⟩ ∧
      (ProvidersDocument.load idleTwins yaml).result =
        .error (.nonconforming yaml ["null is not of type \"object\""]) := by
  intro text toml yaml
  have htoml : idleTwins.files.HasText toml text :=
    ⟨Text.encode text, by decide +kernel, Text.decode?_encode text⟩
  have hyaml : idleTwins.files.HasText yaml text :=
    ⟨Text.encode text, by decide +kernel, Text.decode?_encode text⟩
  have hlines : text.toList =
      ['#', ' ', 'o', 'f', 'f'] ++ (['\n'] ++ ([' ', ' '] ++ (['\r', '\n'] ++ []))) := by
    decide
  have hidle : Text.Idle text.toList := by
    rw [hlines]
    exact .cons (.comment 0 (by simp [Char.le_def])) (by decide)
      (.cons (.spaces 2) (by decide) (.last (.spaces 0)))
  obtain ⟨-, hdocument, hsettings⟩ := (idle_file_read htoml hidle).1 (.inl (by decide +kernel))
  obtain ⟨-, hnull, -⟩ := (idle_file_read hyaml hidle).2 ⟨by decide +kernel, by decide +kernel⟩
  exact ⟨htoml, hyaml, hidle, hdocument, hsettings.trans (by decide +kernel), hnull⟩

/-- Not every file that says nothing is read as an empty object, as a document or as settings. -/
theorem Store.idle_file_misread :
    let text := "# c\n"
    let path := Path.ofString "e.yaml"
    let store : Store := { files := FileTree.write {} path (Text.encode text) }
    store.files.HasText path text ∧ Text.Idle text.toList ∧ Format.ofPath path = .ok .yaml ∧
      (store.readTree path).result ≠ .ok (.obj []) ∧
      (∀ d, (ProvidersDocument.load store path).result ≠ .ok d) ∧
      ∀ s, (Settings.load store path).result ≠ .ok s := by
  intro text path store
  have htext : store.files.HasText path text :=
    ⟨Text.encode text, by decide +kernel, Text.decode?_encode text⟩
  have hlines : text.toList = ['#', ' ', 'c'] ++ (['\n'] ++ []) := by decide
  have hidle : Text.Idle text.toList := by
    rw [hlines]
    exact .cons (.comment 0 (by simp [Char.le_def])) (by decide) (.last (.spaces 0))
  have hformat : Format.ofPath path = .ok .yaml := by decide +kernel
  have hcomment : '#' ∈ text.toList := by decide
  have hparse : Format.yaml.parse? text.toList = _ := Yaml.read?_idle hidle
  rw [if_pos hcomment] at hparse
  have hnull : store.Spells path .null := ⟨text, _, htext, hformat, hparse⟩
  refine ⟨htext, hidle, hformat, ?_, ?_, ?_⟩
  · rw [spells_iff.mp hnull]
    nofun
  · rw [ProvidersDocument.load_of_null hnull]
    nofun
  · rw [Settings.load_of_null hformat hnull]
    nofun

end Provisioning
