import Provisioning.Proofs.Path

/-!
# What a path ends in

The name that a path ends in, said of its bytes alone: what stands before it is closed by a slash, and
behind it there are slashes with nothing or a single dot between them. The extension of a path is what
stands behind the last dot of that name.
-/

namespace Provisioning.Path

variable {p : Path} {bytes name name' stem ext : List UInt8} {pieces : List (List UInt8)}

/-- Some bytes can name an entry of a directory. -/
structure IsName (name : List UInt8) : Prop where
  ne_nil : name ≠ []
  ne_dot : name ≠ [dot]
  slashless : slash ∉ name

/-- Bytes that change nothing at the end of a path: each slash stands before nothing or a single dot. -/
def IsTrail (trail : List UInt8) : Prop :=
  ∃ pieces : List (List UInt8), (∀ piece ∈ pieces, piece = [] ∨ piece = [dot]) ∧
    trail = pieces.flatMap (slash :: ·)

def EndsIn (p : Path) (name : List UInt8) : Prop :=
  ∃ directories trail, p.bytes = directories ++ name ++ trail ∧
    (directories = [] ∨ directories.getLast? = some slash) ∧ IsName name ∧ IsTrail trail

/-- What stands behind the last dot of the name that a path ends in, if something stands before the dot
and the name is no step upwards. -/
def HasExtension (p : Path) (ext : List UInt8) : Prop :=
  ∃ name stem, p.EndsIn name ∧ name ≠ [dot, dot] ∧ name = stem ++ dot :: ext ∧ stem ≠ [] ∧ dot ∉ ext

/-! ## Names -/

theorem isSilent_iff : isSilent name = true ↔ name = [] ∨ name = [dot] := by
  simp [isSilent]

theorem IsName.not_silent (h : IsName name) : isSilent name = false := by
  simp [isSilent, h.ne_nil, h.ne_dot]

theorem slash_not_mem_of_silent (h : name = [] ∨ name = [dot]) : slash ∉ name := by
  rcases h with rfl | rfl <;> decide

theorem split_append_slash (xs ys : List UInt8) : split (xs ++ slash :: ys) = split xs ++ split ys := by
  rw [split_eq_splitOn, split_eq_splitOn, split_eq_splitOn]
  exact List.splitOnP_append_cons xs ys (beq_self_eq_true slash)

theorem names_append_slash (xs ys : List UInt8) :
    names ⟨xs ++ slash :: ys⟩ = names ⟨xs⟩ ++ names ⟨ys⟩ := by
  simp [names, split_append_slash]

theorem join_cons (name : List UInt8) (pieces : List (List UInt8)) :
    join (name :: pieces) = name ++ pieces.flatMap (slash :: ·) := by
  induction pieces generalizing name with
  | nil => simp [join]
  | cons piece pieces ih =>
    rw [join, ih, List.flatMap_cons, List.cons_append]
    exact List.cons_ne_nil _ _

theorem join_append_cons {before : List (List UInt8)} (h : before ≠ []) :
    join (before ++ name :: pieces) = join before ++ slash :: join (name :: pieces) := by
  obtain ⟨first, rest, rfl⟩ := List.exists_cons_of_ne_nil h
  rw [List.cons_append, join_cons, join_cons, join_cons, List.flatMap_append, List.flatMap_cons]
  simp

theorem names_of_trail (hname : IsName name) {trail : List UInt8} (htrail : IsTrail trail) :
    names ⟨name ++ trail⟩ = [name] := by
  obtain ⟨pieces, hsilent, rfl⟩ := htrail
  have hslashless : ∀ piece ∈ name :: pieces, slash ∉ piece := by
    rw [List.forall_mem_cons]
    exact ⟨hname.slashless, fun piece hp => slash_not_mem_of_silent (hsilent piece hp)⟩
  have hnone : pieces.filter (fun piece => !isSilent piece) = [] := by
    rw [List.filter_eq_nil_iff]
    intro piece hp
    simp [isSilent_iff.mpr (hsilent piece hp)]
  rw [names, ← join_cons, split_join (List.cons_ne_nil _ _) hslashless, List.filter_cons, hnone]
  simp [hname.not_silent]

theorem EndsIn.names (h : p.EndsIn name) : ∃ before, p.names = before ++ [name] := by
  obtain ⟨directories, trail, hbytes, hdirectories, hname, htrail⟩ := h
  rcases p with ⟨bytes⟩
  simp only at hbytes
  rw [hbytes, List.append_assoc]
  rcases hdirectories with rfl | hlast
  · exact ⟨[], names_of_trail hname htrail⟩
  · obtain ⟨above, rfl⟩ := List.getLast?_eq_some_iff.mp hlast
    refine ⟨Path.names ⟨above⟩, ?_⟩
    rw [List.append_assoc, List.singleton_append, names_append_slash, names_of_trail hname htrail]

theorem isName_of_mem_names (h : name ∈ p.names) : IsName name := by
  obtain ⟨hmem, hsilent⟩ := List.mem_filter.mp h
  have hnot : ¬ (name = [] ∨ name = [dot]) := by
    rw [← isSilent_iff]
    simpa using hsilent
  rw [not_or] at hnot
  exact ⟨hnot.1, hnot.2, not_mem_of_mem_split name hmem⟩

theorem endsIn_of_names {before : List (List UInt8)} (h : p.names = before ++ [name]) :
    p.EndsIn name := by
  have hname : IsName name := isName_of_mem_names (h ▸ List.mem_append_right _ List.mem_cons_self)
  have htelling : telling (split p.bytes) = before ++ [name] := h
  -- the pieces up to that name, and the silent ones behind it
  rcases dropSilent_cases (split p.bytes) with ⟨-, hnil⟩ | ⟨ahead, name', hdrop, hlast⟩
  · rw [hnil] at htelling
    simp at htelling
  obtain ⟨-, hsame⟩ := List.append_inj' (hlast.symm.trans htelling) rfl
  cases hsame
  have hsplit : split p.bytes = ahead ++ name :: (split p.bytes).rtakeWhile isSilent := by
    have hwhole : dropSilent (split p.bytes) ++ (split p.bytes).rtakeWhile isSilent = split p.bytes :=
      List.rdropWhile_append_rtakeWhile
    rw [hdrop, List.append_assoc, List.singleton_append] at hwhole
    exact hwhole.symm
  have hbytes : p.bytes = join (ahead ++ name :: (split p.bytes).rtakeWhile isSilent) := by
    rw [← hsplit, join_split]
  have htrail : IsTrail (((split p.bytes).rtakeWhile isSilent).flatMap (slash :: ·)) :=
    ⟨_, fun piece hp => isSilent_iff.mp (List.mem_rtakeWhile_imp hp), rfl⟩
  by_cases hahead : ahead = []
  · refine ⟨[], _, ?_, .inl rfl, hname, htrail⟩
    rw [hahead, List.nil_append, join_cons] at hbytes
    exact hbytes
  · refine ⟨join ahead ++ [slash], _, ?_, .inr List.getLast?_concat, hname, htrail⟩
    rw [join_append_cons hahead, join_cons] at hbytes
    rw [List.append_assoc, List.append_assoc]
    exact hbytes

theorem EndsIn.getLast?_names (h : p.EndsIn name) : p.names.getLast? = some name := by
  obtain ⟨before, hnames⟩ := h.names
  rw [hnames, List.getLast?_concat]

theorem EndsIn.unique (h : p.EndsIn name) (h' : p.EndsIn name') : name = name' := by
  have hlast := h.getLast?_names
  rw [h'.getLast?_names] at hlast
  exact (Option.some.inj hlast).symm

theorem fileName?_eq_some_iff : p.fileName? = some name ↔ p.EndsIn name ∧ name ≠ [dot, dot] := by
  constructor
  · intro h
    unfold fileName? at h
    split at h
    next last hlast =>
      split at h
      next => cases h
      next hne =>
        cases h
        obtain ⟨before, hnames⟩ := List.getLast?_eq_some_iff.mp hlast
        exact ⟨endsIn_of_names hnames, hne⟩
    next => cases h
  · rintro ⟨hends, hne⟩
    simp only [fileName?, hends.getLast?_names, if_neg hne]

/-! ## Extensions -/

theorem cutLastDot_eq_none_iff : cutLastDot name = none ↔ dot ∉ name := by
  induction name with
  | nil => simp [cutLastDot]
  | cons b rest ih =>
    rw [cutLastDot, List.mem_cons, not_or, ← ih]
    cases cutLastDot rest with
    | some cut => simp
    | none => simp [eq_comm]

theorem cutLastDot_append (stem : List UInt8) (h : dot ∉ ext) :
    cutLastDot (stem ++ dot :: ext) = some (stem, ext) := by
  induction stem with
  | nil => rw [List.nil_append, cutLastDot, cutLastDot_eq_none_iff.mpr h, if_pos rfl]
  | cons b stem ih => rw [List.cons_append, cutLastDot, ih]

theorem eq_of_cutLastDot (h : cutLastDot name = some (stem, ext)) :
    name = stem ++ dot :: ext ∧ dot ∉ ext := by
  induction name generalizing stem with
  | nil => cases h
  | cons b rest ih =>
    rw [cutLastDot] at h
    cases hcut : cutLastDot rest with
    | some cut =>
      rw [hcut] at h
      cases h
      obtain ⟨hrest, hdot⟩ := ih hcut
      exact ⟨congrArg (b :: ·) hrest, hdot⟩
    | none =>
      rw [hcut] at h
      by_cases hb : b = dot
      · rw [if_pos hb] at h
        cases h
        exact ⟨congrArg (· :: ext) hb, cutLastDot_eq_none_iff.mp hcut⟩
      · rw [if_neg hb] at h
        cases h

theorem extension?_eq_some_iff : p.extension? = some ext ↔ p.HasExtension ext := by
  constructor
  · intro h
    unfold extension? at h
    split at h
    next => cases h
    next stem ext' hnonempty hcut =>
      cases h
      obtain ⟨name, hfile, hname⟩ := Option.bind_eq_some_iff.mp hcut
      obtain ⟨hends, hne⟩ := fileName?_eq_some_iff.mp hfile
      obtain ⟨hstem, hdot⟩ := eq_of_cutLastDot hname
      exact ⟨name, stem, hends, hne, hstem, hnonempty, hdot⟩
    next => cases h
  · rintro ⟨name, stem, hends, hne, hstem, hnonempty, hdot⟩
    have hfile := fileName?_eq_some_iff.mpr ⟨hends, hne⟩
    have hcut : cutLastDot name = some (stem, ext) := hstem ▸ cutLastDot_append stem hdot
    obtain ⟨b, stem, rfl⟩ := List.exists_cons_of_ne_nil hnonempty
    simp only [extension?, hfile, Option.bind_some, hcut]

/-- A name whose only dot comes first has no extension. -/
theorem EndsIn.not_hasExtension (h : p.EndsIn (dot :: name)) (hdot : dot ∉ name) :
    ¬ p.HasExtension ext := by
  rintro ⟨name', stem, hends, -, hstem, hnonempty, -⟩
  have hsame : dot :: name = stem ++ dot :: ext := (h.unique hends).trans hstem
  rcases List.cons_eq_append_iff.mp hsame with ⟨hnil, -⟩ | ⟨rest, -, hrest⟩
  · exact hnonempty hnil
  · exact hdot (hrest ▸ List.mem_append_right rest List.mem_cons_self)

/-- Directories before a name have no part in its extension. -/
theorem extension?_append_slash (directories : List UInt8) (h : IsName p.bytes) :
    extension? ⟨directories ++ slash :: p.bytes⟩ = p.extension? := by
  have hown : p.names = [p.bytes] := by
    have htrail : IsTrail [] := ⟨[], List.forall_mem_nil _, rfl⟩
    have hnames := names_of_trail h htrail
    rwa [List.append_nil] at hnames
  have hlast : (names ⟨directories ++ slash :: p.bytes⟩).getLast? = p.names.getLast? := by
    have hsplit := names_append_slash directories p.bytes
    rw [hsplit, hown, List.getLast?_concat, List.getLast?_singleton]
  simp only [extension?, fileName?, hlast]

end Provisioning.Path
