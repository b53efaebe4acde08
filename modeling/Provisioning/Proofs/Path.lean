import Mathlib.Data.List.DropRight
import Provisioning.Path

/-!
# The directory of a path

A path is put together again from its start and its pieces. Every path with a name has a directory: the
part before the last name, as it was written, without the slashes and dots that say nothing at its end.
-/

namespace Provisioning.Path

variable {bytes rest : List UInt8} {pieces pieces' : List (List UInt8)} {p q : Path}

/-! ## Pieces -/

theorem split_eq_splitOn (bytes : List UInt8) : split bytes = bytes.splitOn slash := by
  induction bytes with
  | nil => rfl
  | cons b rest ih =>
    rw [split, ih, List.splitOn_cons_eq_if_modifyHead]
    by_cases hb : b = slash
    · simp [hb]
    · rw [if_neg hb, if_neg (by simpa using hb)]
      cases hs : rest.splitOn slash with
      | nil => exact absurd hs (List.splitOn_ne_nil slash rest)
      | cons name names => rfl

theorem join_eq_intercalate (pieces : List (List UInt8)) : join pieces = [slash].intercalate pieces := by
  induction pieces using join.induct with
  | case1 => rfl
  | case2 name => simp [join]
  | case3 name names hne ih =>
    rw [join, ih, List.intercalate_cons_of_ne_nil hne, List.append_assoc, List.singleton_append]
    exact hne

theorem join_split (bytes : List UInt8) : join (split bytes) = bytes := by
  rw [join_eq_intercalate, split_eq_splitOn, List.intercalate_splitOn]

theorem split_join (hne : pieces ≠ []) (h : ∀ piece ∈ pieces, slash ∉ piece) :
    split (join pieces) = pieces := by
  rw [join_eq_intercalate, split_eq_splitOn, List.splitOn_intercalate slash h hne]

theorem split_of_not_mem (h : slash ∉ bytes) : split bytes = [bytes] := by
  rw [split_eq_splitOn, List.splitOn_eq_singleton h]

theorem not_mem_of_mem_split : ∀ piece ∈ split bytes, slash ∉ piece := by
  induction bytes with
  | nil => simp [split]
  | cons b rest ih =>
    rw [split]
    split
    next => exact List.forall_mem_cons.mpr ⟨List.not_mem_nil, ih⟩
    next hb =>
      have hfirst {name : List UInt8} (hn : slash ∉ name) : slash ∉ b :: name :=
        fun hm => (List.mem_cons.mp hm).elim (hb ∘ Eq.symm) hn
      split
      next => exact List.forall_mem_singleton.mpr (hfirst List.not_mem_nil)
      next name names hs =>
        rw [hs, List.forall_mem_cons] at ih
        exact List.forall_mem_cons.mpr ⟨hfirst ih.1, ih.2⟩

theorem isPrefix_join (h : pieces <+: pieces') : join pieces <+: join pieces' := by
  obtain ⟨more, rfl⟩ := h
  induction pieces using join.induct with
  | case1 => exact List.nil_prefix
  | case2 name =>
    cases more with
    | nil => exact List.prefix_refl _
    | cons => exact List.prefix_append _ _
  | case3 name names hne ih =>
    rw [List.cons_append, join, join]
    · exact (List.prefix_append_right_inj name).mpr (List.cons_prefix_cons.mpr ⟨rfl, ih⟩)
    · simp_all
    · exact hne

theorem suffix_join {name : List UInt8} (h : pieces.getLast? = some name) : name <:+ join pieces := by
  induction pieces using join.induct with
  | case1 => cases h
  | case2 =>
    cases h
    exact List.suffix_refl _
  | case3 first names hne ih =>
    rw [join]
    · have hlast : names.getLast? = some name := by
        rwa [List.getLast?_cons_of_ne_nil hne] at h
      exact (ih hlast).trans ((List.suffix_cons _ _).trans (List.suffix_append _ _))
    · exact hne

/-! ## Silent pieces -/

def telling (pieces : List (List UInt8)) : List (List UInt8) :=
  pieces.filter fun name => !isSilent name

theorem isPrefix_dropSilent (pieces : List (List UInt8)) : dropSilent pieces <+: pieces :=
  List.rdropWhile_prefix isSilent pieces

theorem telling_dropSilent (pieces : List (List UInt8)) :
    telling (dropSilent pieces) = telling pieces := by
  have hnone : telling (pieces.rtakeWhile isSilent) = [] :=
    List.filter_eq_nil_iff.mpr fun name hn => by simp [List.mem_rtakeWhile_imp hn]
  calc telling (dropSilent pieces)
      = telling (pieces.rdropWhile isSilent) ++ telling (pieces.rtakeWhile isSilent) := by
        rw [hnone, List.append_nil]
        rfl
    _ = telling pieces := by
        rw [telling, telling, ← List.filter_append, List.rdropWhile_append_rtakeWhile]
        rfl

/-- Without the silent pieces at the end there is nothing left, or a piece at the end that says
something. -/
theorem dropSilent_cases (pieces : List (List UInt8)) :
    (dropSilent pieces = [] ∧ telling pieces = []) ∨
      ∃ before name, dropSilent pieces = before ++ [name] ∧ telling pieces = telling before ++ [name] := by
  by_cases hnil : dropSilent pieces = []
  · refine .inl ⟨hnil, ?_⟩
    rw [← telling_dropSilent, hnil]
    rfl
  · refine .inr ⟨_, _, (List.dropLast_concat_getLast hnil).symm, ?_⟩
    have hlast := List.rdropWhile_last_not isSilent pieces hnil
    rw [← telling_dropSilent]
    conv_lhs => rw [← List.dropLast_concat_getLast hnil, telling, List.filter_append]
    rw [← telling, List.filter_singleton]
    simp_all [dropSilent, List.rdropWhile]

theorem telling_split_join (h : ∀ piece ∈ pieces, slash ∉ piece) :
    telling (split (join pieces)) = telling pieces := by
  by_cases hne : pieces = []
  · subst hne
    rfl
  · rw [split_join hne h]

/-! ## Starts -/

theorem start_cases (p : Path) :
    (∃ rest, p.bytes = slash :: rest ∧ p.start = [slash]) ∨
      (∃ rest, p.bytes = dot :: rest ∧ (rest = [] ∨ rest.head? = some slash) ∧ p.start = [dot]) ∨
      p.isAbsolute = false ∧ p.start = [] := by
  rcases p with ⟨_ | ⟨b, rest⟩⟩
  · exact .inr (.inr ⟨rfl, rfl⟩)
  by_cases hslash : b = slash
  · exact .inl ⟨rest, by simp [hslash], by simp [start, hslash]⟩
  by_cases hdot : b = dot ∧ (rest = [] ∨ rest.head? = some slash)
  · refine .inr (.inl ⟨rest, by simp [hdot.1], hdot.2, ?_⟩)
    simp only [start, if_neg hslash, if_pos hdot]
  · refine .inr (.inr ⟨by simp [isAbsolute, hslash], ?_⟩)
    simp only [start, if_neg hslash, if_neg hdot]

theorem start_append_body (p : Path) : p.start ++ join p.body = p.bytes := by
  rw [body, join_split]
  rcases p.start_cases with ⟨rest, hb, hs⟩ | ⟨rest, hb, -, hs⟩ | ⟨-, hs⟩ <;> simp_all

/-- The start of a path has no part in its names, and none in those of a first part of the path. -/
theorem names_of_start (h : rest <+: join p.body) : names ⟨p.start ++ rest⟩ = telling (split rest) := by
  rcases p.start_cases with ⟨_, hb, hs⟩ | ⟨tail, hb, ht, hs⟩ | ⟨-, hs⟩
  · rw [hs]
    rfl
  · have hbody : join p.body = tail := by
      rw [body, join_split, hb, hs]
      rfl
    rw [hbody] at h
    rw [hs]
    -- after the dot there is nothing, or a slash with a silent piece on either side of the cut
    cases rest with
    | nil => rfl
    | cons b rest =>
      obtain rfl : b = slash := by
        rcases ht with rfl | ht
        · simp at h
        · obtain ⟨more, rfl⟩ := h
          simpa using ht
      rfl
  · rw [hs]
    rfl

theorem names_eq_telling (p : Path) : p.names = telling p.body := by
  have hp := names_of_start (p := p) (List.prefix_refl _)
  rw [start_append_body, body, join_split] at hp
  exact hp

/-- Whether a path is absolute shows in any first part of it that has its start. -/
theorem isAbsolute_of_start (h : rest <+: join p.body) :
    isAbsolute ⟨p.start ++ rest⟩ = p.isAbsolute := by
  rcases p.start_cases with ⟨_, hb, hs⟩ | ⟨_, hb, -, hs⟩ | ⟨ha, hs⟩
  · simp [isAbsolute, hb, hs]
  · simp [isAbsolute, hb, hs]
  · obtain ⟨more, hm⟩ := h
    have hbytes : p.bytes = rest ++ more := by
      rw [hm, ← p.start_append_body, hs, List.nil_append]
    cases rest with
    | nil =>
      rw [ha, hs]
      rfl
    | cons b rest => simp [isAbsolute, hs, hbytes]

/-! ## Directories -/

/-- A path is the directory of another: the part of it before the last name, without what says nothing at
its end. -/
structure IsDirectory (directory path : Path) : Prop where
  part : directory.bytes <+: path.bytes
  names : directory.names = path.names.dropLast
  ends : directory.bytes = path.start ∨
    ∃ name, directory.names.getLast? = some name ∧ name <:+ directory.bytes
  absolute : directory.isAbsolute = path.isAbsolute

theorem body_slashless (p : Path) : ∀ piece ∈ p.body, slash ∉ piece :=
  not_mem_of_mem_split

theorem parent?_isDirectory (h : p.names ≠ []) :
    ∃ directory, p.parent? = some directory ∧ directory.IsDirectory p := by
  -- the last name, and with it all that stands before it
  rcases dropSilent_cases p.body with ⟨-, hnone⟩ | ⟨before, name, hdrop, htelling⟩
  · exact absurd (p.names_eq_telling.trans hnone) h
  have hparent : p.parent? = some ⟨p.start ++ join (dropSilent before)⟩ := by
    unfold parent?
    rw [hdrop]
    split
    next hnil => simp at hnil
    next => rw [List.dropLast_concat]
  have hpieces : dropSilent before <+: p.body := by
    have hbody := isPrefix_dropSilent p.body
    rw [hdrop] at hbody
    exact (isPrefix_dropSilent before).trans ((List.prefix_append _ _).trans hbody)
  have hrest := isPrefix_join hpieces
  have hnames : names ⟨p.start ++ join (dropSilent before)⟩ = telling before := by
    rw [names_of_start hrest, telling_split_join fun piece hm => p.body_slashless piece (hpieces.subset hm),
      telling_dropSilent]
  refine ⟨_, hparent, ?_, ?_, ?_, isAbsolute_of_start hrest⟩
  · rw [← p.start_append_body]
    exact (List.prefix_append_right_inj _).mpr hrest
  · rw [hnames, names_eq_telling, htelling, List.dropLast_concat]
  · rw [hnames]
    rcases dropSilent_cases before with ⟨hnil, -⟩ | ⟨before', name', hdrop', htelling'⟩
    · exact .inl (by simp [hnil, join])
    · refine .inr ⟨name', by simp [htelling'], ?_⟩
      exact (suffix_join (by simp [hdrop'])).trans (List.suffix_append _ _)

/-- A path without slashes lies in the directory that has no name. -/
theorem IsDirectory.eq_nil {directory : Path} (h : directory.IsDirectory p) (hn : p.names ≠ [])
    (hs : slash ∉ p.bytes) : directory.bytes = [] := by
  have hnames : p.names = telling [p.bytes] := by
    rw [← split_of_not_mem hs]
    rfl
  have hnone : directory.names = [] := by
    rw [h.names, hnames]
    cases hb : isSilent p.bytes <;> simp [telling, hb]
  rcases h.ends with hstart | ⟨name, hname, -⟩
  · rw [hstart]
    rcases p.start_cases with ⟨_, hb, -⟩ | ⟨rest, hb, hr, -⟩ | ⟨-, hnil⟩
    · simp [hb] at hs
    · rcases hr with rfl | hr
      · simp [hnames, hb, telling, isSilent] at hn
      · have hm : slash ∈ rest := List.mem_of_mem_head? hr
        simp [hb, hm] at hs
    · exact hnil
  · simp [hnone] at hname

/-! ## Paths seen from a directory -/

theorem resolve_of_absolute (h : q.isAbsolute = true) : p.resolve q = q := by
  rw [resolve, if_pos h]

/-- A path that is not absolute is written after the directory, behind a slash if there is none. -/
theorem resolve_bytes (h : q.isAbsolute = false) :
    (p.resolve q).bytes =
      p.bytes ++ (if p.bytes = [] ∨ p.bytes.getLast? = some slash then [] else [slash]) ++ q.bytes := by
  rw [resolve, if_neg (by simp [h])]
  split <;> simp

theorem isAbsolute_resolve : (p.resolve q).isAbsolute = (p.isAbsolute || q.isAbsolute) := by
  by_cases hq : q.isAbsolute = true
  · simp [resolve_of_absolute hq, hq]
  have hq' : q.isAbsolute = false := by simpa using hq
  rcases p with ⟨_ | ⟨b, rest⟩⟩
  · simp [resolve, isAbsolute]
  · rw [isAbsolute, resolve_bytes hq', hq']
    simp [isAbsolute]

end Provisioning.Path
