import Mathlib.Data.List.Basic
import Provisioning.Text.Lowercase

/-!
# Lower case and ASCII letters

An ASCII character has the lower-case form that it has among ASCII letters. Two of the capitals beyond
ASCII have an ASCII letter in their lower-case form, and that is an `i` or a `k`. A word without these
is the lower-case form of the same texts whether all capitals count or only those of ASCII.
-/

namespace Provisioning.Text

/-- A small letter of ASCII that no capital beyond ASCII has in its lower-case form. -/
def IsPlainLetter (c : Char) : Prop :=
  0x61 ≤ c.toNat ∧ c.toNat ≤ 0x7a ∧ c ≠ 'i' ∧ c ≠ 'k'

instance (c : Char) : Decidable (IsPlainLetter c) :=
  inferInstanceAs (Decidable (_ ∧ _))

variable {c : Char} {cs word : List Char}

/-- The capitals of ASCII come first, and no other run begins within ASCII. -/
theorem lowerRuns_eq : lowerRuns = ⟨0x41, 0x5a, 1, 0x61⟩ :: lowerRuns.tail ∧
    ∀ run ∈ lowerRuns.tail, 0x80 ≤ run.first :=
  ⟨rfl, by decide +kernel⟩

theorem lowerChar_of_ascii (h : c.toNat < 0x80) : lowerChar c = [c.toLower] := by
  have hbeyond : lowerRuns.tail.findSome? (LowerRun.image? · c.toNat) = none := by
    rw [List.findSome?_eq_none_iff]
    intro run hrun
    have hfirst := lowerRuns_eq.2 run hrun
    rw [LowerRun.image?, if_neg (by omega)]
  have hsmall : ∀ n < 0x80, Char.ofNat ((LowerRun.image? ⟨0x41, 0x5a, 1, 0x61⟩ n).getD n) =
      (Char.ofNat n).toLower := by decide +kernel
  have hc := hsmall c.toNat h
  rw [Char.ofNat_toNat] at hc
  rw [lowerChar, if_neg (by omega), lowerRuns_eq.1, List.findSome?_cons, hbeyond, ← hc]
  cases LowerRun.image? ⟨0x41, 0x5a, 1, 0x61⟩ c.toNat with
  | some m => rfl
  | none => rw [Option.getD_none, Char.ofNat_toNat]

theorem lowerRuns_targets : ∀ run ∈ lowerRuns,
    run.last < 0x80 ∨ 0x80 ≤ run.target ∨ run.first = run.last ∧ run.target = 'k'.toNat := by
  decide +kernel

theorem not_isPlainLetter_ofNat {n : Nat} (h : 0x80 ≤ n) : ¬ IsPlainLetter (Char.ofNat n) := by
  rintro ⟨hlow, hhigh, -⟩
  by_cases hvalid : n.isValidChar
  · have hn : (Char.ofNat n).toNat = n := congrArg Char.toNat (dif_pos hvalid)
    omega
  · have hnull : (Char.ofNat n).toNat = 0 := congrArg Char.toNat (dif_neg hvalid)
    omega

theorem exists_not_plain_of_not_ascii (h : 0x80 ≤ c.toNat) :
    ∃ d ∈ lowerChar c, ¬ IsPlainLetter d := by
  unfold lowerChar
  split
  next => exact ⟨'i', List.mem_cons_self, by decide⟩
  next =>
    split
    next n himage =>
      refine ⟨_, List.mem_singleton_self _, ?_⟩
      obtain ⟨run, hrun, hn⟩ := List.exists_of_findSome?_eq_some himage
      unfold LowerRun.image? at hn
      split at hn
      next hcovered =>
        cases hn
        rcases lowerRuns_targets run hrun with hlast | htarget | ⟨hsingle, htarget⟩
        · omega
        · exact not_isPlainLetter_ofNat (by omega)
        · have hk : run.target + (c.toNat - run.first) = 'k'.toNat := by omega
          rw [hk]
          decide
      next => cases hn
    next =>
      refine ⟨c, List.mem_singleton_self _, ?_⟩
      rintro ⟨-, hhigh, -⟩
      omega

theorem ascii_of_lower (h : ∀ d ∈ lower cs, IsPlainLetter d) : ∀ c ∈ cs, c.toNat < 0x80 := by
  intro c hc
  by_contra hlarge
  obtain ⟨d, hd, hnot⟩ := exists_not_plain_of_not_ascii (Nat.le_of_not_lt hlarge)
  exact hnot (h d (List.mem_flatMap.mpr ⟨c, hc, hd⟩))

theorem ascii_of_toLower (h : IsPlainLetter c.toLower) : c.toNat < 0x80 := by
  have hhigh := h.2.1
  unfold Char.toLower at hhigh
  split at hhigh
  next hcapital =>
    have hz : c.val.toNat ≤ 'Z'.val.toNat := hcapital.2
    exact Nat.lt_of_le_of_lt hz (by decide)
  next => omega

theorem lower_of_ascii (h : ∀ c ∈ cs, c.toNat < 0x80) : lower cs = cs.map Char.toLower := by
  rw [lower, List.map_eq_flatMap]
  exact List.flatMap_congr fun c hc => lowerChar_of_ascii (h c hc)

theorem lower_eq_iff (hword : ∀ d ∈ word, IsPlainLetter d) :
    lower cs = word ↔ cs.map Char.toLower = word := by
  constructor
  · rintro rfl
    exact (lower_of_ascii (ascii_of_lower hword)).symm
  · rintro rfl
    refine lower_of_ascii fun c hc => ascii_of_toLower ?_
    exact hword _ (List.mem_map_of_mem hc)

end Provisioning.Text
