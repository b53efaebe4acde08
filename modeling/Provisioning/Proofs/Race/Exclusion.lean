import Provisioning.Proofs.Race.Run

/-!
# Who fills a cell

A cell is claimed exactly while some thread is trying to fill it, and then no other thread tries. A
full cell holds what an attempt has ended with, and it stays as it is.
-/

namespace Provisioning

variable {I : Interface} {σ : Type}

namespace Thread

/-- What a step does to the cells: most leave them alone and end no attempt, one claims an empty cell,
and one gives up a claim. -/
theorem Step.effect {plan : Plan I} {answering : Answering I σ} {f f' : Factory σ}
    {t t' : Thread I} {marks : List (Mark I)} (hs : Step plan answering f t marks t' f') :
    (f'.cells = f.cells ∧ (∀ s, t'.stage.Attempts s ↔ t.stage.Attempts s) ∧
        ∀ s outcome, .ended s outcome ∉ marks) ∨
      (∃ s, f.cells.get s = .empty ∧ f'.cells = f.cells.set s .claimed ∧ marks = [.claimed s] ∧
        (∀ s', ¬ t.stage.Attempts s') ∧ ∀ s', t'.stage.Attempts s' ↔ s = s') ∨
      ∃ s outcome, f'.cells = f.cells.settle s outcome ∧
        marks = [.ended s outcome, .returned (outcome.map s.reply)] ∧
        (∀ s', t.stage.Attempts s' ↔ s = s') ∧ ∀ s', ¬ t'.stage.Attempts s' := by
  cases hs with
  | glance | wait | repeated | remark | confirm | share | look | ask =>
    exact .inl ⟨rfl, fun _ => Iff.rfl, by simp⟩
  | claim h => exact .inr (.inl ⟨_, h, rfl, rfl, fun _ => id, fun _ => Iff.rfl⟩)
  | settle => exact .inr (.inr ⟨_, _, rfl, rfl, fun _ => Iff.rfl, fun _ => id⟩)

end Thread

namespace Race

def Attempting (r : Race I σ) (s : Slot) (i : Nat) : Prop :=
  ∃ t, r.threads[i]? = some t ∧ t.stage.Attempts s

/-- Nobody but the one who has claimed a cell tries to fill it. -/
structure Exclusive (r : Race I σ) : Prop where
  claimed : ∀ s, r.factory.cells.get s = .claimed ↔ ∃ i, r.Attempting s i
  alone : ∀ s i j, r.Attempting s i → r.Attempting s j → i = j

variable {plan : Plan I} {answering : Answering I σ} {changes : σ → σ → Prop} {around : σ}
  {lists : List (List Call)} {h : History I} {r : Race I σ}

section Steps

variable {f f' : Factory σ} {threads : List (Thread I)} {i : Nat} {t t' : Thread I}

theorem attempting_iff_of_getElem? (ht : threads[i]? = some t) (s : Slot) :
    Attempting ⟨f, threads⟩ s i ↔ t.stage.Attempts s := by
  simp [Attempting, ht]

theorem attempting_set_self (ht : threads[i]? = some t) (s : Slot) :
    Attempting ⟨f', threads.set i t'⟩ s i ↔ t'.stage.Attempts s := by
  have hi : i < threads.length := (List.getElem?_eq_some_iff.mp ht).choose
  exact attempting_iff_of_getElem? (by rw [List.getElem?_set_self hi]) s

theorem attempting_set_of_ne {j : Nat} (hj : j ≠ i) (s : Slot) :
    Attempting ⟨f', threads.set i t'⟩ s j ↔ Attempting ⟨f, threads⟩ s j := by
  simp [Attempting, List.getElem?_set_ne (Ne.symm hj)]

theorem attempting_set_iff (ht : threads[i]? = some t) {s : Slot}
    (hs : t'.stage.Attempts s ↔ t.stage.Attempts s) (j : Nat) :
    Attempting ⟨f', threads.set i t'⟩ s j ↔ Attempting ⟨f, threads⟩ s j := by
  by_cases hj : j = i
  · subst hj
    rw [attempting_set_self ht, attempting_iff_of_getElem? ht, hs]
  · exact attempting_set_of_ne hj s

theorem Exclusive.congr {r r' : Race I σ} (hr : r.Exclusive)
    (hc : r'.factory.cells = r.factory.cells)
    (ha : ∀ s j, r'.Attempting s j ↔ r.Attempting s j) : r'.Exclusive := by
  constructor
  · intro s
    simp only [hc, ha]
    exact hr.claimed s
  · intro s j k hj hk
    exact hr.alone s j k ((ha s j).mp hj) ((ha s k).mp hk)

/-- A step about one cell leaves the others as they are, and whoever fills them. -/
theorem Exclusive.update (hr : Exclusive (⟨f, threads⟩ : Race I σ)) (ht : threads[i]? = some t)
    {s : Slot} (hcells : ∀ s', s' ≠ s → f'.cells.get s' = f.cells.get s')
    (hstages : ∀ s', s' ≠ s → (t'.stage.Attempts s' ↔ t.stage.Attempts s'))
    (hclaimed : f'.cells.get s = .claimed ↔ ∃ j, Attempting ⟨f', threads.set i t'⟩ s j)
    (halone : ∀ j, Attempting ⟨f', threads.set i t'⟩ s j → j = i) :
    Exclusive (⟨f', threads.set i t'⟩ : Race I σ) := by
  have hothers : ∀ s', s' ≠ s → ∀ j,
      Attempting ⟨f', threads.set i t'⟩ s' j ↔ Attempting ⟨f, threads⟩ s' j :=
    fun s' hs => attempting_set_iff ht (hstages s' hs)
  constructor
  · intro s'
    by_cases hs : s' = s
    · subst hs
      exact hclaimed
    · simp only [hcells s' hs, hothers s' hs]
      exact hr.claimed s'
  · intro s' j k hj hk
    by_cases hs : s' = s
    · subst hs
      rw [halone j hj, halone k hk]
    · exact hr.alone s' j k ((hothers s' hs j).mp hj) ((hothers s' hs k).mp hk)

theorem Exclusive.claim (hr : Exclusive (⟨f, threads⟩ : Race I σ)) (ht : threads[i]? = some t)
    {s : Slot} (he : f.cells.get s = .empty) (hc : f'.cells = f.cells.set s .claimed)
    (hn : ∀ s', ¬ t.stage.Attempts s') (ha : ∀ s', t'.stage.Attempts s' ↔ s = s') :
    Exclusive (⟨f', threads.set i t'⟩ : Race I σ) := by
  have hself : Attempting ⟨f', threads.set i t'⟩ s i := (attempting_set_self ht s).mpr ((ha s).mpr rfl)
  refine hr.update ht (s := s) ?_ ?_ ?_ ?_
  · intro s' hs
    rw [hc, Cells.get_set_of_ne _ _ hs]
  · intro s' hs
    simp [ha, hn, Ne.symm hs]
  · rw [hc, Cells.get_set_self]
    exact ⟨fun _ => ⟨i, hself⟩, fun _ => rfl⟩
  · intro j hj
    by_cases hji : j = i
    · exact hji
    · have hcl := (hr.claimed s).mpr ⟨j, (attempting_set_of_ne hji s).mp hj⟩
      cases he.symm.trans hcl

theorem Exclusive.settle (hr : Exclusive (⟨f, threads⟩ : Race I σ)) (ht : threads[i]? = some t)
    {s : Slot} {outcome : Except FactoryError s.Content}
    (hc : f'.cells = f.cells.settle s outcome) (ha : ∀ s', t.stage.Attempts s' ↔ s = s')
    (hn : ∀ s', ¬ t'.stage.Attempts s') : Exclusive (⟨f', threads.set i t'⟩ : Race I σ) := by
  have hnone : ∀ j, ¬ Attempting ⟨f', threads.set i t'⟩ s j := by
    intro j hj
    by_cases hji : j = i
    · subst hji
      exact hn s ((attempting_set_self ht s).mp hj)
    · have hi : Attempting ⟨f, threads⟩ s i := (attempting_iff_of_getElem? ht s).mpr ((ha s).mpr rfl)
      exact hji (hr.alone s j i ((attempting_set_of_ne hji s).mp hj) hi)
  refine hr.update ht (s := s) ?_ ?_ ?_ fun j hj => (hnone j hj).elim
  · intro s' hs
    rw [hc, Cells.get_settle_of_ne _ _ hs]
  · intro s' hs
    simp [ha, hn, Ne.symm hs]
  · rw [hc]
    cases outcome <;> simp [hnone]

end Steps

theorem ofCalls_exclusive : Exclusive (ofCalls (I := I) around lists) := by
  have hidle : ∀ s i, ¬ Attempting (ofCalls (I := I) around lists) s i := by
    rintro s i ⟨t, ht, ha⟩
    obtain ⟨calls, -, rfl⟩ := thread_of_ofCalls ht
    exact ha
  constructor
  · intro s
    simp only [hidle, exists_false, iff_false]
    cases s <;> simp [ofCalls, Cells.get]
  · intro s i j hi
    exact (hidle s i hi).elim

theorem Run.exclusive (run : Run plan answering changes (ofCalls around lists) h r) :
    r.Exclusive := by
  induction run using Run.steps with
  | start => exact ofCalls_exclusive
  | turn h f threads i t marks t' f' _ _ ih ht hs =>
    rcases hs.effect with ⟨hc, ha, -⟩ | ⟨s, he, hc, -, hn, ha⟩ | ⟨s, outcome, hc, -, ha, hn⟩
    · exact ih.congr hc fun s => attempting_set_iff ht (ha s)
    · exact ih.claim ht he hc hn ha
    · exact ih.settle ht hc ha hn
  | change h f threads next _ _ ih => exact ih.congr rfl fun _ _ => Iff.rfl

theorem holds_append_iff (marks : List (Mark I)) (i : Nat) {s : Slot} {a : s.Content} :
    History.Holds (h ++ marks.map (i, ·)) s a ↔ h.Holds s a ∨ .ended s (.ok a) ∈ marks := by
  constructor
  · intro hp
    rcases hp with ⟨j, hj⟩
    rcases List.mem_append.mp hj with hj | hj
    · exact .inl ⟨j, hj⟩
    · obtain ⟨m, hm, he⟩ := List.mem_map.mp hj
      cases he
      exact .inr hm
  · intro hp
    rcases hp with hh | hm
    · exact hh.append_left _
    · exact ⟨i, List.mem_append_right _ (List.mem_map_of_mem hm)⟩

/-- The contents of the cells are the results of the attempts that succeeded. -/
theorem Run.full_iff_holds (run : Run plan answering changes (ofCalls around lists) h r) (s : Slot)
    (a : s.Content) : r.factory.cells.get s = .full a ↔ h.Holds s a := by
  induction run using Run.steps with
  | start => cases s <;> simp [ofCalls, Cells.get, History.Holds]
  | turn h f threads i t marks t' f' run _ ih ht hs =>
    have hx := run.exclusive
    rw [holds_append_iff]
    rcases hs.effect with ⟨hc, -, hm⟩ | ⟨s', he, hc, rfl, -, -⟩ | ⟨s', outcome, hc, rfl, ha, -⟩
    · simp only [hc, hm, or_false]
      exact ih
    · simp only [hc, List.mem_singleton, reduceCtorEq, or_false]
      rw [← ih]
      by_cases hs' : s = s'
      · subst hs'
        simp [he]
      · rw [Cells.get_set_of_ne _ _ hs']
    · simp only [hc]
      by_cases hs' : s = s'
      · subst hs'
        have hcl : f.cells.get s = .claimed :=
          (hx.claimed s).mpr ⟨i, (attempting_iff_of_getElem? ht s).mpr ((ha s).mpr rfl)⟩
        have hno : ¬ h.Holds s a := by
          simp [← ih, hcl]
        cases outcome <;> simp [hno, eq_comm]
      · rw [Cells.get_settle_of_ne _ _ hs', ih]
        simp [hs']
  | change h f threads next _ _ ih => exact ih

end Race

end Provisioning
