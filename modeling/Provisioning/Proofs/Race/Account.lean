import Provisioning.Proofs.Race.Exclusion

/-!
# How a history accounts for itself

Each mark of a history is accounted for by the marks before it. What a call returns, it has seen in the
document, it has found in a full cell, or it is the outcome of an attempt that the thread itself has
made within the call. What an attempt ends with, the work for the cell has come to by the questions of
the attempt.
-/

namespace Provisioning

variable {I : Interface} {σ : Type}

def Mark.attempt (call : Call) (s : Slot) (d : Option ProvidersDocument) (xs : List (Exchange I)) :
    List (Mark I) :=
  .called call :: .claimed s :: .looked s d :: xs.map .asked

theorem Mark.attempt_snoc (call : Call) (s : Slot) (d : Option ProvidersDocument)
    (xs : List (Exchange I)) (x : Exchange I) :
    attempt call s d (xs ++ [x]) = attempt call s d xs ++ [.asked x] := by
  simp [attempt]

/-- The marks that a thread has left by the time it has come to a stage. -/
def Stage.Follows (plan : Plan I) (past : List (Mark I)) : Stage I → Prop
  | .idle => True
  | .again work => ∃ before xs, past = before ++ .called .start :: List.map .asked xs ∧
      plan.again.Leads xs work
  | .waiting s => ∃ before call, past = before ++ [.called call] ∧ call.slot? = some s
  | .claiming s => ∃ before call, past = before ++ [.called call, .claimed s] ∧ call.slot? = some s
  | .filling s work => ∃ before call d xs, past = before ++ Mark.attempt call s d xs ∧
      call.slot? = some s ∧ (plan.fill s d).Leads xs work

/-- How the outcome of a call comes about. -/
inductive History.Answered (past : History I) (i : Nat) : Outcome → Prop where
  | flag {before : List (Mark I)} {b : Bool}
      (own : past.own i = before ++ [.called .isInitialized])
      (hb : b = true ↔ ∃ d, past.Holds .document d) : Answered past i (.ok (.flag b))
  | document {before : List (Mark I)} {d : ProvidersDocument}
      (own : past.own i = before ++ [.called .document]) (hd : past.Holds .document d) :
      Answered past i (.ok (.document d))
  | noDocument {before : List (Mark I)} (own : past.own i = before ++ [.called .document])
      (hd : ∀ d, ¬ past.Holds .document d) : Answered past i (.error .notInitialized)
  | repeated {before : List (Mark I)} {xs : List (Exchange I)} {d : ProvidersDocument}
      (own : past.own i = before ++ .called .start :: xs.map .asked)
      (hd : past.Holds .document d) : Answered past i (.ok (Slot.reply .document d))
  | shared {before : List (Mark I)} {call : Call} {s : Slot} {a : s.Content}
      (own : past.own i = before ++ [.called call]) (hs : call.slot? = some s)
      (ha : past.Holds s a) : Answered past i (.ok (s.reply a))
  | attempted {before : List (Mark I)} {call : Call} {s : Slot} {d : Option ProvidersDocument}
      {xs : List (Exchange I)} {outcome : Except FactoryError s.Content}
      (own : past.own i = before ++ Mark.attempt call s d xs ++ [.ended s outcome])
      (hs : call.slot? = some s) : Answered past i (outcome.map s.reply)

/-- What must have come before a mark. -/
def Mark.Justified (plan : Plan I) (past : History I) (i : Nat) : Mark I → Prop
  | .called _ => True
  | .claimed s => ∀ a, ¬ past.Holds s a
  | .looked _ d => ∀ d', d = some d' ↔ past.Holds .document d'
  | .asked x =>
    (∃ before xs w, past.own i = before ++ .called .start :: List.map .asked xs ∧
        plan.again.Leads (xs ++ [x]) w) ∨
      ∃ before call s d xs w, past.own i = before ++ Mark.attempt call s d xs ∧
        call.slot? = some s ∧ (plan.fill s d).Leads (xs ++ [x]) w
  | .ended s outcome => ∃ before call d xs, past.own i = before ++ Mark.attempt call s d xs ∧
      call.slot? = some s ∧ (plan.fill s d).Leads xs (.done outcome)
  | .returned outcome => past.Answered i outcome

theorem Cell.content?_eq_some_iff {α : Type} {c : Cell α} {a : α} :
    c.content? = some a ↔ c = .full a := by
  cases c <;> simp [Cell.content?]

namespace Thread

variable {plan : Plan I} {answering : Answering I σ} {f f' : Factory σ} {t t' : Thread I}
  {marks : List (Mark I)}

theorem Step.follows (hs : Step plan answering f t marks t' f') {past : List (Mark I)}
    (ht : t.stage.Follows plan past) : t'.stage.Follows plan (past ++ marks) := by
  cases hs with
  | glance | confirm | share | settle => trivial
  | wait h => exact ⟨past, _, rfl, h⟩
  | repeated => exact ⟨past, [], rfl, .refl _⟩
  | @remark q =>
    rcases ht with ⟨before, xs, rfl, hl⟩
    exact ⟨before, xs ++ [⟨q, (answering q f.around).1⟩], by simp, hl.snoc _⟩
  | claim =>
    rcases ht with ⟨before, call, rfl, hc⟩
    exact ⟨before, call, by simp, hc⟩
  | look =>
    rcases ht with ⟨before, call, rfl, hc⟩
    exact ⟨before, call, f.cells.document.content?, [], by simp [Mark.attempt], hc, .refl _⟩
  | @ask s q =>
    rcases ht with ⟨before, call, d, xs, rfl, hc, hl⟩
    refine ⟨before, call, d, xs ++ [⟨q, (answering q f.around).1⟩], ?_, hc, hl.snoc _⟩
    rw [Mark.attempt_snoc, List.append_assoc]

end Thread

namespace Race

variable {plan : Plan I} {answering : Answering I σ} {changes : σ → σ → Prop} {around : σ}
  {lists : List (List Call)} {h : History I} {r : Race I σ}

theorem Run.follows (run : Run plan answering changes (ofCalls around lists) h r) {i : Nat}
    {t : Thread I} (ht : r.threads[i]? = some t) : t.stage.Follows plan (h.own i) := by
  induction run using Run.steps generalizing i t with
  | start =>
    obtain ⟨calls, -, rfl⟩ := thread_of_ofCalls ht
    trivial
  | turn h f threads j t₀ marks t' f' _ _ ih hj hs =>
    rcases thread_of_set ht with ⟨rfl, rfl⟩ | ⟨hne, hi⟩
    · simpa using hs.follows (ih hj)
    · simpa [History.own_map_of_ne marks (Ne.symm hne)] using ih hi
  | change h f threads _ _ _ ih => exact ih ht

theorem Run.full_of_again (run : Run plan answering changes (ofCalls around lists) h r) {i : Nat}
    {t : Thread I} {w : Dialogue I Unit} (ht : r.threads[i]? = some t) (hw : t.stage = .again w) :
    ∃ d, h.Holds .document d := by
  induction run using Run.steps generalizing i t w with
  | start =>
    obtain ⟨calls, -, rfl⟩ := thread_of_ofCalls ht
    cases hw
  | turn h f threads j t₀ marks t' f' run _ ih hj hs =>
    rcases thread_of_set ht with ⟨rfl, rfl⟩ | ⟨-, hi⟩
    · cases hs with
      | @repeated d _ _ hd => exact ⟨d, ((run.full_iff_holds .document d).mp hd).append_left _⟩
      | remark =>
        obtain ⟨d, hd⟩ := ih hj rfl
        exact ⟨d, hd.append_left _⟩
      | _ => cases hw
    · obtain ⟨d, hd⟩ := ih hi hw
      exact ⟨d, hd.append_left _⟩
  | change h f threads _ _ _ ih => exact ih ht hw

theorem Run.isInitialized_iff (run : Run plan answering changes (ofCalls around lists) h r) :
    r.factory.isInitialized = true ↔ ∃ d, h.Holds .document d := by
  unfold Factory.isInitialized
  rw [Option.isSome_iff_exists]
  simp only [Cell.content?_eq_some_iff]
  exact exists_congr fun d => run.full_iff_holds .document d

theorem Run.glance_answered (run : Run plan answering changes (ofCalls around lists) h r) (i : Nat)
    {call : Call} {outcome : Outcome} (hg : r.factory.glance? call = some outcome) :
    History.Answered (h ++ [(i, .called call)]) i outcome := by
  have hh : ∀ d, History.Holds (h ++ [(i, .called call)]) .document d ↔ h.Holds .document d := by
    intro d
    simpa using holds_append_iff (h := h) [.called call] i (s := .document) (a := d)
  have hown : History.own (h ++ [(i, .called call)]) i = h.own i ++ [.called call] := by simp
  cases call with
  | isInitialized =>
    cases hg
    refine .flag hown ?_
    simp only [hh]
    exact run.isInitialized_iff
  | document =>
    simp only [Factory.glance?, Option.some.injEq] at hg
    cases hd : r.factory.cells.document.content? with
    | some d =>
      have ho : outcome = .ok (.document d) := by
        rw [← hg]
        simp [Factory.document, hd, Except.map]
      rw [ho]
      refine .document hown ((hh d).mpr ?_)
      exact (run.full_iff_holds .document d).mp (Cell.content?_eq_some_iff.mp hd)
    | none =>
      have ho : outcome = .error .notInitialized := by
        rw [← hg]
        simp [Factory.document, hd, Except.map]
      rw [ho]
      refine .noDocument hown fun d hd' => ?_
      have hf := (run.full_iff_holds .document d).mpr ((hh d).mp hd')
      have hs := Cell.content?_eq_some_iff.mpr hf
      simp [Cells.get, hd] at hs
  | start | persistenceProvider | hookProviders => cases hg

theorem split_singleton {α : Type} {before after : List α} {x m : α}
    (h : [x] = before ++ m :: after) : before = [] ∧ m = x := by
  cases before <;> simp_all

theorem split_pair {α : Type} {before after : List α} {x y m : α}
    (h : [x, y] = before ++ m :: after) : (before = [] ∧ m = x) ∨ (before = [x] ∧ m = y) := by
  rcases before with _ | ⟨z, _ | ⟨z', before⟩⟩ <;> simp_all

/-- The marks of a step are accounted for by the history so far and by those before them in the
same step. -/
theorem Run.step_justified {f : Factory σ} {threads : List (Thread I)}
    (run : Run plan answering changes (ofCalls around lists) h ⟨f, threads⟩) {i : Nat}
    {t t' : Thread I} {f' : Factory σ} {marks before after : List (Mark I)} {m : Mark I}
    (ht : threads[i]? = some t) (hs : Thread.Step plan answering f t marks t' f')
    (hm : marks = before ++ m :: after) :
    m.Justified plan (h ++ before.map (i, ·)) i := by
  have hfol := run.follows ht
  have hfull := run.full_iff_holds
  -- a step leaves one mark or two, and the first of two accounts for the second
  cases hs with
  | glance hg =>
    rcases split_pair hm with ⟨rfl, rfl⟩ | ⟨rfl, rfl⟩
    · trivial
    · exact run.glance_answered i hg
  | wait | repeated =>
    obtain ⟨rfl, rfl⟩ := split_singleton hm
    trivial
  | remark =>
    obtain ⟨rfl, rfl⟩ := split_singleton hm
    rcases hfol with ⟨before, xs, hown, hl⟩
    exact .inl ⟨before, xs, _, by simpa using hown, hl.snoc _⟩
  | confirm =>
    obtain ⟨rfl, rfl⟩ := split_singleton hm
    rcases hfol with ⟨before, xs, hown, -⟩
    obtain ⟨d, hd⟩ := run.full_of_again ht rfl
    exact .repeated (d := d) (by simpa using hown) (by simpa using hd)
  | share ha =>
    obtain ⟨rfl, rfl⟩ := split_singleton hm
    rcases hfol with ⟨before, call, hown, hc⟩
    exact .shared (by simpa using hown) hc (by simpa using (hfull _ _).mp ha)
  | @claim s _ _ he =>
    obtain ⟨rfl, rfl⟩ := split_singleton hm
    intro a ha
    have hf := (hfull s a).mpr (by simpa using ha)
    simp [he] at hf
  | look =>
    obtain ⟨rfl, rfl⟩ := split_singleton hm
    intro d'
    rw [Cell.content?_eq_some_iff, List.map_nil, List.append_nil]
    exact hfull .document d'
  | ask =>
    obtain ⟨rfl, rfl⟩ := split_singleton hm
    rcases hfol with ⟨before, call, d, xs, hown, hc, hl⟩
    exact .inr ⟨before, call, _, d, xs, _, by simpa using hown, hc, hl.snoc _⟩
  | @settle s outcome =>
    rcases hfol with ⟨before, call, d, xs, hown, hc, hl⟩
    rcases split_pair hm with ⟨rfl, rfl⟩ | ⟨rfl, rfl⟩
    · exact ⟨before, call, d, xs, by simpa using hown, hc, hl⟩
    · have hend : History.own (h ++ [(i, .ended s outcome)]) i =
          before ++ Mark.attempt call s d xs ++ [.ended s outcome] := by
        simp [hown]
      exact .attempted hend hc

theorem split_of_append {i j : Nat} {marks : List (Mark I)} {past later : History I} {m : Mark I}
    (hm : h ++ marks.map (i, ·) = past ++ (j, m) :: later) :
    (∃ rest, h = past ++ (j, m) :: rest) ∨
      (j = i ∧ ∃ before after, marks = before ++ m :: after ∧ past = h ++ before.map (i, ·)) := by
  rcases List.append_eq_append_iff.mp hm with ⟨mid, rfl, hl⟩ | ⟨mid, rfl, hl⟩
  · obtain ⟨before, rest, rfl, rfl, hr⟩ := List.map_eq_append_iff.mp hl
    obtain ⟨x, after, rfl, hx, -⟩ := List.map_eq_cons_iff.mp hr
    cases hx
    exact .inr ⟨rfl, before, after, rfl, rfl⟩
  · cases mid with
    | nil =>
      obtain ⟨x, after, rfl, hx, -⟩ := List.map_eq_cons_iff.mp hl.symm
      cases hx
      exact .inr ⟨rfl, [], after, rfl, by simp⟩
    | cons x rest =>
      simp only [List.cons_append, List.cons.injEq] at hl
      exact .inl ⟨rest, by rw [hl.1]⟩

/-- Every mark of a run is accounted for by those before it. -/
theorem Run.justified (run : Run plan answering changes (ofCalls around lists) h r)
    {past later : History I} {i : Nat} {m : Mark I} (hm : h = past ++ (i, m) :: later) :
    m.Justified plan past i := by
  induction run using Run.steps generalizing past later i m with
  | start => simp at hm
  | turn h f threads j t marks t' f' run _ ih ht hs =>
    rcases split_of_append hm with ⟨rest, hh⟩ | ⟨rfl, before, after, hmarks, rfl⟩
    · exact ih hh
    · exact run.step_justified ht hs hmarks
  | change h f threads _ _ _ ih => exact ih hm

theorem Run.holds_of_attempt (run : Run plan answering changes (ofCalls around lists) h r)
    {past later : History I} {i : Nat} {before : List (Mark I)} {call : Call} {s : Slot}
    {doc : ProvidersDocument} {xs : List (Exchange I)} (hm : h = past ++ later)
    (hown : past.own i = before ++ Mark.attempt call s (some doc) xs) :
    past.Holds .document doc := by
  have hlooked : past.own i = (before ++ [.called call, .claimed s]) ++
      .looked s (some doc) :: xs.map .asked := by
    simp [hown, Mark.attempt]
  obtain ⟨q, rest, rfl, -, -⟩ := History.own_split hlooked
  have hsplit : h = q ++ (i, .looked s (some doc)) :: (rest ++ later) := by
    rw [hm, List.append_assoc, List.cons_append]
  exact ((run.justified hsplit doc).mp rfl).append_left _

end Race

end Provisioning
