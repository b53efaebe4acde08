import Provisioning.Proofs.Race.History
import Provisioning.Surroundings

/-!
# Runs of races

A run is any sequence of steps of the threads, between which the surroundings may change on their own.
-/

namespace Provisioning

variable {I : Interface} {σ : Type}

namespace Race

/-- Threads that are going to make some calls to a factory that nothing was asked of before. -/
def ofCalls (around : σ) (lists : List (List Call)) : Race I σ :=
  ⟨⟨{}, around⟩, lists.map fun calls => ⟨.idle, calls, [], false⟩⟩

/-- A history takes a race from its start to some state. The threads take steps in any order, and the
surroundings may undergo certain changes in between. -/
inductive Run (plan : Plan I) (answering : Answering I σ) (changes : σ → σ → Prop)
    (start : Race I σ) : History I → Race I σ → Prop where
  | start : Run plan answering changes start [] start
  | turn {h : History I} {r : Race I σ} {t t' : Thread I} {f : Factory σ} (i : Nat)
      (run : Run plan answering changes start h r) (ht : r.threads[i]? = some t)
      (hs : t.step? plan answering r.factory = some (t', f)) :
      Run plan answering changes start (h ++ (t.marks answering r.factory).map (i, ·))
        ⟨f, r.threads.set i t'⟩
  | change {h : History I} {r : Race I σ} (around : σ) (run : Run plan answering changes start h r)
      (hc : changes r.factory.around around) :
      Run plan answering changes start h ⟨⟨r.factory.cells, around⟩, r.threads⟩

variable {plan : Plan I} {answering : Answering I σ} {changes : σ → σ → Prop} {around : σ}
  {lists : List (List Call)} {h : History I} {r : Race I σ}

theorem thread_of_ofCalls {i : Nat} {t : Thread I}
    (ht : (ofCalls around lists : Race I σ).threads[i]? = some t) :
    ∃ calls, lists[i]? = some calls ∧ t = ⟨.idle, calls, [], false⟩ := by
  simp only [ofCalls, List.getElem?_map, Option.map_eq_some_iff] at ht
  rcases ht with ⟨calls, hc, rfl⟩
  exact ⟨calls, hc, rfl⟩

theorem thread_of_set {threads : List (Thread I)} {i j : Nat} {t' u : Thread I}
    (hu : (threads.set i t')[j]? = some u) :
    (j = i ∧ u = t') ∨ (j ≠ i ∧ threads[j]? = some u) := by
  by_cases hj : j = i
  · subst hj
    rw [List.getElem?_set] at hu
    simp only [if_true] at hu
    split at hu
    · exact .inl ⟨rfl, (Option.some.inj hu).symm⟩
    · cases hu
  · rw [List.getElem?_set_ne (Ne.symm hj)] at hu
    exact .inr ⟨hj, hu⟩

theorem step_not_cautious {f f' : Factory σ} {t t' : Thread I} {marks : List (Mark I)}
    (hs : Thread.Step plan answering f t marks t' f') : t'.cautious = false := by
  cases hs <;> rfl

theorem Run.not_cautious (run : Run plan answering changes (ofCalls around lists) h r) {i : Nat}
    {t : Thread I} (ht : r.threads[i]? = some t) : t.cautious = false := by
  induction run generalizing i t with
  | start =>
    obtain ⟨calls, -, rfl⟩ := thread_of_ofCalls ht
    rfl
  | turn j run hj hs ih =>
    rcases thread_of_set ht with ⟨-, rfl⟩ | ⟨-, ht⟩
    · exact step_not_cautious (Thread.step_spec (ih hj) hs)
    · exact ih ht
  | change _ _ _ ih => exact ih ht

/-- What holds at the start and is kept by every kind of step holds all along a run. -/
@[elab_as_elim]
theorem Run.steps
    {motive : (h : History I) → (r : Race I σ) →
      Run plan answering changes (ofCalls around lists) h r → Prop}
    (start : motive [] (ofCalls around lists) .start)
    (turn : ∀ (h : History I) (f : Factory σ) (threads : List (Thread I)) (i : Nat)
      (t : Thread I) (marks : List (Mark I)) (t' : Thread I) (f' : Factory σ)
      (run : Run plan answering changes (ofCalls around lists) h ⟨f, threads⟩)
      (next : Run plan answering changes (ofCalls around lists) (h ++ marks.map (i, ·))
        ⟨f', threads.set i t'⟩), motive h ⟨f, threads⟩ run → threads[i]? = some t →
      Thread.Step plan answering f t marks t' f' →
      motive (h ++ marks.map (i, ·)) ⟨f', threads.set i t'⟩ next)
    (change : ∀ (h : History I) (f : Factory σ) (threads : List (Thread I)) (around' : σ)
      (run : Run plan answering changes (ofCalls around lists) h ⟨f, threads⟩)
      (hc : changes f.around around'), motive h ⟨f, threads⟩ run →
      motive h ⟨⟨f.cells, around'⟩, threads⟩ (run.change around' hc))
    (run : Run plan answering changes (ofCalls around lists) h r) : motive h r run := by
  induction run with
  | start => exact start
  | turn i run ht hs ih =>
    exact turn _ _ _ i _ _ _ _ run (run.turn i ht hs) ih ht
      (Thread.step_spec (run.not_cautious ht) hs)
  | change around' run hc ih => exact change _ _ _ around' run hc ih

theorem Run.length_threads (run : Run plan answering changes (ofCalls around lists) h r) :
    r.threads.length = lists.length := by
  induction run with
  | start => simp [ofCalls]
  | turn _ _ _ _ ih => simpa using ih
  | change _ _ _ ih => exact ih

def record (plan : Plan I) (answering : Answering I σ) : List Nat → Race I σ → History I
  | [], _ => []
  | i :: turns, r =>
    (match r.threads[i]? with
      | some t => if (r.step? plan answering i).isSome then (t.marks answering r.factory).map (i, ·) else []
      | none => []) ++ record plan answering turns ((r.step? plan answering i).getD r)

theorem Run.play {start : Race I σ} (run : Run plan answering changes start h r) (turns : List Nat) :
    Run plan answering changes start (h ++ record plan answering turns r)
      (r.play plan answering turns) := by
  induction turns generalizing h r with
  | nil => simpa [record, Race.play] using run
  | cons i turns ih =>
    cases ht : r.threads[i]? with
    | none =>
      have hs : r.step? plan answering i = none := by simp [step?, ht]
      simpa [record, Race.play, ht, hs] using ih run
    | some t =>
      cases hs : t.step? plan answering r.factory with
      | none =>
        have hr : r.step? plan answering i = none := by simp [step?, ht, hs]
        simpa [record, Race.play, ht, hr] using ih run
      | some p =>
        rcases p with ⟨t', f⟩
        have hr : r.step? plan answering i = some ⟨f, r.threads.set i t'⟩ := by
          simp [step?, ht, hs]
        simpa [record, Race.play, ht, hr, List.append_assoc] using ih (run.turn i ht hs)

def transplant (r : Race I σ) (around : σ) : Race I σ :=
  ⟨⟨r.factory.cells, around⟩, r.threads⟩

theorem Run.transplanted {start : Race I σ} (turns turns' : List Nat) (around' : σ)
    (hc : changes (start.play plan answering turns).factory.around around') :
    Run plan answering changes start
      (record plan answering turns start ++
        record plan answering turns' ((start.play plan answering turns).transplant around'))
      (((start.play plan answering turns).transplant around').play plan answering turns') :=
  ((Run.start.play turns).change around' hc).play turns'

end Race

/-- Surroundings that have no providers, and a document as the number of earlier loads decides. -/
def bareDocument (load : Nat → Except ConfigError ProvidersDocument) : Answering Question.interface Nat
  | .load _, n => (load n, n + 1)
  | .resolve _, n => (none, n)
  | .construct _, n => (.error ⟨"", []⟩, n)
  | .configure .., n => (.ok (), n)
  | .note _, n => ((), n)

end Provisioning
