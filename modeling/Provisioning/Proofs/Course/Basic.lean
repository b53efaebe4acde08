import Provisioning.Proofs.Calls

/-!
# Courses

In a course, calls to a factory take turns with changes of its surroundings. A course is made up of
episodes, each of them one call or one change together with the factory that it happens to.
-/

namespace Provisioning

variable {I : Interface} {σ : Type}

/-- What happens to a factory: it is called, or its surroundings change. -/
inductive Happening (σ : Type) where
  | call (call : Call)
  | change (change : σ → σ)

/-- Something that happens, and the factory that it happens to. -/
structure Episode (σ : Type) where
  factory : Factory σ
  happening : Happening σ

def Episode.served? (plan : Plan I) (answering : Answering I σ) (e : Episode σ) :
    Option (Call × Outcome) :=
  match e.happening with
  | .call call => some (call, (e.factory.perform plan answering call).1)
  | .change _ => none

namespace Factory

def fresh {σ : Type} (around : σ) : Factory σ :=
  ⟨{}, around⟩

def undergo (plan : Plan I) (answering : Answering I σ) (f : Factory σ) : Happening σ → Factory σ
  | .call call => (f.perform plan answering call).2
  | .change change => ⟨f.cells, change f.around⟩

def after (plan : Plan I) (answering : Answering I σ) (f : Factory σ)
    (course : List (Happening σ)) : Factory σ :=
  course.foldl (undergo plan answering) f

def episodes (plan : Plan I) (answering : Answering I σ) :
    Factory σ → List (Happening σ) → List (Episode σ)
  | _, [] => []
  | f, h :: rest => ⟨f, h⟩ :: episodes plan answering (f.undergo plan answering h) rest

def served (plan : Plan I) (answering : Answering I σ) (f : Factory σ)
    (course : List (Happening σ)) : List (Call × Outcome) :=
  (f.episodes plan answering course).filterMap (Episode.served? plan answering)

variable {plan : Plan I} {answering : Answering I σ} {f : Factory σ}

theorem fresh_settled (around : σ) : (fresh around).cells.Settled := by
  intro s
  cases s <;> nofun

theorem after_append (past later : List (Happening σ)) :
    f.after plan answering (past ++ later) =
      (f.after plan answering past).after plan answering later :=
  List.foldl_append

theorem after_snoc (past : List (Happening σ)) (h : Happening σ) :
    f.after plan answering (past ++ [h]) =
      (f.after plan answering past).undergo plan answering h :=
  after_append past [h]

theorem episodes_append (past later : List (Happening σ)) :
    f.episodes plan answering (past ++ later) = f.episodes plan answering past ++
      (f.after plan answering past).episodes plan answering later := by
  induction past generalizing f with
  | nil => rfl
  | cons h past ih => exact congrArg (_ :: ·) ih

theorem served_snoc_call (past : List (Happening σ)) (call : Call) :
    f.served plan answering (past ++ [.call call]) = f.served plan answering past ++
      [(call, ((f.after plan answering past).perform plan answering call).1)] := by
  simp [served, episodes_append, episodes, Episode.served?]

theorem served_snoc_change (past : List (Happening σ)) (change : σ → σ) :
    f.served plan answering (past ++ [.change change]) = f.served plan answering past := by
  simp [served, episodes_append, episodes, Episode.served?]

/-- An episode of a course is reached by what has happened before. -/
theorem mem_episodes {course : List (Happening σ)} {e : Episode σ} :
    e ∈ f.episodes plan answering course ↔
      ∃ past later, course = past ++ e.happening :: later ∧
        e.factory = f.after plan answering past := by
  induction course generalizing f with
  | nil => simp [episodes]
  | cons h course ih =>
    rw [episodes, List.mem_cons, ih]
    constructor
    · rintro (rfl | ⟨past, later, rfl, hf⟩)
      · exact ⟨[], course, rfl, rfl⟩
      · exact ⟨h :: past, later, rfl, hf⟩
    · rintro ⟨past, later, hc, hf⟩
      cases past with
      | nil =>
        obtain ⟨rfl, rfl⟩ := List.cons.inj hc
        exact .inl (congrArg (Episode.mk · e.happening) hf)
      | cons h' past =>
        obtain ⟨rfl, rfl⟩ := List.cons.inj hc
        exact .inr ⟨past, later, rfl, hf⟩

theorem undergo_settled (plan : Plan I) (answering : Answering I σ) (hf : f.cells.Settled)
    (h : Happening σ) : (f.undergo plan answering h).cells.Settled := by
  cases h with
  | call call => exact (perform_spec plan answering hf call).settled hf
  | change => exact hf

theorem undergo_within (plan : Plan I) (answering : Answering I σ) (hf : f.cells.Settled)
    (h : Happening σ) : f.cells.Within (f.undergo plan answering h).cells := by
  cases h with
  | call call => exact (perform_spec plan answering hf call).within
  | change => exact .refl _

theorem after_settled (plan : Plan I) (answering : Answering I σ) (hf : f.cells.Settled)
    (course : List (Happening σ)) : (f.after plan answering course).cells.Settled := by
  induction course generalizing f with
  | nil => exact hf
  | cons h course ih => exact ih (undergo_settled plan answering hf h)

/-- What a cell is filled with, it is full of for the rest of the course. -/
theorem after_within (plan : Plan I) (answering : Answering I σ) (hf : f.cells.Settled)
    (course : List (Happening σ)) : f.cells.Within (f.after plan answering course).cells := by
  induction course generalizing f with
  | nil => exact .refl _
  | cons h course ih =>
    have hnext := undergo_settled plan answering hf h
    exact (undergo_within plan answering hf h).trans (ih hnext)

theorem episode_within (plan : Plan I) (answering : Answering I σ) (hf : f.cells.Settled)
    {course : List (Happening σ)} {e : Episode σ} (he : e ∈ f.episodes plan answering course) :
    e.factory.cells.Settled ∧ e.factory.cells.Within (f.after plan answering course).cells := by
  obtain ⟨past, later, hcourse, hfactory⟩ := mem_episodes.mp he
  have hsettled : e.factory.cells.Settled := by
    rw [hfactory]
    exact after_settled plan answering hf past
  have hfinal : f.after plan answering course =
      e.factory.after plan answering (e.happening :: later) := by
    rw [hcourse, hfactory, after_append]
  rw [hfinal]
  exact ⟨hsettled, after_within plan answering hsettled _⟩

end Factory

end Provisioning
