import Provisioning.Dialogue

/-!
# Transcripts of dialogues

A transcript lists what was asked and answered while a piece of work went on from one state to
another. It may stop anywhere, so that it also tells of work that has not come to its end.
-/

namespace Provisioning

/-- A question with the answer it got. -/
structure Exchange (I : Interface) where
  question : I.Question
  answer : I.Answer question

namespace Dialogue

variable {I : Interface} {α β : Type}

/-- Some exchanges take a piece of work to what is left of it. -/
inductive Leads : Dialogue I α → List (Exchange I) → Dialogue I α → Prop where
  | refl (w : Dialogue I α) : Leads w [] w
  | ask {q : I.Question} {next : I.Answer q → Dialogue I α} {a : I.Answer q}
      {xs : List (Exchange I)} {w : Dialogue I α} :
      Leads (next a) xs w → Leads (.ask q next) (⟨q, a⟩ :: xs) w

theorem Leads.snoc {w : Dialogue I α} {xs : List (Exchange I)} {q : I.Question}
    {next : I.Answer q → Dialogue I α} (h : Leads w xs (.ask q next)) (a : I.Answer q) :
    Leads w (xs ++ [⟨q, a⟩]) (next a) := by
  generalize hv : Dialogue.ask q next = v at h
  induction h with
  | refl w =>
    subst hv
    exact .ask (.refl _)
  | ask _ ih => exact .ask (ih hv)

theorem leads_done_iff {a : α} {xs : List (Exchange I)} {w : Dialogue I α} :
    Leads (.done a) xs w ↔ xs = [] ∧ w = .done a := by
  constructor
  · intro h
    cases h
    exact ⟨rfl, rfl⟩
  · intro h
    rcases h with ⟨rfl, rfl⟩
    exact .refl _

theorem leads_ask_iff {q : I.Question} {next : I.Answer q → Dialogue I α}
    {xs : List (Exchange I)} {w : Dialogue I α} :
    Leads (.ask q next) xs w ↔
      (xs = [] ∧ w = .ask q next) ∨ ∃ a ys, xs = ⟨q, a⟩ :: ys ∧ Leads (next a) ys w := by
  constructor
  · intro h
    cases h with
    | refl => exact .inl ⟨rfl, rfl⟩
    | ask h => exact .inr ⟨_, _, rfl, h⟩
  · intro h
    rcases h with ⟨rfl, rfl⟩ | ⟨a, ys, rfl, h⟩
    · exact .refl _
    · exact .ask h

/-- A transcript of two pieces of work in a row stops within the first, or it is a whole transcript
of the first and one of the second. -/
theorem leads_bind_iff {w : Dialogue I α} {f : α → Dialogue I β} {xs : List (Exchange I)}
    {v : Dialogue I β} :
    Leads (w.bind f) xs v ↔
      (∃ u, Leads w xs u ∧ v = u.bind f) ∨
        ∃ ys zs a, xs = ys ++ zs ∧ Leads w ys (.done a) ∧ Leads (f a) zs v := by
  induction w generalizing xs with
  | done a =>
    constructor
    · intro h
      exact .inr ⟨[], xs, a, rfl, .refl _, h⟩
    · intro h
      rcases h with ⟨u, hu, rfl⟩ | ⟨ys, zs, b, rfl, hy, hz⟩
      · obtain ⟨rfl, rfl⟩ := leads_done_iff.mp hu
        exact .refl _
      · obtain ⟨rfl, hb⟩ := leads_done_iff.mp hy
        cases hb
        exact hz
  | ask q next ih =>
    simp only [bind]
    constructor
    · intro h
      rcases leads_ask_iff.mp h with ⟨rfl, rfl⟩ | ⟨a, ys, rfl, hn⟩
      · exact .inl ⟨.ask q next, .refl _, rfl⟩
      · rcases (ih a).mp hn with ⟨u, hu, rfl⟩ | ⟨us, zs, b, rfl, hu, hz⟩
        · exact .inl ⟨u, .ask hu, rfl⟩
        · exact .inr ⟨⟨q, a⟩ :: us, zs, b, rfl, .ask hu, hz⟩
    · intro h
      rcases h with ⟨u, hu, rfl⟩ | ⟨ys, zs, b, rfl, hy, hz⟩
      · rcases leads_ask_iff.mp hu with ⟨rfl, rfl⟩ | ⟨a, us, rfl, hn⟩
        · exact .refl _
        · exact .ask ((ih a).mpr (.inl ⟨u, hn, rfl⟩))
      · rcases leads_ask_iff.mp hy with ⟨-, hd⟩ | ⟨a, us, rfl, hn⟩
        · cases hd
        · exact .ask ((ih a).mpr (.inr ⟨us, zs, b, rfl, hn, hz⟩))

theorem leads_ask_done_iff {q : I.Question} {next : I.Answer q → Dialogue I α}
    {xs : List (Exchange I)} {b : α} :
    Leads (.ask q next) xs (.done b) ↔ ∃ a ys, xs = ⟨q, a⟩ :: ys ∧ Leads (next a) ys (.done b) := by
  rw [leads_ask_iff]
  simp

theorem leads_bind_done_iff {w : Dialogue I α} {f : α → Dialogue I β} {xs : List (Exchange I)}
    {b : β} :
    Leads (w.bind f) xs (.done b) ↔
      ∃ ys zs a, xs = ys ++ zs ∧ Leads w ys (.done a) ∧ Leads (f a) zs (.done b) := by
  rw [leads_bind_iff]
  constructor
  · intro h
    rcases h with ⟨u, hu, hb⟩ | hw
    · cases u with
      | done a => exact ⟨xs, [], a, by simp, hu, by rw [hb]; exact .refl _⟩
      | ask => cases hb
    · exact hw
  · exact .inr

/-- Every question that the work may come to ask is of a certain kind. -/
def Asks (P : I.Question → Prop) : Dialogue I α → Prop
  | done _ => True
  | ask q next => P q ∧ ∀ a, Asks P (next a)

theorem Leads.asks {P : I.Question → Prop} {w v : Dialogue I α} {xs : List (Exchange I)}
    (h : Leads w xs v) (hw : w.Asks P) : v.Asks P := by
  induction h with
  | refl => exact hw
  | ask _ ih => exact ih (hw.2 _)

theorem Asks.bind {P : I.Question → Prop} {w : Dialogue I α} {f : α → Dialogue I β}
    (hw : w.Asks P) (hf : ∀ a, (f a).Asks P) : (w.bind f).Asks P := by
  induction w with
  | done a => exact hf a
  | ask q next ih => exact ⟨hw.1, fun a => ih a (hw.2 a)⟩

/-! ## Whole runs -/

section Runs

variable {σ : Type} {answering : Answering I σ}

def transcript (answering : Answering I σ) : Dialogue I α → σ → List (Exchange I)
  | done _, _ => []
  | ask q next, s =>
    match answering q s with
    | (answer, s) => ⟨q, answer⟩ :: transcript answering (next answer) s

theorem leads_transcript (answering : Answering I σ) (w : Dialogue I α) (s : σ) :
    w.Leads (w.transcript answering s) (.done (w.run answering s).1) := by
  induction w generalizing s with
  | done a => exact .refl _
  | ask q next ih => exact .ask (ih _ _)

theorem run_bind (w : Dialogue I α) (f : α → Dialogue I β) (s : σ) :
    (w.bind f).run answering s =
      (f (w.run answering s).1).run answering (w.run answering s).2 := by
  induction w generalizing s with
  | done a => rfl
  | ask q next ih => exact ih _ _

theorem transcript_bind (w : Dialogue I α) (f : α → Dialogue I β) (s : σ) :
    (w.bind f).transcript answering s = w.transcript answering s ++
      (f (w.run answering s).1).transcript answering (w.run answering s).2 := by
  induction w generalizing s with
  | done a => rfl
  | ask q next ih => exact congrArg (_ :: ·) (ih _ _)

theorem Asks.transcript {P : I.Question → Prop} {w : Dialogue I α} (hw : w.Asks P) (s : σ) :
    ∀ x ∈ w.transcript answering s, P x.question := by
  induction w generalizing s with
  | done a => simp [Dialogue.transcript]
  | ask q next ih => exact List.forall_mem_cons.mpr ⟨hw.1, ih _ (hw.2 _) _⟩

theorem Asks.run_keeps {P : I.Question → Prop} {Q : σ → Prop} {w : Dialogue I α} (hw : w.Asks P)
    (keeps : ∀ q s, P q → Q s → Q (answering q s).2) {s : σ} (hs : Q s) :
    Q (w.run answering s).2 := by
  induction w generalizing s with
  | done a => exact hs
  | ask q next ih => exact ih _ (hw.2 _) (keeps q s hw.1 hs)

def recording (answering : Answering I σ) : Answering I (σ × List (Exchange I)) :=
  fun q past =>
    match answering q past.1 with
    | (answer, s) => (answer, s, past.2 ++ [⟨q, answer⟩])

theorem run_recording (answering : Answering I σ) (w : Dialogue I α) (s : σ)
    (past : List (Exchange I)) :
    w.run (recording answering) (s, past) =
      ((w.run answering s).1, (w.run answering s).2, past ++ w.transcript answering s) := by
  induction w generalizing s past with
  | done a => simp [run, Dialogue.transcript]
  | ask q next ih =>
    have hrest := ih (answering q s).1 (answering q s).2 (past ++ [⟨q, (answering q s).1⟩])
    rw [List.append_assoc] at hrest
    exact hrest

end Runs

end Dialogue

end Provisioning
