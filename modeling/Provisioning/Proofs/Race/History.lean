import Provisioning.Proofs.Calls
import Provisioning.Proofs.Transcript

/-!
# Histories of races

The steps of a race leave marks: which call a thread makes, that it claims a cell, what it sees of
the document before it sets to work, what it asks and is answered, how its work ends and what the
call returns. A history holds all marks in their order, with the numbers of the threads.
-/

namespace Provisioning

variable {I : Interface} {σ : Type}

/-- What a thread leaves in the history of a race. -/
inductive Mark (I : Interface) where
  | called (call : Call)
  | claimed (s : Slot)
  | looked (s : Slot) (document : Option ProvidersDocument)
  | asked (exchange : Exchange I)
  | ended (s : Slot) (outcome : Except FactoryError s.Content)
  | returned (outcome : Outcome)

/-- The marks of a race in their order, each with the number of the thread that left it. -/
abbrev History (I : Interface) := List (Nat × Mark I)

namespace History

def own (h : History I) (i : Nat) : List (Mark I) :=
  (h.filter fun m => m.1 = i).map Prod.snd

def Holds (h : History I) (s : Slot) (a : s.Content) : Prop :=
  ∃ i, (i, Mark.ended s (.ok a)) ∈ h

@[simp] theorem own_nil (i : Nat) : own ([] : History I) i = [] := rfl

@[simp] theorem own_append (h h' : History I) (i : Nat) : own (h ++ h') i = own h i ++ own h' i := by
  simp [own]

@[simp] theorem own_cons_self (m : Mark I) (h : History I) (i : Nat) :
    own ((i, m) :: h) i = m :: own h i := by
  simp [own]

@[simp] theorem own_map_self (marks : List (Mark I)) (i : Nat) :
    own (marks.map (i, ·)) i = marks := by
  induction marks with
  | nil => rfl
  | cons m marks ih => simp [ih]

theorem own_map_of_ne (marks : List (Mark I)) {i j : Nat} (hij : i ≠ j) :
    own (marks.map (i, ·)) j = [] := by
  simp [own, hij]

theorem mem_own {h : History I} {i : Nat} {m : Mark I} : m ∈ own h i ↔ (i, m) ∈ h := by
  simp only [own, List.mem_map, List.mem_filter, decide_eq_true_eq]
  constructor
  · intro hp
    rcases hp with ⟨⟨j, m⟩, ⟨hm, rfl⟩, rfl⟩
    exact hm
  · intro hm
    exact ⟨(i, m), ⟨hm, rfl⟩, rfl⟩

theorem own_split {h : History I} {i : Nat} {before after : List (Mark I)} {m : Mark I}
    (hm : own h i = before ++ m :: after) :
    ∃ past later, h = past ++ (i, m) :: later ∧ own past i = before ∧ own later i = after := by
  unfold own at hm
  obtain ⟨xs, ys, hf, hx, hy⟩ := List.map_eq_append_iff.mp hm
  obtain ⟨⟨j, m'⟩, zs, rfl, hz, ha⟩ := List.map_eq_cons_iff.mp hy
  cases hz
  obtain ⟨past, rest, rfl, hp, hr⟩ := List.filter_eq_append_iff.mp hf
  obtain ⟨gap, later, rfl, hg, hj, hl⟩ := List.filter_eq_cons_iff.mp hr
  obtain rfl : j = i := by simpa using hj
  refine ⟨past ++ gap, later, by simp, ?_, by simp [own, hl, ha]⟩
  have hgap : gap.filter (fun m => decide (m.1 = j)) = [] := List.filter_eq_nil_iff.mpr hg
  simp [own, hp, hgap, hx]

theorem Holds.append_left {h : History I} {s : Slot} {a : s.Content} (hh : h.Holds s a)
    (h' : History I) : Holds (h ++ h') s a := by
  rcases hh with ⟨i, hi⟩
  exact ⟨i, List.mem_append_left _ hi⟩

end History

def Stage.Attempts (s : Slot) : Stage I → Prop
  | .claiming s' => s' = s
  | .filling s' _ => s' = s
  | _ => False

namespace Thread

/-- The marks that the next step of a thread leaves. -/
def marks (answering : Answering I σ) (f : Factory σ) (t : Thread I) : List (Mark I) :=
  match t.stage with
  | .idle =>
    match t.calls with
    | [] => []
    | call :: _ =>
      match f.glance? call with
      | some outcome => [.called call, .returned outcome]
      | none => [.called call]
  | .again (.done ()) => [.returned (.ok .done)]
  | .again (.ask q _) => [.asked ⟨q, (answering q f.around).1⟩]
  | .waiting s =>
    match f.cells.get s with
    | .full a => [.returned (.ok (s.reply a))]
    | .claimed => []
    | .empty => [.claimed s]
  | .claiming s => [.looked s f.cells.document.content?]
  | .filling s (.done outcome) => [.ended s outcome, .returned (outcome.map s.reply)]
  | .filling _ (.ask q _) => [.asked ⟨q, (answering q f.around).1⟩]

/-- The kinds of step that a thread takes which goes on after failures. -/
inductive Step (plan : Plan I) (answering : Answering I σ) (f : Factory σ) :
    Thread I → List (Mark I) → Thread I → Factory σ → Prop where
  | glance {call : Call} {outcome : Outcome} {calls : List Call} {returned : List Outcome}
      (h : f.glance? call = some outcome) :
      Step plan answering f ⟨.idle, call :: calls, returned, false⟩
        [.called call, .returned outcome] ⟨.idle, calls, returned ++ [outcome], false⟩ f
  | wait {call : Call} {s : Slot} {calls : List Call} {returned : List Outcome}
      (h : call.slot? = some s) :
      Step plan answering f ⟨.idle, call :: calls, returned, false⟩ [.called call]
        ⟨.waiting s, calls, returned, false⟩ f
  | repeated {d : ProvidersDocument} {calls : List Call} {returned : List Outcome}
      (h : f.cells.document = .full d) :
      Step plan answering f ⟨.idle, .start :: calls, returned, false⟩ [.called .start]
        ⟨.again plan.again, calls, returned, false⟩ f
  | remark {q : I.Question} {next : I.Answer q → Dialogue I Unit} {calls : List Call}
      {returned : List Outcome} :
      Step plan answering f ⟨.again (.ask q next), calls, returned, false⟩
        [.asked ⟨q, (answering q f.around).1⟩]
        ⟨.again (next (answering q f.around).1), calls, returned, false⟩
        ⟨f.cells, (answering q f.around).2⟩
  | confirm {calls : List Call} {returned : List Outcome} :
      Step plan answering f ⟨.again (.done ()), calls, returned, false⟩ [.returned (.ok .done)]
        ⟨.idle, calls, returned ++ [.ok .done], false⟩ f
  | share {s : Slot} {a : s.Content} {calls : List Call} {returned : List Outcome}
      (h : f.cells.get s = .full a) :
      Step plan answering f ⟨.waiting s, calls, returned, false⟩ [.returned (.ok (s.reply a))]
        ⟨.idle, calls, returned ++ [.ok (s.reply a)], false⟩ f
  | claim {s : Slot} {calls : List Call} {returned : List Outcome} (h : f.cells.get s = .empty) :
      Step plan answering f ⟨.waiting s, calls, returned, false⟩ [.claimed s]
        ⟨.claiming s, calls, returned, false⟩ ⟨f.cells.set s .claimed, f.around⟩
  | look {s : Slot} {calls : List Call} {returned : List Outcome} :
      Step plan answering f ⟨.claiming s, calls, returned, false⟩
        [.looked s f.cells.document.content?]
        ⟨.filling s (plan.fill s f.cells.document.content?), calls, returned, false⟩ f
  | ask {s : Slot} {q : I.Question}
      {next : I.Answer q → Dialogue I (Except FactoryError s.Content)} {calls : List Call}
      {returned : List Outcome} :
      Step plan answering f ⟨.filling s (.ask q next), calls, returned, false⟩
        [.asked ⟨q, (answering q f.around).1⟩]
        ⟨.filling s (next (answering q f.around).1), calls, returned, false⟩
        ⟨f.cells, (answering q f.around).2⟩
  | settle {s : Slot} {outcome : Except FactoryError s.Content} {calls : List Call}
      {returned : List Outcome} :
      Step plan answering f ⟨.filling s (.done outcome), calls, returned, false⟩
        [.ended s outcome, .returned (outcome.map s.reply)]
        ⟨.idle, calls, returned ++ [outcome.map s.reply], false⟩
        ⟨f.cells.settle s outcome, f.around⟩

theorem begin_step {plan : Plan I} {answering : Answering I σ} {f : Factory σ} (call : Call)
    (calls : List Call) (returned : List Outcome) :
    Step plan answering f ⟨.idle, call :: calls, returned, false⟩
      (marks answering f ⟨.idle, call :: calls, returned, false⟩)
      (begin plan f ⟨.idle, calls, returned, false⟩ call) f := by
  cases call with
  | start =>
    by_cases hf : f.isInitialized
    · have hd : ∃ d, f.cells.document = .full d := by
        unfold Factory.isInitialized at hf
        cases hc : f.cells.document with
        | full d => exact ⟨d, rfl⟩
        | empty => simp [hc, Cell.content?] at hf
        | claimed => simp [hc, Cell.content?] at hf
      rcases hd with ⟨d, hd⟩
      rw [begin, if_pos hf]
      exact .repeated hd
    · rw [begin, if_neg hf]
      exact .wait rfl
  | isInitialized => exact .glance rfl
  | document => exact .glance rfl
  | persistenceProvider => exact .wait rfl
  | hookProviders => exact .wait rfl

theorem step_spec {plan : Plan I} {answering : Answering I σ} {f f' : Factory σ} {t t' : Thread I}
    (ht : t.cautious = false) (h : t.step? plan answering f = some (t', f')) :
    Step plan answering f t (t.marks answering f) t' f' := by
  rcases t with ⟨stage, calls, returned, cautious⟩
  obtain rfl : cautious = false := ht
  cases stage with
  | idle =>
    cases calls with
    | nil => simp [step?] at h
    | cons call calls =>
      simp only [step?, Option.some.injEq, Prod.mk.injEq] at h
      rcases h with ⟨rfl, rfl⟩
      exact begin_step call calls returned
  | again work =>
    cases work with
    | done =>
      simp only [step?, Option.some.injEq, Prod.mk.injEq] at h
      rcases h with ⟨rfl, rfl⟩
      exact .confirm
    | ask q next =>
      simp only [step?, Option.some.injEq, Prod.mk.injEq] at h
      rcases h with ⟨rfl, rfl⟩
      exact .remark
  | waiting s =>
    cases hc : f.cells.get s with
    | empty =>
      simp only [step?, hc, Option.some.injEq, Prod.mk.injEq] at h
      rcases h with ⟨rfl, rfl⟩
      have hm : marks answering f ⟨.waiting s, calls, returned, false⟩ = [.claimed s] := by
        simp [marks, hc]
      rw [hm]
      exact .claim hc
    | claimed => simp [step?, hc] at h
    | full a =>
      simp only [step?, hc, Option.some.injEq, Prod.mk.injEq] at h
      rcases h with ⟨rfl, rfl⟩
      have hm : marks answering f ⟨.waiting s, calls, returned, false⟩ =
          [.returned (.ok (s.reply a))] := by
        simp [marks, hc]
      rw [hm]
      exact .share hc
  | claiming s =>
    simp only [step?, Option.some.injEq, Prod.mk.injEq] at h
    rcases h with ⟨rfl, rfl⟩
    exact .look
  | filling s work =>
    cases work with
    | done outcome =>
      simp only [step?, Option.some.injEq, Prod.mk.injEq] at h
      rcases h with ⟨rfl, rfl⟩
      exact .settle
    | ask q next =>
      simp only [step?, Option.some.injEq, Prod.mk.injEq] at h
      rcases h with ⟨rfl, rfl⟩
      exact .ask

end Thread

end Provisioning
