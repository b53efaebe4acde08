import Provisioning.Proofs.Race.ComputeOnce

/-!
# Calls from end to end

A call begins with a mark of its thread and ends with another, and the thread begins no other call in
between. What the thread does meanwhile is all there is to know of how the call came to its outcome: it
has looked at the document or at a cell, or it has made an attempt of its own.
-/

namespace Provisioning

theorem split_last_unique {α : Type} {P : α → Prop} {xs ys xs' ys' : List α} {x y : α}
    (h : xs ++ x :: ys = xs' ++ y :: ys') (hys : ∀ z ∈ ys, P z) (hys' : ∀ z ∈ ys', P z) (hx : ¬ P x)
    (hy : ¬ P y) : x = y ∧ ys = ys' := by
  rcases List.append_eq_append_iff.mp h with ⟨mid, rfl, hl⟩ | ⟨mid, rfl, hl⟩
  · cases mid with
    | nil => exact List.cons.inj hl
    | cons x' mid =>
      obtain ⟨rfl, rfl⟩ := List.cons.inj hl
      exact (hy (hys y (by simp))).elim
  · cases mid with
    | nil =>
      obtain ⟨rfl, rfl⟩ := List.cons.inj hl
      exact ⟨rfl, rfl⟩
    | cons y' mid =>
      obtain ⟨rfl, rfl⟩ := List.cons.inj hl
      exact (hx (hys' x (by simp))).elim

theorem Slot.eq_of_reply_eq {s s' : Slot} {a : s.Content} {a' : s'.Content}
    (h : s.reply a = s'.reply a') : s = s' := by
  cases s <;> cases s' <;> first | rfl | cases h

theorem Slot.reply_ne_done {s : Slot} (hs : s ≠ .document) (a : s.Content) : s.reply a ≠ .done := by
  intro h
  have hdone : s.reply a = Slot.reply .document {} := h
  exact hs (Slot.eq_of_reply_eq hdone)

variable {I : Interface} {σ : Type}

namespace History

/-- A thread makes a call and gets its outcome, while some other things happen. -/
structure Serves (h past : History I) (i : Nat) (call : Call) (between : History I)
    (outcome : Outcome) (later : History I) : Prop where
  split : h = past ++ (i, .called call) :: (between ++ (i, .returned outcome) :: later)
  single : ∀ call', (i, .called call') ∉ between

/-- How a call comes to its outcome: what was there before it and is there at its end, the marks that
its thread has left in it, and the outcome. -/
inductive Conduct (plan : Plan I) (past now : History I) :
    Call → List (Mark I) → Outcome → Prop where
  | flag {b : Bool} (hb : b = true ↔ ∃ d, now.Holds .document d) :
      Conduct plan past now .isInitialized [] (.ok (.flag b))
  | document {d : ProvidersDocument} (hd : now.Holds .document d) :
      Conduct plan past now .document [] (.ok (.document d))
  | noDocument (hd : ∀ d, ¬ now.Holds .document d) :
      Conduct plan past now .document [] (.error .notInitialized)
  | repeated {xs : List (Exchange I)} {d : ProvidersDocument} (hd : now.Holds .document d) :
      Conduct plan past now .start (xs.map .asked) (.ok (Slot.reply .document d))
  | shared {s : Slot} {a : s.Content} (ha : now.Holds s a) :
      Conduct plan past now s.call [] (.ok (s.reply a))
  | attempted {s : Slot} {d : Option ProvidersDocument} {xs : List (Exchange I)}
      {outcome : Except FactoryError s.Content}
      (before : ∀ d', past.Holds .document d' → d = some d')
      (after : ∀ d', d = some d' → now.Holds .document d')
      (leads : (plan.fill s d).Leads xs (.done outcome)) :
      Conduct plan past now s.call (.claimed s :: .looked s d :: (xs.map .asked ++ [.ended s outcome]))
        (outcome.map s.reply)

def Started (h : History I) : Prop :=
  ∃ i, (i, .returned (.ok .done)) ∈ h

variable {h past between later : History I} {i : Nat} {call : Call} {outcome : Outcome}

theorem Serves.split_returned (hc : h.Serves past i call between outcome later) :
    h = (past ++ (i, .called call) :: between) ++ (i, .returned outcome) :: later := by
  rw [hc.split, List.append_assoc, List.cons_append]

theorem Serves.last_called (hc : h.Serves past i call between outcome later)
    {before marks : List (Mark I)} {call' : Call}
    (hown : own (past ++ (i, .called call) :: between) i = before ++ .called call' :: marks)
    (hmarks : ∀ m ∈ marks, ∀ call, m ≠ .called call) : call' = call ∧ marks = own between i := by
  simp only [own_append, own_cons_self] at hown
  have hsingle : ∀ m ∈ own between i, ∀ call, m ≠ .called call := by
    rintro m hm call rfl
    exact hc.single call (mem_own.mp hm)
  obtain ⟨hcalls, hrest⟩ := split_last_unique hown.symm hmarks hsingle (by simp) (by simp)
  cases hcalls
  exact ⟨rfl, hrest⟩

end History

namespace Race

variable {plan : Plan I} {answering : Answering I σ} {changes : σ → σ → Prop} {around : σ}
  {lists : List (List Call)} {h past between later : History I} {r : Race I σ} {i : Nat}
  {call : Call} {outcome : Outcome}

/-- An attempt within a call has seen the document at some time in the call, and it has ended as the
work for the cell ends that it has then set to. -/
theorem Run.attempt_justified (run : Run plan answering changes (ofCalls around lists) h r)
    (hc : h.Serves past i call between outcome later) {s : Slot} {d : Option ProvidersDocument}
    {xs : List (Exchange I)} {o : Except FactoryError s.Content}
    (hown : between.own i = .claimed s :: .looked s d :: (xs.map .asked ++ [.ended s o])) :
    (∃ before after, between = before ++ after ∧
      ∀ d', d = some d' ↔ History.Holds (past ++ (i, .called call) :: before) .document d') ∧
    (plan.fill s d).Leads xs (.done o) := by
  constructor
  · have hlook : between.own i = [.claimed s] ++ .looked s d :: (xs.map .asked ++ [.ended s o]) := hown
    obtain ⟨before, after, rfl, -, -⟩ := History.own_split hlook
    have hsplit : h = (past ++ (i, .called call) :: before) ++ (i, .looked s d) ::
        (after ++ (i, .returned outcome) :: later) := by
      rw [hc.split]
      simp
    exact ⟨before, _, rfl, run.justified hsplit⟩
  · have hend : between.own i = (.claimed s :: .looked s d :: xs.map .asked) ++ .ended s o :: [] := hown
    obtain ⟨before, after, rfl, hbefore, -⟩ := History.own_split hend
    have hsplit : h = (past ++ (i, .called call) :: before) ++ (i, .ended s o) ::
        (after ++ (i, .returned outcome) :: later) := by
      rw [hc.split]
      simp
    obtain ⟨own', call', d', xs', hown', -, hl⟩ := run.justified hsplit
    rw [History.own_append, History.own_cons_self, hbefore] at hown'
    -- both are what the thread has done since it began its last call
    obtain ⟨-, hmarks⟩ := split_last_unique (P := fun m => ∀ c, m ≠ Mark.called c) hown'
      (by simp) (by simp) (by simp) (by simp)
    simp only [List.cons.injEq, Mark.looked.injEq, true_and] at hmarks
    obtain ⟨rfl, hxs⟩ := hmarks
    obtain rfl := (List.map_inj_right fun _ _ => Mark.asked.inj).mp hxs
    exact hl

theorem Run.conduct (run : Run plan answering changes (ofCalls around lists) h r)
    (hc : h.Serves past i call between outcome later) :
    History.Conduct plan past (past ++ (i, .called call) :: between) call (between.own i) outcome := by
  have ha : History.Answered (past ++ (i, .called call) :: between) i outcome :=
    run.justified hc.split_returned
  cases ha with
  | flag own hb =>
    obtain ⟨rfl, hown⟩ := hc.last_called own (by simp)
    exact hown ▸ .flag hb
  | document own hd =>
    obtain ⟨rfl, hown⟩ := hc.last_called own (by simp)
    exact hown ▸ .document hd
  | noDocument own hd =>
    obtain ⟨rfl, hown⟩ := hc.last_called own (by simp)
    exact hown ▸ .noDocument hd
  | repeated own hd =>
    obtain ⟨rfl, hown⟩ := hc.last_called own (by simp)
    exact hown ▸ .repeated hd
  | shared own hs ha =>
    obtain ⟨rfl, hown⟩ := hc.last_called own (by simp)
    obtain rfl := Call.slot?_eq_some_iff.mp hs
    exact hown ▸ .shared ha
  | @attempted before call' s d xs o own hs =>
    rw [List.append_assoc] at own
    obtain ⟨rfl, hown⟩ := hc.last_called own (by simp [or_imp, forall_and])
    obtain rfl := Call.slot?_eq_some_iff.mp hs
    obtain ⟨⟨seen, rest, rfl, hd⟩, hl⟩ := run.attempt_justified hc hown.symm
    rw [← hown]
    refine .attempted ?_ ?_ hl
    · intro d' hd'
      exact (hd d').mpr (hd'.append_left _)
    · intro d' hd'
      have hlater := ((hd d').mp hd').append_left rest
      simpa using hlater

theorem Run.returned_of_ended (run : Run plan answering changes (ofCalls around lists) h r) {s : Slot}
    {o : Except FactoryError s.Content} (hm : h = past ++ (i, .ended s o) :: later) :
    ∃ rest, later = (i, .returned (o.map s.reply)) :: rest := by
  induction run using Run.steps generalizing later with
  | start => simp at hm
  | turn h f threads j t marks t' f' run _ ih ht hs =>
    rcases split_of_append hm with ⟨rest, hh⟩ | ⟨rfl, before, after, hmarks, rfl⟩
    · obtain ⟨rest, rfl⟩ := ih hh
      rw [hh, List.append_assoc] at hm
      obtain ⟨-, rfl⟩ := List.cons.inj (List.append_cancel_left hm)
      exact ⟨_, rfl⟩
    · have hafter : later = after.map (i, ·) := by
        rw [hmarks, List.map_append, ← List.append_assoc] at hm
        exact (List.cons.inj (List.append_cancel_left hm)).2.symm
      subst hafter
      -- of all steps only the one that ends an attempt leaves such a mark, and it leaves another
      cases hs with
      | settle =>
        cases before with
        | nil =>
          obtain ⟨hended, rfl⟩ := List.cons.inj hmarks
          cases hended
          exact ⟨[], rfl⟩
        | cons m before => rcases before with _ | ⟨m', before⟩ <;> simp at hmarks
      | _ => simp [List.cons_eq_append_iff] at hmarks
  | change h f threads _ _ _ ih => exact ih hm

theorem Run.holds_of_returned (run : Run plan answering changes (ofCalls around lists) h r) {s : Slot}
    {a : s.Content} (hm : h = past ++ (i, .returned (.ok (s.reply a))) :: later) :
    ∃ a', past.Holds s a' ∧ s.reply a' = s.reply a := by
  rcases run.ok_answered hm with ⟨b, hb⟩ | ⟨d, hd, -⟩ | ⟨s', a', hreply, ha'⟩
  · cases s <;> cases hb
  · cases s <;> cases hd
  · obtain rfl := Slot.eq_of_reply_eq hreply
    exact ⟨a', ha', hreply.symm⟩

/-- The document is there as soon as some call to start the factory has succeeded, and but for the
moment in which such a call returns it is not there before. -/
theorem Run.started_iff (run : Run plan answering changes (ofCalls around lists) h r) {m : Mark I}
    (hm : h = past ++ (i, m) :: later) (hne : m ≠ .returned (.ok .done)) :
    past.Started ↔ ∃ d, past.Holds .document d := by
  constructor
  · rintro ⟨j, hj⟩
    obtain ⟨before, after, rfl⟩ := List.append_of_mem hj
    rw [List.append_assoc] at hm
    obtain ⟨d, hd, -⟩ := run.holds_of_returned (s := .document) (a := {}) hm
    exact ⟨d, hd.append_left _⟩
  · rintro ⟨d, j, hj⟩
    obtain ⟨before, after, rfl⟩ := List.append_of_mem hj
    rw [List.append_assoc, List.cons_append] at hm
    obtain ⟨rest, hrest⟩ := run.returned_of_ended hm
    -- the return that follows the end of the attempt is among the marks so far, unless it comes next
    cases after with
    | nil =>
      cases (List.cons.inj hrest).1
      exact (hne rfl).elim
    | cons m' after =>
      obtain ⟨rfl, -⟩ := List.cons.inj hrest
      exact ⟨j, by simp [Except.map, Slot.reply]⟩

theorem Run.exists_serves (run : Run plan answering changes (ofCalls around lists) h r)
    (hm : h = past ++ (i, .returned outcome) :: later) :
    ∃ before call between, past = before ++ (i, .called call) :: between ∧
      h.Serves before i call between outcome later := by
  have hcalled : ∃ before call marks, past.own i = before ++ .called call :: marks ∧
      ∀ call', .called call' ∉ marks := by
    have ha : past.Answered i outcome := run.justified hm
    cases ha with
    | flag own | document own | noDocument own | repeated own | shared own =>
      exact ⟨_, _, _, own, by simp⟩
    | attempted own =>
      rw [List.append_assoc] at own
      exact ⟨_, _, _, own, by simp⟩
  obtain ⟨before, call, marks, hown, hmarks⟩ := hcalled
  obtain ⟨before, between, rfl, -, rfl⟩ := History.own_split hown
  refine ⟨before, call, between, rfl, ?_, ?_⟩
  · rw [hm, List.append_assoc, List.cons_append]
  · intro call' hcall'
    exact hmarks call' (History.mem_own.mpr hcall')

/-- A call that may fill a cell finds it full in the end, or an attempt of its own has failed. -/
theorem Run.served_slot (run : Run plan answering changes (ofCalls around lists) h r) {s : Slot}
    (hc : h.Serves past i s.call between outcome later) :
    (∃ a, outcome = .ok (s.reply a) ∧
        History.Holds (past ++ (i, .called s.call) :: between) s a) ∨
      ∃ e d xs, outcome = .error e ∧
        between.own i = .claimed s :: .looked s d :: (xs.map .asked ++ [.ended s (.error e)]) ∧
        (∀ d', past.Holds .document d' → d = some d') ∧
        (∀ d', d = some d' → History.Holds (past ++ (i, .called s.call) :: between) .document d') ∧
        (plan.fill s d).Leads xs (.done (.error e)) := by
  have hconduct := run.conduct hc
  -- the call and its marks have to be variables for the ways to be told apart
  generalize hcall : s.call = call at hconduct ⊢
  generalize hmarks : between.own i = marks at hconduct
  cases hconduct with
  | flag | document | noDocument => cases s <;> cases hcall
  | repeated hd =>
    cases s <;> cases hcall
    exact .inl ⟨_, rfl, hd⟩
  | shared ha =>
    obtain rfl := Slot.call_injective hcall
    exact .inl ⟨_, rfl, ha⟩
  | @attempted s' d xs o before after leads =>
    obtain rfl := Slot.call_injective hcall
    cases o with
    | ok a =>
      have hended : (i, .ended s (.ok a)) ∈ between := by
        rw [← History.mem_own, hmarks]
        simp
      exact .inl ⟨a, rfl, i, by simp [hended]⟩
    | error e => exact .inr ⟨e, d, xs, rfl, rfl, before, after, leads⟩

end Race

section Roles

variable {settings : Settings} {answering : Answering Question.interface σ}
  {changes : σ → σ → Prop} {around : σ} {lists : List (List Call)}
  {h past later : History Question.interface} {r : Race Question.interface σ}

theorem Race.Run.document_of_holds
    (run : Run settings.plan answering changes (ofCalls around lists) h r) (hm : h = past ++ later)
    {s : Slot} (hs : s ≠ .document) {a : s.Content} (ha : past.Holds s a) :
    ∃ d, past.Holds .document d ∧ (s.instances a).length = (s.entries d).length := by
  obtain ⟨i, hi⟩ := ha
  obtain ⟨before, after, rfl⟩ := List.append_of_mem hi
  rw [List.append_assoc, List.cons_append] at hm
  obtain ⟨_, _, d, xs, hown, -, hl⟩ := run.justified hm
  obtain ⟨doc, rfl, hlength, -⟩ := settings.fill_leads_ok hs hl
  exact ⟨doc, (run.holds_of_attempt hm hown).append_left _, hlength⟩

end Roles

end Provisioning
