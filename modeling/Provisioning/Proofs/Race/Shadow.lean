import Provisioning.Proofs.Race.Streams

/-!
# The sequential shadow of a race

At every time of a race there is a factory that nobody is busy with: its cells are those of the race,
with the claims left out, and as many outcomes are taken from its streams as attempts have ended. A step
of the race either leaves this factory alone or does to it what one whole call does, with the same
outcome.

An attempt that fails for want of a document takes its place among the calls when it looks, since the
document may come before it returns. Every other call takes its place when it returns.
-/

namespace Provisioning

variable {I : Interface} {σ : Type}

def Cell.unclaimed {α : Type} : Cell α → Cell α
  | .claimed => .empty
  | c => c

@[simp] theorem Cell.content?_unclaimed {α : Type} (c : Cell α) :
    c.unclaimed.content? = c.content? := by
  cases c <;> rfl

namespace Cells

def unclaimed (c : Cells) : Cells :=
  ⟨c.document.unclaimed, c.persistence.unclaimed, c.hooks.unclaimed⟩

@[simp] theorem get_unclaimed (c : Cells) (s : Slot) : c.unclaimed.get s = (c.get s).unclaimed := by
  cases s <;> rfl

@[simp] theorem document_content?_unclaimed (c : Cells) :
    c.unclaimed.document.content? = c.document.content? := c.document.content?_unclaimed

theorem unclaimed_set_claimed {c : Cells} {s : Slot} (h : c.get s = .empty) :
    (c.set s .claimed).unclaimed = c.unclaimed := by
  rcases c with ⟨d, p, hs⟩
  cases s <;> simp_all [get, set, unclaimed, Cell.unclaimed]

theorem unclaimed_of_forall {c : Cells} (h : ∀ s, c.get s ≠ .claimed) : c.unclaimed = c := by
  rcases c with ⟨d, p, hs⟩
  have hd : d ≠ .claimed := h .document
  have hp : p ≠ .claimed := h .persistence
  have hh : hs ≠ .claimed := h .hooks
  cases d <;> cases p <;> cases hs <;> first | rfl | contradiction

theorem unclaimed_settle (c : Cells) (s : Slot) (outcome : Except FactoryError s.Content) :
    (c.settle s outcome).unclaimed = c.unclaimed.settle s outcome := by
  cases s <;> cases outcome <;> rfl

end Cells

/-- The factory behind a history that leaves its cells in some state. -/
def History.shadow (h : History I) (c : Cells) : Factory (Slot → Nat) :=
  ⟨c.unclaimed, fun s => (h.ledger.drawn s).length⟩

/-! ## Whole calls -/

namespace Factory

variable {streams : Streams} {f : Factory (Slot → Nat)} {s : Slot}

theorem perform_supplied_of_full {a : s.Content} (h : f.cells.get s = .full a) :
    f.perform Works.supplied.plan streams.answering s.call = (.ok (s.reply a), f) := by
  rw [perform_of_full h]
  cases s <;> rfl

/-- A call that finds its cell empty and all it needs takes an outcome from the streams. -/
theorem perform_of_ready (h : f.cells.get s = .empty)
    (hr : s.isReady f.cells.document.content? = true) :
    f.perform Works.supplied.plan streams.answering s.call =
      ((streams s (f.around s)).map s.reply,
        ⟨f.cells.settle s (streams s (f.around s)),
          Function.update f.around s (f.around s + 1)⟩) := by
  rw [perform_of_empty h]
  simp only [fill, Works.supplied_fill_of_ready hr]
  rfl

theorem perform_of_not_ready (h : f.cells.get s = .empty) {e : FactoryError}
    (he : Works.supplied.plan.fill s f.cells.document.content? = .done (.error e)) :
    f.perform Works.supplied.plan streams.answering s.call = (.error e, f) := by
  rw [perform_of_empty h]
  simp only [fill, he, Dialogue.run, Cells.settle_error_of_empty h]
  rfl

end Factory

/-! ## Steps -/

/-- The outcome that a thread is bound to return, once it has missed what it needs. -/
def Thread.bound? (l : Ledger) (t : Thread I) : Option Outcome :=
  match t.stage with
  | .filling s (.done (.error e)) => if l.ready s then none else some (.error e)
  | _ => none

def Thread.settled (l : Ledger) (t : Thread I) : List Outcome :=
  t.returned ++ (t.bound? l).toList

theorem Thread.bound?_of_ready {l : Ledger} {s : Slot} (h : l.ready s = true)
    (work : Dialogue I (Except FactoryError s.Content)) (calls : List Call) (returned : List Outcome) :
    (⟨.filling s work, calls, returned, false⟩ : Thread I).bound? l = none := by
  rcases work with (e | a) | _
  · simp [bound?, h]
  · rfl
  · rfl

theorem Thread.settled_idle (l : Ledger) (calls : List Call) (returned : List Outcome) :
    (⟨.idle, calls, returned, false⟩ : Thread I).settled l = returned := by
  simp [settled, bound?]

def Thread.rest (t : Thread I) : List Call :=
  match t.stage with
  | .idle => t.calls
  | .again _ => .start :: t.calls
  | .waiting s => s.call :: t.calls
  | .claiming s => s.call :: t.calls
  | .filling s _ => s.call :: t.calls

/-- Work in progress has found what it needs, or it has failed already. -/
def Stage.Sound (l : Ledger) (d : Option ProvidersDocument) : Stage I → Prop
  | .filling s work => if l.ready s then s.isReady d = true else ∃ e, work = .done (.error e)
  | _ => True

theorem Stage.Sound.ready_of_ask {l : Ledger} {d : Option ProvidersDocument} {s : Slot}
    {q : I.Question} {next : I.Answer q → Dialogue I (Except FactoryError s.Content)}
    (h : (Stage.filling s (.ask q next)).Sound l d) : l.ready s = true := by
  cases hr : l.ready s with
  | true => rfl
  | false =>
    simp only [Sound, hr] at h
    rcases h with ⟨e, he⟩
    cases he

namespace Race

variable {works : Works I} {answering : Answering I σ} {changes : σ → σ → Prop} {around : σ}
  {lists : List (List Call)} {h : History I} {r : Race I σ} {f f' : Factory σ}
  {threads : List (Thread I)} {i : Nat} {t t' : Thread I} {marks : List (Mark I)}

theorem Exclusive.claimed_of_attempts (hx : Exclusive (⟨f, threads⟩ : Race I σ))
    (ht : threads[i]? = some t) {s : Slot} (ha : t.stage.Attempts s) : f.cells.get s = .claimed :=
  (hx.claimed s).mpr ⟨i, (attempting_iff_of_getElem? ht s).mpr ha⟩

theorem Exclusive.ready_of_ne (hx : Exclusive (⟨f, threads⟩ : Race I σ))
    (ht : threads[i]? = some t) (hs : Thread.Step works.plan answering f t marks t' f') {j : Nat}
    {u : Thread I} (hj : j ≠ i) (hu : threads[j]? = some u) {s : Slot} (ha : u.stage.Attempts s) :
    (marks.foldl Ledger.note h.ledger).ready s = h.ledger.ready s ∧
      (s.isReady f.cells.document.content? = true → s.isReady f'.cells.document.content? = true) := by
  have hne : ∀ s', t.stage.Attempts s' → s ≠ s' := by
    rintro s' ha' rfl
    exact hj (hx.alone s j i ((attempting_iff_of_getElem? hu s).mpr ha)
      ((attempting_iff_of_getElem? ht s).mpr ha'))
  cases hs with
  | glance | wait | repeated | remark | confirm | share | ask => exact ⟨rfl, id⟩
  | @claim s' _ _ he =>
    refine ⟨rfl, fun hr => ?_⟩
    cases s' with
    | document =>
      have hd : f.cells.document = .empty := he
      simpa [Cells.set, hd, Cell.content?] using hr
    | persistence | hooks => exact hr
  | @look s' => exact ⟨by simp [Ledger.note, Function.update_of_ne (hne s' rfl)], id⟩
  | @settle s' outcome =>
    refine ⟨?_, fun hr => ?_⟩
    · simp only [List.foldl_cons, List.foldl_nil, Ledger.note]
      split <;> rfl
    · cases s' with
      | document =>
        have hd : f.cells.document = .claimed := hx.claimed_of_attempts ht rfl
        cases s with
        | document => exact (hne .document rfl rfl).elim
        | persistence | hooks => simp [hd, Cell.content?, Slot.isReady] at hr
      | persistence | hooks => cases outcome <;> exact hr

theorem step_sound (hs : Thread.Step works.plan answering f t marks t' f')
    (ht : t.stage.Sound h.ledger f.cells.document.content?) :
    t'.stage.Sound (marks.foldl Ledger.note h.ledger) f'.cells.document.content? := by
  cases hs with
  | glance | wait | repeated | remark | confirm | share | claim | settle => trivial
  | @look s =>
    simp only [Stage.Sound, List.foldl_cons, List.foldl_nil, Ledger.note, Function.update_self]
    cases hr : s.isReady f.cells.document.content? with
    | true => rfl
    | false =>
      obtain ⟨e, he⟩ := Works.fill_of_not_ready hr
      exact ⟨e, he works⟩
  | @ask s =>
    simp only [Stage.Sound, List.foldl_cons, List.foldl_nil, Ledger.note] at ht ⊢
    split at ht
    next hr => simpa [hr] using ht
    next =>
      rcases ht with ⟨e, he⟩
      cases he

theorem Run.sound (run : Run works.plan answering changes (ofCalls around lists) h r)
    (ht : r.threads[i]? = some t) :
    t.stage.Sound h.ledger r.factory.cells.document.content? := by
  induction run using Run.steps generalizing i t with
  | start =>
    obtain ⟨calls, -, rfl⟩ := thread_of_ofCalls ht
    trivial
  | turn h f threads j u marks u' f' run _ ih hj hs =>
    rw [History.ledger_append_map]
    rcases thread_of_set ht with ⟨rfl, rfl⟩ | ⟨hne, hi⟩
    · exact step_sound hs (ih hj)
    · have hold := ih hi
      rcases t with ⟨stage, calls, returned, cautious⟩
      cases stage with
      | idle | again | waiting | claiming => trivial
      | filling s work =>
        obtain ⟨hready, hmono⟩ := run.exclusive.ready_of_ne (h := h) hj hs hne hi (s := s) rfl
        simp only [Stage.Sound] at hold ⊢
        rw [hready]
        split
        next hr => exact hmono (by simpa [hr] using hold)
        next hr => simpa [hr] using hold
  | change h f threads _ _ _ ih => exact ih ht

theorem settled_of_ne (hx : Exclusive (⟨f, threads⟩ : Race I σ)) (ht : threads[i]? = some t)
    (hs : Thread.Step works.plan answering f t marks t' f') {j : Nat} {u : Thread I} (hj : j ≠ i)
    (hu : threads[j]? = some u) :
    u.settled (marks.foldl Ledger.note h.ledger) = u.settled h.ledger := by
  rcases u with ⟨stage, calls, returned, cautious⟩
  cases stage with
  | idle | again | waiting | claiming => rfl
  | filling s work =>
    obtain ⟨hready, -⟩ := hx.ready_of_ne (h := h) ht hs hj hu (s := s) rfl
    rcases work with (e | a) | _
    · simp only [Thread.settled, Thread.bound?, hready]
    · rfl
    · rfl

/-- What a step does to the order of the calls: nothing, or one call takes its place. -/
inductive Placing (streams : Streams) (l l' : Ledger) (t t' : Thread I)
    (f f' : Factory (Slot → Nat)) : Prop where
  | none (settled : t'.settled l' = t.settled l) (same : f' = f)
  | one {call : Call} {outcome : Outcome} (next : t.rest.head? = some call)
      (before : t.settled l = t.returned) (after : t'.settled l' = t.returned ++ [outcome])
      (performed : f.perform Works.supplied.plan streams.answering call = (outcome, f'))

section Placing

variable {streams : Streams} {calls : List Call} {returned : List Outcome} {s : Slot}

theorem placing_look (hx : Exclusive (⟨f, threads⟩ : Race I σ))
    (ht : threads[i]? = some ⟨.claiming s, calls, returned, false⟩) :
    Placing streams h.ledger (h.ledger.note (.looked s f.cells.document.content? : Mark I))
      ⟨.claiming s, calls, returned, false⟩
      ⟨.filling s (works.plan.fill s f.cells.document.content?), calls, returned, false⟩
      (h.shadow f.cells) (h.shadow f.cells) := by
  cases hr : s.isReady f.cells.document.content? with
  | true =>
    refine .none ?_ rfl
    rw [Thread.settled, Thread.bound?_of_ready (by simp [Ledger.note, hr])]
    rfl
  | false =>
    obtain ⟨e, he⟩ := Works.fill_of_not_ready hr
    have hc : f.cells.get s = .claimed := hx.claimed_of_attempts ht rfl
    have hafter : Thread.settled (h.ledger.note (.looked s f.cells.document.content? : Mark I))
        ⟨.filling s (works.plan.fill s f.cells.document.content?), calls, returned, false⟩ =
          returned ++ [.error e] := by
      simp [Thread.settled, Thread.bound?, Ledger.note, he, hr]
    refine .one rfl (by simp [Thread.settled, Thread.bound?]) hafter ?_
    refine Factory.perform_of_not_ready (by simp [History.shadow, hc, Cell.unclaimed]) ?_
    simpa [History.shadow] using he Works.supplied

theorem placing_settle (hx : Exclusive (⟨f, threads⟩ : Race I σ))
    {outcome : Except FactoryError s.Content}
    (ht : threads[i]? = some ⟨.filling s (.done outcome), calls, returned, false⟩)
    (hsound : (Stage.filling s (.done outcome) : Stage I).Sound h.ledger f.cells.document.content?)
    (supplied : streams.Supplies
      (h ++ [Mark.ended s outcome, .returned (outcome.map s.reply)].map (i, ·))) :
    Placing streams h.ledger (h.ledger.note (.ended s outcome : Mark I))
      ⟨.filling s (.done outcome), calls, returned, false⟩
      (⟨.idle, calls, returned ++ [outcome.map s.reply], false⟩ : Thread I) (h.shadow f.cells)
      ⟨(f.cells.settle s outcome).unclaimed,
        fun s' => ((h.ledger.note (.ended s outcome : Mark I)).drawn s').length⟩ := by
  have hc : f.cells.get s = .claimed := hx.claimed_of_attempts ht rfl
  have hempty : f.cells.unclaimed.get s = .empty := by simp [hc, Cell.unclaimed]
  cases hr : h.ledger.ready s with
  | true =>
    have hready : s.isReady f.cells.unclaimed.document.content? = true := by
      simpa [Stage.Sound, hr] using hsound
    have hitem : streams s (h.ledger.drawn s).length = outcome := by
      apply supplied s
      rw [History.ledger_append_map]
      simp [Ledger.note, hr]
    have hbefore : Thread.settled h.ledger
        (⟨.filling s (.done outcome), calls, returned, false⟩ : Thread I) = returned := by
      rw [Thread.settled, Thread.bound?_of_ready hr]
      exact List.append_nil _
    refine .one rfl hbefore (Thread.settled_idle _ _ _) ?_
    rw [History.shadow, Factory.perform_of_ready hempty hready]
    simp only [hitem, Cells.unclaimed_settle, Ledger.note, hr, if_true]
    congr 2
    funext s'
    by_cases hs' : s' = s
    · subst hs'
      simp
    · simp [Function.update_of_ne hs']
  -- the call has taken its place when the attempt missed what it needs
  | false =>
    have hdone : ∃ e, (Dialogue.done outcome : Dialogue I _) = .done (.error e) := by
      simpa [Stage.Sound, hr] using hsound
    rcases hdone with ⟨e, he⟩
    cases he
    refine .none ?_ ?_
    · simp [Thread.settled, Thread.bound?, hr, Except.map]
    · simp [History.shadow, Cells.unclaimed_settle, Cells.settle_error_of_empty hempty, Ledger.note, hr]

end Placing

/-- A step leaves the shadow as it is and no call takes its place, or one call does and the shadow
goes through that call. -/
theorem Run.placing (run : Run works.plan answering changes (ofCalls around lists) h ⟨f, threads⟩)
    (ht : threads[i]? = some t) (hs : Thread.Step works.plan answering f t marks t' f')
    {streams : Streams} (supplied : streams.Supplies (h ++ marks.map (i, ·))) :
    Placing streams h.ledger (marks.foldl Ledger.note h.ledger) t t' (h.shadow f.cells)
      (History.shadow (h ++ marks.map (i, ·)) f'.cells) := by
  have hx := run.exclusive
  have hsound := run.sound ht
  unfold History.shadow
  rw [History.ledger_append_map]
  cases hs with
  | @glance call outcome calls returned hg =>
    refine .one rfl (Thread.settled_idle _ _ _) (Thread.settled_idle _ _ _) ?_
    apply Factory.perform_of_glance
    rw [← hg]
    cases call <;> simp [Factory.glance?, Factory.isInitialized, Factory.document]
  | wait | repeated | remark => exact .none rfl rfl
  | confirm =>
    obtain ⟨d, hd⟩ := run.full_of_again ht rfl
    have hfull : f.cells.get .document = .full d := (run.full_iff_holds .document d).mpr hd
    refine .one rfl (by simp [Thread.settled, Thread.bound?]) (Thread.settled_idle _ _ _) ?_
    exact Factory.perform_supplied_of_full (s := .document) (a := d) (by simp [hfull, Cell.unclaimed])
  | @share s a _ _ ha =>
    refine .one rfl (by simp [Thread.settled, Thread.bound?]) (Thread.settled_idle _ _ _) ?_
    exact Factory.perform_supplied_of_full (by simp [ha, Cell.unclaimed])
  | @claim s _ _ he =>
    refine .none rfl ?_
    simp [Cells.unclaimed_set_claimed he, Ledger.note]
  | look => exact placing_look hx ht
  | @ask s =>
    have hr : h.ledger.ready s = true := hsound.ready_of_ask
    refine .none ?_ rfl
    change _ ++ (Thread.bound? h.ledger _).toList = _
    rw [Thread.settled, Thread.bound?_of_ready hr, Thread.bound?_of_ready hr]
  | settle => exact placing_settle hx ht hsound supplied

end Race

end Provisioning
