import Provisioning.Proofs.Race.Shadow

/-!
# Races in order

The calls of a race can be put into one order in which they return the same when they are made one at a
time. A call goes to the end of the order when it takes its place: at that time it has been made and has
not returned, so the order agrees with that of each thread and with that of time.
-/

namespace Provisioning

variable {I : Interface} {σ : Type}

/-- One of the calls of a thread, and its outcome. -/
structure Operation where
  thread : Nat
  position : Nat
  call : Call
  outcome : Outcome

def Mark.isCalled : Mark I → Bool
  | called _ => true
  | _ => false

def Mark.isReturned : Mark I → Bool
  | returned _ => true
  | _ => false

namespace History

def made (h : History I) (i : Nat) : Nat :=
  (own h i).countP Mark.isCalled

def done (h : History I) (i : Nat) : Nat :=
  (own h i).countP Mark.isReturned

/-- One call has returned at some time when another has not been made. -/
def Precedes (h : History I) (a b : Operation) : Prop :=
  ∃ past later, h = past ++ later ∧ a.position < done past a.thread ∧ made past b.thread ≤ b.position

theorem made_append (h h' : History I) (i : Nat) : made (h ++ h') i = made h i + made h' i := by
  simp [made]

theorem done_append (h h' : History I) (i : Nat) : done (h ++ h') i = done h i + done h' i := by
  simp [done]

theorem made_map_self (marks : List (Mark I)) (i : Nat) :
    made (marks.map (i, ·)) i = marks.countP Mark.isCalled := by
  rw [made, own_map_self]

theorem done_map_self (marks : List (Mark I)) (i : Nat) :
    done (marks.map (i, ·)) i = marks.countP Mark.isReturned := by
  rw [done, own_map_self]

theorem made_map_of_ne (marks : List (Mark I)) {i j : Nat} (hij : i ≠ j) :
    made (marks.map (i, ·)) j = 0 := by
  rw [made, own_map_of_ne marks hij, List.countP_nil]

theorem done_map_of_ne (marks : List (Mark I)) {i j : Nat} (hij : i ≠ j) :
    done (marks.map (i, ·)) j = 0 := by
  rw [done, own_map_of_ne marks hij, List.countP_nil]

theorem not_precedes_append {h : History I} {a b : Operation} (hb : b.position < h.made b.thread)
    (hp : ¬ h.Precedes a b) (h' : History I) : ¬ Precedes (h ++ h') a b := by
  intro hp
  rcases hp with ⟨past, later, hs, ha, hn⟩
  rcases List.append_eq_append_iff.mp hs with ⟨rest, rfl, rfl⟩ | ⟨rest, rfl, rfl⟩
  · rw [made_append] at hn
    omega
  · exact hp ⟨past, rest, rfl, ha, hn⟩

theorem not_precedes_of_done_le {h : History I} {a b : Operation}
    (ha : h.done a.thread ≤ a.position) : ¬ h.Precedes a b := by
  intro hp
  rcases hp with ⟨past, later, rfl, hlt, -⟩
  rw [done_append] at ha
  omega

end History

theorem Thread.performAll_concat {plan : Plan I} {answering : Answering I σ} {calls : List Call}
    {f f₁ f₂ : Factory σ} {outcomes : List Outcome} {call : Call} {outcome : Outcome}
    (hs : performAll plan answering false calls f = (outcomes, f₁))
    (h : f₁.perform plan answering call = (outcome, f₂)) :
    performAll plan answering false (calls ++ [call]) f = (outcomes ++ [outcome], f₂) := by
  induction calls generalizing f outcomes with
  | nil =>
    cases hs
    simp [performAll, h]
  | cons first calls ih =>
    simp only [performAll, Bool.false_and, Bool.false_eq_true, if_false, Prod.mk.injEq] at hs
    rcases hs with ⟨rfl, rfl⟩
    simp [performAll, ih rfl]

namespace Thread

def made (t : Thread I) : Nat :=
  match t.stage with
  | .idle => t.returned.length
  | _ => t.returned.length + 1

variable {plan : Plan I} {answering : Answering I σ} {f f' : Factory σ} {t t' : Thread I}
  {marks : List (Mark I)}

theorem Step.made (hs : Step plan answering f t marks t' f') :
    t'.made = t.made + marks.countP Mark.isCalled := by
  cases hs <;> simp [Thread.made, Mark.isCalled, List.countP_cons]

theorem Step.returned (hs : Step plan answering f t marks t' f') :
    t'.returned.length = t.returned.length + marks.countP Mark.isReturned := by
  cases hs <;> simp [Mark.isReturned]

theorem Step.rest (hs : Step plan answering f t marks t' f') :
    t'.rest = t.rest.drop (marks.countP Mark.isReturned) := by
  cases hs with
  | @wait call s calls returned h =>
    rw [Call.slot?_eq_some_iff.mp h]
    rfl
  | _ => rfl

theorem settled_length_le (l : Ledger) (t : Thread I) : (t.settled l).length ≤ t.made := by
  rcases t with ⟨stage, calls, returned, cautious⟩
  rcases stage with _ | _ | _ | _ | ⟨s, (e | a) | _⟩
  case filling.done.error =>
    simp only [settled, bound?, Thread.made]
    split <;> simp
  all_goals simp [settled, bound?, Thread.made]

end Thread

namespace Race

/-- The outcomes of the calls of a thread that have taken their places. -/
def settledOf (r : Race I σ) (l : Ledger) (i : Nat) : List Outcome :=
  match r.threads[i]? with
  | some t => t.settled l
  | none => []

theorem settledOf_eq {r : Race I σ} {i : Nat} {t : Thread I} (ht : r.threads[i]? = some t)
    (l : Ledger) : r.settledOf l i = t.settled l := by
  simp [settledOf, ht]

def callAt? (lists : List (List Call)) (i position : Nat) : Option Call :=
  match lists[i]? with
  | some calls => calls[position]?
  | none => none

theorem callAt?_eq_some_iff {lists : List (List Call)} {i position : Nat} {call : Call} :
    callAt? lists i position = some call ↔
      ∃ calls, lists[i]? = some calls ∧ calls[position]? = some call := by
  unfold callAt?
  cases lists[i]? <;> simp

/-- The marks of a thread agree with what it has made and got back, and with the calls that it was
given. -/
structure Books (lists : List (List Call)) (h : History I) (i : Nat) (t : Thread I) : Prop where
  made : h.made i = t.made
  done : h.done i = t.returned.length
  rest : ∃ calls, lists[i]? = some calls ∧ calls.drop t.returned.length = t.rest

variable {plan : Plan I} {works : Works I} {answering : Answering I σ} {changes : σ → σ → Prop}
  {around : σ} {lists : List (List Call)} {h : History I} {r : Race I σ} {streams : Streams}

theorem Run.books (run : Run plan answering changes (ofCalls around lists) h r) {i : Nat}
    {t : Thread I} (ht : r.threads[i]? = some t) : Books lists h i t := by
  induction run using Run.steps generalizing i t with
  | start =>
    obtain ⟨calls, hc, rfl⟩ := thread_of_ofCalls ht
    exact ⟨rfl, rfl, calls, hc, rfl⟩
  | turn h f threads j u marks u' f' run _ ih hj hs =>
    rcases thread_of_set ht with ⟨rfl, rfl⟩ | ⟨hne, hi⟩
    · have old := ih hj
      rcases old.rest with ⟨calls, hc, hr⟩
      refine ⟨?_, ?_, calls, hc, ?_⟩
      · rw [History.made_append, History.made_map_self, old.made, hs.made]
      · rw [History.done_append, History.done_map_self, old.done, hs.returned]
      · rw [hs.rest, hs.returned, ← hr, List.drop_drop]
    · have old := ih hi
      refine ⟨?_, ?_, old.rest⟩
      · rw [History.made_append, History.made_map_of_ne marks hne.symm, old.made, Nat.add_zero]
      · rw [History.done_append, History.done_map_of_ne marks hne.symm, old.done, Nat.add_zero]
  | change h f threads _ _ _ ih => exact ih ht

theorem Books.callAt? {i : Nat} {t : Thread I} (hb : Books lists h i t) :
    Race.callAt? lists i t.returned.length = t.rest.head? := by
  rcases hb.rest with ⟨calls, hc, hr⟩
  rw [← hr, List.head?_drop]
  simp [Race.callAt?, hc]

/-- An order of the calls that have taken their places. -/
structure Ordered (streams : Streams) (lists : List (List Call)) (h : History I) (r : Race I σ)
    (order : List Operation) : Prop where
  played : Thread.performAll Works.supplied.plan streams.answering false
    (order.map Operation.call) ⟨{}, fun _ => 0⟩ =
      (order.map Operation.outcome, h.shadow r.factory.cells)
  mem_iff : ∀ a, a ∈ order ↔ callAt? lists a.thread a.position = some a.call ∧
    (r.settledOf h.ledger a.thread)[a.position]? = some a.outcome
  own : order.Pairwise fun a b => a.thread = b.thread → a.position < b.position
  timely : order.Pairwise fun a b => ¬ h.Precedes b a

variable {order : List Operation}

theorem Ordered.position_lt (ho : Ordered streams lists h r order)
    (run : Run plan answering changes (ofCalls around lists) h r) {a : Operation} (ha : a ∈ order) :
    a.position < (r.settledOf h.ledger a.thread).length ∧ a.position < h.made a.thread := by
  obtain ⟨-, hs⟩ := (ho.mem_iff a).mp ha
  have hlt : a.position < (r.settledOf h.ledger a.thread).length :=
    (List.getElem?_eq_some_iff.mp hs).choose
  refine ⟨hlt, ?_⟩
  cases ht : r.threads[a.thread]? with
  | none => simp [settledOf, ht] at hlt
  | some t =>
    rw [settledOf_eq ht] at hlt
    have hle := t.settled_length_le h.ledger
    rw [(run.books ht).made]
    omega

section Steps

variable {f f' : Factory σ} {threads : List (Thread I)} {i : Nat} {t t' : Thread I}
  {marks : List (Mark I)}

theorem Ordered.timely_append (ho : Ordered streams lists h r order)
    (run : Run plan answering changes (ofCalls around lists) h r) (h' : History I) :
    order.Pairwise fun a b => ¬ History.Precedes (h ++ h') b a := by
  refine ho.timely.imp_of_mem ?_
  intro a b ha _ hn
  exact History.not_precedes_append (ho.position_lt run ha).2 hn h'

/-- A step by which no call takes its place. -/
theorem Ordered.keep (ho : Ordered streams lists h ⟨f, threads⟩ order)
    (run : Run plan answering changes (ofCalls around lists) h ⟨f, threads⟩)
    (hsettled : ∀ j, settledOf ⟨f', threads.set i t'⟩ (History.ledger (h ++ marks.map (i, ·))) j =
      settledOf ⟨f, threads⟩ h.ledger j)
    (hshadow : History.shadow (h ++ marks.map (i, ·)) f'.cells = h.shadow f.cells) :
    Ordered streams lists (h ++ marks.map (i, ·)) ⟨f', threads.set i t'⟩ order := by
  refine ⟨?_, ?_, ho.own, ho.timely_append run _⟩
  · rw [ho.played, hshadow]
  · intro a
    rw [ho.mem_iff, hsettled]

/-- A step by which a call takes its place, after those that have taken theirs. -/
theorem Ordered.concat (ho : Ordered streams lists h ⟨f, threads⟩ order)
    (run : Run plan answering changes (ofCalls around lists) h ⟨f, threads⟩)
    (ht : threads[i]? = some t) {call : Call} {outcome : Outcome} (hcall : t.rest.head? = some call)
    (hbefore : settledOf ⟨f, threads⟩ h.ledger i = t.returned)
    (hafter : settledOf ⟨f', threads.set i t'⟩ (History.ledger (h ++ marks.map (i, ·))) i =
      t.returned ++ [outcome])
    (hothers : ∀ j, j ≠ i →
      settledOf ⟨f', threads.set i t'⟩ (History.ledger (h ++ marks.map (i, ·))) j =
        settledOf ⟨f, threads⟩ h.ledger j)
    (hshadow : (h.shadow f.cells).perform Works.supplied.plan streams.answering call =
      (outcome, History.shadow (h ++ marks.map (i, ·)) f'.cells)) :
    Ordered streams lists (h ++ marks.map (i, ·)) ⟨f', threads.set i t'⟩
      (order ++ [⟨i, t.returned.length, call, outcome⟩]) := by
  have hbooks := run.books ht
  have hat : callAt? lists i t.returned.length = some call := hbooks.callAt?.trans hcall
  refine ⟨?_, ?_, ?_, ?_⟩
  · simp only [List.map_append, List.map_cons, List.map_nil]
    exact Thread.performAll_concat ho.played hshadow
  · intro hp
    rcases hp with ⟨j, k, c, o⟩
    simp only [List.mem_append, List.mem_singleton, Operation.mk.injEq, ho.mem_iff]
    by_cases hj : j = i
    · subst hj
      rw [hbefore, hafter]
      by_cases hk : k = t.returned.length
      · subst hk
        simp [hat, eq_comm]
      · simp only [hk, false_and, and_false, or_false]
        rw [List.getElem?_append]
        split
        · rfl
        · have hlt : 1 ≤ k - t.returned.length := by omega
          simp [List.getElem?_eq_none, *]
    · simp [hothers j hj, hj]
  · rw [List.pairwise_append]
    refine ⟨ho.own, List.pairwise_singleton _ _, ?_⟩
    intro a ha b hb hab
    obtain rfl := List.mem_singleton.mp hb
    obtain rfl : a.thread = i := hab
    have hlt := (ho.position_lt run ha).1
    rwa [hbefore] at hlt
  · rw [List.pairwise_append]
    refine ⟨ho.timely_append run _, List.pairwise_singleton _ _, ?_⟩
    intro a ha b hb
    obtain rfl := List.mem_singleton.mp hb
    -- the new call has not returned yet, so it precedes none of those before it in the order
    apply History.not_precedes_append (ho.position_lt run ha).2
    exact History.not_precedes_of_done_le (Nat.le_of_eq hbooks.done)

end Steps

theorem Run.ordered (run : Run works.plan answering changes (ofCalls around lists) h r)
    (supplied : streams.Supplies h) : ∃ order, Ordered streams lists h r order := by
  induction run using Run.steps with
  | start =>
    refine ⟨[], ⟨rfl, ?_, .nil, .nil⟩⟩
    intro a
    simp only [List.not_mem_nil, false_iff, not_and]
    intro _
    simp only [settledOf, ofCalls, List.getElem?_map]
    cases lists[a.thread]? <;> simp [Thread.settled, Thread.bound?]
  | turn h f threads i t marks t' f' run next ih ht hs =>
    obtain ⟨order, ho⟩ := ih supplied.of_append
    have hi : i < threads.length := (List.getElem?_eq_some_iff.mp ht).choose
    have hself : ∀ l, settledOf ⟨f', threads.set i t'⟩ l i = t'.settled l := by
      intro l
      exact settledOf_eq (by simp [hi]) l
    have hothers : ∀ j, j ≠ i →
        settledOf ⟨f', threads.set i t'⟩ (History.ledger (h ++ marks.map (i, ·))) j =
          settledOf ⟨f, threads⟩ h.ledger j := by
      intro j hj
      simp only [settledOf, List.getElem?_set_ne (Ne.symm hj)]
      cases hu : threads[j]? with
      | none => rfl
      | some u =>
        rw [History.ledger_append_map]
        exact settled_of_ne run.exclusive ht hs hj hu
    have hold := settledOf_eq (r := ⟨f, threads⟩) ht h.ledger
    cases run.placing ht hs supplied with
    | none hkept hshadow =>
      refine ⟨order, ho.keep run ?_ hshadow⟩
      intro j
      by_cases hj : j = i
      · subst hj
        rw [hself, History.ledger_append_map, hkept, hold]
      · exact hothers j hj
    | one hcall hbefore hafter hshadow =>
      refine ⟨_, ho.concat run ht hcall (hold.trans hbefore) ?_ hothers hshadow⟩
      rw [hself, History.ledger_append_map, hafter]
  | change h f threads around' run hc ih =>
    obtain ⟨order, ho⟩ := ih supplied
    exact ⟨order, ⟨ho.played, ho.mem_iff, ho.own, ho.timely⟩⟩

def returnedTo (r : Race I σ) (i : Nat) : List Outcome :=
  match r.threads[i]? with
  | some t => t.returned
  | none => []

def isFinished (r : Race I σ) : Bool :=
  r.threads.all fun t =>
    match t.stage, t.calls with
    | .idle, [] => true
    | _, _ => false

theorem Books.exists_outcome {i : Nat} {t : Thread I} (hb : Books lists h i t)
    (ht : r.threads[i]? = some t) (hrest : t.rest = []) {position : Nat} {call : Call}
    (hc : Race.callAt? lists i position = some call) :
    ∃ outcome, (r.returnedTo i)[position]? = some outcome := by
  obtain ⟨calls, hl, hk⟩ := callAt?_eq_some_iff.mp hc
  rcases hb.rest with ⟨calls', hl', hdrop⟩
  obtain rfl : calls = calls' := Option.some.inj (hl.symm.trans hl')
  have hle := List.drop_eq_nil_iff.mp (hdrop.trans hrest)
  have hlt := (List.getElem?_eq_some_iff.mp hk).choose
  refine ⟨t.returned[position], ?_⟩
  simp only [returnedTo, ht]
  exact List.getElem?_eq_getElem (by omega)

section Finished

variable {i : Nat} {t : Thread I}

theorem finished_iff : r.isFinished = true ↔ ∀ t ∈ r.threads, t.stage = .idle ∧ t.calls = [] := by
  simp only [isFinished, List.all_eq_true]
  refine forall₂_congr fun t _ => ?_
  rcases t with ⟨stage, calls, returned, cautious⟩
  cases stage <;> cases calls <;> simp

theorem idle_of_finished (hf : r.isFinished = true) (ht : r.threads[i]? = some t) :
    t.stage = .idle ∧ t.calls = [] :=
  finished_iff.mp hf t (List.mem_of_getElem? ht)

theorem settledOf_of_finished (hf : r.isFinished = true) (l : Ledger) :
    r.settledOf l i = r.returnedTo i := by
  unfold settledOf returnedTo
  cases ht : r.threads[i]? with
  | none => rfl
  | some t =>
    have hidle := (idle_of_finished hf ht).1
    simp [Thread.settled, Thread.bound?, hidle]

theorem Exclusive.unclaimed_of_finished (hx : r.Exclusive) (hf : r.isFinished = true) :
    r.factory.cells.unclaimed = r.factory.cells := by
  apply Cells.unclaimed_of_forall
  intro s hs
  obtain ⟨i, t, ht, ha⟩ := (hx.claimed s).mp hs
  rw [(idle_of_finished hf ht).1] at ha
  exact ha

theorem Run.exists_outcome (run : Run plan answering changes (ofCalls around lists) h r)
    (hf : r.isFinished = true) {position : Nat} {call : Call}
    (hc : callAt? lists i position = some call) :
    ∃ outcome, (r.returnedTo i)[position]? = some outcome := by
  obtain ⟨calls, hl, -⟩ := callAt?_eq_some_iff.mp hc
  have hi : i < r.threads.length := by
    rw [run.length_threads]
    exact (List.getElem?_eq_some_iff.mp hl).choose
  have ht : r.threads[i]? = some r.threads[i] := List.getElem?_eq_getElem hi
  have hrest : r.threads[i].rest = [] := by
    obtain ⟨hidle, hcalls⟩ := idle_of_finished hf ht
    rw [Thread.rest, hidle]
    exact hcalls
  exact (run.books ht).exists_outcome ht hrest hc

end Finished

/-- The outcomes of a race in which all calls return are those of the same calls made one at a time. -/
theorem linearizable (run : Run works.plan answering changes (ofCalls around lists) h r)
    (finished : r.isFinished = true) :
    (∃ streams : Streams, streams.Supplies h) ∧ ∀ streams : Streams, streams.Supplies h →
      ∃ order : List Operation,
        (∀ a, a ∈ order ↔ callAt? lists a.thread a.position = some a.call ∧
          (r.returnedTo a.thread)[a.position]? = some a.outcome) ∧
        (∀ i position call, callAt? lists i position = some call →
          ∃ outcome, ⟨i, position, call, outcome⟩ ∈ order) ∧
        (order.Pairwise fun a b => a.thread = b.thread → a.position < b.position) ∧
        (order.Pairwise fun a b => ¬ h.Precedes b a) ∧
        ∃ taken, Thread.performAll Works.supplied.plan streams.answering false
          (order.map Operation.call) ⟨{}, fun _ => 0⟩ =
            (order.map Operation.outcome, ⟨r.factory.cells, taken⟩) := by
  refine ⟨Streams.exists_supplies h, ?_⟩
  intro streams supplied
  obtain ⟨order, played, mem, own, timely⟩ := run.ordered supplied
  simp only [settledOf_of_finished finished] at mem
  refine ⟨order, mem, ?_, own, timely, fun s => (h.ledger.drawn s).length, ?_⟩
  · intro i position call hc
    obtain ⟨outcome, ho⟩ := run.exists_outcome finished hc
    exact ⟨outcome, (mem _).mpr ⟨hc, ho⟩⟩
  · rw [played, History.shadow, run.exclusive.unclaimed_of_finished finished]

/-- Turns in which one thread misses the document that the other has as good as loaded, and makes its
hooks when the call has returned. -/
def nearMiss : List Nat := [0, 0, 0, 1, 1, 1, 0, 0, 0, 1, 0, 1, 1, 1, 1, 1]

theorem linearizable_nearMiss :
    let empty := bareDocument fun _ => .ok {}
    let lists := [[Call.start, .isInitialized], [.hookProviders, .hookProviders]]
    let start := ofCalls 0 lists
    let h := record (Settings.works {}).plan empty nearMiss start
    let r := start.play (Settings.works {}).plan empty nearMiss
    Run (Settings.works {}).plan empty (fun _ _ => False) start h r ∧
      r.isFinished = true ∧
      r.threads.map (fun t => t.returned.map Outcome.isFailure) = [[false, false], [true, false]] ∧
      ∃ (streams : Streams) (order : List Operation), streams.Supplies h ∧
        (order.Pairwise fun a b => ¬ h.Precedes b a) ∧
        ∃ taken, Thread.performAll Works.supplied.plan streams.answering false
          (order.map Operation.call) ⟨{}, fun _ => 0⟩ =
            (order.map Operation.outcome, ⟨r.factory.cells, taken⟩) := by
  intro empty lists start h r
  have run : Run (Settings.works {}).plan empty (fun _ _ => False) start h r :=
    Run.start.play nearMiss
  have finished : r.isFinished = true := by decide +kernel
  obtain ⟨⟨streams, supplied⟩, linear⟩ := linearizable run finished
  obtain ⟨order, -, -, -, timely, played⟩ := linear streams supplied
  exact ⟨run, finished, by decide +kernel, streams, order, supplied, timely, played⟩

end Race

end Provisioning
