import Provisioning.Proofs.Race.Linearization

/-!
# Races on streams

A race whose threads take all outcomes from streams is supplied by these streams. As many items of each
are taken as attempts have ended that had what they needed, and one more while a thread has it in hand.
So when such a race is over, it leaves the factory just as the same calls do that are made one at a time,
in the order of the race.
-/

namespace Provisioning

theorem Works.supplied_ask {s : Slot} {d : Option ProvidersDocument}
    {xs : List (Exchange Slot.interface)} {w : Dialogue Slot.interface (Except FactoryError s.Content)}
    (hl : (Works.supplied.plan.fill s d).Leads xs w) (hw : ∀ outcome, w ≠ .done outcome) :
    w = .ask s .done := by
  cases hr : s.isReady d with
  | true =>
    rw [Works.supplied_fill_of_ready hr] at hl
    rcases Dialogue.leads_ask_iff.mp hl with ⟨-, h⟩ | ⟨a, ys, -, h⟩
    · exact h
    · exact (hw _ (Dialogue.leads_done_iff.mp h).2).elim
  | false =>
    obtain ⟨e, he⟩ := Works.fill_of_not_ready hr
    rw [he] at hl
    exact (hw _ (Dialogue.leads_done_iff.mp hl).2).elim

namespace Race

/-- A thread has an item from a stream in hand, with which its attempt is going to end. -/
def Holding (l : Ledger) (r : Race Slot.interface (Slot → Nat)) (s : Slot)
    (outcome : Except FactoryError s.Content) : Prop :=
  ∃ (i : Nat) (t : Thread _), r.threads[i]? = some t ∧ t.stage = .filling s (.done outcome) ∧
    l.ready s = true

/-- The items taken from a stream are the outcomes of attempts that have ended, and the one in hand. -/
structure Drawn (streams : Streams) (l : Ledger) (r : Race Slot.interface (Slot → Nat)) (s : Slot) :
    Prop where
  ended : ∀ k outcome, (l.drawn s)[k]? = some outcome → streams s k = outcome
  free : (∀ outcome, ¬ Holding l r s outcome) → r.factory.around s = (l.drawn s).length
  held : ∀ outcome, Holding l r s outcome →
    r.factory.around s = (l.drawn s).length + 1 ∧ streams s (l.drawn s).length = outcome

variable {streams : Streams} {l l' : Ledger} {r r' : Race Slot.interface (Slot → Nat)} {s : Slot}

theorem Drawn.congr (hd : Drawn streams l r s) (ha : r'.factory.around s = r.factory.around s)
    (hl : l'.drawn s = l.drawn s)
    (hh : ∀ outcome, Holding l' r' s outcome ↔ Holding l r s outcome) : Drawn streams l' r' s := by
  constructor
  · rw [hl]
    exact hd.ended
  · intro hn
    rw [ha, hl]
    exact hd.free fun outcome ho => hn outcome ((hh outcome).mpr ho)
  · intro outcome ho
    rw [ha, hl]
    exact hd.held outcome ((hh outcome).mp ho)

theorem filling_ne {s s' : Slot} (hs : s ≠ s')
    (work : Dialogue Slot.interface (Except FactoryError s.Content))
    (work' : Dialogue Slot.interface (Except FactoryError s'.Content)) :
    Stage.filling s' work' ≠ .filling s work := by
  intro h
  injection h with hs'
  exact hs hs'.symm

section Holding

variable {f f' : Factory (Slot → Nat)} {threads : List (Thread Slot.interface)} {i : Nat}
  {t t' : Thread Slot.interface} {outcome : Except FactoryError s.Content}

theorem holding_set_iff (ht : threads[i]? = some t) (hn : t.stage ≠ .filling s (.done outcome))
    (hn' : t'.stage ≠ .filling s (.done outcome)) (hr : l'.ready s = l.ready s) :
    Holding l' ⟨f', threads.set i t'⟩ s outcome ↔ Holding l ⟨f, threads⟩ s outcome := by
  unfold Holding
  rw [hr]
  constructor
  · intro h
    rcases h with ⟨j, u, hu, hst, hready⟩
    rcases thread_of_set hu with ⟨-, rfl⟩ | ⟨-, hu⟩
    · exact (hn' hst).elim
    · exact ⟨j, u, hu, hst, hready⟩
  · intro h
    rcases h with ⟨j, u, hu, hst, hready⟩
    have hj : j ≠ i := by
      intro hj
      rw [hj, ht] at hu
      cases hu
      exact hn hst
    exact ⟨j, u, by rwa [List.getElem?_set_ne (Ne.symm hj)], hst, hready⟩

theorem Exclusive.holding_iff (hx : r.Exclusive) (ht : r.threads[i]? = some t)
    (ha : t.stage.Attempts s) :
    Holding l r s outcome ↔ t.stage = .filling s (.done outcome) ∧ l.ready s = true := by
  constructor
  · intro h
    rcases h with ⟨j, u, hu, hst, hready⟩
    have hj : j = i := hx.alone s j i ⟨u, hu, by rw [hst]; rfl⟩ ⟨t, ht, ha⟩
    rw [hj, ht] at hu
    cases hu
    exact ⟨hst, hready⟩
  · intro h
    exact ⟨i, t, ht, h.1, h.2⟩

theorem Exclusive.not_holding (hx : r.Exclusive) (hc : r.factory.cells.get s ≠ .claimed) :
    ¬ Holding l r s outcome := by
  intro h
  rcases h with ⟨i, t, ht, hst, -⟩
  exact hc ((hx.claimed s).mpr ⟨i, t, ht, by rw [hst]; rfl⟩)

end Holding

section Steps

variable {f : Factory (Slot → Nat)} {threads : List (Thread Slot.interface)} {i : Nat}
  {calls : List Call} {returned : List Outcome} {s' : Slot}

theorem Drawn.look (hd : Drawn streams l ⟨f, threads⟩ s) (hx : Exclusive ⟨f, threads⟩)
    (ht : threads[i]? = some ⟨.claiming s', calls, returned, false⟩) {d : Option ProvidersDocument}
    {t' : Thread Slot.interface} (hst : t'.stage = .filling s' (Works.supplied.plan.fill s' d))
    (ht' : (threads.set i t')[i]? = some t') (hx' : Exclusive ⟨f, threads.set i t'⟩) :
    Drawn streams (l.note (.looked s' d : Mark Slot.interface)) ⟨f, threads.set i t'⟩ s := by
  by_cases hs : s = s'
  · subst hs
    refine hd.congr rfl rfl fun outcome => ?_
    rw [hx.holding_iff ht rfl, hx'.holding_iff ht' (by rw [hst]; rfl), hst]
    constructor
    · intro h
      have hr : s.isReady d = true := by simpa [Ledger.note] using h.2
      rw [Works.supplied_fill_of_ready hr] at h
      cases h.1
    · intro h
      cases h.1
  · refine hd.congr rfl rfl fun outcome => holding_set_iff ht (by simp) ?_ ?_
    · rw [hst]
      exact filling_ne hs _ _
    · simp [Ledger.note, Function.update_of_ne hs]

theorem Drawn.ask (hd : Drawn streams l ⟨f, threads⟩ s) (hx : Exclusive ⟨f, threads⟩)
    (ht : threads[i]? = some ⟨.filling s' (.ask s' .done), calls, returned, false⟩)
    (hr : l.ready s' = true) {t' : Thread Slot.interface}
    (hst : t'.stage = .filling s' (.done (streams s' (f.around s'))))
    (ht' : (threads.set i t')[i]? = some t')
    (hx' : Exclusive ⟨⟨f.cells, Function.update f.around s' (f.around s' + 1)⟩, threads.set i t'⟩) :
    Drawn streams l
      ⟨⟨f.cells, Function.update f.around s' (f.around s' + 1)⟩, threads.set i t'⟩ s := by
  by_cases hs : s = s'
  · subst hs
    have hfree : f.around s = (l.drawn s).length := by
      apply hd.free
      intro outcome ho
      cases ((hx.holding_iff ht rfl).mp ho).1
    have hin : ∀ outcome, Holding l _ s outcome ↔ t'.stage = .filling s (.done outcome) ∧ _ :=
      fun outcome => hx'.holding_iff ht' (by rw [hst]; rfl)
    constructor
    · exact hd.ended
    · intro hn
      exact (hn _ ((hin _).mpr ⟨hst, hr⟩)).elim
    · intro outcome ho
      have hsame := hst.symm.trans ((hin outcome).mp ho).1
      cases hsame
      simp [hfree]
  · refine hd.congr (Function.update_of_ne hs _ _) rfl fun outcome =>
      holding_set_iff ht (filling_ne hs _ _) ?_ rfl
    rw [hst]
    exact filling_ne hs _ _

theorem Drawn.settle (hd : Drawn streams l ⟨f, threads⟩ s) (hx : Exclusive ⟨f, threads⟩)
    {outcome : Except FactoryError s'.Content}
    (ht : threads[i]? = some ⟨.filling s' (.done outcome), calls, returned, false⟩)
    {t' : Thread Slot.interface} (hst : t'.stage = .idle)
    (hx' : Exclusive ⟨⟨f.cells.settle s' outcome, f.around⟩, threads.set i t'⟩) :
    Drawn streams (l.note (.ended s' outcome : Mark Slot.interface))
      ⟨⟨f.cells.settle s' outcome, f.around⟩, threads.set i t'⟩ s := by
  by_cases hs : s = s'
  · subst hs
    have hopen : (f.cells.settle s outcome).get s ≠ .claimed := by
      cases outcome <;> simp
    have hnone : ∀ l o, ¬ Holding l ⟨⟨f.cells.settle s outcome, f.around⟩, threads.set i t'⟩ s o :=
      fun l o => hx'.not_holding hopen
    cases hr : l.ready s with
    | true =>
      have hheld := hd.held outcome ((hx.holding_iff ht rfl).mpr ⟨rfl, hr⟩)
      have hdrawn : (l.note (.ended s outcome : Mark Slot.interface)).drawn s =
          l.drawn s ++ [outcome] := by
        simp [Ledger.note, hr]
      constructor
      · intro k o hk
        rw [hdrawn] at hk
        by_cases hlt : k < (l.drawn s).length
        · rw [List.getElem?_append_left hlt] at hk
          exact hd.ended k o hk
        · have hbound := (List.getElem?_eq_some_iff.mp hk).choose
          simp only [List.length_append, List.length_singleton] at hbound
          obtain rfl : k = (l.drawn s).length := by omega
          rw [List.getElem?_concat_length] at hk
          cases hk
          exact hheld.2
      · intro _
        rw [hdrawn, List.length_append]
        exact hheld.1
      · intro o ho
        exact (hnone _ o ho).elim
    -- an attempt that has missed what it needs takes nothing, and its end is not in the ledger
    | false =>
      have hnote : l.note (.ended s outcome : Mark Slot.interface) = l := by
        simp [Ledger.note, hr]
      rw [hnote]
      refine hd.congr rfl rfl fun o => ?_
      rw [hx.holding_iff ht rfl]
      simp [hnone l o, hr]
  · refine hd.congr rfl ?_ fun o => holding_set_iff ht (filling_ne hs _ _) (by simp [hst]) ?_
    · simp only [Ledger.note]
      split <;> simp [Function.update_of_ne hs]
    · simp only [Ledger.note]
      split <;> rfl

end Steps

variable {lists : List (List Call)} {h : History Slot.interface}

theorem Run.drawn
    (run : Run Works.supplied.plan streams.answering Eq (ofCalls (fun _ => 0) lists) h r) (s : Slot) :
    Drawn streams h.ledger r s := by
  induction run using Run.steps with
  | start =>
    constructor
    · intro k outcome hk
      simp [History.ledger] at hk
    · intro _
      rfl
    · intro outcome ho
      rcases ho with ⟨i, t, ht, hst, -⟩
      obtain ⟨calls, -, rfl⟩ := thread_of_ofCalls ht
      cases hst
  | turn h f threads i t marks t' f' run next ih ht hs =>
    have hx := run.exclusive
    have hx' := next.exclusive
    have hi : i < threads.length := (List.getElem?_eq_some_iff.mp ht).choose
    have ht' : (threads.set i t')[i]? = some t' := List.getElem?_set_self hi
    have hsound := run.sound ht
    have hfol := run.follows ht
    rw [History.ledger_append_map]
    cases hs with
    | glance | wait | repeated | confirm | share | claim =>
      exact ih.congr rfl rfl fun _ => holding_set_iff ht (by simp) (by simp) rfl
    -- the plan has no work for a document that is asked for again, so nobody is in the middle of it
    | remark =>
      rcases hfol with ⟨before, xs, -, hl⟩
      cases (Dialogue.leads_done_iff.mp hl).2
    | look => exact ih.look hx ht rfl ht' hx'
    | @ask s' q next' =>
      rcases hfol with ⟨before, call, d, xs, -, -, hl⟩
      cases Works.supplied_ask hl (by simp)
      exact ih.ask hx ht hsound.ready_of_ask rfl ht' hx'
    | settle => exact ih.settle hx ht rfl hx'
  | change h f threads around' run hc ih =>
    subst hc
    exact ih

theorem Run.supplies
    (run : Run Works.supplied.plan streams.answering Eq (ofCalls (fun _ => 0) lists) h r) :
    streams.Supplies h := by
  intro s
  exact (run.drawn s).ended

theorem not_holding_of_finished (hf : r.isFinished = true) {outcome : Except FactoryError s.Content} :
    ¬ Holding l r s outcome := by
  intro h
  rcases h with ⟨i, t, ht, hst, -⟩
  cases hst.symm.trans (idle_of_finished hf ht).1

/-- A race on streams comes to what its calls come to on the same streams, one at a time. -/
theorem Run.serial
    (run : Run Works.supplied.plan streams.answering Eq (ofCalls (fun _ => 0) lists) h r)
    (hf : r.isFinished = true) :
    ∃ order : List Operation,
      (∀ a, a ∈ order ↔ callAt? lists a.thread a.position = some a.call ∧
        (r.returnedTo a.thread)[a.position]? = some a.outcome) ∧
      (order.Pairwise fun a b => a.thread = b.thread → a.position < b.position) ∧
      (order.Pairwise fun a b => ¬ h.Precedes b a) ∧
      Thread.performAll Works.supplied.plan streams.answering false (order.map Operation.call)
        ⟨{}, fun _ => 0⟩ = (order.map Operation.outcome, r.factory) := by
  obtain ⟨order, played, mem, own, timely⟩ := run.ordered run.supplies
  simp only [settledOf_of_finished hf] at mem
  have htaken : r.factory.around = fun s => (h.ledger.drawn s).length := by
    funext s
    exact (run.drawn s).free fun _ => not_holding_of_finished hf
  refine ⟨order, mem, own, timely, ?_⟩
  rw [played, History.shadow, run.exclusive.unclaimed_of_finished hf, ← htaken]

end Race

end Provisioning
