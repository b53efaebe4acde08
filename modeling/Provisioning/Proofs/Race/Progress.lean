import Mathlib.Data.List.Perm.Basic
import Mathlib.Logic.Hydra
import Provisioning.Proofs.Race.ComputeOnce
import Provisioning.Proofs.Race.Linearization

/-!
# No deadlock

Whoever fills a cell enters no other cell and waits for none: of the document it only takes what is
there. A thread can therefore wait only for one that goes on. Each call ends after finitely many steps,
whatever is answered, and so all calls can be brought to return.
-/

namespace Provisioning

variable {I : Interface} {σ : Type}

/-- The cells that a thread is filling after it has left a mark. -/
def Mark.track (running : List Slot) : Mark I → List Slot
  | claimed s => s :: running
  | ended s _ => running.erase s
  | _ => running

/-- The cells that a thread has begun to fill and has not ended with, the latest first. -/
def History.running (h : History I) (i : Nat) : List Slot :=
  (h.own i).foldl Mark.track []

def Stage.running : Stage I → List Slot
  | .claiming s => [s]
  | .filling s _ => [s]
  | _ => []

namespace Stage

theorem mem_running_iff {stage : Stage I} {s : Slot} : s ∈ stage.running ↔ stage.Attempts s := by
  cases stage <;> simp [running, Attempts, eq_comm]

theorem length_running_le (stage : Stage I) : stage.running.length ≤ 1 := by
  cases stage <;> simp [running]

end Stage

namespace History

theorem running_append_map_self (h : History I) (marks : List (Mark I)) (i : Nat) :
    running (h ++ marks.map (i, ·)) i = marks.foldl Mark.track (h.running i) := by
  simp [running]

theorem running_append_map_of_ne (h : History I) (marks : List (Mark I)) {i j : Nat} (hij : i ≠ j) :
    running (h ++ marks.map (i, ·)) j = h.running j := by
  simp [running, own_map_of_ne marks hij]

end History

namespace Thread

variable {plan : Plan I} {answering : Answering I σ} {f f' : Factory σ} {t t' : Thread I}
  {marks : List (Mark I)}

/-- A thread claims a cell only if it fills none, and gives up only the one that it fills. -/
theorem Step.running (hs : Step plan answering f t marks t' f') :
    marks.foldl Mark.track t.stage.running = t'.stage.running := by
  cases hs with
  | settle => exact List.erase_cons_head ..
  | _ => rfl

theorem step?_eq_none_iff : t.step? plan answering f = none ↔
    (t.stage = .idle ∧ t.calls = []) ∨
      ∃ s, t.stage = .waiting s ∧ f.cells.get s = .claimed := by
  rcases t with ⟨stage, calls, returned, cautious⟩
  cases stage with
  | idle => cases calls <;> simp [step?]
  | again work => cases work <;> simp [step?]
  | waiting s => cases hc : f.cells.get s <;> simp [step?, hc]
  | claiming s => simp [step?]
  | filling s work => cases work <;> simp [step?]

/-- One state of a thread comes after another by a step, in some state of the factory. -/
def Succeeds (plan : Plan I) (answering : Answering I σ) (t' t : Thread I) : Prop :=
  ∃ f f', t.step? plan answering f = some (t', f')

theorem acc_work {α : Type} {stage : Dialogue I α → Stage I}
    (hdone : ∀ a, Acc (Succeeds plan answering) (t.enter (stage (.done a))))
    (hask : ∀ q next f t' f',
      (t.enter (stage (.ask q next))).step? plan answering f = some (t', f') →
        ∃ answer, t' = t.enter (stage (next answer)))
    (work : Dialogue I α) : Acc (Succeeds plan answering) (t.enter (stage work)) := by
  induction work with
  | done a => exact hdone a
  | ask q next ih =>
    refine ⟨_, fun t' hp => ?_⟩
    rcases hp with ⟨f, f', hstep⟩
    obtain ⟨answer, rfl⟩ := hask q next f t' f' hstep
    exact ih answer

section Ending

-- once its call has returned, the thread ends
variable (ht : ∀ outcome, Acc (Succeeds plan answering) (t.finish outcome))
include ht

theorem acc_again (work : Dialogue I Unit) :
    Acc (Succeeds plan answering) (t.enter (.again work)) := by
  refine acc_work (fun u => ⟨_, fun t' hp => ?_⟩) (fun q next f t' f' hstep => ?_) work
  · rcases hp with ⟨f, f', hstep⟩
    cases hstep
    exact ht (.ok .done)
  · cases hstep
    exact ⟨_, rfl⟩

theorem acc_filling (s : Slot) (work : Dialogue I (Except FactoryError s.Content)) :
    Acc (Succeeds plan answering) (t.enter (.filling s work)) := by
  refine acc_work (fun outcome => ⟨_, fun t' hp => ?_⟩) (fun q next f t' f' hstep => ?_) work
  · rcases hp with ⟨f, f', hstep⟩
    cases hstep
    exact ht (outcome.map s.reply)
  · cases hstep
    exact ⟨_, rfl⟩

theorem acc_claiming (s : Slot) : Acc (Succeeds plan answering) (t.enter (.claiming s)) := by
  refine ⟨_, fun t' hp => ?_⟩
  rcases hp with ⟨f, f', hstep⟩
  cases hstep
  exact acc_filling ht s (plan.fill s f.cells.document.content?)

theorem acc_waiting (s : Slot) : Acc (Succeeds plan answering) (t.enter (.waiting s)) := by
  refine ⟨_, fun t' hp => ?_⟩
  rcases hp with ⟨f, f', hstep⟩
  cases hc : f.cells.get s with
  | claimed => simp [enter, step?, hc] at hstep
  | full a =>
    simp only [enter, step?, hc, Option.some.injEq, Prod.mk.injEq] at hstep
    rcases hstep with ⟨rfl, -⟩
    exact ht (.ok (s.reply a))
  | empty =>
    simp only [enter, step?, hc, Option.some.injEq, Prod.mk.injEq] at hstep
    rcases hstep with ⟨rfl, -⟩
    exact acc_claiming ht s

theorem acc_enter {stage : Stage I} (hs : stage ≠ .idle) :
    Acc (Succeeds plan answering) (t.enter stage) := by
  cases stage with
  | idle => exact (hs rfl).elim
  | again work => exact acc_again ht work
  | waiting s => exact acc_waiting ht s
  | claiming s => exact acc_claiming ht s
  | filling s work => exact acc_filling ht s work

end Ending

theorem acc_idle (n : Nat) : ∀ t : Thread I, t.stage = .idle → t.calls.length ≤ n →
    Acc (Succeeds plan answering) t := by
  induction n with
  | zero =>
    intro t hidle hn
    refine ⟨_, fun t' hp => ?_⟩
    rcases hp with ⟨f, f', hstep⟩
    have hnone : t.step? plan answering f = none :=
      step?_eq_none_iff.mpr (.inl ⟨hidle, List.length_eq_zero_iff.mp (by omega)⟩)
    rw [hnone] at hstep
    cases hstep
  | succ n ih =>
    intro t hidle hn
    refine ⟨_, fun t' hp => ?_⟩
    rcases hp with ⟨f, f', hstep⟩
    rcases t with ⟨stage, calls, returned, cautious⟩
    obtain rfl : stage = .idle := hidle
    cases calls with
    | nil => cases hstep
    | cons call calls =>
      simp only [step?, Option.some.injEq, Prod.mk.injEq] at hstep
      rcases hstep with ⟨rfl, -⟩
      -- caution may drop calls, so there are at most n left and not exactly n
      have hfinish : ∀ outcome, Acc (Succeeds plan answering)
          (finish ⟨.idle, calls, returned, cautious⟩ outcome) := by
        intro outcome
        apply ih _ rfl
        simp only [List.length_cons, Nat.add_le_add_iff_right] at hn
        simp only [finish]
        split
        · exact Nat.zero_le n
        · exact hn
      cases call with
      | start =>
        simp only [begin]
        split
        · exact acc_again hfinish _
        · exact acc_waiting hfinish _
      | isInitialized | document => exact hfinish _
      | persistenceProvider | hookProviders => exact acc_waiting hfinish _

/-- No thread takes infinitely many steps, whatever the others do to the factory in between. -/
theorem succeeds_wellFounded (plan : Plan I) (answering : Answering I σ) :
    WellFounded (Succeeds plan answering) := by
  refine ⟨fun t => ?_⟩
  by_cases hidle : t.stage = .idle
  · exact acc_idle _ t hidle (Nat.le_refl _)
  · exact acc_enter (t := t) (fun outcome => acc_idle _ _ rfl (Nat.le_refl _)) hidle

end Thread

namespace Race

variable {plan : Plan I} {answering : Answering I σ} {changes : σ → σ → Prop} {around : σ}
  {lists : List (List Call)} {h : History I} {r r' : Race I σ} {i j : Nat} {s : Slot}

def Blocked (r : Race I σ) (s : Slot) (i : Nat) : Prop :=
  ∃ t, r.threads[i]? = some t ∧ t.stage = .waiting s ∧ r.factory.cells.get s = .claimed

theorem step?_eq_some_iff : r.step? plan answering i = some r' ↔
    ∃ t t' f', r.threads[i]? = some t ∧ t.step? plan answering r.factory = some (t', f') ∧
      r' = ⟨f', r.threads.set i t'⟩ := by
  cases ht : r.threads[i]? with
  | none => simp [step?, ht]
  | some t => simp [step?, ht, eq_comm]

theorem isSome_step?_iff {t : Thread I} (ht : r.threads[i]? = some t) :
    (r.step? plan answering i).isSome ↔ t.step? plan answering r.factory ≠ none := by
  simp [step?, ht, Option.isSome_iff_ne_none]

theorem Run.step (run : Run plan answering changes (ofCalls around lists) h r)
    (hs : r.step? plan answering i = some r') :
    ∃ h', Run plan answering changes (ofCalls around lists) h' r' := by
  obtain ⟨t, t', f', ht, hstep, rfl⟩ := step?_eq_some_iff.mp hs
  exact ⟨_, run.turn i ht hstep⟩

/-! ## Who fills cells -/

theorem Run.running_eq (run : Run plan answering changes (ofCalls around lists) h r) {t : Thread I}
    (ht : r.threads[i]? = some t) : h.running i = t.stage.running := by
  induction run using Run.steps generalizing t with
  | start =>
    obtain ⟨calls, -, rfl⟩ := thread_of_ofCalls ht
    rfl
  | turn h f threads j u marks u' f' run _ ih hj hs =>
    rcases thread_of_set ht with ⟨rfl, rfl⟩ | ⟨hne, hi⟩
    · rw [History.running_append_map_self, ih hj, hs.running]
    · rw [History.running_append_map_of_ne h marks hne.symm, ih hi]
  | change h f threads around' run hc ih => exact ih ht

theorem Run.running_of_none (run : Run plan answering changes (ofCalls around lists) h r)
    (hi : r.threads[i]? = none) : h.running i = [] := by
  induction run using Run.steps with
  | start => rfl
  | turn h f threads j u marks u' f' run _ ih hj hs =>
    have hthreads : threads[i]? = none := by simpa using hi
    have hne : j ≠ i := by
      intro hji
      rw [← hji, hj] at hthreads
      cases hthreads
    rw [History.running_append_map_of_ne h marks hne, ih hthreads]
  | change h f threads around' run hc ih => exact ih hi

theorem Run.mem_running_iff (run : Run plan answering changes (ofCalls around lists) h r) :
    s ∈ h.running i ↔ r.Attempting s i := by
  unfold Attempting
  cases ht : r.threads[i]? with
  | none => simp [run.running_of_none ht]
  | some t => simp [run.running_eq ht, Stage.mem_running_iff]

theorem Run.length_running_le (run : Run plan answering changes (ofCalls around lists) h r)
    (i : Nat) : (h.running i).length ≤ 1 := by
  cases ht : r.threads[i]? with
  | none => simp [run.running_of_none ht]
  | some t => simpa [run.running_eq ht] using t.stage.length_running_le

theorem Attempting.not_blocked (ha : r.Attempting s i) (s' : Slot) : ¬ r.Blocked s' i := by
  intro hb
  rcases ha with ⟨t, ht, ha⟩
  rcases hb with ⟨t', ht', hw, -⟩
  obtain rfl : t = t' := Option.some.inj (ht.symm.trans ht')
  rw [hw] at ha
  exact ha

theorem Attempting.isSome_step? (ha : r.Attempting s i) : (r.step? plan answering i).isSome := by
  rcases ha with ⟨t, ht, ha⟩
  rw [isSome_step?_iff ht]
  intro hn
  rcases Thread.step?_eq_none_iff.mp hn with ⟨hidle, -⟩ | ⟨s', hw, -⟩
  · rw [hidle] at ha
    exact ha
  · rw [hw] at ha
    exact ha

theorem Run.exists_running_of_blocked
    (run : Run plan answering changes (ofCalls around lists) h r) (hb : r.Blocked s i) :
    ∃ j, j ≠ i ∧ s ∈ h.running j := by
  have hclaimed := hb.choose_spec.2.2
  obtain ⟨j, hj⟩ := (run.exclusive.claimed s).mp hclaimed
  refine ⟨j, ?_, run.mem_running_iff.mpr hj⟩
  rintro rfl
  exact hj.not_blocked s hb

/-! ## Whoever has not finished, or somebody else, can go on -/

theorem Run.done_or_blocked (run : Run plan answering changes (ofCalls around lists) h r)
    (hi : i < lists.length) (hs : r.step? plan answering i = none) :
    (∀ position call, callAt? lists i position = some call →
      ∃ outcome, (r.returnedTo i)[position]? = some outcome) ∨ ∃ s, r.Blocked s i := by
  rw [← run.length_threads] at hi
  have ht : r.threads[i]? = some r.threads[i] := List.getElem?_eq_getElem hi
  have hnone : r.threads[i].step? plan answering r.factory = none := by
    simpa [step?, ht] using hs
  rcases Thread.step?_eq_none_iff.mp hnone with ⟨hidle, hcalls⟩ | ⟨s, hw, hc⟩
  · have hrest : r.threads[i].rest = [] := by
      rw [Thread.rest, hidle]
      exact hcalls
    exact .inl fun position call hcall => (run.books ht).exists_outcome ht hrest hcall
  · exact .inr ⟨s, _, ht, hw, hc⟩

theorem Run.exists_step (run : Run plan answering changes (ofCalls around lists) h r)
    {position : Nat} {call : Call} (hc : callAt? lists i position = some call)
    (hr : (r.returnedTo i)[position]? = none) : ∃ j, (r.step? plan answering j).isSome := by
  cases hs : r.step? plan answering i with
  | some r' => exact ⟨i, by simp [hs]⟩
  | none =>
    obtain ⟨calls, hl, -⟩ := callAt?_eq_some_iff.mp hc
    have hi : i < lists.length := (List.getElem?_eq_some_iff.mp hl).choose
    rcases run.done_or_blocked hi hs with hdone | ⟨s, hb⟩
    · obtain ⟨outcome, ho⟩ := hdone position call hc
      rw [hr] at ho
      cases ho
    · obtain ⟨j, -, hj⟩ := run.exists_running_of_blocked hb
      exact ⟨j, (run.mem_running_iff.mp hj).isSome_step?⟩

/-- An attempt that fails leaves its cell to those who wait for it, each of whom can take over. -/
theorem hand_over {t : Thread I} {e : FactoryError} (ht : r.threads[i]? = some t)
    (hstage : t.stage = .filling s (.done (.error e))) :
    ∃ r', r.step? plan answering i = some r' ∧ r'.factory.cells.get s = .empty ∧
      ∀ j, r.Blocked s j → ¬ r'.Blocked s j ∧
        ∃ r'', r'.step? plan answering j = some r'' ∧ r''.Attempting s j := by
  have hstep : t.step? plan answering r.factory =
      some (t.finish (.error e), ⟨r.factory.cells.set s .empty, r.factory.around⟩) := by
    simp only [Thread.step?, hstage]
    rfl
  refine ⟨_, step?_eq_some_iff.mpr ⟨t, _, _, ht, hstep, rfl⟩, Cells.get_set_self .., ?_⟩
  intro j hb
  rcases hb with ⟨u, hu, hw, -⟩
  have hne : i ≠ j := by
    rintro rfl
    obtain rfl : t = u := Option.some.inj (ht.symm.trans hu)
    rw [hw] at hstage
    cases hstage
  have hu' : (r.threads.set i (t.finish (.error e)))[j]? = some u := by
    rwa [List.getElem?_set_ne hne]
  have hclaim : u.step? plan answering ⟨r.factory.cells.set s .empty, r.factory.around⟩ =
      some (u.enter (.claiming s),
        ⟨(r.factory.cells.set s .empty).set s .claimed, r.factory.around⟩) := by
    simp [Thread.step?, hw]
  constructor
  · intro hb'
    have hclaimed := hb'.choose_spec.2.2
    simp at hclaimed
  · refine ⟨_, step?_eq_some_iff.mpr ⟨u, _, _, hu', hclaim, rfl⟩, ?_⟩
    exact (attempting_set_self hu' s).mpr rfl

/-! ## All calls come to return -/

/-- No race takes infinitely many steps, whatever becomes of its surroundings in between. -/
theorem step_wellFounded (plan : Plan I) (answering : Answering I σ) :
    WellFounded fun r' r : Race I σ => ∃ i around,
      (r.transplant around).step? plan answering i = some r' := by
  -- the work that is left of a call has no length that is known before the answers are, so the threads
  -- that are left are compared themselves, as a multiset in which one gives way to a later one
  have hcut := (Thread.succeeds_wellFounded plan answering).cutExpand
  refine Subrelation.wf ?_ (InvImage.wf (fun r : Race I σ => (r.threads : Multiset (Thread I))) hcut)
  rintro r' r ⟨i, around, hs⟩
  obtain ⟨t, t', f', ht, hstep, rfl⟩ := step?_eq_some_iff.mp hs
  obtain ⟨hi, hget⟩ := List.getElem?_eq_some_iff.mp ht
  have hbefore : (r.threads : Multiset (Thread I)) = {t} + (r.threads.eraseIdx i : Multiset _) := by
    rw [Multiset.singleton_add, Multiset.cons_coe, Multiset.coe_eq_coe, ← hget]
    exact (List.getElem_cons_eraseIdx_perm hi).symm
  have hafter : (r.threads.set i t' : Multiset (Thread I)) =
      {t'} + (r.threads.eraseIdx i : Multiset _) := by
    rw [Multiset.singleton_add, Multiset.cons_coe, Multiset.coe_eq_coe]
    exact List.set_perm_cons_eraseIdx hi t'
  change Relation.CutExpand _ (r.threads.set i t' : Multiset (Thread I)) r.threads
  rw [hbefore, hafter]
  exact Relation.cutExpand_single_add ⟨_, f', hstep⟩ _

theorem Run.exists_returned (run : Run plan answering changes (ofCalls around lists) h r) :
    ∃ turns, ∀ i position call, callAt? lists i position = some call →
      ∃ outcome, ((r.play plan answering turns).returnedTo i)[position]? = some outcome := by
  induction r using (step_wellFounded plan answering).induction generalizing h with
  | h r ih =>
  by_cases hdone : ∀ i position call, callAt? lists i position = some call →
      ∃ outcome, (r.returnedTo i)[position]? = some outcome
  · exact ⟨[], hdone⟩
  · push Not at hdone
    rcases hdone with ⟨i, position, call, hc, hr⟩
    obtain ⟨j, hj⟩ := run.exists_step hc (Option.eq_none_iff_forall_ne_some.mpr hr)
    obtain ⟨r', hs⟩ := Option.isSome_iff_exists.mp hj
    obtain ⟨h', run'⟩ := run.step hs
    obtain ⟨turns, hturns⟩ := ih r' ⟨j, r.factory.around, hs⟩ run'
    refine ⟨j :: turns, ?_⟩
    rwa [Race.play, hs]

/-- Nobody who fills a cell is blocked, nobody fills two, and a cell is claimed only while somebody fills
it. So some thread has a next step until all calls have returned, and they can be brought to that. -/
theorem deadlock_free (run : Run plan answering changes (ofCalls around lists) h r) :
    (∀ i, (h.running i).length ≤ 1) ∧
    (∀ i s, s ∈ h.running i →
      (∀ s', ¬ r.Blocked s' i) ∧ (r.step? plan answering i).isSome) ∧
    (∀ s, r.factory.cells.get s = .claimed ↔ ∃ i, s ∈ h.running i) ∧
    (∀ i, i < lists.length → r.step? plan answering i = none →
      (∀ position call, callAt? lists i position = some call →
        ∃ outcome, (r.returnedTo i)[position]? = some outcome) ∨
      ∃ s j, r.Blocked s i ∧ j ≠ i ∧ s ∈ h.running j) ∧
    (∀ i position call, callAt? lists i position = some call →
      (r.returnedTo i)[position]? = none → ∃ j, (r.step? plan answering j).isSome) ∧
    (∀ i s t e, r.threads[i]? = some t → t.stage = .filling s (.done (.error e)) →
      ∃ r', r.step? plan answering i = some r' ∧ r'.factory.cells.get s = .empty ∧
        ∀ j, r.Blocked s j → ¬ r'.Blocked s j ∧
          ∃ r'', r'.step? plan answering j = some r'' ∧ r''.Attempting s j) ∧
    ∃ turns, ∀ i position call, callAt? lists i position = some call →
      ∃ outcome, ((r.play plan answering turns).returnedTo i)[position]? = some outcome := by
  refine ⟨run.length_running_le, ?_, ?_, ?_, ?_, ?_, run.exists_returned⟩
  · intro i s hs
    have ha := run.mem_running_iff.mp hs
    exact ⟨ha.not_blocked, ha.isSome_step?⟩
  · intro s
    simp only [run.mem_running_iff]
    exact run.exclusive.claimed s
  · intro i hi hs
    rcases run.done_or_blocked hi hs with hdone | ⟨s, hb⟩
    · exact .inl hdone
    · obtain ⟨j, hne, hj⟩ := run.exists_running_of_blocked hb
      exact .inr ⟨s, j, hb, hne, hj⟩
  · intro i position call hc hr
    exact run.exists_step hc hr
  · intro i s t e ht hstage
    exact hand_over ht hstage

/-- Turns after which one thread is about to fail with the document that another waits for, while a
third fills the cell of the hooks. -/
def onTheVerge : List Nat := [0, 0, 1, 2, 2, 0, 0, 0]

theorem deadlock_free_onTheVerge :
    let late := bareDocument fun loads => if loads = 0 then .error (.badSchema "") else .ok {}
    let lists := [[Call.start], [.start], [.hookProviders]]
    let start := ofCalls 0 lists
    let h := record (Settings.plan {}) late onTheVerge start
    let r := start.play (Settings.plan {}) late onTheVerge
    Run (Settings.plan {}) late (fun _ _ => False) start h r ∧
      [0, 1, 2].map h.running = [[.document], [], [.hooks]] ∧ r.Blocked .document 1 ∧
      (∃ r', r.step? (Settings.plan {}) late 0 = some r' ∧
        r'.factory.cells.document = .empty ∧
        ∃ r'', r'.step? (Settings.plan {}) late 1 = some r'' ∧
          r''.Attempting .document 1) ∧
      ∃ turns, ∀ i position call, callAt? lists i position = some call → ∃ outcome,
        ((r.play (Settings.plan {}) late turns).returnedTo i)[position]? = some outcome := by
  intro late lists start h r
  have run : Run (Settings.plan {}) late (fun _ _ => False) start h r :=
    Run.start.play onTheVerge
  obtain ⟨-, -, -, -, -, handed, turns⟩ := deadlock_free run
  have hfailing : r.threads[0]? =
      some ⟨.filling .document (.done (.error (.config (.badSchema "")))), [], [], false⟩ := by
    simp only [r, start, lists, late]
    rfl
  have hwaiting : r.threads[1]? = some ⟨.waiting .document, [], [], false⟩ := by
    simp only [r, start, lists, late]
    rfl
  have hblocked : r.Blocked .document 1 := ⟨_, hwaiting, rfl, by decide +kernel⟩
  obtain ⟨r', hs, hempty, htakeOver⟩ := handed 0 .document _ _ hfailing rfl
  exact ⟨run, by decide +kernel, hblocked, ⟨r', hs, hempty, (htakeOver 1 hblocked).2⟩, turns⟩

end Race

end Provisioning
