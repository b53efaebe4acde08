import Provisioning.Factory.Race

/-!
# Single calls

What a call does depends on the cell that it is about. Some calls only look at the document. Another
finds its cell full and gives what is there, or finds it empty and makes one attempt to fill it.
-/

namespace Provisioning

variable {I : Interface} {σ : Type}

namespace Cells

@[simp] theorem get_set_self (c : Cells) (s : Slot) (a : Cell s.Content) : (c.set s a).get s = a := by
  cases s <;> rfl

theorem get_set_of_ne (c : Cells) {s s' : Slot} (a : Cell s.Content) (h : s' ≠ s) :
    (c.set s a).get s' = c.get s' := by
  cases s <;> cases s' <;> first | rfl | exact (h rfl).elim

@[simp] theorem get_settle_ok (c : Cells) (s : Slot) (a : s.Content) :
    (c.settle s (.ok a)).get s = .full a := get_set_self c s (.full a)

@[simp] theorem get_settle_error (c : Cells) (s : Slot) (e : FactoryError) :
    (c.settle s (.error e)).get s = .empty := get_set_self c s .empty

theorem get_settle_of_ne (c : Cells) {s s' : Slot} (outcome : Except FactoryError s.Content)
    (h : s' ≠ s) : (c.settle s outcome).get s' = c.get s' := by
  cases outcome <;> exact get_set_of_ne c _ h

theorem settle_error_of_empty {c : Cells} {s : Slot} (h : c.get s = .empty) (e : FactoryError) :
    c.settle s (.error e) = c := by
  rcases c with ⟨d, p, hs⟩
  cases s <;> simp_all [get, settle, set]

def Settled (c : Cells) : Prop :=
  ∀ s, c.get s ≠ .claimed

/-- What is full is full of the same in other cells. -/
def Within (c c' : Cells) : Prop :=
  ∀ s a, c.get s = .full a → c'.get s = .full a

theorem Within.refl (c : Cells) : c.Within c := fun _ _ h => h

theorem Within.trans {c c' c'' : Cells} (h : c.Within c') (h' : c'.Within c'') : c.Within c'' :=
  fun s a ha => h' s a (h s a ha)

theorem Settled.settle {c : Cells} (h : c.Settled) (s : Slot)
    (outcome : Except FactoryError s.Content) : (c.settle s outcome).Settled := by
  intro s'
  by_cases hs : s' = s
  · subst hs
    cases outcome <;> simp
  · rw [get_settle_of_ne _ _ hs]
    exact h s'

theorem within_settle {c : Cells} {s : Slot} (h : c.get s = .empty)
    (outcome : Except FactoryError s.Content) : c.Within (c.settle s outcome) := by
  intro s' a ha
  by_cases hs : s' = s
  · subst hs
    rw [h] at ha
    cases ha
  · rw [get_settle_of_ne _ _ hs, ha]

end Cells

/-- The cell that a call is about, if it is there to fill one. -/
def Call.slot? : Call → Option Slot
  | .start => some .document
  | .persistenceProvider => some .persistence
  | .hookProviders => some .hooks
  | _ => none

def Slot.call : Slot → Call
  | .document => .start
  | .persistence => .persistenceProvider
  | .hooks => .hookProviders

theorem Slot.call_injective : Function.Injective Slot.call := by
  intro s s' h
  cases s <;> cases s' <;> first | rfl | cases h

theorem Call.slot?_eq_some_iff {call : Call} {s : Slot} : call.slot? = some s ↔ call = s.call := by
  cases call <;> cases s <;> simp [Call.slot?, Slot.call]

/-- What becomes of the surroundings in a call that finds its cell full. -/
def Slot.revisit (plan : Plan I) (answering : Answering I σ) : Slot → σ → σ
  | .document, around => (plan.again.run answering around).2
  | _, around => around

namespace Factory

/-- The outcome of a call that does no more than look at the document. -/
def glance? (f : Factory σ) : Call → Option Outcome
  | .isInitialized => some (.ok (.flag f.isInitialized))
  | .document => some (f.document.map .document)
  | _ => none

variable {plan : Plan I} {answering : Answering I σ} {f : Factory σ} {call : Call}
  {outcome : Outcome} {s : Slot}

theorem isInitialized_eq_false_iff (hf : f.cells.Settled) :
    f.isInitialized = false ↔ f.cells.document = .empty := by
  have hd : f.cells.document ≠ .claimed := hf .document
  unfold isInitialized
  cases hc : f.cells.document <;> simp_all [Cell.content?]

theorem isInitialized_eq_true_iff : f.isInitialized = true ↔ ∃ d, f.cells.document = .full d := by
  unfold isInitialized
  cases hc : f.cells.document <;> simp [Cell.content?]

theorem perform_document_eq_ok_iff {d : ProvidersDocument} :
    (f.perform plan answering .document).1 = .ok (.document d) ↔ f.cells.document = .full d := by
  change f.document.map Reply.document = _ ↔ _
  cases hc : f.cells.document <;> simp [document, hc, Cell.content?, Except.map]

theorem perform_document_of_empty (h : f.cells.document = .empty) :
    (f.perform plan answering .document).1 = .error .notInitialized := by
  simp [perform, document, h, Cell.content?, Except.map]

theorem perform_of_glance (h : f.glance? call = some outcome) :
    f.perform plan answering call = (outcome, f) := by
  cases call with
  | isInitialized | document =>
    cases h
    rfl
  | start | persistenceProvider | hookProviders => cases h

theorem perform_of_full {a : s.Content} (h : f.cells.get s = .full a) :
    f.perform plan answering s.call =
      (.ok (s.reply a), ⟨f.cells, s.revisit plan answering f.around⟩) := by
  have ho : f.obtain plan answering s = (.ok a, f) := by
    simp [obtain, h, Cell.content?]
  cases s with
  | document =>
    have hi : f.isInitialized = true := by
      have hd : f.cells.document = .full a := h
      simp [isInitialized, hd, Cell.content?]
    simp only [Slot.call, perform, start, hi, if_true]
    rfl
  | persistence =>
    simp only [Slot.call, perform, persistenceProvider, ho]
    rfl
  | hooks =>
    simp only [Slot.call, perform, hookProviders, ho]
    rfl

theorem perform_of_empty (h : f.cells.get s = .empty) :
    f.perform plan answering s.call =
      ((f.fill plan answering s).1.map s.reply, (f.fill plan answering s).2) := by
  have ho : f.obtain plan answering s = f.fill plan answering s := by
    simp [obtain, h, Cell.content?]
  cases s with
  | document =>
    have hi : f.isInitialized = false := by
      have hd : f.cells.document = .empty := h
      simp [isInitialized, hd, Cell.content?]
    simp only [Slot.call, perform, start, hi, ho]
    cases (f.fill plan answering .document).1 <;> rfl
  | persistence =>
    simp only [Slot.call, perform, persistenceProvider, ho]
    rfl
  | hooks =>
    simp only [Slot.call, perform, hookProviders, ho]
    rfl

/-- The kinds of call to a factory that nobody else is busy with. -/
inductive Performs (plan : Plan I) (answering : Answering I σ) (f : Factory σ) :
    Call → Outcome → Factory σ → Prop where
  | glance {call : Call} {outcome : Outcome} (h : f.glance? call = some outcome) :
      Performs plan answering f call outcome f
  | share {s : Slot} {a : s.Content} (h : f.cells.get s = .full a) :
      Performs plan answering f s.call (.ok (s.reply a))
        ⟨f.cells, s.revisit plan answering f.around⟩
  | attempt {s : Slot} {outcome : Except FactoryError s.Content} {around : σ}
      (h : f.cells.get s = .empty)
      (run : (plan.fill s f.cells.document.content?).run answering f.around = (outcome, around)) :
      Performs plan answering f s.call (outcome.map s.reply) ⟨f.cells.settle s outcome, around⟩

theorem perform_spec (plan : Plan I) (answering : Answering I σ) (hf : f.cells.Settled)
    (call : Call) :
    Performs plan answering f call (f.perform plan answering call).1
      (f.perform plan answering call).2 := by
  have hslot : ∀ s : Slot, Performs plan answering f s.call (f.perform plan answering s.call).1
      (f.perform plan answering s.call).2 := by
    intro s
    cases hc : f.cells.get s with
    | empty =>
      rw [perform_of_empty hc]
      exact .attempt hc rfl
    | claimed => exact (hf s hc).elim
    | full a =>
      rw [perform_of_full hc]
      exact .share hc
  cases call with
  | isInitialized | document => exact .glance rfl
  | start => exact hslot .document
  | persistenceProvider => exact hslot .persistence
  | hookProviders => exact hslot .hooks

theorem Performs.settled {f' : Factory σ} (h : Performs plan answering f call outcome f')
    (hf : f.cells.Settled) : f'.cells.Settled := by
  cases h with
  | glance | share => exact hf
  | attempt => exact hf.settle _ _

theorem Performs.within {f' : Factory σ} (h : Performs plan answering f call outcome f') :
    f.cells.Within f'.cells := by
  cases h with
  | glance | share => exact .refl _
  | attempt he => exact Cells.within_settle he _

theorem Performs.get_of_ne {f' : Factory σ} (h : Performs plan answering f call outcome f')
    (hs : call ≠ s.call) : f'.cells.get s = f.cells.get s := by
  cases h with
  | glance | share => rfl
  | @attempt s' outcome =>
    have hne : s ≠ s' := fun heq => hs (congrArg Slot.call heq.symm)
    exact Cells.get_settle_of_ne _ _ hne

theorem Performs.get_eq_empty {f' : Factory σ} (h : Performs plan answering f call outcome f')
    (hempty : f.cells.get s = .empty) (hno : ∀ reply, (call, outcome) ≠ (s.call, .ok reply)) :
    f'.cells.get s = .empty := by
  cases h with
  | glance | share => exact hempty
  | @attempt s' outcome =>
    by_cases hs : s = s'
    · subst hs
      cases outcome with
      | error e => exact Cells.get_settle_error _ _ e
      | ok a => exact (hno _ rfl).elim
    · exact (Cells.get_settle_of_ne _ _ hs).trans hempty

theorem Performs.cells_of_error {f' : Factory σ} {e : FactoryError}
    (h : Performs plan answering f call (.error e) f') : f'.cells = f.cells := by
  generalize ho : (Except.error e : Outcome) = outcome at h
  cases h with
  | glance | share => rfl
  | @attempt s o around he run =>
    cases o with
    | error e' => exact Cells.settle_error_of_empty he e'
    | ok a => cases ho

end Factory

end Provisioning
