import Mathlib.Logic.Function.Basic
import Provisioning.Factory.Plan
import Provisioning.Proofs.Race.Account

/-!
# Outcomes in supply

The outcomes of the attempts for each cell may be seen as a stream from which every attempt takes one
item. An attempt that does not find what it needs in the document fails without taking any. A factory
can be run on such streams alone.
-/

namespace Provisioning

variable {I : Interface} {σ : Type}

/-- Cells as questions, whose answers are the outcomes of attempts to fill them. -/
abbrev Slot.interface : Interface where
  Question := Slot
  Answer := fun s => Except FactoryError s.Content

/-- The outcomes of the attempts for each cell, in the order of the attempts. -/
abbrev Streams := (s : Slot) → Nat → Except FactoryError s.Content

def Streams.answering (streams : Streams) : Answering Slot.interface (Slot → Nat) :=
  fun s taken => (streams s (taken s), Function.update taken s (taken s + 1))

def Works.supplied : Works Slot.interface where
  load := .ask .document .done
  persistence _ := .ask .persistence .done
  hooks _ := .ask .hooks .done
  again := .done ()

/-- The document declares what is to be made for a cell. -/
def Slot.isReady : Slot → Option ProvidersDocument → Bool
  | .document, _ => true
  | .persistence, d => (d.bind ProvidersDocument.persistence).isSome
  | .hooks, d => d.isSome

theorem Works.fill_of_not_ready {s : Slot} {d : Option ProvidersDocument}
    (hs : s.isReady d = false) :
    ∃ e, ∀ {J : Interface} (works : Works J), works.plan.fill s d = .done (.error e) := by
  cases s with
  | document => simp [Slot.isReady] at hs
  | persistence =>
    cases d with
    | none => exact ⟨.notInitialized, fun _ => rfl⟩
    | some d =>
      rcases d with ⟨entry, hooks⟩
      cases entry with
      | none => exact ⟨.roleMissing .persistence, fun _ => rfl⟩
      | some entry => simp [Slot.isReady] at hs
  | hooks =>
    cases d with
    | none => exact ⟨.notInitialized, fun _ => rfl⟩
    | some d => simp [Slot.isReady] at hs

theorem Works.supplied_fill_of_ready {s : Slot} {d : Option ProvidersDocument}
    (hs : s.isReady d = true) : Works.supplied.plan.fill s d = .ask s .done := by
  cases s with
  | document => rfl
  | persistence =>
    cases d with
    | none => simp [Slot.isReady] at hs
    | some d =>
      rcases d with ⟨entry, hooks⟩
      cases entry with
      | none => simp [Slot.isReady] at hs
      | some entry => rfl
  | hooks =>
    cases d with
    | none => simp [Slot.isReady] at hs
    | some d => rfl

/-- What the attempts of a history amount to: whether the last one for a cell has found what it needs,
and the outcomes of all that had. -/
structure Ledger where
  ready : Slot → Bool := fun _ => false
  drawn : (s : Slot) → List (Except FactoryError s.Content) := fun _ => []

namespace Ledger

def note (l : Ledger) : Mark I → Ledger
  | .looked s d => ⟨Function.update l.ready s (s.isReady d), l.drawn⟩
  | .ended s outcome =>
    if l.ready s then ⟨l.ready, Function.update l.drawn s (l.drawn s ++ [outcome])⟩ else l
  | _ => l

theorem drawn_prefix_note (l : Ledger) (m : Mark I) (s : Slot) :
    l.drawn s <+: (l.note m).drawn s := by
  cases m with
  | ended s' outcome =>
    simp only [note]
    split
    · by_cases hs : s = s'
      · subst hs
        simp
      · simp [Function.update_of_ne hs]
    · exact List.prefix_rfl
  | _ => exact List.prefix_rfl

end Ledger

namespace History

def ledger (h : History I) : Ledger :=
  h.foldl (fun l m => l.note m.2) {}

theorem ledger_append (h h' : History I) :
    ledger (h ++ h') = h'.foldl (fun l m => l.note m.2) h.ledger := by
  simp [ledger]

theorem ledger_append_map (h : History I) (marks : List (Mark I)) (i : Nat) :
    ledger (h ++ marks.map (i, ·)) = marks.foldl Ledger.note h.ledger := by
  rw [ledger_append, List.foldl_map]

theorem drawn_prefix_append (h h' : History I) (s : Slot) :
    h.ledger.drawn s <+: (ledger (h ++ h')).drawn s := by
  rw [ledger_append]
  generalize h.ledger = l
  induction h' generalizing l with
  | nil => exact List.prefix_rfl
  | cons m h' ih => exact (l.drawn_prefix_note m.2 s).trans (ih (l.note m.2))

end History

/-- The attempts of a history that had what they need took their outcomes from streams, one item
each. -/
def Streams.Supplies (streams : Streams) (h : History I) : Prop :=
  ∀ s k outcome, (h.ledger.drawn s)[k]? = some outcome → streams s k = outcome

theorem Streams.Supplies.of_append {streams : Streams} {h h' : History I}
    (hs : streams.Supplies (h ++ h')) : streams.Supplies h := by
  intro s k outcome hk
  obtain ⟨rest, hr⟩ := h.drawn_prefix_append h' s
  have hlt : k < (h.ledger.drawn s).length := (List.getElem?_eq_some_iff.mp hk).choose
  apply hs s k outcome
  rw [← hr, List.getElem?_append_left hlt, hk]

theorem Streams.exists_supplies (h : History I) : ∃ streams : Streams, streams.Supplies h := by
  refine ⟨fun s k => (h.ledger.drawn s)[k]?.getD (.error .notInitialized), ?_⟩
  intro s k outcome hk
  simp [hk]

end Provisioning
