/-!
# Dialogues

A piece of work that depends on its surroundings is a dialogue: it asks questions one at a time and
goes on according to the answers. The surroundings may change with every answer. A dialogue can be
run to its end at once, or one question at a time with other dialogues in between.
-/

namespace Provisioning

/-- What may be asked of some surroundings, and what kind of answer each question has. -/
structure Interface where
  Question : Type
  Answer : Question → Type

/-- Work that asks questions and ends in a result. -/
inductive Dialogue (I : Interface) (α : Type) where
  | done (result : α)
  | ask (question : I.Question) (next : I.Answer question → Dialogue I α)

/-- How surroundings in some state answer, and the state they are in afterwards. -/
abbrev Answering (I : Interface) (σ : Type) := (q : I.Question) → σ → I.Answer q × σ

namespace Dialogue

variable {I : Interface} {α β σ : Type}

def bind : Dialogue I α → (α → Dialogue I β) → Dialogue I β
  | done a, f => f a
  | ask q next, f => ask q fun answer => (next answer).bind f

/-- The result of a dialogue with some surroundings, and the state these are in afterwards. -/
def run (answering : Answering I σ) : Dialogue I α → σ → α × σ
  | done a, s => (a, s)
  | ask q next, s =>
    match answering q s with
    | (answer, s) => run answering (next answer) s

end Dialogue

end Provisioning
