import Provisioning.Factory.Basic

/-!
# Threads that share a factory

Several threads make calls to one factory, step by step and in any order. A thread that needs the
content of a cell waits while another fills it. If the cell is empty it claims the cell and does the
work itself; the others go on when the cell is full, or try in turn when it has been left empty. A
step is no more than a look at a cell, a claim, one question to the surroundings or the end of a call.
-/

namespace Provisioning

/-- How far a thread has come with a call. -/
inductive Stage (I : Interface) where
  | idle
  | again (work : Dialogue I Unit)
  | waiting (s : Slot)
  | claiming (s : Slot)
  | filling (s : Slot) (work : Dialogue I (Except FactoryError s.Content))

abbrev Outcome := Except FactoryError Reply

/-- A thread: how far it is with the call that it makes, the calls that it is going to make, and what
those returned that it has made. A cautious thread makes no more calls after one that failed. -/
structure Thread (I : Interface) where
  stage : Stage I := .idle
  calls : List Call
  returned : List Outcome := []
  cautious : Bool := false

/-- A factory and the threads that share it. -/
structure Race (I : Interface) (σ : Type) where
  factory : Factory σ
  threads : List (Thread I)

variable {I : Interface} {σ : Type}

def Outcome.isFailure : Outcome → Bool
  | .ok _ => false
  | .error _ => true

namespace Thread

def finish (t : Thread I) (outcome : Outcome) : Thread I :=
  ⟨.idle, if t.cautious && Outcome.isFailure outcome then [] else t.calls,
    t.returned ++ [outcome], t.cautious⟩

def enter (t : Thread I) (stage : Stage I) : Thread I :=
  ⟨stage, t.calls, t.returned, t.cautious⟩

def begin (plan : Plan I) (f : Factory σ) (t : Thread I) : Call → Thread I
  | .start => if f.isInitialized then t.enter (.again plan.again) else t.enter (.waiting .document)
  | .isInitialized => t.finish (.ok (.flag f.isInitialized))
  | .document => t.finish (f.document.map .document)
  | .persistenceProvider => t.enter (.waiting .persistence)
  | .hookProviders => t.enter (.waiting .hooks)

/-- The next step of a thread, unless it has made all its calls or has to wait. -/
def step? (plan : Plan I) (answering : Answering I σ) (f : Factory σ) (t : Thread I) :
    Option (Thread I × Factory σ) :=
  match t.stage with
  | .idle =>
    match t.calls with
    | [] => none
    | call :: calls => some (begin plan f ⟨.idle, calls, t.returned, t.cautious⟩ call, f)
  | .again (.done ()) => some (t.finish (.ok .done), f)
  | .again (.ask q next) =>
    match answering q f.around with
    | (answer, around) => some (t.enter (.again (next answer)), ⟨f.cells, around⟩)
  | .waiting s =>
    match f.cells.get s with
    | .full a => some (t.finish (.ok (s.reply a)), f)
    | .claimed => none
    | .empty => some (t.enter (.claiming s), ⟨f.cells.set s .claimed, f.around⟩)
  | .claiming s => some (t.enter (.filling s (plan.fill s f.cells.document.content?)), f)
  | .filling s (.done outcome) =>
    some (t.finish (outcome.map s.reply), ⟨f.cells.settle s outcome, f.around⟩)
  | .filling s (.ask q next) =>
    match answering q f.around with
    | (answer, around) => some (t.enter (.filling s (next answer)), ⟨f.cells, around⟩)

/-- Makes calls one after the other without a break; caution ends them with the first that fails. -/
def performAll (plan : Plan I) (answering : Answering I σ) (cautious : Bool) :
    List Call → Factory σ → List Outcome × Factory σ
  | [], f => ([], f)
  | call :: calls, f =>
    match f.perform plan answering call with
    | (outcome, f) =>
      if cautious && Outcome.isFailure outcome then ([outcome], f)
      else
        match performAll plan answering cautious calls f with
        | (outcomes, f) => (outcome :: outcomes, f)

/-- Ends the call of a thread that does not wait, without a break. -/
def leave (plan : Plan I) (answering : Answering I σ) (f : Factory σ) (t : Thread I) :
    Thread I × Factory σ :=
  match t.stage with
  | .again work =>
    match work.run answering f.around with
    | ((), around) => (t.finish (.ok .done), ⟨f.cells, around⟩)
  | .claiming s =>
    match f.fill plan answering s with
    | (outcome, f) => (t.finish (outcome.map s.reply), f)
  | .filling s work =>
    match work.run answering f.around with
    | (outcome, around) => (t.finish (outcome.map s.reply), ⟨f.cells.settle s outcome, around⟩)
  | _ => (t, f)

/-- Ends the call of a thread that waits, when nobody fills a cell any more. -/
def resume (plan : Plan I) (answering : Answering I σ) (f : Factory σ) (t : Thread I) :
    Thread I × Factory σ :=
  match t.stage with
  | .waiting s =>
    match f.obtain plan answering s with
    | (outcome, f) => (t.finish (outcome.map s.reply), f)
  | _ => (t, f)

def complete (plan : Plan I) (answering : Answering I σ) (f : Factory σ) (t : Thread I) :
    Thread I × Factory σ :=
  match t.resume plan answering f with
  | (t, f) =>
    match performAll plan answering t.cautious t.calls f with
    | (outcomes, f) => (⟨.idle, [], t.returned ++ outcomes, t.cautious⟩, f)

end Thread

namespace Race

def step? (plan : Plan I) (answering : Answering I σ) (r : Race I σ) (i : Nat) :
    Option (Race I σ) :=
  match r.threads[i]? with
  | none => none
  | some t => (t.step? plan answering r.factory).map fun (t, f) => ⟨f, r.threads.set i t⟩

/-- Lets threads take steps in some order; a thread that cannot take one loses its turn. -/
def play (plan : Plan I) (answering : Answering I σ) : List Nat → Race I σ → Race I σ
  | [], r => r
  | i :: turns, r => play plan answering turns ((r.step? plan answering i).getD r)

def eachThread (act : Factory σ → Thread I → Thread I × Factory σ) :
    List (Thread I) → Factory σ → List (Thread I) × Factory σ
  | [], f => ([], f)
  | t :: rest, f =>
    match act f t with
    | (t, f) =>
      match eachThread act rest f with
      | (rest, f) => (t :: rest, f)

/-- Brings a race to its end: whoever fills a cell ends that call first, and then each thread makes
the calls that are left. -/
def settle (plan : Plan I) (answering : Answering I σ) (r : Race I σ) : Race I σ :=
  match eachThread (Thread.leave plan answering) r.threads r.factory with
  | (threads, f) =>
    match eachThread (Thread.complete plan answering) threads f with
    | (threads, f) => ⟨f, threads⟩

/-- How many rounds the threads of a race take in turn, before each is let run on. -/
def openingRounds : Nat := 8

def rounds (threads : Nat) : Nat → List Nat
  | 0 => []
  | n + 1 => List.range threads ++ rounds threads n

def start (f : Factory σ) (threads : Nat) (calls : List Call) : Race I σ :=
  ⟨f, List.replicate threads ⟨.idle, calls, [], true⟩⟩

/-- How a race ends of threads that take turns in its first rounds. -/
def run (plan : Plan I) (answering : Answering I σ) (f : Factory σ) (threads : Nat)
    (calls : List Call) : Race I σ :=
  (play plan answering (rounds threads openingRounds) (start f threads calls)).settle plan answering

def winners (r : Race I σ) : List (Thread I) :=
  r.threads.filter fun t => !t.returned.any Outcome.isFailure

def errors (r : Race I σ) : List FactoryError :=
  r.threads.flatMap fun t => t.returned.filterMap fun
    | .error e => some e
    | .ok _ => none

def replies (t : Thread I) : List Reply :=
  t.returned.filterMap Except.toOption

def agrees (r : Race I σ) : Bool :=
  match r.winners.map replies with
  | [] => true
  | first :: others => others.all fun other => other = first

end Race

end Provisioning
