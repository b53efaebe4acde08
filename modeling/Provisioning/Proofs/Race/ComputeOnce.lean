import Provisioning.Proofs.Instantiation
import Provisioning.Proofs.Race.Account

/-!
# Everything is made once

However the steps of the threads are mixed and whatever the surroundings answer, no two threads load
the document at a time or fill the same cell. The first attempt that succeeds is the last one for its
cell. Nobody is told of an error that somebody else has run into.
-/

namespace Provisioning

variable {σ : Type}

namespace Dialogue

variable {I : Interface} {α : Type}

def question? : Dialogue I α → Option I.Question
  | done _ => none
  | ask q _ => some q

theorem Asks.question {P : I.Question → Prop} {w : Dialogue I α} {q : I.Question} (hw : w.Asks P)
    (hq : w.question? = some q) : P q := by
  cases w with
  | done => cases hq
  | ask q' next =>
    obtain rfl := Option.some.inj hq
    exact hw.1

end Dialogue

def Stage.question? {I : Interface} : Stage I → Option I.Question
  | .again work => work.question?
  | .filling _ work => work.question?
  | _ => none

/-- What a reply tells about the cells. -/
def Reply.Shows (c : Cells) : Reply → Prop
  | .done => ∃ d, c.document = .full d
  | .flag _ => True
  | .document d => c.document = .full d
  | .provider p => c.persistence = .full p
  | .providers ps => c.hooks = .full ps

theorem Slot.reply_shows {c : Cells} {s : Slot} {a : s.Content} (ha : c.get s = .full a) :
    (s.reply a).Shows c := by
  cases s with
  | document => exact ⟨a, ha⟩
  | persistence => exact ha
  | hooks => exact ha

namespace Race

def Loading (r : Race Question.interface σ) (i : Nat) : Prop :=
  ∃ t path, r.threads[i]? = some t ∧ t.stage.question? = some (.load path)

section

variable {I : Interface} {plan : Plan I} {answering : Answering I σ} {changes : σ → σ → Prop}
  {around : σ} {lists : List (List Call)} {h past later : History I} {r : Race I σ} {i : Nat}

theorem Run.no_claim_of_ended (run : Run plan answering changes (ofCalls around lists) h r)
    {s : Slot} {a : s.Content} (hm : h = past ++ (i, .ended s (.ok a)) :: later) (j : Nat) :
    (j, .claimed s) ∉ later := by
  intro hj
  obtain ⟨between, rest, rfl⟩ := List.append_of_mem hj
  have hsplit : h = (past ++ (i, .ended s (.ok a)) :: between) ++ (j, .claimed s) :: rest := by
    simp [hm]
  exact run.justified hsplit a ⟨i, by simp⟩

theorem Run.full_of_ended (run : Run plan answering changes (ofCalls around lists) h r)
    {s : Slot} {a : s.Content} (hm : (i, .ended s (.ok a)) ∈ h) :
    r.factory.cells.get s = .full a :=
  (run.full_iff_holds s a).mpr ⟨i, hm⟩

/-- An error comes from an attempt of the call that returns it, unless it was the document that was
asked for. -/
theorem Run.error_returned (run : Run plan answering changes (ofCalls around lists) h r)
    {e : FactoryError} (hm : h = past ++ (i, .returned (.error e)) :: later) :
    (∃ before call s d xs, call.slot? = some s ∧
        past.own i = before ++ Mark.attempt call s d xs ++ [.ended s (.error e)]) ∨
      ∃ before, past.own i = before ++ [.called .document] ∧ e = .notInitialized ∧
        ∀ d, ¬ past.Holds .document d := by
  have ha : past.Answered i (.error e) := run.justified hm
  generalize ho : (Except.error e : Outcome) = outcome at ha
  cases ha with
  | flag | document | repeated | shared => cases ho
  | noDocument own hd =>
    cases ho
    exact .inr ⟨_, own, rfl, hd⟩
  | @attempted before call s d xs o own hs =>
    cases o with
    | error e' =>
      cases ho
      exact .inl ⟨before, call, s, d, xs, hs, own⟩
    | ok a => cases ho

theorem Run.ok_answered (run : Run plan answering changes (ofCalls around lists) h r) {reply : Reply}
    (hm : h = past ++ (i, .returned (.ok reply)) :: later) :
    (∃ b, reply = .flag b) ∨ (∃ d, reply = .document d ∧ past.Holds .document d) ∨
      ∃ s a, reply = Slot.reply s a ∧ past.Holds s a := by
  have ha : past.Answered i (.ok reply) := run.justified hm
  generalize ho : (Except.ok reply : Outcome) = outcome at ha
  cases ha with
  | flag =>
    cases ho
    exact .inl ⟨_, rfl⟩
  | noDocument => cases ho
  | document own hd =>
    cases ho
    exact .inr (.inl ⟨_, rfl, hd⟩)
  | repeated own hd =>
    cases ho
    exact .inr (.inr ⟨.document, _, rfl, hd⟩)
  | shared own hs ha =>
    cases ho
    exact .inr (.inr ⟨_, _, rfl, ha⟩)
  | @attempted before call s d xs o own hs =>
    cases o with
    | error e' => cases ho
    | ok a =>
      cases ho
      have hend : .ended s (.ok a) ∈ past.own i := by simp [own]
      exact .inr (.inr ⟨s, a, rfl, i, History.mem_own.mp hend⟩)

theorem Run.ok_returned (run : Run plan answering changes (ofCalls around lists) h r)
    {reply : Reply} (hm : (i, .returned (.ok reply)) ∈ h) : reply.Shows r.factory.cells := by
  obtain ⟨past, later, rfl⟩ := List.append_of_mem hm
  have hfull : ∀ s (a : s.Content), History.Holds past s a → r.factory.cells.get s = .full a :=
    fun s a ha => (run.full_iff_holds s a).mpr (ha.append_left _)
  rcases run.ok_answered rfl with ⟨b, rfl⟩ | ⟨d, rfl, hd⟩ | ⟨s, a, rfl, ha⟩
  · trivial
  · exact hfull .document d hd
  · exact Slot.reply_shows (hfull s a ha)

end

variable {settings : Settings} {answering : Answering Question.interface σ}
  {changes : σ → σ → Prop} {around : σ} {lists : List (List Call)}
  {h : History Question.interface} {r : Race Question.interface σ}

theorem Run.attempting_of_loading
    (run : Run settings.plan answering changes (ofCalls around lists) h r) {i : Nat}
    (hi : r.Loading i) : r.Attempting .document i := by
  rcases hi with ⟨t, path, ht, hq⟩
  have hfol := run.follows ht
  rcases t with ⟨stage, calls, returned, cautious⟩
  cases stage with
  | idle | waiting | claiming => cases hq
  | again work =>
    rcases hfol with ⟨before, xs, -, hl⟩
    have hw : settings.plan.again.Asks Question.NoLoad := ⟨nofun, fun _ => trivial⟩
    exact ((hl.asks hw).question hq path rfl).elim
  | filling s work =>
    rcases hfol with ⟨before, call, d, xs, -, -, hl⟩
    by_cases hs : s = .document
    · exact ⟨_, ht, hs⟩
    · exact ((hl.asks (settings.fill_asks hs d)).question hq path rfl).elim

/-- One attempt at a time, none after one that succeeded, and to everyone the error of his own. -/
theorem attempts_exclusive
    (run : Run settings.plan answering changes (ofCalls around lists) h r) :
    ((∀ i j, r.Loading i → r.Loading j → i = j) ∧
      ∀ s i j, r.Attempting s i → r.Attempting s j → i = j) ∧
    (∀ (past later : History Question.interface) i s a, h = past ++ (i, .ended s (.ok a)) :: later →
      (∀ j, (j, .claimed s) ∉ later) ∧ r.factory.cells.get s = .full a) ∧
    (∀ (past later : History Question.interface) i e,
      h = past ++ (i, .returned (.error e)) :: later →
      (∃ before call s d xs, call.slot? = some s ∧
        past.own i = before ++ Mark.attempt call s d xs ++ [.ended s (.error e)]) ∨
      ∃ before, past.own i = before ++ [.called .document] ∧ e = .notInitialized ∧
        ∀ d, ¬ past.Holds .document d) ∧
    ∀ i reply, (i, .returned (.ok reply)) ∈ h → reply.Shows r.factory.cells := by
  have alone := run.exclusive.alone
  refine ⟨⟨?_, alone⟩, ?_, ?_, ?_⟩
  · intro i j hi hj
    exact alone .document i j (run.attempting_of_loading hi) (run.attempting_of_loading hj)
  · intro past later i s a hm
    exact ⟨run.no_claim_of_ended hm, run.full_of_ended (i := i) (by simp [hm])⟩
  · intro past later i e hm
    exact run.error_returned hm
  · intro i reply hm
    exact run.ok_returned hm

/-- Turns in which one thread fails to load the document while another waits to take over. -/
def takeover : List Nat := [0, 1, 0, 1, 0, 0, 0, 0, 1, 1, 1, 1, 1, 0, 1]

theorem attempts_exclusive_takeover :
    let late := bareDocument fun loads => if loads = 0 then .error (.badSchema "") else .ok {}
    let start := ofCalls 0 [[.start, .isInitialized], [.start]]
    let h := record (Settings.plan {}) late takeover start
    let r := start.play (Settings.plan {}) late takeover
    Run (Settings.plan {}) late (fun _ _ => False) start h r ∧
      r.threads.map (fun t => t.returned.map Outcome.isFailure) = [[true, false], [false]] ∧
      (∀ i j, r.Loading i → r.Loading j → i = j) ∧
      (∀ past later i a, h = past ++ (i, .ended .document (.ok a)) :: later →
        (∀ j, (j, .claimed .document) ∉ later) ∧ r.factory.cells.document = .full a) := by
  intro late start h r
  have run : Run (Settings.plan {}) late (fun _ _ => False) start h r :=
    Run.start.play takeover
  obtain ⟨⟨loading, -⟩, final, -⟩ := attempts_exclusive run
  refine ⟨run, by decide +kernel, loading, ?_⟩
  intro past later i a hm
  exact final past later i .document a hm

end Race

end Provisioning
