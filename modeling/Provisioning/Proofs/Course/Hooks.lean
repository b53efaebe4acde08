import Provisioning.Deployment
import Provisioning.Proofs.Course.Basic
import Provisioning.Proofs.Instantiation
import Provisioning.Proofs.Record

/-!
# The list of hook providers

The hook providers of a document are made one after the other. Either all of them can be made, and they
are kept in the order of the document, or the first that cannot be made gives the error and nothing is
kept; then those after it are not even looked for.
-/

namespace Provisioning

open Dialogue

variable {σ : Type}

def Exchange.resolved? : Exchange Question.interface → Option String
  | ⟨.resolve identifier, _⟩ => some identifier
  | _ => none

/-- Whether an exchange is about making a provider, and is not a remark in the log or a load. -/
def Exchange.isMaking : Exchange Question.interface → Bool
  | ⟨.resolve _, _⟩ => true
  | ⟨.construct _, _⟩ => true
  | ⟨.configure .., _⟩ => true
  | _ => false

def Question.NoResolve (q : Question) : Prop :=
  ∀ identifier, q ≠ .resolve identifier

/-- What came of making the provider of an entry, and what was asked for that. -/
structure Attempt where
  outcome : Except FactoryError Instance
  asked : List (Exchange Question.interface)

def Attempt.failed (a : Attempt) : Bool :=
  match a.outcome with
  | .ok _ => false
  | .error _ => true

def Attempt.journal (a : Attempt) : List (Exchange Question.interface) :=
  a.asked.filter Exchange.isMaking

/-- Attempts to make the providers of some entries, each with what the one before has left. -/
def attemptEach (answering : Answering Question.interface σ) (role : Role) :
    List ProviderEntry → σ → List Attempt
  | [], _ => []
  | entry :: rest, s =>
    ⟨((instantiate role entry).run answering s).1, (instantiate role entry).transcript answering s⟩ ::
      attemptEach answering role rest ((instantiate role entry).run answering s).2

/-- The attempts up to the first that fails. -/
def untilFailure (attempts : List Attempt) : List Attempt :=
  attempts.take (attempts.findIdx Attempt.failed + 1)

/-! ## Single attempts -/

section Attempts

variable {answering : Answering Question.interface σ} {role : Role} {entry : ProviderEntry}

theorem instantiate_resolved (role : Role) (entry : ProviderEntry) (s : σ) :
    ((instantiate role entry).transcript answering s).filterMap Exchange.resolved? =
      [entry.extension] := by
  obtain ⟨next, heq, hnext⟩ := instantiate_eq_ask (P := Question.NoResolve) (fun _ => nofun)
    (fun _ _ => nofun) (fun _ => nofun) role entry
  have hnone : ∀ x ∈ (next (answering (.resolve entry.extension) s).1).transcript answering
      (answering (.resolve entry.extension) s).2, x.resolved? = none := by
    intro x hx
    have hq := (hnext _).transcript _ x hx
    rcases x with ⟨q, a⟩
    cases q with
    | resolve identifier => exact (hq identifier rfl).elim
    | load | construct | configure | note => rfl
  rw [heq]
  exact congrArg (entry.extension :: ·) (List.filterMap_eq_nil_iff.mpr hnone)

theorem length_attemptEach (entries : List ProviderEntry) (s : σ) :
    (attemptEach answering role entries s).length = entries.length := by
  induction entries generalizing s with
  | nil => rfl
  | cons entry rest ih => simp [attemptEach, ih]

theorem getElem?_attemptEach {entries : List ProviderEntry} {s : σ} {i : Nat} {a : Attempt}
    (h : (attemptEach answering role entries s)[i]? = some a) :
    ∃ entry s', entries[i]? = some entry ∧
      a = ⟨((instantiate role entry).run answering s').1,
        (instantiate role entry).transcript answering s'⟩ := by
  induction entries generalizing s i with
  | nil => cases h
  | cons entry rest ih =>
    cases i with
    | zero => exact ⟨entry, s, rfl, (Option.some.inj h).symm⟩
    | succ i => exact ih h

theorem resolved_attemptEach (entries : List ProviderEntry) (s : σ) (n : Nat) :
    (((attemptEach answering role entries s).take n).flatMap Attempt.asked).filterMap
      Exchange.resolved? = (entries.take n).map ProviderEntry.extension := by
  induction entries generalizing s n with
  | nil => simp [attemptEach]
  | cons entry rest ih =>
    cases n with
    | zero => rfl
    | succ n =>
      simp only [attemptEach, List.take_succ_cons, List.flatMap_cons, List.filterMap_append, ih,
        instantiate_resolved, List.map_cons, List.singleton_append]

end Attempts

/-! ## Lists of attempts -/

section Lists

variable {attempts : List Attempt}

theorem untilFailure_cons (a : Attempt) (rest : List Attempt) :
    untilFailure (a :: rest) = a :: if a.failed then [] else untilFailure rest := by
  cases h : a.failed <;> simp [untilFailure, List.findIdx_cons, h]

theorem outcomes_eq {ps : List Instance} (h : attempts.mapM Attempt.outcome = .ok ps) :
    attempts.map Attempt.outcome = ps.map .ok := by
  rw [mapM_eq_ok_iff] at h
  induction h with
  | nil => rfl
  | cons ha _ ih => rw [List.map_cons, List.map_cons, ha, ih]

theorem outcome_findIdx {e : FactoryError} (h : attempts.mapM Attempt.outcome = .error e) :
    ∃ a, attempts[attempts.findIdx Attempt.failed]? = some a ∧ a.outcome = .error e := by
  induction attempts with
  | nil => cases h
  | cons a rest ih =>
    rw [List.mapM_cons] at h
    cases ha : a.outcome with
    | error e' =>
      rw [ha] at h
      cases h
      have hfailed : a.failed = true := by simp [Attempt.failed, ha]
      exact ⟨a, by simp [List.findIdx_cons, hfailed], ha⟩
    | ok p =>
      have hkept : a.failed = false := by simp [Attempt.failed, ha]
      have hrest : rest.mapM Attempt.outcome = .error e := by
        rw [ha] at h
        cases hr : rest.mapM Attempt.outcome with
        | error e' =>
          rw [hr] at h
          cases h
          rfl
        | ok ps =>
          rw [hr] at h
          cases h
      obtain ⟨a', hget, he⟩ := ih hrest
      exact ⟨a', by simpa [List.findIdx_cons, hkept] using hget, he⟩

theorem exists_ok_iff :
    (∃ ps, attempts.mapM Attempt.outcome = .ok ps) ↔ ∀ a ∈ attempts, a.failed = false := by
  constructor
  · rintro ⟨ps, h⟩ a ha
    have hmem : a.outcome ∈ ps.map Except.ok := by
      rw [← outcomes_eq h]
      exact List.mem_map_of_mem ha
    obtain ⟨p, -, hp⟩ := List.mem_map.mp hmem
    simp [Attempt.failed, ← hp]
  · intro hall
    cases h : attempts.mapM Attempt.outcome with
    | ok ps => exact ⟨ps, rfl⟩
    | error e =>
      obtain ⟨a, hget, he⟩ := outcome_findIdx h
      have hkept := hall a (List.mem_of_getElem? hget)
      simp [Attempt.failed, he] at hkept

end Lists

/-! ## All attempts together -/

section Runs

variable {answering : Answering Question.interface σ} {role : Role}

theorem run_instantiateAll (entries : List ProviderEntry) (s : σ) :
    ((instantiateAll role entries).run answering s).1 =
      (attemptEach answering role entries s).mapM Attempt.outcome := by
  induction entries generalizing s with
  | nil => rfl
  | cons entry rest ih =>
    rw [instantiateAll, run_bind, attemptEach, List.mapM_cons, ← ih]
    cases ((instantiate role entry).run answering s).1 with
    | error e => rfl
    | ok p =>
      simp only [run_bind]
      cases ((instantiateAll role rest).run answering ((instantiate role entry).run answering s).2).1 <;>
        rfl

theorem transcript_instantiateAll (entries : List ProviderEntry) (s : σ) :
    (instantiateAll role entries).transcript answering s =
      (untilFailure (attemptEach answering role entries s)).flatMap Attempt.asked := by
  induction entries generalizing s with
  | nil => rfl
  | cons entry rest ih =>
    rw [instantiateAll, transcript_bind, attemptEach, untilFailure_cons, List.flatMap_cons]
    cases h : ((instantiate role entry).run answering s).1 with
    | error e => rfl
    | ok p =>
      simp only [transcript_bind, ih]
      cases ((instantiateAll role rest).run answering ((instantiate role entry).run answering s).2).1 <;>
        simp [transcript, Attempt.failed]

theorem run_makeHooks (entries : List ProviderEntry) (s : σ) :
    ((makeHooks entries).run answering s).1 =
      (attemptEach answering .hook entries s).mapM Attempt.outcome := by
  cases entries with
  | nil => rfl
  | cons entry rest => exact run_instantiateAll (entry :: rest) s

theorem journal_makeHooks (entries : List ProviderEntry) (s : σ) :
    ((makeHooks entries).transcript answering s).filter Exchange.isMaking =
      (untilFailure (attemptEach answering .hook entries s)).flatMap Attempt.journal := by
  cases entries with
  | nil => rfl
  | cons entry rest =>
    rw [makeHooks, transcript_instantiateAll, List.filter_flatMap]
    · rfl
    · nofun

theorem resolved_makeHooks (entries : List ProviderEntry) (s : σ) :
    ((makeHooks entries).transcript answering s).filterMap Exchange.resolved? =
      (entries.take ((attemptEach answering .hook entries s).findIdx Attempt.failed + 1)).map
        ProviderEntry.extension := by
  cases entries with
  | nil => rfl
  | cons entry rest =>
    rw [makeHooks, transcript_instantiateAll, untilFailure, resolved_attemptEach]
    nofun

end Runs

/-! ## Calls -/

namespace Factory

def asked {I : Interface} (plan : Plan I) (answering : Answering I σ) (f : Factory σ) (call : Call) :
    List (Exchange I) :=
  (perform plan (recording answering) ⟨f.cells, f.around, []⟩ call).2.around.2

theorem asked_of_empty {I : Interface} {plan : Plan I} {answering : Answering I σ} {f : Factory σ}
    {s : Slot} (h : f.cells.get s = .empty) :
    f.asked plan answering s.call =
      (plan.fill s f.cells.document.content?).transcript answering f.around := by
  have hp : perform plan (recording answering) ⟨f.cells, f.around, []⟩ s.call = _ :=
    perform_of_empty h
  rw [asked, hp, fill, run_recording]
  rfl

variable (settings : Settings) (answering : Answering Question.interface σ) {f : Factory σ}
  {d : ProvidersDocument}

theorem perform_hookProviders (hd : f.cells.document = .full d) (hh : f.cells.hooks = .empty) :
    let outcome := (attemptEach answering .hook d.hooks f.around).mapM Attempt.outcome
    (f.perform settings.plan answering .hookProviders).1 = outcome.map .providers ∧
      (f.perform settings.plan answering .hookProviders).2.cells = f.cells.settle .hooks outcome := by
  intro outcome
  have hrun : ((settings.plan.fill .hooks f.cells.document.content?).run answering f.around).1 =
      outcome := by
    rw [hd]
    exact run_makeHooks d.hooks f.around
  have hp : f.perform settings.plan answering .hookProviders = _ := perform_of_empty (s := .hooks) hh
  rw [hp, ← hrun]
  exact ⟨rfl, rfl⟩

theorem asked_hookProviders (hd : f.cells.document = .full d) (hh : f.cells.hooks = .empty) :
    f.asked settings.plan answering .hookProviders =
      (makeHooks d.hooks).transcript answering f.around := by
  have hasked : f.asked settings.plan answering .hookProviders = _ :=
    asked_of_empty (s := .hooks) hh
  rw [hasked, hd]
  rfl

theorem hookProviders_ok_iff (hd : f.cells.document = .full d) (hh : f.cells.hooks = .empty) :
    (∃ reply, (f.perform settings.plan answering .hookProviders).1 = .ok reply) ↔
      ∀ a ∈ attemptEach answering .hook d.hooks f.around, a.failed = false := by
  rw [(perform_hookProviders settings answering hd hh).1, ← exists_ok_iff]
  cases (attemptEach answering .hook d.hooks f.around).mapM Attempt.outcome <;> simp [Except.map]

theorem hookProviders_of_ok (hd : f.cells.document = .full d) (hh : f.cells.hooks = .empty)
    {reply : Reply} (h : (f.perform settings.plan answering .hookProviders).1 = .ok reply) :
    ∃ ps, reply = .providers ps ∧ ps.length = d.hooks.length ∧
      (attemptEach answering .hook d.hooks f.around).map Attempt.outcome = ps.map .ok ∧
      (f.perform settings.plan answering .hookProviders).2.cells = f.cells.set .hooks (.full ps) := by
  obtain ⟨houtcome, hcells⟩ := perform_hookProviders settings answering hd hh
  rw [houtcome] at h
  cases ho : (attemptEach answering .hook d.hooks f.around).mapM Attempt.outcome with
  | error e =>
    rw [ho] at h
    cases h
  | ok ps =>
    rw [ho] at h hcells
    cases h
    have hall := outcomes_eq ho
    have hcount : ps.length = d.hooks.length := by
      simpa [length_attemptEach] using (congrArg List.length hall).symm
    exact ⟨ps, rfl, hcount, hall, hcells⟩

theorem hookProviders_of_error (hd : f.cells.document = .full d) (hh : f.cells.hooks = .empty)
    {e : FactoryError} (h : (f.perform settings.plan answering .hookProviders).1 = .error e) :
    let attempts := attemptEach answering .hook d.hooks f.around
    ∃ a, attempts[attempts.findIdx Attempt.failed]? = some a ∧ a.outcome = .error e ∧
      (f.perform settings.plan answering .hookProviders).2.cells = f.cells := by
  intro attempts
  obtain ⟨houtcome, hcells⟩ := perform_hookProviders settings answering hd hh
  rw [houtcome] at h
  cases ho : attempts.mapM Attempt.outcome with
  | ok ps =>
    rw [ho] at h
    cases h
  | error e' =>
    rw [ho] at h hcells
    cases h
    obtain ⟨a, hget, ha⟩ := outcome_findIdx ho
    exact ⟨a, hget, ha, hcells.trans (Cells.settle_error_of_empty (s := .hooks) hh e)⟩

theorem asked_of_full {s : Slot} {a : s.Content} (hs : s ≠ .document)
    (h : f.cells.get s = .full a) : f.asked settings.plan answering s.call = [] := by
  have hp : perform settings.plan (recording answering) ⟨f.cells, f.around, []⟩ s.call = _ :=
    perform_of_full h
  rw [asked, hp]
  cases s with
  | document => exact (hs rfl).elim
  | persistence | hooks => rfl

end Factory

/-! ## Courses -/

namespace Episode

variable {settings : Settings} {answering : Answering Question.interface σ} {e : Episode σ}

def resolved (plan : Plan Question.interface) (answering : Answering Question.interface σ)
    (e : Episode σ) : List String :=
  match e.happening with
  | .call .hookProviders =>
    (e.factory.asked plan answering .hookProviders).filterMap Exchange.resolved?
  | _ => []

/-- The attempts at the entries of a document that make up an attempt to fill the list of hooks. -/
def build? (answering : Answering Question.interface σ) (e : Episode σ) : Option (List Attempt) :=
  match e.happening, e.factory.cells.document, e.factory.cells.hooks with
  | .call .hookProviders, .full d, .empty =>
    some (attemptEach answering .hook d.hooks e.factory.around)
  | _, _, _ => none

theorem build?_of_empty {d : ProvidersDocument} (hc : e.happening = .call .hookProviders)
    (hd : e.factory.cells.document = .full d) (hh : e.factory.cells.hooks = .empty) :
    e.build? answering = some (attemptEach answering .hook d.hooks e.factory.around) := by
  simp [build?, hc, hd, hh]

theorem resolved_of_empty {d : ProvidersDocument} (hc : e.happening = .call .hookProviders)
    (hd : e.factory.cells.document = .full d) (hh : e.factory.cells.hooks = .empty) :
    e.resolved settings.plan answering =
      (d.hooks.take ((attemptEach answering .hook d.hooks e.factory.around).findIdx
        Attempt.failed + 1)).map ProviderEntry.extension := by
  simp only [resolved, hc, Factory.asked_hookProviders settings answering hd hh, resolved_makeHooks]

/-- An episode makes no attempt, looks for nothing and keeps the list of hooks, or it finds a document
and no list. -/
theorem build?_cases (settings : Settings) (answering : Answering Question.interface σ)
    (he : e.factory.cells.Settled) :
    (e.build? answering = none ∧ e.resolved settings.plan answering = [] ∧
        (e.factory.undergo settings.plan answering e.happening).cells.hooks =
          e.factory.cells.hooks) ∨
      ∃ d, e.happening = .call .hookProviders ∧ e.factory.cells.document = .full d ∧
        e.factory.cells.hooks = .empty := by
  rcases e with ⟨f, happening⟩
  cases happening with
  | change turn => exact .inl ⟨rfl, rfl, rfl⟩
  | call call =>
    have spec := Factory.perform_spec settings.plan answering he call
    cases call with
    | start | isInitialized | document | persistenceProvider =>
      exact .inl ⟨rfl, rfl, spec.get_of_ne (s := .hooks) nofun⟩
    | hookProviders =>
      cases hh : f.cells.hooks with
      | claimed => exact (he .hooks hh).elim
      | full ps =>
        have hasked : f.asked settings.plan answering .hookProviders = [] :=
          Factory.asked_of_full settings answering (s := .hooks) nofun hh
        have hp : f.perform settings.plan answering .hookProviders = _ :=
          Factory.perform_of_full (s := .hooks) (a := ps) hh
        refine .inl ⟨by simp [build?, hh], by simp [resolved, hasked], ?_⟩
        rw [Factory.undergo, hp, hh]
      | empty =>
        cases hd : f.cells.document with
        | claimed => exact (he .document hd).elim
        | empty =>
          have hasked : f.asked settings.plan answering .hookProviders = _ :=
            Factory.asked_of_empty (s := .hooks) hh
          have hp : f.perform settings.plan answering .hookProviders = _ :=
            Factory.perform_of_empty (s := .hooks) hh
          have hkept : (f.fill settings.plan answering .hooks).2.cells = f.cells := by
            rw [Factory.fill, hd]
            exact Cells.settle_error_of_empty (s := .hooks) hh .notInitialized
          rw [hd] at hasked
          refine .inl ⟨by simp [build?, hd], by rw [resolved, hasked]; rfl, ?_⟩
          rw [Factory.undergo, hp, hkept, hh]
        | full d => exact .inr ⟨d, rfl, rfl, rfl⟩

end Episode

def succeeded (attempts : List Attempt) : Bool :=
  attempts.all fun a => !a.failed

/-- An entry is attempted once in every attempt at the list that does not fail before it. -/
theorem countP_resolved {settings : Settings} {answering : Answering Question.interface σ}
    {d : ProvidersDocument} {i : Nat} (hi : i < d.hooks.length) {episodes : List (Episode σ)}
    (he : ∀ e ∈ episodes, e.factory.cells.Settled ∧
      ∀ d', e.factory.cells.document = .full d' → d' = d) :
    episodes.countP (fun e => i < (e.resolved settings.plan answering).length) =
      (episodes.filterMap (Episode.build? answering)).countP
          (fun attempts => !succeeded attempts && i ≤ attempts.findIdx Attempt.failed) +
        (episodes.filterMap (Episode.build? answering)).countP succeeded := by
  induction episodes with
  | nil => rfl
  | cons e rest ih =>
    obtain ⟨hsettled, hdoc⟩ := he e List.mem_cons_self
    have hrest := ih fun e' hm => he e' (List.mem_cons_of_mem _ hm)
    rcases e.build?_cases settings answering hsettled with ⟨hb, hr, -⟩ | ⟨d', hc, hd, hh⟩
    · simp [hb, hr, hrest]
    · obtain rfl := hdoc d' hd
      have hb : e.build? answering = _ := e.build?_of_empty hc hd hh
      have hr : e.resolved settings.plan answering = _ := e.resolved_of_empty hc hd hh
      -- entry `i` is reached unless an entry before it fails, and then the list is not filled
      generalize hattempts : attemptEach answering .hook d'.hooks e.factory.around = attempts at hb hr
      have hlength : attempts.length = d'.hooks.length := by
        rw [← hattempts, length_attemptEach]
      have hreached : i < (e.resolved settings.plan answering).length ↔
          i ≤ attempts.findIdx Attempt.failed := by
        rw [hr, List.length_map, List.length_take]
        omega
      rw [List.countP_cons, List.filterMap_cons_some hb, List.countP_cons, List.countP_cons, hrest]
      cases hs : succeeded attempts with
      | false => simp [hreached]; omega
      | true =>
        have hnone : attempts.findIdx Attempt.failed = attempts.length := by
          rw [List.findIdx_eq_length]
          simpa [succeeded] using hs
        have hin : i ≤ attempts.findIdx Attempt.failed := by omega
        simp [hreached, hin]
        omega

theorem succeeded_iff {attempts : List Attempt} :
    succeeded attempts = true ↔ ∃ ps, attempts.mapM Attempt.outcome = .ok ps := by
  simp [exists_ok_iff, succeeded]

theorem undergo_hooks (settings : Settings) (answering : Answering Question.interface σ)
    {f : Factory σ} (hf : f.cells.Settled) (h : Happening σ) :
    (Episode.build? answering ⟨f, h⟩).toList.countP succeeded + f.cells.hooks.content?.isSome.toNat =
      (f.undergo settings.plan answering h).cells.hooks.content?.isSome.toNat := by
  rcases Episode.build?_cases settings answering (e := ⟨f, h⟩) hf with
    ⟨hb, -, hkept⟩ | ⟨d, rfl, hd, hh⟩
  · rw [hb, hkept]
    exact Nat.zero_add _
  · obtain ⟨-, hcells⟩ := Factory.perform_hookProviders settings answering hd hh
    rw [Episode.build?_of_empty rfl hd hh, Factory.undergo, hcells, hh]
    generalize attemptEach answering .hook d.hooks f.around = attempts
    cases ho : attempts.mapM Attempt.outcome with
    | ok ps =>
      have hall : succeeded attempts = true := succeeded_iff.mpr ⟨ps, ho⟩
      simp [hall, Cells.settle, Cells.set, Cell.content?]
    | error e =>
      have hnot : ¬ succeeded attempts = true := fun hall => by
        obtain ⟨ps, hok⟩ := succeeded_iff.mp hall
        rw [ho] at hok
        cases hok
      simp [hnot, Cells.settle, Cells.set, Cell.content?]

theorem countP_succeeded (settings : Settings) (answering : Answering Question.interface σ)
    {f : Factory σ} (hf : f.cells.Settled) (course : List (Happening σ)) :
    ((f.episodes settings.plan answering course).filterMap (Episode.build? answering)).countP
        succeeded + f.cells.hooks.content?.isSome.toNat =
      (f.after settings.plan answering course).cells.hooks.content?.isSome.toNat := by
  induction course generalizing f with
  | nil => exact Nat.zero_add _
  | cons h rest ih =>
    have hstep := undergo_hooks settings answering hf h
    have hrest := ih (Factory.undergo_settled settings.plan answering hf h)
    have hsplit : (f.episodes settings.plan answering (h :: rest)).filterMap
        (Episode.build? answering) = (Episode.build? answering ⟨f, h⟩).toList ++
          ((f.undergo settings.plan answering h).episodes settings.plan answering rest).filterMap
            (Episode.build? answering) := by
      rw [Factory.episodes, List.filterMap_cons]
      cases Episode.build? answering ⟨f, h⟩ <;> rfl
    have hafter : f.after settings.plan answering (h :: rest) =
        (f.undergo settings.plan answering h).after settings.plan answering rest := rfl
    rw [hsplit, List.countP_append, hafter, ← hrest, ← hstep]
    omega

theorem attemptEach_spec {answering : Answering Question.interface σ} {role : Role}
    {entries : List ProviderEntry} {s : σ} {i : Nat} {a : Attempt} {entry : ProviderEntry}
    (ha : (attemptEach answering role entries s)[i]? = some a) (hentry : entries[i]? = some entry) :
    a.asked.filterMap Exchange.resolved? = [entry.extension] ∧
      (∀ p, a.outcome = .ok p →
        ∃ extension, extension.role = role ∧ a.asked = making role entry extension p) ∧
      ∀ e, a.outcome = .error e → ∃ source, e = .creation role entry.extension source := by
  obtain ⟨entry', s', hentry', rfl⟩ := getElem?_attemptEach ha
  obtain rfl : entry' = entry := Option.some.inj (hentry'.symm.trans hentry)
  have hleads := leads_transcript answering (instantiate role entry') s'
  refine ⟨instantiate_resolved role entry' s', ?_, ?_⟩
  · intro p hp
    simp only at hp
    rw [hp] at hleads
    exact instantiate_leads_ok hleads
  · intro e he
    simp only at he
    rw [he] at hleads
    exact instantiate_leads_error hleads

/-- All hook providers are made in the order of the document, or none is kept and nobody looks further
than the first that cannot be made. -/
theorem hook_list_all_or_nothing (settings : Settings) (answering : Answering Question.interface σ) :
    (∀ (f : Factory σ) (d : ProvidersDocument),
      f.cells.document = .full d → f.cells.hooks = .empty →
      let attempts := attemptEach answering .hook d.hooks f.around
      let done := f.perform settings.plan answering .hookProviders
      attempts.length = d.hooks.length ∧
      (∀ (i : Nat) (a : Attempt) (entry : ProviderEntry),
        attempts[i]? = some a → d.hooks[i]? = some entry →
        a.asked.filterMap Exchange.resolved? = [entry.extension] ∧
          (∀ p, a.outcome = .ok p →
            ∃ extension, extension.role = .hook ∧ a.asked = making .hook entry extension p) ∧
          ∀ e, a.outcome = .error e → ∃ source, e = .creation .hook entry.extension source) ∧
      ((∃ reply, done.1 = .ok reply) ↔ ∀ a ∈ attempts, a.failed = false) ∧
      (∀ reply, done.1 = .ok reply →
        ∃ ps, reply = .providers ps ∧ ps.length = d.hooks.length ∧
          attempts.map Attempt.outcome = ps.map .ok ∧
          done.2.cells = f.cells.set .hooks (.full ps)) ∧
      (∀ e, done.1 = .error e →
        ∃ a, attempts[attempts.findIdx Attempt.failed]? = some a ∧ a.outcome = .error e ∧
          done.2.cells = f.cells) ∧
      (f.asked settings.plan answering .hookProviders).filter Exchange.isMaking =
        (untilFailure attempts).flatMap Attempt.journal) ∧
    ∀ (s : σ) (course : List (Happening σ)) (d : ProvidersDocument) (i : Nat),
      let f := (Factory.fresh s).after settings.plan answering course
      let episodes := (Factory.fresh s).episodes settings.plan answering course
      let builds := episodes.filterMap (Episode.build? answering)
      f.cells.document = .full d → i < d.hooks.length →
      (∀ e ∈ episodes, ∃ n,
        e.resolved settings.plan answering = (d.hooks.take n).map ProviderEntry.extension) ∧
      episodes.countP (fun e => i < (e.resolved settings.plan answering).length) =
        builds.countP (fun attempts => !succeeded attempts && i ≤ attempts.findIdx Attempt.failed) +
          builds.countP succeeded ∧
      builds.countP succeeded = f.cells.hooks.content?.isSome.toNat := by
  refine ⟨?_, ?_⟩
  · intro f d hd hh attempts done
    refine ⟨length_attemptEach d.hooks f.around, fun i a entry => attemptEach_spec, ?_, ?_, ?_, ?_⟩
    · exact Factory.hookProviders_ok_iff settings answering hd hh
    · exact fun reply => Factory.hookProviders_of_ok settings answering hd hh
    · exact fun e => Factory.hookProviders_of_error settings answering hd hh
    · rw [Factory.asked_hookProviders settings answering hd hh, journal_makeHooks]
  · intro s course d i f episodes builds hd hi
    have hepisodes : ∀ e ∈ episodes, e.factory.cells.Settled ∧
        e.factory.cells.Within f.cells :=
      fun e => Factory.episode_within settings.plan answering (Factory.fresh_settled s)
    have hdoc : ∀ e ∈ episodes, ∀ d', e.factory.cells.document = .full d' → d' = d := by
      intro e he d' hd'
      exact Cell.full.inj (((hepisodes e he).2 .document d' hd').symm.trans hd)
    refine ⟨?_, countP_resolved hi fun e he => ⟨(hepisodes e he).1, hdoc e he⟩, ?_⟩
    · intro e he
      rcases e.build?_cases settings answering (hepisodes e he).1 with ⟨-, hr, -⟩ | ⟨d', hc, hd', hh⟩
      · exact ⟨0, hr⟩
      · obtain rfl := hdoc e he d' hd'
        exact ⟨_, e.resolved_of_empty hc hd' hh⟩
    · exact countP_succeeded settings answering (Factory.fresh_settled s) course

def threeHooks : ProvidersDocument :=
  ⟨none, [⟨"early", []⟩, ⟨"late", []⟩, ⟨"early", []⟩]⟩

/-- A course in which the second of the hooks becomes known after the first attempt. -/
def secondHookLate : List (Happening (Numbered Deployment)) :=
  let late : Extension := ⟨"late", "", .listener⟩
  [.call .start, .call .hookProviders,
    .change fun n => { n with state := n.state.register late }, .call .hookProviders,
    .call .hookProviders]

theorem hook_list_all_or_nothing_secondHookLate :
    let settings : Settings := {}
    let answering := Deployment.surroundings.answering
    let registry := Registry.register {} ⟨"early", "", .listener⟩
    let s : Numbered Deployment := ⟨0, { source := .fixed threeHooks, registry := registry }⟩
    let f := (Factory.fresh s).after settings.plan answering [.call .start]
    let final := (Factory.fresh s).after settings.plan answering secondHookLate
    let episodes := (Factory.fresh s).episodes settings.plan answering secondHookLate
    f.cells.document = .full threeHooks ∧ f.cells.hooks = .empty ∧
      (f.perform settings.plan answering .hookProviders).1 =
        .error (.creation .hook "late" .extensionNotFound) ∧
      (f.asked settings.plan answering .hookProviders).filter Exchange.isMaking =
        (untilFailure (attemptEach answering .hook threeHooks.hooks f.around)).flatMap
          Attempt.journal ∧
      final.cells.document = .full threeHooks ∧ final.cells.hooks = .full [⟨1⟩, ⟨2⟩, ⟨3⟩] ∧
      episodes.countP (fun e => 1 < (e.resolved settings.plan answering).length) = 2 ∧
      episodes.countP (fun e => 2 < (e.resolved settings.plan answering).length) = 1 := by
  intro settings answering registry s f final episodes
  obtain ⟨hattempt, hcourse⟩ := hook_list_all_or_nothing settings answering
  have hdocument : f.cells.document = .full threeHooks := by decide +kernel
  have hhooks : f.cells.hooks = .empty := by decide +kernel
  have hjournal := (hattempt f threeHooks hdocument hhooks).2.2.2.2.2
  have hfinal : ((Factory.fresh s).after settings.plan answering secondHookLate).cells.document =
      .full threeHooks := by decide +kernel
  have hsecond := (hcourse s secondHookLate threeHooks 1 hfinal (by decide)).2.1
  have hthird := (hcourse s secondHookLate threeHooks 2 hfinal (by decide)).2.1
  refine ⟨hdocument, hhooks, by rfl, hjournal, by decide +kernel, by decide +kernel, ?_, ?_⟩
  · exact hsecond.trans (by decide +kernel)
  · exact hthird.trans (by decide +kernel)

end Provisioning
