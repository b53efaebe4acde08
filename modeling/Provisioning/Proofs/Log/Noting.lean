import Provisioning.Proofs.Context
import Provisioning.Proofs.Course.Lifecycle
import Provisioning.Proofs.Stages

/-!
# What is noted in the log

The log takes down what a factory has noted, and what is told while a document is loaded; nothing else
writes to it. Whoever makes providers has noted that one was made, and right after it that the same one was
configured, as far as these things have succeeded.
-/

namespace Provisioning

open Dialogue

variable {σ : Type}

namespace LogEvent

def isInfo (e : LogEvent) : Bool := e.level = .info

def isLoaded : LogEvent → Bool
  | loaded .. => true
  | _ => false

def isConfigured : LogEvent → Bool
  | configured .. => true
  | _ => false

/-- The events that are there for whoever runs the system. -/
def infos (events : List LogEvent) : List LogEvent :=
  events.filter isInfo

theorem infos_append (events more : List LogEvent) :
    infos (events ++ more) = infos events ++ infos more := List.filter_append ..

end LogEvent

def Exchange.noted : Exchange Question.interface → List LogEvent
  | ⟨.note event, _⟩ => [event]
  | _ => []

def Exchange.isAccepted : Exchange Question.interface → Bool
  | ⟨.configure .., .ok _⟩ => true
  | _ => false

def noting (events : List LogEvent) : List (Exchange Question.interface) :=
  events.map fun event => ⟨.note event, ()⟩

theorem noted_noting (events : List LogEvent) : (noting events).flatMap Exchange.noted = events := by
  rw [noting, List.flatMap_map]
  exact List.flatMap_singleton' events

theorem making_noting (events : List LogEvent) : (noting events).filter Exchange.isMaking = [] := by
  rw [noting, List.filter_map, List.map_eq_nil_iff, List.filter_eq_nil_iff]
  exact fun _ _ => Bool.false_ne_true

theorem accepted_noting (events : List LogEvent) :
    (noting events).countP Exchange.isAccepted = 0 := by
  rw [noting, List.countP_map, List.countP_eq_zero]
  exact fun _ _ => Bool.false_ne_true

/-! ## Loading -/

namespace ProvidersDocument

variable {store : Store} {path : Path} {event : LogEvent}

/-- What the result of a load is announced with: a document with whether it declares a persistence
provider and the number of its hooks, and a failure not at all. -/
def announcement (path : Path) : Except ConfigError ProvidersDocument → List LogEvent
  | .ok d => [.loaded path d.persistence.isSome d.hooks.length]
  | .error _ => []

theorem mem_readTree_events (h : event ∈ (store.readTree path).events) :
    ∃ format, event = .parsing path format := by
  unfold Store.readTree at h
  split at h
  next => cases h
  next text _ =>
    split at h
    next => cases h
    next format _ => exact ⟨format, List.mem_singleton.mp h⟩

theorem infos_readTree (store : Store) (path : Path) :
    LogEvent.infos (store.readTree path).events = [] := by
  refine List.filter_eq_nil_iff.mpr fun event h => ?_
  obtain ⟨format, rfl⟩ := mem_readTree_events h
  exact Bool.false_ne_true

theorem load_events (store : Store) (path : Path) :
    (load store path).events =
      (store.readTree path).events ++ announcement path (load store path).result := by
  unfold load
  dsimp only
  cases (store.readTree path).result with
  | error e => exact (List.append_nil _).symm
  | ok t =>
    dsimp only
    cases interpret path t with
    | error e => exact (List.append_nil _).symm
    | ok d => rfl

theorem infos_announcement (path : Path) (result : Except ConfigError ProvidersDocument) :
    LogEvent.infos (announcement path result) = announcement path result := by
  cases result <;> rfl

theorem infos_load (store : Store) (path : Path) :
    LogEvent.infos (load store path).events = announcement path (load store path).result := by
  rw [load_events, LogEvent.infos_append, infos_readTree, List.nil_append, infos_announcement]

end ProvidersDocument

/-! ## Surroundings that keep a log -/

/-- Surroundings take documents from their files as long as some condition holds, which nobody breaks,
and their log grows by what a load tells and by what is noted. -/
structure Surroundings.KeepsLog (around : Surroundings σ) (fromFiles : σ → Prop)
    (store : σ → Store) (log : σ → List LogEvent) : Prop where
  load (path : Path) {s : σ} (hs : fromFiles s) :
    (around.load path s).1 = (ProvidersDocument.load (store s) path).result ∧
      fromFiles (around.load path s).2 ∧
      log (around.load path s).2 = log s ++ (ProvidersDocument.load (store s) path).events
  resolve (identifier : String) {s : σ} (hs : fromFiles s) :
    fromFiles (around.resolve identifier s).2 ∧ log (around.resolve identifier s).2 = log s
  construct (e : Extension) (p : Instance) {s : σ} (hs : fromFiles s) :
    fromFiles (around.construct e p s).2 ∧ log (around.construct e p s).2 = log s
  configure (p : Instance) (c : Context) {s : σ} (hs : fromFiles s) :
    fromFiles (around.configure p c s).2 ∧ log (around.configure p c s).2 = log s
  note (event : LogEvent) {s : σ} (hs : fromFiles s) :
    fromFiles (around.note event s) ∧ log (around.note event s) = log s ++ [event] ∧
      store (around.note event s) = store s

/-- Deployments do, unless their documents are prescribed. -/
theorem Deployment.keepsLog :
    Deployment.surroundings.KeepsLog (fun d => d.source = .files) Deployment.store
      Deployment.log where
  load path d hd := by
    have hfetch : d.fetch path = ProvidersDocument.load d.store path := by
      simp [fetch, hd]
    exact ⟨congrArg Logged.result hfetch, hd, congrArg (d.log ++ Logged.events ·) hfetch⟩
  resolve identifier d hd := ⟨hd, rfl⟩
  construct e p d hd := by
    simp only [surroundings, Deployment.construct]
    split <;> exact ⟨hd, rfl⟩
  configure p c d hd := by
    simp only [surroundings, Deployment.configure, use]
    split <;> exact ⟨hd, rfl⟩
  note event d hd := ⟨hd, rfl, rfl⟩

namespace Surroundings.KeepsLog

variable {around : Surroundings σ} {fromFiles : σ → Prop} {store : σ → Store}
  {log : σ → List LogEvent}

theorem answering_log (keeps : around.KeepsLog fromFiles store log) {q : Question} (hq : q.NoLoad)
    {n : Numbered σ} (hn : fromFiles n.state) :
    fromFiles (around.answering q n).2.state ∧
      log (around.answering q n).2.state =
        log n.state ++ Exchange.noted ⟨q, (around.answering q n).1⟩ := by
  cases q with
  | load path => exact (hq path rfl).elim
  | resolve identifier =>
    obtain ⟨h, hlog⟩ := keeps.resolve identifier hn
    exact ⟨h, hlog.trans (List.append_nil _).symm⟩
  | construct e =>
    obtain ⟨h, hlog⟩ := keeps.construct e ⟨n.made⟩ hn
    simp only [answering, make]
    split <;> simp_all [Exchange.noted]
  | configure p c =>
    obtain ⟨h, hlog⟩ := keeps.configure p c hn
    exact ⟨h, hlog.trans (List.append_nil _).symm⟩
  | note event =>
    obtain ⟨h, hlog, -⟩ := keeps.note event hn
    exact ⟨h, hlog⟩

theorem run_log (keeps : around.KeepsLog fromFiles store log) {α : Type}
    {w : Dialogue Question.interface α} (hw : w.Asks Question.NoLoad) {n : Numbered σ}
    (hn : fromFiles n.state) :
    fromFiles (w.run around.answering n).2.state ∧
      log (w.run around.answering n).2.state =
        log n.state ++ (w.transcript around.answering n).flatMap Exchange.noted := by
  induction w generalizing n with
  | done a => exact ⟨hn, (List.append_nil _).symm⟩
  | ask q next ih =>
    obtain ⟨hnext, hlog⟩ := keeps.answering_log hw.1 hn
    obtain ⟨hend, hrest⟩ := ih _ (hw.2 _) hnext
    refine ⟨hend, hrest.trans ?_⟩
    rw [hlog, List.append_assoc]
    rfl

theorem run_loadDocument (keeps : around.KeepsLog fromFiles store log) (settings : Settings)
    {n : Numbered σ} (hn : fromFiles n.state) :
    let loaded := ProvidersDocument.load (store n.state) settings.providersFile
    (settings.loadDocument.run around.answering n).1 = loaded.result.mapError .config ∧
      fromFiles (settings.loadDocument.run around.answering n).2.state ∧
      log (settings.loadDocument.run around.answering n).2.state =
        log n.state ++ .loading settings.providersFile :: loaded.events := by
  intro loaded
  obtain ⟨hnote, hnoted, hfiles⟩ := keeps.note (.loading settings.providersFile) hn
  obtain ⟨hanswer, hload, htold⟩ := keeps.load settings.providersFile hnote
  -- the log is written to before the file is read
  rw [hfiles] at hanswer htold
  rw [hnoted, List.append_assoc, List.singleton_append] at htold
  rw [settings.run_loadDocument around n]
  exact ⟨congrArg (Except.mapError FactoryError.config) hanswer, hload, htold⟩

end Surroundings.KeepsLog

/-! ## Making providers -/

namespace ProviderEntry

/-- What is said of an exchange while the provider of an entry is made: that its instance was made, or
that it has accepted its configuration, which has a value for each name that is declared. -/
def remark (role : Role) (entry : ProviderEntry) : Exchange Question.interface → List LogEvent
  | ⟨.construct _, .ok _⟩ => [.instantiated role entry.extension]
  | ⟨.configure .., .ok _⟩ =>
    [.configured role entry.extension (entry.properties.map Property.name).toFinset.card]
  | _ => []

def remarks (role : Role) (entry : ProviderEntry) : Except FactoryError Instance → List LogEvent
  | .ok _ =>
    [.instantiated role entry.extension,
      .configured role entry.extension (entry.properties.map Property.name).toFinset.card]
  | .error (.creation _ _ (.configurationRejected _)) => [.instantiated role entry.extension]
  | .error _ => []

variable {role : Role} {entry : ProviderEntry} {x : Extension} {p : Instance}
  {xs : List (Exchange Question.interface)} {outcome : Except FactoryError Instance}

theorem says_of_configure (h : (configure role entry p).Leads xs (.done outcome)) :
    .instantiated role entry.extension :: xs.flatMap Exchange.noted = entry.remarks role outcome ∧
      .instantiated role entry.extension :: xs.flatMap (entry.remark role) =
        entry.remarks role outcome := by
  obtain ⟨accepted, ys, rfl, hn⟩ := leads_ask_done_iff.mp h
  cases accepted with
  | error refusal =>
    obtain ⟨rfl, ho⟩ := leads_done_iff.mp hn
    cases ho
    exact ⟨rfl, rfl⟩
  | ok =>
    obtain ⟨_, zs, rfl, hd⟩ := leads_ask_done_iff.mp hn
    obtain ⟨rfl, ho⟩ := leads_done_iff.mp hd
    cases ho
    refine ⟨?_, rfl⟩
    rw [Context.size_ofProperties]
    rfl

theorem says_of_construct (h : (construct role entry x).Leads xs (.done outcome)) :
    xs.flatMap Exchange.noted = entry.remarks role outcome ∧
      xs.flatMap (entry.remark role) = entry.remarks role outcome := by
  obtain ⟨made, ys, rfl, hn⟩ := leads_ask_done_iff.mp h
  cases made with
  | error failure =>
    obtain ⟨rfl, ho⟩ := leads_done_iff.mp hn
    cases ho
    exact ⟨rfl, rfl⟩
  | ok p =>
    obtain ⟨_, zs, rfl, hc⟩ := leads_ask_done_iff.mp hn
    exact says_of_configure hc

/-- What is noted while the provider of an entry is made, is what is to be said of each exchange, and
what is to be said of the outcome. -/
theorem says_of_leads (h : (instantiate role entry).Leads xs (.done outcome)) :
    xs.flatMap Exchange.noted = entry.remarks role outcome ∧
      xs.flatMap (entry.remark role) = entry.remarks role outcome := by
  obtain ⟨found, ys, rfl, hn⟩ := leads_ask_done_iff.mp h
  cases found with
  | none =>
    obtain ⟨rfl, ho⟩ := leads_done_iff.mp hn
    cases ho
    exact ⟨rfl, rfl⟩
  | some x =>
    dsimp only at hn
    split at hn
    next => exact (says_of_construct hn :)
    next =>
      obtain ⟨rfl, ho⟩ := leads_done_iff.mp hn
      cases ho
      exact ⟨rfl, rfl⟩

end ProviderEntry

def reportAttempts (role : Role) (entries : List ProviderEntry) (attempts : List Attempt) :
    List LogEvent :=
  (attempts.zip entries).flatMap fun (a, entry) => a.asked.flatMap (entry.remark role)

section Attempts

variable {role : Role} {entries : List ProviderEntry} {attempts : List Attempt} {event : LogEvent}

theorem mem_reportAttempts (h : event ∈ reportAttempts role entries attempts) :
    ∃ entry ∈ entries, event = .instantiated role entry.extension ∨
      event = .configured role entry.extension (entry.properties.map Property.name).toFinset.card := by
  obtain ⟨⟨a, entry⟩, hpair, hsaid⟩ := List.mem_flatMap.mp h
  obtain ⟨exchange, -, hremark⟩ := List.mem_flatMap.mp hsaid
  refine ⟨entry, (List.of_mem_zip hpair).2, ?_⟩
  unfold ProviderEntry.remark at hremark
  split at hremark
  next => exact .inl (List.mem_singleton.mp hremark)
  next => exact .inr (List.mem_singleton.mp hremark)
  next => cases hremark

theorem infos_reportAttempts (role : Role) (entries : List ProviderEntry) (attempts : List Attempt) :
    LogEvent.infos (reportAttempts role entries attempts) = reportAttempts role entries attempts := by
  refine List.filter_eq_self.mpr fun event h => ?_
  obtain ⟨entry, -, rfl | rfl⟩ := mem_reportAttempts h <;> rfl

theorem countP_loaded_reportAttempts (role : Role) (entries : List ProviderEntry)
    (attempts : List Attempt) :
    (reportAttempts role entries attempts).countP LogEvent.isLoaded = 0 := by
  refine List.countP_eq_zero.mpr fun event h => ?_
  obtain ⟨entry, -, rfl | rfl⟩ := mem_reportAttempts h <;> exact Bool.false_ne_true

theorem countP_remarks (role : Role) (entry : ProviderEntry) (xs : List (Exchange Question.interface)) :
    (xs.flatMap (entry.remark role)).countP LogEvent.isConfigured =
      xs.countP Exchange.isAccepted := by
  induction xs with
  | nil => rfl
  | cons x xs ih =>
    have hone : (entry.remark role x).countP LogEvent.isConfigured = if x.isAccepted then 1 else 0 := by
      rcases x with ⟨q, a⟩
      cases q with
      | construct e => cases a <;> rfl
      | configure p c => cases a <;> rfl
      | load | resolve | note => rfl
    rw [List.flatMap_cons, List.countP_append, List.countP_cons, ih, hone, Nat.add_comm]

theorem countP_configured_reportAttempts (h : attempts.length ≤ entries.length) :
    (reportAttempts role entries attempts).countP LogEvent.isConfigured =
      (attempts.flatMap Attempt.asked).countP Exchange.isAccepted := by
  induction attempts generalizing entries with
  | nil => simp [reportAttempts]
  | cons a rest ih =>
    cases entries with
    | nil => simp at h
    | cons entry entries =>
      have hrest := ih (Nat.le_of_succ_le_succ h)
      have hcons : reportAttempts role (entry :: entries) (a :: rest) =
          a.asked.flatMap (entry.remark role) ++ reportAttempts role entries rest := rfl
      rw [hcons, List.flatMap_cons, List.countP_append, List.countP_append, countP_remarks, hrest]

theorem noted_attemptEach (answering : Answering Question.interface σ) (role : Role)
    (entries : List ProviderEntry) (s : σ) :
    ((untilFailure (attemptEach answering role entries s)).flatMap Attempt.asked).flatMap
        Exchange.noted =
      reportAttempts role entries (untilFailure (attemptEach answering role entries s)) := by
  induction entries generalizing s with
  | nil => rfl
  | cons entry rest ih =>
    have hsays := ProviderEntry.says_of_leads (leads_transcript answering (instantiate role entry) s)
    rw [attemptEach, untilFailure_cons, List.flatMap_cons, List.flatMap_append, hsays.1, ← hsays.2]
    split
    next => simp [reportAttempts]
    next =>
      rw [ih]
      rfl

end Attempts

end Provisioning
