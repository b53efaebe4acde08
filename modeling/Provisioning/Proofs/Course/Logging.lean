import Provisioning.Proofs.Log.Noting

/-!
# What the log tells of a course

The events of a course that are there for whoever runs the system mirror what has happened: the document is
announced once, by the start that loads it, and each attempt to make a provider is told of as far as it got.
Nothing is told of what is there already.
-/

namespace Provisioning

open Dialogue

variable {σ : Type}

namespace Slot

def attempts (answering : Answering Question.interface σ) (s : Slot) (d : ProvidersDocument)
    (around : σ) : List Attempt :=
  untilFailure (attemptEach answering s.role (s.entries d) around)

def report (answering : Answering Question.interface σ) (s : Slot) (d : ProvidersDocument)
    (around : σ) : List LogEvent :=
  reportAttempts s.role (s.entries d) (s.attempts answering d around)

def preface : Slot → ProvidersDocument → List LogEvent
  | .hooks, ⟨_, []⟩ => [.noHooks]
  | _, _ => []

variable {answering : Answering Question.interface σ} {s : Slot} {d : ProvidersDocument} {around : σ}

theorem infos_preface (s : Slot) (d : ProvidersDocument) : LogEvent.infos (s.preface d) = [] := by
  unfold preface
  split <;> rfl

theorem length_attempts_le : (s.attempts answering d around).length ≤ (s.entries d).length := by
  rw [attempts, untilFailure, List.length_take, length_attemptEach]
  exact Nat.min_le_right ..

theorem countP_configured_report :
    (s.report answering d around).countP LogEvent.isConfigured =
      ((s.attempts answering d around).flatMap Attempt.asked).countP Exchange.isAccepted :=
  countP_configured_reportAttempts length_attempts_le

theorem transcript_fill (settings : Settings) (answering : Answering Question.interface σ)
    (hs : s ≠ .document) (d : ProvidersDocument) (around : σ) :
    (settings.plan.fill s (some d)).transcript answering around =
      noting (s.preface d) ++ (s.attempts answering d around).flatMap Attempt.asked := by
  cases s with
  | document => exact (hs rfl).elim
  | persistence =>
    rcases d with ⟨_ | entry, hooks⟩
    · rfl
    · have hone : ∀ a : Attempt, untilFailure [a] = [a] := by
        intro a
        rw [untilFailure_cons]
        split <;> rfl
      simp only [attempts, entries, Option.toList_some, attemptEach, hone, List.flatMap_singleton]
      rfl
  | hooks =>
    rcases d with ⟨entry, _ | ⟨hook, hooks⟩⟩
    · rfl
    · exact transcript_instantiateAll (hook :: hooks) around

theorem noted_fill (settings : Settings) (answering : Answering Question.interface σ)
    (hs : s ≠ .document) (d : ProvidersDocument) (around : σ) :
    ((settings.plan.fill s (some d)).transcript answering around).flatMap Exchange.noted =
      s.preface d ++ s.report answering d around := by
  rw [transcript_fill settings answering hs, List.flatMap_append, noted_noting]
  exact congrArg (s.preface d ++ ·) (noted_attemptEach answering s.role (s.entries d) around)

theorem accepted_fill (settings : Settings) (answering : Answering Question.interface σ)
    (hs : s ≠ .document) (d : ProvidersDocument) (around : σ) :
    ((settings.plan.fill s (some d)).transcript answering around).countP Exchange.isAccepted =
      (s.report answering d around).countP LogEvent.isConfigured := by
  rw [transcript_fill settings answering hs, List.countP_append, accepted_noting, Nat.zero_add,
    countP_configured_report]

end Slot

/-- The events that a call may write to the log. They tell of the file, of roles and extensions that the
document declares and of how many there are of something, and of no property. -/
inductive LogEvent.Tells (settings : Settings) (d : Option ProvidersDocument) : LogEvent → Prop
  | loading : Tells settings d (.loading settings.providersFile)
  | parsing (format : Format) : Tells settings d (.parsing settings.providersFile format)
  | loaded (persistence : Bool) (hooks : Nat) :
    Tells settings d (.loaded settings.providersFile persistence hooks)
  | alreadyInitialized : Tells settings d .alreadyInitialized
  | noHooks : Tells settings d .noHooks
  | instantiated {doc : ProvidersDocument} {s : Slot} {entry : ProviderEntry} (hd : d = some doc)
      (h : entry ∈ s.entries doc) : Tells settings d (.instantiated s.role entry.extension)
  | configured {doc : ProvidersDocument} {s : Slot} {entry : ProviderEntry} (hd : d = some doc)
      (h : entry ∈ s.entries doc) :
    Tells settings d
      (.configured s.role entry.extension (entry.properties.map Property.name).toFinset.card)

section Tells

variable {settings : Settings} {d : Option ProvidersDocument} {event : LogEvent}

theorem tells_of_load {store : Store}
    (h : event ∈ (ProvidersDocument.load store settings.providersFile).events) :
    event.Tells settings d := by
  rw [ProvidersDocument.load_events] at h
  rcases List.mem_append.mp h with hread | hannounced
  · obtain ⟨format, rfl⟩ := ProvidersDocument.mem_readTree_events hread
    exact .parsing format
  · unfold ProvidersDocument.announcement at hannounced
    split at hannounced
    next =>
      rw [List.mem_singleton.mp hannounced]
      exact .loaded _ _
    next => cases hannounced

theorem tells_of_fill {answering : Answering Question.interface σ} {s : Slot}
    {doc : ProvidersDocument} {around : σ} (hd : d = some doc)
    (h : event ∈ s.preface doc ++ s.report answering doc around) : event.Tells settings d := by
  rcases List.mem_append.mp h with hpreface | hreport
  · unfold Slot.preface at hpreface
    split at hpreface
    next =>
      rw [List.mem_singleton.mp hpreface]
      exact .noHooks
    next => cases hpreface
  · obtain ⟨entry, hentry, rfl | rfl⟩ := mem_reportAttempts hreport
    · exact .instantiated hd hentry
    · exact .configured hd hentry

end Tells

def Question.NoConfigure (q : Question) : Prop :=
  ∀ p c, q ≠ .configure p c

namespace Factory

/-- What is said of a call: a start without a document announces the one that it loads, and a call that
finds a document and an empty cell is told of by its attempts. -/
def report (settings : Settings) (answering : Answering Question.interface (Numbered σ))
    (store : σ → Store) (f : Factory (Numbered σ)) (call : Call) : List LogEvent :=
  match call.slot? with
  | none => []
  | some .document =>
    if f.isInitialized then []
    else ProvidersDocument.announcement settings.providersFile
      (ProvidersDocument.load (store f.around.state) settings.providersFile).result
  | some s =>
    match f.cells.document with
    | .full d => if (f.cells.get s).content?.isSome then [] else s.report answering d f.around
    | _ => []

section Reports

variable {settings : Settings} {answering : Answering Question.interface (Numbered σ)}
  {store : σ → Store} {f : Factory (Numbered σ)} {s : Slot}

theorem report_of_glance {call : Call} {outcome : Outcome} (h : f.glance? call = some outcome) :
    f.report settings answering store call = [] := by
  cases call with
  | start | persistenceProvider | hookProviders => cases h
  | isInitialized | document => rfl

theorem report_start_of_empty (h : f.cells.document = .empty) :
    f.report settings answering store .start =
      ProvidersDocument.announcement settings.providersFile
        (ProvidersDocument.load (store f.around.state) settings.providersFile).result := by
  simp [report, Call.slot?, isInitialized, h, Cell.content?]

theorem report_of_full {a : s.Content} (h : f.cells.get s = .full a) :
    f.report settings answering store s.call = [] := by
  cases s with
  | document =>
    have hi : f.isInitialized = true := isInitialized_eq_true_iff.mpr ⟨a, h⟩
    simp [report, Slot.call, Call.slot?, hi]
  | persistence | hooks =>
    simp only [report, Slot.call, Call.slot?, h, Cell.content?, Option.isSome_some, if_true]
    split <;> rfl

theorem report_of_unstarted (hs : s ≠ .document) (h : f.cells.document = .empty) :
    f.report settings answering store s.call = [] := by
  cases s with
  | document => exact (hs rfl).elim
  | persistence | hooks => simp [report, Slot.call, Call.slot?, h]

theorem report_of_empty (hs : s ≠ .document) {d : ProvidersDocument}
    (hd : f.cells.document = .full d) (h : f.cells.get s = .empty) :
    f.report settings answering store s.call = s.report answering d f.around := by
  cases s with
  | document => exact (hs rfl).elim
  | persistence | hooks => simp [report, Slot.call, Call.slot?, hd, h, Cell.content?]

end Reports

/-! ## What calls write -/

section Writing

variable {around : Surroundings σ} {fromFiles : σ → Prop} {store : σ → Store}
  {log : σ → List LogEvent} {settings : Settings} {f : Factory (Numbered σ)} {s : Slot}

theorem fill_of_unstarted (settings : Settings) (hs : s ≠ .document) :
    settings.plan.fill s none = .done (.error .notInitialized) := by
  cases s with
  | document => exact (hs rfl).elim
  | persistence | hooks => rfl

theorem fill_log (settings : Settings) (keeps : around.KeepsLog fromFiles store log)
    (hn : fromFiles f.around.state) (hf : f.cells.Settled) (h : f.cells.get s = .empty) :
    let ran := (settings.plan.fill s f.cells.document.content?).run around.answering f.around
    fromFiles ran.2.state ∧ ∃ told, log ran.2.state = log f.around.state ++ told ∧
      LogEvent.infos told = f.report settings around.answering store s.call ∧
      ∀ event ∈ told, event.Tells settings f.cells.document.content? := by
  intro ran
  by_cases hs : s = .document
  · subst hs
    obtain ⟨-, hkept, hlog⟩ := keeps.run_loadDocument settings hn
    refine ⟨hkept, _, hlog, ?_, ?_⟩
    · rw [Slot.call, report_start_of_empty h, ← ProvidersDocument.infos_load]
      rfl
    · intro event hevent
      rcases List.mem_cons.mp hevent with rfl | hload
      · exact .loading
      · exact tells_of_load hload
  · cases hd : f.cells.document with
    | claimed => exact (hf .document hd).elim
    | empty =>
      have hran : ran = (.error .notInitialized, f.around) := by
        simp only [ran, hd, Cell.content?, fill_of_unstarted settings hs, run]
      rw [hran, report_of_unstarted hs hd]
      exact ⟨hn, [], (List.append_nil _).symm, rfl, List.forall_mem_nil _⟩
    | full d =>
      have hran : ran = (settings.plan.fill s (some d)).run around.answering f.around := by
        simp only [ran, hd, Cell.content?]
      obtain ⟨hkept, hlog⟩ := keeps.run_log (settings.fill_asks hs (some d)) hn
      rw [Slot.noted_fill settings around.answering hs] at hlog
      rw [hran, report_of_empty hs hd h]
      refine ⟨hkept, _, hlog, ?_, fun event hevent => tells_of_fill rfl hevent⟩
      rw [LogEvent.infos_append, Slot.infos_preface, List.nil_append]
      exact infos_reportAttempts ..

/-- A call writes what is to be said of it, and beside that nothing that is there for whoever runs the
system. -/
theorem perform_log (settings : Settings) (keeps : around.KeepsLog fromFiles store log)
    (hn : fromFiles f.around.state) (hf : f.cells.Settled) (call : Call) :
    let f' := (f.perform settings.plan around.answering call).2
    fromFiles f'.around.state ∧ ∃ told, log f'.around.state = log f.around.state ++ told ∧
      LogEvent.infos told = f.report settings around.answering store call ∧
      ∀ event ∈ told, event.Tells settings f.cells.document.content? := by
  intro f'
  have spec : Performs settings.plan around.answering f call _ f' := perform_spec _ _ hf call
  generalize (f.perform settings.plan around.answering call).1 = outcome, f' = f' at spec
  cases spec with
  | glance h =>
    rw [report_of_glance h]
    exact ⟨hn, [], (List.append_nil _).symm, rfl, List.forall_mem_nil _⟩
  | @share s a h =>
    rw [report_of_full h]
    cases s with
    | document =>
      obtain ⟨hkept, hlog, -⟩ := keeps.note .alreadyInitialized hn
      refine ⟨hkept, [.alreadyInitialized], hlog, rfl, fun event hevent => ?_⟩
      rw [List.mem_singleton.mp hevent]
      exact .alreadyInitialized
    | persistence | hooks =>
      exact ⟨hn, [], (List.append_nil _).symm, rfl, List.forall_mem_nil _⟩
  | @attempt s outcome around' h run =>
    have hfill := fill_log settings keeps hn hf h
    rw [run] at hfill
    exact hfill

theorem journal_of_empty (settings : Settings)
    (answering : Answering Question.interface (Numbered σ)) (hs : s ≠ .document)
    {d : ProvidersDocument} (hd : f.cells.document = .full d) (h : f.cells.get s = .empty) :
    (f.asked settings.plan answering s.call).filter Exchange.isMaking =
      (s.attempts answering d f.around).flatMap Attempt.journal := by
  have hasked := Slot.transcript_fill settings answering hs d f.around
  rw [asked_of_empty h, hd, Cell.content?, hasked, List.filter_append, making_noting, List.nil_append,
    List.filter_flatMap]
  rfl

theorem report_eq_nil_or (hs : s ≠ .document) (hf : f.cells.Settled)
    (answering : Answering Question.interface (Numbered σ)) :
    f.report settings answering store s.call = [] ∨
      ∃ d, f.report settings answering store s.call = s.report answering d f.around := by
  cases hc : f.cells.get s with
  | claimed => exact (hf s hc).elim
  | full a => exact .inl (report_of_full hc)
  | empty =>
    cases hd : f.cells.document with
    | claimed => exact (hf .document hd).elim
    | empty => exact .inl (report_of_unstarted hs hd)
    | full d => exact .inr ⟨d, report_of_empty hs hd hc⟩

theorem perform_announces (settings : Settings) (keeps : around.KeepsLog fromFiles store log)
    (hn : fromFiles f.around.state) (hf : f.cells.Settled) (call : Call) :
    (f.report settings around.answering store call).countP LogEvent.isLoaded +
        f.isInitialized.toNat =
      (f.perform settings.plan around.answering call).2.isInitialized.toNat := by
  have spec := perform_spec settings.plan around.answering hf call
  generalize f.perform settings.plan around.answering call = done at spec
  rcases done with ⟨outcome, f'⟩
  dsimp only at spec ⊢
  cases spec with
  | glance h =>
    rw [report_of_glance h]
    exact Nat.zero_add _
  | share h =>
    rw [report_of_full h]
    exact Nat.zero_add _
  | @attempt s outcome around' h run =>
    by_cases hs : s = .document
    · subst hs
      have hloaded := (keeps.run_loadDocument settings hn).1
      change settings.loadDocument.run around.answering f.around = _ at run
      rw [run] at hloaded
      dsimp only at hloaded
      have hi : f.isInitialized = false := (isInitialized_eq_false_iff hf).mpr h
      rw [hi, Slot.call, report_start_of_empty h, hloaded]
      cases (ProvidersDocument.load (store f.around.state) settings.providersFile).result <;> rfl
    · have hd : (f.cells.settle s outcome).document = f.cells.document :=
        f.cells.get_settle_of_ne outcome (Ne.symm hs)
      have hnone : (f.report settings around.answering store s.call).countP LogEvent.isLoaded = 0 := by
        rcases report_eq_nil_or hs hf around.answering with hnil | ⟨d, hreport⟩
        · rw [hnil]
          rfl
        · rw [hreport]
          exact countP_loaded_reportAttempts ..
      rw [hnone, Nat.zero_add, isInitialized, isInitialized, hd]

theorem countP_configured_load (settings : Settings)
    (answering : Answering Question.interface (Numbered σ)) (n : Numbered σ)
    (result : Except ConfigError ProvidersDocument) :
    (ProvidersDocument.announcement settings.providersFile result).countP LogEvent.isConfigured =
      (settings.loadDocument.transcript answering n).countP Exchange.isAccepted := by
  have hasks : settings.loadDocument.Asks Question.NoConfigure := by
    refine ⟨nofun, fun _ => ⟨nofun, fun loaded => ?_⟩⟩
    cases loaded <;> trivial
  have hnone : (settings.loadDocument.transcript answering n).countP Exchange.isAccepted = 0 := by
    refine List.countP_eq_zero.mpr fun x hx haccepted => ?_
    have hq := hasks.transcript n x hx
    rcases x with ⟨q, a⟩
    cases q with
    | configure p c => exact hq p c rfl
    | load | resolve | construct | note => cases haccepted
  rw [hnone]
  cases result <;> rfl

/-- A call reports as many configurations as providers have accepted while it lasted. -/
theorem countP_configured_report (settings : Settings)
    (answering : Answering Question.interface (Numbered σ)) (store : σ → Store)
    (hf : f.cells.Settled) (call : Call) :
    (f.report settings answering store call).countP LogEvent.isConfigured =
      (f.asked settings.plan answering call).countP Exchange.isAccepted := by
  cases hc : call.slot? with
  | none =>
    cases call with
    | start | persistenceProvider | hookProviders => cases hc
    | isInitialized | document => rfl
  | some s =>
    obtain rfl := Call.slot?_eq_some_iff.mp hc
    cases hcell : f.cells.get s with
    | claimed => exact (hf s hcell).elim
    | full a =>
      rw [report_of_full hcell]
      by_cases hs : s = .document
      · subst hs
        have hp : perform settings.plan (recording answering) ⟨f.cells, f.around, []⟩
          Slot.document.call = _ := perform_of_full (s := .document) hcell
        rw [asked, hp]
        rfl
      · rw [asked_of_full settings answering hs hcell]
        rfl
    | empty =>
      rw [asked_of_empty hcell]
      by_cases hs : s = .document
      · subst hs
        rw [Slot.call, report_start_of_empty hcell]
        exact countP_configured_load settings answering f.around _
      · cases hd : f.cells.document with
        | claimed => exact (hf .document hd).elim
        | empty =>
          have hwork : settings.plan.fill s (Cell.content? .empty) = _ :=
            fill_of_unstarted settings hs
          rw [report_of_unstarted hs hd, hwork]
          rfl
        | full d =>
          rw [report_of_empty hs hd hcell]
          exact (Slot.accepted_fill settings answering hs d f.around).symm

end Writing

end Factory

/-! ## Courses -/

def Episode.asked (plan : Plan Question.interface) (answering : Answering Question.interface σ)
    (e : Episode σ) : List (Exchange Question.interface) :=
  match e.happening with
  | .call call => e.factory.asked plan answering call
  | .change _ => []

def Episode.report (settings : Settings) (answering : Answering Question.interface (Numbered σ))
    (store : σ → Store) (e : Episode (Numbered σ)) : List LogEvent :=
  match e.happening with
  | .call call => e.factory.report settings answering store call
  | .change _ => []

/-- Changes keep the condition, and write nothing to the log that is there for whoever runs the system. -/
def Happening.LeavesInfos (fromFiles : σ → Prop) (log : σ → List LogEvent) :
    Happening (Numbered σ) → Prop
  | .call _ => True
  | .change turn => ∀ n, fromFiles n.state → fromFiles (turn n).state ∧
      LogEvent.infos (log (turn n).state) = LogEvent.infos (log n.state)

namespace Factory

section Course

variable {around : Surroundings σ} {fromFiles : σ → Prop} {store : σ → Store}
  {log : σ → List LogEvent} {settings : Settings} {f : Factory (Numbered σ)}
  {course : List (Happening (Numbered σ))}

theorem undergo_log (settings : Settings) (keeps : around.KeepsLog fromFiles store log)
    (hn : fromFiles f.around.state) (hf : f.cells.Settled) {h : Happening (Numbered σ)}
    (hh : h.LeavesInfos fromFiles log) :
    let f' := f.undergo settings.plan around.answering h
    let report := Episode.report settings around.answering store ⟨f, h⟩
    fromFiles f'.around.state ∧
      LogEvent.infos (log f'.around.state) = LogEvent.infos (log f.around.state) ++ report ∧
      report.countP LogEvent.isLoaded + f.isInitialized.toNat = f'.isInitialized.toNat ∧
      report.countP LogEvent.isConfigured =
        (Episode.asked settings.plan around.answering ⟨f, h⟩).countP Exchange.isAccepted := by
  intro f' report
  cases h with
  | change turn =>
    obtain ⟨hkept, hlog⟩ := hh f.around hn
    exact ⟨hkept, hlog.trans (List.append_nil _).symm, Nat.zero_add _, rfl⟩
  | call call =>
    obtain ⟨hkept, told, hlog, hinfos, -⟩ := perform_log settings keeps hn hf call
    refine ⟨hkept, ?_, perform_announces settings keeps hn hf call,
      countP_configured_report settings around.answering store hf call⟩
    have hreport : report = LogEvent.infos told := hinfos.symm
    rw [hreport, ← LogEvent.infos_append, ← hlog]
    rfl

theorem after_log (settings : Settings) (keeps : around.KeepsLog fromFiles store log)
    (hn : fromFiles f.around.state) (hf : f.cells.Settled)
    (hc : ∀ h ∈ course, h.LeavesInfos fromFiles log) :
    let f' := f.after settings.plan around.answering course
    let episodes := f.episodes settings.plan around.answering course
    let report := episodes.flatMap (Episode.report settings around.answering store)
    fromFiles f'.around.state ∧
      LogEvent.infos (log f'.around.state) = LogEvent.infos (log f.around.state) ++ report ∧
      report.countP LogEvent.isLoaded + f.isInitialized.toNat = f'.isInitialized.toNat ∧
      report.countP LogEvent.isConfigured =
        (episodes.flatMap (Episode.asked settings.plan around.answering)).countP
          Exchange.isAccepted := by
  induction course generalizing f with
  | nil => exact ⟨hn, (List.append_nil _).symm, Nat.zero_add _, rfl⟩
  | cons h rest ih =>
    obtain ⟨hkept, hlog, hloaded, hconfigured⟩ :=
      undergo_log settings keeps hn hf (hc h List.mem_cons_self)
    have hnext := undergo_settled settings.plan around.answering hf h
    obtain ⟨hend, hlogs, hloads, hconfigures⟩ :=
      ih hkept hnext fun h' hm => hc h' (List.mem_cons_of_mem _ hm)
    have hafter : f.after settings.plan around.answering (h :: rest) =
        (f.undergo settings.plan around.answering h).after settings.plan around.answering rest := rfl
    dsimp only
    rw [hafter, episodes, List.flatMap_cons, List.flatMap_cons, List.countP_append,
      List.countP_append, List.countP_append]
    refine ⟨hend, ?_, by omega, by omega⟩
    rw [hlogs, hlog, List.append_assoc]

/-- Those who read the log learn what has happened: which document was loaded, and how far the making of
each provider got, once and in order. -/
theorem log_tells_truth (settings : Settings) (keeps : around.KeepsLog fromFiles store log) {s : σ}
    (hs : fromFiles s) (hc : ∀ h ∈ course, h.LeavesInfos fromFiles log) :
    let plan := settings.plan
    let answering := around.answering
    let begin : Factory (Numbered σ) := fresh ⟨0, s⟩
    let f := begin.after plan answering course
    let episodes := begin.episodes plan answering course
    let told := episodes.flatMap (Episode.report settings answering store)
    LogEvent.infos (log f.around.state) = LogEvent.infos (log s) ++ told ∧
      told.countP LogEvent.isLoaded = f.isInitialized.toNat ∧
      told.countP LogEvent.isConfigured =
        (episodes.flatMap (Episode.asked plan answering)).countP Exchange.isAccepted ∧
      (∀ (cell : Slot) (d : ProvidersDocument), cell ≠ .document → f.cells.document = .full d →
        f.cells.get cell = .empty →
        (f.asked plan answering cell.call).filter Exchange.isMaking =
          (cell.attempts answering d f.around).flatMap Attempt.journal) ∧
      (∀ role entry n,
        let work := instantiate role entry
        Stages role entry ((work.transcript answering n).filter Exchange.isMaking)
            (work.run answering n).1 ∧
          (work.transcript answering n).flatMap (entry.remark role) =
            entry.remarks role (work.run answering n).1) ∧
      (∀ call, ∃ more,
        log (f.perform plan answering call).2.around.state = log f.around.state ++ more ∧
          LogEvent.infos more = f.report settings answering store call ∧
          ∀ event ∈ more, event.Tells settings f.cells.document.content?) ∧
      (f.isInitialized = true → log (f.perform plan answering .start).2.around.state =
        log f.around.state ++ [.alreadyInitialized]) ∧
      ∀ (cell : Slot) (a : cell.Content), cell ≠ .document → f.cells.get cell = .full a →
        (f.perform plan answering cell.call).2 = f := by
  intro plan answering begin f episodes told
  have hsettled : f.cells.Settled := after_settled plan answering (fresh_settled _) course
  obtain ⟨hkept, hlog, hloaded, hconfigured⟩ :=
    after_log settings keeps (f := begin) hs (fresh_settled _) hc
  refine ⟨hlog, hloaded, hconfigured, ?_, ?_, ?_, ?_, ?_⟩
  · intro cell d hcell hd hempty
    exact journal_of_empty settings answering hcell hd hempty
  · intro role entry n work
    have hleads := leads_transcript answering work n
    exact ⟨.of_leads hleads, (ProviderEntry.says_of_leads hleads).2⟩
  · intro call
    exact (perform_log settings keeps hkept hsettled call).2
  · intro hi
    obtain ⟨d, hd⟩ := isInitialized_eq_true_iff.mp hi
    have hp : f.perform plan answering .start = _ := perform_of_full (s := .document) (a := d) hd
    rw [hp]
    exact (keeps.note .alreadyInitialized hkept).2.1
  · intro cell a hcell hfull
    rw [perform_of_full hfull]
    cases cell with
    | document => exact (hcell rfl).elim
    | persistence | hooks => rfl

theorem infos_register (d : Deployment) (e : Extension) :
    LogEvent.infos (d.register e).log = LogEvent.infos d.log := by
  have hnone : LogEvent.infos (d.registry.registering e) = [] := by
    unfold Registry.registering
    split <;> rfl
  have hlog : (d.register e).log = d.log ++ d.registry.registering e := rfl
  rw [hlog, LogEvent.infos_append, hnone, List.append_nil]

def registering (e : Extension) : Happening (Numbered Deployment) :=
  .change fun n => { n with state := n.state.register e }

/-- The second of two hooks is not known at first, refuses its configuration then, and accepts it in the
end; before all that, the document is asked for too early. -/
def retried : List (Happening (Numbered Deployment)) :=
  let text := "\x7b\"hook_provider\":[\x7b\"extension\":\"a\"," ++
    "\"property\":[\x7b\"name\":\"x\",\"value\":\"1\"\x7d]\x7d,\x7b\"extension\":\"b\"\x7d]\x7d"
  [.call .start, .call .hookProviders, rewriting (.ofString "d.json") (some text), .call .start,
    .call .hookProviders, registering ⟨"b", "", .scripted .hook { required := ["x"] }⟩,
    .call .hookProviders, registering ⟨"b", "", .listener⟩, .call .hookProviders, .call .start]

theorem log_tells_truth_retried :
    let settings : Settings := ⟨.ofString "d.json"⟩
    let answering := Deployment.surroundings.answering
    let registry := Registry.register {} ⟨"a", "", .listener⟩
    let f := (fresh ⟨0, { registry := registry }⟩).after settings.plan answering retried
    (∀ h ∈ retried, h.LeavesInfos (fun d => d.source = .files) Deployment.log) ∧
      LogEvent.infos f.around.state.log =
        [.loaded settings.providersFile false 2,
          .instantiated .hook "a", .configured .hook "a" 1,
          .instantiated .hook "a", .configured .hook "a" 1, .instantiated .hook "b",
          .instantiated .hook "a", .configured .hook "a" 1, .instantiated .hook "b",
          .configured .hook "b" 0] ∧
      (f.perform settings.plan answering .hookProviders).2 = f ∧
      (f.perform settings.plan answering .start).2.around.state.log =
        f.around.state.log ++ [.alreadyInitialized] := by
  have hcourse : ∀ h ∈ retried, h.LeavesInfos (fun d => d.source = .files) Deployment.log := by
    intro h hm
    simp only [retried, List.mem_cons, List.not_mem_nil, or_false] at hm
    rcases hm with rfl | rfl | rfl | rfl | rfl | rfl | rfl | rfl | rfl | rfl
    all_goals first
      | trivial
      | exact fun n hn => ⟨hn, infos_register ..⟩
      | exact fun n hn => ⟨hn, rfl⟩
  dsimp only
  obtain ⟨hlog, -, -, -, -, -, hagain, hcached⟩ :=
    log_tells_truth (s := { registry := Registry.register {} ⟨"a", "", .listener⟩ })
      ⟨.ofString "d.json"⟩ Deployment.keepsLog rfl hcourse
  refine ⟨hcourse, hlog.trans ?_, hcached .hooks [⟨3⟩, ⟨4⟩] nofun ?_, hagain ?_⟩
  all_goals decide +kernel

end Course

end Factory

end Provisioning
