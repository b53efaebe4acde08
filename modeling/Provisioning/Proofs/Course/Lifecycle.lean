import Mathlib.Data.List.Induction
import Provisioning.Deployment
import Provisioning.Proofs.Course.Basic
import Provisioning.Proofs.Instantiation

/-!
# The document of a factory

A factory loads its document when it is started, and again when it is started anew after that has
failed. The first load that succeeds is the last one: from then on the factory is initialized and keeps
that document, whatever becomes of the file. No other call loads anything.
-/

namespace Provisioning

variable {σ : Type}

/-- Surroundings take documents from their files as long as some condition holds, which nobody breaks,
and they count how often one is asked for. -/
structure Surroundings.CountsLoads (around : Surroundings σ) (fromFiles : σ → Prop)
    (store : σ → Store) (loads : σ → Nat) : Prop where
  load (path : Path) {s : σ} (hs : fromFiles s) :
    (around.load path s).1 = (ProvidersDocument.load (store s) path).result ∧
      fromFiles (around.load path s).2 ∧ loads (around.load path s).2 = loads s + 1
  resolve (identifier : String) {s : σ} (hs : fromFiles s) :
    fromFiles (around.resolve identifier s).2 ∧ loads (around.resolve identifier s).2 = loads s
  construct (e : Extension) (p : Instance) {s : σ} (hs : fromFiles s) :
    fromFiles (around.construct e p s).2 ∧ loads (around.construct e p s).2 = loads s
  configure (p : Instance) (c : Context) {s : σ} (hs : fromFiles s) :
    fromFiles (around.configure p c s).2 ∧ loads (around.configure p c s).2 = loads s
  note (event : LogEvent) {s : σ} (hs : fromFiles s) :
    fromFiles (around.note event s) ∧ loads (around.note event s) = loads s ∧
      store (around.note event s) = store s

/-- Deployments do, unless their documents are prescribed. -/
theorem Deployment.countsLoads :
    Deployment.surroundings.CountsLoads (fun d => d.source = .files) Deployment.store
      Deployment.loads where
  load path d hd := by
    refine ⟨?_, hd, rfl⟩
    simp [surroundings, Deployment.load, fetch, hd]
  resolve identifier d hd := ⟨hd, rfl⟩
  construct e p d hd := by
    simp only [surroundings, Deployment.construct]
    split <;> exact ⟨hd, rfl⟩
  configure p c d hd := by
    simp only [surroundings, Deployment.configure, use]
    split <;> exact ⟨hd, rfl⟩
  note event d hd := ⟨hd, rfl, rfl⟩

/-! ## Starts -/

/-- The number of starts up to the first that succeeded, or of all if none did. -/
def startsUntilSuccess : List (Call × Outcome) → Nat
  | [] => 0
  | (.start, .ok _) :: _ => 1
  | (.start, .error _) :: rest => startsUntilSuccess rest + 1
  | _ :: rest => startsUntilSuccess rest

def hasStarted (served : List (Call × Outcome)) : Bool :=
  served.any fun c => c.1 = .start && !Outcome.isFailure c.2

theorem hasStarted_append (past later : List (Call × Outcome)) :
    hasStarted (past ++ later) = (hasStarted past || hasStarted later) := by
  simp [hasStarted]

theorem startsUntilSuccess_append (past later : List (Call × Outcome)) :
    startsUntilSuccess (past ++ later) = startsUntilSuccess past +
      if hasStarted past then 0 else startsUntilSuccess later := by
  induction past with
  | nil => simp [startsUntilSuccess, hasStarted]
  | cons c past ih =>
    rcases c with ⟨call, outcome⟩
    cases call with
    | start =>
      cases outcome with
      | ok reply => simp [startsUntilSuccess, hasStarted, Outcome.isFailure]
      | error e =>
        have hs : hasStarted ((.start, .error e) :: past) = hasStarted past := by
          simp [hasStarted, Outcome.isFailure]
        rw [List.cons_append, startsUntilSuccess, startsUntilSuccess, ih, hs]
        omega
    | isInitialized | document | persistenceProvider | hookProviders =>
      exact ih

/-! ## Loads -/

theorem Settings.run_loadDocument (settings : Settings) (around : Surroundings σ)
    (n : Numbered σ) :
    let loaded := around.load settings.providersFile
      (around.note (.loading settings.providersFile) n.state)
    settings.loadDocument.run around.answering n =
      (loaded.1.mapError .config, ⟨n.made, loaded.2⟩) := by
  simp only [loadDocument, Dialogue.run, Surroundings.answering]
  cases (around.load settings.providersFile
    (around.note (.loading settings.providersFile) n.state)).1 <;> rfl

namespace Surroundings.CountsLoads

variable {around : Surroundings σ} {fromFiles : σ → Prop} {store : σ → Store} {loads : σ → Nat}

theorem answering_keeps (counts : around.CountsLoads fromFiles store loads) {k : Nat} (q : Question)
    (n : Numbered σ) (hq : q.NoLoad) (hn : fromFiles n.state ∧ loads n.state = k) :
    fromFiles (around.answering q n).2.state ∧ loads (around.answering q n).2.state = k := by
  obtain ⟨hs, hk⟩ := hn
  cases q with
  | load path => exact (hq path rfl).elim
  | resolve identifier =>
    obtain ⟨h, hl⟩ := counts.resolve identifier hs
    exact ⟨h, hl.trans hk⟩
  | construct e =>
    obtain ⟨h, hl⟩ := counts.construct e ⟨n.made⟩ hs
    simp only [answering, make]
    split <;> simp_all
  | configure p c =>
    obtain ⟨h, hl⟩ := counts.configure p c hs
    exact ⟨h, hl.trans hk⟩
  | note event =>
    obtain ⟨h, hl, -⟩ := counts.note event hs
    exact ⟨h, hl.trans hk⟩

theorem run_keeps (counts : around.CountsLoads fromFiles store loads) {α : Type}
    {w : Dialogue Question.interface α} (hw : w.Asks Question.NoLoad) {n : Numbered σ}
    (hn : fromFiles n.state) :
    fromFiles (w.run around.answering n).2.state ∧
      loads (w.run around.answering n).2.state = loads n.state :=
  hw.run_keeps (Q := fun n' => fromFiles n'.state ∧ loads n'.state = loads n.state)
    (fun q n' => counts.answering_keeps q n') ⟨hn, rfl⟩

theorem run_loadDocument (counts : around.CountsLoads fromFiles store loads) (settings : Settings)
    {n : Numbered σ} (hn : fromFiles n.state) :
    (settings.loadDocument.run around.answering n).1 =
        (ProvidersDocument.load (store n.state) settings.providersFile).result.mapError .config ∧
      fromFiles (settings.loadDocument.run around.answering n).2.state ∧
      loads (settings.loadDocument.run around.answering n).2.state = loads n.state + 1 := by
  obtain ⟨hnote, hloads, hfiles⟩ := counts.note (.loading settings.providersFile) hn
  obtain ⟨hanswer, hload, hcount⟩ := counts.load settings.providersFile hnote
  -- the log is written to before the file is read
  rw [hfiles] at hanswer
  rw [hloads] at hcount
  rw [settings.run_loadDocument around n]
  exact ⟨congrArg (Except.mapError FactoryError.config) hanswer, hload, hcount⟩

end Surroundings.CountsLoads

/-! ## Calls -/

theorem Slot.call_ne_start {s : Slot} (hs : s ≠ .document) : s.call ≠ .start := by
  cases s with
  | document => exact absurd rfl hs
  | persistence | hooks => simp [Slot.call]

namespace Factory

theorem perform_isInitialized {I : Interface} {plan : Plan I} {answering : Answering I σ}
    {f : Factory σ} (hf : f.cells.Settled) (call : Call) :
    (f.perform plan answering call).2.isInitialized =
      (f.isInitialized ||
        hasStarted [(call, (f.perform plan answering call).1)]) := by
  have spec := perform_spec plan answering hf call
  generalize f.perform plan answering call = done at spec
  rcases done with ⟨outcome, f'⟩
  dsimp only at spec ⊢
  cases spec with
  | glance h =>
    cases call with
    | start | persistenceProvider | hookProviders => cases h
    | isInitialized | document => simp [hasStarted]
  | @share s a h =>
    cases s with
    | document =>
      have hi : f.isInitialized = true := isInitialized_eq_true_iff.mpr ⟨a, h⟩
      change f.isInitialized = _
      simp [hi]
    | persistence | hooks => simp [hasStarted, Slot.call, isInitialized]
  | @attempt s outcome around' h run =>
    by_cases hs : s = .document
    · subst hs
      have hd : f.cells.document = .empty := h
      cases outcome <;> simp [hd, hasStarted, Slot.call, Outcome.isFailure, isInitialized,
        Cells.settle, Cells.set, Cell.content?, Except.map]
    · have hd : (f.cells.settle s outcome).document = f.cells.document :=
        f.cells.get_settle_of_ne outcome (Ne.symm hs)
      simp [hasStarted, isInitialized, hd, Slot.call_ne_start hs]

variable {around : Surroundings σ} {fromFiles : σ → Prop} {store : σ → Store} {loads : σ → Nat}
  {settings : Settings} {f : Factory (Numbered σ)}

theorem perform_start (settings : Settings) (counts : around.CountsLoads fromFiles store loads)
    (hn : fromFiles f.around.state) (hd : f.cells.document = .empty) :
    let loaded := (ProvidersDocument.load (store f.around.state) settings.providersFile).result
    (f.perform settings.plan around.answering .start).1 =
        (loaded.mapError .config).map (fun _ => .done) ∧
      (f.perform settings.plan around.answering .start).2.cells =
        f.cells.settle .document (loaded.mapError .config) := by
  intro loaded
  have hrun : ((settings.plan.fill .document f.cells.document.content?).run around.answering
      f.around).1 = loaded.mapError .config := (counts.run_loadDocument settings hn).1
  have hp : f.perform settings.plan around.answering .start = _ :=
    perform_of_empty (s := .document) hd
  rw [hp, ← hrun]
  exact ⟨rfl, rfl⟩

/-- A call loads once if it is a start without a document, and else not at all. -/
theorem perform_loads (settings : Settings) (counts : around.CountsLoads fromFiles store loads)
    (hn : fromFiles f.around.state) (hf : f.cells.Settled) (call : Call) :
    let f' := (f.perform settings.plan around.answering call).2
    fromFiles f'.around.state ∧ loads f'.around.state = loads f.around.state +
      if call = .start ∧ f.isInitialized = false then 1 else 0 := by
  intro f'
  have spec : Performs settings.plan around.answering f call _ f' := perform_spec _ _ hf call
  generalize (f.perform settings.plan around.answering call).1 = outcome, f' = f' at spec
  cases spec with
  | glance h =>
    cases call with
    | start | persistenceProvider | hookProviders => cases h
    | isInitialized | document => exact ⟨hn, by simp⟩
  | @share s a h =>
    cases s with
    | document =>
      have hi : f.isInitialized = true := isInitialized_eq_true_iff.mpr ⟨a, h⟩
      have hagain : settings.plan.again.Asks Question.NoLoad := ⟨nofun, fun _ => trivial⟩
      simpa [hi, Slot.revisit] using counts.run_keeps hagain hn
    | persistence | hooks => exact ⟨hn, by simp [Slot.call, Slot.revisit]⟩
  | @attempt s outcome around' h run =>
    by_cases hs : s = .document
    · subst hs
      have hi : f.isInitialized = false := (isInitialized_eq_false_iff hf).mpr h
      have hload := (counts.run_loadDocument settings hn).2
      change settings.loadDocument.run around.answering f.around = _ at run
      rw [run] at hload
      simpa [hi, Slot.call] using hload
    · have hkeep := counts.run_keeps (settings.fill_asks hs f.cells.document.content?) hn
      rw [run] at hkeep
      simpa [Slot.call_ne_start hs] using hkeep

end Factory

/-! ## Courses -/

def Happening.LeavesLoads (fromFiles : σ → Prop) (loads : σ → Nat) : Happening (Numbered σ) → Prop
  | .call _ => True
  | .change turn => ∀ n, fromFiles n.state →
      fromFiles (turn n).state ∧ loads (turn n).state = loads n.state

namespace Factory

section Course

/-- What the calls that were served tell about a factory. -/
structure Chronicle (fromFiles : σ → Prop) (loads : σ → Nat) (f : Factory (Numbered σ))
    (served : List (Call × Outcome)) : Prop where
  settled : f.cells.Settled
  fromFiles : fromFiles f.around.state
  loads : loads f.around.state = startsUntilSuccess served
  initialized : f.isInitialized = hasStarted served

variable {around : Surroundings σ} {fromFiles : σ → Prop} {store : σ → Store} {loads : σ → Nat}
  {settings : Settings} {f : Factory (Numbered σ)} {served : List (Call × Outcome)}

theorem Chronicle.call (settings : Settings) (counts : around.CountsLoads fromFiles store loads)
    (h : Chronicle fromFiles loads f served) (call : Call) :
    Chronicle fromFiles loads (f.perform settings.plan around.answering call).2
      (served ++ [(call, (f.perform settings.plan around.answering call).1)]) where
  settled := (perform_spec _ _ h.settled call).settled h.settled
  fromFiles := (perform_loads settings counts h.fromFiles h.settled call).1
  loads := by
    have hone : ∀ outcome, startsUntilSuccess [(call, outcome)] = if call = .start then 1 else 0 := by
      intro outcome
      cases call <;> cases outcome <;> rfl
    rw [(perform_loads settings counts h.fromFiles h.settled call).2, startsUntilSuccess_append,
      h.loads, hone, h.initialized]
    by_cases hc : call = .start <;> cases hasStarted served <;> simp [hc]
  initialized := by
    rw [perform_isInitialized h.settled, hasStarted_append, h.initialized]

theorem Chronicle.change (h : Chronicle fromFiles loads f served)
    {turn : Numbered σ → Numbered σ}
    (hc : (Happening.change turn).LeavesLoads fromFiles loads) :
    Chronicle fromFiles loads ⟨f.cells, turn f.around⟩ served where
  settled := h.settled
  fromFiles := (hc _ h.fromFiles).1
  loads := (hc _ h.fromFiles).2.trans h.loads
  initialized := h.initialized

variable {s : σ} {course : List (Happening (Numbered σ))}

theorem chronicle (settings : Settings) (counts : around.CountsLoads fromFiles store loads)
    (hs : fromFiles s) (h0 : loads s = 0) (hc : ∀ h ∈ course, h.LeavesLoads fromFiles loads) :
    Chronicle fromFiles loads ((fresh ⟨0, s⟩).after settings.plan around.answering course)
      ((fresh ⟨0, s⟩).served settings.plan around.answering course) := by
  induction course using List.reverseRecOn with
  | nil => exact ⟨fresh_settled _, hs, h0, rfl⟩
  | append_singleton past h ih =>
    have hpast := ih fun h' hm => hc h' (List.mem_append_left _ hm)
    rw [after_snoc]
    cases h with
    | call call =>
      rw [served_snoc_call]
      exact hpast.call settings counts call
    | change turn =>
      rw [served_snoc_change]
      exact hpast.change (hc _ (by simp))

theorem loaded_of_undergo (counts : around.CountsLoads fromFiles store loads)
    (h : Chronicle fromFiles loads f served) (he : f.cells.document = .empty)
    {happening : Happening (Numbered σ)} {d : ProvidersDocument}
    (hd : (f.undergo settings.plan around.answering happening).cells.document = .full d) :
    happening = .call .start ∧
      (ProvidersDocument.load (store f.around.state) settings.providersFile).result = .ok d := by
  cases happening with
  | change turn => exact absurd (hd.symm.trans he) nofun
  | call call =>
    have hinit : (f.undergo settings.plan around.answering (.call call)).isInitialized = _ :=
      perform_isInitialized h.settled call
    have hempty : f.isInitialized = false := (isInitialized_eq_false_iff h.settled).mpr he
    rw [isInitialized_eq_true_iff.mpr ⟨d, hd⟩, hempty] at hinit
    obtain rfl : call = .start := by
      by_contra hne
      simp [hasStarted, hne] at hinit
    refine ⟨rfl, ?_⟩
    have hcells := (perform_start settings counts h.fromFiles he).2
    have hfull := hd
    rw [undergo, hcells] at hfull
    cases hl : (ProvidersDocument.load (store f.around.state) settings.providersFile).result with
    | error e =>
      rw [hl] at hfull
      cases hfull
    | ok d' =>
      rw [hl] at hfull
      cases hfull
      rfl

/-- The document comes from the file as it was when a factory was started that was not initialized. -/
theorem document_iff (counts : around.CountsLoads fromFiles store loads) (hs : fromFiles s)
    (h0 : loads s = 0) (hc : ∀ h ∈ course, h.LeavesLoads fromFiles loads) (d : ProvidersDocument) :
    ((fresh ⟨0, s⟩).after settings.plan around.answering course).cells.document = .full d ↔
      ∃ past later, course = past ++ .call .start :: later ∧
        hasStarted ((fresh ⟨0, s⟩).served settings.plan around.answering past) = false ∧
        (ProvidersDocument.load
          (store ((fresh ⟨0, s⟩).after settings.plan around.answering past).around.state)
          settings.providersFile).result = .ok d := by
  constructor
  · intro hd
    -- a full cell stays full, so the last episode counts only if the cell was empty before it
    induction course using List.reverseRecOn with
    | nil => cases hd
    | append_singleton past h ih =>
      have hpast : ∀ h' ∈ past, h'.LeavesLoads fromFiles loads :=
        fun h' hm => hc h' (List.mem_append_left _ hm)
      have known := chronicle settings counts hs h0 hpast
      rw [after_snoc] at hd
      cases hold : ((fresh ⟨0, s⟩).after settings.plan around.answering past).cells.document with
      | claimed => exact (known.settled .document hold).elim
      | full d' =>
        have hkept := undergo_within settings.plan around.answering known.settled h
          .document d' hold
        obtain rfl : d' = d := Cell.full.inj (hkept.symm.trans hd)
        obtain ⟨before, later, hsplit, hload⟩ := ih hpast hold
        exact ⟨before, later ++ [h], by simp [hsplit], hload⟩
      | empty =>
        obtain ⟨rfl, hload⟩ := loaded_of_undergo counts known hold hd
        have hnot := (isInitialized_eq_false_iff known.settled).mpr hold
        exact ⟨past, [], rfl, known.initialized.symm.trans hnot, hload⟩
  · rintro ⟨past, later, rfl, hnot, hload⟩
    have known := chronicle settings counts hs h0
      fun h' hm => hc h' (List.mem_append_left _ hm)
    have hold := (isInitialized_eq_false_iff known.settled).mp (known.initialized.trans hnot)
    have hcells := (perform_start settings counts known.fromFiles hold).2
    rw [hload] at hcells
    rw [after_append]
    have hstep : (((fresh ⟨0, s⟩).after settings.plan around.answering past).undergo settings.plan
        around.answering (.call .start)).cells.get .document = .full d := by
      rw [undergo, hcells]
      exact Cells.get_settle_ok _ .document d
    exact after_within _ _ (undergo_settled _ _ known.settled _) later .document d hstep

/-- One load for every start up to the first that succeeds, and none after it. -/
theorem document_lifecycle (settings : Settings)
    (counts : around.CountsLoads fromFiles store loads) (hs : fromFiles s) (h0 : loads s = 0)
    (hc : ∀ h ∈ course, h.LeavesLoads fromFiles loads) :
    let plan := settings.plan
    let answering := around.answering
    let begin : Factory (Numbered σ) := fresh ⟨0, s⟩
    let f := begin.after plan answering course
    let served := begin.served plan answering course
    let fileAt (f : Factory (Numbered σ)) :=
      (ProvidersDocument.load (store f.around.state) settings.providersFile).result
    loads f.around.state = startsUntilSuccess served ∧
      f.perform plan answering .isInitialized = (.ok (.flag (hasStarted served)), f) ∧
      (hasStarted served = true →
        (f.perform plan answering .start).1 = .ok .done ∧
          (f.perform plan answering .start).2.cells = f.cells ∧
          loads (f.perform plan answering .start).2.around.state = loads f.around.state ∧
          ∃ d, (f.perform plan answering .document).1 = .ok (.document d)) ∧
      (∀ d, (f.perform plan answering .document).1 = .ok (.document d) ↔
        ∃ past later, course = past ++ .call .start :: later ∧
          hasStarted (begin.served plan answering past) = false ∧
          fileAt (begin.after plan answering past) = .ok d) ∧
      (hasStarted served = false →
        (f.perform plan answering .document).1 = .error .notInitialized ∧
          (f.perform plan answering .start).1 =
            ((fileAt f).mapError .config).map fun _ => .done) ∧
      ∀ call, call ≠ .start →
        loads (f.perform plan answering call).2.around.state = loads f.around.state := by
  intro plan answering begin f served fileAt
  have known : Chronicle fromFiles loads f served := chronicle settings counts hs h0 hc
  have hload := fun call =>
    (perform_loads settings counts known.fromFiles known.settled call).2
  refine ⟨known.loads, ?_, ?_, ?_, ?_, ?_⟩
  · rw [← known.initialized]
    rfl
  · intro hstarted
    have hinit : f.isInitialized = true := known.initialized.trans hstarted
    obtain ⟨d, hd⟩ := isInitialized_eq_true_iff.mp hinit
    have hp : f.perform plan answering .start = _ := perform_of_full (s := .document) (a := d) hd
    have hl := hload .start
    refine ⟨by rw [hp]; rfl, by rw [hp], ?_, d, perform_document_eq_ok_iff.mpr hd⟩
    simpa [hinit] using hl
  · intro d
    rw [perform_document_eq_ok_iff]
    exact document_iff counts hs h0 hc d
  · intro hnot
    have hold : f.cells.document = .empty :=
      (isInitialized_eq_false_iff known.settled).mp (known.initialized.trans hnot)
    exact ⟨perform_document_of_empty hold, (perform_start settings counts known.fromFiles hold).1⟩
  · intro call hcall
    simpa [hcall] using hload call

end Course

def rewriting (path : Path) (content : Option String) : Happening (Numbered Deployment) :=
  .change fun n =>
    let files := n.state.store.files
    let changed := match content with
      | some text => files.write path (Text.encode text)
      | none => (files.remove? path).getD files
    { n with state := { n.state with store.files := changed } }

/-- A course in which the file is missing at first, then broken, then right, and then removed. -/
def restored : List (Happening (Numbered Deployment)) :=
  let path := Path.ofString "d.json"
  [.call .start, rewriting path (some "\x7b"), .call .start, .call .hookProviders,
    rewriting path (some "\x7b\x7d"), .call .start, rewriting path none, .call .start,
    .call .document, .call .persistenceProvider]

theorem document_lifecycle_restored :
    let settings : Settings := ⟨.ofString "d.json"⟩
    let plan := settings.plan
    let answering := Deployment.surroundings.answering
    let begin : Factory (Numbered Deployment) := fresh ⟨0, {}⟩
    let f := begin.after plan answering restored
    (∀ h ∈ restored, h.LeavesLoads (fun d => d.source = .files) Deployment.loads) ∧
      ((begin.served plan answering restored).map fun c => Outcome.isFailure c.2) =
        [true, true, true, false, false, false, true] ∧
      f.around.state.loads = 3 ∧
      (f.perform plan answering .start).1 = .ok .done ∧
      (f.perform plan answering .document).1 = .ok (.document {}) := by
  intro settings plan answering begin f
  have hcourse : ∀ h ∈ restored, h.LeavesLoads (fun d => d.source = .files) Deployment.loads := by
    intro h hm
    simp only [restored, List.mem_cons, List.not_mem_nil, or_false] at hm
    rcases hm with rfl | rfl | rfl | rfl | rfl | rfl | rfl | rfl | rfl | rfl
    all_goals first | trivial | exact fun n hn => ⟨hn, rfl⟩
  obtain ⟨hloads, -, hafter, hdocument, -⟩ :=
    document_lifecycle (s := {}) settings Deployment.countsLoads rfl rfl hcourse
  have hstarted : hasStarted (begin.served plan answering restored) = true := by decide +kernel
  refine ⟨hcourse, by decide +kernel, ?_, (hafter hstarted).1, ?_⟩
  · rw [hloads]
    decide +kernel
  · refine (hdocument {}).mpr ⟨restored.take 5, restored.drop 6, rfl, ?_, ?_⟩
    · decide +kernel
    · decide +kernel

end Factory

end Provisioning
