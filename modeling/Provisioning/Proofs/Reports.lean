import Mathlib.Data.List.TakeWhile
import Provisioning.Proofs.Deployment
import Provisioning.Proofs.Registry

/-!
# What is reported when providers are made

Extensions that keep content or note events report what they make. Those that refuse any configuration
report the construction alone, and those that cannot make anything report nothing. So the reports tell
how far each attempt got.
-/

namespace Provisioning

/-! ## Reports -/

/-- Reports, and then those of some providers that were made and configured, of some that were made and
refused their configuration, and of some events. -/
def Probe.grown (p : Probe) (accepted : List (String × Context)) (refused : Nat)
    (handled : List (String × String)) : Probe :=
  ⟨p.constructed + accepted.length + refused, p.configured + accepted.length,
    p.configurations ++ accepted, p.handled ++ handled, p.journal⟩

namespace Probe

variable {p : Probe} {accepted accepted' : List (String × Context)} {refused refused' : Nat}
  {handled handled' : List (String × String)}

@[simp] theorem grown_nil : p.grown [] 0 [] = p := by
  simp [grown]

theorem grown_grown : (p.grown accepted refused handled).grown accepted' refused' handled' =
    p.grown (accepted ++ accepted') (refused + refused') (handled ++ handled') := by
  simp [grown]
  omega

theorem grown_accepted (p : Probe) (identifier : String) (c : Context) :
    p.grown [(identifier, c)] 0 [] = p.noteConstruction.noteConfiguration identifier c := by
  simp [grown, noteConstruction, noteConfiguration]

theorem grown_refused (p : Probe) : p.grown [] 1 [] = p.noteConstruction := by
  simp [grown, noteConstruction]

theorem grown_handled (p : Probe) (identifier kind : String) :
    p.grown [] 0 [(identifier, kind)] = p.noteHandled identifier kind := by
  simp [grown, noteHandled]

end Probe

def refused {α : Type} : Except FactoryError α → Bool
  | .ok _ => false
  | .error e => e.kind = .configurationRejected

theorem refused_config {α : Type} (e : ConfigError) :
    refused (.error (.config e) : Except FactoryError α) = false := by
  rw [refused, FactoryError.kind]
  cases e.isNotFound <;> rfl

@[simp] theorem refused_map {α β : Type} (f : α → β) (outcome : Except FactoryError α) :
    refused (outcome.map f) = refused outcome := by
  cases outcome <;> rfl

/-! ## Stubs -/

/-- Whether something only reports what it does. -/
def Implementation.isStub : Implementation → Bool
  | .scripted .. => false
  | _ => true

structure Registry.OfStubs (r : Registry) : Prop where
  identifier {i : String} {x : Extension} (h : r.get? i = some x) : x.identifier = i
  isStub {i : String} {x : Extension} (h : r.get? i = some x) : x.implementation.isStub = true

def ProviderEntry.declared (entry : ProviderEntry) : String × Context :=
  (entry.extension, .ofProperties entry.properties)

namespace Registry

variable {r : Registry}

theorem OfStubs.empty : OfStubs {} :=
  ⟨nofun, nofun⟩

theorem OfStubs.register (h : r.OfStubs) {e : Extension} (he : e.implementation.isStub = true) :
    (r.register e).OfStubs := by
  have hfound : ∀ {i x}, (r.register e).get? i = some x →
      x.identifier = i ∧ x.implementation.isStub = true := by
    intro i x hx
    by_cases hi : i = e.identifier
    · subst hi
      obtain rfl : e = x := Option.some.inj (get?_register_self.symm.trans hx)
      exact ⟨rfl, he⟩
    · rw [get?_register_of_ne hi] at hx
      exact ⟨h.identifier hx, h.isStub hx⟩
  exact ⟨fun hx => (hfound hx).1, fun hx => (hfound hx).2⟩

theorem OfStubs.foldl_register {es : List Extension} (h : r.OfStubs)
    (hes : ∀ e ∈ es, e.implementation.isStub = true) : (es.foldl Registry.register r).OfStubs := by
  induction es generalizing r with
  | nil => exact h
  | cons e es ih =>
    exact ih (h.register (hes e List.mem_cons_self)) fun e' he => hes e' (List.mem_cons_of_mem _ he)

theorem ofStubs_standard : (standard.foldl Registry.register {}).OfStubs :=
  OfStubs.empty.foldl_register (by decide)

/-- The configurations of those providers that come of some entries: an attempt that fails is the
last. -/
def accepted (r : Registry) (tasks : List (Role × ProviderEntry)) : List (String × Context) :=
  (tasks.takeWhile fun t => r.provides t.1 t.2).map fun t => t.2.declared

def failing? (r : Registry) (tasks : List (Role × ProviderEntry)) : Option (Role × ProviderEntry) :=
  tasks.find? fun t => !r.provides t.1 t.2

/-- Nothing comes of an entry whose extension is not known, has another role or cannot make anything. -/
def IsBarren (r : Registry) (task : Role × ProviderEntry) : Prop :=
  r.get? task.2.extension = none ∨ ∃ x, r.get? task.2.extension = some x ∧
    (x.role ≠ task.1 ∨ ∃ role text, x.implementation = .failing role text)

def Refuses (r : Registry) (task : Role × ProviderEntry) (e : FactoryError) : Prop :=
  ∃ x, r.get? task.2.extension = some x ∧ x.role = task.1 ∧ x.implementation = .keeper true ∧
    e = .creation task.1 task.2.extension (.configurationRejected (.invalidProperty "dir"
      (((Context.ofProperties task.2.properties).get? "dir").getD "") "rejected by stub"))

variable {role : Role} {entry : ProviderEntry} {tasks : List (Role × ProviderEntry)}

theorem accepted_cons_of_provides (h : r.provides role entry = true) :
    r.accepted ((role, entry) :: tasks) = entry.declared :: r.accepted tasks := by
  simp [accepted, h]

theorem accepted_cons_of_not_provides (h : r.provides role entry = false) :
    r.accepted ((role, entry) :: tasks) = [] := by
  simp [accepted, h]

theorem failing?_cons_of_provides (h : r.provides role entry = true) :
    r.failing? ((role, entry) :: tasks) = r.failing? tasks := by
  simp [failing?, h]

theorem failing?_cons_of_not_provides (h : r.provides role entry = false) :
    r.failing? ((role, entry) :: tasks) = some (role, entry) := by
  simp [failing?, h]

theorem IsBarren.provides_eq_false {task : Role × ProviderEntry} (h : r.IsBarren task) :
    r.provides task.1 task.2 = false := by
  rw [Bool.eq_false_iff, ne_eq, provides_iff]
  rintro ⟨x, hx, hrole, hreliable⟩
  rcases h with hnone | ⟨y, hy, hwrong⟩
  · cases hnone.symm.trans hx
  · obtain rfl : y = x := Option.some.inj (hy.symm.trans hx)
    rcases hwrong with hwrong | ⟨role, text, hfailing⟩
    · exact hwrong hrole
    · rw [hfailing] at hreliable
      cases hreliable

theorem IsBarren.not_refuses {task : Role × ProviderEntry} (h : r.IsBarren task) (e : FactoryError) :
    ¬ r.Refuses task e := by
  rintro ⟨x, hx, hrole, hkeeper, -⟩
  rcases h with hnone | ⟨y, hy, hwrong⟩
  · cases hnone.symm.trans hx
  · obtain rfl : y = x := Option.some.inj (hy.symm.trans hx)
    rcases hwrong with hwrong | ⟨role, text, hfailing⟩
    · exact hwrong hrole
    · cases hkeeper.symm.trans hfailing

theorem accepted_of_barren (h : ∀ task ∈ tasks, r.IsBarren task) : r.accepted tasks = [] := by
  cases tasks with
  | nil => rfl
  | cons task rest => exact accepted_cons_of_not_provides (h task List.mem_cons_self).provides_eq_false

theorem accepted_of_provides (h : ∀ task ∈ tasks, r.provides task.1 task.2 = true) :
    r.accepted tasks = tasks.map fun t => t.2.declared := by
  rw [accepted, List.takeWhile_eq_self_iff.mpr h]

end Registry

/-- What an attempt at some entries reports accounts for its outcome. -/
structure Numbered.Reports {α : Type} (n n' : Numbered Deployment)
    (tasks : List (Role × ProviderEntry)) (outcome : Except FactoryError α) : Prop where
  probe : n'.state.probe =
    n.state.probe.grown (n.state.registry.accepted tasks) (refused outcome).toNat []
  provides (a : α) (h : outcome = .ok a) :
    ∀ task ∈ tasks, n.state.registry.provides task.1 task.2 = true
  refuses (e : FactoryError) (h : outcome = .error e) (hkind : e.kind = .configurationRejected) :
    ∃ task, n.state.registry.failing? tasks = some task ∧ n.state.registry.Refuses task e

namespace Numbered.Reports

variable {α β : Type} {n n' : Numbered Deployment} {tasks : List (Role × ProviderEntry)}
  {outcome : Except FactoryError α}

theorem idle (hprobe : n'.state.probe = n.state.probe) (h : refused outcome = false) :
    n.Reports n' [] outcome where
  probe := by
    rw [hprobe, h]
    exact Probe.grown_nil.symm
  provides _ _ := List.forall_mem_nil _
  refuses e he hkind := by
    rw [he] at h
    exact (of_decide_eq_false h hkind).elim

theorem map (h : n.Reports n' tasks outcome) (f : α → β) : n.Reports n' tasks (outcome.map f) where
  probe := by
    rw [refused_map]
    exact h.probe
  provides b hb := by
    cases outcome with
    | error => cases hb
    | ok a => exact h.provides a rfl
  refuses e he hkind := by
    cases outcome with
    | ok => cases he
    | error e' =>
      cases he
      exact h.refuses e rfl hkind

variable {n'' : Numbered Deployment} {role : Role} {entry : ProviderEntry}

/-- Without a provider there is nothing to report, unless a configuration is refused. -/
theorem nothing {e : FactoryError} (hnot : n.state.registry.provides role entry = false)
    (hprobe : n'.state.probe = n.state.probe)
    (he : refused (.error e : Except FactoryError α) = false) :
    n.Reports n' [(role, entry)] (.error e : Except FactoryError α) where
  probe := by
    rw [Registry.accepted_cons_of_not_provides hnot, he, hprobe]
    exact Probe.grown_nil.symm
  provides _ ha := by cases ha
  refuses e' he' hkind := by
    cases he'
    exact (of_decide_eq_false he hkind).elim

theorem refusal {e : FactoryError} (hnot : n.state.registry.provides role entry = false)
    (hprobe : n'.state.probe = n.state.probe.grown [] 1 [])
    (hrefuses : n.state.registry.Refuses (role, entry) e) :
    n.Reports n' [(role, entry)] (.error e : Except FactoryError α) where
  probe := by
    obtain ⟨x, -, -, -, rfl⟩ := hrefuses
    rw [Registry.accepted_cons_of_not_provides hnot]
    exact hprobe
  provides _ ha := by cases ha
  refuses e' he' _ := by
    cases he'
    exact ⟨_, Registry.failing?_cons_of_not_provides hnot, hrefuses⟩

theorem single (hprovides : n.state.registry.provides role entry = true)
    (hprobe : n'.state.probe = n.state.probe.grown [entry.declared] 0 []) (a : α) :
    n.Reports n' [(role, entry)] (.ok a) where
  probe := by
    rw [Registry.accepted_cons_of_provides hprovides]
    exact hprobe
  provides _ _ := List.forall_mem_singleton.mpr hprovides
  refuses _ he := by cases he

/-- Nobody looks further than the first entry that fails. -/
theorem stop {e : FactoryError}
    (h : n.Reports n' [(role, entry)] (.error e : Except FactoryError α))
    (hnot : n.state.registry.provides role entry = false) :
    n.Reports n' ((role, entry) :: tasks) (.error e : Except FactoryError β) where
  probe := by
    have hprobe := h.probe
    rw [Registry.accepted_cons_of_not_provides hnot] at hprobe ⊢
    exact hprobe
  provides _ ha := by cases ha
  refuses e' he hkind := by
    cases he
    obtain ⟨task, ht, hrefuses⟩ := h.refuses e rfl hkind
    rw [Registry.failing?_cons_of_not_provides hnot] at ht
    exact ⟨task, (Registry.failing?_cons_of_not_provides hnot).trans ht, hrefuses⟩

theorem next {a : β} (h : n.Reports n' [(role, entry)] (.ok a : Except FactoryError β))
    (hprovides : n.state.registry.provides role entry = true)
    (hregistry : n'.state.registry = n.state.registry) (hrest : n'.Reports n'' tasks outcome) :
    n.Reports n'' ((role, entry) :: tasks) outcome where
  probe := by
    rw [hrest.probe, h.probe, hregistry, Probe.grown_grown,
      Registry.accepted_cons_of_provides hprovides, Registry.accepted_cons_of_provides hprovides]
    simp [Registry.accepted, refused]
  provides b hb := by
    have hothers := hrest.provides b hb
    rw [hregistry] at hothers
    exact List.forall_mem_cons.mpr ⟨hprovides, hothers⟩
  refuses e he hkind := by
    obtain ⟨task, ht, hrefuses⟩ := hrest.refuses e he hkind
    rw [hregistry] at ht hrefuses
    exact ⟨task, (Registry.failing?_cons_of_provides hprovides).trans ht, hrefuses⟩

end Numbered.Reports

/-! ## Attempts -/

variable {n : Numbered Deployment}

/-- An attempt at one entry succeeds, or is refused, or comes to nothing. -/
theorem run_instantiate_reports (hr : n.state.registry.OfStubs) (role : Role) (entry : ProviderEntry) :
    let ran := (instantiate role entry).run Deployment.surroundings.answering n
    n.Reports ran.2 [(role, entry)] ran.1 := by
  intro ran
  have hprobe : ran.2.state.probe = _ := (run_instantiate role entry n).2.1
  have houtcome : ran.1 = (Extension.behaviour.make role entry
      (n.state.registry.get? entry.extension) n.made).1 :=
    (instantiate_foretold Deployment.steady role entry n).1
  rw [houtcome]
  cases hx : n.state.registry.get? entry.extension with
  | none =>
    simp only [hx, Option.filter_none, Option.elim_none] at hprobe
    exact .nothing (by simp [Registry.provides, hx]) hprobe rfl
  | some x =>
    by_cases hrole : x.role = role
    · have hprovides : n.state.registry.provides role entry = x.implementation.isReliable := by
        simp [Registry.provides, hx, hrole]
      have hid := hr.identifier hx
      have hstub := hr.isStub hx
      simp only [hx, Option.filter_some, hrole, decide_true, if_true, Option.elim_some] at hprobe
      simp only [Behaviour.make, if_pos hrole]
      rcases x with ⟨identifier, description, implementation⟩
      obtain rfl : identifier = entry.extension := hid
      cases implementation with
      | scripted => cases hstub
      | failing => exact .nothing hprovides hprobe rfl
      | listener => exact .single hprovides (hprobe.trans (Probe.grown_accepted ..).symm) _
      | keeper rejects =>
        cases rejects with
        | false => exact .single hprovides (hprobe.trans (Probe.grown_accepted ..).symm) _
        | true =>
          refine .refusal hprovides (hprobe.trans (Probe.grown_refused _).symm) ?_
          exact ⟨_, hx, hrole, rfl, rfl⟩
    · simp only [hx, Option.filter_some, hrole, decide_false] at hprobe
      simp only [Behaviour.make, if_neg hrole]
      exact .nothing (by simp [Registry.provides, hx, hrole]) hprobe rfl

theorem run_instantiateAll_reports (hr : n.state.registry.OfStubs) (role : Role)
    (entries : List ProviderEntry) :
    let ran := (instantiateAll role entries).run Deployment.surroundings.answering n
    n.Reports ran.2 (entries.map (role, ·)) ran.1 := by
  induction entries generalizing n with
  | nil => exact .idle rfl rfl
  | cons entry rest ih =>
    have hfirst := run_instantiate_reports hr role entry
    have hregistry := registry_instantiate role entry n
    dsimp only
    rw [instantiateAll, Dialogue.run_bind, List.map_cons]
    rcases hrun : (instantiate role entry).run Deployment.surroundings.answering n with ⟨first, n₁⟩
    rw [hrun] at hfirst hregistry
    cases first with
    | error e =>
      refine hfirst.stop (Bool.eq_false_iff.mpr fun hprovides => ?_)
      have hok := run_instantiate_of_provides hprovides
      rw [hrun] at hok
      cases hok
    | ok p =>
      have hprovides := hfirst.provides p rfl _ (List.mem_singleton_self _)
      have hrest := ih (n := n₁) (by rwa [hregistry])
      simp only [Dialogue.run_bind]
      rcases hall : (instantiateAll role rest).run Deployment.surroundings.answering n₁ with ⟨others, n₂⟩
      rw [hall] at hrest
      have hnext := hfirst.next hprovides hregistry hrest
      cases others with
      | error e => exact hnext.map (p :: ·)
      | ok ps => exact hnext.map (p :: ·)

/-- The entries of a document that a cell is filled for, with the role that they are needed for. -/
def Slot.tasks (s : Slot) (d : Option ProvidersDocument) : List (Role × ProviderEntry) :=
  match d with
  | some doc => (s.entries doc).map (s.role, ·)
  | none => []

theorem Settings.run_fill_reports (settings : Settings) (hr : n.state.registry.OfStubs) (s : Slot)
    (d : Option ProvidersDocument) :
    let ran := (settings.plan.fill s d).run Deployment.surroundings.answering n
    n.Reports ran.2 (s.tasks d) ran.1 := by
  cases s with
  | document =>
    have hnone : Slot.document.tasks d = [] := by cases d <;> rfl
    change n.Reports (settings.loadDocument.run Deployment.surroundings.answering n).2 _
      (settings.loadDocument.run Deployment.surroundings.answering n).1
    rw [hnone, settings.run_loadDocument Deployment.surroundings n]
    refine .idle rfl ?_
    cases (Deployment.surroundings.load settings.providersFile
      (Deployment.surroundings.note (.loading settings.providersFile) n.state)).1 with
    | ok => rfl
    | error e => exact refused_config e
  | persistence =>
    rcases d with _ | ⟨_ | entry, hooks⟩
    · exact .idle rfl rfl
    · exact .idle rfl rfl
    · exact run_instantiate_reports hr .persistence entry
  | hooks =>
    rcases d with _ | ⟨entry, _ | ⟨hook, hooks⟩⟩
    · exact .idle rfl rfl
    · exact .idle rfl rfl
    · exact run_instantiateAll_reports hr .hook (hook :: hooks)

namespace Factory

def tasks {σ : Type} (f : Factory σ) (call : Call) : List (Role × ProviderEntry) :=
  match call.slot? with
  | some s => if (f.cells.get s).content?.isNone then s.tasks f.cells.document.content? else []
  | none => []

variable {f : Factory (Numbered Deployment)}

theorem tasks_of_full {s : Slot} {a : s.Content} (h : f.cells.get s = .full a) :
    f.tasks s.call = [] := by
  rw [tasks, Call.slot?_eq_some_iff.mpr rfl]
  exact if_neg (by simp [h, Cell.content?])

theorem tasks_of_empty {s : Slot} (h : f.cells.get s = .empty) :
    f.tasks s.call = s.tasks f.cells.document.content? := by
  rw [tasks, Call.slot?_eq_some_iff.mpr rfl]
  exact if_pos (by simp [h, Cell.content?])

/-- A call reports what it tries, and nothing if it has nothing to try. -/
theorem perform_reports (settings : Settings) (hf : f.cells.Settled)
    (hr : f.around.state.registry.OfStubs) (call : Call) :
    let done := f.perform settings.plan Deployment.surroundings.answering call
    f.around.Reports done.2.around (f.tasks call) done.1 := by
  intro done
  have spec : Performs settings.plan Deployment.surroundings.answering f call done.1 done.2 :=
    perform_spec _ _ hf call
  generalize done.1 = outcome, done.2 = f' at spec ⊢
  cases spec with
  | glance h =>
    cases call with
    | start | persistenceProvider | hookProviders => cases h
    | isInitialized => cases h; exact .idle rfl rfl
    | document =>
      cases h
      refine .idle rfl ?_
      rw [refused_map, document]
      cases f.cells.document.content? <;> rfl
  | @share s a h =>
    rw [tasks_of_full h]
    refine .idle ?_ rfl
    cases s <;> rfl
  | @attempt s outcome around h run =>
    rw [tasks_of_empty h]
    have hreports := settings.run_fill_reports hr s f.cells.document.content?
    rw [run] at hreports
    exact hreports.map s.reply

end Factory

end Provisioning
