import Provisioning.Deployment
import Provisioning.Proofs.Instantiation

/-!
# Steady surroundings

Surroundings are steady if nothing that a factory asks of them changes what they know: where documents
come from and which extensions there are. What comes of an attempt can then be told beforehand, but
for the numbers of the instances that are made.
-/

namespace Provisioning

variable {σ ν : Type}

/-- What comes of making and configuring providers, where nothing matters but the extension and the
configuration. -/
structure Behaviour where
  makes : Extension → Except Failure Unit
  accepts : Extension → Context → Except ProviderError Unit

/-- The answers of some surroundings depend only on a view of their state, which a factory cannot
change, and on how extensions and their providers behave. -/
structure Surroundings.Steady (around : Surroundings σ) (view : σ → ν) (b : Behaviour) : Prop where
  load (path : Path) {s s' : σ} (h : view s = view s') :
    (around.load path s).1 = (around.load path s').1
  resolve (identifier : String) {s s' : σ} (h : view s = view s') :
    (around.resolve identifier s).1 = (around.resolve identifier s').1
  makes (e : Extension) (p : Instance) (s : σ) : (around.construct e p s).1 = b.makes e
  accepts (e : Extension) (p : Instance) (event : LogEvent) (c : Context) (s : σ)
    (h : b.makes e = .ok ()) :
    (around.configure p c (around.note event (around.construct e p s).2)).1 = b.accepts e c
  load_view (path : Path) (s : σ) : view (around.load path s).2 = view s
  resolve_view (identifier : String) (s : σ) : view (around.resolve identifier s).2 = view s
  construct_view (e : Extension) (p : Instance) (s : σ) : view (around.construct e p s).2 = view s
  configure_view (p : Instance) (c : Context) (s : σ) : view (around.configure p c s).2 = view s
  note_view (event : LogEvent) (s : σ) : view (around.note event s) = view s

namespace Behaviour

/-- What comes of making the provider of an entry, given the extension that is found and the number of
instances made before; and how many there are afterwards. -/
def make (b : Behaviour) (role : Role) (entry : ProviderEntry) :
    Option Extension → Nat → Except FactoryError Instance × Nat
  | none, made => (.error (.creation role entry.extension .extensionNotFound), made)
  | some e, made =>
    if e.role = role then
      match b.makes e with
      | .error failure =>
        (.error (.creation role entry.extension (.instantiationFailed failure)), made + 1)
      | .ok () =>
        match b.accepts e (.ofProperties entry.properties) with
        | .error refusal =>
          (.error (.creation role entry.extension (.configurationRejected refusal)), made + 1)
        | .ok () => (.ok ⟨made⟩, made + 1)
    else
      (.error (.creation role entry.extension (.instantiationFailed (wrongRole e.role role))), made)

def makeAll (b : Behaviour) (role : Role) (found : String → Option Extension) :
    List ProviderEntry → Nat → Except FactoryError (List Instance) × Nat
  | [], made => (.ok [], made)
  | entry :: rest, made =>
    match b.make role entry (found entry.extension) made with
    | (.error e, made) => (.error e, made)
    | (.ok first, made) =>
      match makeAll b role found rest made with
      | (.error e, made) => (.error e, made)
      | (.ok others, made) => (.ok (first :: others), made)

end Behaviour

/-- What surroundings know: the document that they have to give, and the extensions. -/
structure Outlook where
  loaded : Except ConfigError ProvidersDocument
  found : String → Option Extension

def Surroundings.outlook (around : Surroundings σ) (settings : Settings) (s : σ) : Outlook :=
  ⟨(around.load settings.providersFile s).1, fun identifier => (around.resolve identifier s).1⟩

def Outlook.attempt (o : Outlook) (b : Behaviour) :
    (s : Slot) → Option ProvidersDocument → Nat → Except FactoryError s.Content × Nat
  | .document, _, made => (o.loaded.mapError .config, made)
  | .persistence, some d, made =>
    match d.persistence with
    | some entry => b.make .persistence entry (o.found entry.extension) made
    | none => (.error (.roleMissing .persistence), made)
  | .hooks, some d, made => b.makeAll .hook o.found d.hooks made
  | .persistence, none, made => (.error .notInitialized, made)
  | .hooks, none, made => (.error .notInitialized, made)

/-! ## Runs -/

theorem Surroundings.Steady.outlook_eq {around : Surroundings σ} {view : σ → ν} {b : Behaviour}
    (steady : around.Steady view b) (settings : Settings) {s s' : σ} (h : view s = view s') :
    around.outlook settings s = around.outlook settings s' := by
  have hload := steady.load settings.providersFile h
  have hresolve : (fun i => (around.resolve i s).1) = fun i => (around.resolve i s').1 :=
    funext fun i => steady.resolve i h
  rw [outlook, outlook, hload, hresolve]

/-- A run ends as foretold and leaves the view of the surroundings as it was. -/
def Dialogue.Foretold {α : Type} (w : Work α) (around : Surroundings σ) (view : σ → ν)
    (n : Numbered σ) (foretold : Except FactoryError α × Nat) : Prop :=
  (w.run around.answering n).1 = foretold.1 ∧ (w.run around.answering n).2.made = foretold.2 ∧
    view (w.run around.answering n).2.state = view n.state

section Runs

variable {around : Surroundings σ} {view : σ → ν} {b : Behaviour}

theorem configure_foretold (steady : around.Steady view b) (role : Role) (entry : ProviderEntry)
    (target : Instance) (n : Numbered σ) :
    (configure role entry target).Foretold around view n
      (match (around.configure target (.ofProperties entry.properties) n.state).1 with
        | .error refusal =>
          (.error (.creation role entry.extension (.configurationRejected refusal)), n.made)
        | .ok () => (.ok target, n.made)) := by
  have hview := steady.configure_view target (.ofProperties entry.properties) n.state
  simp only [Dialogue.Foretold, configure, Dialogue.run, Surroundings.answering]
  cases (around.configure target (.ofProperties entry.properties) n.state).1 with
  | error refusal => exact ⟨rfl, rfl, hview⟩
  | ok => exact ⟨rfl, rfl, (steady.note_view _ _).trans hview⟩

theorem construct_foretold (steady : around.Steady view b) {role : Role} (entry : ProviderEntry)
    {e : Extension} (he : e.role = role) (n : Numbered σ) :
    (construct role entry e).Foretold around view n (b.make role entry (some e) n.made) := by
  have hmakes := steady.makes e ⟨n.made⟩ n.state
  have hview := steady.construct_view e ⟨n.made⟩ n.state
  have haccepts := steady.accepts e ⟨n.made⟩ (.instantiated role entry.extension)
    (.ofProperties entry.properties) n.state
  rcases hrun : around.construct e ⟨n.made⟩ n.state with ⟨made, s⟩
  simp only [hrun] at hmakes hview haccepts
  simp only [Dialogue.Foretold, construct, Dialogue.run, Surroundings.answering, Surroundings.make,
    hrun, Behaviour.make, if_pos he, ← hmakes]
  cases made with
  | error failure => exact ⟨rfl, rfl, hview⟩
  | ok =>
    have hconfigured := configure_foretold steady role entry ⟨n.made⟩
      ⟨n.made + 1, around.note (.instantiated role entry.extension) s⟩
    simp only [haccepts hmakes.symm] at hconfigured
    have hnoted := (steady.note_view (.instantiated role entry.extension) s).trans hview
    obtain ⟨houtcome, hmade, hkept⟩ := hconfigured
    exact ⟨houtcome, hmade, hkept.trans hnoted⟩

theorem instantiate_foretold (steady : around.Steady view b) (role : Role) (entry : ProviderEntry)
    (n : Numbered σ) :
    (instantiate role entry).Foretold around view n
      (b.make role entry (around.resolve entry.extension n.state).1 n.made) := by
  have hview := steady.resolve_view entry.extension n.state
  simp only [Dialogue.Foretold, instantiate, Dialogue.run, Surroundings.answering]
  cases (around.resolve entry.extension n.state).1 with
  | none => exact ⟨rfl, rfl, hview⟩
  | some e =>
    by_cases he : e.role = role
    · obtain ⟨houtcome, hmade, hkept⟩ := construct_foretold steady entry he
        ⟨n.made, (around.resolve entry.extension n.state).2⟩
      simp only [if_pos he]
      exact ⟨houtcome, hmade, hkept.trans hview⟩
    · simp only [if_neg he, Behaviour.make]
      exact ⟨rfl, rfl, hview⟩

theorem instantiateAll_foretold (steady : around.Steady view b) (settings : Settings) (role : Role)
    (entries : List ProviderEntry) (n : Numbered σ) :
    (instantiateAll role entries).Foretold around view n
      (b.makeAll role (around.outlook settings n.state).found entries n.made) := by
  induction entries generalizing n with
  | nil => exact ⟨rfl, rfl, rfl⟩
  | cons entry rest ih =>
    obtain ⟨hfirst, hmade, hview⟩ := instantiate_foretold steady role entry n
    rcases hrun : (instantiate role entry).run around.answering n with ⟨first, n₁⟩
    rcases hmake : b.make role entry (around.resolve entry.extension n.state).1 n.made with ⟨o, k⟩
    simp only [hrun, hmake] at hfirst hmade hview
    subst hfirst hmade
    obtain ⟨hothers, hcount, hkept⟩ := ih n₁
    rw [steady.outlook_eq settings hview] at hothers hcount
    rcases hrest : (instantiateAll role rest).run around.answering n₁ with ⟨others, n₂⟩
    rcases hall : b.makeAll role (around.outlook settings n.state).found rest n₁.made with ⟨o, k⟩
    simp only [hrest, hall] at hothers hcount hkept
    subst hothers hcount
    have hfound : b.make role entry ((around.outlook settings n.state).found entry.extension) n.made =
        (first, n₁.made) := hmake
    simp only [Dialogue.Foretold, instantiateAll, Dialogue.run_bind, hrun, Behaviour.makeAll, hfound]
    cases first with
    | error e => exact ⟨rfl, rfl, hview⟩
    | ok p =>
      simp only [Dialogue.run_bind, hrest, hall]
      cases others with
      | error e => exact ⟨rfl, rfl, hkept.trans hview⟩
      | ok ps => exact ⟨rfl, rfl, hkept.trans hview⟩

theorem loadDocument_foretold (steady : around.Steady view b) (settings : Settings)
    (n : Numbered σ) :
    settings.loadDocument.Foretold around view n
      ((around.outlook settings n.state).loaded.mapError .config, n.made) := by
  have hnoted := steady.note_view (.loading settings.providersFile) n.state
  have hload := steady.load settings.providersFile hnoted
  have hview := (steady.load_view settings.providersFile _).trans hnoted
  simp only [Dialogue.Foretold, Settings.loadDocument, Dialogue.run, Surroundings.answering,
    Surroundings.outlook, ← hload]
  cases (around.load settings.providersFile
    (around.note (.loading settings.providersFile) n.state)).1 <;> exact ⟨rfl, rfl, hview⟩

theorem Settings.fill_foretold (steady : around.Steady view b) (settings : Settings) (s : Slot)
    (d : Option ProvidersDocument) (n : Numbered σ) :
    (settings.plan.fill s d).Foretold around view n
      ((around.outlook settings n.state).attempt b s d n.made) := by
  cases s with
  | document => exact loadDocument_foretold steady settings n
  | persistence =>
    rcases d with _ | ⟨_ | entry, hooks⟩
    · exact ⟨rfl, rfl, rfl⟩
    · exact ⟨rfl, rfl, rfl⟩
    · exact instantiate_foretold steady .persistence entry n
  | hooks =>
    rcases d with _ | ⟨entry, _ | ⟨hook, hooks⟩⟩
    · exact ⟨rfl, rfl, rfl⟩
    · exact ⟨rfl, rfl, steady.note_view .noHooks n.state⟩
    · exact instantiateAll_foretold steady settings .hook (hook :: hooks) n

end Runs

/-! ## Deployments -/

def Extension.behaviour : Behaviour where
  makes e := (e.make {}).1.map fun _ => ()
  accepts e c :=
    match (e.make {}).1 with
    | .ok p => (p.configure c {}).outcome
    | .error _ => .ok ()

theorem Extension.make_congr (e : Extension) (probe probe' : Probe) :
    (e.make probe).1 = (e.make probe').1 := by
  rcases e with ⟨identifier, description, implementation⟩
  cases implementation with
  | keeper | listener | failing => rfl
  | scripted role script => simp only [make]; split <;> rfl

theorem Provider.configure_congr (p : Provider) (c : Context) (probe probe' : Probe) :
    (p.configure c probe).outcome = (p.configure c probe').outcome := by
  cases p with
  | keeper identifier rejects kept => cases rejects <;> rfl
  | listener | scripted => rfl

namespace Deployment

theorem construct_fst (e : Extension) (p : Instance) (d : Deployment) :
    (d.construct e p).1 = Extension.behaviour.makes e := by
  have hmake := e.make_congr d.probe {}
  simp only [construct, Extension.behaviour, ← hmake]
  rcases e.make d.probe with ⟨made, probe⟩
  cases made <;> rfl

theorem configure_construct (e : Extension) (p : Instance) (event : LogEvent) (c : Context)
    (d : Deployment) (h : Extension.behaviour.makes e = .ok ()) :
    (configure p c ((d.construct e p).2.note [event])).1 = Extension.behaviour.accepts e c := by
  have hmake := e.make_congr d.probe {}
  simp only [Extension.behaviour, ← hmake] at h ⊢
  simp only [construct, configure, use, provider?, note]
  generalize e.make d.probe = result at h ⊢
  rcases result with ⟨made, probe⟩
  cases made with
  | error failure => cases h
  | ok provider =>
    -- the instance that was made last comes first among the providers
    simp only [List.lookup_cons_self]
    exact provider.configure_congr c _ _

/-- A factory cannot change the files of a deployment, nor which extensions are registered. -/
theorem steady :
    surroundings.Steady (fun d => (d.store, d.source, d.registry)) Extension.behaviour where
  load path d d' h := by
    simp only [Prod.mk.injEq] at h
    obtain ⟨hstore, hsource, -⟩ := h
    simp only [surroundings, load, fetch, hstore, hsource]
  resolve identifier d d' h := by
    simp only [Prod.mk.injEq] at h
    simp only [surroundings, resolve, h]
  makes e p d := d.construct_fst e p
  accepts e p event c d h := configure_construct e p event c d h
  load_view path d := rfl
  resolve_view identifier d := rfl
  construct_view e p d := by
    simp only [surroundings, construct]
    split <;> rfl
  configure_view p c d := by
    simp only [surroundings, configure, use]
    split <;> rfl
  note_view event d := rfl

end Deployment

end Provisioning
