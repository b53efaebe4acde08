import Mathlib.Data.List.Forall2
import Provisioning.Proofs.Course.Lifecycle
import Provisioning.Proofs.Course.Steady

/-!
# What is behind the instances of a deployment

Every instance stands for a provider. Whoever makes providers puts new ones behind new instances and
leaves what is behind the old ones as it is; whoever uses an instance changes what is behind it, and
nothing else.
-/

namespace Provisioning

open Dialogue

/-! ## Providers behind instances -/

namespace Deployment

variable {d : Deployment} {p q : Instance} {provider : Provider}

theorem lookup_filter_of_ne (h : q ≠ p) (entries : List (Instance × Provider)) :
    (entries.filter fun e => e.1 ≠ p).lookup q = entries.lookup q := by
  induction entries with
  | nil => rfl
  | cons e entries ih =>
    rcases e with ⟨k, v⟩
    by_cases hk : k = p
    · subst hk
      rw [List.filter_cons_of_neg (by simp), ih, List.lookup_cons, beq_false_of_ne h]
    · rw [List.filter_cons_of_pos (by simpa using hk), List.lookup_cons, List.lookup_cons, ih]

@[simp] theorem provider?_replace_self : (d.replace p provider).provider? p = some provider :=
  List.lookup_cons_self

theorem provider?_replace_of_ne (h : q ≠ p) :
    (d.replace p provider).provider? q = d.provider? q := by
  rw [provider?, replace, List.lookup_cons, beq_false_of_ne h]
  exact lookup_filter_of_ne h d.providers

variable {α : Type} {act : Provider → Probe → Use α}

theorem use_of_provider (h : d.provider? p = some provider) :
    d.use act p = ((act provider d.probe).outcome,
      { d.replace p (act provider d.probe).provider with probe := (act provider d.probe).probe }) := by
  simp only [use, h]

theorem provider?_use_self (act : Provider → Probe → Use α) (h : d.provider? p = some provider) :
    (d.use act p).2.provider? p = some (act provider d.probe).provider := by
  rw [use_of_provider h]
  exact provider?_replace_self (d := d)

theorem provider?_use_of_ne (act : Provider → Probe → Use α) (h : q ≠ p) :
    (d.use act p).2.provider? q = d.provider? q := by
  cases hp : d.provider? p with
  | none => simp only [use, hp]
  | some provider =>
    rw [use_of_provider hp]
    exact provider?_replace_of_ne (d := d) h

theorem provider?_construct_of_ne (e : Extension) (h : q ≠ p) :
    (d.construct e p).2.provider? q = d.provider? q := by
  unfold construct
  split
  · simp only [provider?, List.lookup_cons, beq_false_of_ne h]
  · rfl

end Deployment

/-- The provider that an extension makes, once it is configured, if it makes one; and what was reported
by then. -/
def Extension.equip (e : Extension) (c : Context) (probe : Probe) : Option Provider × Probe :=
  match e.make probe with
  | (.ok p, probe) => (some (p.configure c probe).provider, (p.configure c probe).probe)
  | (.error _, probe) => (none, probe)

/-- What is behind old instances stays, and new ones get higher numbers. -/
structure Numbered.Keeps (n n' : Numbered Deployment) : Prop where
  made : n.made ≤ n'.made
  provider (q : Instance) (hq : q.number < n.made) : n'.state.provider? q = n.state.provider? q

namespace Numbered.Keeps

variable {n n' n'' : Numbered Deployment}

theorem refl (n : Numbered Deployment) : n.Keeps n :=
  ⟨Nat.le_refl _, fun _ _ => rfl⟩

theorem trans (h : n.Keeps n') (h' : n'.Keeps n'') : n.Keeps n'' where
  made := Nat.le_trans h.made h'.made
  provider q hq := by
    rw [h'.provider q (Nat.lt_of_lt_of_le hq h.made), h.provider q hq]

end Numbered.Keeps

/-! ## Making providers -/

section Making

variable {role : Role} {entry : ProviderEntry} {x : Extension} {p target : Instance}
  {n : Numbered Deployment}

theorem run_configure (role : Role) (entry : ProviderEntry) {made : Provider}
    (h : n.state.provider? target = some made) :
    let used := made.configure (.ofProperties entry.properties) n.state.probe
    let ran := (configure role entry target).run Deployment.surroundings.answering n
    ran.2.made = n.made ∧ ran.2.state.probe = used.probe ∧
      ran.2.state.provider? target = some used.provider ∧
      (∀ q, q ≠ target → ran.2.state.provider? q = n.state.provider? q) ∧
      ∀ p, ran.1 = .ok p → p = target := by
  let act := Provider.configure (.ofProperties entry.properties)
  have hself := Deployment.provider?_use_self act h
  have hothers := fun q => Deployment.provider?_use_of_ne (d := n.state) (p := target) (q := q) act
  simp only [configure, run, Surroundings.answering, Deployment.surroundings, Deployment.configure]
  rw [Deployment.use_of_provider h] at hself hothers ⊢
  cases (made.configure (.ofProperties entry.properties) n.state.probe).outcome with
  | error refusal => exact ⟨rfl, rfl, hself, hothers, fun _ hp => by cases hp⟩
  | ok => exact ⟨rfl, rfl, hself, hothers, fun p hp => (Except.ok.inj hp).symm⟩

theorem run_construct (role : Role) (entry : ProviderEntry) (x : Extension) (n : Numbered Deployment) :
    let equipped := x.equip (.ofProperties entry.properties) n.state.probe
    let ran := (construct role entry x).run Deployment.surroundings.answering n
    ran.2.made = n.made + 1 ∧ ran.2.state.probe = equipped.2 ∧
      (∀ q, q ≠ ⟨n.made⟩ → ran.2.state.provider? q = n.state.provider? q) ∧
      ∀ p, ran.1 = .ok p → p = ⟨n.made⟩ ∧
        ∃ provider, equipped.1 = some provider ∧ ran.2.state.provider? p = some provider := by
  intro equipped ran
  have hothers := fun q => Deployment.provider?_construct_of_ne (d := n.state) (p := ⟨n.made⟩) (q := q) x
  cases hmake : x.make n.state.probe with
  | mk result probe =>
    cases result with
    | error failure =>
      have hran : ran = (.error (.creation role entry.extension (.instantiationFailed failure)),
          ⟨n.made + 1, { n.state with probe := probe }⟩) := by
        simp only [ran, construct, run, Surroundings.answering, Surroundings.make,
          Deployment.surroundings, Deployment.construct, hmake]
        rfl
      have hequipped : equipped = (none, probe) := by
        simp only [equipped, Extension.equip, hmake]
      rw [hran, hequipped]
      exact ⟨rfl, rfl, fun _ _ => rfl, fun _ hp => by cases hp⟩
    | ok made =>
      let constructed : Deployment :=
        { n.state with providers := (⟨n.made⟩, made) :: n.state.providers, probe := probe }
      let noted := constructed.note [.instantiated role entry.extension]
      have hran : ran = (configure role entry ⟨n.made⟩).run Deployment.surroundings.answering
          ⟨n.made + 1, noted⟩ := by
        simp only [ran, construct, run, Surroundings.answering, Surroundings.make,
          Deployment.surroundings, Deployment.construct, hmake]
        rfl
      have hequipped : equipped = (some (made.configure (.ofProperties entry.properties) probe).provider,
          (made.configure (.ofProperties entry.properties) probe).probe) := by
        simp only [equipped, Extension.equip, hmake]
      have hbehind : noted.provider? ⟨n.made⟩ = some made := List.lookup_cons_self
      have hconstructed : (n.state.construct x ⟨n.made⟩).2 = constructed := by
        simp only [Deployment.construct, hmake, constructed]
      obtain ⟨hmade, hprobe, hself, hrest, htarget⟩ :=
        run_configure (n := ⟨n.made + 1, noted⟩) role entry hbehind
      rw [hran, hequipped]
      refine ⟨hmade, hprobe, fun q hq => (hrest q hq).trans ?_, fun p hp => ?_⟩
      · rw [hconstructed] at hothers
        exact hothers q hq
      · obtain rfl := htarget p hp
        exact ⟨rfl, _, rfl, hself⟩

theorem run_instantiate (role : Role) (entry : ProviderEntry) (n : Numbered Deployment) :
    let equip := fun x : Extension => x.equip (.ofProperties entry.properties) n.state.probe
    let found := (n.state.registry.get? entry.extension).filter fun x => x.role = role
    let ran := (instantiate role entry).run Deployment.surroundings.answering n
    n.Keeps ran.2 ∧ ran.2.state.probe = found.elim n.state.probe (fun x => (equip x).2) ∧
      ∀ p, ran.1 = .ok p → n.made ≤ p.number ∧ p.number < ran.2.made ∧
        ∃ x provider, found = some x ∧ (equip x).1 = some provider ∧
          ran.2.state.provider? p = some provider := by
  intro equip found ran
  cases hx : n.state.registry.get? entry.extension with
  | none =>
    have hran : ran = (.error (.creation role entry.extension .extensionNotFound), n) := by
      simp only [ran, instantiate, run, Surroundings.answering, Deployment.surroundings,
        Deployment.resolve, hx]
      rfl
    have hfound : found = none := by simp only [found, hx, Option.filter_none]
    rw [hran, hfound]
    exact ⟨.refl n, rfl, fun _ hp => by cases hp⟩
  | some x =>
    by_cases hr : x.role = role
    · have hran : ran = (construct role entry x).run Deployment.surroundings.answering n := by
        simp only [ran, instantiate, run, Surroundings.answering, Deployment.surroundings,
          Deployment.resolve, hx, if_pos hr]
      have hfound : found = some x := by simp [found, hx, hr]
      obtain ⟨hmade, hprobe, hothers, hok⟩ := run_construct role entry x n
      rw [hran, hfound]
      refine ⟨⟨?_, fun q hq => hothers q ?_⟩, hprobe, fun p hp => ?_⟩
      · omega
      · rintro rfl
        exact Nat.lt_irrefl _ hq
      · obtain ⟨rfl, provider, hequipped, hbehind⟩ := hok p hp
        exact ⟨Nat.le_refl _, by simp only [hmade]; omega, x, provider, rfl, hequipped, hbehind⟩
    · have hran : ran = (.error (.creation role entry.extension
          (.instantiationFailed (wrongRole x.role role))), n) := by
        simp only [ran, instantiate, run, Surroundings.answering, Deployment.surroundings,
          Deployment.resolve, hx, if_neg hr]
        rfl
      have hfound : found = none := by simp [found, hx, hr]
      rw [hran, hfound]
      exact ⟨.refl n, rfl, fun _ hp => by cases hp⟩

theorem registry_instantiate (role : Role) (entry : ProviderEntry) (n : Numbered Deployment) :
    ((instantiate role entry).run Deployment.surroundings.answering n).2.state.registry =
      n.state.registry :=
  congrArg (fun view => view.2.2) (instantiate_foretold Deployment.steady role entry n).2.2

end Making

/-- An instance that is new in a deployment was made for an entry, by the extension that it names, and was
configured with what it declares. -/
structure Numbered.Stands (n n' : Numbered Deployment) (role : Role) (entry : ProviderEntry)
    (p : Instance) : Prop where
  new : n.made ≤ p.number
  made : p.number < n'.made
  behind : ∃ x probe provider, n.state.registry.get? entry.extension = some x ∧ x.role = role ∧
    (x.equip (.ofProperties entry.properties) probe).1 = some provider ∧
    n'.state.provider? p = some provider

namespace Numbered.Stands

variable {n n' n'' : Numbered Deployment} {role : Role} {entry : ProviderEntry} {p : Instance}

theorem later (h : n.Stands n' role entry p) (hk : n'.Keeps n'') : n.Stands n'' role entry p where
  new := h.new
  made := Nat.lt_of_lt_of_le h.made hk.made
  behind := by
    rw [hk.provider p h.made]
    exact h.behind

theorem earlier (h : n'.Stands n'' role entry p) (hm : n.made ≤ n'.made)
    (hr : n'.state.registry = n.state.registry) : n.Stands n'' role entry p where
  new := Nat.le_trans hm h.new
  made := h.made
  behind := by
    rw [← hr]
    exact h.behind

theorem of_instantiate
    (h : ((instantiate role entry).run Deployment.surroundings.answering n).1 = .ok p) :
    n.Stands ((instantiate role entry).run Deployment.surroundings.answering n).2 role entry p := by
  obtain ⟨-, -, hok⟩ := run_instantiate role entry n
  obtain ⟨hnew, hmade, x, provider, hx, hequipped, hbehind⟩ := hok p h
  obtain ⟨hfound, hr⟩ := Option.filter_eq_some_iff.mp hx
  exact ⟨hnew, hmade, x, _, provider, hfound, by simpa using hr, hequipped, hbehind⟩

end Numbered.Stands

theorem run_instantiateAll_stands (role : Role) (entries : List ProviderEntry)
    (n : Numbered Deployment) :
    let ran := (instantiateAll role entries).run Deployment.surroundings.answering n
    n.Keeps ran.2 ∧ ∀ ps, ran.1 = .ok ps →
      List.Forall₂ (n.Stands ran.2 role) entries ps ∧ ps.Pairwise (·.number < ·.number) := by
  induction entries generalizing n with
  | nil => exact ⟨.refl n, fun ps hps => by cases hps; exact ⟨.nil, .nil⟩⟩
  | cons entry rest ih =>
    have hkeeps := (run_instantiate role entry n).1
    have hregistry := registry_instantiate role entry n
    have hfirst : ∀ p, ((instantiate role entry).run Deployment.surroundings.answering n).1 = .ok p →
        n.Stands ((instantiate role entry).run Deployment.surroundings.answering n).2 role entry p :=
      fun _ => .of_instantiate
    dsimp only
    rw [instantiateAll, run_bind]
    rcases hrun : (instantiate role entry).run Deployment.surroundings.answering n with ⟨first, n₁⟩
    simp only [hrun] at hkeeps hregistry hfirst
    cases first with
    | error e => exact ⟨hkeeps, fun _ hps => by cases hps⟩
    | ok p =>
      obtain ⟨hrest, hothers⟩ := ih n₁
      simp only [run_bind]
      rcases hall : (instantiateAll role rest).run Deployment.surroundings.answering n₁ with ⟨others, n₂⟩
      simp only [hall] at hrest hothers
      cases others with
      | error e => exact ⟨hkeeps.trans hrest, fun _ hps => by cases hps⟩
      | ok ps =>
        refine ⟨hkeeps.trans hrest, fun ps' hps' => ?_⟩
        obtain rfl : p :: ps = ps' := Except.ok.inj hps'
        obtain ⟨hstand, hascend⟩ := hothers ps rfl
        have hp := hfirst p rfl
        have hlater : List.Forall₂ (n.Stands n₂ role) rest ps :=
          hstand.imp fun _ _ hq => hq.earlier hkeeps.made hregistry
        have hnew : ∀ q ∈ ps, p.number < q.number :=
          ((List.forall₂_and_left _ _).mp
            (hstand.flip.imp fun _ _ hq => ⟨Nat.lt_of_lt_of_le hp.made hq.new, hq⟩)).1
        exact ⟨.cons (hp.later hrest) hlater, List.pairwise_cons.mpr ⟨hnew, hascend⟩⟩

/-! ## Extensions that can be relied on -/

/-- Whether something makes a provider at any time, and one that accepts any configuration. -/
def Implementation.isReliable : Implementation → Bool
  | .keeper rejects => !rejects
  | .listener => true
  | _ => false

def Registry.provides (r : Registry) (role : Role) (entry : ProviderEntry) : Bool :=
  (r.get? entry.extension).any fun x => x.role = role && x.implementation.isReliable

section Reliable

variable {role : Role} {entry : ProviderEntry} {n : Numbered Deployment}

theorem Registry.provides_iff {r : Registry} :
    r.provides role entry = true ↔
      ∃ x, r.get? entry.extension = some x ∧ x.role = role ∧ x.implementation.isReliable = true := by
  rw [provides, Option.any_eq_true]
  simp

theorem Extension.behaviour_of_reliable {x : Extension} (hx : x.implementation.isReliable = true)
    (c : Context) : behaviour.makes x = .ok () ∧ behaviour.accepts x c = .ok () := by
  rcases x with ⟨identifier, description, implementation⟩
  cases implementation with
  | keeper rejects =>
    obtain rfl : rejects = false := by simpa [Implementation.isReliable] using hx
    exact ⟨rfl, rfl⟩
  | listener => exact ⟨rfl, rfl⟩
  | failing | scripted => cases hx

theorem run_instantiate_of_provides (h : n.state.registry.provides role entry = true) :
    ((instantiate role entry).run Deployment.surroundings.answering n).1 = .ok ⟨n.made⟩ := by
  obtain ⟨x, hx, hr, hreliable⟩ := Registry.provides_iff.mp h
  obtain ⟨hmakes, haccepts⟩ :=
    Extension.behaviour_of_reliable hreliable (.ofProperties entry.properties)
  have hfound : (Deployment.surroundings.resolve entry.extension n.state).1 = some x := hx
  rw [(instantiate_foretold Deployment.steady role entry n).1, hfound]
  simp only [Behaviour.make, if_pos hr, hmakes, haccepts]

theorem run_instantiateAll_of_provides {entries : List ProviderEntry}
    (h : ∀ entry ∈ entries, n.state.registry.provides role entry = true) :
    ∃ ps, ((instantiateAll role entries).run Deployment.surroundings.answering n).1 = .ok ps := by
  induction entries generalizing n with
  | nil => exact ⟨[], rfl⟩
  | cons entry rest ih =>
    have hfirst := run_instantiate_of_provides (h entry List.mem_cons_self)
    have hregistry := registry_instantiate role entry n
    obtain ⟨ps, hps⟩ := ih (n := ((instantiate role entry).run Deployment.surroundings.answering n).2)
      fun entry' he => by
        rw [hregistry]
        exact h entry' (List.mem_cons_of_mem _ he)
    refine ⟨⟨n.made⟩ :: ps, ?_⟩
    rw [instantiateAll, run_bind, hfirst]
    simp only [run_bind, hps, run]

end Reliable

/-! ## Calls -/

theorem Settings.run_fill_stands (settings : Settings) {s : Slot} (hs : s ≠ .document)
    (doc : ProvidersDocument) (n : Numbered Deployment) :
    let ran := (settings.plan.fill s (some doc)).run Deployment.surroundings.answering n
    n.Keeps ran.2 ∧ ∀ a, ran.1 = .ok a →
      List.Forall₂ (n.Stands ran.2 s.role) (s.entries doc) (s.instances a) ∧
        (s.instances a).Pairwise (·.number < ·.number) := by
  cases s with
  | document => exact (hs rfl).elim
  | persistence =>
    rcases doc with ⟨_ | entry, hooks⟩
    · exact ⟨.refl n, fun _ hp => by cases hp⟩
    · refine ⟨(run_instantiate .persistence entry n).1, fun p hp => ⟨.cons ?_ .nil, ?_⟩⟩
      · exact .of_instantiate hp
      · exact List.pairwise_singleton _ _
  | hooks =>
    rcases doc with ⟨entry, _ | ⟨hook, hooks⟩⟩
    · exact ⟨⟨Nat.le_refl _, fun _ _ => rfl⟩, fun ps hps => by cases hps; exact ⟨.nil, .nil⟩⟩
    · exact run_instantiateAll_stands .hook (hook :: hooks) n

/-- Nothing fails where all that the document names can be relied on. -/
theorem Settings.run_fill_of_provides (settings : Settings) {s : Slot} (hs : s ≠ .document)
    {doc : ProvidersDocument} {n : Numbered Deployment}
    (hprovides : ∀ entry ∈ s.entries doc, n.state.registry.provides s.role entry = true)
    (hsome : s = .persistence → doc.persistence.isSome) :
    ∃ a, ((settings.plan.fill s (some doc)).run Deployment.surroundings.answering n).1 = .ok a := by
  cases s with
  | document => exact (hs rfl).elim
  | persistence =>
    rcases doc with ⟨_ | entry, hooks⟩
    · cases hsome rfl
    · exact ⟨_, run_instantiate_of_provides (hprovides entry (.head _))⟩
  | hooks =>
    rcases doc with ⟨entry, _ | ⟨hook, hooks⟩⟩
    · exact ⟨[], rfl⟩
    · exact run_instantiateAll_of_provides hprovides

theorem Settings.run_fill_keeps (settings : Settings) (s : Slot) (d : Option ProvidersDocument)
    (n : Numbered Deployment) :
    n.Keeps ((settings.plan.fill s d).run Deployment.surroundings.answering n).2 := by
  by_cases hs : s = .document
  · subst hs
    change n.Keeps (settings.loadDocument.run Deployment.surroundings.answering n).2
    rw [settings.run_loadDocument Deployment.surroundings n]
    exact ⟨Nat.le_refl _, fun _ _ => rfl⟩
  · cases d with
    | none =>
      cases s with
      | document => exact (hs rfl).elim
      | persistence | hooks => exact .refl n
    | some doc => exact (settings.run_fill_stands hs doc n).1

namespace Factory

variable {f : Factory (Numbered Deployment)}

theorem perform_keeps (settings : Settings) (hf : f.cells.Settled) (call : Call) :
    f.around.Keeps (f.perform settings.plan Deployment.surroundings.answering call).2.around := by
  have spec := perform_spec settings.plan Deployment.surroundings.answering hf call
  generalize f.perform settings.plan Deployment.surroundings.answering call = done at spec
  rcases done with ⟨outcome, f'⟩
  cases spec with
  | glance => exact .refl _
  | @share s a h =>
    cases s with
    | document => exact ⟨Nat.le_refl _, fun _ _ => rfl⟩
    | persistence | hooks => exact .refl _
  | @attempt s outcome around h run =>
    have hkeeps := settings.run_fill_keeps s f.cells.document.content? f.around
    rw [run] at hkeeps
    exact hkeeps

/-- A cell becomes full when new instances are made, one for each entry that the document has for it. -/
theorem perform_stands (settings : Settings) (hf : f.cells.Settled) (call : Call) {s : Slot}
    (hs : s ≠ .document) {a : s.Content} :
    let f' := (f.perform settings.plan Deployment.surroundings.answering call).2
    f'.cells.get s = .full a → f.cells.get s = .full a ∨
      ∃ doc, f.cells.document = .full doc ∧
        List.Forall₂ (f.around.Stands f'.around s.role) (s.entries doc) (s.instances a) := by
  have spec := perform_spec settings.plan Deployment.surroundings.answering hf call
  generalize f.perform settings.plan Deployment.surroundings.answering call = done at spec
  rcases done with ⟨outcome, f'⟩
  intro f'' hfull
  cases spec with
  | glance | share => exact .inl hfull
  | @attempt s' outcome around hempty run =>
    by_cases heq : s = s'
    · subst heq
      cases outcome with
      | error e => cases (Cells.get_settle_error f.cells s e).symm.trans hfull
      | ok b =>
        obtain rfl : b = a := Cell.full.inj ((Cells.get_settle_ok f.cells s b).symm.trans hfull)
        cases hdoc : f.cells.document with
        | claimed => exact (hf .document hdoc).elim
        | empty =>
          rw [hdoc] at run
          cases s with
          | document => exact (hs rfl).elim
          | persistence | hooks => cases run
        | full doc =>
          rw [hdoc] at run
          obtain ⟨-, hstands⟩ := settings.run_fill_stands hs doc f.around
          rw [show (settings.plan.fill s (some doc)).run Deployment.surroundings.answering f.around = _
            from run] at hstands
          exact .inr ⟨doc, rfl, (hstands b rfl).1⟩
    · exact .inl ((Cells.get_settle_of_ne _ _ heq).symm.trans hfull)

end Factory

end Provisioning
