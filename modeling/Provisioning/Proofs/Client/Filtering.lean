import Provisioning.Proofs.Client.Basic
import Provisioning.Proofs.Context
import Provisioning.Proofs.Reports

/-!
# Events for hook providers

A hook provider that notes events is given its choice of them by the entry that it was made for, and by
nothing else. So which events are noted, and by which providers, can be read off the document.
-/

namespace Provisioning

/-! ## Entries -/

namespace ProviderEntry

variable {entry : ProviderEntry} {e : HookEvent}

/-- Whether an entry asks for an event: of the kinds that it declares as its only one the last counts. -/
def selects (entry : ProviderEntry) (e : HookEvent) : Bool :=
  (Property.latest? entry.properties "only").all fun kind => kind = e.kind

theorem selects_iff :
    entry.selects e = true ↔ (∀ p ∈ entry.properties, p.name ≠ "only") ∨
      ∃ before after, entry.properties = before ++ ⟨"only", e.kind⟩ :: after ∧
        ∀ q ∈ after, q.name ≠ "only" := by
  rw [← Property.latest?_eq_none_iff, ← Property.latest?_eq_some_iff, selects]
  cases Property.latest? entry.properties "only" <;> simp

def listener (entry : ProviderEntry) : Provider :=
  .listener entry.extension (Property.latest? entry.properties "only")

theorem shouldHandle_listener (entry : ProviderEntry) (e : HookEvent) :
    entry.listener.shouldHandle e = entry.selects e := by
  rw [listener, selects]
  cases Property.latest? entry.properties "only" <;> rfl

theorem equip_listener (entry : ProviderEntry) (description : String) (probe : Probe) :
    (Extension.equip ⟨entry.extension, description, .listener⟩ (.ofProperties entry.properties)
      probe).1 = some entry.listener := by
  rw [listener, ← Context.get?_ofProperties]
  rfl

end ProviderEntry

/-! ## Dispatch -/

namespace Deployment

variable {d : Deployment} {entry : ProviderEntry} {entries : List ProviderEntry} {p : Instance}
  {ps : List Instance}

/-- Behind some instances are the providers that note events for some entries. -/
def Listening (d : Deployment) (entries : List ProviderEntry) (ps : List Instance) : Prop :=
  List.Forall₂ (fun entry p => d.provider? p = some entry.listener) entries ps

theorem Listening.congr {d' : Deployment} (h : d.Listening entries ps)
    (hsame : ∀ p, d'.provider? p = d.provider? p) : d'.Listening entries ps :=
  List.Forall₂.imp (fun _ p hp => (hsame p).trans hp) h

theorem shouldHandle_of_listener (h : d.provider? p = some entry.listener) (e : HookEvent) :
    d.shouldHandle e p = entry.selects e := by
  rw [shouldHandle, h, ← entry.shouldHandle_listener]
  rfl

theorem use_handle_listener (h : d.provider? p = some entry.listener) (e : HookEvent) :
    let used := d.use (Provider.handle e) p
    used.1 = .ok () ∧ used.2.probe = d.probe.grown [] 0 [(entry.extension, e.kind)] ∧
      ∀ q, used.2.provider? q = d.provider? q := by
  intro used
  refine ⟨?_, ?_, fun q => ?_⟩
  · simp only [used, use_of_provider h]
    rfl
  · simp only [used, use_of_provider h]
    exact (Probe.grown_handled ..).symm
  · by_cases hq : q = p
    · subst hq
      exact (provider?_use_self _ h).trans h.symm
    · exact provider?_use_of_ne _ hq

theorem dispatch_listening (h : d.Listening entries ps) (e : HookEvent) :
    let done := d.dispatch e ps
    done.1 = (entries.map fun entry => if entry.selects e then some (.ok ()) else none) ∧
      done.2.probe = d.probe.grown [] 0
        ((entries.filter fun entry => entry.selects e).map fun entry => (entry.extension, e.kind)) ∧
      ∀ q, done.2.provider? q = d.provider? q := by
  induction entries generalizing d ps with
  | nil =>
    obtain rfl := List.forall₂_nil_left_iff.mp h
    exact ⟨rfl, Probe.grown_nil.symm, fun _ => rfl⟩
  | cons entry entries ih =>
    obtain ⟨p, ps, hp, hothers, rfl⟩ := List.forall₂_cons_left_iff.mp h
    have hwants := shouldHandle_of_listener hp e
    cases hselects : entry.selects e with
    | false =>
      rw [hselects] at hwants
      obtain ⟨houtcomes, hprobe, hsame⟩ := ih hothers
      simp only [dispatch, hwants, List.map_cons, hselects, List.filter_cons]
      exact ⟨congrArg (none :: ·) houtcomes, hprobe, hsame⟩
    | true =>
      rw [hselects] at hwants
      obtain ⟨houtcome, hnoted, hkept⟩ := use_handle_listener hp e
      obtain ⟨houtcomes, hprobe, hsame⟩ := ih (Listening.congr hothers hkept)
      simp only [dispatch, hwants, List.map_cons, hselects, List.filter_cons, if_true]
      refine ⟨by rw [houtcome, houtcomes], ?_, fun q => (hsame q).trans (hkept q)⟩
      rw [hprobe, hnoted, Probe.grown_grown]
      rfl

end Deployment

namespace Host

variable {h : Host} {entries : List ProviderEntry} {ps : List Instance}

theorem dispatch_of_full (hfull : h.factory.cells.hooks = .full ps) (e : HookEvent) :
    h.dispatch e = (.ok (h.deployment.dispatch e ps).1,
      h.withDeployment (h.deployment.dispatch e ps).2) := by
  have hobtain : h.hookProviders = (.ok ps, h) := by
    have hget : h.factory.cells.get .hooks = .full ps := hfull
    simp only [hookProviders, Factory.hookProviders, Factory.obtain, hget, Cell.content?, resume]
  simp only [dispatch, withHooks, hobtain, act]

/-- Over several events, what is noted follows the events, and the entries for each of them. -/
theorem foldl_dispatch_listening (hfull : h.factory.cells.hooks = .full ps)
    (hl : h.deployment.Listening entries ps) (events : List HookEvent) :
    (events.foldl (fun h e => (h.dispatch e).2) h).deployment.probe =
      h.deployment.probe.grown [] 0 (events.flatMap fun e =>
        (entries.filter fun entry => entry.selects e).map fun entry => (entry.extension, e.kind)) := by
  induction events generalizing h with
  | nil => exact Probe.grown_nil.symm
  | cons e events ih =>
    obtain ⟨-, hprobe, hsame⟩ := Deployment.dispatch_listening hl e
    have hrest := ih (h := (h.dispatch e).2)
    rw [dispatch_of_full hfull] at hrest
    rw [List.foldl_cons, dispatch_of_full hfull, hrest hfull (Deployment.Listening.congr hl hsame)]
    rw [show (h.withDeployment (h.deployment.dispatch e ps).2).deployment.probe = _ from hprobe,
      Probe.grown_grown]
    rfl

end Host

/-! ## Documents -/

namespace Client

variable {c : Client} {p : Instance}

theorem after_listener (hc : c.cells.Settled) {identifier : String} {only : Option String}
    (hmade : p.number < c.around.made)
    (h : c.host.deployment.provider? p = some (.listener identifier only)) (moves : List Move) :
    (c.after moves).host.deployment.provider? p = some (.listener identifier only) := by
  refine (after_induction (P := fun c => c.cells.Settled ∧ p.number < c.around.made ∧
    c.host.deployment.provider? p = some (.listener identifier only)) moves ?_ ⟨hc, hmade, h⟩).2.2
  rintro c m - ⟨hc, hmade, h⟩
  obtain ⟨hless, hkeeps⟩ := move_keeps hc m
  refine ⟨move_settled hc m, Nat.lt_of_lt_of_le hmade hless, ?_⟩
  cases m with
  | call | make | register | rewrite => exact (hkeeps p hmade nofun).trans h
  | save | load | delete | handle =>
    refine (provider?_use h).trans ?_
    split <;> rfl

/-- Which events the hook providers note is what the document says of them, entry by entry. -/
theorem hook_filtering_follows_document (settings : Settings) (d : Deployment) (past later : List Move)
    {doc : ProvidersDocument}
    (hdoc : ((ofDeployment settings d).after past).cells.document = .full doc)
    (hempty : ((ofDeployment settings d).after past).cells.hooks = .empty)
    (hlisteners : ∀ entry ∈ doc.hooks, ∃ description,
      ((ofDeployment settings d).after past).host.deployment.registry.get? entry.extension =
        some ⟨entry.extension, description, .listener⟩) :
    let first := ((ofDeployment settings d).after past).move (.call .hookProviders)
    let c := first.2.after later
    let deployment := c.host.deployment
    ∃ ps, first.1 = .outcome (.ok (.providers ps)) ∧
      (c.move (.call .hookProviders)).1 = .outcome (.ok (.providers ps)) ∧
      ps.length = doc.hooks.length ∧
      (∀ (i : Nat) (entry : ProviderEntry) (p : Instance),
        doc.hooks[i]? = some entry → ps[i]? = some p → ∀ e : HookEvent, deployment.shouldHandle e p = true ↔
          (∀ q ∈ entry.properties, q.name ≠ "only") ∨
            ∃ before after, entry.properties = before ++ ⟨"only", e.kind⟩ :: after ∧
              ∀ q ∈ after, q.name ≠ "only") ∧
      (∀ events : List HookEvent,
        (events.foldl (fun h e => (h.dispatch e).2) c.host).deployment.probe.handled =
          deployment.probe.handled ++ events.flatMap fun e =>
          (doc.hooks.filter fun entry => entry.selects e).map fun entry =>
            (entry.extension, e.kind)) ∧
      ∀ (i j : Nat) (p q : Instance), ps[i]? = some p → ps[j]? = some q → i ≠ j →
        ∀ (α : Type) (act : Provider → Probe → Use α),
          (deployment.use act p).2.provider? q = deployment.provider? q ∧
            ∀ e, (deployment.use act p).2.shouldHandle e q = deployment.shouldHandle e q := by
  intro first c deployment
  have hsettled := after_settled (ofDeployment_settled settings d) past
  have hprovides : ∀ entry ∈ Slot.hooks.entries doc,
      ((ofDeployment settings d).after past).around.state.registry.provides Slot.hooks.role entry =
        true := by
    intro entry he
    obtain ⟨description, hx⟩ := hlisteners entry he
    exact Registry.provides_iff.mpr ⟨_, hx, rfl, rfl⟩
  obtain ⟨ps, hreply, hfull, hstands, hascending⟩ :=
    call_of_provides (s := .hooks) (by decide) hdoc hempty hprovides nofun
  -- what was made for an entry notes its events, and stays behind its instance in all later moves
  have hlistening : deployment.Listening doc.hooks ps := by
    refine List.Forall₂.imp ?_ ((List.forall₂_and_left _ _).mpr ⟨hlisteners, hstands⟩)
    rintro entry p ⟨⟨description, hx⟩, hstand⟩
    obtain ⟨y, probe, provider, hy, -, hequipped, hbehind⟩ := hstand.behind
    obtain rfl := Option.some.inj (hx.symm.trans hy)
    rw [entry.equip_listener description probe] at hequipped
    obtain rfl := Option.some.inj hequipped
    exact after_listener (c := first.2) (move_settled hsettled _) hstand.made hbehind later
  have hhooks : c.cells.hooks = .full ps :=
    after_within (move_settled hsettled _) later .hooks ps hfull
  have hagain := c.call_of_full (s := .hooks) hhooks
  refine ⟨ps, hreply, hagain, hlistening.length_eq.symm, ?_, ?_, ?_⟩
  · intro i entry p hentry hp e
    have hzip : (entry, p) ∈ doc.hooks.zip ps :=
      List.mem_of_getElem? (List.getElem?_zip_eq_some.mpr ⟨hentry, hp⟩)
    rw [Deployment.shouldHandle_of_listener (List.forall₂_zip hlistening hzip) e]
    exact ProviderEntry.selects_iff
  · intro events
    rw [Host.foldl_dispatch_listening hhooks hlistening events]
    rfl
  · intro i j p q hp hq hij α act
    have hnodup : ps.Nodup := hascending.imp fun hlt heq => Nat.ne_of_lt hlt (congrArg _ heq)
    have hne : q ≠ p := by
      rintro rfl
      have hi : i < ps.length := (List.getElem?_eq_some_iff.mp hp).choose
      exact hij ((List.getElem?_inj hi hnodup).mp (hp.trans hq.symm))
    have hsame := Deployment.provider?_use_of_ne (d := deployment) act hne
    exact ⟨hsame, fun e => by rw [Deployment.shouldHandle, hsame, Deployment.shouldHandle]⟩

/-- Four hooks, three of them of one extension. -/
def choosy : ProvidersDocument :=
  ⟨none, [⟨"note", [⟨"only", "a"⟩, ⟨"only", "b"⟩]⟩, ⟨"note", [⟨"level", "a"⟩]⟩, ⟨"note", []⟩,
    ⟨"audit", [⟨"only", "b"⟩, ⟨"only", "a"⟩]⟩]⟩

theorem hook_filtering_follows_choosy :
    let registry := (Registry.register {} ⟨"note", "", .listener⟩).register ⟨"audit", "", .listener⟩
    let d : Deployment := { source := .fixed choosy, registry := registry }
    let started := (ofDeployment {} d).after [.call .start]
    let first := started.move (.call .hookProviders)
    let c := first.2.after [.handle 0 ⟨"z", []⟩, .register ⟨"note", "", .keeper true⟩]
    started.cells.document = .full choosy ∧ started.cells.hooks = .empty ∧
      (∃ ps, first.1 = .outcome (.ok (.providers ps)) ∧ ps.length = 4 ∧
        ∀ p, ps[0]? = some p → c.host.deployment.shouldHandle ⟨"b", []⟩ p = true) ∧
      ([⟨"a", []⟩, ⟨"b", []⟩].foldl (fun h e => (h.dispatch e).2) c.host).deployment.probe.handled =
        [("note", "z"), ("note", "a"), ("note", "a"), ("audit", "a"), ("note", "b"), ("note", "b"),
          ("note", "b")] := by
  intro registry d started first c
  have hdoc : started.cells.document = .full choosy := by decide +kernel
  have hempty : started.cells.hooks = .empty := by decide +kernel
  have hlisteners : ∀ entry ∈ choosy.hooks, started.host.deployment.registry.get? entry.extension =
      some ⟨entry.extension, "", .listener⟩ := by decide +kernel
  obtain ⟨ps, hreply, -, hlength, hfilter, hdispatch, -⟩ :=
    hook_filtering_follows_document {} d [.call .start]
      [.handle 0 ⟨"z", []⟩, .register ⟨"note", "", .keeper true⟩] hdoc hempty
      fun entry he => ⟨"", hlisteners entry he⟩
  simp only [c, first, started] at hdoc hempty ⊢
  refine ⟨hdoc, hempty, ⟨ps, hreply, hlength, fun p hp => ?_⟩, ?_⟩
  · exact (hfilter 0 _ p rfl hp _).mpr (.inr ⟨[⟨"only", "a"⟩], [], rfl, nofun⟩)
  · exact (hdispatch [⟨"a", []⟩, ⟨"b", []⟩]).trans (by decide +kernel)

end Client

end Provisioning
