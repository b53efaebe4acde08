import Provisioning.Proofs.Client.Basic
import Provisioning.Proofs.Course.Thinning
import Provisioning.Proofs.Reports

/-!
# The books of a client

A client of stubs can tell from its moves and what came of them all that was reported: the providers that
were made, the configurations that they were given and the events that they handled.
-/

namespace Provisioning

/-! ## Providers that report -/

/-- The role and the identifier of a provider that keeps content or notes events. -/
def Provider.stub? : Provider → Option (Role × String)
  | keeper identifier _ _ => some (.persistence, identifier)
  | listener identifier _ => some (.hook, identifier)
  | scripted .. => none

namespace Provider

variable (p : Provider) (probe : Probe)

@[simp] theorem stub?_save (key : String) (content : List UInt8) :
    (p.save key content probe).provider.stub? = p.stub? := by
  cases p <;> rfl

@[simp] theorem stub?_load (key : String) : (p.load key probe).provider.stub? = p.stub? := by
  cases p <;> rfl

@[simp] theorem stub?_delete (key : String) : (p.delete key probe).provider.stub? = p.stub? := by
  cases p <;> rfl

@[simp] theorem stub?_handle (e : HookEvent) : (p.handle e probe).provider.stub? = p.stub? := by
  cases p <;> rfl

end Provider

theorem Extension.stub?_equip {x : Extension} {c : Context} {probe : Probe} {p : Provider}
    (hx : x.implementation.isStub = true) (h : (x.equip c probe).1 = some p) :
    p.stub? = some (x.role, x.identifier) := by
  rcases x with ⟨identifier, description, implementation⟩
  cases implementation with
  | scripted => cases hx
  | failing => cases h
  | listener =>
    obtain rfl := Option.some.inj h
    rfl
  | keeper rejects =>
    obtain rfl := Option.some.inj h
    cases rejects <;> rfl

def Reaction.refused : Reaction → Bool
  | .outcome o => Provisioning.refused o
  | _ => false

namespace Client

variable {c : Client} {m : Move} {role : Role} {identifier : String} {q : Instance}

/-- An instance that is there serves a role, for the extension with an identifier. -/
structure Serves (c : Client) (role : Role) (identifier : String) (q : Instance) : Prop where
  made : q.number < c.around.made
  stub : (c.host.deployment.provider? q).bind Provider.stub? = some (role, identifier)

namespace Serves

theorem use {α : Type} {act : Provider → Probe → Use α} {reaction : Except ProviderError α → Reaction}
    {target : Option Instance} (h : c.Serves role identifier q)
    (hact : ∀ p probe, (act p probe).provider.stub? = p.stub?) :
    ((c.use act reaction target).2.host.deployment.provider? q).bind Provider.stub? =
      some (role, identifier) := by
  obtain ⟨provider, hprovider, hstub⟩ := Option.bind_eq_some_iff.mp h.stub
  rw [provider?_use hprovider, Option.bind_some]
  split
  · rw [hact, hstub]
  · exact hstub

theorem move (hc : c.cells.Settled) (h : c.Serves role identifier q) (m : Move) :
    (c.move m).2.Serves role identifier q where
  made := Nat.lt_of_lt_of_le h.made (move_keeps hc m).1
  stub := by
    have hkeeps := (move_keeps hc m).2 q h.made
    cases m with
    | call | make | register | rewrite =>
      rw [hkeeps nofun]
      exact h.stub
    | save | load | delete | handle => exact h.use (by simp)

theorem of_stands {n : Numbered Deployment} {entry : ProviderEntry} (hr : n.state.registry.OfStubs)
    (h : n.Stands c.around role entry q) : c.Serves role entry.extension q where
  made := h.made
  stub := by
    obtain ⟨x, probe, provider, hx, rfl, hequipped, hbehind⟩ := h.behind
    have hbehind' : c.host.deployment.provider? q = some provider := hbehind
    rw [hbehind', Option.bind_some, Extension.stub?_equip (hr.isStub hx) hequipped, hr.identifier hx]

end Serves

structure OfStubs (c : Client) : Prop where
  settled : c.cells.Settled
  registry : c.host.deployment.registry.OfStubs
  cell {s : Slot} (hs : s ≠ .document) {a : s.Content} (h : c.cells.get s = .full a) :
    ∃ doc, c.cells.document = .full doc ∧
      List.Forall₂ (fun entry q => c.Serves s.role entry.extension q) (s.entries doc) (s.instances a)
  stores : ∀ q ∈ c.stores, ∃ identifier, c.Serves .persistence identifier q
  hooks : ∀ h ∈ c.hooks, c.Serves .hook h.1.extension h.2

namespace OfStubs

theorem ofDeployment {settings : Settings} {d : Deployment} (h : d.registry.OfStubs) :
    (ofDeployment settings d).OfStubs where
  settled := ofDeployment_settled settings d
  registry := h
  cell {s} _ _ hfull := by cases s <;> cases hfull
  stores := nofun
  hooks := nofun

theorem move_registry (h : c.OfStubs) (hm : ∀ e, m = .register e → e.implementation.isStub = true) :
    (c.move m).2.host.deployment.registry.OfStubs := by
  cases m with
  | call call =>
    have hview := (Factory.perform_view Deployment.steady c.host.settings h.settled call).2
    have hsame : (c.host.perform call).2.deployment.registry = c.host.deployment.registry :=
      congrArg (fun view => view.2.2) hview
    rw [Client.move, call_host, hsame]
    exact h.registry
  | make role entry =>
    have hsame : (c.host.instantiate role entry).2.deployment.registry = c.host.deployment.registry :=
      registry_instantiate role entry c.around
    rw [Client.move, make_host, hsame]
    exact h.registry
  | register e => exact h.registry.register (hm e rfl)
  | rewrite => exact h.registry
  | save | load | delete | handle =>
    rw [Client.move, use_registry]
    exact h.registry

theorem move_cell (h : c.OfStubs) (m : Move) {s : Slot} (hs : s ≠ .document) {a : s.Content}
    (hfull : (c.move m).2.cells.get s = .full a) :
    ∃ doc, (c.move m).2.cells.document = .full doc ∧
      List.Forall₂ (fun entry q => (c.move m).2.Serves s.role entry.extension q) (s.entries doc)
        (s.instances a) := by
  rcases move_stands h.settled m hs hfull with hold | ⟨doc, hdoc, hstands⟩
  · obtain ⟨doc, hdoc, hserves⟩ := h.cell hs hold
    exact ⟨doc, move_within h.settled m .document doc hdoc,
      hserves.imp fun _ _ hq => hq.move h.settled m⟩
  · exact ⟨doc, move_within h.settled m .document doc hdoc,
      hstands.imp fun _ _ hq => .of_stands h.registry hq⟩

theorem move_stores (h : c.OfStubs) (m : Move) :
    ∀ q ∈ (c.move m).2.stores, ∃ identifier, (c.move m).2.Serves .persistence identifier q := by
  have hold : ∀ q ∈ c.stores, ∃ identifier, (c.move m).2.Serves .persistence identifier q := by
    intro q hq
    obtain ⟨identifier, hserves⟩ := h.stores q hq
    exact ⟨identifier, hserves.move h.settled m⟩
  cases m with
  | call call =>
    intro q hq
    rcases mem_stores_call.mp hq with hq | hreply
    · exact hold q hq
    · obtain ⟨-, hfull⟩ := cells_of_reply h.settled (s := .persistence) (by decide) hreply
      obtain ⟨doc, -, hserves⟩ := h.move_cell (.call call) (s := .persistence) (by decide) hfull
      obtain ⟨entry, -, hq, -, -⟩ := List.forall₂_cons_right_iff.mp hserves
      exact ⟨entry.extension, hq⟩
  | make => simpa only [Client.move, make_stores] using hold
  | register | rewrite => exact hold
  | save | load | delete | handle => simpa only [Client.move, use_stores] using hold

theorem move_hooks (h : c.OfStubs) (m : Move) :
    ∀ hook ∈ (c.move m).2.hooks, (c.move m).2.Serves .hook hook.1.extension hook.2 := by
  have hold : ∀ hook ∈ c.hooks, (c.move m).2.Serves .hook hook.1.extension hook.2 :=
    fun hook hm => (h.hooks hook hm).move h.settled m
  cases m with
  | call call =>
    intro hook hm
    rcases mem_hooks_call.mp hm with hm | ⟨ps, hreply, hzip⟩
    · exact hold hook hm
    · obtain ⟨-, hfull⟩ := cells_of_reply h.settled (s := .hooks) (by decide) hreply
      obtain ⟨doc, hdoc, hserves⟩ := h.move_cell (.call call) (s := .hooks) (by decide) hfull
      rw [show (c.call call).2.cells.document = .full doc from hdoc] at hzip
      exact List.forall₂_zip hserves hzip
  | make role entry =>
    intro hook hm
    rcases mem_hooks_make.mp hm with hm | ⟨rfl, p, hmade, rfl⟩
    · exact hold hook hm
    · have haround : (c.move (.make .hook entry)).2.around =
          ((instantiate .hook entry).run Deployment.surroundings.answering c.around).2 :=
        congrArg (fun host => host.factory.around) (c.make_host .hook entry)
      have hstands := Numbered.Stands.of_instantiate (n := c.around) hmade
      rw [← haround] at hstands
      exact .of_stands h.registry hstands
  | register | rewrite => exact hold
  | save | load | delete | handle => simpa only [Client.move, use_hooks] using hold

theorem move (h : c.OfStubs) (hm : ∀ e, m = .register e → e.implementation.isStub = true) :
    (c.move m).2.OfStubs where
  settled := move_settled h.settled m
  registry := h.move_registry hm
  cell := h.move_cell m
  stores := h.move_stores m
  hooks := h.move_hooks m

end OfStubs

/-! ## Accounts -/

/-- The entries that a move tries, each for a role, as long as none fails. -/
def tasks (c : Client) : Move → List (Role × ProviderEntry)
  | .call call => c.host.factory.tasks call
  | .make role entry => [(role, entry)]
  | _ => []

def accepted (c : Client) (m : Move) : List (String × Context) :=
  c.host.deployment.registry.accepted (c.tasks m)

def handled (c : Client) : Move → List (String × String)
  | .handle nth event => (c.hooks[nth]?.map fun hook => (hook.1.extension, event.kind)).toList
  | _ => []

theorem refused_use {α : Type} {act : Provider → Probe → Use α}
    {reaction : Except ProviderError α → Reaction} {target : Option Instance}
    (h : ∀ outcome, (reaction outcome).refused = false) :
    (c.use act reaction target).1.refused = false := by
  rcases c.use_reaction with hnone | ⟨outcome, hreaction⟩
  · rw [hnone]
    rfl
  · rw [hreaction, h]

namespace OfStubs

theorem probe_use_store (h : c.OfStubs) {α : Type} {act : Provider → Probe → Use α}
    {reaction : Except ProviderError α → Reaction} (nth : Nat)
    (hact : ∀ identifier rejects kept probe,
      (act (.keeper identifier rejects kept) probe).probe = probe) :
    (c.use act reaction c.stores[nth]?).2.host.deployment.probe = c.host.deployment.probe := by
  cases hq : c.stores[nth]? with
  | none => rfl
  | some q =>
    obtain ⟨identifier, hserves⟩ := h.stores q (List.mem_of_getElem? hq)
    obtain ⟨provider, hprovider, hstub⟩ := Option.bind_eq_some_iff.mp hserves.stub
    rw [probe_use hprovider]
    cases provider with
    | keeper => exact hact ..
    | listener | scripted => cases hstub

theorem provider?_hook (h : c.OfStubs) {nth : Nat} {entry : ProviderEntry}
    (hq : c.hooks[nth]? = some (entry, q)) :
    ∃ only, c.host.deployment.provider? q = some (.listener entry.extension only) := by
  obtain ⟨provider, hprovider, hstub⟩ :=
    Option.bind_eq_some_iff.mp (h.hooks _ (List.mem_of_getElem? hq)).stub
  cases provider with
  | keeper | scripted => cases hstub
  | listener identifier only =>
    obtain rfl : identifier = entry.extension := by simpa [Provider.stub?] using hstub
    exact ⟨only, hprovider⟩

theorem move_reports (h : c.OfStubs) {outcome : Outcome} (ho : (c.move m).1 = .outcome outcome) :
    c.around.Reports (c.move m).2.around (c.tasks m) outcome := by
  cases m with
  | call call =>
    obtain rfl : (c.host.perform call).1 = outcome := Reaction.outcome.inj ho
    rw [Client.around, Client.around, Client.move, call_host]
    exact Factory.perform_reports c.host.settings h.settled h.registry call
  | make role entry =>
    rw [Client.move, make_fst] at ho
    obtain rfl := Reaction.outcome.inj ho
    rw [Client.around, Client.around, Client.move, make_host]
    exact (run_instantiate_reports (n := c.around) h.registry role entry).map Reply.provider
  | register | rewrite => cases ho
  | save | load | delete | handle =>
    rcases use_reaction with hnone | ⟨_, hreaction⟩
    · cases hnone.symm.trans ho
    · cases hreaction.symm.trans ho

theorem move_probe (h : c.OfStubs) (m : Move) :
    (c.move m).2.host.deployment.probe = c.host.deployment.probe.grown (c.accepted m)
      (c.move m).1.refused.toNat (c.handled m) := by
  cases m with
  | call call => exact (h.move_reports (m := .call call) rfl).probe
  | make role entry =>
    have hreaction : (c.move (.make role entry)).1 = _ := c.make_fst role entry
    rw [hreaction]
    exact (h.move_reports hreaction).probe
  | register | rewrite => exact Probe.grown_nil.symm
  | save nth | load nth | delete nth =>
    rw [Client.move, refused_use]
    · refine (h.probe_use_store nth ?_).trans Probe.grown_nil.symm
      exact fun _ _ _ _ => rfl
    · exact fun _ => rfl
  | handle nth event =>
    rw [Client.move, refused_use fun _ => rfl]
    cases hhook : c.hooks[nth]? with
    | none =>
      rw [handled, hhook]
      exact Probe.grown_nil.symm
    | some hook =>
      rcases hook with ⟨entry, q⟩
      obtain ⟨only, hbehind⟩ := h.provider?_hook hhook
      rw [handled, hhook]
      exact (probe_use hbehind).trans (Probe.grown_handled ..).symm

theorem after (h : c.OfStubs) {moves : List Move}
    (hm : ∀ e, .register e ∈ moves → e.implementation.isStub = true) : (c.after moves).OfStubs :=
  after_induction (P := OfStubs) moves (fun _ _ hmem h => h.move fun e he => hm e (he ▸ hmem)) h

theorem of_mem_turns (h : c.OfStubs) {moves : List Move}
    (hm : ∀ e, .register e ∈ moves → e.implementation.isStub = true) {t : Turn}
    (ht : t ∈ c.turns moves) : t.client.OfStubs := by
  obtain ⟨past, later, rfl, hclient⟩ := mem_turns ht
  rw [hclient]
  exact h.after fun e he => hm e (List.mem_append_left _ he)

/-- What is reported in all is what is reported in each turn, in order. -/
theorem after_probe (h : c.OfStubs) {moves : List Move}
    (hm : ∀ e, .register e ∈ moves → e.implementation.isStub = true) :
    (c.after moves).host.deployment.probe = c.host.deployment.probe.grown
      ((c.turns moves).flatMap fun t => t.client.accepted t.move)
      ((c.turns moves).countP fun t => t.reaction.refused)
      ((c.turns moves).flatMap fun t => t.client.handled t.move) := by
  induction moves generalizing c with
  | nil => exact Probe.grown_nil.symm
  | cons m moves ih =>
    have hmove := h.move (m := m) fun e he => hm e (he ▸ List.mem_cons_self)
    have hrest := ih hmove fun e he => hm e (List.mem_cons_of_mem _ he)
    have hcount : ((c.turns (m :: moves)).countP fun t => t.reaction.refused) =
        (c.move m).1.refused.toNat +
          (((c.move m).2.turns moves).countP fun t => t.reaction.refused) := by
      rw [turns, List.countP_cons, Nat.add_comm]
      cases h : (c.move m).1.refused <;> simp [Turn.reaction, h]
    rw [hcount, turns, List.flatMap_cons, List.flatMap_cons, ← Probe.grown_grown, ← h.move_probe m]
    exact hrest

/-- A refusal comes of the first entry that fails. -/
theorem move_refuses (h : c.OfStubs) (hrefused : (c.move m).1.refused = true) :
    ∃ task e, c.host.deployment.registry.failing? (c.tasks m) = some task ∧
      c.host.deployment.registry.Refuses task e ∧ (c.move m).1 = .outcome (.error e) := by
  rcases ho : (c.move m).1 with _ | outcome | _ | _ | _ | _
  case outcome =>
    rw [ho] at hrefused
    cases outcome with
    | ok => cases hrefused
    | error e =>
      obtain ⟨task, hfailing, hrefuses⟩ :=
        (h.move_reports ho).refuses e rfl (of_decide_eq_true hrefused)
      exact ⟨task, e, hfailing, hrefuses, rfl⟩
  all_goals
    rw [ho] at hrefused
    cases hrefused

theorem not_refused_of_barren (h : c.OfStubs)
    (hbarren : ∀ task, c.host.deployment.registry.failing? (c.tasks m) = some task →
      c.host.deployment.registry.IsBarren task) : (c.move m).1.refused = false := by
  rw [Bool.eq_false_iff]
  intro hrefused
  obtain ⟨task, e, hfailing, hrefuses, -⟩ := h.move_refuses hrefused
  exact (hbarren task hfailing).not_refuses e hrefuses

/-- Among entries of which nothing comes, nothing is made and no configuration is refused. -/
theorem probe_of_barren (h : c.OfStubs) (hhandled : c.handled m = [])
    (hbarren : ∀ task ∈ c.tasks m, c.host.deployment.registry.IsBarren task) :
    (c.move m).2.host.deployment.probe = c.host.deployment.probe := by
  have hnone : (c.move m).1.refused = false := h.not_refused_of_barren fun task ht =>
    hbarren task (List.mem_of_find?_eq_some ht)
  have haccepted : c.accepted m = [] := Registry.accepted_of_barren hbarren
  rw [h.move_probe m, hhandled, hnone, haccepted]
  exact Probe.grown_nil

theorem move_handle (h : c.OfStubs) (event : HookEvent) {nth : Nat} {entry : ProviderEntry}
    (hq : c.hooks[nth]? = some (entry, q)) :
    let next := c.move (.handle nth event)
    next.1 = .handled (.ok ()) ∧
      next.2.host.deployment.probe =
        c.host.deployment.probe.noteHandled entry.extension event.kind ∧
      (∀ q', next.2.host.deployment.provider? q' = c.host.deployment.provider? q') ∧
      next.2.stores = c.stores ∧ next.2.hooks = c.hooks ∧
      next.2.host = c.host.withDeployment
        { c.host.deployment with
          providers := next.2.host.deployment.providers, probe := next.2.host.deployment.probe } := by
  obtain ⟨only, hbehind⟩ := h.provider?_hook hq
  have hnext : c.move (.handle nth event) = c.use (Provider.handle event) .handled (some q) := by
    rw [Client.move, hq]
    rfl
  dsimp only
  rw [hnext]
  refine ⟨reaction_use hbehind, probe_use hbehind, fun q' => ?_, rfl, rfl, ?_⟩
  · by_cases hq' : q' = q
    · subst hq'
      rw [provider?_use hbehind, hbehind]
      split <;> rfl
    · exact Deployment.provider?_use_of_ne _ hq'
  · simp only [use, Host.act, Deployment.use_of_provider hbehind]
    rfl

end OfStubs

/-- All that stubs report is what the moves of a client and their outcomes account for. -/
theorem reports_account_for_moves (settings : Settings) (d : Deployment) (moves : List Move)
    (hstubs : d.registry.OfStubs) (hprobe : d.probe = {})
    (hmoves : ∀ e, .register e ∈ moves → e.implementation.isStub = true) :
    let turns := (ofDeployment settings d).turns moves
    let c := (ofDeployment settings d).after moves
    let registry := c.host.deployment.registry
    let probe := c.host.deployment.probe
    (probe.configured = probe.configurations.length ∧
      probe.configurations = (turns.flatMap fun t => t.client.accepted t.move) ∧
      probe.configured ≤ probe.constructed ∧
      probe.constructed - probe.configured = (turns.countP fun t => t.reaction.refused) ∧
      probe.handled = turns.flatMap fun t => t.client.handled t.move) ∧
    (∀ t ∈ turns, ∀ reply, t.reaction = .outcome (.ok reply) →
      t.client.accepted t.move = (t.client.tasks t.move).map fun task => task.2.declared) ∧
    (∀ t ∈ turns, t.reaction.refused = true →
      ∃ task e, t.client.host.deployment.registry.failing? (t.client.tasks t.move) = some task ∧
        t.client.host.deployment.registry.Refuses task e ∧ t.reaction = .outcome (.error e)) ∧
    (∀ m, c.handled m = [] → (∀ task ∈ c.tasks m, registry.IsBarren task) →
      (c.move m).2.host.deployment.probe = probe) ∧
    (∀ m task, registry.failing? (c.tasks m) = some task → registry.IsBarren task →
      (c.move m).2.host.deployment.probe = probe.grown (c.accepted m) 0 []) ∧
    (∀ s a, c.cells.get s = .full a → (c.move (.call s.call)).2.host.deployment.probe = probe) ∧
    ∀ nth event entry p, c.hooks[nth]? = some (entry, p) →
      let next := c.move (.handle nth event)
      next.1 = .handled (.ok ()) ∧
        next.2.host.deployment.probe = probe.noteHandled entry.extension event.kind ∧
        (∀ q, next.2.host.deployment.provider? q = c.host.deployment.provider? q) ∧
        next.2.stores = c.stores ∧ next.2.hooks = c.hooks ∧
        next.2.host = c.host.withDeployment
          { c.host.deployment with
            providers := next.2.host.deployment.providers, probe := next.2.host.deployment.probe } := by
  intro turns c registry probe
  have hfirst : (ofDeployment settings d).OfStubs := .ofDeployment hstubs
  have hnow : c.OfStubs := hfirst.after hmoves
  have hreported : probe = _ := hfirst.after_probe hmoves
  rw [show (ofDeployment settings d).host.deployment.probe = {} from hprobe] at hreported
  refine ⟨?_, ?_, ?_, fun m => hnow.probe_of_barren, ?_, ?_, ?_⟩
  · rw [hreported]
    simp [Probe.grown, turns]
  · intro t ht reply hreply
    have hprovides := ((hfirst.of_mem_turns hmoves ht).move_reports hreply).provides reply rfl
    exact Registry.accepted_of_provides hprovides
  · exact fun t ht => (hfirst.of_mem_turns hmoves ht).move_refuses
  · intro m task hfailing hbarren
    have hnone : (c.move m).1.refused = false := hnow.not_refused_of_barren fun task' ht => by
      obtain rfl : task = task' := Option.some.inj (hfailing.symm.trans ht)
      exact hbarren
    have hhandled : c.handled m = [] := by
      cases m with
      | handle => cases hfailing
      | _ => rfl
    rw [hnow.move_probe m, hnone, hhandled]
    rfl
  · intro s a hfull
    have hnone : c.tasks (.call s.call) = [] := Factory.tasks_of_full hfull
    exact hnow.probe_of_barren rfl (by simp [hnone])
  · exact fun nth event entry p => hnow.move_handle event

/-- A keeper refuses its configuration, and one of three hooks cannot be made at first. -/
def troubled : ProvidersDocument :=
  ⟨some ⟨"stub.RejectingPersistenceProvider", [⟨"dir", "x"⟩]⟩,
    [⟨"stub.HookProvider", [⟨"only", "a"⟩, ⟨"only", "b"⟩]⟩, ⟨"stub.FailingHookProvider", []⟩,
      ⟨"stub.AuditHookProvider", []⟩]⟩

def troubledMoves : List Move := [
  .call .persistenceProvider, .call .start, .call .persistenceProvider, .call .hookProviders,
  .make .hook ⟨"stub.AuditHookProvider", []⟩, .make .persistence ⟨"stub.HookProvider", []⟩,
  .make .hook ⟨"stub.Unknown", []⟩, .register ⟨"stub.FailingHookProvider", "", .listener⟩,
  .call .hookProviders, .call .hookProviders, .call .persistenceProvider, .handle 1 ⟨"a", []⟩,
  .handle 0 ⟨"b", []⟩]

theorem reports_account_for_troubledMoves :
    let d : Deployment := Registry.standard.foldl Deployment.register { source := .fixed troubled }
    let probe := ((ofDeployment {} d).after troubledMoves).host.deployment.probe
    d.registry.OfStubs ∧ d.probe = {} ∧ probe.configured = 5 ∧ probe.constructed = 7 ∧
      probe.configurations.map Prod.fst = ["stub.HookProvider", "stub.AuditHookProvider",
        "stub.HookProvider", "stub.FailingHookProvider", "stub.AuditHookProvider"] ∧
      probe.handled = [("stub.HookProvider", "a"), ("stub.AuditHookProvider", "b")] := by
  intro d probe
  have hstubs : d.registry.OfStubs := by
    rw [Deployment.registry_foldl_register]
    exact Registry.ofStubs_standard
  have hprobe : d.probe = {} := by decide +kernel
  have hmoves : ∀ e, .register e ∈ troubledMoves → e.implementation.isStub = true := by
    intro e he
    obtain rfl : e = ⟨"stub.FailingHookProvider", "", .listener⟩ := by
      simpa [troubledMoves] using he
    rfl
  obtain ⟨⟨hcount, hconfigurations, hle, hrefused, hhandled⟩, -⟩ :=
    reports_account_for_moves {} d troubledMoves hstubs hprobe hmoves
  have haccepted : probe.configurations = [("stub.HookProvider", ⟨[("only", "b")]⟩),
      ("stub.AuditHookProvider", ⟨[]⟩), ("stub.HookProvider", ⟨[("only", "b")]⟩),
      ("stub.FailingHookProvider", ⟨[]⟩), ("stub.AuditHookProvider", ⟨[]⟩)] :=
    hconfigurations.trans (by decide +kernel)
  have hconfigured : probe.configured = 5 := hcount.trans (by rw [haccepted]; rfl)
  have htwice : probe.constructed - probe.configured = 2 := hrefused.trans (by decide +kernel)
  refine ⟨hstubs, hprobe, hconfigured, ?_, by rw [haccepted]; rfl, hhandled.trans (by decide +kernel)⟩
  have hle' : probe.configured ≤ probe.constructed := hle
  omega

end Client

end Provisioning
