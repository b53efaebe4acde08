import Provisioning.Host
import Provisioning.Proofs.Deployment

/-!
# Clients of a host

A client calls the factory of a host, makes providers without it, registers extensions and rewrites files.
It keeps the providers that it is handed and uses them later: the persistence providers of the factory,
one for each call that returned one, and all hook providers, each with the entry that it was made for.
-/

namespace Provisioning

/-- What a client does. Providers are used by their places among those that were handed out. -/
inductive Move where
  | call (call : Call)
  | make (role : Role) (entry : ProviderEntry)
  | register (e : Extension)
  | rewrite (files : FileTree)
  | save (nth : Nat) (key : String) (content : List UInt8)
  | load (nth : Nat) (key : String)
  | delete (nth : Nat) (key : String)
  | handle (nth : Nat) (event : HookEvent)

/-- What comes of a move. Nothing does of a use of something that was never handed out. -/
inductive Reaction where
  | none
  | outcome (outcome : Outcome)
  | saved (outcome : Except ProviderError Unit)
  | loaded (outcome : Except ProviderError (Option (List UInt8)))
  | deleted (outcome : Except ProviderError Bool)
  | handled (outcome : Except ProviderError Unit)

/-- Someone who works with a host, and what was handed out to them so far. -/
structure Client where
  host : Host
  stores : List Instance := []
  hooks : List (ProviderEntry × Instance) := []

namespace Client

def ofDeployment (settings : Settings) (d : Deployment) : Client :=
  ⟨.ofDeployment settings d, [], []⟩

def cells (c : Client) : Cells :=
  c.host.factory.cells

def around (c : Client) : Numbered Deployment :=
  c.host.factory.around

def receive (c : Client) : Outcome → Client
  | .ok (.provider p) => ⟨c.host, c.stores ++ [p], c.hooks⟩
  | .ok (.providers ps) =>
    let entries := (c.cells.document.content?.map ProvidersDocument.hooks).getD []
    ⟨c.host, c.stores, c.hooks ++ entries.zip ps⟩
  | _ => c

def call (c : Client) (call : Call) : Reaction × Client :=
  match c.host.perform call with
  | (outcome, host) => (.outcome outcome, receive ⟨host, c.stores, c.hooks⟩ outcome)

/-- Makes a provider without the factory. A hook provider is kept. -/
def make (c : Client) (role : Role) (entry : ProviderEntry) : Reaction × Client :=
  match c.host.instantiate role entry with
  | (.ok p, host) =>
    let made := if role = .hook then [(entry, p)] else []
    (.outcome (.ok (.provider p)), ⟨host, c.stores, c.hooks ++ made⟩)
  | (.error e, host) => (.outcome (.error e), ⟨host, c.stores, c.hooks⟩)

def change (c : Client) (change : Deployment → Deployment) : Client :=
  ⟨c.host.withDeployment (change c.host.deployment), c.stores, c.hooks⟩

def use {α : Type} (c : Client) (act : Provider → Probe → Use α)
    (reaction : Except ProviderError α → Reaction) : Option Instance → Reaction × Client
  | some p =>
    match c.host.act (Deployment.use act p) with
    | (outcome, host) => (reaction outcome, ⟨host, c.stores, c.hooks⟩)
  | none => (.none, c)

def move (c : Client) : Move → Reaction × Client
  | .call call => c.call call
  | .make role entry => c.make role entry
  | .register e => (.none, c.change (Deployment.register · e))
  | .rewrite files => (.none, c.change fun d => { d with store.files := files })
  | .save nth key content => c.use (Provider.save key content) .saved c.stores[nth]?
  | .load nth key => c.use (Provider.load key) .loaded c.stores[nth]?
  | .delete nth key => c.use (Provider.delete key) .deleted c.stores[nth]?
  | .handle nth event => c.use (Provider.handle event) .handled (c.hooks[nth]?.map Prod.snd)

def after (c : Client) (moves : List Move) : Client :=
  moves.foldl (fun c m => (c.move m).2) c

end Client

/-- A move, and the client who makes it. -/
structure Turn where
  client : Client
  move : Move

def Turn.reaction (t : Turn) : Reaction :=
  (t.client.move t.move).1

def Client.turns : Client → List Move → List Turn
  | _, [] => []
  | c, m :: rest => ⟨c, m⟩ :: turns (c.move m).2 rest

/-! ## What a call hands out -/

theorem Slot.eq_of_reply {s s' : Slot} (hs : s ≠ .document) {a : s.Content} {a' : s'.Content}
    (h : s'.reply a' = s.reply a) : s' = s ∧ HEq a' a := by
  cases s with
  | document => exact (hs rfl).elim
  | persistence | hooks =>
    cases s' <;> cases h
    exact ⟨rfl, .rfl⟩

namespace Factory

variable {I : Interface} {σ : Type} {plan : Plan I} {answering : Answering I σ} {f f' : Factory σ}
  {call : Call} {s : Slot} {a : s.Content}

theorem glance?_ne_reply (hs : s ≠ .document) : f.glance? call ≠ some (.ok (s.reply a)) := by
  cases call with
  | start | persistenceProvider | hookProviders => exact nofun
  | isInitialized => cases s <;> simp_all [glance?, Slot.reply]
  | document =>
    simp only [glance?, Factory.document]
    cases f.cells.document.content? <;> cases s <;> simp_all [Slot.reply, Except.map]

/-- A call that returns the content of a cell is about that cell, which is full afterwards. -/
theorem Performs.of_reply (h : Performs plan answering f call (.ok (s.reply a)) f') (hs : s ≠ .document) :
    call = s.call ∧ f'.cells.get s = .full a := by
  generalize ho : (Except.ok (s.reply a) : Outcome) = outcome at h
  cases h with
  | glance hg => exact (glance?_ne_reply hs (ho ▸ hg)).elim
  | share hfull =>
    obtain ⟨rfl, hcontent⟩ := Slot.eq_of_reply hs (Except.ok.inj ho.symm)
    cases hcontent
    exact ⟨rfl, hfull⟩
  | @attempt s' o around he run =>
    cases o with
    | error e => cases ho
    | ok a' =>
      obtain ⟨rfl, hcontent⟩ := Slot.eq_of_reply hs (Except.ok.inj ho.symm)
      cases hcontent
      exact ⟨rfl, f.cells.get_settle_ok s' a'⟩

end Factory

namespace Client

variable {c : Client} {m : Move} {moves : List Move} {q : Instance}

@[simp] theorem receive_host (c : Client) (outcome : Outcome) : (c.receive outcome).host = c.host := by
  unfold receive
  split <;> rfl

@[simp] theorem call_fst (c : Client) (call : Call) :
    (c.call call).1 = .outcome (c.host.perform call).1 := rfl

@[simp] theorem call_host (c : Client) (call : Call) :
    (c.call call).2.host = (c.host.perform call).2 :=
  receive_host ..

@[simp] theorem make_fst (c : Client) (role : Role) (entry : ProviderEntry) :
    (c.make role entry).1 = .outcome ((c.host.instantiate role entry).1.map .provider) := by
  unfold make
  split
  all_goals
    rename_i h
    rw [h]
    rfl

@[simp] theorem make_host (c : Client) (role : Role) (entry : ProviderEntry) :
    (c.make role entry).2.host = (c.host.instantiate role entry).2 := by
  unfold make
  split
  all_goals
    rename_i h
    rw [h]

@[simp] theorem make_stores (c : Client) (role : Role) (entry : ProviderEntry) :
    (c.make role entry).2.stores = c.stores := by
  unfold make
  split <;> rfl

theorem mem_stores_call {call : Call} :
    q ∈ (c.call call).2.stores ↔
      q ∈ c.stores ∨ (c.host.perform call).1 = .ok (.provider q) := by
  unfold Client.call
  split
  next outcome host h =>
    simp only [receive, h]
    split <;> simp_all [eq_comm]

theorem mem_hooks_call {call : Call} {h : ProviderEntry × Instance} :
    h ∈ (c.call call).2.hooks ↔ h ∈ c.hooks ∨ ∃ ps, (c.host.perform call).1 = .ok (.providers ps) ∧
      h ∈ (((c.call call).2.cells.document.content?.map ProvidersDocument.hooks).getD []).zip ps := by
  rw [cells, call_host]
  unfold Client.call
  split
  next outcome host hperform =>
    simp only [receive, hperform]
    split <;> simp_all [cells]

theorem mem_hooks_make {role : Role} {entry : ProviderEntry} {h : ProviderEntry × Instance} :
    h ∈ (c.make role entry).2.hooks ↔ h ∈ c.hooks ∨
      role = .hook ∧ ∃ p, (c.host.instantiate role entry).1 = .ok p ∧ h = (entry, p) := by
  unfold Client.make
  split
  next p host hmade =>
    rw [hmade]
    by_cases hr : role = .hook <;> simp [hr]
  next e host hmade => simp [hmade]

theorem cells_of_reply (hc : c.cells.Settled) {call : Call} {s : Slot} (hs : s ≠ .document)
    {a : s.Content} (h : (c.host.perform call).1 = .ok (s.reply a)) :
    call = s.call ∧ (c.call call).2.cells.get s = .full a := by
  have spec := Factory.perform_spec c.host.settings.plan Deployment.surroundings.answering hc call
  have hreply : (c.host.factory.perform c.host.settings.plan Deployment.surroundings.answering
    call).1 = .ok (s.reply a) := h
  have hcells : (c.call call).2.cells = _ :=
    congrArg (fun host => host.factory.cells) (c.call_host call)
  rw [hreply] at spec
  rw [hcells]
  exact spec.of_reply hs

theorem call_of_full {s : Slot} {a : s.Content} (h : c.cells.get s = .full a) :
    (c.call s.call).1 = .outcome (.ok (s.reply a)) := by
  rw [call_fst, Host.perform, Factory.perform_of_full h]
  rfl

theorem call_of_empty {s : Slot} (h : c.cells.get s = .empty) :
    let filled := c.host.factory.fill c.host.settings.plan Deployment.surroundings.answering s
    (c.call s.call).1 = .outcome (filled.1.map s.reply) ∧
      (c.call s.call).2.host = ⟨c.host.settings, filled.2⟩ := by
  intro filled
  have hperform : c.host.perform s.call = (filled.1.map s.reply, ⟨c.host.settings, filled.2⟩) := by
    rw [Host.perform, Factory.perform_of_empty h]
    rfl
  rw [call_fst, call_host, hperform]
  exact ⟨rfl, rfl⟩

/-- Where all that the document names can be relied on, the first call is handed new instances, one for
each entry. -/
theorem call_of_provides {s : Slot} (hs : s ≠ .document) {doc : ProvidersDocument}
    (hdoc : c.cells.document = .full doc) (hempty : c.cells.get s = .empty)
    (hprovides : ∀ entry ∈ s.entries doc, c.around.state.registry.provides s.role entry = true)
    (hsome : s = .persistence → doc.persistence.isSome) :
    ∃ a, (c.call s.call).1 = .outcome (.ok (s.reply a)) ∧ (c.call s.call).2.cells.get s = .full a ∧
      List.Forall₂ (c.around.Stands (c.call s.call).2.around s.role) (s.entries doc)
        (s.instances a) ∧
      (s.instances a).Pairwise (·.number < ·.number) := by
  obtain ⟨hreaction, hhost⟩ := call_of_empty hempty
  obtain ⟨a, ha⟩ := c.host.settings.run_fill_of_provides hs hprovides hsome
  obtain ⟨-, hstands⟩ := c.host.settings.run_fill_stands hs doc c.around
  rcases hrun : (c.host.settings.plan.fill s (some doc)).run Deployment.surroundings.answering
    c.around with ⟨outcome, around⟩
  rw [hrun] at ha hstands
  obtain rfl : outcome = .ok a := ha
  have hfill : c.host.factory.fill c.host.settings.plan Deployment.surroundings.answering s =
      (.ok a, ⟨c.cells.settle s (.ok a), around⟩) := by
    have hcontent : c.host.factory.cells.document.content? = some doc :=
      congrArg Cell.content? hdoc
    simp only [Factory.fill, hcontent]
    rw [show (c.host.settings.plan.fill s (some doc)).run Deployment.surroundings.answering
      c.host.factory.around = _ from hrun]
    rfl
  rw [hfill] at hreaction hhost
  refine ⟨a, hreaction, ?_, ?_⟩
  · rw [cells, hhost]
    exact Cells.get_settle_ok c.cells s a
  · have haround : (c.call s.call).2.around = around :=
      congrArg (fun host => host.factory.around) hhost
    rw [haround]
    exact hstands a rfl

/-! ## Using what was handed out -/

section Using

variable {α : Type} {act : Provider → Probe → Use α} {reaction : Except ProviderError α → Reaction}
  {target : Option Instance} {provider : Provider}

@[simp] theorem use_stores : (c.use act reaction target).2.stores = c.stores := by
  cases target <;> rfl

@[simp] theorem use_hooks : (c.use act reaction target).2.hooks = c.hooks := by
  cases target <;> rfl

@[simp] theorem use_cells : (c.use act reaction target).2.cells = c.cells := by
  cases target <;> rfl

@[simp] theorem use_registry :
    (c.use act reaction target).2.host.deployment.registry = c.host.deployment.registry := by
  cases target with
  | none => rfl
  | some p =>
    change (c.host.deployment.use act p).2.registry = _
    unfold Deployment.use
    split <;> rfl

theorem use_made : (c.use act reaction target).2.around.made = c.around.made := by
  cases target <;> rfl

theorem use_undergo : ∃ h, (c.use act reaction target).2.host =
    ⟨c.host.settings,
      c.host.factory.undergo c.host.settings.plan Deployment.surroundings.answering h⟩ := by
  cases target with
  | none => exact ⟨.change id, rfl⟩
  | some p => exact ⟨.change fun n => ⟨n.made, (n.state.use act p).2⟩, rfl⟩

theorem use_reaction :
    (c.use act reaction target).1 = .none ∨ ∃ o, (c.use act reaction target).1 = reaction o := by
  cases target with
  | none => exact .inl rfl
  | some p => exact .inr ⟨_, rfl⟩

theorem reaction_use (h : c.host.deployment.provider? q = some provider) :
    (c.use act reaction (some q)).1 = reaction (act provider c.host.deployment.probe).outcome := by
  simp only [use, Host.act, Deployment.use_of_provider h]

theorem probe_use (h : c.host.deployment.provider? q = some provider) :
    (c.use act reaction (some q)).2.host.deployment.probe =
      (act provider c.host.deployment.probe).probe := by
  change (c.host.deployment.use act q).2.probe = _
  rw [Deployment.use_of_provider h]

theorem provider?_use (h : c.host.deployment.provider? q = some provider) :
    (c.use act reaction target).2.host.deployment.provider? q =
      some (if target = some q then (act provider c.host.deployment.probe).provider else provider) := by
  cases target with
  | none => exact h
  | some p =>
    by_cases hp : p = q
    · subst hp
      rw [if_pos rfl]
      exact Deployment.provider?_use_self act h
    · rw [if_neg fun heq => hp (Option.some.inj heq)]
      exact (Deployment.provider?_use_of_ne act (Ne.symm hp)).trans h

theorem provider?_use_of_ne (h : target ≠ some q) :
    (c.use act reaction target).2.host.deployment.provider? q = c.host.deployment.provider? q := by
  cases target with
  | none => rfl
  | some p => exact Deployment.provider?_use_of_ne act fun heq => h (congrArg some heq.symm)

end Using

/-! ## Moves -/

def target? (c : Client) : Move → Option Instance
  | .save nth _ _ => c.stores[nth]?
  | .load nth _ => c.stores[nth]?
  | .delete nth _ => c.stores[nth]?
  | .handle nth _ => c.hooks[nth]?.map Prod.snd
  | _ => none

/-- To the factory a move is a call or a change of its surroundings. -/
theorem move_undergo (c : Client) (m : Move) :
    ∃ h, (c.move m).2.host =
      ⟨c.host.settings,
        c.host.factory.undergo c.host.settings.plan Deployment.surroundings.answering h⟩ := by
  cases m with
  | call call => exact ⟨.call call, c.call_host call⟩
  | make role entry =>
    refine ⟨.change fun n =>
      ((instantiate role entry).run Deployment.surroundings.answering n).2, make_host ..⟩
  | register e => exact ⟨.change fun n => ⟨n.made, n.state.register e⟩, rfl⟩
  | rewrite files => exact ⟨.change fun n => ⟨n.made, { n.state with store.files := files }⟩, rfl⟩
  | save | load | delete | handle => exact use_undergo

theorem move_settled (hc : c.cells.Settled) (m : Move) : (c.move m).2.cells.Settled := by
  obtain ⟨h, hhost⟩ := c.move_undergo m
  rw [cells, hhost]
  exact Factory.undergo_settled _ _ hc h

theorem ofDeployment_settled (settings : Settings) (d : Deployment) :
    (ofDeployment settings d).cells.Settled :=
  Factory.fresh_settled (⟨0, d⟩ : Numbered Deployment)

theorem after_induction {P : Client → Prop} (moves : List Move)
    (step : ∀ c, ∀ m ∈ moves, P c → P (c.move m).2) (h : P c) : P (c.after moves) := by
  induction moves generalizing c with
  | nil => exact h
  | cons m moves ih =>
    exact ih (fun c m hm => step c m (List.mem_cons_of_mem _ hm)) (step c m List.mem_cons_self h)

theorem mem_turns {t : Turn} (ht : t ∈ c.turns moves) :
    ∃ past later, moves = past ++ t.move :: later ∧ t.client = c.after past := by
  induction moves generalizing c with
  | nil => cases ht
  | cons m moves ih =>
    rcases List.mem_cons.mp ht with rfl | ht
    · exact ⟨[], moves, rfl, rfl⟩
    · obtain ⟨past, later, rfl, hclient⟩ := ih ht
      exact ⟨m :: past, later, rfl, hclient⟩

theorem after_settled (hc : c.cells.Settled) (moves : List Move) :
    (c.after moves).cells.Settled :=
  after_induction (P := fun c => c.cells.Settled) moves (fun _ m _ hc => move_settled hc m) hc

theorem move_within (hc : c.cells.Settled) (m : Move) : c.cells.Within (c.move m).2.cells := by
  obtain ⟨h, hhost⟩ := c.move_undergo m
  rw [cells, cells, hhost]
  exact Factory.undergo_within _ _ hc h

theorem after_within (hc : c.cells.Settled) (moves : List Move) :
    c.cells.Within (c.after moves).cells := by
  have hkept := after_induction (P := fun c' => c'.cells.Settled ∧ c.cells.Within c'.cells) moves
    (fun _ m _ h => ⟨move_settled h.1 m, h.2.trans (move_within h.1 m)⟩) ⟨hc, .refl _⟩
  exact hkept.2

/-- A move changes what is behind the instance that it uses, and behind no other that is there. -/
theorem move_keeps (hc : c.cells.Settled) (m : Move) :
    c.around.made ≤ (c.move m).2.around.made ∧
      ∀ q, q.number < c.around.made → c.target? m ≠ some q →
        (c.move m).2.host.deployment.provider? q = c.host.deployment.provider? q := by
  cases m with
  | call call =>
    have hkeeps := Factory.perform_keeps c.host.settings hc call
    have hhost : (c.move (.call call)).2.host = (c.host.perform call).2 := c.call_host call
    simp only [around, hhost]
    exact ⟨hkeeps.made, fun q hq _ => hkeeps.provider q hq⟩
  | make role entry =>
    have hkeeps := (run_instantiate role entry c.around).1
    have hhost : (c.move (.make role entry)).2.host = _ := make_host ..
    simp only [around, hhost]
    exact ⟨hkeeps.made, fun q hq _ => hkeeps.provider q hq⟩
  | register | rewrite => exact ⟨Nat.le_refl _, fun _ _ _ => rfl⟩
  | save | load | delete | handle =>
    exact ⟨Nat.le_of_eq use_made.symm, fun q _ hq => provider?_use_of_ne hq⟩

/-- A cell becomes full in a call that makes a new instance for each entry. -/
theorem move_stands (hc : c.cells.Settled) (m : Move) {s : Slot} (hs : s ≠ .document)
    {a : s.Content} (h : (c.move m).2.cells.get s = .full a) :
    c.cells.get s = .full a ∨ ∃ doc, c.cells.document = .full doc ∧
      List.Forall₂ (c.around.Stands (c.move m).2.around s.role) (s.entries doc) (s.instances a) := by
  cases m with
  | call call =>
    have hhost : (c.move (.call call)).2.host = (c.host.perform call).2 := c.call_host call
    rw [cells, hhost] at h
    rw [around, around, hhost]
    exact Factory.perform_stands c.host.settings hc call hs h
  | make role entry =>
    have hhost : (c.move (.make role entry)).2.host = _ := make_host ..
    rw [cells, hhost] at h
    exact .inl h
  | register | rewrite => exact .inl h
  | save | load | delete | handle => exact .inl (by rwa [Client.move, use_cells] at h)

end Client

end Provisioning
