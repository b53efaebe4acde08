import Mathlib.Data.List.Induction
import Provisioning.Proofs.Course.Basic
import Provisioning.Proofs.Course.Steady

/-!
# Calls that fail

A call that fails leaves the cells of a factory as they are. In steady surroundings such calls can be
left out of a course, and the others return what they returned with them; only the numbers of the
instances change, since those count that were made and then given up.
-/

namespace Provisioning

variable {σ ν : Type}

/-! ## Renaming instances -/

def Cell.map {α β : Type} (change : α → β) : Cell α → Cell β
  | .empty => .empty
  | .claimed => .claimed
  | .full a => .full (change a)

def Slot.rename (θ : Instance → Instance) : (s : Slot) → s.Content → s.Content
  | .document, d => d
  | .persistence, p => θ p
  | .hooks, ps => ps.map θ

def Reply.rename (θ : Instance → Instance) : Reply → Reply
  | .provider p => .provider (θ p)
  | .providers ps => .providers (ps.map θ)
  | reply => reply

variable {θ θ' : Instance → Instance}

theorem Slot.reply_rename (s : Slot) (a : s.Content) :
    s.reply (s.rename θ a) = (s.reply a).rename θ := by
  cases s <;> rfl

theorem Slot.rename_congr (s : Slot) {a : s.Content} (h : ∀ p ∈ s.instances a, θ p = θ' p) :
    s.rename θ a = s.rename θ' a := by
  cases s with
  | document => rfl
  | persistence => exact h a (List.mem_singleton_self a)
  | hooks => exact List.map_congr_left h

theorem Reply.rename_congr {reply : Reply} (h : ∀ p ∈ reply.instances, θ p = θ' p) :
    reply.rename θ = reply.rename θ' := by
  cases reply with
  | done | flag | document => rfl
  | provider p => exact congrArg _ (h p (List.mem_singleton_self p))
  | providers ps => exact congrArg _ (List.map_congr_left h)

/-! ## Attempts -/

/-- The instances with the numbers from `m` on are renamed to those from `k` on. -/
def Shifts (θ : Instance → Instance) (m k : Nat) : Prop :=
  ∀ i, θ ⟨m + i⟩ = ⟨k + i⟩

theorem Shifts.add {m k : Nat} (h : Shifts θ m k) (j : Nat) : Shifts θ (m + j) (k + j) := by
  intro i
  rw [Nat.add_assoc, Nat.add_assoc]
  exact h (j + i)

/-- What is done with the numbers from `m` on is done with those from `k` on in another run. -/
def Shifted {α : Type} (rename : α → α) (instances : α → List Instance) (m k : Nat)
    (x y : Except FactoryError α × Nat) : Prop :=
  ∃ j, x.2 = m + j ∧ y = (x.1.map rename, k + j) ∧
    ∀ a, x.1 = .ok a → ∀ p ∈ instances a, p.number < m + j

theorem Shifted.error {α : Type} {rename : α → α} {instances : α → List Instance} {m k : Nat}
    (e : FactoryError) (j : Nat) :
    Shifted rename instances m k (.error e, m + j) (.error e, k + j) :=
  ⟨j, rfl, rfl, fun a ha => by cases ha⟩

theorem make_shifted {m k : Nat} (h : Shifts θ m k) (b : Behaviour) (role : Role)
    (entry : ProviderEntry) (found : Option Extension) :
    Shifted θ (fun p => [p]) m k (b.make role entry found m) (b.make role entry found k) := by
  cases found with
  | none => exact .error _ 0
  | some e =>
    simp only [Behaviour.make]
    split
    · cases b.makes e with
      | error failure => exact .error _ 1
      | ok =>
        cases b.accepts e (.ofProperties entry.properties) with
        | error refusal => exact .error _ 1
        | ok =>
          refine ⟨1, rfl, ?_, ?_⟩
          · have hnext : θ ⟨m⟩ = ⟨k⟩ := h 0
            simp only [Except.map, hnext]
          · intro a ha p hp
            cases ha
            obtain rfl := List.mem_singleton.mp hp
            exact Nat.lt_succ_self m
    · exact .error _ 0

theorem makeAll_shifted {m k : Nat} (h : Shifts θ m k) (b : Behaviour) (role : Role)
    (found : String → Option Extension) (entries : List ProviderEntry) :
    Shifted (List.map θ) id m k (b.makeAll role found entries m) (b.makeAll role found entries k) := by
  induction entries generalizing m k with
  | nil => exact ⟨0, rfl, rfl, fun a ha p hp => by cases ha; cases hp⟩
  | cons entry rest ih =>
    obtain ⟨i, hi, hfirst, hbelow⟩ := make_shifted h b role entry (found entry.extension)
    rcases hm : b.make role entry (found entry.extension) m with ⟨first, m'⟩
    rw [hm] at hi hfirst hbelow
    obtain rfl : m' = m + i := hi
    simp only [Behaviour.makeAll, hfirst, hm]
    cases first with
    | error e => exact .error e i
    | ok p =>
      obtain ⟨j, hj, hothers, hrest⟩ := ih (h.add i)
      rcases hms : b.makeAll role found rest (m + i) with ⟨others, m'⟩
      rw [hms] at hj hothers hrest
      obtain rfl : m' = m + i + j := hj
      simp only [Except.map, hms, hothers]
      cases others with
      | error e => simpa only [Nat.add_assoc] using Shifted.error e (i + j)
      | ok ps =>
        refine ⟨i + j, Nat.add_assoc m i j, by simp [Except.map, Nat.add_assoc], ?_⟩
        intro a ha q hq
        cases ha
        rcases List.mem_cons.mp hq with rfl | hq
        · have hbound := hbelow q rfl q (List.mem_singleton_self q)
          omega
        · have hbound := hrest ps rfl q hq
          omega

theorem attempt_shifted {m k : Nat} (h : Shifts θ m k) (o : Outlook) (b : Behaviour) (s : Slot)
    (d : Option ProvidersDocument) :
    Shifted (s.rename θ) s.instances m k (o.attempt b s d m) (o.attempt b s d k) := by
  cases s with
  | document =>
    refine ⟨0, rfl, ?_, fun a ha p hp => by cases hp⟩
    simp only [Outlook.attempt]
    cases o.loaded <;> rfl
  | persistence =>
    rcases d with _ | ⟨_ | entry, hooks⟩
    · exact .error _ 0
    · exact .error _ 0
    · exact make_shifted h b .persistence entry (o.found entry.extension)
  | hooks =>
    cases d with
    | none => exact .error _ 0
    | some d => exact makeAll_shifted h b .hook o.found d.hooks

/-! ## Two factories -/

/-- One factory has what another has, under other names. -/
structure Factory.Mirrors (view : σ → ν) (θ : Instance → Instance) (f g : Factory (Numbered σ)) :
    Prop where
  settled : g.cells.Settled
  cells (s : Slot) : f.cells.get s = (g.cells.get s).map (s.rename θ)
  below (s : Slot) {a : s.Content} (ha : g.cells.get s = .full a) {p : Instance}
    (hp : p ∈ s.instances a) : p.number < g.around.made
  shifts : Shifts θ g.around.made f.around.made
  bounded {p : Instance} (hp : p.number < g.around.made) : (θ p).number < f.around.made
  injective : Function.Injective θ
  view : view f.around.state = view g.around.state

namespace Factory.Mirrors

variable {around : Surroundings σ} {view : σ → ν} {b : Behaviour} {f g : Factory (Numbered σ)}

theorem document_content? (h : Mirrors view θ f g) :
    f.cells.document.content? = g.cells.document.content? := by
  have hd : f.cells.document = g.cells.document.map id := h.cells .document
  rw [hd]
  cases g.cells.document <;> rfl

theorem settled_left (h : Mirrors view θ f g) : f.cells.Settled := by
  intro s hs
  have hc := h.cells s
  rw [hs] at hc
  cases hg : g.cells.get s with
  | claimed => exact h.settled s hg
  | empty | full => rw [hg] at hc; cases hc

theorem glance? (h : Mirrors view θ f g) {call : Call} {outcome : Outcome}
    (hg : g.glance? call = some outcome) :
    f.glance? call = some (outcome.map (Reply.rename θ)) := by
  cases call with
  | start | persistenceProvider | hookProviders => cases hg
  | isInitialized =>
    cases hg
    simp only [Factory.glance?, isInitialized, h.document_content?, Except.map, Reply.rename]
  | document =>
    cases hg
    simp only [Factory.glance?, Factory.document, h.document_content?]
    cases g.cells.document.content? <;> rfl

theorem settle (h : Mirrors view θ f g) {s : Slot} {o : Except FactoryError s.Content} {j : Nat}
    (hbelow : ∀ a, o = .ok a → ∀ p ∈ s.instances a, p.number < g.around.made + j)
    {n m : Numbered σ} (hn : n.made = f.around.made + j) (hm : m.made = g.around.made + j)
    (hview : view n.state = view m.state) :
    Mirrors view θ ⟨f.cells.settle s (o.map (s.rename θ)), n⟩ ⟨g.cells.settle s o, m⟩ where
  settled := h.settled.settle s o
  cells s' := by
    by_cases hs : s' = s
    · subst hs
      cases o <;> simp [Except.map, Cell.map]
    · rw [Cells.get_settle_of_ne _ _ hs, Cells.get_settle_of_ne _ _ hs]
      exact h.cells s'
  below s' a ha p hp := by
    simp only [hm]
    by_cases hs : s' = s
    · subst hs
      cases o with
      | error e => simp at ha
      | ok a' =>
        obtain rfl : a' = a := by simpa using ha
        exact hbelow a' rfl p hp
    · rw [Cells.get_settle_of_ne _ _ hs] at ha
      have hbound := h.below s' ha hp
      omega
  shifts := by
    simp only [hn, hm]
    exact h.shifts.add j
  bounded {p} hp := by
    rcases p with ⟨number⟩
    simp only [hn, hm] at hp ⊢
    by_cases hold : number < g.around.made
    · have hbound := h.bounded (p := ⟨number⟩) hold
      omega
    · obtain ⟨i, rfl⟩ := Nat.exists_eq_add_of_le (Nat.le_of_not_lt hold)
      rw [h.shifts i]
      change f.around.made + i < f.around.made + j
      omega
  injective := h.injective
  view := hview

theorem moved (h : Mirrors view θ f g) {n m : Numbered σ} (hn : n.made = f.around.made)
    (hm : m.made = g.around.made) (hview : view n.state = view m.state) :
    Mirrors view θ ⟨f.cells, n⟩ ⟨g.cells, m⟩ where
  settled := h.settled
  cells := h.cells
  below s a ha p hp := by
    simp only [hm]
    exact h.below s ha hp
  shifts := by
    simp only [hn, hm]
    exact h.shifts
  bounded {p} hp := by
    simp only [hn, hm] at hp ⊢
    exact h.bounded hp
  injective := h.injective
  view := hview

end Factory.Mirrors

theorem Slot.revisit_view {around : Surroundings σ} {view : σ → ν} {b : Behaviour}
    (steady : around.Steady view b) (settings : Settings) (s : Slot) (n : Numbered σ) :
    (s.revisit settings.plan around.answering n).made = n.made ∧
      view (s.revisit settings.plan around.answering n).state = view n.state := by
  cases s with
  | document => exact ⟨rfl, steady.note_view .alreadyInitialized n.state⟩
  | persistence | hooks => exact ⟨rfl, rfl⟩

namespace Factory

variable {around : Surroundings σ} {view : σ → ν} {b : Behaviour} {f g : Factory (Numbered σ)}

theorem instances_of_glance {call : Call} {reply : Reply}
    (h : f.glance? call = some (.ok reply)) : reply.instances = [] := by
  cases call with
  | start | persistenceProvider | hookProviders => cases h
  | isInitialized =>
    cases h
    rfl
  | document =>
    simp only [glance?, document] at h
    cases hc : f.cells.document.content? <;> rw [hc] at h <;> cases h
    rfl

/-- Of two calls, one returns and leaves what the other does, under other names. -/
structure Echoes (view : σ → ν) (θ : Instance → Instance) (made : Nat)
    (x y : Outcome × Factory (Numbered σ)) : Prop where
  mirrors : Mirrors view θ x.2 y.2
  outcome : x.1 = y.1.map (Reply.rename θ)
  later : made ≤ y.2.around.made
  below {reply : Reply} (hr : y.1 = .ok reply) {p : Instance} (hp : p ∈ reply.instances) :
    p.number < y.2.around.made

theorem Mirrors.echo_of_full (steady : around.Steady view b) (settings : Settings)
    (h : Mirrors view θ f g) {s : Slot} {a : s.Content} (hg : g.cells.get s = .full a) :
    Echoes view θ g.around.made (f.perform settings.plan around.answering s.call)
      (g.perform settings.plan around.answering s.call) := by
  have hf : f.cells.get s = .full (s.rename θ a) := by
    rw [h.cells, hg]
    rfl
  obtain ⟨hfmade, hfview⟩ := s.revisit_view steady settings f.around
  obtain ⟨hgmade, hgview⟩ := s.revisit_view steady settings g.around
  rw [perform_of_full hg, perform_of_full hf]
  refine ⟨h.moved hfmade hgmade ?_, ?_, Nat.le_of_eq hgmade.symm, ?_⟩
  · rw [hfview, hgview, h.view]
  · rw [Slot.reply_rename]
    rfl
  · intro reply hr p hp
    cases hr
    rw [Slot.instances_reply] at hp
    simp only [hgmade]
    exact h.below s hg hp

theorem Mirrors.echo_of_empty (steady : around.Steady view b) (settings : Settings)
    (h : Mirrors view θ f g) {s : Slot} (hg : g.cells.get s = .empty) :
    Echoes view θ g.around.made (f.perform settings.plan around.answering s.call)
      (g.perform settings.plan around.answering s.call) := by
  have hf : f.cells.get s = .empty := by
    rw [h.cells, hg]
    rfl
  obtain ⟨hfrun, hfmade, hfview⟩ :=
    settings.fill_foretold steady s f.cells.document.content? f.around
  obtain ⟨hgrun, hgmade, hgview⟩ :=
    settings.fill_foretold steady s g.cells.document.content? g.around
  -- what is foretold is the same for both but for the numbers
  obtain ⟨j, hj, hshifted, hbelow⟩ := attempt_shifted h.shifts
    (around.outlook settings g.around.state) b s g.cells.document.content?
  rw [h.document_content?, steady.outlook_eq settings h.view, hshifted, ← hgrun] at hfrun
  rw [h.document_content?, steady.outlook_eq settings h.view, hshifted] at hfmade
  rw [hj] at hgmade
  rw [← hgrun] at hbelow
  rw [perform_of_empty hg, perform_of_empty hf, fill, fill, h.document_content?]
  rcases hx : (settings.plan.fill s g.cells.document.content?).run around.answering f.around
    with ⟨o', n⟩
  rcases hy : (settings.plan.fill s g.cells.document.content?).run around.answering g.around
    with ⟨o, m⟩
  simp only [h.document_content?, hx] at hfrun hfmade hfview
  simp only [hy] at hfrun hgmade hgview hbelow
  subst hfrun
  refine ⟨h.settle hbelow hfmade hgmade ?_, ?_, ?_, ?_⟩
  · rw [hfview, hgview, h.view]
  · cases o with
    | error e => rfl
    | ok a => exact congrArg Except.ok (s.reply_rename a)
  · simp only [hgmade]
    exact Nat.le_add_right _ j
  · intro reply hr p hp
    cases o with
    | error e => cases hr
    | ok a =>
      cases hr
      rw [Slot.instances_reply] at hp
      simp only [hgmade]
      exact hbelow a rfl p hp

/-- Whoever calls two such factories cannot tell them apart but for names. -/
theorem Mirrors.echo (steady : around.Steady view b) (settings : Settings)
    (h : Mirrors view θ f g) (call : Call) :
    Echoes view θ g.around.made (f.perform settings.plan around.answering call)
      (g.perform settings.plan around.answering call) := by
  have hslot : ∀ s : Slot, Echoes view θ g.around.made
      (f.perform settings.plan around.answering s.call)
      (g.perform settings.plan around.answering s.call) := by
    intro s
    cases hg : g.cells.get s with
    | claimed => exact (h.settled s hg).elim
    | full a => exact h.echo_of_full steady settings hg
    | empty => exact h.echo_of_empty steady settings hg
  have hglance : ∀ {outcome : Outcome}, g.glance? call = some outcome → Echoes view θ g.around.made
      (f.perform settings.plan around.answering call)
      (g.perform settings.plan around.answering call) := by
    intro outcome hg
    rw [perform_of_glance hg, perform_of_glance (h.glance? hg)]
    refine ⟨h, rfl, Nat.le_refl _, ?_⟩
    intro reply hr p hp
    rw [instances_of_glance (hg.trans (congrArg some hr))] at hp
    cases hp
  cases call with
  | isInitialized | document => exact hglance rfl
  | start => exact hslot .document
  | persistenceProvider => exact hslot .persistence
  | hookProviders => exact hslot .hooks

theorem perform_view (steady : around.Steady view b) (settings : Settings) (hf : f.cells.Settled)
    (call : Call) :
    let f' := (f.perform settings.plan around.answering call).2
    f.around.made ≤ f'.around.made ∧ view f'.around.state = view f.around.state := by
  intro f'
  have spec : Performs settings.plan around.answering f call _ f' := perform_spec _ _ hf call
  generalize (f.perform settings.plan around.answering call).1 = outcome, f' = f' at spec
  cases spec with
  | glance => exact ⟨Nat.le_refl _, rfl⟩
  | @share s =>
    obtain ⟨hmade, hview⟩ := s.revisit_view steady settings f.around
    exact ⟨Nat.le_of_eq hmade.symm, hview⟩
  | @attempt s outcome n he run =>
    obtain ⟨-, hmade, hview⟩ := settings.fill_foretold steady s f.cells.document.content? f.around
    have hsame : Shifts id f.around.made f.around.made := fun _ => rfl
    obtain ⟨j, hj, -⟩ := attempt_shifted hsame (around.outlook settings f.around.state) b s
      f.cells.document.content?
    rw [run] at hmade hview
    rw [hj] at hmade
    exact ⟨Nat.le.intro hmade.symm, hview⟩

/-- A factory that has done more in vain has the same as before, but goes on with later numbers. -/
theorem Mirrors.delay (h : Mirrors view θ f g) {f' : Factory (Numbered σ)}
    (hcells : f'.cells = f.cells) (hmade : f.around.made ≤ f'.around.made)
    (hview : view f'.around.state = view f.around.state) :
    ∃ θ' : Instance → Instance,
      (∀ p, p.number < g.around.made → θ' p = θ p) ∧ Mirrors view θ' f' g := by
  -- the names of what the other has made stay, since they may be in its cells
  let θ' : Instance → Instance := fun p =>
    if p.number < g.around.made then θ p else ⟨f'.around.made + (p.number - g.around.made)⟩
  have hold : ∀ p : Instance, p.number < g.around.made → θ' p = θ p := fun p hp => if_pos hp
  have hnew : ∀ p : Instance, g.around.made ≤ p.number →
      θ' p = ⟨f'.around.made + (p.number - g.around.made)⟩ :=
    fun p hp => if_neg (Nat.not_lt_of_le hp)
  have hbounded : ∀ p : Instance, p.number < g.around.made → (θ' p).number < f'.around.made := by
    intro p hp
    rw [hold p hp]
    exact Nat.lt_of_lt_of_le (h.bounded hp) hmade
  have happart : ∀ p q : Instance, p.number < g.around.made → g.around.made ≤ q.number →
      θ' p ≠ θ' q := by
    intro p q hp hq heq
    have hlow := hbounded p hp
    rw [heq, hnew q hq] at hlow
    exact Nat.not_lt_of_le (Nat.le_add_right _ _) hlow
  refine ⟨θ', hold, ?_⟩
  exact {
    settled := h.settled
    cells := by
      intro s
      rw [hcells, h.cells s]
      cases hg : g.cells.get s with
      | empty | claimed => rfl
      | full a => exact congrArg Cell.full (s.rename_congr fun p hp => (hold p (h.below s hg hp)).symm)
    below := h.below
    shifts := by
      intro i
      rw [hnew _ (Nat.le_add_right _ i), Nat.add_sub_cancel_left]
    bounded := fun {p} hp => hbounded p hp
    injective := by
      intro p q hpq
      rcases Nat.lt_or_ge p.number g.around.made with hp | hp <;>
        rcases Nat.lt_or_ge q.number g.around.made with hq | hq
      · rw [hold p hp, hold q hq] at hpq
        exact h.injective hpq
      · exact (happart p q hp hq hpq).elim
      · exact (happart q p hq hp hpq.symm).elim
      · rw [hnew p hp, hnew q hq] at hpq
        have hnumber := Nat.add_left_cancel (congrArg Instance.number hpq)
        have hsame : p.number = q.number := by omega
        exact congrArg Instance.mk hsame
    view := hview.trans h.view }

end Factory

/-! ## Courses -/

/-- Changes are to the view alone, and make no instances. -/
def Happening.Respects (view : σ → ν) : Happening (Numbered σ) → Prop
  | .call _ => True
  | .change turn => ∀ n m, (turn n).made = n.made ∧
      (view n.state = view m.state → view (turn n).state = view (turn m).state)

/-- Episodes without some of the calls that failed. -/
inductive Thinned {I : Interface} {σ : Type} (plan : Plan I) (answering : Answering I σ) :
    List (Episode σ) → List (Episode σ) → Prop where
  | nil : Thinned plan answering [] []
  | keep (e : Episode σ) {all kept : List (Episode σ)} (rest : Thinned plan answering all kept) :
      Thinned plan answering (e :: all) (e :: kept)
  | drop {e : Episode σ} {call : Call} {error : FactoryError} {all kept : List (Episode σ)}
      (failed : e.served? plan answering = some (call, .error error))
      (rest : Thinned plan answering all kept) : Thinned plan answering (e :: all) kept

def renamed (θ : Instance → Instance) (c : Call × Outcome) : Call × Outcome :=
  (c.1, c.2.map (Reply.rename θ))

namespace Factory

variable {around : Surroundings σ} {view : σ → ν} {b : Behaviour} {f g : Factory (Numbered σ)}

theorem Echoes.outcome_eq {made : Nat} {x y : Outcome × Factory (Numbered σ)}
    (h : Echoes view θ made x y) (hsame : ∀ p, p.number < y.2.around.made → θ' p = θ p) :
    x.1 = y.1.map (Reply.rename θ') := by
  rw [h.outcome]
  cases hy : y.1 with
  | error e => rfl
  | ok reply =>
    have hnames := Reply.rename_congr fun p hp => hsame p (h.below hy hp)
    exact congrArg Except.ok hnames.symm

theorem Mirrors.thinned (steady : around.Steady view b) (settings : Settings)
    {course : List (Happening (Numbered σ))} (hc : ∀ h ∈ course, h.Respects view)
    (h : Mirrors view θ f g) {kept : List (Episode (Numbered σ))}
    (thin : Thinned settings.plan around.answering
      (f.episodes settings.plan around.answering course) kept) :
    ∃ θ' : Instance → Instance, (∀ p, p.number < g.around.made → θ' p = θ p) ∧
      Function.Injective θ' ∧
      kept.filterMap (Episode.served? settings.plan around.answering) =
        (g.served settings.plan around.answering (kept.map Episode.happening)).map (renamed θ') := by
  -- Both go through the course in step, until a call is left out: then the first has made instances
  -- that the second has not, and the names of all that is made later change.
  induction course generalizing f g θ kept with
  | nil =>
    cases thin
    exact ⟨θ, fun _ _ => rfl, h.injective, rfl⟩
  | cons happening course ih =>
    have hrest : ∀ h ∈ course, h.Respects view := fun h' hm => hc h' (List.mem_cons_of_mem _ hm)
    cases thin with
    | keep _ rest =>
      cases happening with
      | change turn =>
        have hturn : (Happening.change turn).Respects view := hc _ List.mem_cons_self
        obtain ⟨hfmade, hview⟩ := hturn f.around g.around
        obtain ⟨hgmade, -⟩ := hturn g.around f.around
        obtain ⟨θ', hsame, hinj, heq⟩ := ih hrest (h.moved hfmade hgmade (hview h.view)) rest
        refine ⟨θ', fun p hp => hsame p ?_, hinj, heq⟩
        exact Nat.lt_of_lt_of_eq hp hgmade.symm
      | call call =>
        have hecho := h.echo steady settings call
        obtain ⟨θ', hsame, hinj, heq⟩ := ih hrest hecho.mirrors rest
        refine ⟨θ', fun p hp => hsame p (Nat.lt_of_lt_of_le hp hecho.later), hinj, ?_⟩
        exact congrArg₂ List.cons (congrArg (Prod.mk call) (hecho.outcome_eq hsame)) heq
    | drop failed rest =>
      cases happening with
      | change turn => cases failed
      | call call =>
        obtain ⟨rfl, hfailed⟩ := Prod.mk.inj (Option.some.inj failed)
        have hcells := (perform_spec settings.plan around.answering h.settled_left call)
        rw [hfailed] at hcells
        obtain ⟨hmade, hview⟩ := perform_view steady settings h.settled_left call
        obtain ⟨θ₁, hold, hdelayed⟩ := h.delay hcells.cells_of_error hmade hview
        obtain ⟨θ', hsame, hinj, heq⟩ := ih hrest hdelayed rest
        exact ⟨θ', fun p hp => (hsame p hp).trans (hold p hp), hinj, heq⟩

theorem mirrors_fresh (view : σ → ν) (s : σ) :
    Mirrors view id (fresh ⟨0, s⟩) (fresh ⟨0, s⟩) where
  settled := fresh_settled _
  cells slot := by cases slot <;> rfl
  below slot a ha := by cases slot <;> cases ha
  shifts _ := rfl
  bounded := id
  injective := Function.injective_id
  view := rfl

theorem empty_of_no_success {I : Interface} {τ : Type} {plan : Plan I} {answering : Answering I τ}
    {s : τ} {course : List (Happening τ)} {slot : Slot}
    (h : ∀ reply, (slot.call, .ok reply) ∉ (fresh s).served plan answering course) :
    ((fresh s).after plan answering course).cells.get slot = .empty := by
  induction course using List.reverseRecOn with
  | nil => cases slot <;> rfl
  | append_singleton past happening ih =>
    rw [after_snoc]
    cases happening with
    | change turn =>
      rw [served_snoc_change] at h
      exact ih h
    | call call =>
      rw [served_snoc_call] at h
      have hempty := ih fun reply hr => h reply (List.mem_append_left _ hr)
      have hsettled := after_settled plan answering (fresh_settled s) past
      refine (perform_spec plan answering hsettled call).get_eq_empty hempty fun reply hr => ?_
      exact h reply (List.mem_append_right _ (hr ▸ List.mem_singleton_self _))

/-- A call that fails changes nothing that a later call could tell: without it the other calls return
the same, and what failed is tried anew with what the surroundings know by then. -/
theorem failures_leave_no_trace (settings : Settings) :
    (∀ {τ : Type} (answering : Answering Question.interface τ) (s : τ)
        (course : List (Happening τ)) (call : Call) (e : FactoryError),
      let f := (fresh s).after settings.plan answering course
      (f.perform settings.plan answering call).1 = .error e →
        (f.perform settings.plan answering call).2.cells = f.cells) ∧
    ∀ {σ ν : Type} {around : Surroundings σ} {view : σ → ν} {b : Behaviour},
      around.Steady view b → ∀ (s : σ) (course : List (Happening (Numbered σ))),
      (∀ h ∈ course, h.Respects view) →
      let plan := settings.plan
      let answering := around.answering
      let begin : Factory (Numbered σ) := fresh ⟨0, s⟩
      let f := begin.after plan answering course
      (∀ kept, Thinned plan answering (begin.episodes plan answering course) kept →
        ∃ θ : Instance → Instance, Function.Injective θ ∧
          kept.filterMap (Episode.served? plan answering) =
            (begin.served plan answering (kept.map Episode.happening)).map (renamed θ)) ∧
      ∀ slot : Slot, (∀ reply, (slot.call, .ok reply) ∉ begin.served plan answering course) →
        (f.perform plan answering slot.call).1 =
          ((around.outlook settings f.around.state).attempt b slot f.cells.document.content?
            f.around.made).1.map slot.reply := by
  refine ⟨?_, ?_⟩
  · intro τ answering s course call e f hfailed
    have spec := perform_spec settings.plan answering
      (after_settled settings.plan answering (fresh_settled s) course) call
    rw [hfailed] at spec
    exact spec.cells_of_error
  · intro σ ν around view b steady s course hc plan answering begin f
    refine ⟨?_, ?_⟩
    · intro kept thin
      obtain ⟨θ, -, hinj, heq⟩ := (mirrors_fresh view s).thinned steady settings hc thin
      exact ⟨θ, hinj, heq⟩
    · intro slot hnone
      have hempty : f.cells.get slot = .empty := empty_of_no_success hnone
      obtain ⟨hattempt, -⟩ :=
        settings.fill_foretold steady slot f.cells.document.content? f.around
      rw [perform_of_empty hempty, ← hattempt]
      rfl

def lateRegistration : List (Happening (Numbered Deployment)) :=
  let late : Extension := ⟨"late", "", .listener⟩
  [.call .start, .call .hookProviders,
    .change fun n => { n with state := n.state.register late }, .call .hookProviders]

theorem failures_leave_no_trace_lateRegistration :
    let d : ProvidersDocument := ⟨none, [⟨"early", []⟩, ⟨"late", []⟩]⟩
    let registry := Registry.register {} ⟨"early", "", .listener⟩
    let begin : Factory (Numbered Deployment) :=
      fresh ⟨0, { source := .fixed d, registry := registry }⟩
    let plan := Settings.plan {}
    let answering := Deployment.surroundings.answering
    let kept := (begin.episodes plan answering lateRegistration).eraseIdx 1
    begin.served plan answering lateRegistration =
        [(.start, .ok .done),
          (.hookProviders, .error (.creation .hook "late" .extensionNotFound)),
          (.hookProviders, .ok (.providers [⟨1⟩, ⟨2⟩]))] ∧
      begin.served plan answering (kept.map Episode.happening) =
        [(.start, .ok .done), (.hookProviders, .ok (.providers [⟨0⟩, ⟨1⟩]))] ∧
      ((begin.after plan answering (lateRegistration.take 1)).perform plan answering
        .hookProviders).2.cells = (begin.after plan answering (lateRegistration.take 1)).cells ∧
      (∃ θ : Instance → Instance, Function.Injective θ ∧
        kept.filterMap (Episode.served? plan answering) =
          (begin.served plan answering (kept.map Episode.happening)).map (renamed θ)) ∧
      ((begin.after plan answering (lateRegistration.take 3)).perform plan answering
        .hookProviders).1 = .ok (.providers [⟨1⟩, ⟨2⟩]) := by
  intro d registry begin plan answering kept
  have hchanges : ∀ h ∈ lateRegistration,
      h.Respects fun d : Deployment => (d.store, d.source, d.registry) := by
    intro h hm
    simp only [lateRegistration, List.mem_cons, List.not_mem_nil, or_false] at hm
    rcases hm with rfl | rfl | rfl | rfl
    · trivial
    · trivial
    · intro n m
      refine ⟨rfl, fun hview => ?_⟩
      simp only [Prod.mk.injEq] at hview
      simp only [Deployment.register, Deployment.note, hview]
    · trivial
  have hthin : Thinned plan answering (begin.episodes plan answering lateRegistration) kept :=
    .keep _ (.drop rfl (.keep _ (.keep _ .nil)))
  have hnone : ∀ reply, (Slot.hooks.call, .ok reply) ∉
      begin.served plan answering (lateRegistration.take 3) := by
    have hserved : begin.served plan answering (lateRegistration.take 3) =
        [(.start, .ok .done),
          (.hookProviders, .error (.creation .hook "late" .extensionNotFound))] := rfl
    intro reply hr
    rw [hserved] at hr
    simp [Slot.call] at hr
  obtain ⟨hcells, hsteady⟩ := failures_leave_no_trace {}
  have hkept := (hsteady Deployment.steady _ lateRegistration hchanges).1 kept hthin
  have hretry := (hsteady Deployment.steady _ (lateRegistration.take 3)
    fun h hm => hchanges h (List.mem_of_mem_take hm)).2 .hooks hnone
  exact ⟨rfl, rfl, hcells answering _ (lateRegistration.take 1) .hookProviders _ rfl, hkept,
    hretry.trans rfl⟩

end Factory

end Provisioning
