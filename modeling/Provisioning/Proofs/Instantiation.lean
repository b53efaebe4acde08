import Provisioning.Factory.Plan
import Provisioning.Proofs.Transcript

/-!
# How providers are made

A provider that an entry yields was made by one question and configured by another, right after it.
The transcripts of successful work consist of such makings, one for each entry in order. Whatever else a
transcript tells, nothing is configured in it that was not made just before.
-/

namespace Provisioning

open Dialogue

def Exchange.constructed? : Exchange Question.interface → Option Instance
  | ⟨.construct _, .ok p⟩ => some p
  | _ => none

def Exchange.configured? : Exchange Question.interface → Option Instance
  | ⟨.configure p _, _⟩ => some p
  | _ => none

def making (role : Role) (entry : ProviderEntry) (extension : Extension) (p : Instance) :
    List (Exchange Question.interface) :=
  let context := Context.ofProperties entry.properties
  [⟨.resolve entry.extension, some extension⟩, ⟨.construct extension, .ok p⟩,
    ⟨.note (.instantiated role entry.extension), ()⟩, ⟨.configure p context, .ok ()⟩,
    ⟨.note (.configured role entry.extension context.size), ()⟩]

/-- Providers are made for entries, one after the other. -/
inductive Makes (role : Role) :
    List ProviderEntry → List (Exchange Question.interface) → List Instance → Prop where
  | nil : Makes role [] [] []
  | cons {entry : ProviderEntry} {entries : List ProviderEntry} {extension : Extension}
      {p : Instance} {xs : List (Exchange Question.interface)} {ps : List Instance}
      (hr : extension.role = role) (rest : Makes role entries xs ps) :
      Makes role (entry :: entries) (making role entry extension p ++ xs) (p :: ps)

namespace Makes

variable {role : Role} {entries : List ProviderEntry} {xs : List (Exchange Question.interface)}
  {ps : List Instance}

theorem length_eq (h : Makes role entries xs ps) : ps.length = entries.length := by
  induction h with
  | nil => rfl
  | cons _ _ ih => simp [ih]

theorem constructed (h : Makes role entries xs ps) : xs.filterMap Exchange.constructed? = ps := by
  induction h with
  | nil => rfl
  | cons _ _ ih =>
    rw [List.filterMap_append, ih]
    rfl

theorem exists_making (h : Makes role entries xs ps) {k : Nat} {p : Instance}
    (hp : ps[k]? = some p) :
    ∃ entry extension ys zs, entries[k]? = some entry ∧ extension.role = role ∧
      xs = ys ++ making role entry extension p ++ zs := by
  induction h generalizing k with
  | nil => simp at hp
  | @cons entry entries extension p' xs ps hr rest ih =>
    cases k with
    | zero =>
      obtain rfl : p' = p := by simpa using hp
      exact ⟨entry, extension, [], xs, rfl, hr, rfl⟩
    | succ k =>
      obtain ⟨entry', extension', ys, zs, he, hr', rfl⟩ := ih (by simpa using hp)
      exact ⟨entry', extension', making role entry extension p' ++ ys, zs, by simpa using he, hr',
        by simp⟩

end Makes

section Successes

variable {role : Role} {entry : ProviderEntry} {extension : Extension} {p target : Instance}
  {xs : List (Exchange Question.interface)}

theorem configure_leads_ok (h : (configure role entry target).Leads xs (.done (.ok p))) :
    p = target ∧
      xs = [⟨.configure target (Context.ofProperties entry.properties), .ok ()⟩,
        ⟨.note (.configured role entry.extension (Context.ofProperties entry.properties).size), ()⟩] := by
  obtain ⟨accepted, ys, rfl, hn⟩ := leads_ask_done_iff.mp h
  cases accepted with
  | error e => cases (leads_done_iff.mp hn).2
  | ok =>
    obtain ⟨_, zs, rfl, hd⟩ := leads_ask_done_iff.mp hn
    obtain ⟨rfl, hp⟩ := leads_done_iff.mp hd
    cases hp
    exact ⟨rfl, rfl⟩

theorem construct_leads_ok (h : (construct role entry extension).Leads xs (.done (.ok p))) :
    ⟨.resolve entry.extension, some extension⟩ :: xs = making role entry extension p := by
  obtain ⟨made, ys, rfl, hn⟩ := leads_ask_done_iff.mp h
  cases made with
  | error failure => cases (leads_done_iff.mp hn).2
  | ok target =>
    obtain ⟨_, zs, rfl, hc⟩ := leads_ask_done_iff.mp hn
    obtain ⟨rfl, rfl⟩ := configure_leads_ok hc
    rfl

theorem instantiate_leads_ok (h : (instantiate role entry).Leads xs (.done (.ok p))) :
    ∃ extension, extension.role = role ∧ xs = making role entry extension p := by
  obtain ⟨found, ys, rfl, hn⟩ := leads_ask_done_iff.mp h
  cases found with
  | none => cases (leads_done_iff.mp hn).2
  | some extension =>
    dsimp only at hn
    split at hn
    next hr => exact ⟨extension, hr, construct_leads_ok hn⟩
    next => cases (leads_done_iff.mp hn).2

theorem configure_leads_error {e : FactoryError}
    (h : (configure role entry target).Leads xs (.done (.error e))) :
    ∃ source, e = .creation role entry.extension source := by
  obtain ⟨accepted, ys, rfl, hn⟩ := leads_ask_done_iff.mp h
  cases accepted with
  | error refusal =>
    cases (leads_done_iff.mp hn).2
    exact ⟨_, rfl⟩
  | ok =>
    obtain ⟨_, zs, rfl, hd⟩ := leads_ask_done_iff.mp hn
    cases (leads_done_iff.mp hd).2

/-- Whatever fails, the error names the role and the extension of the entry. -/
theorem instantiate_leads_error {e : FactoryError}
    (h : (instantiate role entry).Leads xs (.done (.error e))) :
    ∃ source, e = .creation role entry.extension source := by
  obtain ⟨found, ys, rfl, hn⟩ := leads_ask_done_iff.mp h
  cases found with
  | none =>
    cases (leads_done_iff.mp hn).2
    exact ⟨_, rfl⟩
  | some extension =>
    dsimp only at hn
    split at hn
    · obtain ⟨made, zs, rfl, hm⟩ := leads_ask_done_iff.mp hn
      cases made with
      | error failure =>
        cases (leads_done_iff.mp hm).2
        exact ⟨_, rfl⟩
      | ok target =>
        obtain ⟨_, us, rfl, hc⟩ := leads_ask_done_iff.mp hm
        exact configure_leads_error hc
    · cases (leads_done_iff.mp hn).2
      exact ⟨_, rfl⟩

theorem instantiateAll_leads_ok {entries : List ProviderEntry} {ps : List Instance}
    (h : (instantiateAll role entries).Leads xs (.done (.ok ps))) : Makes role entries xs ps := by
  induction entries generalizing xs ps with
  | nil =>
    obtain ⟨rfl, hp⟩ := leads_done_iff.mp h
    cases hp
    exact .nil
  | cons entry rest ih =>
    obtain ⟨ys, zs, first, rfl, hfirst, hn⟩ := leads_bind_done_iff.mp h
    cases first with
    | error e => cases (leads_done_iff.mp hn).2
    | ok p =>
      obtain ⟨us, vs, others, rfl, hothers, hd⟩ := leads_bind_done_iff.mp hn
      cases others with
      | error e => cases (leads_done_iff.mp hd).2
      | ok ps' =>
        obtain ⟨rfl, hp⟩ := leads_done_iff.mp hd
        cases hp
        obtain ⟨extension, hr, rfl⟩ := instantiate_leads_ok hfirst
        rw [List.append_nil]
        exact .cons hr (ih hothers)

theorem instantiateAll_leads_error {entries : List ProviderEntry} {e : FactoryError}
    (h : (instantiateAll role entries).Leads xs (.done (.error e))) :
    ∃ entry ∈ entries, ∃ source, e = .creation role entry.extension source := by
  induction entries generalizing xs with
  | nil => cases (leads_done_iff.mp h).2
  | cons entry rest ih =>
    obtain ⟨ys, zs, first, rfl, hfirst, hn⟩ := leads_bind_done_iff.mp h
    cases first with
    | error e' =>
      cases (leads_done_iff.mp hn).2
      obtain ⟨source, rfl⟩ := instantiate_leads_error hfirst
      exact ⟨entry, List.mem_cons_self, source, rfl⟩
    | ok p =>
      obtain ⟨us, vs, others, rfl, hothers, hd⟩ := leads_bind_done_iff.mp hn
      cases others with
      | error e' =>
        cases (leads_done_iff.mp hd).2
        obtain ⟨entry', hentry, hsource⟩ := ih hothers
        exact ⟨entry', List.mem_cons_of_mem _ hentry, hsource⟩
      | ok ps => cases (leads_done_iff.mp hd).2

end Successes

/-! ## What is configured -/

/-- Whatever is configured in a transcript was made just before. -/
def Prepared (xs : List (Exchange Question.interface)) : Prop :=
  ∀ ys x zs p, xs = ys ++ x :: zs → x.configured? = some p →
    ∃ before made event, ys = before ++ [made, ⟨.note event, ()⟩] ∧ made.constructed? = some p

namespace Prepared

variable {x : Exchange Question.interface} {xs ys : List (Exchange Question.interface)}

theorem nil : Prepared [] := by
  intro ys x zs p h
  simp at h

theorem append (hx : Prepared xs) (hy : Prepared ys) : Prepared (xs ++ ys) := by
  intro us x vs p h hp
  rcases List.append_eq_append_iff.mp h with ⟨mid, rfl, hl⟩ | ⟨mid, rfl, hl⟩
  · obtain ⟨before, made, event, rfl, hm⟩ := hy mid x vs p hl hp
    exact ⟨xs ++ before, made, event, by simp, hm⟩
  · cases mid with
    | nil =>
      obtain ⟨before, made, event, hb, hm⟩ := hy [] x vs p hl.symm hp
      simp at hb
    | cons x' mid =>
      obtain ⟨rfl, -⟩ := List.cons.inj hl
      exact hx us x mid p rfl hp

theorem cons (hx : x.configured? = none) (hxs : Prepared xs) : Prepared (x :: xs) := by
  intro us y vs p h hp
  rcases List.cons_eq_append_iff.mp h with ⟨rfl, hl⟩ | ⟨us, rfl, hl⟩
  · obtain ⟨rfl, -⟩ := List.cons.inj hl
    rw [hx] at hp
    cases hp
  · obtain ⟨before, made, event, rfl, hm⟩ := hxs us y vs p hl hp
    exact ⟨x :: before, made, event, rfl, hm⟩

theorem configured {made : Exchange Question.interface} {p : Instance} {event : LogEvent}
    (hm : made.constructed? = some p) (hx : x.configured? = some p) (hxs : Prepared xs) :
    Prepared (made :: ⟨.note event, ()⟩ :: x :: xs) := by
  have hmade : made.configured? = none := by
    rcases made with ⟨q, a⟩
    cases q with
    | configure => cases hm
    | _ => rfl
  intro us y vs p' h hp
  rcases us with _ | ⟨m, _ | ⟨n, _ | ⟨x', us⟩⟩⟩ <;>
    simp only [List.nil_append, List.cons_append, List.cons.injEq] at h
  · rcases h with ⟨rfl, -⟩
    rw [hmade] at hp
    cases hp
  · rcases h with ⟨-, rfl, -⟩
    cases hp
  · rcases h with ⟨rfl, rfl, rfl, -⟩
    exact ⟨[], made, event, rfl, hm.trans (hx.symm.trans hp)⟩
  · rcases h with ⟨rfl, rfl, rfl, hl⟩
    obtain ⟨before, made', event', rfl, hm'⟩ := hxs us y vs p' hl hp
    exact ⟨made :: ⟨.note event, ()⟩ :: x :: before, made', event', rfl, hm'⟩

end Prepared

namespace Dialogue

def Careful {α : Type} (w : Dialogue Question.interface α) : Prop :=
  ∀ xs v, w.Leads xs v → Prepared xs

variable {α β : Type}

theorem Careful.done (a : α) : Careful (.done a : Dialogue Question.interface α) := by
  intro xs v h
  obtain ⟨rfl, -⟩ := leads_done_iff.mp h
  exact .nil

theorem Careful.ask {q : Question} {next : q.Answer → Dialogue Question.interface α}
    (hq : ∀ a, Exchange.configured? ⟨q, a⟩ = none) (hn : ∀ a, Careful (next a)) :
    Careful (.ask q next : Dialogue Question.interface α) := by
  intro xs v h
  rcases leads_ask_iff.mp h with ⟨rfl, -⟩ | ⟨a, ys, rfl, hy⟩
  · exact .nil
  · exact .cons (hq a) (hn a ys v hy)

theorem Careful.bind {w : Dialogue Question.interface α} {f : α → Dialogue Question.interface β}
    (hw : w.Careful) (hf : ∀ a, (f a).Careful) : (w.bind f).Careful := by
  intro xs v h
  rcases leads_bind_iff.mp h with ⟨u, hu, -⟩ | ⟨ys, zs, a, rfl, hy, hz⟩
  · exact hw xs u hu
  · exact (hw ys _ hy).append (hf a zs v hz)

end Dialogue

theorem construct_careful (role : Role) (entry : ProviderEntry) (extension : Extension) :
    (construct role entry extension).Careful := by
  intro xs v h
  rcases leads_ask_iff.mp h with ⟨rfl, -⟩ | ⟨made, ys, rfl, hy⟩
  · exact .nil
  · cases made with
    | error failure => exact .cons rfl (Careful.done _ ys v hy)
    | ok target =>
      rcases leads_ask_iff.mp hy with ⟨rfl, -⟩ | ⟨_, zs, rfl, hz⟩
      · exact .cons rfl .nil
      · rcases leads_ask_iff.mp hz with ⟨rfl, -⟩ | ⟨accepted, ws, rfl, hw⟩
        · exact .cons rfl (.cons rfl .nil)
        · apply Prepared.configured rfl rfl
          cases accepted with
          | error e => exact Careful.done _ ws v hw
          | ok => exact Careful.ask (fun _ => rfl) (fun _ => .done _) ws v hw

theorem instantiate_careful (role : Role) (entry : ProviderEntry) :
    (instantiate role entry).Careful := by
  refine .ask (fun _ => rfl) fun found => ?_
  cases found with
  | none => exact .done _
  | some extension =>
    dsimp only
    split
    · exact construct_careful role entry extension
    · exact .done _

theorem instantiateAll_careful (role : Role) (entries : List ProviderEntry) :
    (instantiateAll role entries).Careful := by
  induction entries with
  | nil => exact .done _
  | cons entry rest ih =>
    refine (instantiate_careful role entry).bind fun first => ?_
    cases first with
    | error e => exact .done _
    | ok p =>
      refine ih.bind fun others => ?_
      cases others <;> exact .done _

/-! ## What is asked -/

def Question.NoLoad (q : Question) : Prop :=
  ∀ path, q ≠ .load path

theorem construct_asks {P : Question → Prop} (hconstruct : ∀ e, P (.construct e))
    (hconfigure : ∀ p c, P (.configure p c)) (hnote : ∀ event, P (.note event)) (role : Role)
    (entry : ProviderEntry) (extension : Extension) : (construct role entry extension).Asks P := by
  refine ⟨hconstruct extension, fun made => ?_⟩
  cases made with
  | error failure => trivial
  | ok target =>
    refine ⟨hnote _, fun _ => ⟨hconfigure _ _, fun accepted => ?_⟩⟩
    cases accepted with
    | error e => trivial
    | ok u => exact ⟨hnote _, fun _ => trivial⟩

/-- Whoever makes a provider looks for its extension first and for none later. -/
theorem instantiate_eq_ask {P : Question → Prop} (hconstruct : ∀ e, P (.construct e))
    (hconfigure : ∀ p c, P (.configure p c)) (hnote : ∀ event, P (.note event)) (role : Role)
    (entry : ProviderEntry) :
    ∃ next, instantiate role entry = .ask (.resolve entry.extension) next ∧
      ∀ found, (next found).Asks P := by
  refine ⟨_, rfl, fun found => ?_⟩
  cases found with
  | none => trivial
  | some extension =>
    dsimp only
    split
    · exact construct_asks hconstruct hconfigure hnote role entry extension
    · trivial

theorem instantiate_asks (role : Role) (entry : ProviderEntry) :
    (instantiate role entry).Asks Question.NoLoad := by
  obtain ⟨next, heq, hnext⟩ := instantiate_eq_ask (P := Question.NoLoad) (fun _ => nofun)
    (fun _ _ => nofun) (fun _ => nofun) role entry
  rw [heq]
  exact ⟨nofun, hnext⟩

theorem instantiateAll_asks (role : Role) (entries : List ProviderEntry) :
    (instantiateAll role entries).Asks Question.NoLoad := by
  induction entries with
  | nil => trivial
  | cons entry rest ih =>
    refine (instantiate_asks role entry).bind fun first => ?_
    cases first with
    | error e => trivial
    | ok p =>
      refine ih.bind fun others => ?_
      cases others <;> trivial

theorem makeHooks_asks (entries : List ProviderEntry) :
    (makeHooks entries).Asks Question.NoLoad := by
  cases entries with
  | nil => exact ⟨nofun, fun _ => trivial⟩
  | cons entry rest => exact instantiateAll_asks .hook (entry :: rest)

theorem Settings.fill_asks (settings : Settings) {s : Slot} (hs : s ≠ .document)
    (d : Option ProvidersDocument) : (settings.plan.fill s d).Asks Question.NoLoad := by
  cases s with
  | document => exact (hs rfl).elim
  | persistence =>
    cases d with
    | none => trivial
    | some d =>
      rcases d with ⟨entry, hooks⟩
      cases entry with
      | none => trivial
      | some entry => exact instantiate_asks .persistence entry
  | hooks =>
    cases d with
    | none => trivial
    | some d => exact makeHooks_asks d.hooks

/-! ## The work for a cell -/

def Slot.role : Slot → Role
  | .hooks => .hook
  | _ => .persistence

/-- The entries that a cell is filled for. -/
def Slot.entries : Slot → ProvidersDocument → List ProviderEntry
  | .document, _ => []
  | .persistence, d => d.persistence.toList
  | .hooks, d => d.hooks

def Slot.instances : (s : Slot) → s.Content → List Instance
  | .document, _ => []
  | .persistence, p => [p]
  | .hooks, ps => ps

def Reply.instances : Reply → List Instance
  | .provider p => [p]
  | .providers ps => ps
  | _ => []

theorem Slot.instances_reply (s : Slot) (a : s.Content) : (s.reply a).instances = s.instances a := by
  cases s <;> rfl

/-- Why an attempt to fill a cell fails: the document cannot be loaded, or is not there, or it declares
nothing for the cell, or the provider of one of its entries cannot be made. -/
inductive Slot.Refused : (s : Slot) → Option ProvidersDocument → List (Exchange Question.interface) →
    FactoryError → Prop where
  | unloaded {d : Option ProvidersDocument} {xs : List (Exchange Question.interface)}
      (error : ConfigError) : Refused .document d xs (.config error)
  | unstarted {s : Slot} (hs : s ≠ .document) : Refused s none [] .notInitialized
  | undeclared {doc : ProvidersDocument} (h : doc.persistence = none) :
      Refused .persistence (some doc) [] (.roleMissing .persistence)
  | unmade {s : Slot} {doc : ProvidersDocument} {xs : List (Exchange Question.interface)}
      {entry : ProviderEntry} (hs : s ≠ .document) (h : entry ∈ s.entries doc)
      (source : CreationError) :
      Refused s (some doc) xs (.creation s.role entry.extension source)

namespace Settings

variable (settings : Settings)

/-- Whoever fills a cell with providers has seen a document, and has made them for its entries if there
are any. -/
theorem fill_leads_ok {s : Slot} (hs : s ≠ .document) {d : Option ProvidersDocument}
    {xs : List (Exchange Question.interface)} {a : s.Content}
    (h : (settings.plan.fill s d).Leads xs (.done (.ok a))) :
    ∃ doc, d = some doc ∧ (s.instances a).length = (s.entries doc).length ∧
      (s.entries doc ≠ [] → Makes s.role (s.entries doc) xs (s.instances a)) := by
  cases s with
  | document => exact (hs rfl).elim
  | persistence =>
    rcases d with _ | ⟨_ | entry, hooks⟩
    · cases (leads_done_iff.mp h).2
    · cases (leads_done_iff.mp h).2
    · obtain ⟨extension, hr, rfl⟩ := instantiate_leads_ok h
      exact ⟨_, rfl, rfl, fun _ => .cons hr .nil⟩
  | hooks =>
    rcases d with _ | ⟨entry, _ | ⟨hook, hooks⟩⟩
    · cases (leads_done_iff.mp h).2
    · obtain ⟨_, ys, rfl, hd⟩ := leads_ask_done_iff.mp h
      cases (leads_done_iff.mp hd).2
      exact ⟨_, rfl, rfl, fun hne => (hne rfl).elim⟩
    · have hmakes := instantiateAll_leads_ok h
      exact ⟨_, rfl, hmakes.length_eq, fun _ => hmakes⟩

theorem fill_leads_error {s : Slot} {d : Option ProvidersDocument}
    {xs : List (Exchange Question.interface)} {e : FactoryError}
    (h : (settings.plan.fill s d).Leads xs (.done (.error e))) : s.Refused d xs e := by
  cases s with
  | document =>
    obtain ⟨_, ys, rfl, hn⟩ := leads_ask_done_iff.mp h
    obtain ⟨loaded, zs, rfl, hd⟩ := leads_ask_done_iff.mp hn
    cases loaded with
    | ok doc => cases (leads_done_iff.mp hd).2
    | error error =>
      cases (leads_done_iff.mp hd).2
      exact .unloaded error
  | persistence =>
    rcases d with _ | ⟨_ | entry, hooks⟩
    · obtain ⟨rfl, he⟩ := leads_done_iff.mp h
      cases he
      exact .unstarted (by simp)
    · obtain ⟨rfl, he⟩ := leads_done_iff.mp h
      cases he
      exact .undeclared rfl
    · obtain ⟨source, rfl⟩ := instantiate_leads_error h
      exact .unmade (s := .persistence) (by simp) (by simp [Slot.entries]) source
  | hooks =>
    rcases d with _ | ⟨entry, _ | ⟨hook, hooks⟩⟩
    · obtain ⟨rfl, he⟩ := leads_done_iff.mp h
      cases he
      exact .unstarted (by simp)
    · obtain ⟨_, ys, rfl, hd⟩ := leads_ask_done_iff.mp h
      cases (leads_done_iff.mp hd).2
    · obtain ⟨entry', hentry, source, rfl⟩ := instantiateAll_leads_error h
      exact .unmade (s := .hooks) (by simp) hentry source

theorem fill_careful (s : Slot) (d : Option ProvidersDocument) :
    (settings.plan.fill s d).Careful := by
  cases s with
  | document =>
    refine .ask (fun _ => rfl) fun _ => .ask (fun _ => rfl) fun answer => ?_
    cases answer <;> exact .done _
  | persistence =>
    rcases d with _ | ⟨_ | entry, hooks⟩
    · exact .done _
    · exact .done _
    · exact instantiate_careful .persistence entry
  | hooks =>
    rcases d with _ | ⟨entry, _ | ⟨hook, hooks⟩⟩
    · exact .done _
    · exact .ask (fun _ => rfl) fun _ => .done _
    · exact instantiateAll_careful .hook (hook :: hooks)

theorem again_careful : settings.plan.again.Careful :=
  .ask (fun _ => rfl) fun _ => .done _

end Settings

end Provisioning
