import Mathlib.Data.List.Induction
import Provisioning.Deployment
import Provisioning.Proofs.Race.Service

/-!
# How calls fail

The kind of an error depends on the call and on what has happened before. To start a factory fails only
for what is wrong with the document. To ask for providers fails as long as the factory was not started;
after that for want of an entry of the document, if the one provider is asked for that has to be
declared, or for an entry of the asked role whose provider cannot be made.
-/

namespace Provisioning

/-- What an error tells apart from its message: one of some kinds, the role and the extension. -/
structure FactoryError.Tells (e : FactoryError) (kinds : List ErrorKind) (role : Option Role)
    (extension : Option String) : Prop where
  kind : e.kind ∈ kinds
  role : e.role? = role
  extension : e.extension? = extension

def ErrorKind.ofDocuments : List ErrorKind := [.configNotFound, .configInvalid]

def ErrorKind.ofEntries : List ErrorKind :=
  [.extensionNotFound, .instantiationFailed, .configurationRejected]

namespace FactoryError

open ErrorKind

theorem tells_config (error : ConfigError) : (config error).Tells ofDocuments none none := by
  refine ⟨?_, rfl, rfl⟩
  by_cases hnot : error.isNotFound <;> simp [kind, hnot, ofDocuments]

theorem tells_creation (role : Role) (extension : String) (source : CreationError) :
    (creation role extension source).Tells ofEntries (some role) (some extension) := by
  refine ⟨?_, rfl, rfl⟩
  cases source <;> simp [kind, ofEntries]

end FactoryError

/-- How a call for providers fails: no call to start the factory has succeeded before it; or the document
does not declare the one provider, and the thread asks nothing; or the provider of an entry cannot be
made. -/
inductive Slot.Fails (c : Cells) (past between : History Question.interface) (i : Nat) (s : Slot)
    (e : FactoryError) : Prop where
  | unstarted (tells : e.Tells [.factoryNotInitialized] none none) (h : ¬ past.Started)
  | undeclared {d : ProvidersDocument} (hs : s = .persistence) (hd : c.document = .full d)
      (h : d.persistence = none) (tells : e.Tells [.roleMissing] (some .persistence) none)
      (silent : ∀ x, (i, .asked x) ∉ between)
  | unmade {d : ProvidersDocument} {entry : ProviderEntry} (hd : c.document = .full d)
      (h : entry ∈ s.entries d) (tells : e.Tells ErrorKind.ofEntries (some s.role) (some entry.extension))

theorem Slot.Fails.kind_not_mem {c : Cells} {past between : History Question.interface} {i : Nat}
    {s : Slot} {e : FactoryError} (h : s.Fails c past between i e) :
    e.kind ∉ ErrorKind.ofDocuments := by
  have hentries : ∀ k ∈ ErrorKind.ofEntries, k ∉ ErrorKind.ofDocuments := by decide
  cases h with
  | unstarted tells | undeclared _ _ _ tells =>
    rw [List.mem_singleton.mp tells.kind]
    decide
  | unmade _ _ tells => exact hentries _ tells.kind

namespace Race

variable {σ : Type} {settings : Settings} {answering : Answering Question.interface σ}
  {changes : σ → σ → Prop} {around : σ} {lists : List (List Call)}
  {h past between later : History Question.interface} {r : Race Question.interface σ} {i : Nat}
  {s : Slot} {outcome : Outcome} {e : FactoryError}

theorem Run.tells_of_start (run : Run settings.plan answering changes (ofCalls around lists) h r)
    (hc : h.Serves past i .start between outcome later) :
    outcome = .ok .done ∨ ∃ e, outcome = .error e ∧ e.Tells ErrorKind.ofDocuments none none := by
  rcases run.served_slot (s := .document) hc with ⟨a, ho, -⟩ | ⟨e, d, xs, ho, -, -, -, leads⟩
  · exact .inl ho
  · refine .inr ⟨e, ho, ?_⟩
    cases settings.fill_leads_error leads with
    | unloaded error => exact FactoryError.tells_config error
    | unstarted hs | unmade hs => exact (hs rfl).elim

theorem Run.full_of_holds (run : Run settings.plan answering changes (ofCalls around lists) h r)
    (hm : h = past ++ later) {d : ProvidersDocument} (hd : past.Holds .document d) :
    r.factory.cells.document = .full d := by
  subst hm
  exact (run.full_iff_holds .document d).mpr (hd.append_left later)

theorem Run.fails_of_error (run : Run settings.plan answering changes (ofCalls around lists) h r)
    (hs : s ≠ .document) (hc : h.Serves past i s.call between (.error e) later) :
    s.Fails r.factory.cells past between i e := by
  rcases run.served_slot hc with ⟨a, ho, -⟩ | ⟨e', d, xs, ho, hown, before, after, leads⟩
  · cases ho
  · cases ho
    have hfull : ∀ d', d = some d' → r.factory.cells.document = .full d' :=
      fun d' hd => run.full_of_holds hc.split_returned (after d' hd)
    cases settings.fill_leads_error leads with
    | unloaded error => exact (hs rfl).elim
    | unstarted =>
      refine .unstarted ⟨by simp [FactoryError.kind], rfl, rfl⟩ fun hstarted => ?_
      obtain ⟨d', hd'⟩ := (run.started_iff hc.split (by simp)).mp hstarted
      cases before d' hd'
    | undeclared h =>
      refine .undeclared rfl (hfull _ rfl) h ⟨by simp [FactoryError.kind], rfl, rfl⟩ fun x hx => ?_
      rw [← History.mem_own, hown] at hx
      simp at hx
    | unmade _ h source => exact .unmade (hfull _ rfl) h (FactoryError.tells_creation _ _ source)

theorem Run.error_of_unstarted
    (run : Run settings.plan answering changes (ofCalls around lists) h r) (hs : s ≠ .document)
    (hc : h.Serves past i s.call between outcome later)
    (hn : ¬ History.Started (past ++ (i, .called s.call) :: between)) :
    outcome = .error .notInitialized := by
  have hclosed : outcome ≠ .ok .done →
      ∀ d, ¬ History.Holds (past ++ (i, .called s.call) :: between) .document d := by
    intro hne d hd
    exact hn ((run.started_iff hc.split_returned (by simpa using hne)).mpr ⟨d, hd⟩)
  rcases run.served_slot hc with ⟨a, rfl, ha⟩ | ⟨e, d, xs, rfl, -, -, after, leads⟩
  · obtain ⟨d, hd, -⟩ := run.document_of_holds hc.split_returned hs ha
    exact (hclosed (by simpa using Slot.reply_ne_done hs a) d hd).elim
  · cases settings.fill_leads_error leads with
    | unloaded error => exact (hs rfl).elim
    | unstarted => rfl
    | undeclared | unmade => exact (hclosed (by simp) _ (after _ rfl)).elim

theorem Run.error_of_undeclared
    (run : Run settings.plan answering changes (ofCalls around lists) h r)
    (hc : h.Serves past i .persistenceProvider between outcome later) (hstarted : past.Started)
    {d : ProvidersDocument} (hd : r.factory.cells.document = .full d) (hnone : d.persistence = none) :
    outcome = .error (.roleMissing .persistence) := by
  have hsame : ∀ {d' : ProvidersDocument}, r.factory.cells.document = .full d' → d' = d := by
    intro d' hd'
    rw [hd] at hd'
    cases hd'
    rfl
  obtain ⟨d', hd'⟩ := (run.started_iff hc.split (by simp)).mp hstarted
  obtain rfl := hsame (run.full_of_holds hc.split hd')
  -- a provider would be one for an entry, and an attempt has seen this document at the latest
  rcases run.served_slot (s := .persistence) hc with
    ⟨p, rfl, hp⟩ | ⟨e, seen, xs, rfl, -, before, -, leads⟩
  · obtain ⟨d'', hd'', hlength⟩ := run.document_of_holds hc.split_returned (by simp) hp
    obtain rfl := hsame (run.full_of_holds hc.split_returned hd'')
    simp [Slot.instances, Slot.entries, hnone] at hlength
  · obtain rfl := before d' hd'
    cases settings.fill_leads_error leads with
    | undeclared => rfl
    | unmade _ hentry => simp [Slot.entries, hnone] at hentry

theorem Run.kind_not_mem_ofDocuments
    (run : Run settings.plan answering changes (ofCalls around lists) h r) {call : Call}
    (hne : call ≠ .start) (hc : h.Serves past i call between (.error e) later) :
    e.kind ∉ ErrorKind.ofDocuments := by
  have hconduct := run.conduct hc
  generalize between.own i = marks at hconduct
  generalize ho : (Except.error e : Outcome) = outcome at hconduct
  cases hconduct with
  | flag | document | repeated | shared => cases ho
  | noDocument =>
    cases ho
    simp [FactoryError.kind, ErrorKind.ofDocuments]
  | @attempted s =>
    have hs : s ≠ .document := by
      rintro rfl
      exact hne rfl
    exact (run.fails_of_error hs hc).kind_not_mem

/-- Every outcome is that of a call, and what calls fail with is told apart by the call and by what has
happened before it. -/
theorem error_kinds (run : Run settings.plan answering changes (ofCalls around lists) h r) :
    (∀ (now later : History Question.interface) i outcome,
      h = now ++ (i, .returned outcome) :: later →
      ∃ past call between, now = past ++ (i, .called call) :: between ∧
        h.Serves past i call between outcome later) ∧
    (∀ past i between outcome later, h.Serves past i .start between outcome later →
      outcome = .ok .done ∨ ∃ e, outcome = .error e ∧ e.Tells ErrorKind.ofDocuments none none) ∧
    (∀ s : Slot, s ≠ .document → ∀ past i between outcome later,
      h.Serves past i s.call between outcome later →
      ((∃ a, outcome = .ok (s.reply a)) ∨
        ∃ e, outcome = .error e ∧ s.Fails r.factory.cells past between i e) ∧
      (¬ History.Started (past ++ (i, .called s.call) :: between) →
        ∃ e, outcome = .error e ∧ e.kind = .factoryNotInitialized) ∧
      (s = .persistence → past.Started →
        (∃ d, r.factory.cells.document = .full d ∧ d.persistence = none) →
        ∃ e, outcome = .error e ∧ e.kind = .roleMissing)) ∧
    ∀ past i call between e later, call ≠ .start →
      h.Serves past i call between (.error e) later → e.kind ∉ ErrorKind.ofDocuments := by
  refine ⟨fun now later i outcome hm => run.exists_serves hm,
    fun past i between outcome later hc => run.tells_of_start hc, ?_,
    fun past i call between e later hne hc => run.kind_not_mem_ofDocuments hne hc⟩
  intro s hs past i between outcome later hc
  refine ⟨?_, ?_, ?_⟩
  · cases outcome with
    | ok reply =>
      rcases run.served_slot hc with ⟨a, ho, -⟩ | ⟨_, _, _, ho, -⟩
      · exact .inl ⟨a, ho⟩
      · cases ho
    | error e => exact .inr ⟨e, rfl, run.fails_of_error hs hc⟩
  · intro hn
    exact ⟨_, run.error_of_unstarted hs hc hn, rfl⟩
  · rintro rfl hstarted ⟨d, hd, hnone⟩
    exact ⟨_, run.error_of_undeclared hc hstarted hd hnone, rfl⟩

/-- A thread asks for hooks, tries to start its factory twice, and asks for providers again. -/
def impatient : Race Question.interface (Numbered Deployment) :=
  ofCalls ⟨0, {}⟩ [[.hookProviders, .start, .start, .persistenceProvider, .hookProviders]]

def declaringHook : Numbered Deployment :=
  let text := "\x7b\"hook_provider\": [\x7b\"extension\": \"echo\"\x7d]\x7d"
  ⟨0, { store.files := FileTree.write {} (.ofString "d.json") (Text.encode text) }⟩

/-- The file is not there until the first try has failed, and the extension that it names never is. -/
theorem error_kinds_impatient :
    let plan := Settings.plan ⟨.ofString "d.json"⟩
    let answering := Deployment.surroundings.answering
    let written := (impatient.play plan answering (List.replicate 9 0)).transplant declaringHook
    let r := written.play plan answering (List.replicate 20 0)
    let h := record plan answering (List.replicate 9 0) impatient ++
      record plan answering (List.replicate 20 0) written
    Run plan answering (fun _ _ => True) impatient h r ∧
      (r.errors.map fun e => (e.kind, e.role?, e.extension?)) =
        [(.factoryNotInitialized, none, none), (.configNotFound, none, none),
          (.roleMissing, some .persistence, none), (.extensionNotFound, some .hook, some "echo")] ∧
      (∀ past i between outcome later, h.Serves past i .hookProviders between outcome later →
        (∃ ps, outcome = .ok (.providers ps)) ∨
          ∃ e, outcome = .error e ∧ Slot.hooks.Fails r.factory.cells past between i e) ∧
      ∀ past i between outcome later, h.Serves past i .persistenceProvider between outcome later →
        past.Started → ∃ e, outcome = .error e ∧ e.kind = .roleMissing := by
  intro plan answering written r h
  have run : Run plan answering (fun _ _ => True) impatient h r := .transplanted _ _ _ trivial
  obtain ⟨-, -, roles, -⟩ := error_kinds run
  refine ⟨run, by decide +kernel, ?_, ?_⟩
  · intro past i between outcome later hc
    exact (roles .hooks (by decide) past i between outcome later hc).1
  · intro past i between outcome later hc hstarted
    refine (roles .persistence (by decide) past i between outcome later hc).2.2 rfl hstarted ?_
    exact ⟨⟨none, [⟨"echo", []⟩]⟩, by decide +kernel, rfl⟩

end Race

end Provisioning
