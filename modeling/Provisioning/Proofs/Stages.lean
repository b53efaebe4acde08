import Provisioning.Proofs.Course.Hooks

/-!
# The stages of making a provider

A provider is looked for, told to be of the right role, made and configured, in this order. What is
asked on the way, apart from remarks in the log, and what comes of it are determined by the stage that
fails first. The extension that was found may call itself what it likes: errors name the one that the
entry declares.
-/

namespace Provisioning

open Dialogue

/-- What is asked and answered to make the provider of an entry, with the outcome: one of the four stages
fails and none is entered after it, or all succeed. -/
inductive Stages (role : Role) (entry : ProviderEntry) :
    List (Exchange Question.interface) → Except FactoryError Instance → Prop where
  | unknown :
      Stages role entry [⟨.resolve entry.extension, none⟩]
        (.error (.creation role entry.extension .extensionNotFound))
  | misplaced {x : Extension} (hx : x.role ≠ role) :
      Stages role entry [⟨.resolve entry.extension, some x⟩]
        (.error (.creation role entry.extension (.instantiationFailed
          ⟨"extension is a " ++ x.role.name ++ " and does not implement " ++ role.name, []⟩)))
  | unmade {x : Extension} (hx : x.role = role) (failure : Failure) :
      Stages role entry [⟨.resolve entry.extension, some x⟩, ⟨.construct x, .error failure⟩]
        (.error (.creation role entry.extension (.instantiationFailed failure)))
  | rejected {x : Extension} (hx : x.role = role) (p : Instance) (refusal : ProviderError) :
      Stages role entry
        [⟨.resolve entry.extension, some x⟩, ⟨.construct x, .ok p⟩,
          ⟨.configure p (.ofProperties entry.properties), .error refusal⟩]
        (.error (.creation role entry.extension (.configurationRejected refusal)))
  | made {x : Extension} (hx : x.role = role) (p : Instance) :
      Stages role entry
        [⟨.resolve entry.extension, some x⟩, ⟨.construct x, .ok p⟩,
          ⟨.configure p (.ofProperties entry.properties), .ok ()⟩]
        (.ok p)

variable {σ : Type} {role : Role} {entry : ProviderEntry}

namespace Stages

variable {x : Extension} {p : Instance} {xs journal : List (Exchange Question.interface)}
  {outcome : Except FactoryError Instance}

theorem of_configure (hx : x.role = role)
    (h : (configure role entry p).Leads xs (.done outcome)) :
    Stages role entry
      (⟨.resolve entry.extension, some x⟩ :: ⟨.construct x, .ok p⟩ :: xs.filter Exchange.isMaking)
      outcome := by
  obtain ⟨accepted, ys, rfl, hn⟩ := leads_ask_done_iff.mp h
  cases accepted with
  | error refusal =>
    obtain ⟨rfl, ho⟩ := leads_done_iff.mp hn
    cases ho
    exact .rejected hx p refusal
  | ok =>
    obtain ⟨_, zs, rfl, hd⟩ := leads_ask_done_iff.mp hn
    obtain ⟨rfl, ho⟩ := leads_done_iff.mp hd
    cases ho
    exact .made hx p

theorem of_construct (hx : x.role = role)
    (h : (construct role entry x).Leads xs (.done outcome)) :
    Stages role entry (⟨.resolve entry.extension, some x⟩ :: xs.filter Exchange.isMaking) outcome := by
  obtain ⟨made, ys, rfl, hn⟩ := leads_ask_done_iff.mp h
  cases made with
  | error failure =>
    obtain ⟨rfl, ho⟩ := leads_done_iff.mp hn
    cases ho
    exact .unmade hx failure
  | ok p =>
    obtain ⟨_, zs, rfl, hc⟩ := leads_ask_done_iff.mp hn
    exact (of_configure hx hc :)

theorem of_leads (h : (instantiate role entry).Leads xs (.done outcome)) :
    Stages role entry (xs.filter Exchange.isMaking) outcome := by
  obtain ⟨found, ys, rfl, hn⟩ := leads_ask_done_iff.mp h
  cases found with
  | none =>
    obtain ⟨rfl, ho⟩ := leads_done_iff.mp hn
    cases ho
    exact .unknown
  | some x =>
    dsimp only at hn
    split at hn
    next hx => exact of_construct hx hn
    next hx =>
      obtain ⟨rfl, ho⟩ := leads_done_iff.mp hn
      cases ho
      exact .misplaced hx

theorem exists_leads (h : Stages role entry journal outcome) :
    ∃ xs, (instantiate role entry).Leads xs (.done outcome) ∧
      xs.filter Exchange.isMaking = journal := by
  cases h with
  | unknown => exact ⟨[⟨.resolve entry.extension, none⟩], .ask (.refl _), rfl⟩
  | @misplaced x hx =>
    refine ⟨[⟨.resolve entry.extension, some x⟩], .ask ?_, rfl⟩
    dsimp only
    rw [if_neg hx]
    exact .refl _
  | @unmade x hx failure =>
    refine ⟨[⟨.resolve entry.extension, some x⟩, ⟨.construct x, .error failure⟩], .ask ?_, rfl⟩
    dsimp only
    rw [if_pos hx]
    exact .ask (.refl _)
  | @rejected x hx p refusal =>
    refine ⟨[⟨.resolve entry.extension, some x⟩, ⟨.construct x, .ok p⟩,
      ⟨.note (.instantiated role entry.extension), ()⟩,
      ⟨.configure p (.ofProperties entry.properties), .error refusal⟩], .ask ?_, rfl⟩
    dsimp only
    rw [if_pos hx]
    exact .ask (.ask (.ask (.refl _)))
  | @made x hx p =>
    refine ⟨making role entry x p, .ask ?_, rfl⟩
    dsimp only
    rw [if_pos hx]
    exact .ask (.ask (.ask (.ask (.refl _))))

theorem exists_source {e : FactoryError} (h : Stages role entry journal (.error e)) :
    ∃ source, e = .creation role entry.extension source := by
  cases h <;> exact ⟨_, rfl⟩

end Stages

/-- Surroundings let a provider be made if each of the four stages succeeds in the state that the one
before it has left. -/
theorem run_instantiate_eq_ok_iff (around : Surroundings σ) (n : Numbered σ) {p : Instance} :
    ((instantiate role entry).run around.answering n).1 = .ok p ↔
      p = ⟨n.made⟩ ∧ ∃ x s₁ s₂ s₃, around.resolve entry.extension n.state = (some x, s₁) ∧
        x.role = role ∧ around.construct x ⟨n.made⟩ s₁ = (.ok (), s₂) ∧
        around.configure ⟨n.made⟩ (.ofProperties entry.properties)
          (around.note (.instantiated role entry.extension) s₂) = (.ok (), s₃) := by
  rcases hr : around.resolve entry.extension n.state with ⟨_ | x, s₁⟩
  · simp [instantiate, creationFails, run, Surroundings.answering, hr]
  by_cases hx : x.role = role
  · rcases hc : around.construct x ⟨n.made⟩ s₁ with ⟨failure | _, s₂⟩
    · simp [instantiate, construct, creationFails, run, Surroundings.answering, Surroundings.make, hr,
        hx, hc]
    rcases ha : around.configure ⟨n.made⟩ (.ofProperties entry.properties)
      (around.note (.instantiated role entry.extension) s₂) with ⟨refusal | _, s₃⟩
    · simp [instantiate, construct, configure, creationFails, run, Surroundings.answering,
        Surroundings.make, hr, hx, hc, ha]
    · simp [instantiate, construct, configure, creationFails, run, Surroundings.answering,
        Surroundings.make, hr, hx, hc, ha, eq_comm]
  · simp [instantiate, creationFails, run, Surroundings.answering, hr, hx]

/-- Whatever is answered, an extension is looked for once, under the identifier that the entry declares,
and the first stage that fails ends the work with an error about that role and that identifier. -/
theorem provider_made_in_stages (role : Role) (entry : ProviderEntry) :
    (∀ journal outcome, Stages role entry journal outcome ↔
      ∃ xs, (instantiate role entry).Leads xs (.done outcome) ∧
        xs.filter Exchange.isMaking = journal) ∧
    (∀ (σ : Type) (answering : Answering Question.interface σ) (s : σ),
      let asked := (instantiate role entry).transcript answering s
      let outcome := ((instantiate role entry).run answering s).1
      Stages role entry (asked.filter Exchange.isMaking) outcome ∧
        asked.filterMap Exchange.resolved? = [entry.extension] ∧
        ∀ e, outcome = .error e → ∃ source, e = .creation role entry.extension source) ∧
    ∀ (σ : Type) (around : Surroundings σ) (n : Numbered σ) (p : Instance),
      ((instantiate role entry).run around.answering n).1 = .ok p ↔
        p = ⟨n.made⟩ ∧ ∃ x s₁ s₂ s₃, around.resolve entry.extension n.state = (some x, s₁) ∧
          x.role = role ∧ around.construct x ⟨n.made⟩ s₁ = (.ok (), s₂) ∧
          around.configure ⟨n.made⟩ (.ofProperties entry.properties)
            (around.note (.instantiated role entry.extension) s₂) = (.ok (), s₃) := by
  refine ⟨fun journal outcome => ⟨Stages.exists_leads, ?_⟩, ?_, ?_⟩
  · rintro ⟨xs, hleads, rfl⟩
    exact .of_leads hleads
  · intro σ answering s asked outcome
    have hstages : Stages role entry (asked.filter Exchange.isMaking) outcome :=
      .of_leads (leads_transcript answering _ s)
    refine ⟨hstages, instantiate_resolved role entry s, fun e he => ?_⟩
    rw [he] at hstages
    exact hstages.exists_source
  · exact fun σ around n p => run_instantiate_eq_ok_iff around n

def strictKeeper : Extension := ⟨"keep.strict", "", .keeper true⟩

def aliasing : Surroundings Deployment :=
  { Deployment.surroundings with resolve := fun _ d => (some strictKeeper, d) }

/-- The error names the identifier that was declared, and the last of two values is refused. -/
theorem provider_made_in_stages_renamed :
    let entry : ProviderEntry := ⟨"keep", [⟨"dir", "/a"⟩, ⟨"dir", "/b"⟩]⟩
    let w := instantiate .persistence entry
    let refusal := ProviderError.invalidProperty "dir" "/b" "rejected by stub"
    let e := FactoryError.creation .persistence "keep" (.configurationRejected refusal)
    let journal : List (Exchange Question.interface) :=
      [⟨.resolve "keep", some strictKeeper⟩, ⟨.construct strictKeeper, .ok ⟨0⟩⟩,
        ⟨.configure ⟨0⟩ ⟨[("dir", "/b")]⟩, .error refusal⟩]
    (w.run aliasing.answering ⟨0, {}⟩).1 = .error e ∧
      (w.transcript aliasing.answering ⟨0, {}⟩).filter Exchange.isMaking = journal ∧
      Stages .persistence entry journal (.error e) ∧
      ∃ source, e = .creation .persistence entry.extension source := by
  intro entry w refusal e journal
  have houtcome : (w.run aliasing.answering ⟨0, {}⟩).1 = .error e := by rfl
  have hjournal : (w.transcript aliasing.answering ⟨0, {}⟩).filter Exchange.isMaking = journal := by rfl
  obtain ⟨hstages, -, hsource⟩ :=
    (provider_made_in_stages .persistence entry).2.1 _ aliasing.answering ⟨0, {}⟩
  rw [houtcome, hjournal] at hstages
  exact ⟨houtcome, hjournal, hstages, hsource e houtcome⟩

end Provisioning
