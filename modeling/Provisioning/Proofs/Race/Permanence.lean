import Mathlib.Data.List.Induction
import Provisioning.Deployment
import Provisioning.Proofs.Race.Provenance
import Provisioning.Proofs.Race.Service

/-!
# Providers that stay

What a call for providers has handed out once, every later call hands out. It finds its cell full and
asks nothing, so that nothing that has become of the surroundings in the meantime is of any account. A
cell is not filled with providers before the document is there that declares them.
-/

namespace Provisioning

variable {I : Interface} {σ : Type}

def Mark.provider? : Mark I → Option Instance
  | returned (.ok (.provider p)) => some p
  | _ => none

def History.handedOut (h : History I) : List Instance :=
  h.filterMap fun m => m.2.provider?

theorem History.mem_handedOut {h : History I} {p : Instance} :
    p ∈ h.handedOut ↔ ∃ i, (i, .returned (.ok (.provider p))) ∈ h := by
  simp only [handedOut, List.mem_filterMap]
  constructor
  · rintro ⟨⟨i, m⟩, hm, hp⟩
    unfold Mark.provider? at hp
    split at hp
    next heq =>
      cases hp
      obtain rfl : m = _ := heq
      exact ⟨i, hm⟩
    next => cases hp
  · rintro ⟨i, hm⟩
    exact ⟨_, hm, rfl⟩

theorem Slot.full_of_shows {c : Cells} {s : Slot} (hs : s ≠ .document) {a : s.Content}
    (h : (s.reply a).Shows c) : c.get s = .full a := by
  cases s with
  | document => exact (hs rfl).elim
  | persistence => exact h
  | hooks => exact h

theorem Thread.step?_of_full {plan : Plan I} {answering : Answering I σ} {f : Factory σ}
    {t : Thread I} {s : Slot} {a : s.Content} (ht : t.stage = .waiting s)
    (ha : f.cells.get s = .full a) :
    t.step? plan answering f = some (t.finish (.ok (s.reply a)), f) := by
  simp only [step?, ht, ha]

/-- Whoever is about to ask for providers that are there has them after two steps. -/
theorem Race.play_of_full {plan : Plan I} {answering : Answering I σ} {r : Race I σ} {i : Nat}
    {t : Thread I} {calls : List Call} {s : Slot} {a : s.Content} (hs : s ≠ .document)
    (ht : r.threads[i]? = some t) (hidle : t.stage = .idle) (hcalls : t.calls = s.call :: calls)
    (ha : r.factory.cells.get s = .full a) :
    r.play plan answering [i, i] = ⟨r.factory, r.threads.set i
      (Thread.finish ⟨.idle, calls, t.returned, t.cautious⟩ (.ok (s.reply a)))⟩ := by
  let asking : Thread I := ⟨.waiting s, calls, t.returned, t.cautious⟩
  have hbegin : t.step? plan answering r.factory = some (asking, r.factory) := by
    rcases t with ⟨stage, calls', returned, cautious⟩
    obtain rfl : stage = .idle := hidle
    obtain rfl : calls' = s.call :: calls := hcalls
    cases s with
    | document => exact (hs rfl).elim
    | persistence | hooks => rfl
  have hi : i < r.threads.length := (List.getElem?_eq_some_iff.mp ht).choose
  have hreturn : asking.step? plan answering r.factory = _ := Thread.step?_of_full rfl ha
  simp only [play, step?, ht, hbegin, Option.map_some, Option.getD_some,
    List.getElem?_set_self hi, hreturn, List.set_set]
  rfl

namespace Race

/-- The content of a cell stays: whoever has asked for it since was given just that and has asked
nothing, nobody has been given anything else, and whoever asks now is given it at once. -/
structure Keeps (plan : Plan I) (answering : Answering I σ) (r : Race I σ) (h later : History I)
    (s : Slot) (a : s.Content) : Prop where
  full : r.factory.cells.get s = .full a
  again : ∀ past i between outcome rest, later.Serves past i s.call between outcome rest →
    outcome = .ok (s.reply a) ∧ between.own i = []
  unclaimed : ∀ i, (i, .claimed s) ∉ later
  same : ∀ i a', (i, .returned (.ok (s.reply a'))) ∈ h → a' = a
  waiting : ∀ t ∈ r.threads, t.stage = .waiting s →
    t.step? plan answering r.factory = some (t.finish (.ok (s.reply a)), r.factory)
  asking : ∀ (i : Nat) t calls, r.threads[i]? = some t → t.stage = .idle → t.calls = s.call :: calls →
    r.play plan answering [i, i] = ⟨r.factory, r.threads.set i
      (Thread.finish ⟨.idle, calls, t.returned, t.cautious⟩ (.ok (s.reply a)))⟩
  performed : r.factory.perform plan answering s.call = (.ok (s.reply a), r.factory)

section

variable {plan : Plan I} {answering : Answering I σ} {changes : σ → σ → Prop} {around : σ}
  {lists : List (List Call)} {h past between later rest : History I} {r : Race I σ} {i j : Nat}
  {s : Slot} {a a' : s.Content} {outcome : Outcome}

theorem Run.full_of_returned (run : Run plan answering changes (ofCalls around lists) h r)
    (hs : s ≠ .document) (hm : (i, .returned (.ok (s.reply a))) ∈ h) :
    r.factory.cells.get s = .full a :=
  Slot.full_of_shows hs (run.ok_returned hm)

theorem Run.content_unique (run : Run plan answering changes (ofCalls around lists) h r)
    (hs : s ≠ .document) (hm : (i, .returned (.ok (s.reply a))) ∈ h)
    (hm' : (j, .returned (.ok (s.reply a'))) ∈ h) : a' = a := by
  have hfull := run.full_of_returned hs hm
  rw [run.full_of_returned hs hm'] at hfull
  exact Cell.full.inj hfull

theorem Run.no_claim_of_returned (run : Run plan answering changes (ofCalls around lists) h r)
    (hm : h = past ++ (i, .returned (.ok (s.reply a))) :: later) (j : Nat) : (j, .claimed s) ∉ later := by
  obtain ⟨a', ⟨k, hk⟩, -⟩ := run.holds_of_returned hm
  obtain ⟨before, after, rfl⟩ := List.append_of_mem hk
  rw [List.append_assoc, List.cons_append] at hm
  intro hj
  exact run.no_claim_of_ended hm j (by simp [hj])

theorem Run.serves_again (run : Run plan answering changes (ofCalls around lists) h r)
    (hs : s ≠ .document) (hm : h = past ++ (i, .returned (.ok (s.reply a))) :: later)
    {before : History I} (hc : later.Serves before j s.call between outcome rest) :
    outcome = .ok (s.reply a) ∧ between.own j = [] := by
  have hserves : h.Serves (past ++ (i, .returned (.ok (s.reply a))) :: before) j s.call between
      outcome rest := by
    refine ⟨?_, hc.single⟩
    rw [hm, hc.split, List.append_assoc, List.cons_append]
  have hfirst : (i, .returned (.ok (s.reply a))) ∈ h := by simp [hm]
  have hreturned : (j, .returned outcome) ∈ h := by
    rw [hserves.split_returned]
    simp
  have hunclaimed : .claimed s ∉ between.own j := by
    rw [History.mem_own]
    intro hj
    refine run.no_claim_of_returned hm j ?_
    rw [hc.split]
    simp [hj]
  have hconduct := run.conduct hserves
  generalize hcall : s.call = call at hconduct
  generalize between.own j = marks at hconduct hunclaimed
  cases hconduct with
  | flag | document | noDocument => cases s <;> cases hcall
  | repeated => cases s <;> first | exact (hs rfl).elim | cases hcall
  | shared =>
    obtain rfl := Slot.call_injective hcall
    rw [run.content_unique hs hfirst hreturned]
    exact ⟨rfl, rfl⟩
  | attempted =>
    obtain rfl := Slot.call_injective hcall
    simp at hunclaimed

theorem Run.keeps (run : Run plan answering changes (ofCalls around lists) h r) (hs : s ≠ .document)
    (hm : h = past ++ (i, .returned (.ok (s.reply a))) :: later) :
    r.Keeps plan answering h later s a := by
  have hreturned : (i, .returned (.ok (s.reply a))) ∈ h := by simp [hm]
  have hfull := run.full_of_returned hs hreturned
  constructor
  · exact hfull
  · intro before j between outcome rest hc
    exact run.serves_again hs hm hc
  · exact run.no_claim_of_returned hm
  · intro j a' hj
    exact run.content_unique hs hreturned hj
  · intro t _ ht
    exact Thread.step?_of_full ht hfull
  · intro j t calls ht hidle hcalls
    exact play_of_full hs ht hidle hcalls hfull
  · rw [Factory.perform_of_full hfull]
    cases s with
    | document => exact (hs rfl).elim
    | persistence | hooks => rfl

end

section

variable {settings : Settings} {answering : Answering Question.interface σ}
  {changes : σ → σ → Prop} {around : σ} {lists : List (List Call)}
  {h : History Question.interface} {r : Race Question.interface σ}

theorem Run.document_of_full (run : Run settings.plan answering changes (ofCalls around lists) h r)
    {s : Slot} (hs : s ≠ .document) {a : s.Content} (ha : r.factory.cells.get s = .full a) :
    ∃ d, r.factory.cells.document = .full d ∧ (s.instances a).length = (s.entries d).length := by
  obtain ⟨d, hd, hlength⟩ :=
    run.document_of_holds (List.append_nil h).symm hs ((run.full_iff_holds s a).mp ha)
  exact ⟨d, (run.full_iff_holds .document d).mpr hd, hlength⟩

/-- No two instances are ever seen as the persistence provider. -/
theorem Run.countP_handedOut (run : Run settings.plan answering changes (ofCalls around lists) h r)
    (hn : h.constructed.Nodup) : h.constructed.countP (· ∈ h.handedOut) ≤ 1 := by
  by_cases hnil : h.handedOut = []
  · simp [hnil]
  · obtain ⟨p, hp⟩ := List.exists_mem_of_ne_nil _ hnil
    obtain ⟨i, hi⟩ := History.mem_handedOut.mp hp
    calc h.constructed.countP (· ∈ h.handedOut) ≤ h.constructed.count p := by
          apply List.countP_mono_left
          intro q _ hq
          obtain ⟨j, hj⟩ := History.mem_handedOut.mp (of_decide_eq_true hq)
          obtain rfl := run.content_unique (s := .persistence) (by simp) hi hj
          simp
      _ ≤ 1 := List.nodup_iff_count_le_one.mp hn p

end

variable {settings : Settings} {around : Surroundings σ} {n : Numbered σ} {lists : List (List Call)}
  {h : History Question.interface} {r : Race Question.interface (Numbered σ)}

/-- Providers that were handed out stay, they are there for a document, and no more than one instance is
ever seen as the persistence provider. -/
theorem handed_out_kept
    (run : Run settings.plan around.answering keepsNumbers (ofCalls n lists) h r) :
    (∀ (past later : History Question.interface) i (s : Slot) (a : s.Content), s ≠ .document →
      h = past ++ (i, .returned (.ok (s.reply a))) :: later →
      r.Keeps settings.plan around.answering h later s a) ∧
    (∀ (s : Slot) (a : s.Content), s ≠ .document → r.factory.cells.get s = .full a →
      r.factory.isInitialized = true ∧
        ∃ d, r.factory.cells.document = .full d ∧ (s.instances a).length = (s.entries d).length) ∧
    h.constructed.countP (· ∈ h.handedOut) ≤ 1 := by
  refine ⟨fun past later i s a hs hm => run.keeps hs hm, ?_,
    run.countP_handedOut run.constructed_nodup⟩
  intro s a hs ha
  obtain ⟨d, hd, hlength⟩ := run.document_of_full hs ha
  exact ⟨Factory.isInitialized_eq_true_iff.mpr ⟨d, hd⟩, d, hd, hlength⟩

def declaringKeeper : Deployment :=
  let text := "\x7b\"persistence_provider\": \x7b\"extension\": \"keep\"\x7d\x7d"
  { store := { files := FileTree.write {} (.ofString "d.json") (Text.encode text) },
    registry := Registry.register {} ⟨"keep", "", .keeper false⟩ }

/-- One thread asks for providers, and another does so after the file and the extension are gone. -/
theorem handed_out_kept_uprooted :
    let plan := Settings.plan ⟨.ofString "d.json"⟩
    let answering := Deployment.surroundings.answering
    let start := ofCalls ⟨0, declaringKeeper⟩
      [[.start, .persistenceProvider, .hookProviders], [.persistenceProvider, .hookProviders, .start]]
    let uprooted := (start.play plan answering (List.replicate 20 0)).transplant ⟨1, {}⟩
    let r := uprooted.play plan answering (List.replicate 8 1)
    let h := record plan answering (List.replicate 20 0) start ++
      record plan answering (List.replicate 8 1) uprooted
    Run plan answering keepsNumbers start h r ∧
      r.threads.map (fun t => t.returned.map Except.toOption) =
        [[some .done, some (.provider ⟨0⟩), some (.providers [])],
          [some (.provider ⟨0⟩), some (.providers []), some .done]] ∧
      (∃ past later i, h = past ++ (i, .returned (.ok (.provider ⟨0⟩))) :: later ∧
        r.Keeps plan answering h later .persistence ⟨0⟩) ∧
      (∃ d, r.factory.cells.document = .full d ∧ d.hooks.length = 0) ∧
      h.constructed.countP (· ∈ h.handedOut) ≤ 1 := by
  intro plan answering start uprooted r h
  have run : Run plan answering keepsNumbers start h r := by
    have hmade : (start.play plan answering (List.replicate 20 0)).factory.around.made ≤ 1 := by
      decide +kernel
    exact .transplanted _ _ _ hmade
  obtain ⟨keeps, declared, once⟩ := handed_out_kept run
  refine ⟨run, by decide +kernel, ?_, ?_, once⟩
  · have hshown : ⟨0⟩ ∈ h.handedOut := by decide +kernel
    obtain ⟨i, hi⟩ := History.mem_handedOut.mp hshown
    obtain ⟨past, later, hsplit⟩ := List.append_of_mem hi
    exact ⟨past, later, i, hsplit, keeps past later i .persistence ⟨0⟩ (by decide) hsplit⟩
  · obtain ⟨-, d, hd, hlength⟩ := declared .hooks [] (by decide) (by decide +kernel)
    exact ⟨d, hd, hlength.symm⟩

end Race

end Provisioning
