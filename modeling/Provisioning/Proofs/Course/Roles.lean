import Mathlib.Algebra.Order.BigOperators.Group.List
import Mathlib.Algebra.Order.Group.Nat
import Provisioning.Proofs.Course.Thinning

/-!
# The two roles side by side

A call is about one cell and leaves the others as they are. In steady surroundings calls for the
providers of one role can be left out of a course or put into it, and the other calls return the same;
neighbouring calls for providers of different roles can change places. Only the numbers of the instances
change.
-/

namespace Provisioning

variable {σ ν : Type} {θ : Instance → Instance}

/-! ## Names in replies -/

def Outcome.instances : Outcome → List Instance
  | .ok reply => reply.instances
  | .error _ => []

theorem Reply.rename_id (reply : Reply) : reply.rename id = reply := by
  cases reply <;> simp [Reply.rename]

theorem renamed_id (c : Call × Outcome) : renamed id c = c := by
  rcases c with ⟨call, e | reply⟩
  · rfl
  · simp [renamed, Except.map, Reply.rename_id]

theorem renamed_renamed (θ θ' : Instance → Instance) (c : Call × Outcome) :
    renamed θ (renamed θ' c) = renamed (θ ∘ θ') c := by
  rcases c with ⟨call, e | reply⟩
  · rfl
  · cases reply <;> simp [renamed, Except.map, Reply.rename]

theorem renamed_congr {θ θ' : Instance → Instance} {c : Call × Outcome}
    (h : ∀ p ∈ c.2.instances, θ p = θ' p) : renamed θ c = renamed θ' c := by
  rcases c with ⟨call, e | reply⟩
  · rfl
  · exact congrArg (fun r => (call, Except.ok r)) (Reply.rename_congr h)

/-! ## One cell less -/

namespace Cells

theorem set_settle_self (c : Cells) (s : Slot) (o : Except FactoryError s.Content) :
    (c.settle s o).set s .empty = c.set s .empty := by
  cases s <;> cases o <;> rfl

theorem set_settle_of_ne (c : Cells) {s s' : Slot} (h : s' ≠ s) (o : Except FactoryError s'.Content) :
    (c.settle s' o).set s .empty = (c.set s .empty).settle s' o := by
  cases s <;> cases s' <;> first | exact (h rfl).elim | cases o <;> rfl

end Cells

namespace Factory

variable {I : Interface} {plan : Plan I} {answering : Answering I σ} {f : Factory σ} {s : Slot}
  {call : Call}

def without (f : Factory σ) (s : Slot) : Factory σ :=
  ⟨f.cells.set s .empty, f.around⟩

theorem without_document (hs : s ≠ .document) : (f.without s).cells.document = f.cells.document :=
  Cells.get_set_of_ne f.cells .empty hs.symm

theorem without_get_of_ne {s' : Slot} (h : s' ≠ s) :
    (f.without s).cells.get s' = f.cells.get s' :=
  f.cells.get_set_of_ne .empty h

theorem glance?_without (hs : s ≠ .document) : (f.without s).glance? call = f.glance? call := by
  cases call with
  | isInitialized => simp only [glance?, isInitialized, without_document hs]
  | document => simp only [glance?, document, without_document hs]
  | start | persistenceProvider | hookProviders => rfl

theorem perform_self_without (hf : f.cells.Settled) :
    ((f.perform plan answering s.call).2.without s).cells = (f.without s).cells := by
  cases hc : f.cells.get s with
  | claimed => exact (hf s hc).elim
  | full a => rw [perform_of_full hc, without, without]
  | empty =>
    rw [perform_of_empty hc]
    exact Cells.set_settle_self _ s _

theorem perform_without (hf : f.cells.Settled) (hs : s ≠ .document) (hc : call ≠ s.call) :
    (f.without s).perform plan answering call =
      ((f.perform plan answering call).1, (f.perform plan answering call).2.without s) := by
  have spec := perform_spec plan answering hf call
  generalize f.perform plan answering call = result at spec
  rcases result with ⟨outcome, f'⟩
  cases spec with
  | glance h => exact perform_of_glance ((glance?_without hs).trans h)
  | @share s' a h =>
    have hne : s' ≠ s := fun heq => hc (congrArg Slot.call heq)
    exact perform_of_full ((without_get_of_ne hne).trans h)
  | @attempt s' outcome around h run =>
    have hne : s' ≠ s := fun heq => hc (congrArg Slot.call heq)
    have hfill : (f.without s).fill plan answering s' =
        (outcome, ⟨(f.without s).cells.settle s' outcome, around⟩) := by
      rw [fill, without_document hs]
      exact congrArg (fun x => (x.1, Factory.mk ((f.without s).cells.settle s' x.1) x.2)) run
    rw [perform_of_empty ((without_get_of_ne hne).trans h), hfill]
    exact congrArg (fun c => (outcome.map s'.reply, Factory.mk c around))
      (f.cells.set_settle_of_ne hne outcome).symm

end Factory

/-! ## Calls for one role more or less -/

/-- Whether something other happens than a call about a cell. -/
def Happening.spares (s : Slot) : Happening σ → Bool
  | .call c => c ≠ s.call
  | .change _ => true

namespace Factory

theorem served_cons_call {I : Interface} {plan : Plan I} {answering : Answering I σ} {f : Factory σ}
    (call : Call) (course : List (Happening σ)) :
    f.served plan answering (.call call :: course) =
      (call, (f.perform plan answering call).1) ::
        (f.perform plan answering call).2.served plan answering course := rfl

theorem served_cons_change {I : Interface} {plan : Plan I} {answering : Answering I σ} {f : Factory σ}
    (turn : σ → σ) (course : List (Happening σ)) :
    f.served plan answering (.change turn :: course) =
      (Factory.mk f.cells (turn f.around)).served plan answering course := rfl

theorem served_append {I : Interface} {plan : Plan I} {answering : Answering I σ} {f : Factory σ}
    (past later : List (Happening σ)) :
    f.served plan answering (past ++ later) = f.served plan answering past ++
      (f.after plan answering past).served plan answering later := by
  simp [served, episodes_append]

variable {around : Surroundings σ} {view : σ → ν} {b : Behaviour} {f g : Factory (Numbered σ)}
  {s : Slot}

/-- Who is never called about a cell does what another does that is, if nothing is in that cell. -/
theorem Mirrors.spared (steady : around.Steady view b) (settings : Settings) (hs : s ≠ .document)
    {course : List (Happening (Numbered σ))} (hc : ∀ h ∈ course, h.Respects view)
    (hf : f.cells.Settled) (h : Mirrors view θ (f.without s) g) :
    ∃ θ' : Instance → Instance, (∀ p, p.number < g.around.made → θ' p = θ p) ∧
      Function.Injective θ' ∧
      (f.served settings.plan around.answering course).filter (fun c => c.1 ≠ s.call) =
        (g.served settings.plan around.answering (course.filter (Happening.spares s))).map
          (renamed θ') := by
  induction course generalizing f g θ with
  | nil => exact ⟨θ, fun _ _ => rfl, h.injective, rfl⟩
  | cons happening course ih =>
    have hrest : ∀ h ∈ course, h.Respects view := fun h' hm => hc h' (List.mem_cons_of_mem _ hm)
    have hnext := undergo_settled settings.plan around.answering hf happening
    cases happening with
    | change turn =>
      have hturn : (Happening.change turn).Respects view := hc _ List.mem_cons_self
      obtain ⟨hfmade, hview⟩ := hturn f.around g.around
      obtain ⟨hgmade, -⟩ := hturn g.around f.around
      obtain ⟨θ', hsame, hinj, heq⟩ := ih hrest hnext (h.moved hfmade hgmade (hview h.view))
      refine ⟨θ', fun p hp => hsame p (Nat.lt_of_lt_of_eq hp hgmade.symm), hinj, ?_⟩
      rwa [served_cons_change, List.filter_cons_of_pos rfl, served_cons_change]
    | call call =>
      by_cases hcall : call = s.call
      · -- only one of the two makes this call, and all that the other sees of it is later numbers
        subst hcall
        obtain ⟨hmade, hview⟩ := perform_view steady settings hf s.call
        obtain ⟨θ₁, hold, hdelayed⟩ := h.delay (perform_self_without hf) hmade hview
        obtain ⟨θ', hsame, hinj, heq⟩ := ih hrest hnext hdelayed
        refine ⟨θ', fun p hp => (hsame p hp).trans (hold p hp), hinj, ?_⟩
        rwa [served_cons_call, List.filter_cons_of_neg (by simp),
          List.filter_cons_of_neg (by simp [Happening.spares])]
      · have hecho := h.echo steady settings call
        rw [perform_without hf hs hcall] at hecho
        obtain ⟨θ', hsame, hinj, heq⟩ := ih hrest hnext hecho.mirrors
        refine ⟨θ', fun p hp => hsame p (Nat.lt_of_lt_of_le hp hecho.later), hinj, ?_⟩
        rw [served_cons_call, List.filter_cons_of_pos (by simpa using hcall),
          List.filter_cons_of_pos (by simpa [Happening.spares] using hcall), served_cons_call,
          List.map_cons]
        exact congrArg₂ List.cons (congrArg (Prod.mk call) (hecho.outcome_eq hsame)) heq

/-- Names that are given in two ways can be translated, as far as some instances are concerned. -/
theorem exists_translation {θ₁ θ₂ : Instance → Instance} (h₁ : Function.Injective θ₁)
    (h₂ : Function.Injective θ₂) (ps : List Instance) :
    ∃ θ : Instance → Instance, Function.Injective θ ∧ ∀ p ∈ ps, θ (θ₂ p) = θ₁ p := by
  -- all other names are moved out of the way
  let bound := (ps.map fun p => (θ₁ p).number).sum
  have hbound : ∀ p ∈ ps, (θ₁ p).number ≤ bound :=
    fun p hp => List.le_sum_of_mem (List.mem_map_of_mem hp)
  let θ : Instance → Instance := fun q =>
    match ps.find? fun p => θ₂ p = q with
    | some p => θ₁ p
    | none => ⟨bound + 1 + q.number⟩
  have hknown : ∀ {p q}, ps.find? (fun p => θ₂ p = q) = some p → θ₂ p = q ∧ (θ₁ p).number ≤ bound := by
    intro p q h
    exact ⟨by simpa using List.find?_some h, hbound p (List.mem_of_find?_eq_some h)⟩
  refine ⟨θ, ?_, ?_⟩
  · intro q q' heq
    simp only [θ] at heq
    cases hq : ps.find? (fun p => θ₂ p = q) with
    | some p =>
      obtain ⟨rfl, hp⟩ := hknown hq
      cases hq' : ps.find? (fun p => θ₂ p = q') with
      | some p' =>
        obtain ⟨rfl, -⟩ := hknown hq'
        simp only [hq, hq'] at heq
        rw [h₁ heq]
      | none =>
        simp only [hq, hq'] at heq
        simp only [heq] at hp
        omega
    | none =>
      cases hq' : ps.find? (fun p => θ₂ p = q') with
      | some p' =>
        obtain ⟨rfl, hp⟩ := hknown hq'
        simp only [hq, hq'] at heq
        simp only [← heq] at hp
        omega
      | none =>
        simp only [hq, hq', Instance.mk.injEq] at heq
        exact congrArg Instance.mk (Nat.add_left_cancel heq)
  · intro p hp
    obtain ⟨p', hfound⟩ : ∃ p', ps.find? (fun p' => θ₂ p' = θ₂ p) = some p' :=
      Option.isSome_iff_exists.mp (List.find?_isSome.mpr ⟨p, hp, by simp⟩)
    simp only [θ, hfound]
    rw [h₂ (hknown hfound).1]

/-- Two courses that differ only in calls about one cell are the same for all other calls. -/
theorem served_of_filter_eq (steady : around.Steady view b) (settings : Settings)
    (hs : s ≠ .document) {course course' : List (Happening (Numbered σ))}
    (hc : ∀ h ∈ course, h.Respects view) (hc' : ∀ h ∈ course', h.Respects view)
    (heq : course.filter (Happening.spares s) = course'.filter (Happening.spares s)) (state : σ) :
    let begin : Factory (Numbered σ) := fresh ⟨0, state⟩
    ∃ θ : Instance → Instance, Function.Injective θ ∧
      (begin.served settings.plan around.answering course).filter (fun c => c.1 ≠ s.call) =
        ((begin.served settings.plan around.answering course').filter
          (fun c => c.1 ≠ s.call)).map (renamed θ) := by
  intro begin
  have hbegin : Mirrors view id (begin.without s) begin := by
    have hsame : begin.without s = begin := by cases s <;> rfl
    rw [hsame]
    exact mirrors_fresh view state
  obtain ⟨θ₁, -, hinj₁, heq₁⟩ := hbegin.spared steady settings hs hc (fresh_settled _)
  obtain ⟨θ₂, -, hinj₂, heq₂⟩ := hbegin.spared steady settings hs hc' (fresh_settled _)
  rw [heq₁, heq₂, heq]
  generalize begin.served settings.plan around.answering (course'.filter (Happening.spares s)) = calls
  obtain ⟨θ, hinj, hθ⟩ := exists_translation hinj₁ hinj₂ (calls.flatMap fun c => c.2.instances)
  refine ⟨θ, hinj, ?_⟩
  rw [List.map_map]
  refine List.map_congr_left fun c hcalls => ?_
  rw [Function.comp_apply, renamed_renamed]
  exact renamed_congr fun p hp => (hθ p (List.mem_flatMap.mpr ⟨c, hcalls, hp⟩)).symm

end Factory

/-! ## Calls that change places -/

def countedFrom (m : Nat) (p : Instance) : Instance :=
  ⟨m + p.number⟩

/-- Numbers of which the `j` from `m` on have changed places with the `k` after those. -/
def swapBlocks (m j k : Nat) (p : Instance) : Instance :=
  if p.number < m then p
  else if p.number < m + j then ⟨p.number + k⟩
  else if p.number < m + j + k then ⟨p.number - j⟩
  else p

section Blocks

variable {m j k : Nat} {p : Instance}

theorem swapBlocks_of_lt (h : p.number < m) : swapBlocks m j k p = p := if_pos h

theorem swapBlocks_number (m j k : Nat) (p : Instance) :
    (swapBlocks m j k p).number =
      if p.number < m then p.number
      else if p.number < m + j then p.number + k
      else if p.number < m + j + k then p.number - j
      else p.number := by
  simp only [swapBlocks]
  split_ifs <;> rfl

theorem swapBlocks_first (h : p.number < j) :
    swapBlocks m j k (countedFrom m p) = countedFrom (m + k) p := by
  have hstart : ¬ m + p.number < m := by omega
  have hfirst : m + p.number < m + j := by omega
  have hnumber : (swapBlocks m j k (countedFrom m p)).number = m + k + p.number := by
    rw [swapBlocks_number, countedFrom, if_neg hstart, if_pos hfirst]
    dsimp only
    omega
  exact congrArg Instance.mk hnumber

theorem swapBlocks_second (h : p.number < k) :
    swapBlocks m j k (countedFrom (m + j) p) = countedFrom m p := by
  have hstart : ¬ m + j + p.number < m := by omega
  have hfirst : ¬ m + j + p.number < m + j := by omega
  have hsecond : m + j + p.number < m + j + k := by omega
  have hnumber : (swapBlocks m j k (countedFrom (m + j) p)).number = m + p.number := by
    rw [swapBlocks_number, countedFrom, if_neg hstart, if_neg hfirst, if_pos hsecond]
    dsimp only
    omega
  exact congrArg Instance.mk hnumber

theorem swapBlocks_injective (m j k : Nat) : Function.Injective (swapBlocks m j k) := by
  intro p q h
  have hnumber := congrArg Instance.number h
  rw [swapBlocks_number, swapBlocks_number] at hnumber
  have hsame : p.number = q.number := by
    split_ifs at hnumber <;> omega
  exact congrArg Instance.mk hsame

theorem swapBlocks_shifts (m j k : Nat) : Shifts (swapBlocks m j k) (m + j + k) (m + k + j) := by
  intro i
  have hnumber : (swapBlocks m j k ⟨m + j + k + i⟩).number = m + k + j + i := by
    rw [swapBlocks_number, if_neg (by simp; omega), if_neg (by simp; omega), if_neg (by simp)]
    dsimp only
    omega
  exact congrArg Instance.mk hnumber

theorem swapBlocks_bounded (h : p.number < m + j + k) :
    (swapBlocks m j k p).number < m + k + j := by
  rw [swapBlocks_number]
  split_ifs <;> omega

end Blocks

theorem Slot.instances_rename (s : Slot) (θ : Instance → Instance) (a : s.Content) :
    s.instances (s.rename θ a) = (s.instances a).map θ := by
  cases s <;> rfl

theorem Slot.map_reply_rename (s : Slot) (θ : Instance → Instance)
    (o : Except FactoryError s.Content) :
    (o.map (s.rename θ)).map s.reply = (o.map s.reply).map (Reply.rename θ) := by
  cases o with
  | error e => rfl
  | ok a => exact congrArg Except.ok (s.reply_rename a)

theorem Slot.rename_rename (s : Slot) (θ θ' : Instance → Instance) (a : s.Content) :
    s.rename θ (s.rename θ' a) = s.rename (θ ∘ θ') a := by
  cases s <;> simp [Slot.rename]

/-- What an attempt yields that starts from a number, and that then gets other names. -/
theorem map_countedFrom {s : Slot} {x : Except FactoryError s.Content} {j m m' : Nat}
    (hbelow : ∀ a, x = .ok a → ∀ p ∈ s.instances a, p.number < j)
    (hθ : ∀ p : Instance, p.number < j → θ (countedFrom m p) = countedFrom m' p) :
    (x.map (s.rename (countedFrom m))).map (s.rename θ) = x.map (s.rename (countedFrom m')) := by
  cases x with
  | error e => rfl
  | ok a =>
    refine congrArg Except.ok ?_
    rw [Slot.rename_rename]
    exact s.rename_congr fun p hp => hθ p (hbelow a rfl p hp)

theorem lt_of_mem_countedFrom {s : Slot} {x : Except FactoryError s.Content} {j m : Nat}
    (hbelow : ∀ a, x = .ok a → ∀ p ∈ s.instances a, p.number < j) {a : s.Content}
    (ha : x.map (s.rename (countedFrom m)) = .ok a) {p : Instance} (hp : p ∈ s.instances a) :
    p.number < m + j := by
  cases x with
  | error e => cases ha
  | ok a' =>
    cases ha
    rw [Slot.instances_rename] at hp
    obtain ⟨q, hq, rfl⟩ := List.mem_map.mp hp
    exact Nat.add_lt_add_left (hbelow a' rfl q hq) m

theorem Cells.get_settle_map (c c' : Cells) (s : Slot) (o : Except FactoryError s.Content)
    (φ : s.Content → s.Content) :
    (c.settle s (o.map φ)).get s = ((c'.settle s o).get s).map φ := by
  cases o <;> simp [Except.map, Cell.map]

theorem Cells.eq_ok_of_get_settle {c : Cells} {s : Slot} {o : Except FactoryError s.Content}
    {a : s.Content} (h : (c.settle s o).get s = .full a) : o = .ok a := by
  cases o with
  | error e => simp at h
  | ok a' => simpa using h

/-- What comes of an attempt depends on the number that it starts from only by counting from there. -/
theorem Outlook.exists_attempt_eq (o : Outlook) (b : Behaviour) (s : Slot)
    (d : Option ProvidersDocument) :
    ∃ (x : Except FactoryError s.Content) (j : Nat),
      (∀ a, x = .ok a → ∀ p ∈ s.instances a, p.number < j) ∧
        ∀ m, o.attempt b s d m = (x.map (s.rename (countedFrom m)), m + j) := by
  have hshifts : ∀ m, Shifts (countedFrom m) 0 m := by
    intro m i
    rw [countedFrom, Nat.zero_add]
  refine ⟨(o.attempt b s d 0).1, (o.attempt b s d 0).2, ?_, fun m => ?_⟩
  · obtain ⟨j, hj, -, hbelow⟩ := attempt_shifted (hshifts 0) o b s d
    rw [hj]
    exact hbelow
  · obtain ⟨j, hj, heq, -⟩ := attempt_shifted (hshifts m) o b s d
    rw [hj, Nat.zero_add]
    exact heq

namespace Factory

variable {around : Surroundings σ} {view : σ → ν} {b : Behaviour} {f g : Factory (Numbered σ)}
  {s s' : Slot}

theorem perform_of_full_of_ne {I : Interface} {τ : Type} {plan : Plan I} {answering : Answering I τ}
    {f : Factory τ} (hs : s ≠ .document) {a : s.Content} (h : f.cells.get s = .full a) :
    f.perform plan answering s.call = (.ok (s.reply a), f) := by
  rw [perform_of_full h]
  cases s with
  | document => exact (hs rfl).elim
  | persistence | hooks => rfl

theorem perform_foretold (steady : around.Steady view b) (settings : Settings)
    (h : f.cells.get s = .empty) :
    let x := (around.outlook settings f.around.state).attempt b s f.cells.document.content?
      f.around.made
    ∃ n, f.perform settings.plan around.answering s.call =
        (x.1.map s.reply, ⟨f.cells.settle s x.1, n⟩) ∧
      n.made = x.2 ∧ view n.state = view f.around.state := by
  intro x
  obtain ⟨hrun, hmade, hview⟩ := settings.fill_foretold steady s f.cells.document.content? f.around
  rw [perform_of_empty h, fill]
  rcases hx : (settings.plan.fill s f.cells.document.content?).run around.answering f.around
    with ⟨o, n⟩
  rw [hx] at hrun hmade hview
  simp only at hrun
  exact ⟨n, by rw [hrun], hmade, hview⟩

theorem perform_two_foretold (steady : around.Steady view b) (settings : Settings) {m j k : Nat}
    (hm : f.around.made = m) (hs : s ≠ .document) (hne : s' ≠ s) (h : f.cells.get s = .empty)
    (h' : f.cells.get s' = .empty) {x : Except FactoryError s.Content}
    {y : Except FactoryError s'.Content}
    (hx : ∀ m, (around.outlook settings f.around.state).attempt b s f.cells.document.content? m =
      (x.map (s.rename (countedFrom m)), m + j))
    (hy : ∀ m, (around.outlook settings f.around.state).attempt b s' f.cells.document.content? m =
      (y.map (s'.rename (countedFrom m)), m + k)) :
    let x₁ := x.map (s.rename (countedFrom m))
    let y₁ := y.map (s'.rename (countedFrom (m + j)))
    ∃ f₁ n, f.perform settings.plan around.answering s.call = (x₁.map s.reply, f₁) ∧
      f₁.perform settings.plan around.answering s'.call =
        (y₁.map s'.reply, ⟨(f.cells.settle s x₁).settle s' y₁, n⟩) ∧
      n.made = m + j + k ∧ view n.state = view f.around.state := by
  intro x₁ y₁
  obtain ⟨n₁, hfirst, hmade₁, hview₁⟩ := perform_foretold steady settings h
  rw [hm, hx] at hfirst hmade₁
  have hempty : (f.cells.settle s x₁).get s' = .empty := by
    rw [Cells.get_settle_of_ne _ _ hne, h']
  have hdoc : (f.cells.settle s x₁).document = f.cells.document :=
    Cells.get_settle_of_ne f.cells x₁ hs.symm
  obtain ⟨n₂, hsecond, hmade₂, hview₂⟩ :=
    perform_foretold (f := ⟨f.cells.settle s x₁, n₁⟩) steady settings hempty
  simp only [hdoc, steady.outlook_eq settings hview₁, hmade₁, hy] at hsecond hmade₂
  exact ⟨_, n₂, hfirst, hsecond, hmade₂, hview₂.trans hview₁⟩

/-- Whether one attempt is made before another or after it, the cells are left with the same in them but
for the numbers. -/
theorem Mirrors.settle_swapped (h : Mirrors view id f f) {m j k : Nat} (hm : f.around.made = m)
    (hne : s' ≠ s) {x : Except FactoryError s.Content} {y : Except FactoryError s'.Content}
    (hx : ∀ a, x = .ok a → ∀ p ∈ s.instances a, p.number < j)
    (hy : ∀ a, y = .ok a → ∀ p ∈ s'.instances a, p.number < k) {n n' : Numbered σ}
    (hn : n.made = m + j + k) (hn' : n'.made = m + k + j) (hview : view n'.state = view n.state) :
    Mirrors view (swapBlocks m j k)
      ⟨(f.cells.settle s' (y.map (s'.rename (countedFrom m)))).settle s
        (x.map (s.rename (countedFrom (m + k)))), n'⟩
      ⟨(f.cells.settle s (x.map (s.rename (countedFrom m)))).settle s'
        (y.map (s'.rename (countedFrom (m + j)))), n⟩ where
  settled := (h.settled.settle s _).settle s' _
  cells slot := by
    dsimp only
    -- one of the two cells that are filled, the other, or one whose instances are older than both
    by_cases hs : slot = s
    · subst hs
      rw [Cells.get_settle_of_ne _ _ hne.symm,
        ← map_countedFrom hx (θ := swapBlocks m j k) (m := m) fun p => swapBlocks_first]
      exact Cells.get_settle_map _ _ slot _ _
    · by_cases hs' : slot = s'
      · subst hs'
        rw [Cells.get_settle_of_ne _ _ hne,
          ← map_countedFrom hy (θ := swapBlocks m j k) (m := m + j) fun p => swapBlocks_second]
        exact Cells.get_settle_map _ _ slot _ _
      · rw [Cells.get_settle_of_ne _ _ hs, Cells.get_settle_of_ne _ _ hs',
          Cells.get_settle_of_ne _ _ hs', Cells.get_settle_of_ne _ _ hs]
        cases hc : f.cells.get slot with
        | empty | claimed => rfl
        | full a =>
          refine congrArg Cell.full ?_
          have hid : slot.rename id a = a := by cases slot <;> simp [Slot.rename]
          rw [← slot.rename_congr fun p hp => (swapBlocks_of_lt (hm ▸ h.below slot hc hp)).symm]
          exact hid.symm
  below slot a ha p hp := by
    dsimp only at ha ⊢
    rw [hn]
    by_cases hs' : slot = s'
    · subst hs'
      exact lt_of_mem_countedFrom hy (Cells.eq_ok_of_get_settle ha) hp
    · rw [Cells.get_settle_of_ne _ _ hs'] at ha
      by_cases hs : slot = s
      · subst hs
        exact Nat.lt_add_right k (lt_of_mem_countedFrom hx (Cells.eq_ok_of_get_settle ha) hp)
      · rw [Cells.get_settle_of_ne _ _ hs] at ha
        have hold := h.below slot ha hp
        omega
  shifts := by
    dsimp only
    rw [hn, hn']
    exact swapBlocks_shifts m j k
  bounded := by
    intro p hp
    dsimp only at hp ⊢
    rw [hn] at hp
    rw [hn']
    exact swapBlocks_bounded hp
  injective := swapBlocks_injective m j k
  view := hview

/-- Two factories that have the same under other names go through a course with the same results. -/
theorem Mirrors.along (steady : around.Steady view b) (settings : Settings)
    {course : List (Happening (Numbered σ))} (hc : ∀ h ∈ course, h.Respects view)
    (h : Mirrors view θ f g) :
    Mirrors view θ (f.after settings.plan around.answering course)
        (g.after settings.plan around.answering course) ∧
      f.served settings.plan around.answering course =
        (g.served settings.plan around.answering course).map (renamed θ) ∧
      g.around.made ≤ (g.after settings.plan around.answering course).around.made ∧
      ∀ c ∈ g.served settings.plan around.answering course, ∀ p ∈ c.2.instances,
        p.number < (g.after settings.plan around.answering course).around.made := by
  induction course generalizing f g with
  | nil => exact ⟨h, rfl, Nat.le_refl _, nofun⟩
  | cons happening course ih =>
    have hrest : ∀ h ∈ course, h.Respects view := fun h' hm => hc h' (List.mem_cons_of_mem _ hm)
    cases happening with
    | change turn =>
      have hturn : (Happening.change turn).Respects view := hc _ List.mem_cons_self
      obtain ⟨hfmade, hview⟩ := hturn f.around g.around
      obtain ⟨hgmade, -⟩ := hturn g.around f.around
      obtain ⟨hafter, heq, hmade, hbelow⟩ := ih hrest (h.moved hfmade hgmade (hview h.view))
      exact ⟨hafter, heq, Nat.le_trans (Nat.le_of_eq hgmade.symm) hmade, hbelow⟩
    | call call =>
      have hecho := h.echo steady settings call
      obtain ⟨hafter, heq, hmade, hbelow⟩ := ih hrest hecho.mirrors
      refine ⟨hafter, ?_, Nat.le_trans hecho.later hmade, ?_⟩
      · rw [served_cons_call, served_cons_call, List.map_cons, heq, hecho.outcome]
        rfl
      · rw [served_cons_call]
        refine List.forall_mem_cons.mpr ⟨fun p hp => ?_, hbelow⟩
        cases hr : (g.perform settings.plan around.answering call).1 with
        | error e => simp [hr, Outcome.instances] at hp
        | ok reply =>
          simp only [hr, Outcome.instances] at hp
          exact Nat.lt_of_lt_of_le (hecho.below hr hp) hmade

/-- A call that finds its cell full returns the same and changes nothing, now and after another call. -/
theorem perform_of_full_later {I : Interface} {τ : Type} (plan : Plan I)
    (answering : Answering I τ) {f : Factory τ} (hf : f.cells.Settled) (hs : s ≠ .document)
    {a : s.Content} (h : f.cells.get s = .full a) {call : Call} (hc : call ≠ s.call) :
    let f' := (f.perform plan answering call).2
    f.perform plan answering s.call = (.ok (s.reply a), f) ∧
      f'.perform plan answering s.call = (.ok (s.reply a), f') := by
  intro f'
  have hkept : f'.cells.get s = .full a := ((perform_spec plan answering hf call).get_of_ne hc).trans h
  exact ⟨perform_of_full_of_ne hs h, perform_of_full_of_ne hs hkept⟩

theorem map_rename_id (o : Outcome) : o.map (Reply.rename id) = o := by
  cases o with
  | error e => rfl
  | ok reply => exact congrArg Except.ok reply.rename_id

theorem Mirrors.swap (steady : around.Steady view b) (settings : Settings)
    (h : Mirrors view id f f) (hs : s ≠ .document) (hs' : s' ≠ .document) (hne : s' ≠ s) :
    let x := f.perform settings.plan around.answering s.call
    let y := x.2.perform settings.plan around.answering s'.call
    let y' := f.perform settings.plan around.answering s'.call
    let x' := y'.2.perform settings.plan around.answering s.call
    ∃ θ : Instance → Instance, (∀ p, p.number < f.around.made → θ p = p) ∧
      x'.1 = x.1.map (Reply.rename θ) ∧ y'.1 = y.1.map (Reply.rename θ) ∧
      Mirrors view θ x'.2 y.2 := by
  intro x y y' x'
  -- a call that finds its cell full makes nothing, so only two attempts need other names
  cases hc : f.cells.get s with
  | claimed => exact (h.settled s hc).elim
  | full a =>
    obtain ⟨hnow, hthen⟩ := perform_of_full_later settings.plan around.answering h.settled hs hc
      (Slot.call_injective.ne hne)
    have hx : x = (.ok (s.reply a), f) := hnow
    have hx' : x' = (.ok (s.reply a), y'.2) := hthen
    have hy : y = y' := by simp only [y, hx, y']
    refine ⟨id, fun _ _ => rfl, ?_, ?_, ?_⟩
    · rw [hx, hx', map_rename_id]
    · rw [hy, map_rename_id]
    · rw [hx', hy]
      exact (h.echo steady settings s'.call).mirrors
  | empty =>
    cases hc' : f.cells.get s' with
    | claimed => exact (h.settled s' hc').elim
    | full a' =>
      obtain ⟨hnow, hthen⟩ := perform_of_full_later settings.plan around.answering h.settled hs' hc'
        (Slot.call_injective.ne hne.symm)
      have hy' : y' = (.ok (s'.reply a'), f) := hnow
      have hy : y = (.ok (s'.reply a'), x.2) := hthen
      have hx' : x' = x := by simp only [x', hy', x]
      refine ⟨id, fun _ _ => rfl, ?_, ?_, ?_⟩
      · rw [hx', map_rename_id]
      · rw [hy, hy', map_rename_id]
      · rw [hx', hy]
        exact (h.echo steady settings s.call).mirrors
    | empty =>
      obtain ⟨o, j, ho, hattempt⟩ := (around.outlook settings f.around.state).exists_attempt_eq b s
        f.cells.document.content?
      obtain ⟨o', k, ho', hattempt'⟩ := (around.outlook settings f.around.state).exists_attempt_eq b s'
        f.cells.document.content?
      obtain ⟨f₁, n, hx, hy, hn, hview⟩ :=
        perform_two_foretold steady settings rfl hs hne hc hc' hattempt hattempt'
      obtain ⟨f₂, n', hy', hx', hn', hview'⟩ :=
        perform_two_foretold steady settings rfl hs' hne.symm hc' hc hattempt' hattempt
      have hx₁ : x = _ := hx
      have hy₁ : y = _ := (congrArg (fun z => z.2.perform settings.plan around.answering s'.call)
        hx₁).trans hy
      have hy₂ : y' = _ := hy'
      have hx₂ : x' = _ := (congrArg (fun z => z.2.perform settings.plan around.answering s.call)
        hy₂).trans hx'
      have hswap := h.settle_swapped rfl hne ho ho' hn hn' (hview'.trans hview.symm)
      refine ⟨swapBlocks f.around.made j k, fun p => swapBlocks_of_lt, ?_, ?_, ?_⟩
      · rw [hx₁, hx₂, ← s.map_reply_rename, map_countedFrom ho fun p => swapBlocks_first]
      · rw [hy₁, hy₂, ← s'.map_reply_rename, map_countedFrom ho' fun p => swapBlocks_second]
      · rw [hx₂, hy₁]
        exact hswap

/-- Two neighbouring calls about different cells can change places in a course. -/
theorem Mirrors.served_swapped (steady : around.Steady view b) (settings : Settings)
    (h : Mirrors view id f f) (hs : s ≠ .document) (hs' : s' ≠ .document) (hne : s' ≠ s)
    {later : List (Happening (Numbered σ))} (hc : ∀ h ∈ later, h.Respects view) :
    ∃ θ : Instance → Instance, Function.Injective θ ∧ (∀ p, p.number < f.around.made → θ p = p) ∧
      ∃ u v after, u.1 = s.call ∧ v.1 = s'.call ∧
        f.served settings.plan around.answering (.call s.call :: .call s'.call :: later) =
          u :: v :: after ∧
        f.served settings.plan around.answering (.call s'.call :: .call s.call :: later) =
          renamed θ v :: renamed θ u :: after.map (renamed θ) := by
  obtain ⟨θ, hold, hfirst, hsecond, hmirrors⟩ := h.swap steady settings hs hs' hne
  obtain ⟨-, hlater, -, -⟩ := hmirrors.along steady settings hc
  refine ⟨θ, hmirrors.injective, hold, (s.call, _), (s'.call, _), _, rfl, rfl, rfl, ?_⟩
  rw [served_cons_call, served_cons_call, hsecond, hfirst, hlater]
  rfl

/-- Calls about one cell do not matter to calls about others: they change nothing there, they can be left
out or put in, and two such calls in a row can come in either order. -/
theorem roles_independent (settings : Settings) :
    (∀ {τ : Type} (answering : Answering Question.interface τ) (s : τ)
        (course : List (Happening τ)) (slot other : Slot), other ≠ slot →
      let f := (fresh s).after settings.plan answering course
      (f.perform settings.plan answering slot.call).2.cells.get other = f.cells.get other) ∧
    ∀ {σ ν : Type} {around : Surroundings σ} {view : σ → ν} {b : Behaviour},
      around.Steady view b → ∀ s : σ,
      let plan := settings.plan
      let answering := around.answering
      let begin : Factory (Numbered σ) := fresh ⟨0, s⟩
      (∀ (slot : Slot) (course course' : List (Happening (Numbered σ))), slot ≠ .document →
        (∀ h ∈ course, h.Respects view) → (∀ h ∈ course', h.Respects view) →
        course.filter (Happening.spares slot) = course'.filter (Happening.spares slot) →
        ∃ θ : Instance → Instance, Function.Injective θ ∧
          (begin.served plan answering course).filter (fun c => c.1 ≠ slot.call) =
            ((begin.served plan answering course').filter
              (fun c => c.1 ≠ slot.call)).map (renamed θ)) ∧
      ∀ (slot slot' : Slot) (past later : List (Happening (Numbered σ))),
        slot ≠ .document → slot' ≠ .document → slot' ≠ slot →
        (∀ h ∈ past ++ later, h.Respects view) →
        ∃ θ : Instance → Instance, Function.Injective θ ∧
          ∃ u v after, u.1 = slot.call ∧ v.1 = slot'.call ∧
            begin.served plan answering (past ++ .call slot.call :: .call slot'.call :: later) =
              begin.served plan answering past ++ u :: v :: after ∧
            begin.served plan answering (past ++ .call slot'.call :: .call slot.call :: later) =
              (begin.served plan answering past ++ v :: u :: after).map (renamed θ) := by
  refine ⟨?_, ?_⟩
  · intro τ answering s course slot other hne f
    have hsettled := after_settled settings.plan answering (fresh_settled s) course
    exact (perform_spec settings.plan answering hsettled slot.call).get_of_ne
      (Slot.call_injective.ne hne.symm)
  · intro σ ν around view b steady s plan answering begin
    refine ⟨?_, ?_⟩
    · intro slot course course' hs hc hc' heq
      exact served_of_filter_eq steady settings hs hc hc' heq s
    · intro slot slot' past later hs hs' hne hc
      obtain ⟨hmirrors, -, -, hbelow⟩ := (mirrors_fresh view s).along steady settings
        fun h hm => hc h (List.mem_append_left later hm)
      obtain ⟨θ, hinj, hold, u, v, after, hu, hv, hserved, hswapped⟩ :=
        hmirrors.served_swapped steady settings hs hs' hne
          fun h hm => hc h (List.mem_append_right past hm)
      refine ⟨θ, hinj, u, v, after, hu, hv, ?_, ?_⟩
      · rw [served_append, hserved]
      -- what was handed out before the two calls keeps its names
      · have hpast : (begin.served plan answering past).map (renamed θ) =
            begin.served plan answering past := by
          refine (List.map_congr_left fun c hm => ?_).trans (List.map_id _)
          exact (renamed_congr fun p hp => hold p (hbelow c hm p hp)).trans (renamed_id c)
        rw [served_append, hswapped, List.map_append, hpast]
        rfl

end Factory

/-! ## In a deployment -/

namespace Deployment

theorem register_respects (e : Extension) :
    Happening.Respects (fun d : Deployment => (d.store, d.source, d.registry))
      (.change fun n => { n with state := n.state.register e }) := by
  intro n m
  refine ⟨rfl, fun hview => ?_⟩
  simp only [Prod.mk.injEq] at hview
  simp only [register, note, hview]

theorem write_respects (path : Path) (content : List UInt8) :
    Happening.Respects (fun d : Deployment => (d.store, d.source, d.registry))
      (.change fun n => { n with state := { n.state with
        store.files := n.state.store.files.write path content } }) := by
  intro n m
  refine ⟨rfl, fun hview => ?_⟩
  simp only [Prod.mk.injEq] at hview
  simp only [hview]

end Deployment

/-- A course in which the keeper refuses its configuration until it is replaced, the document is emptied
after it was loaded, and the second of two hooks is registered after the first attempt. -/
def troubledCourse : List (Happening (Numbered Deployment)) :=
  let late : Extension := ⟨"late", "", .listener⟩
  let keep : Extension := ⟨"keep", "", .keeper false⟩
  let file := Path.ofString "conf/providers.toml"
  [.call .start, .call .persistenceProvider, .call .hookProviders,
    .change fun n => { n with state := { n.state with store.files := n.state.store.files.write file [] } },
    .change fun n => { n with state := n.state.register late }, .call .hookProviders,
    .change fun n => { n with state := n.state.register keep }, .call .persistenceProvider]

theorem Factory.roles_independent_troubled :
    let d : ProvidersDocument := ⟨some ⟨"keep", []⟩, [⟨"early", []⟩, ⟨"late", []⟩]⟩
    let registry := (Registry.register {} ⟨"early", "", .listener⟩).register
      ⟨"keep", "", .keeper true⟩
    let begin : Factory (Numbered Deployment) :=
      fresh ⟨0, { source := .fixed d, registry := registry }⟩
    let plan := Settings.plan {}
    let answering := Deployment.surroundings.answering
    let hooksOnly := troubledCourse.filter (Happening.spares .persistence)
    let swapped := .call .start :: .call .hookProviders :: .call .persistenceProvider ::
      troubledCourse.drop 3
    let refusal := FactoryError.creation .persistence "keep"
      (.configurationRejected (.invalidProperty "dir" "" "rejected by stub"))
    let missing := FactoryError.creation .hook "late" .extensionNotFound
    begin.served plan answering troubledCourse =
        [(.start, .ok .done), (.persistenceProvider, .error refusal),
          (.hookProviders, .error missing), (.hookProviders, .ok (.providers [⟨2⟩, ⟨3⟩])),
          (.persistenceProvider, .ok (.provider ⟨4⟩))] ∧
      begin.served plan answering hooksOnly =
        [(.start, .ok .done), (.hookProviders, .error missing),
          (.hookProviders, .ok (.providers [⟨1⟩, ⟨2⟩]))] ∧
      ((begin.after plan answering (troubledCourse.take 6)).perform plan answering
        Slot.persistence.call).2.cells.get .hooks = .full [⟨2⟩, ⟨3⟩] ∧
      (∃ θ : Instance → Instance, Function.Injective θ ∧
        (begin.served plan answering troubledCourse).filter (fun c => c.1 ≠ .persistenceProvider) =
          ((begin.served plan answering hooksOnly).filter
            (fun c => c.1 ≠ .persistenceProvider)).map (renamed θ)) ∧
      ∃ θ : Instance → Instance, Function.Injective θ ∧ ∃ u v after,
        begin.served plan answering troubledCourse = (.start, .ok .done) :: u :: v :: after ∧
          begin.served plan answering swapped =
            ((.start, .ok .done) :: v :: u :: after).map (renamed θ) := by
  intro d registry begin plan answering hooksOnly swapped refusal missing
  have hcourse : ∀ h ∈ troubledCourse,
      h.Respects fun d : Deployment => (d.store, d.source, d.registry) := by
    intro h hm
    simp only [troubledCourse, List.mem_cons, List.not_mem_nil, or_false] at hm
    rcases hm with rfl | rfl | rfl | rfl | rfl | rfl | rfl | rfl
    · trivial
    · trivial
    · trivial
    · exact Deployment.write_respects _ []
    · exact Deployment.register_respects _
    · trivial
    · exact Deployment.register_respects _
    · trivial
  have hall : begin.served plan answering troubledCourse =
      [(.start, .ok .done), (.persistenceProvider, .error refusal),
        (.hookProviders, .error missing), (.hookProviders, .ok (.providers [⟨2⟩, ⟨3⟩])),
        (.persistenceProvider, .ok (.provider ⟨4⟩))] := by decide +kernel
  have hfew : begin.served plan answering hooksOnly =
      [(.start, .ok .done), (.hookProviders, .error missing),
        (.hookProviders, .ok (.providers [⟨1⟩, ⟨2⟩]))] := by decide +kernel
  have hstart : begin.served plan answering [.call .start] = [(.start, .ok .done)] := by
    decide +kernel
  have hfull : (begin.after plan answering (troubledCourse.take 6)).cells.get .hooks =
      .full [⟨2⟩, ⟨3⟩] := by decide +kernel
  have hsplit : troubledCourse = [.call .start] ++ .call Slot.persistence.call ::
      .call Slot.hooks.call :: troubledCourse.drop 3 := rfl
  obtain ⟨hcells, hsteady⟩ := roles_independent {}
  obtain ⟨hspared, hswap⟩ := hsteady Deployment.steady { source := .fixed d, registry := registry }
  have hkept : ∀ course (slot other : Slot), other ≠ slot →
      ((begin.after plan answering course).perform plan answering slot.call).2.cells.get other =
        (begin.after plan answering course).cells.get other :=
    fun course slot other => hcells answering _ course slot other
  have hhooks := hkept (troubledCourse.take 6) .persistence .hooks (by decide)
  have hfewer := hspared .persistence troubledCourse hooksOnly (by decide) hcourse
    (fun h hm => hcourse h (List.mem_of_mem_filter hm)) (by simp [hooksOnly])
  have hpast : ∀ h ∈ [.call .start] ++ troubledCourse.drop 3,
      h.Respects fun d : Deployment => (d.store, d.source, d.registry) := by
    refine List.forall_mem_append.mpr ⟨fun h hm => ?_, fun h hm => hcourse h (List.mem_of_mem_drop hm)⟩
    rw [List.mem_singleton.mp hm]
    trivial
  obtain ⟨θ, hinj, u, v, after, -, -, hserved, hswapped⟩ :=
    hswap .persistence .hooks _ _ (by decide) (by decide) (by decide) hpast
  rw [hstart] at hserved hswapped
  rw [← hsplit] at hserved
  exact ⟨hall, hfew, hhooks.trans hfull, hfewer, θ, hinj, u, v, after, hserved, hswapped⟩

end Provisioning
