import Mathlib.Data.List.Nodup
import Provisioning.Proofs.Race.ComputeOnce

/-!
# Where providers come from

No two instances that a factory has asked for have the same number, and none is configured twice: it
is configured right after it was made, by the thread that has asked for it. A provider that a call hands
out was made and configured by an attempt that has filled its cell, for the entry of the document that
stands at the same place.
-/

namespace Provisioning

section Splits

variable {α β : Type} {f : α → Option β} {l xs ys zs xs' zs' : List α} {x y : α} {p : β}

theorem not_nodup_filterMap (hl : l = xs ++ x :: ys ++ y :: zs) (hx : f x = some p)
    (hy : f y = some p) : ¬ (l.filterMap f).Nodup := by
  intro hn
  subst hl
  simp only [List.filterMap_append, List.filterMap_cons, hx, hy, List.append_assoc,
    List.cons_append] at hn
  have hp := (List.nodup_cons.mp (List.nodup_append.mp hn).2.1).1
  simp at hp

theorem split_unique (hn : (l.filterMap f).Nodup) (h : l = xs ++ x :: zs) (h' : l = xs' ++ y :: zs')
    (hx : f x = some p) (hy : f y = some p) : xs = xs' ∧ x = y ∧ zs = zs' := by
  rcases List.append_eq_append_iff.mp (h.symm.trans h') with ⟨mid, hxs, hl⟩ | ⟨mid, hxs, hl⟩
  · cases mid with
    | nil => simp_all
    | cons x' mid =>
      obtain ⟨rfl, hz⟩ := List.cons.inj hl
      exact (not_nodup_filterMap (by rw [h', hxs]) hx hy hn).elim
  · cases mid with
    | nil => simp_all
    | cons y' mid =>
      obtain ⟨rfl, hz⟩ := List.cons.inj hl
      exact (not_nodup_filterMap (by rw [h, hxs]) hy hx hn).elim

theorem split_first_unique {P : α → Prop} (h : xs ++ x :: zs = xs' ++ y :: zs')
    (hxs : ∀ z ∈ xs, P z) (hxs' : ∀ z ∈ xs', P z) (hx : ¬ P x) (hy : ¬ P y) : x = y := by
  rcases List.append_eq_append_iff.mp h with ⟨mid, rfl, hl⟩ | ⟨mid, rfl, hl⟩
  · cases mid with
    | nil => exact (List.cons.inj hl).1
    | cons x' mid =>
      obtain ⟨rfl, -⟩ := List.cons.inj hl
      exact (hx (hxs' x (by simp))).elim
  · cases mid with
    | nil => exact (List.cons.inj hl).1.symm
    | cons y' mid =>
      obtain ⟨rfl, -⟩ := List.cons.inj hl
      exact (hy (hxs y (by simp))).elim

theorem nodup_filterMap_of_splits
    (h : ∀ xs x ys y zs p, l = xs ++ x :: ys ++ y :: zs → f x = some p → f y ≠ some p) :
    (l.filterMap f).Nodup := by
  induction l with
  | nil => simp
  | cons x l ih =>
    have hl : (l.filterMap f).Nodup := by
      apply ih
      intro xs y ys z zs p hs
      exact h (x :: xs) y ys z zs p (by rw [hs]; rfl)
    cases hx : f x with
    | none => rwa [List.filterMap_cons_none hx]
    | some p =>
      rw [List.filterMap_cons_some hx, List.nodup_cons]
      refine ⟨?_, hl⟩
      intro hp
      obtain ⟨y, hy, hyp⟩ := List.mem_filterMap.mp hp
      obtain ⟨ys, zs, rfl⟩ := List.append_of_mem hy
      exact h [] x ys y zs p rfl hx hyp

end Splits

def Mark.constructed? : Mark Question.interface → Option Instance
  | asked x => x.constructed?
  | _ => none

def Mark.configured? : Mark Question.interface → Option Instance
  | asked x => x.configured?
  | _ => none

namespace History

def constructed (h : History Question.interface) : List Instance :=
  h.filterMap fun m => m.2.constructed?

def configured (h : History Question.interface) : List Instance :=
  h.filterMap fun m => m.2.configured?

theorem constructed_append_map (h : History Question.interface) (marks : List (Mark _)) (i : Nat) :
    constructed (h ++ marks.map (i, ·)) = h.constructed ++ marks.filterMap Mark.constructed? := by
  simp [constructed, List.filterMap_map]

theorem own_constructed_sublist (h : History Question.interface) (i : Nat) :
    ((h.own i).filterMap Mark.constructed?).Sublist h.constructed := by
  rw [own, List.filterMap_map]
  exact (List.filter_sublist).filterMap _

/-- An attempt has made and configured a provider for an entry of the document, and has filled its cell
with that provider and the others. -/
inductive Provided (h : History Question.interface) (ps : List Instance) (k : Nat) (p : Instance) :
    Prop where
  | intro {past later : History Question.interface} {i : Nat} {before : List (Mark _)} {call : Call}
      {s : Slot} {a : s.Content} {doc : ProvidersDocument} {entry : ProviderEntry}
      {extension : Extension} {ys zs : List (Exchange Question.interface)}
      (filled : h = past ++ (i, .ended s (.ok a)) :: later)
      (content : s.instances a = ps)
      (complete : ps.length = (s.entries doc).length)
      (document : Holds past .document doc)
      (declared : (s.entries doc)[k]? = some entry)
      (role : extension.role = s.role)
      (own : own past i = before ++
        Mark.attempt call s (some doc) (ys ++ making s.role entry extension p ++ zs))

end History

theorem History.mem_filterMap_of_attempt {β : Type} {f : Mark Question.interface → Option β} {b : β}
    {h : History Question.interface} {i : Nat} {before : List (Mark _)} {call : Call} {s : Slot}
    {d : Option ProvidersDocument} {xs : List (Exchange _)} {x : Exchange _}
    (hown : h.own i = before ++ Mark.attempt call s d xs) (hx : x ∈ xs)
    (hb : f (.asked x) = some b) : b ∈ h.filterMap fun m => f m.2 := by
  have hmem : .asked x ∈ h.own i := by
    rw [hown]
    simp [Mark.attempt, hx]
  exact List.mem_filterMap.mpr ⟨_, mem_own.mp hmem, hb⟩

theorem History.Provided.mem {h : History Question.interface} {ps : List Instance} {k : Nat}
    {p : Instance} (hp : h.Provided ps k p) : p ∈ h.constructed ∧ p ∈ h.configured := by
  obtain @⟨past, later, _, _, _, _, _, _, entry, extension, _, _, rfl, -, -, -, -, -, hown⟩ := hp
  have hc : p ∈ constructed past :=
    mem_filterMap_of_attempt (f := Mark.constructed?) (x := ⟨.construct extension, .ok p⟩) hown
      (by simp [making]) rfl
  have hf : p ∈ configured past :=
    mem_filterMap_of_attempt (f := Mark.configured?)
      (x := ⟨.configure p (Context.ofProperties entry.properties), .ok ()⟩) hown
      (by simp [making]) rfl
  simp only [constructed, configured, List.filterMap_append]
  exact ⟨List.mem_append_left _ hc, List.mem_append_left _ hf⟩

/-- A step that asks something leaves one mark, and no other step changes the surroundings. -/
theorem Thread.Step.asks {I : Interface} {σ : Type} {plan : Plan I} {answering : Answering I σ}
    {f f' : Factory σ} {t t' : Thread I} {marks : List (Mark I)}
    (hs : Thread.Step plan answering f t marks t' f') :
    (f'.around = f.around ∧ ∀ x, .asked x ∉ marks) ∨
      ∃ q, f'.around = (answering q f.around).2 ∧ marks = [.asked ⟨q, (answering q f.around).1⟩] := by
  cases hs with
  | remark | ask => exact .inr ⟨_, rfl, rfl⟩
  | glance | wait | repeated | confirm | share | claim | look | settle =>
    exact .inl ⟨rfl, by simp⟩

namespace Race

section Numbers

variable {σ : Type} {plan : Plan Question.interface} {around : Surroundings σ} {n : Numbered σ}
  {lists : List (List Call)} {h : History Question.interface} {r : Race Question.interface (Numbered σ)}

/-- Changes after which the numbers that were used are still used. -/
def keepsNumbers (n n' : Numbered σ) : Prop :=
  n.made ≤ n'.made

theorem answering_made (around : Surroundings σ) (q : Question) (n : Numbered σ) :
    n.made ≤ (around.answering q n).2.made ∧
      ∀ p, Exchange.constructed? ⟨q, (around.answering q n).1⟩ = some p →
        p.number = n.made ∧ n.made < (around.answering q n).2.made := by
  cases q with
  | construct extension =>
    simp only [Surroundings.answering, Surroundings.make]
    split
    · refine ⟨Nat.le_succ _, ?_⟩
      intro p hp
      cases hp
      exact ⟨rfl, Nat.lt_succ_self _⟩
    · refine ⟨Nat.le_succ _, ?_⟩
      intro p hp
      cases hp
  | load | resolve | configure | note => exact ⟨Nat.le_refl _, nofun⟩

theorem Run.numbered
    (run : Run plan around.answering keepsNumbers (ofCalls n lists) h r) :
    h.constructed.Pairwise (fun p q => p.number < q.number) ∧
      ∀ p ∈ h.constructed, p.number < r.factory.around.made := by
  induction run using Run.steps with
  | start => exact ⟨.nil, nofun⟩
  | turn h f threads i t marks t' f' run next ih ht hs =>
    rw [History.constructed_append_map]
    rcases hs.asks with ⟨haround, hnone⟩ | ⟨q, haround, rfl⟩
    · have hmarks : marks.filterMap Mark.constructed? = [] := by
        rw [List.filterMap_eq_nil_iff]
        intro m hm
        cases m with
        | asked x => exact (hnone x hm).elim
        | _ => rfl
      rw [hmarks, List.append_nil, haround]
      exact ih
    · obtain ⟨hle, hnew⟩ := answering_made around q f.around
      rw [haround]
      cases hx : Mark.constructed? (.asked ⟨q, (around.answering q f.around).1⟩) with
      | none =>
        rw [List.filterMap_cons_none hx, List.filterMap_nil, List.append_nil]
        exact ⟨ih.1, fun p hp => Nat.lt_of_lt_of_le (ih.2 p hp) hle⟩
      | some p =>
        obtain ⟨hnumber, hlt⟩ := hnew p hx
        rw [List.filterMap_cons_some hx, List.filterMap_nil]
        constructor
        · rw [List.pairwise_append]
          refine ⟨ih.1, List.pairwise_singleton _ _, ?_⟩
          intro p' hp' p'' hp''
          rw [List.mem_singleton.mp hp'', hnumber]
          exact ih.2 p' hp'
        · intro p' hp'
          rcases List.mem_append.mp hp' with hp' | hp'
          · exact Nat.lt_trans (ih.2 p' hp') hlt
          · rw [List.mem_singleton.mp hp', hnumber]
            exact hlt
  | change h f threads around' run hc ih =>
    refine ⟨ih.1, ?_⟩
    intro p hp
    exact Nat.lt_of_lt_of_le (ih.2 p hp) hc

theorem Run.constructed_nodup
    (run : Run plan around.answering keepsNumbers (ofCalls n lists) h r) : h.constructed.Nodup :=
  run.numbered.1.imp fun hlt => by
    rintro rfl
    exact Nat.lt_irrefl _ hlt

end Numbers

variable {σ : Type} {settings : Settings} {answering : Answering Question.interface σ}
  {changes : σ → σ → Prop} {around : σ} {lists : List (List Call)}
  {h past later : History Question.interface} {r : Race Question.interface σ} {i : Nat}
  {m : Mark Question.interface} {p : Instance}

theorem Run.constructed_before
    (run : Run settings.plan answering changes (ofCalls around lists) h r)
    (hm : h = past ++ (i, m) :: later) (hp : m.configured? = some p) :
    ∃ q between made note, past = q ++ (i, made) :: between ∧ made.constructed? = some p ∧
      History.own between i = [note] := by
  rcases m with _ | _ | _ | x <;> try cases hp
  have hprepared : ∃ marks xs, past.own i = marks ++ xs.map .asked ∧ Prepared (xs ++ [x]) := by
    rcases run.justified hm with ⟨before, xs, w, hown, hl⟩ | ⟨before, call, s, d, xs, w, hown, -, hl⟩
    · exact ⟨before ++ [.called .start], xs, by simp [hown], settings.again_careful _ _ hl⟩
    · exact ⟨before ++ [.called call, .claimed s, .looked s d], xs, by simp [hown, Mark.attempt],
        settings.fill_careful s d _ _ hl⟩
  rcases hprepared with ⟨marks, xs, hown, hx⟩
  obtain ⟨ys, made, event, rfl, hmade⟩ := hx xs x [] p rfl hp
  rw [List.map_append, ← List.append_assoc] at hown
  obtain ⟨q, between, rfl, -, hbetween⟩ := History.own_split hown
  exact ⟨q, between, .asked made, _, rfl, hmade, hbetween⟩

theorem Run.configured_nodup
    (run : Run settings.plan answering changes (ofCalls around lists) h r)
    (hn : h.constructed.Nodup) : h.configured.Nodup := by
  apply nodup_filterMap_of_splits
  rintro xs ⟨i, m⟩ ys ⟨j, m'⟩ zs p hs hp hp'
  have hs' : h = xs ++ (i, m) :: (ys ++ (j, m') :: zs) := by
    rw [hs, List.append_assoc, List.cons_append]
  obtain ⟨q, between, made, note, hxs, hmade, hown⟩ := run.constructed_before hs' hp
  obtain ⟨q', between', made', note', hys, hmade', hown'⟩ := run.constructed_before hs hp'
  have hfirst : h = q ++ (i, made) :: (between ++ (i, m) :: (ys ++ (j, m') :: zs)) := by
    rw [hs', hxs, List.append_assoc, List.cons_append]
  have hsecond : h = q' ++ (j, made') :: (between' ++ (j, m') :: zs) := by
    rw [hs, hys, List.append_assoc, List.cons_append]
  obtain ⟨rfl, hij, hrest⟩ := split_unique hn hfirst hsecond hmade hmade'
  obtain ⟨rfl, rfl⟩ := Prod.mk.inj hij
  -- the thread has done one thing after the making by the first time, and more by the second
  have hbetween : between ++ (i, m) :: ys = between' := by
    rw [← List.cons_append, ← List.append_assoc] at hrest
    exact List.append_cancel_right hrest
  rw [← hbetween, History.own_append, History.own_cons_self, hown] at hown'
  simp at hown'

theorem Run.filled_of_returned
    (run : Run settings.plan answering changes (ofCalls around lists) h r) {reply : Reply}
    (hm : h = past ++ (i, .returned (.ok reply)) :: later) (hr : reply.instances ≠ []) :
    ∃ s a, History.Holds past s a ∧ s.instances a = reply.instances := by
  rcases run.ok_answered hm with ⟨b, rfl⟩ | ⟨d, rfl, -⟩ | ⟨s, a, rfl, ha⟩
  · exact (hr rfl).elim
  · exact (hr rfl).elim
  · exact ⟨s, a, ha, (Slot.instances_reply s a).symm⟩

/-- An attempt that has filled a cell with providers has made them for the entries of the document. -/
theorem Run.makes_of_ended
    (run : Run settings.plan answering changes (ofCalls around lists) h r) {s : Slot}
    {a : s.Content} (hm : h = past ++ (i, .ended s (.ok a)) :: later) (ha : s.instances a ≠ []) :
    ∃ before call doc xs, past.own i = before ++ Mark.attempt call s (some doc) xs ∧
      History.Holds past .document doc ∧ Makes s.role (s.entries doc) xs (s.instances a) := by
  obtain ⟨before, call, d, xs, hown, -, hl⟩ := run.justified hm
  have hs : s ≠ .document := by
    rintro rfl
    exact ha rfl
  obtain ⟨doc, rfl, hlength, hmakes⟩ := settings.fill_leads_ok hs hl
  have hentries : s.entries doc ≠ [] := by
    intro hnil
    rw [hnil] at hlength
    exact ha (List.eq_nil_of_length_eq_zero hlength)
  exact ⟨before, call, doc, xs, hown, run.holds_of_attempt hm hown, hmakes hentries⟩

theorem Run.provided_of_returned
    (run : Run settings.plan answering changes (ofCalls around lists) h r) {reply : Reply} {k : Nat}
    (hm : h = past ++ (i, .returned (.ok reply)) :: later) (hp : reply.instances[k]? = some p) :
    past.Provided reply.instances k p := by
  have hne : reply.instances ≠ [] := by
    intro hnil
    simp [hnil] at hp
  obtain ⟨s, a, ⟨j, hj⟩, hinst⟩ := run.filled_of_returned hm hne
  obtain ⟨q, rest, rfl⟩ := List.append_of_mem hj
  have hsplit : h = q ++ (j, .ended s (.ok a)) :: (rest ++ (i, .returned (.ok reply)) :: later) := by
    rw [hm, List.append_assoc, List.cons_append]
  obtain ⟨before, call, doc, xs, hown, hdoc, hmakes⟩ := run.makes_of_ended hsplit (by rwa [hinst])
  obtain ⟨entry, extension, ys, zs, hentry, hrole, hxs⟩ := hmakes.exists_making (by rwa [hinst])
  have hlength := hmakes.length_eq
  rw [hinst] at hlength
  rw [hxs] at hown
  exact .intro rfl hinst hlength hdoc hentry hrole hown

theorem Run.nodup_instances
    (run : Run settings.plan answering changes (ofCalls around lists) h r)
    (hn : h.constructed.Nodup) {reply : Reply} (hm : (i, .returned (.ok reply)) ∈ h) :
    reply.instances.Nodup := by
  by_cases hne : reply.instances = []
  · rw [hne]
    exact .nil
  · obtain ⟨past, later, hsplit⟩ := List.append_of_mem hm
    obtain ⟨s, a, ⟨j, hj⟩, hinst⟩ := run.filled_of_returned hsplit hne
    obtain ⟨q, rest, rfl⟩ := List.append_of_mem hj
    rw [List.append_assoc, List.cons_append] at hsplit
    obtain ⟨before, call, doc, xs, hown, -, hmakes⟩ :=
      run.makes_of_ended hsplit (by rwa [hinst])
    have hxs : (xs.filterMap Exchange.constructed?).Sublist
        ((History.own q j).filterMap Mark.constructed?) := by
      rw [hown, Mark.attempt, List.filterMap_append]
      refine List.Sublist.trans ?_ (List.sublist_append_right _ _)
      simp only [List.filterMap_cons, List.filterMap_map]
      exact .refl _
    have hq : (History.constructed q).Sublist h.constructed := by
      rw [hsplit, History.constructed, History.constructed, List.filterMap_append]
      exact List.sublist_append_left _ _
    rw [← hinst, ← hmakes.constructed]
    exact List.Nodup.sublist (hxs.trans ((History.own_constructed_sublist q j).trans hq)) hn

/-- Where an attempt has made something, only questions follow until it ends. -/
theorem exists_rest_of_attempt {before : List (Mark Question.interface)} {call : Call} {s : Slot}
    {d : Option ProvidersDocument} {xs : List (Exchange Question.interface)}
    {x : Exchange Question.interface} {outcome : Except FactoryError s.Content}
    (hm : h = past ++ (i, .ended s outcome) :: later)
    (hown : past.own i = before ++ Mark.attempt call s d xs) (hx : x ∈ xs) :
    ∃ (q rest : History _) (zs : List (Exchange _)) (after : List (Mark _)),
      h = q ++ (i, .asked x) :: rest ∧
      History.own rest i = zs.map .asked ++ .ended s outcome :: after := by
  obtain ⟨ys, zs, rfl⟩ := List.append_of_mem hx
  have hall : h.own i = (before ++ .called call :: .claimed s :: .looked s d :: ys.map .asked) ++
      .asked x :: (zs.map .asked ++ .ended s outcome :: later.own i) := by
    rw [hm, History.own_append, History.own_cons_self, hown, Mark.attempt]
    simp
  obtain ⟨q, rest, hs, -, hrest⟩ := History.own_split hall
  exact ⟨q, rest, zs, _, hs, hrest⟩

theorem Run.not_handed_out
    (run : Run settings.plan answering changes (ofCalls around lists) h r)
    (hn : h.constructed.Nodup) {s : Slot} {e : FactoryError}
    (hm : h = past ++ (i, .ended s (.error e)) :: later) {before : List (Mark _)} {call : Call}
    {d : Option ProvidersDocument} {xs : List (Exchange _)} {x : Exchange _}
    (hown : past.own i = before ++ Mark.attempt call s d xs) (hx : x ∈ xs)
    (hp : x.constructed? = some p) {j : Nat} {reply : Reply}
    (hj : (j, .returned (.ok reply)) ∈ h) : p ∉ reply.instances := by
  intro hmem
  obtain ⟨k, hk⟩ := List.mem_iff_getElem?.mp hmem
  obtain ⟨past', later', hj⟩ := List.append_of_mem hj
  obtain @⟨_, _, _, _, _, _, _, _, _, extension, _, _, hfilled, -, -, -, -, -, hown'⟩ :=
    run.provided_of_returned hj hk
  rw [hfilled, List.append_assoc, List.cons_append] at hj
  obtain ⟨q, rest, zs, after, hsplit, hrest⟩ := exists_rest_of_attempt hm hown hx
  obtain ⟨q', rest', zs', after', hsplit', hrest'⟩ :=
    exists_rest_of_attempt (x := ⟨.construct extension, .ok p⟩) hj hown' (by simp [making])
  obtain ⟨-, hij, rfl⟩ := split_unique hn hsplit hsplit' hp rfl
  obtain ⟨rfl, -⟩ := Prod.mk.inj hij
  have hends := split_first_unique (P := fun m => ∃ x, m = .asked x) (hrest.symm.trans hrest')
    (by simp) (by simp) (by simp) (by simp)
  cases hends

section

variable {around : Surroundings σ} {n : Numbered σ} {r : Race Question.interface (Numbered σ)}

/-- Whatever a call hands out was made once and configured once, before its cell was filled. -/
theorem handed_out_configured
    (run : Run settings.plan around.answering keepsNumbers (ofCalls n lists) h r) :
    (∀ (past later : History Question.interface) i reply k p,
      h = past ++ (i, .returned (.ok reply)) :: later → reply.instances[k]? = some p →
      past.Provided reply.instances k p ∧ h.constructed.count p = 1 ∧ h.configured.count p = 1) ∧
    (∀ p, h.configured.count p ≤ 1) ∧
    (∀ i reply, (i, .returned (.ok reply)) ∈ h → reply.instances.Nodup) ∧
    ∀ (past later : History Question.interface) i s e before call d xs x p,
      h = past ++ (i, .ended s (.error e)) :: later →
      past.own i = before ++ Mark.attempt call s d xs → x ∈ xs → x.constructed? = some p →
      ∀ j reply, (j, .returned (.ok reply)) ∈ h → p ∉ reply.instances := by
  have hmade := run.constructed_nodup
  have hconf := run.configured_nodup hmade
  refine ⟨?_, ?_, ?_, ?_⟩
  · intro past later i reply k p hm hp
    have hprov := run.provided_of_returned hm hp
    rcases hprov.mem with ⟨hc, hf⟩
    subst hm
    refine ⟨hprov, List.count_eq_one_of_mem hmade ?_, List.count_eq_one_of_mem hconf ?_⟩
    · rw [History.constructed, List.filterMap_append]
      exact List.mem_append_left _ hc
    · rw [History.configured, List.filterMap_append]
      exact List.mem_append_left _ hf
  · exact List.nodup_iff_count_le_one.mp hconf
  · intro i reply hm
    exact run.nodup_instances hmade hm
  · intro past later i s e before call d xs x p hm hown hx hp j reply hj
    exact run.not_handed_out hmade hm hown hx hp hj

end

/-- Surroundings with a document that names one extension twice, which fails to make its second
instance. -/
def secondFails : Surroundings Unit where
  load _ u := (.ok ⟨none, [⟨"echo", []⟩, ⟨"echo", []⟩]⟩, u)
  resolve identifier u := (some ⟨identifier, "", .listener⟩, u)
  construct _ p u := (if p.number = 1 then .error ⟨"", []⟩ else .ok (), u)
  configure _ _ u := (.ok (), u)
  note _ u := u

/-- Turns in which one thread fails to make the hooks while another waits, which then makes them. -/
def abandoned : List Nat :=
  List.replicate 8 0 ++ [1] ++ List.replicate 9 0 ++ List.replicate 13 1

theorem handed_out_configured_abandoned :
    let start := ofCalls ⟨0, ()⟩ [[.start, .hookProviders], [.hookProviders]]
    let h := record (Settings.plan {}) secondFails.answering abandoned start
    let r := start.play (Settings.plan {}) secondFails.answering abandoned
    Run (Settings.plan {}) secondFails.answering keepsNumbers start h r ∧
      r.threads.map (fun t => t.returned.map Except.toOption) =
        [[some .done, none], [some (.providers [⟨2⟩, ⟨3⟩])]] ∧
      h.constructed = [⟨0⟩, ⟨2⟩, ⟨3⟩] ∧ (∀ p, h.configured.count p ≤ 1) ∧
      ∀ past later i reply k p, h = past ++ (i, .returned (.ok reply)) :: later →
        reply.instances[k]? = some p → History.Provided past reply.instances k p := by
  intro start h r
  have run : Run (Settings.plan {}) secondFails.answering keepsNumbers start h r :=
    Run.start.play abandoned
  obtain ⟨provided, once, -⟩ := handed_out_configured run
  refine ⟨run, by decide +kernel, by decide +kernel, once, ?_⟩
  intro past later i reply k p hm hp
  exact (provided past later i reply k p hm hp).1

end Race

end Provisioning
