import Mathlib.Data.List.Induction
import Provisioning.Proofs.Client.Basic
import Provisioning.Proofs.Keyed

/-!
# Content that is kept

A factory hands out the same persistence provider again and again. Whatever is saved and deleted through
one of these is saved and deleted for all of them, and nothing else changes what they keep: for each key
it is what was written last.
-/

namespace Provisioning

inductive Writing where
  | save (key : String) (content : List UInt8)
  | delete (key : String)
  deriving DecidableEq

namespace Writing

def key : Writing → String
  | save key _ => key
  | delete key => key

@[simp] theorem key_save (key : String) (content : List UInt8) : (save key content).key = key := rfl

@[simp] theorem key_delete (key : String) : (delete key).key = key := rfl

def left? : Writing → Option (List UInt8)
  | save _ content => some content
  | delete _ => none

/-- What the last of some changes has left under a key. -/
def latest? (ws : List Writing) (key : String) : Option (List UInt8) :=
  (ws.reverse.find? fun w => w.key = key).bind left?

def apply (kept : List (String × List UInt8)) : Writing → List (String × List UInt8)
  | save key content => Keyed.put key content kept
  | delete key => Keyed.erase key kept

variable {ws : List Writing} {w : Writing} {key : String} {content : List UInt8}
  {kept : List (String × List UInt8)}

theorem latest?_concat (ws : List Writing) (w : Writing) (key : String) :
    latest? (ws ++ [w]) key = if w.key = key then w.left? else latest? ws key := by
  by_cases h : w.key = key <;> simp [latest?, h]

theorem lookup_apply (kept : List (String × List UInt8)) (w : Writing) (key : String) :
    Keyed.lookup key (w.apply kept) = if w.key = key then w.left? else Keyed.lookup key kept := by
  split
  next h =>
    subst h
    cases w with
    | save => exact Keyed.lookup_put_self
    | delete => exact Keyed.lookup_erase_self
  next h =>
    cases w with
    | save => exact Keyed.lookup_put_of_ne (Ne.symm h)
    | delete => exact Keyed.lookup_erase_of_ne (Ne.symm h)

/-- Of all changes under a key the last one counts. -/
theorem lookup_foldl_apply (ws : List Writing) (key : String) :
    Keyed.lookup key (ws.foldl apply []) = latest? ws key := by
  induction ws using List.reverseRecOn with
  | nil => rfl
  | append_singleton ws w ih =>
    rw [List.foldl_append, List.foldl_cons, List.foldl_nil, lookup_apply, latest?_concat, ih]

theorem latest?_eq_some_iff :
    latest? ws key = some content ↔
      ∃ before after, ws = before ++ .save key content :: after ∧ ∀ w ∈ after, w.key ≠ key := by
  constructor
  · intro h
    obtain ⟨w, hfind, hleft⟩ := Option.bind_eq_some_iff.mp h
    obtain ⟨hkey, later, earlier, hsplit, hlater⟩ := List.find?_eq_some_iff_append.mp hfind
    cases w with
    | delete => cases hleft
    | save key' content' =>
      obtain rfl : content' = content := Option.some.inj hleft
      obtain rfl : key' = key := of_decide_eq_true hkey
      refine ⟨earlier.reverse, later.reverse, ?_, fun w hw => ?_⟩
      · simpa using congrArg List.reverse hsplit
      · simpa using hlater w (List.mem_reverse.mp hw)
  · rintro ⟨before, after, rfl, hafter⟩
    have hnone : (after.reverse.find? fun w => w.key = key) = none :=
      List.find?_eq_none.mpr fun w hw => by simpa using hafter w (List.mem_reverse.mp hw)
    simp [latest?, List.find?_append, hnone, left?]

end Writing

namespace Client

variable {c : Client} {p q : Instance} {kept : List (String × List UInt8)} {m : Move}

/-! ## Handles -/

/-- Every persistence provider that was handed out is the one that the factory keeps. -/
structure Cached (c : Client) : Prop where
  settled : c.cells.Settled
  stores : ∀ q ∈ c.stores, c.cells.persistence = .full q

theorem Cached.ofDeployment (settings : Settings) (d : Deployment) :
    (ofDeployment settings d).Cached :=
  ⟨ofDeployment_settled settings d, nofun⟩

theorem Cached.move (h : c.Cached) (m : Move) : (c.move m).2.Cached where
  settled := move_settled h.settled m
  stores := by
    have hold : ∀ q ∈ c.stores, (c.move m).2.cells.persistence = .full q := fun q hq =>
      move_within h.settled m .persistence q (h.stores q hq)
    cases m with
    | call call =>
      intro q hq
      rcases mem_stores_call.mp hq with hq | hreply
      · exact hold q hq
      · exact (cells_of_reply h.settled (s := .persistence) (by decide) hreply).2
    | make => simpa only [Client.move, make_stores] using hold
    | register | rewrite => exact hold
    | save | load | delete | handle => simpa only [Client.move, use_stores] using hold

theorem Cached.after (h : c.Cached) (moves : List Move) : (c.after moves).Cached :=
  after_induction (P := Cached) moves (fun _ m _ h => h.move m) h

/-! ## What is kept -/

def writing? (c : Client) : Move → Option Writing
  | .save nth key content => c.stores[nth]?.map fun _ => .save key content
  | .delete nth key => c.stores[nth]?.map fun _ => .delete key
  | _ => none

def writings (c : Client) (moves : List Move) : List Writing :=
  (c.turns moves).filterMap fun t => t.client.writing? t.move

theorem writings_cons (m : Move) (moves : List Move) :
    c.writings (m :: moves) = (c.writing? m).toList ++ (c.move m).2.writings moves := by
  rw [writings, turns, List.filterMap_cons]
  cases c.writing? m <;> rfl

/-- Behind the persistence provider of the factory is one that keeps content in memory. -/
structure Holds (c : Client) (p : Instance) (kept : List (String × List UInt8)) : Prop where
  cached : c.Cached
  cell : c.cells.persistence = .full p
  made : p.number < c.around.made
  behind : ∃ identifier rejects,
    c.host.deployment.provider? p = some (.keeper identifier rejects kept)

namespace Holds

theorem eq_of_mem (h : c.Holds p kept) (hq : q ∈ c.stores) : q = p :=
  Cell.full.inj ((h.cached.stores q hq).symm.trans h.cell)

theorem getElem?_stores (h : c.Holds p kept) {nth : Nat} (hnth : nth < c.stores.length) :
    c.stores[nth]? = some p := by
  rw [List.getElem?_eq_getElem hnth, h.eq_of_mem (List.getElem_mem hnth)]

theorem provider?_move (h : c.Holds p kept) (hw : c.writing? m = none) :
    (c.move m).2.host.deployment.provider? p = c.host.deployment.provider? p := by
  obtain ⟨identifier, rejects, hbehind⟩ := h.behind
  have hkeeps := (move_keeps h.cached.settled m).2 p h.made
  cases m with
  | call | make | register | rewrite => exact hkeeps nofun
  | save | delete =>
    refine hkeeps fun htarget => ?_
    simp only [writing?, Option.map_eq_none_iff] at hw
    rw [target?, hw] at htarget
    cases htarget
  | load | handle =>
    rw [hbehind]
    refine (provider?_use hbehind).trans ?_
    split <;> rfl

theorem move (h : c.Holds p kept) (m : Move) :
    (c.move m).2.Holds p ((c.writing? m).toList.foldl Writing.apply kept) where
  cached := h.cached.move m
  cell := move_within h.cached.settled m .persistence p h.cell
  made := Nat.lt_of_lt_of_le h.made (move_keeps h.cached.settled m).1
  behind := by
    obtain ⟨identifier, rejects, hbehind⟩ := h.behind
    refine ⟨identifier, rejects, ?_⟩
    cases hw : c.writing? m with
    | none => exact (h.provider?_move hw).trans hbehind
    | some w =>
      cases m with
      | call | make | register | rewrite | load | handle => cases hw
      | save nth | delete nth =>
        obtain ⟨q, hq, rfl⟩ := Option.map_eq_some_iff.mp hw
        have htarget : c.stores[nth]? = some p := by
          rw [hq, h.eq_of_mem (List.mem_of_getElem? hq)]
        refine (provider?_use hbehind).trans ?_
        rw [if_pos htarget]
        rfl

theorem after (h : c.Holds p kept) (moves : List Move) :
    (c.after moves).Holds p ((c.writings moves).foldl Writing.apply kept) := by
  induction moves generalizing c kept with
  | nil => exact h
  | cons m moves ih =>
    rw [writings_cons, List.foldl_append]
    exact ih (h.move m)

variable {nth : Nat}

theorem reaction_save (h : c.Holds p kept) (hnth : nth < c.stores.length) (key : String)
    (content : List UInt8) : (c.move (.save nth key content)).1 = .saved (.ok ()) := by
  obtain ⟨identifier, rejects, hbehind⟩ := h.behind
  rw [Client.move, h.getElem?_stores hnth]
  exact reaction_use hbehind

theorem reaction_load (h : c.Holds p kept) (hnth : nth < c.stores.length) (key : String) :
    (c.move (.load nth key)).1 = .loaded (.ok (Keyed.lookup key kept)) := by
  obtain ⟨identifier, rejects, hbehind⟩ := h.behind
  rw [Client.move, h.getElem?_stores hnth]
  exact reaction_use hbehind

/-- What was just written is found through every handle. -/
theorem reaction_load_written (h : c.Holds p kept) {w : Writing} (hw : c.writing? m = some w)
    (hnth : nth < (c.move m).2.stores.length) :
    ((c.move m).2.move (.load nth w.key)).1 = .loaded (.ok w.left?) := by
  rw [(h.move m).reaction_load hnth, hw, Option.toList_some, List.foldl_cons, List.foldl_nil,
    Writing.lookup_apply, if_pos rfl]

theorem reaction_delete (h : c.Holds p kept) (hnth : nth < c.stores.length) (key : String) :
    (c.move (.delete nth key)).1 = .deleted (.ok (Keyed.lookup key kept).isSome) := by
  obtain ⟨identifier, rejects, hbehind⟩ := h.behind
  rw [Client.move, h.getElem?_stores hnth]
  exact reaction_use hbehind

theorem lookup_move {key : String} (hw : ∀ w, c.writing? m = some w → w.key ≠ key) :
    Keyed.lookup key ((c.writing? m).toList.foldl Writing.apply kept) = Keyed.lookup key kept := by
  cases h : c.writing? m with
  | none => rfl
  | some w => exact (Writing.lookup_apply kept w key).trans (if_neg (hw w h))

/-- When the persistence provider is first made, it keeps nothing. -/
theorem of_call {doc : ProvidersDocument} {entry : ProviderEntry} {x : Extension} (h : c.Cached)
    (hdoc : c.cells.document = .full doc) (hentry : doc.persistence = some entry)
    (hx : c.host.deployment.registry.get? entry.extension = some x)
    (hkeeper : x.implementation = .keeper false) (hempty : c.cells.persistence = .empty) :
    ∃ p, (c.move (.call .persistenceProvider)).1 = .outcome (.ok (.provider p)) ∧
      (c.move (.call .persistenceProvider)).2.Holds p [] := by
  have hrole : x.role = .persistence := by rw [Extension.role, hkeeper]; rfl
  have hentries : Slot.persistence.entries doc = [entry] := by
    rw [Slot.entries, hentry]
    rfl
  have hprovides : c.around.state.registry.provides Slot.persistence.role entry = true :=
    Registry.provides_iff.mpr ⟨x, hx, hrole, by rw [hkeeper]; rfl⟩
  obtain ⟨p, hreply, hcell, hstands, -⟩ := call_of_provides (s := .persistence) (by decide) hdoc hempty
    (by simpa [hentries] using hprovides) fun _ => by rw [hentry]; rfl
  rw [hentries] at hstands
  have hstand := (List.forall₂_cons.mp hstands).1
  obtain ⟨y, probe, provider, hy, -, hequipped, hbehind⟩ := hstand.behind
  obtain rfl : x = y := Option.some.inj (hx.symm.trans hy)
  refine ⟨p, hreply, h.move _, hcell, hstand.made, x.identifier, false, ?_⟩
  refine hbehind.trans (hequipped.symm.trans ?_)
  simp [Extension.equip, Extension.make, hkeeper, Provider.configure]

end Holds

/-- All persistence providers that a factory hands out share one map, which only they write. -/
theorem storage_is_one_map (settings : Settings) (d : Deployment) (past later : List Move)
    {doc : ProvidersDocument} {entry : ProviderEntry} {x : Extension}
    (hdoc : ((ofDeployment settings d).after past).cells.document = .full doc)
    (hempty : ((ofDeployment settings d).after past).cells.persistence = .empty)
    (hentry : doc.persistence = some entry)
    (hx : ((ofDeployment settings d).after past).host.deployment.registry.get? entry.extension =
      some x)
    (hkeeper : x.implementation = .keeper false) :
    let first := ((ofDeployment settings d).after past).move (.call .persistenceProvider)
    let c := first.2.after later
    let writings := first.2.writings later
    ∃ p, first.1 = .outcome (.ok (.provider p)) ∧
      (c.move (.call .persistenceProvider)).1 = .outcome (.ok (.provider p)) ∧
      (∀ q ∈ c.stores, q = p) ∧
      (∀ nth key, nth < c.stores.length →
        ∃ found, (c.move (.load nth key)).1 = .loaded (.ok found) ∧
          (∀ content, found = some content ↔
            ∃ before after, writings = before ++ .save key content :: after ∧
              ∀ w ∈ after, w.key ≠ key) ∧
          (∀ content, (c.move (.save nth key content)).1 = .saved (.ok ()) ∧
            ∀ nth' < c.stores.length,
              ((c.move (.save nth key content)).2.move (.load nth' key)).1 =
                .loaded (.ok (some content))) ∧
          (c.move (.delete nth key)).1 = .deleted (.ok found.isSome) ∧
          ∀ nth' < c.stores.length,
            ((c.move (.delete nth key)).2.move (.load nth' key)).1 = .loaded (.ok none)) ∧
      (∀ m key, (∀ w, c.writing? m = some w → w.key ≠ key) →
        ∀ nth nth', nth < c.stores.length → nth' < (c.move m).2.stores.length →
          ((c.move m).2.move (.load nth' key)).1 = (c.move (.load nth key)).1) ∧
      ∀ m, c.writing? m = none →
        (c.move m).2.host.deployment.provider? p = c.host.deployment.provider? p := by
  intro first c writings
  have hcached := (Cached.ofDeployment settings d).after past
  obtain ⟨p, hreply, hfirst⟩ := Holds.of_call hcached hdoc hentry hx hkeeper hempty
  -- all handles are to one instance, and what is behind it is the outcome of the writings
  have hholds : c.Holds p (writings.foldl Writing.apply []) := hfirst.after later
  have hagain := c.call_of_full (s := .persistence) hholds.cell
  have hlookup := Writing.lookup_foldl_apply writings
  refine ⟨p, hreply, hagain, fun q => hholds.eq_of_mem, ?_, ?_, ?_⟩
  · intro nth key hnth
    have htarget := hholds.getElem?_stores hnth
    refine ⟨_, hholds.reaction_load hnth key, fun content => ?_, fun content => ⟨?_, ?_⟩, ?_, ?_⟩
    · rw [hlookup]
      exact Writing.latest?_eq_some_iff
    · exact hholds.reaction_save hnth key content
    · intro nth' hnth'
      have hw : c.writing? (.save nth key content) = some (.save key content) := by
        rw [writing?, htarget]
        rfl
      exact hholds.reaction_load_written hw (by simpa only [Client.move, use_stores] using hnth')
    · exact hholds.reaction_delete hnth key
    · intro nth' hnth'
      have hw : c.writing? (.delete nth key) = some (.delete key) := by
        rw [writing?, htarget]
        rfl
      exact hholds.reaction_load_written hw (by simpa only [Client.move, use_stores] using hnth')
  · intro m key hw nth nth' hnth hnth'
    rw [(hholds.move m).reaction_load hnth' key, hholds.reaction_load hnth key,
      Holds.lookup_move hw]
  · exact fun m => hholds.provider?_move

/-- Content under two keys is written through two handles. In between the extension is replaced, and the
files go away. -/
def sharing : List Move := [
  .call .persistenceProvider, .save 0 "a" [1], .register ⟨"shelf", "", .keeper true⟩,
  .save 1 "b" [2], .delete 0 "a", .rewrite {}, .save 1 "a" [3], .call .hookProviders, .load 0 "b",
  .call .persistenceProvider]

theorem storage_is_one_map_sharing :
    let doc : ProvidersDocument := ⟨some ⟨"shelf", []⟩, []⟩
    let shelf : Extension := ⟨"shelf", "", .keeper false⟩
    let d : Deployment := { source := .fixed doc, registry := Registry.register {} shelf }
    let started := (ofDeployment {} d).after [.call .persistenceProvider, .call .start]
    let first := started.move (.call .persistenceProvider)
    let c := first.2.after sharing
    started.cells.document = .full doc ∧ started.cells.persistence = .empty ∧
      started.host.deployment.registry.get? "shelf" = some shelf ∧ c.stores.length = 3 ∧
      (c.move (.load 1 "a")).1 = .loaded (.ok (some [3])) ∧
      (c.move (.load 2 "b")).1 = .loaded (.ok (some [2])) ∧
      (c.move (.delete 1 "a")).1 = .deleted (.ok true) ∧
      ((c.move (.delete 1 "a")).2.move (.load 0 "a")).1 = .loaded (.ok none) := by
  intro doc shelf d started first c
  have hdoc : started.cells.document = .full doc := by decide +kernel
  have hempty : started.cells.persistence = .empty := by decide +kernel
  have hfound : started.host.deployment.registry.get? "shelf" = some shelf := by decide +kernel
  have hentry : doc.persistence = some ⟨"shelf", []⟩ := rfl
  have hcount : c.stores.length = 3 := by decide +kernel
  obtain ⟨-, -, -, -, hkeys, -⟩ := storage_is_one_map {} d [.call .persistenceProvider, .call .start]
    sharing hdoc hempty hentry hfound rfl
  have hwritings : first.2.writings sharing =
      [.save "a" [1], .save "b" [2], .delete "a", .save "a" [3]] := by decide +kernel
  obtain ⟨found, hload, hlast, -, hdelete, hgone⟩ := hkeys 1 "a" (by rw [hcount]; decide)
  obtain rfl : found = some [3] :=
    (hlast [3]).mpr ⟨[.save "a" [1], .save "b" [2], .delete "a"], [], hwritings, nofun⟩
  have hcontent : ∃ found, (c.move (.load 2 "b")).1 = .loaded (.ok found) ∧ found = some [2] := by
    obtain ⟨found, hload, hlast, -⟩ := hkeys 2 "b" (by rw [hcount]; decide)
    refine ⟨found, hload, (hlast [2]).mpr ⟨[.save "a" [1]], [.delete "a", .save "a" [3]], hwritings, ?_⟩⟩
    decide
  obtain ⟨_, hother, rfl⟩ := hcontent
  exact ⟨hdoc, hempty, hfound, hcount, hload, hother, hdelete, hgone 0 (by rw [hcount]; decide)⟩

end Client

end Provisioning
