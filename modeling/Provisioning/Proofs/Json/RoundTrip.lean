import Provisioning.Json.Reader
import Provisioning.Json.Text
import Provisioning.Proofs.Keyed

/-!
# Reading what was written as JSON

A tree without numbers that is not nested too deeply is read from its own compact text, with the
entries of its objects in order.
-/

namespace Provisioning

/-- No number stands anywhere in a tree. -/
inductive Tree.NumberFree : Tree → Prop where
  | null : NumberFree .null
  | bool (b : Bool) : NumberFree (.bool b)
  | str (s : String) : NumberFree (.str s)
  | arr {items : List Tree} (hi : ∀ t ∈ items, NumberFree t) : NumberFree (.arr items)
  | obj {entries : List (String × Tree)} (he : ∀ e ∈ entries, NumberFree e.2) :
      NumberFree (.obj entries)

namespace Tree

mutual

/-- A tree with the entries of its objects in order; the last of several under one key counts. -/
def gathered : Tree → Tree
  | .arr items => .arr (gatheredItems items)
  | .obj entries => ofEntries (gatheredEntries entries)
  | t => t

def gatheredItems : List Tree → List Tree
  | [] => []
  | t :: rest => gathered t :: gatheredItems rest

def gatheredEntries : List (String × Tree) → List (String × Tree)
  | [] => []
  | (key, t) :: rest => (key, gathered t) :: gatheredEntries rest

end

theorem gatheredItems_eq_self {items : List Tree} (h : ∀ t ∈ items, t.gathered = t) :
    gatheredItems items = items := by
  induction items with
  | nil => rfl
  | cons t rest ih =>
    have hall := List.forall_mem_cons.mp h
    rw [gatheredItems, hall.1, ih hall.2]

theorem gatheredEntries_eq_self {entries : List (String × Tree)}
    (h : ∀ e ∈ entries, e.2.gathered = e.2) : gatheredEntries entries = entries := by
  induction entries with
  | nil => rfl
  | cons e rest ih =>
    rcases e with ⟨key, t⟩
    have hall := List.forall_mem_cons.mp h
    rw [gatheredEntries, hall.1, ih hall.2]

end Tree

theorem Tree.Ordered.gathered_eq {t : Tree} (ht : t.Ordered) : t.gathered = t := by
  induction ht with
  | arr _ ih => rw [gathered, gatheredItems_eq_self ih]
  | obj ha _ ih => rw [gathered, gatheredEntries_eq_self ih, ofEntries, Keyed.gather_eq_self ha]
  | _ => rfl

namespace Json

/-! ## Strings -/

theorem hexValue?_hexDigit : ∀ n < 16, hexValue? (hexDigit n) = some n := by decide

theorem hex4?_control {n : Nat} (h : n < 0x20) :
    hex4? '0' '0' (hexDigit (n / 16)) (hexDigit (n % 16)) = some n := by
  have hzero : hexValue? '0' = some 0 := by decide
  have hhigh := hexValue?_hexDigit (n / 16) (by omega)
  have hlow := hexValue?_hexDigit (n % 16) (by omega)
  simp only [hex4?, hzero, hhigh, hlow, Option.some.injEq]
  omega

theorem body?_plain {c : Char} (hquote : c ≠ '"') (hslash : c ≠ '\\') (hlow : ¬ c.toNat < 0x20)
    (rest : List Char) :
    body? (c :: rest) = (body? rest).map fun p => (c :: p.1, p.2) := by
  rw [body?.eq_def]
  split
  next h => cases h
  next h => exact (hquote (List.cons.inj h).1).elim
  next h => exact (hslash (List.cons.inj h).1).elim
  next h => exact (hslash (List.cons.inj h).1).elim
  next h =>
    obtain ⟨rfl, rfl⟩ := List.cons.inj h
    rw [if_neg (not_or.mpr ⟨hlow, hslash⟩)]

theorem body?_escape (c : Char) (rest : List Char) :
    body? (escape c ++ rest) = (body? rest).map fun p => (c :: p.1, p.2) := by
  unfold escape
  -- the seven characters with a short escape of their own
  iterate 7
    split
    next h =>
      subst h
      simp [body?, unescape?]
  split
  next hc =>
    have hbasic : c.toNat < 0xd800 ∨ 0xe000 ≤ c.toNat := by omega
    simp only [List.cons_append, List.nil_append, body?, hex4?_control hc, if_pos hbasic,
      Char.ofNat_toNat]
  next hc =>
    exact body?_plain (by assumption) (by assumption) hc rest

theorem body?_flatMap_escape (cs rest : List Char) :
    body? (cs.flatMap escape ++ '"' :: rest) = some (cs, rest) := by
  induction cs with
  | nil => rfl
  | cons c cs ih =>
    rw [List.flatMap_cons, List.append_assoc, body?_escape, ih]
    rfl

/-! ## Trees -/

theorem skipBlank_cons {c : Char} (h : isBlank c = false) (cs : List Char) :
    skipBlank (c :: cs) = c :: cs := by
  simp [skipBlank, h]

/-- What a tree is written as starts with a character that no list ends with. -/
theorem text_eq_cons {t : Tree} (ht : t.NumberFree) :
    ∃ c cs, text t = c :: cs ∧ isBlank c = false ∧ c ≠ ']' := by
  cases ht with
  | null => exact ⟨_, _, rfl, by decide, by decide⟩
  | bool b => cases b <;> exact ⟨_, _, rfl, by decide, by decide⟩
  | str s => exact ⟨_, _, rfl, by decide, by decide⟩
  | arr => exact ⟨_, _, rfl, by decide, by decide⟩
  | obj => exact ⟨_, _, rfl, by decide, by decide⟩

/-- A tree is read from its text wherever this stands, given as much fuel as the text is long. -/
def ReadsBack (t : Tree) : Prop :=
  ∀ fuel depth rest, t.depth ≤ depth → (text t).length ≤ fuel →
    value? fuel depth (text t ++ rest) = some (t.gathered, rest)

theorem itemsText_cons_cons (t u : Tree) (rest : List Tree) :
    itemsText (t :: u :: rest) = text t ++ ',' :: itemsText (u :: rest) := rfl

theorem items?_itemsText {t : Tree} {items : List Tree} (h : ∀ u ∈ t :: items, ReadsBack u)
    (fuel depth : Nat) (hd : Tree.depthOfItems (t :: items) ≤ depth)
    (hf : (itemsText (t :: items)).length < fuel) (rest : List Char) :
    items? fuel depth (itemsText (t :: items) ++ ']' :: rest) =
      some (Tree.gatheredItems (t :: items), rest) := by
  induction items generalizing t fuel with
  | nil =>
    cases fuel with
    | zero => omega
    | succ fuel =>
      have ht := h t List.mem_cons_self
      simp only [itemsText, moreItems, List.append_nil, Tree.depthOfItems] at hf hd ⊢
      rw [items?, ht fuel depth _ (by omega) (by omega)]
      simp [skipBlank_cons, isBlank, Tree.gatheredItems]
  | cons u items ih =>
    cases fuel with
    | zero => omega
    | succ fuel =>
      have hall := List.forall_mem_cons.mp h
      rw [itemsText_cons_cons] at hf ⊢
      rw [Tree.depthOfItems] at hd
      simp only [List.length_append, List.length_cons] at hf
      rw [List.append_assoc, items?, hall.1 fuel depth _ (by omega) (by omega)]
      have hrest := ih hall.2 fuel (by omega) (by omega)
      simp [skipBlank_cons, isBlank, hrest, Tree.gatheredItems]

theorem entriesText_cons_cons (k : String) (t : Tree) (e : String × Tree)
    (rest : List (String × Tree)) :
    entriesText ((k, t) :: e :: rest) = string k ++ ':' :: (text t ++ ',' :: entriesText (e :: rest)) :=
  rfl

theorem entries?_entriesText {e : String × Tree} {entries : List (String × Tree)}
    (h : ∀ e' ∈ e :: entries, ReadsBack e'.2) (fuel depth : Nat)
    (hd : Tree.depthOfEntries (e :: entries) ≤ depth)
    (hf : (entriesText (e :: entries)).length < fuel) (rest : List Char) :
    entries? fuel depth (entriesText (e :: entries) ++ '\x7d' :: rest) =
      some (Tree.gatheredEntries (e :: entries), rest) := by
  induction entries generalizing e fuel with
  | nil =>
    rcases e with ⟨k, t⟩
    cases fuel with
    | zero => omega
    | succ fuel =>
      have ht : ReadsBack t := h (k, t) List.mem_cons_self
      simp only [entriesText, moreEntries, List.append_nil, Tree.depthOfEntries, List.length_append,
        List.length_cons] at hf hd ⊢
      have hvalue := ht fuel depth ('\x7d' :: rest) (by omega) (by omega)
      simp [entries?, string, skipBlank_cons, isBlank, body?_flatMap_escape, hvalue,
        Tree.gatheredEntries]
  | cons e' entries ih =>
    rcases e with ⟨k, t⟩
    cases fuel with
    | zero => omega
    | succ fuel =>
      have hall := List.forall_mem_cons.mp h
      rw [entriesText_cons_cons] at hf ⊢
      rw [Tree.depthOfEntries] at hd
      simp only [List.length_append, List.length_cons] at hf
      have ht : ReadsBack t := hall.1
      have hvalue := ht fuel depth (',' :: (entriesText (e' :: entries) ++ '\x7d' :: rest))
        (by omega) (by omega)
      have hrest := ih hall.2 fuel (by omega) (by omega)
      simp [entries?, string, skipBlank_cons, isBlank, body?_flatMap_escape, hvalue, hrest,
        Tree.gatheredEntries]

theorem arr_readsBack {items : List Tree} (hn : ∀ t ∈ items, t.NumberFree)
    (hi : ∀ t ∈ items, ReadsBack t) : ReadsBack (.arr items) := by
  intro fuel depth rest hd hf
  simp only [Tree.depth, text, List.length_cons, List.length_append, List.length_nil] at hd hf
  cases fuel with
  | zero => omega
  | succ fuel =>
    cases depth with
    | zero => omega
    | succ depth =>
      cases items with
      | nil => simp [value?, text, itemsText, skipBlank_cons, isBlank, Tree.gathered, Tree.gatheredItems]
      | cons t items =>
        have hitems := items?_itemsText hi fuel depth (by omega) (by omega) rest
        obtain ⟨c, cs, hc, hblank, hend⟩ := text_eq_cons (hn t List.mem_cons_self)
        simp only [itemsText, hc, List.cons_append, List.append_assoc] at hitems
        simp only [text, itemsText, hc, List.cons_append, List.append_assoc, List.nil_append, value?,
          skipBlank_cons (show isBlank '[' = false by decide), skipBlank_cons hblank, Tree.gathered]
        split
        next heq => exact (hend (List.cons.inj heq).1).elim
        next => rw [hitems]; rfl

theorem obj_readsBack {entries : List (String × Tree)} (he : ∀ e ∈ entries, ReadsBack e.2) :
    ReadsBack (.obj entries) := by
  intro fuel depth rest hd hf
  simp only [Tree.depth, text, List.length_cons, List.length_append, List.length_nil] at hd hf
  cases fuel with
  | zero => omega
  | succ fuel =>
    cases depth with
    | zero => omega
    | succ depth =>
      cases entries with
      | nil =>
        simp [value?, text, entriesText, skipBlank_cons, isBlank, Tree.gathered,
          Tree.gatheredEntries, Tree.ofEntries, Keyed.gather]
      | cons e entries =>
        rcases e with ⟨k, t⟩
        have hentries :=
          entries?_entriesText he fuel depth (by omega) (by omega) rest
        simp only [entriesText, string, List.cons_append, List.append_assoc, List.nil_append]
          at hentries
        simp [value?, text, entriesText, string, skipBlank_cons, isBlank, hentries, Tree.gathered]

theorem readsBack {t : Tree} (ht : t.NumberFree) : ReadsBack t := by
  induction ht with
  | null =>
    intro fuel depth rest _ hf
    cases fuel with
    | zero => simp [text] at hf
    | succ fuel => simp [value?, text, skipBlank_cons, isBlank, Tree.gathered]
  | bool b =>
    intro fuel depth rest _ hf
    cases fuel with
    | zero => cases b <;> simp [text] at hf
    | succ fuel => cases b <;> simp [value?, text, skipBlank_cons, isBlank, Tree.gathered]
  | str s =>
    intro fuel depth rest _ hf
    cases fuel with
    | zero => simp [text, string] at hf
    | succ fuel =>
      simp [value?, text, string, skipBlank_cons, isBlank, body?_flatMap_escape, Tree.gathered]
  | arr hn ih => exact arr_readsBack hn ih
  | obj _ ih => exact obj_readsBack ih

/-- What is written is read again, but for the order of the entries. -/
theorem read?_text {t : Tree} (ht : t.NumberFree) (hd : t.depth ≤ maxDepth) :
    read? (text t) = some t.gathered := by
  have hvalue := readsBack ht (2 * (text t).length + 2) maxDepth [] hd (by omega)
  rw [List.append_nil] at hvalue
  rw [read?, hvalue]
  rfl

end Json

end Provisioning
