import Provisioning.Yaml.Node
import Provisioning.Text.Property

/-!
# Reading YAML

The tree of a node: plain scalars are read as nulls, truth values and numbers where they look like
them, and a core tag says what a scalar is meant to be. The keys of a mapping are scalars, taken as
they are written; of several values under one key the last counts. Nodes nest up to `maxDepth`
levels, and aliases are followed at most a hundred times as often as the document has parts. A text
of white space alone stands for an empty mapping, any other text without a node for a null.
-/

namespace Provisioning.Yaml

/-- How many sequences and mappings may stand inside each other. -/
def maxDepth : Nat := 128

/-- How often aliases may be followed, for each part of the document. -/
def aliasFactor : Nat := 100

def truth? (cs : List Char) : Option Bool :=
  if ["true", "True", "TRUE"].any (·.toList = cs) then some true
  else if ["false", "False", "FALSE"].any (·.toList = cs) then some false
  else none

def isNull (cs : List Char) : Bool :=
  ["null", "Null", "NULL", "~"].any (·.toList = cs)

def dropSign : List Char → List Char
  | '-' :: rest => rest
  | '+' :: rest => rest
  | cs => cs

/-- Whether a scalar has more digits after a leading zero, and nothing else but a sign. -/
def hasLeadingZero (cs : List Char) : Bool :=
  match dropSign cs with
  | '0' :: d :: rest => (d :: rest).all Char.isDigit
  | _ => false

def digitsIn? (base : Nat) (cs : List Char) : Option Nat :=
  let value (n : Option Nat) (c : Char) : Option Nat :=
    n.bind fun n =>
      (Json.hexValue? c).bind fun d => if d < base then some (n * base + d) else none
  if cs.isEmpty then none else cs.foldl value (some 0)

def unsigned? : List Char → Option Nat
  | '0' :: 'x' :: rest => digitsIn? 16 rest
  | '0' :: 'o' :: rest => digitsIn? 8 rest
  | '0' :: 'b' :: rest => digitsIn? 2 rest
  | cs => if hasLeadingZero cs then none else digitsIn? 10 cs

def whole? : List Char → Option Int
  | '-' :: rest => (unsigned? rest).map fun n => -(n : Int)
  | '+' :: rest => (unsigned? rest).map Int.ofNat
  | cs => (unsigned? cs).map Int.ofNat

/-- A whole number as a reading: it fits in 64 bits, is refused, or is too large even for 128. -/
def wholeTree? (i : Int) : Option (Option Tree) :=
  if -(Nat.pow 2 63 : Int) ≤ i ∧ i < Nat.pow 2 64 then some (some (.num (.whole i)))
  else if -(Nat.pow 2 127 : Int) ≤ i ∧ i < Nat.pow 2 128 then some none
  else none

def decimal? (cs : List Char) : Option (Nat × Int) :=
  let before := cs.takeWhile Char.isDigit
  let rest := cs.dropWhile Char.isDigit
  let (after, rest) :=
    match rest with
    | '.' :: rest => (rest.takeWhile Char.isDigit, rest.dropWhile Char.isDigit)
    | rest => ([], rest)
  if before.isEmpty && after.isEmpty then none
  else
    (digitsIn? 10 (before ++ after)).bind fun n =>
      match rest with
      | [] => some (n, -(after.length : Int))
      | c :: rest =>
        if c = 'e' ∨ c = 'E' then
          (digitsIn? 10 (dropSign rest)).map fun e =>
            (n, (if rest.head? = some '-' then -(e : Int) else e) - after.length)
        else none

def real? (cs : List Char) : Option Tree :=
  if [".inf", "+.inf", "-.inf", ".Inf", "+.Inf", "-.Inf", ".INF", "+.INF", "-.INF", ".nan", ".NaN",
      ".NAN"].any (·.toList = cs) then some .null
  else
    (decimal? (dropSign cs)).bind fun (n, e) =>
      (Binary64.ofDecimal? n e).map fun m => .num (.real ⟨cs.head? = some '-', m⟩)

def plainTree? (cs : List Char) : Option Tree :=
  if cs.isEmpty || isNull cs then some .null
  else
    match truth? cs with
    | some b => some (.bool b)
    | none =>
      match (whole? cs).bind wholeTree? with
      | some t => t
      | none =>
        match if hasLeadingZero cs then none else real? cs with
        | some t => some t
        | none => some (.str (String.ofList cs))

def coreTag (name : String) : List Char :=
  ("tag:yaml.org,2002:" ++ name).toList

/-- Whether a tag is a document's own, and so says nothing that is known here. -/
def isOwnTag (tag : List Char) : Bool :=
  tag.head? = some '!' && (Text.decode? (tag.map fun c => UInt8.ofNat c.toNat)).isSome

def scalarTree? (tag : Option (List Char)) (cs : List Char) (plain : Bool) : Option Tree :=
  match tag with
  | none => if plain then plainTree? cs else some (.str (String.ofList cs))
  | some tag =>
    if isOwnTag tag then none
    else if tag = coreTag "bool" then (truth? cs).map .bool
    else if tag = coreTag "int" then ((whole? cs).bind wholeTree?).join
    else if tag = coreTag "float" then real? cs
    else if tag = coreTag "null" then (if isNull cs then some .null else none)
    else if tag.head? = some '!' ∧ plain then plainTree? cs
    else some (.str (String.ofList cs))

mutual

/-- How many parts a node has: two for a collection, one for all else, and those below it. -/
def parts : Node → Nat
  | .scalar _ _ _ => 1
  | .alias _ => 1
  | .sequence _ items => partsOfItems items + 2
  | .mapping _ entries => partsOfEntries entries + 2

def partsOfItems : List Node → Nat
  | [] => 0
  | n :: rest => parts n + partsOfItems rest

def partsOfEntries : List (Node × Node) → Nat
  | [] => 0
  | (k, v) :: rest => parts k + parts v + partsOfEntries rest

end

/-- A reading that may follow some more aliases, and says how many are left. -/
abbrev Budgeted (α : Type) := Nat → Option (α × Nat)

def each? {α β : Type} (read : α → Budgeted β) : List α → Budgeted (List β)
  | [], left => some ([], left)
  | x :: rest, left =>
    (read x left).bind fun (y, left) => (each? read rest left).map fun (ys, left) => (y :: ys, left)

def keyText? (anchors : Anchors) : Node → Budgeted String
  | .scalar _ text _, left => some (String.ofList text, left)
  | .alias slot, left =>
    match left, anchors.node? slot with
    | left + 1, some (.scalar _ text _) => some (String.ofList text, left)
    | _, _ => none
  | _, _ => none

/-- The tree of a node; `depth` more collections may be entered. -/
def tree? (anchors : Anchors) : Nat → Nat → Node → Budgeted Tree
  | 0, _, _, _ => none
  | _, _, .scalar tag text plain, left => (scalarTree? tag text plain).map (·, left)
  | fuel + 1, depth, .alias slot, left =>
    match left, anchors.node? slot with
    | left + 1, some n => tree? anchors fuel depth n left
    | _, _ => none
  | fuel + 1, depth, .sequence tag items, left =>
    if tag.any isOwnTag ∨ depth = 0 then none
    else (each? (tree? anchors fuel (depth - 1)) items left).map fun (ts, left) => (.arr ts, left)
  | fuel + 1, depth, .mapping tag entries, left =>
    if tag.any isOwnTag ∨ depth = 0 then none
    else
      (each? (fun e left =>
          (keyText? anchors e.1 left).bind fun (k, left) =>
            (tree? anchors fuel (depth - 1) e.2 left).map fun (t, left) => ((k, t), left))
        entries left).map fun (es, left) => (Tree.ofEntries es, left)

def Document.tree? : Document → Option Tree
  | .absent => some .null
  | .root n anchors =>
    -- an alias may stand before every collection that is entered
    (Yaml.tree? anchors (2 * maxDepth + 3) maxDepth n (aliasFactor * parts n)).map Prod.fst

def read? (text : List Char) : Option Tree :=
  if Text.isBlank text then some (.obj [])
  else ((tokens? text).bind Document.ofTokens?).bind Document.tree?

end Provisioning.Yaml
