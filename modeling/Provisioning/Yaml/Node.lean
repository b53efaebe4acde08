import Provisioning.Yaml.Token
import Provisioning.Text.Utf8

/-!
# Nodes of YAML

A document is a node: a scalar, a sequence, a mapping, or an alias. The name of an anchor takes a
slot, which is the number of different names before it, and an alias holds the slot that its name has
at that time. A slot leads to the node that took it last in the whole document. A name that is
anchored again takes a slot anew, so that the next new name shares its slot.
-/

namespace Provisioning.Yaml

/-- A node, with its tag as octets. -/
inductive Node where
  | scalar (tag : Option (List Char)) (text : List Char) (plain : Bool)
  | sequence (tag : Option (List Char)) (items : List Node)
  | mapping (tag : Option (List Char)) (entries : List (Node × Node))
  | alias (slot : Nat)

/-- The anchors of a document: the slots of names, the takers of slots, and the nodes of takers. -/
structure Anchors where
  names : List (List Char × Nat) := []
  takers : List (Nat × Nat) := []
  nodes : List (Nat × Node) := []

namespace Anchors

def slot? (a : Anchors) (name : List Char) : Option Nat :=
  a.names.lookup name

def take (a : Anchors) (name : List Char) : Anchors :=
  let slot := a.names.length
  { a with
    names := (name, slot) :: a.names.filter fun p => p.1 ≠ name
    takers := (slot, a.takers.length) :: a.takers }

def note (a : Anchors) (taker : Nat) (n : Node) : Anchors :=
  { a with nodes := (taker, n) :: a.nodes }

def node? (a : Anchors) (slot : Nat) : Option Node :=
  (a.takers.lookup slot).bind fun taker => a.nodes.lookup taker

end Anchors

/-- What a document's directives say: the prefixes of tag handles. -/
abbrev Handles := List (List Char × List Char)

def Handles.standard : Handles :=
  [(['!'], ['!']), (['!', '!'], "tag:yaml.org,2002:".toList)]

structure Properties where
  anchor : Option (List Char) := none
  tag : Option (List Char) := none

def tag? (handles : Handles) (handle suffix : List Char) : Option (List Char) :=
  if handle.isEmpty then some suffix else (handles.lookup handle).map (· ++ suffix)

def properties? (handles : Handles) : List Token → Option (Properties × List Token)
  | .anchor name :: .tag h s :: rest => (tag? handles h s).map fun t => (⟨some name, some t⟩, rest)
  | .anchor name :: rest => some (⟨some name, none⟩, rest)
  | .tag h s :: .anchor name :: rest => (tag? handles h s).map fun t => (⟨some name, some t⟩, rest)
  | .tag h s :: rest => (tag? handles h s).map fun t => (⟨none, some t⟩, rest)
  | rest => some ({}, rest)

/-- A scalar that is not written. -/
def Node.empty : Node := .scalar none [] true

abbrev Read (α : Type) := Option (α × List Token × Anchors)

inductive Place where
  | flow
  | block
  | blockEntry
  deriving DecidableEq

/-- Whether nothing is written before a token, where an entry of a mapping in a block may stand. -/
def endsEntry : List Token → Bool
  | .key :: _ => true
  | .value :: _ => true
  | .blockEnd :: _ => true
  | _ => false

def endsItem : List Token → Bool
  | .blockEntry :: _ => true
  | .blockEnd :: _ => true
  | _ => false

def endsKeyItem : List Token → Bool
  | .blockEntry :: _ => true
  | rest => endsEntry rest

mutual

def node? (handles : Handles) : Nat → Place → List Token → Anchors → Read Node
  | 0, _, _, _ => none
  | _, _, .alias name :: rest, a => (a.slot? name).map fun slot => (.alias slot, rest, a)
  | fuel + 1, place, tokens, a =>
    (properties? handles tokens).bind fun (p, rest) =>
      match p.anchor with
      | none => content? handles fuel place p.tag false rest a
      | some name =>
        (content? handles fuel place p.tag true rest (a.take name)).map fun (n, rest, b) =>
          (n, rest, b.note a.takers.length n)

def content? (handles : Handles) :
    Nat → Place → Option (List Char) → Bool → List Token → Anchors → Read Node
  | 0, _, _, _, _, _ => none
  | fuel + 1, place, tag, anchored, tokens, a =>
    let absent : Read Node :=
      if anchored || tag.isSome then some (.scalar tag [] true, tokens, a) else none
    match tokens with
    | .scalar text plain :: rest =>
      some (.scalar (if tag = some ['!'] then none else tag) text plain, rest, a)
    | .flowSequenceStart :: rest =>
      (flowItems? handles fuel true rest a).map fun (ns, r) => (.sequence tag ns, r)
    | .flowMappingStart :: rest =>
      (flowEntries? handles fuel true rest a).map fun (ns, r) => (.mapping tag ns, r)
    | .blockEntry :: _ =>
      if place = .blockEntry then
        (keyItems? handles fuel tokens a).map fun (ns, r) => (.sequence tag ns, r)
      else absent
    | .blockSequenceStart :: rest =>
      if place = .flow then absent
      else (blockItems? handles fuel rest a).map fun (ns, r) => (.sequence tag ns, r)
    | .blockMappingStart :: rest =>
      if place = .flow then absent
      else (blockEntries? handles fuel rest a).map fun (ns, r) => (.mapping tag ns, r)
    | _ => absent

def blockItems? (handles : Handles) : Nat → List Token → Anchors → Read (List Node)
  | 0, _, _ => none
  | _, .blockEnd :: rest, a => some ([], rest, a)
  | fuel + 1, .blockEntry :: rest, a =>
    if endsItem rest then
      (blockItems? handles fuel rest a).map fun (ns, r) => (Node.empty :: ns, r)
    else
      (node? handles fuel .block rest a).bind fun (n, rest, a) =>
        (blockItems? handles fuel rest a).map fun (ns, r) => (n :: ns, r)
  | _, _, _ => none

/-- The items of a sequence under a key that is not indented further than the key. -/
def keyItems? (handles : Handles) : Nat → List Token → Anchors → Read (List Node)
  | 0, _, _ => none
  | fuel + 1, .blockEntry :: rest, a =>
    if endsKeyItem rest then
      (keyItems? handles fuel rest a).map fun (ns, r) => (Node.empty :: ns, r)
    else
      (node? handles fuel .block rest a).bind fun (n, rest, a) =>
        (keyItems? handles fuel rest a).map fun (ns, r) => (n :: ns, r)
  | _, tokens, a => some ([], tokens, a)

/-- A key or a value of a block mapping, which may be absent. -/
def blockPart? (handles : Handles) : Nat → List Token → Anchors → Read Node
  | 0, _, _ => none
  | fuel + 1, tokens, a =>
    if endsEntry tokens then some (Node.empty, tokens, a)
    else node? handles fuel .blockEntry tokens a

def blockEntries? (handles : Handles) : Nat → List Token → Anchors → Read (List (Node × Node))
  | 0, _, _ => none
  | _, .blockEnd :: rest, a => some ([], rest, a)
  | fuel + 1, .key :: rest, a =>
    (blockPart? handles fuel rest a).bind fun (k, rest, a) =>
      (match rest with
        | .value :: rest => blockPart? handles fuel rest a
        | _ => some (Node.empty, rest, a)).bind fun (v, rest, a) =>
        (blockEntries? handles fuel rest a).map fun (ns, r) => ((k, v) :: ns, r)
  | _, _, _ => none

def flowItems? (handles : Handles) : Nat → Bool → List Token → Anchors → Read (List Node)
  | 0, _, _, _ => none
  | _, _, .flowSequenceEnd :: rest, a => some ([], rest, a)
  | fuel + 1, true, tokens, a => flowItem? handles fuel tokens a
  | fuel + 1, false, .flowEntry :: tokens, a =>
    match tokens with
    | .flowSequenceEnd :: rest => some ([], rest, a)
    | _ => flowItem? handles fuel tokens a
  | _, _, _, _ => none

/-- An item of a sequence in brackets, which may be a pair, and the items after it. -/
def flowItem? (handles : Handles) : Nat → List Token → Anchors → Read (List Node)
  | 0, _, _ => none
  | fuel + 1, .key :: rest, a =>
    (flowPairKey? handles fuel rest a).bind fun (k, rest, a) =>
      (flowPairValue? handles fuel rest a).bind fun (v, rest, a) =>
        (flowItems? handles fuel false rest a).map fun (ns, r) =>
          (.mapping none [(k, v)] :: ns, r)
  | fuel + 1, tokens, a =>
    (node? handles fuel .flow tokens a).bind fun (n, rest, a) =>
      (flowItems? handles fuel false rest a).map fun (ns, r) => (n :: ns, r)

/-- The key of a pair in brackets; where it is absent the token after it is passed over. -/
def flowPairKey? (handles : Handles) : Nat → List Token → Anchors → Read Node
  | 0, _, _ => none
  | _, .value :: rest, a => some (Node.empty, rest, a)
  | _, .flowEntry :: rest, a => some (Node.empty, rest, a)
  | _, .flowSequenceEnd :: rest, a => some (Node.empty, rest, a)
  | fuel + 1, tokens, a => node? handles fuel .flow tokens a

def flowPairValue? (handles : Handles) : Nat → List Token → Anchors → Read Node
  | 0, _, _ => none
  | fuel + 1, .value :: rest, a =>
    match rest with
    | .flowEntry :: _ => some (Node.empty, rest, a)
    | .flowSequenceEnd :: _ => some (Node.empty, rest, a)
    | _ => node? handles fuel .flow rest a
  | _, tokens, a => some (Node.empty, tokens, a)

def flowEntries? (handles : Handles) : Nat → Bool → List Token → Anchors → Read (List (Node × Node))
  | 0, _, _, _ => none
  | _, _, .flowMappingEnd :: rest, a => some ([], rest, a)
  | fuel + 1, true, tokens, a => flowEntry? handles fuel tokens a
  | fuel + 1, false, .flowEntry :: tokens, a =>
    match tokens with
    | .flowMappingEnd :: rest => some ([], rest, a)
    | _ => flowEntry? handles fuel tokens a
  | _, _, _, _ => none

def flowEntry? (handles : Handles) : Nat → List Token → Anchors → Read (List (Node × Node))
  | 0, _, _ => none
  | fuel + 1, .key :: rest, a =>
    (flowPart? handles fuel rest a).bind fun (k, rest, a) =>
      (match rest with
        | .value :: rest => flowPart? handles fuel rest a
        | _ => some (Node.empty, rest, a)).bind fun (v, rest, a) =>
        (flowEntries? handles fuel false rest a).map fun (ns, r) => ((k, v) :: ns, r)
  | fuel + 1, tokens, a =>
    (node? handles fuel .flow tokens a).bind fun (k, rest, a) =>
      (flowEntries? handles fuel false rest a).map fun (ns, r) => ((k, Node.empty) :: ns, r)

def flowPart? (handles : Handles) : Nat → List Token → Anchors → Read Node
  | 0, _, _ => none
  | _, .value :: rest, a => some (Node.empty, .value :: rest, a)
  | _, .flowEntry :: rest, a => some (Node.empty, .flowEntry :: rest, a)
  | _, .flowMappingEnd :: rest, a => some (Node.empty, .flowMappingEnd :: rest, a)
  | fuel + 1, tokens, a => node? handles fuel .flow tokens a

end

/-- The handles of the directives before a document, each directive once; and the tokens after them. -/
def directives? : Bool → Handles → List Token → Option (Handles × List Token)
  | versioned, handles, .version major minor :: rest =>
    if versioned ∨ major ≠ 1 ∨ (minor ≠ 1 ∧ minor ≠ 2) then none
    else directives? true handles rest
  | versioned, handles, .tagDirective handle start :: rest =>
    if (handles.lookup handle).isSome then none
    else directives? versioned (handles ++ [(handle, start)]) rest
  | _, handles, rest => some (handles ++ Handles.standard, rest)

/-- A document: nothing at all, or a node with the anchors below it. -/
inductive Document where
  | absent
  | root (n : Node) (anchors : Anchors)

def isFinished : List Token → Bool
  | .documentEnd :: rest => isFinished rest
  | [.streamEnd] => true
  | _ => false

def marked? (handles : Handles) (tokens : List Token) : Read Node :=
  match tokens with
  | .version _ _ :: _ => some (Node.empty, tokens, {})
  | .tagDirective _ _ :: _ => some (Node.empty, tokens, {})
  | .documentStart :: _ => some (Node.empty, tokens, {})
  | .documentEnd :: _ => some (Node.empty, tokens, {})
  | [.streamEnd] => some (Node.empty, tokens, {})
  | _ => node? handles (4 * tokens.length + 4) .block tokens {}

def Document.ofTokens? (tokens : List Token) : Option Document :=
  match tokens with
  | [.streamEnd] => some .absent
  | _ =>
    (directives? false [] tokens).bind fun (handles, rest) =>
      let read : Read Node :=
        match rest with
        | .documentStart :: rest => marked? handles rest
        | _ =>
          if rest.length = tokens.length then
            -- at most four readers call one another before a token is passed over
            node? handles (4 * rest.length + 4) .block rest {}
          else none
      read.bind fun (n, rest, a) => if isFinished rest then some (.root n a) else none

end Provisioning.Yaml
