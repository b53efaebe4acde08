import Provisioning.Yaml.Scalar

/-!
# Tokens of YAML

A text is a row of tokens. Most are written; where a block collection starts and ends follows from
indentation, and where a key starts is known only at the colon after it, so tokens may be put in
before others that were read earlier.
-/

namespace Provisioning.Yaml

/-- A token. The handle and the suffix of a tag, like the prefix of a tag directive, hold octets. -/
inductive Token where
  | version (major minor : Nat)
  | tagDirective (handle start : List Char)
  | documentStart
  | documentEnd
  | blockSequenceStart
  | blockMappingStart
  | blockEnd
  | flowSequenceStart
  | flowSequenceEnd
  | flowMappingStart
  | flowMappingEnd
  | blockEntry
  | flowEntry
  | key
  | value
  | alias (name : List Char)
  | anchor (name : List Char)
  | tag (handle suffix : List Char)
  | scalar (text : List Char) (plain : Bool)
  | streamEnd
  deriving DecidableEq

def scanName? (c : Cursor) : Option (List Char × Cursor) :=
  let (name, after) := c.takeWhile isNameChar
  let ends := startsGap after.rest || after.rest.head?.any fun ch => "?:,]\x7d%@`".toList.contains ch
  if name.isEmpty || !ends then none else some (name, after)

def octets? (lead : Nat) : Option Nat :=
  if lead < 0x80 then some 1
  else if 0xc0 ≤ lead ∧ lead < 0xe0 then some 2
  else if 0xe0 ≤ lead ∧ lead < 0xf0 then some 3
  else if 0xf0 ≤ lead ∧ lead < 0xf8 then some 4
  else none

def octet? : List Char → Option Nat
  | '%' :: a :: b :: _ => (Json.hexValue? a).bind fun a => (Json.hexValue? b).map (a * 16 + ·)
  | _ => none

def moreOctets? : Nat → Cursor → Option (List Char × Cursor)
  | 0, c => some ([], c)
  | n + 1, c =>
    (octet? c.rest).bind fun o =>
      if 0x80 ≤ o ∧ o < 0xc0 then
        (moreOctets? n (c.skip 3)).map fun p => (Char.ofNat o :: p.1, p.2)
      else none

def scanOctets? (c : Cursor) : Option (List Char × Cursor) :=
  (octet? c.rest).bind fun o =>
    (octets? o).bind fun n =>
      (moreOctets? (n - 1) (c.skip 3)).map fun p => (Char.ofNat o :: p.1, p.2)

/-- The characters of the suffix of a tag; brackets and commas only where it is set apart. -/
def isTagChar (apart : Bool) (ch : Char) : Bool :=
  isNameChar ch || ";/?:@&=+$.!~*'()%".toList.contains ch || apart && ",[]".toList.contains ch

def scanTagText? (apart : Bool) : Nat → Cursor → Option (List Char × Cursor)
  | 0, c => some ([], c)
  | fuel + 1, c =>
    match c.rest with
    | [] => some ([], c)
    | ch :: _ =>
      if ch = '%' then
        (scanOctets? c).bind fun p =>
          (scanTagText? apart fuel p.2).map fun q => (p.1 ++ q.1, q.2)
      else if isTagChar apart ch then
        (scanTagText? apart fuel c.next).map fun q => (ch :: q.1, q.2)
      else some ([], c)

def scanHandle? (c : Cursor) : Option (List Char × Cursor) :=
  match c.rest with
  | '!' :: _ =>
    let (name, after) := c.next.takeWhile isNameChar
    match after.rest with
    | '!' :: _ => some ('!' :: name ++ ['!'], after.next)
    | _ => some ('!' :: name, after)
  | _ => none

/-- A tag after its handle was tried: its handle and suffix, and the place after it. -/
def scanShorthand? (c : Cursor) : Option (List Char × List Char × Cursor) :=
  (scanHandle? c).bind fun (head, after) =>
    (scanTagText? false (after.rest.length + 1) after).bind fun (text, after) =>
      if head.length > 1 ∧ head.getLast? = some '!' then
        if text.isEmpty then none else some (head, text, after)
      else
        let suffix := head.drop 1 ++ text
        if suffix.isEmpty then some ([], ['!'], after) else some (['!'], suffix, after)

/-- A tag between angle brackets, whose text stands for itself. -/
def scanVerbatim? (c : Cursor) : Option (List Char × List Char × Cursor) :=
  (scanTagText? true (c.rest.length + 1) (c.skip 2)).bind fun (text, after) =>
    if text.isEmpty ∨ after.rest.head? ≠ some '>' then none else some ([], text, after.next)

def scanTag? (inFlow : Bool) (c : Cursor) : Option (Token × Cursor) :=
  let scanned :=
    match c.rest with
    | '!' :: '<' :: _ => scanVerbatim? c
    | _ => scanShorthand? c
  scanned.bind fun (handle, suffix, after) =>
    if startsGap after.rest || inFlow && after.rest.head? == some ',' then
      some (.tag handle suffix, after)
    else none

def scanVersionNumber? (c : Cursor) : Option (Nat × Cursor) :=
  let (ds, after) := c.takeWhile Char.isDigit
  if ds.isEmpty ∨ ds.length > 9 then none
  else some (ds.foldl (fun n d => n * 10 + (d.toNat - 48)) 0, after)

def scanDirective? (c : Cursor) : Option (Token × Cursor) :=
  let (name, after) := c.takeWhile isNameChar
  if !startsGap after.rest then none
  else if name = "YAML".toList then
    (scanVersionNumber? after.skipBlanks).bind fun (major, c) =>
      if c.rest.head? ≠ some '.' then none
      else
        (scanVersionNumber? c.next).bind fun (minor, c) =>
          c.skipLineRest?.map (.version major minor, ·)
  else if name = "TAG".toList then
    (scanHandle? after.skipBlanks).bind fun (handle, c) =>
      if handle.getLast? ≠ some '!' ∨ !(c.rest.head?.any isBlank) then none
      else
        (scanTagText? true (c.rest.length + 1) c.skipBlanks).bind fun (start, c) =>
          if start.isEmpty || !startsGap c.rest then none
          else c.skipLineRest?.map (.tagDirective handle start, ·)
  else none

/-- A place where a key may have started: the token that it starts with, and whether it must be one. -/
structure KeyStart where
  required : Bool
  token : Nat
  place : Cursor

/-- The tokens read so far, the last first, and what decides how the text goes on. -/
structure Scan where
  place : Cursor
  tokens : List Token := []
  count : Nat := 0
  indents : List Nat := []
  keys : List (Option KeyStart) := [none]
  keyAllowed : Bool := true

namespace Scan

def flow (s : Scan) : Nat := s.keys.length - 1

/-- The column of the innermost block collection plus one, or zero outside of all. -/
def parent (s : Scan) : Nat :=
  match s.indents with
  | [] => 0
  | n :: _ => n + 1

def push (s : Scan) (t : Token) : Scan :=
  { s with tokens := t :: s.tokens, count := s.count + 1 }

def insert (s : Scan) (number : Nat) (t : Token) : Scan :=
  let later := s.count - number
  { s with tokens := s.tokens.take later ++ t :: s.tokens.drop later, count := s.count + 1 }

/-- Opens a block collection at a column that is further than the innermost one. -/
def roll (s : Scan) (column : Nat) (number : Option Nat) (t : Token) : Scan :=
  if s.flow > 0 ∨ column < s.parent then s
  else
    let s := { s with indents := column :: s.indents }
    match number with
    | some n => s.insert n t
    | none => s.push t

def close : Nat → Scan → Scan
  | 0, s => s
  | n + 1, s => close n { s.push .blockEnd with indents := s.indents.drop 1 }

/-- Closes the block collections that start at `least` or further. -/
def unroll (s : Scan) (least : Nat) : Scan :=
  if s.flow > 0 then s else close (s.indents.takeWhile (least ≤ ·)).length s

/-- Forgets the key that may have started, unless it must be one. -/
def dropKey? (s : Scan) : Option Scan :=
  match s.keys with
  | some k :: rest => if k.required then none else some { s with keys := none :: rest }
  | _ => some s

def saveKey? (s : Scan) : Option Scan :=
  if s.keyAllowed then
    let required := s.flow = 0 ∧ s.indents.head? = some s.place.column
    s.dropKey?.map fun s => { s with keys := some ⟨required, s.count, s.place⟩ :: s.keys.drop 1 }
  else some s

/-- Forgets the keys that would span lines or more than 1024 characters, unless they must be keys. -/
def expireKeys? (s : Scan) : Option Scan :=
  let isLate (k : KeyStart) : Bool :=
    k.place.line < s.place.line || k.place.index + 1024 < s.place.index
  if s.keys.any fun k => k.any fun k => k.required && isLate k then none
  else some { s with keys := s.keys.map fun k => k.filter fun k => !isLate k }

def skipGap : Nat → Scan → Scan
  | 0, s => s
  | fuel + 1, s =>
    let c :=
      if s.place.column = 0 ∧ s.place.rest.head? = some '\ufeff' then s.place.next else s.place
    let tabs := s.flow > 0 || !s.keyAllowed
    let c := (c.takeWhile fun ch => ch = ' ' || tabs && ch = '\t').2.skipComment
    if startsBreak c.rest then
      skipGap fuel { s with place := c.nextLine.2, keyAllowed := s.flow = 0 || s.keyAllowed }
    else { s with place := c }

def documentMark? (s : Scan) (t : Token) : Option Scan :=
  (s.unroll 0).dropKey?.map fun s => { s.push t with place := s.place.skip 3, keyAllowed := false }

def openFlow? (s : Scan) (t : Token) : Option Scan :=
  s.saveKey?.map fun s =>
    { s.push t with place := s.place.next, keyAllowed := true, keys := none :: s.keys }

def closeFlow? (s : Scan) (t : Token) : Option Scan :=
  s.dropKey?.map fun s =>
    { s.push t with
      place := s.place.next, keyAllowed := false, keys := if s.flow > 0 then s.keys.drop 1 else s.keys }

def flowEntry? (s : Scan) : Option Scan :=
  s.dropKey?.map fun s => { s.push .flowEntry with place := s.place.next, keyAllowed := true }

def blockEntry? (s : Scan) : Option Scan :=
  if s.flow = 0 ∧ !s.keyAllowed then none
  else
    (s.roll s.place.column none .blockSequenceStart).dropKey?.map fun s =>
      { s.push .blockEntry with place := s.place.next, keyAllowed := true }

def key? (s : Scan) : Option Scan :=
  if s.flow = 0 ∧ !s.keyAllowed then none
  else
    (s.roll s.place.column none .blockMappingStart).dropKey?.map fun s =>
      { s.push .key with place := s.place.next, keyAllowed := s.flow = 0 }

def value? (s : Scan) : Option Scan :=
  match s.keys with
  | some k :: rest =>
    let s := s.insert k.token .key
    let s := s.roll k.place.column (some k.token) .blockMappingStart
    some { s.push .value with place := s.place.next, keyAllowed := false, keys := none :: rest }
  | _ =>
    if s.flow = 0 ∧ !s.keyAllowed then none
    else
      let s := s.roll s.place.column none .blockMappingStart
      some { s.push .value with place := s.place.next, keyAllowed := s.flow = 0 }

def node? (s : Scan) (scan : Cursor → Option (Token × Cursor)) : Option Scan :=
  s.saveKey?.bind fun s =>
    (scan s.place).map fun (t, c) => { s.push t with place := c, keyAllowed := false }

def block? (s : Scan) (literal : Bool) : Option Scan :=
  s.dropKey?.bind fun s =>
    (Yaml.block? literal s.parent s.place.next).map fun (text, c) =>
      { s.push (.scalar text false) with place := c, keyAllowed := true }

def plain? (s : Scan) : Option Scan :=
  s.saveKey?.bind fun s =>
    (Yaml.plain? (s.flow > 0) s.parent (s.place.rest.length + 1) [] .nothing s.place).map
      fun (text, hasBreak, c) =>
        { s.push (.scalar text true) with place := c, keyAllowed := hasBreak }

def directive? (s : Scan) : Option Scan :=
  (s.unroll 0).dropKey?.bind fun s =>
    (scanDirective? s.place.next).map fun (t, c) => { s.push t with place := c, keyAllowed := false }

def startsPlain (inFlow : Bool) (ch : Char) (rest : List Char) : Bool :=
  !(isBlank ch || isBreak ch || "-?:,[]\x7b\x7d#&*!|>'\"%@`".toList.contains ch) ||
    ch = '-' && !(rest.head?.any isBlank) ||
    !inFlow && (ch = '?' || ch = ':') && !startsGap rest

/-- The scan after the next token, and whether this was the last. -/
def step? (s : Scan) : Option (Scan × Bool) :=
  (skipGap (s.place.rest.length + 1) s).expireKeys?.bind fun s =>
    let s := s.unroll (s.place.column + 1)
    match s.place.rest with
    | [] => (s.unroll 0).dropKey?.map fun s => (s.push .streamEnd, true)
    | ch :: rest =>
      let inFlow := decide (s.flow > 0)
      let next : Option Scan :=
        if s.place.column = 0 ∧ ch = '%' then s.directive?
        else if s.place.atMark then
          s.documentMark? (if ch = '-' then .documentStart else .documentEnd)
        else if ch = '[' then s.openFlow? .flowSequenceStart
        else if ch = '\x7b' then s.openFlow? .flowMappingStart
        else if ch = ']' then s.closeFlow? .flowSequenceEnd
        else if ch = '\x7d' then s.closeFlow? .flowMappingEnd
        else if ch = ',' then s.flowEntry?
        else if ch = '-' ∧ startsGap rest then s.blockEntry?
        else if ch = '?' ∧ (inFlow ∨ startsGap rest) then s.key?
        else if ch = ':' ∧ (inFlow ∨ startsGap rest) then s.value?
        else if ch = '*' then
          s.node? fun c => (scanName? c.next).map fun p => (.alias p.1, p.2)
        else if ch = '&' then
          s.node? fun c => (scanName? c.next).map fun p => (.anchor p.1, p.2)
        else if ch = '!' then s.node? (scanTag? inFlow)
        else if ch = '|' ∧ !inFlow then s.block? true
        else if ch = '>' ∧ !inFlow then s.block? false
        else if ch = '\'' ∨ ch = '"' then
          s.node? fun c =>
            (quoted? (ch = '"') (c.rest.length + 1) [] c.next).map fun p => (.scalar p.1 false, p.2)
        else if startsPlain inFlow ch rest then s.plain?
        else none
      next.map (·, false)

def run? : Nat → Scan → Option Scan
  | 0, _ => none
  | fuel + 1, s =>
    match s.step? with
    | none => none
    | some (s, true) => some s
    | some (s, false) => run? fuel s

end Scan

def tokens? (text : List Char) : Option (List Token) :=
  if text.all isAllowed then
    (Scan.run? (text.length + 2) ⟨⟨text, 0, 0, 0⟩, [], 0, [], [none], true⟩).map fun s =>
      s.tokens.reverse
  else none

end Provisioning.Yaml
