import Provisioning.Toml.Scalar
import Provisioning.Toml.Table

/-!
# Reading TOML

A text is a sequence of lines: a header opens a table, an assignment adds a value to the open table.
A mark before the text is passed over. Values nest below `limit` levels.
-/

namespace Provisioning.Toml

mutual

def value? : Nat → Nat → List Char → Option (Tree × List Char)
  | 0, _, _ => none
  | _, _, [] => none
  | fuel + 1, depth, c :: rest =>
    if c = '"' ∨ c = '\'' then
      (string? (c :: rest)).map fun p => (.str (String.ofList p.1), p.2)
    else if c = '[' then
      match depth with
      | 0 => none
      | depth + 1 =>
        match skipLines rest.length rest with
        | ']' :: rest => some (.arr [], rest)
        | rest => (items? fuel depth rest).map fun p => (.arr p.1, p.2)
    else if c = '\x7b' then
      match depth with
      | 0 => none
      | depth + 1 =>
        match skipBlank rest with
        | '\x7d' :: rest => some (.obj [], rest)
        | rest => (pairs? fuel depth rest []).map fun p => (.obj (Item.entriesToTrees p.1), p.2)
    else
      match c :: rest with
      | 't' :: 'r' :: 'u' :: 'e' :: rest => some (.bool true, rest)
      | 'f' :: 'a' :: 'l' :: 's' :: 'e' :: rest => some (.bool false, rest)
      | cs => numeral? cs

/-- The items of a list up to its closing bracket; a comma may follow the last one. -/
def items? : Nat → Nat → List Char → Option (List Tree × List Char)
  | 0, _, _ => none
  | fuel + 1, depth, cs =>
    (value? fuel depth (skipLines cs.length cs)).bind fun p =>
      match skipLines p.2.length p.2 with
      | ']' :: rest => some ([p.1], rest)
      | ',' :: rest =>
        match skipLines rest.length rest with
        | ']' :: rest => some ([p.1], rest)
        | rest => (items? fuel depth rest).map fun q => (p.1 :: q.1, q.2)
      | _ => none

/-- The assignments of a table on one line up to its closing brace, added to its entries. -/
def pairs? : Nat → Nat → List Char → Entries → Option (Entries × List Char)
  | 0, _, _, _ => none
  | fuel + 1, depth, cs, entries =>
    (key? cs).bind fun k =>
      match k.2 with
      | '=' :: rest =>
        (value? fuel depth (skipBlank rest)).bind fun p =>
          (Entries.assign? k.1 p.1 entries).bind fun entries =>
            match skipBlank p.2 with
            | '\x7d' :: rest => some (entries, rest)
            | ',' :: rest => pairs? fuel depth rest entries
            | _ => none
      | _ => none

end

/-- The entries read so far, and the table that assignments add to. -/
structure State where
  entries : Entries := []
  path : List String := []

def State.assign? (s : State) (key : List String) (value : Tree) : Option State :=
  let edit : Entries.Edit := fun _ entries => Entries.assign? key value entries
  (Entries.editAt? false s.path edit .defined s.entries).map fun entries => { s with entries }

def assignment? (s : State) (cs : List Char) : Option (State × List Char) :=
  (key? cs).bind fun k =>
    match k.2 with
    | '=' :: rest =>
      (value? (2 * rest.length + 2) (limit - 1) (skipBlank rest)).bind fun p =>
        (lineRest? p.2).bind fun rest => (s.assign? k.1 p.1).map (·, rest)
    | _ => none

def header? (s : State) (cs : List Char) : Option (State × List Char) :=
  match cs with
  | '[' :: cs =>
    (key? cs).bind fun k =>
      match k.2 with
      | ']' :: ']' :: rest =>
        (lineRest? rest).bind fun rest =>
          (Entries.append? k.1 s.entries).map fun entries => (⟨entries, k.1⟩, rest)
      | _ => none
  | cs =>
    (key? cs).bind fun k =>
      match k.2 with
      | ']' :: rest =>
        (lineRest? rest).bind fun rest =>
          (Entries.define? k.1 s.entries).map fun entries => (⟨entries, k.1⟩, rest)
      | _ => none

def lines? : Nat → State → List Char → Option State
  | 0, s, cs => if skipBlank cs = [] then some s else none
  | fuel + 1, s, cs =>
    match skipBlank cs with
    | [] => some s
    | '[' :: rest => (header? s rest).bind fun p => lines? fuel p.1 p.2
    | '#' :: rest => (lineRest? ('#' :: rest)).bind fun rest => lines? fuel s rest
    | c :: rest =>
      match lineEnd? (c :: rest) with
      | some rest => lines? fuel s rest
      | none =>
        if c = '\r' then none
        else (assignment? s (c :: rest)).bind fun p => lines? fuel p.1 p.2

/-- The text without a mark at its start. -/
def dropMark : List Char → List Char
  | '\ufeff' :: rest => rest
  | cs => cs

def read? (text : List Char) : Option Tree :=
  (lines? (text.length + 1) {} (dropMark text)).map fun s => .obj (Item.entriesToTrees s.entries)

end Provisioning.Toml
