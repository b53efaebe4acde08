import Provisioning.Tree

/-!
# The compact JSON text of a tree

Nothing stands between the parts but the punctuation. Inside a string the quote, the backslash and
the controls below the space are escaped, five of them by a letter, and nothing else is.
-/

namespace Provisioning.Json

def hexDigit (n : Nat) : Char :=
  if n < 10 then Char.ofNat (n + 48) else Char.ofNat (n + 87)

def escape (c : Char) : List Char :=
  if c = '"' then ['\\', '"']
  else if c = '\\' then ['\\', '\\']
  else if c = '\x08' then ['\\', 'b']
  else if c = '\x0c' then ['\\', 'f']
  else if c = '\n' then ['\\', 'n']
  else if c = '\r' then ['\\', 'r']
  else if c = '\t' then ['\\', 't']
  else if c.toNat < 0x20 then ['\\', 'u', '0', '0', hexDigit (c.toNat / 16), hexDigit (c.toNat % 16)]
  else [c]

def string (s : String) : List Char :=
  '"' :: (s.toList.flatMap escape ++ ['"'])

mutual

def text : Tree → List Char
  | .null => ['n', 'u', 'l', 'l']
  | .bool true => ['t', 'r', 'u', 'e']
  | .bool false => ['f', 'a', 'l', 's', 'e']
  | .num n => n.text
  | .str s => string s
  | .arr items => '[' :: (itemsText items ++ [']'])
  | .obj entries => '\x7b' :: (entriesText entries ++ ['\x7d'])

def itemsText : List Tree → List Char
  | [] => []
  | t :: rest => text t ++ moreItems rest

/-- The compact texts of items that follow others, a comma before each. -/
def moreItems : List Tree → List Char
  | [] => []
  | t :: rest => ',' :: (text t ++ moreItems rest)

def entriesText : List (String × Tree) → List Char
  | [] => []
  | (k, t) :: rest => string k ++ ':' :: (text t ++ moreEntries rest)

def moreEntries : List (String × Tree) → List Char
  | [] => []
  | (k, t) :: rest => ',' :: (string k ++ ':' :: (text t ++ moreEntries rest))

end

def compact (t : Tree) : String :=
  String.ofList (text t)

end Provisioning.Json
