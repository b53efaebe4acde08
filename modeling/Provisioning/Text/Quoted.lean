import Provisioning.Text.Property

/-!
# Quoted text in messages

A value that a message quotes stands between double quotes. The quote, the backslash and four
controls have short escapes; every other character without a visible form of its own is written by
its code point.
-/

namespace Provisioning.Text

def hexDigits (n : Nat) : List Char :=
  Nat.toDigits 16 n

/-- Whether a character cannot be read when it stands in a quoted text as it is. -/
def isHidden (c : Char) : Bool :=
  c.toNat ≥ 0x7f && (unprintable.contains c.toNat || extending.contains c.toNat) || c.toNat < 0x20

def quoteChar (c : Char) : List Char :=
  if c = '"' then ['\\', '"']
  else if c = '\\' then ['\\', '\\']
  else if c = '\t' then ['\\', 't']
  else if c = '\r' then ['\\', 'r']
  else if c = '\n' then ['\\', 'n']
  else if c.toNat = 0 then ['\\', '0']
  else if isHidden c then ['\\', 'u', '\x7b'] ++ hexDigits c.toNat ++ ['\x7d']
  else [c]

/-- A text between double quotes, with what cannot be read escaped. -/
def quoted (text : String) : String :=
  String.ofList ('"' :: (text.toList.flatMap quoteChar ++ ['"']))

end Provisioning.Text
