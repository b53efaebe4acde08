/-!
# UTF-8

Bytes that are not UTF-8 have no text. Where such bytes must be shown all the same, each longest
piece of them that could have begun a character is shown as the replacement character.
-/

namespace Provisioning.Text

def encode (s : String) : List UInt8 :=
  s.toUTF8.data.toList

def decode? (bytes : List UInt8) : Option String :=
  String.fromUTF8? ⟨bytes.toArray⟩

theorem decode?_encode (s : String) : decode? (encode s) = some s := by
  have hbytes : (⟨(encode s).toArray⟩ : ByteArray) = s.toUTF8 := by simp [encode]
  rw [decode?, hbytes, String.fromUTF8?]
  exact dif_pos s.isValidUTF8

/-- How many bytes follow a leading byte, and the bounds of the first of them. -/
def following? (lead : UInt8) : Option (Nat × UInt8 × UInt8) :=
  if lead < 0x80 then some (0, 0, 0)
  else if lead < 0xc2 then none
  else if lead < 0xe0 then some (1, 0x80, 0xbf)
  else if lead = 0xe0 then some (2, 0xa0, 0xbf)
  else if lead = 0xed then some (2, 0x80, 0x9f)
  else if lead < 0xf0 then some (2, 0x80, 0xbf)
  else if lead = 0xf0 then some (3, 0x90, 0xbf)
  else if lead < 0xf4 then some (3, 0x80, 0xbf)
  else if lead = 0xf4 then some (3, 0x80, 0x8f)
  else none

/-- How many of at most `n` bytes continue a character, the first within the given bounds. -/
def continued : Nat → UInt8 × UInt8 → List UInt8 → Nat
  | 0, _, _ => 0
  | _, _, [] => 0
  | n + 1, (lo, hi), b :: rest =>
    if lo ≤ b ∧ b ≤ hi then continued n (0x80, 0xbf) rest + 1 else 0

/-- The text of some bytes, with the replacement character for what is not UTF-8. -/
def display (bytes : List UInt8) : String :=
  String.ofList (go bytes.length bytes)
where
  /-- Reads one character or one broken piece at a time. -/
  go : Nat → List UInt8 → List Char
    | 0, _ => []
    | _, [] => []
    | fuel + 1, b :: rest =>
      match following? b with
      | none => Char.ofNat 0xfffd :: go fuel rest
      | some (n, bounds) =>
        let taken := continued n bounds rest
        let piece := decode? (b :: rest.take taken)
        match piece with
        | some s => s.toList ++ go fuel (rest.drop taken)
        | none => Char.ofNat 0xfffd :: go fuel (rest.drop taken)

end Provisioning.Text
