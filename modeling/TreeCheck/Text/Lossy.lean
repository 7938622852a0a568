/-!
# Bytes shown as text

Bytes that are not UTF-8 can still be shown: what decodes is shown as it is, and every stretch that
cannot be part of a character, or is a character cut short, becomes one replacement character.
-/

set_option autoImplicit false

namespace TreeCheck.Text

def replacement : Char := '�'

/-- For the first byte of a longer character: its data bits, the least and the greatest second byte,
and the number of bytes that follow it. -/
def leadByte? (byte : Nat) : Option (Nat × Nat × Nat × Nat) :=
  if 0xc2 ≤ byte ∧ byte ≤ 0xdf then some (byte - 0xc0, 0x80, 0xbf, 1)
  else if byte = 0xe0 then some (0, 0xa0, 0xbf, 2)
  else if byte = 0xed then some (0xd, 0x80, 0x9f, 2)
  else if 0xe1 ≤ byte ∧ byte ≤ 0xef then some (byte - 0xe0, 0x80, 0xbf, 2)
  else if byte = 0xf0 then some (0, 0x90, 0xbf, 3)
  else if 0xf1 ≤ byte ∧ byte ≤ 0xf3 then some (byte - 0xf0, 0x80, 0xbf, 3)
  else if byte = 0xf4 then some (4, 0x80, 0x8f, 3)
  else none

/-- Reads the bytes after the first one, of which `missing` are left; the next must lie between
`least` and `greatest`. It stops, without taking it, at a byte that does not fit. -/
def followBytes (bits least greatest : Nat) : Nat → List UInt8 → Char × List UInt8
  | 0, rest => (Char.ofNat bits, rest)
  | missing + 1, byte :: rest =>
    if least ≤ byte.toNat ∧ byte.toNat ≤ greatest then
      followBytes (bits * 64 + (byte.toNat - 0x80)) 0x80 0xbf missing rest
    else (replacement, byte :: rest)
  | _ + 1, [] => (replacement, [])

def decodeLossy : Nat → List UInt8 → List Char
  | 0, _ | _, [] => []
  | limit + 1, byte :: rest =>
    if byte.toNat < 0x80 then Char.ofNat byte.toNat :: decodeLossy limit rest
    else
      match leadByte? byte.toNat with
      | none => replacement :: decodeLossy limit rest
      | some (bits, least, greatest, missing) =>
        let (char, rest) := followBytes bits least greatest missing rest
        char :: decodeLossy limit rest

def lossy (bytes : List UInt8) : String :=
  String.ofList (decodeLossy bytes.length bytes)

end TreeCheck.Text
