/-!
# Percent encoding — any text as a path segment

`Percent.encode` writes each byte of a text as a percent sign and two hexadecimal digits, so that
the result holds neither slashes nor question marks.  `Percent.decode?` reads such triples back and
takes everything else for itself, a percent sign without two digits included; it fails only if the
bytes that come out are not UTF-8.
-/

namespace CodeSessions
namespace Percent

def hexDigit (n : Nat) : Char :=
  if n < 10 then Char.ofNat (0x30 + n) else Char.ofNat (0x37 + n)

def hexValue? (b : UInt8) : Option UInt8 :=
  if 0x30 ≤ b ∧ b ≤ 0x39 then some (b - 0x30)
  else if 0x41 ≤ b ∧ b ≤ 0x46 then some (b - 0x37)
  else if 0x61 ≤ b ∧ b ≤ 0x66 then some (b - 0x57)
  else none

/-- The bytes that a string of bytes stands for. -/
def decodeBytes : List UInt8 → List UInt8
  | [] => []
  | 0x25 :: high :: low :: rest =>
      match hexValue? high, hexValue? low with
      | some h, some l => (h * 16 + l) :: decodeBytes rest
      | _, _ => 0x25 :: decodeBytes (high :: low :: rest)
  | b :: rest => b :: decodeBytes rest

def decode? (s : String) : Option String :=
  String.fromUTF8? (ByteArray.mk (decodeBytes s.toUTF8.toList).toArray)

def encodeByte (b : UInt8) : List Char :=
  ['%', hexDigit (b.toNat / 16), hexDigit (b.toNat % 16)]

def encode (s : String) : String :=
  String.ofList (s.toUTF8.toList.flatMap encodeByte)

end Percent
end CodeSessions
