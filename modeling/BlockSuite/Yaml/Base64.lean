import BlockSuite.Text.Split

/-!
Bytes in groups of six bits, each written as a letter, a digit or one of two signs. Other
characters are passed over, and an equals sign fills up the last group of four.
-/

namespace BlockSuite.Yaml.Base64

/-- The characters in the order of the bits they stand for. -/
def characters : List Char :=
  "ABCDEFGHIJKLMNOPQRSTUVWXYZabcdefghijklmnopqrstuvwxyz0123456789+/".toList

/-- The character that stands for six bits. -/
def character (bits : Nat) : Char := characters.getD bits '='

/-- The text of bytes. -/
def encode : List UInt8 → List Char
  | a :: b :: c :: rest =>
    let n := a.toNat * 65536 + b.toNat * 256 + c.toNat
    character (n / 262144) :: character (n / 4096 % 64) :: character (n / 64 % 64) ::
      character (n % 64) :: encode rest
  | [a, b] =>
    let n := a.toNat * 65536 + b.toNat * 256
    [character (n / 262144), character (n / 4096 % 64), character (n / 64 % 64), '=']
  | [a] =>
    let n := a.toNat * 65536
    [character (n / 262144), character (n / 4096 % 64), '=', '=']
  | [] => []

/-- The text of bytes, each 57 of them on a line of their own; the number bounds the lines. -/
def lines : Nat → List UInt8 → List Char
  | 0, _ => []
  | _, [] => []
  | n + 1, bs => encode (bs.take 57) ++ '\n' :: lines n (bs.drop 57)

/-- The six bits that a character stands for. -/
def bits? (c : Char) : Option Nat :=
  let n := c.toNat
  if 'A' ≤ c && c ≤ 'Z' then some (n - 65)
  else if 'a' ≤ c && c ≤ 'z' then some (n - 97 + 26)
  else if '0' ≤ c && c ≤ '9' then some (n - 48 + 52)
  else if c == '+' then some 62
  else if c == '/' then some 63
  else none

/-- Why a text stands for no bytes. -/
inductive Fault where
  | loneCharacter (characters : Nat)
  | padding
deriving Repr, DecidableEq

def Fault.text : Fault → String
  | loneCharacter n =>
    "Invalid base64-encoded string: number of data characters (" ++ Nat.repr n ++
      ") cannot be 1 more than a multiple of 4"
  | padding => "Incorrect padding"

/-- What is read of a text: the bytes, last first, how many characters of a group there are, the
bits they left over, and the signs that fill up the group. -/
structure Partial where
  bytes : List UInt8 := []
  place : Nat := 0
  left : Nat := 0
  pads : Nat := 0

/-- Reads a character that stands for six bits. -/
def Partial.add (p : Partial) (bits : Nat) : Partial :=
  match p.place with
  | 0 => ⟨p.bytes, 1, bits, 0⟩
  | 1 => ⟨(p.left * 4 + bits / 16).toUInt8 :: p.bytes, 2, bits % 16, 0⟩
  | 2 => ⟨(p.left * 16 + bits / 4).toUInt8 :: p.bytes, 3, bits % 4, 0⟩
  | _ => ⟨(p.left * 64 + bits).toUInt8 :: p.bytes, 0, 0, 0⟩

/-- The bytes of a text behind what is read of it. A group that is filled up ends the text. -/
def decodeFrom (p : Partial) : List Char → Except Fault (List UInt8)
  | [] =>
    match p.place with
    | 0 => .ok p.bytes.reverse
    | 1 => .error (.loneCharacter (p.bytes.length / 3 * 4 + 1))
    | _ => .error .padding
  | c :: rest =>
    if c == '=' then
      if 2 ≤ p.place then
        if 4 ≤ p.place + p.pads + 1 then .ok p.bytes.reverse
        else decodeFrom { p with pads := p.pads + 1 } rest
      else decodeFrom p rest
    else
      match bits? c with
      | some bits => decodeFrom (p.add bits) rest
      | none => decodeFrom p rest

/-- The bytes that a text stands for. -/
def decode (cs : List Char) : Except Fault (List UInt8) := decodeFrom {} cs

end BlockSuite.Yaml.Base64
