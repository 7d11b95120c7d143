/-!
# Reading bytes as text

Bytes that are no UTF-8 are read with a replacement character for every part that cannot be the
start of a character.
-/

namespace Scaffold.Text

def replacement : Char := Char.ofNat 0xFFFD

def isContinuation (b : UInt8) : Bool := 0x80 ≤ b && b ≤ 0xBF

/-- Whether the second byte can follow the first of a character of three bytes. -/
def startsThree (a b : UInt8) : Bool :=
  isContinuation b && 0xE0 ≤ a && a ≤ 0xEF && (a != 0xE0 || 0xA0 ≤ b) && (a != 0xED || b ≤ 0x9F)

/-- Whether the second byte can follow the first of a character of four bytes. -/
def startsFour (a b : UInt8) : Bool :=
  isContinuation b && 0xF0 ≤ a && a ≤ 0xF4 && (a != 0xF0 || 0x90 ≤ b) && (a != 0xF4 || b ≤ 0x8F)

/-- The character of a lead value and continuation bytes. -/
def assemble (lead : Nat) (rest : List UInt8) : Char :=
  Char.ofNat (rest.foldl (fun n b ↦ n * 64 + (b.toNat - 0x80)) lead)

/-- The first character of some bytes and the number of bytes it takes after the first one. -/
def firstChar (a : UInt8) (rest : List UInt8) : Char × Nat :=
  if a < 0x80 then (Char.ofNat a.toNat, 0)
  else
    match rest with
    | [] => (replacement, 0)
    | b :: rest =>
        if 0xC2 ≤ a && a ≤ 0xDF then
          if isContinuation b then (assemble (a.toNat - 0xC0) [b], 1) else (replacement, 0)
        else if startsThree a b then
          match rest with
          | c :: _ =>
              if isContinuation c then (assemble (a.toNat - 0xE0) [b, c], 2) else (replacement, 1)
          | [] => (replacement, 1)
        else if startsFour a b then
          match rest with
          | c :: d :: _ =>
              if !isContinuation c then (replacement, 1)
              else if isContinuation d then (assemble (a.toNat - 0xF0) [b, c, d], 3)
              else (replacement, 2)
          | [c] => if isContinuation c then (replacement, 2) else (replacement, 1)
          | [] => (replacement, 1)
        else (replacement, 0)

/-- Reads characters, skipping as many bytes first. -/
def decodeFrom : Nat → List UInt8 → List Char
  | _, [] => []
  | skip + 1, _ :: rest => decodeFrom skip rest
  | 0, a :: rest =>
      let (c, more) := firstChar a rest
      c :: decodeFrom more rest

/-- The text of some bytes, whatever they are. -/
def decodeLossy (bytes : ByteArray) : String :=
  match String.fromUTF8? bytes with
  | some s => s
  | none => String.ofList (decodeFrom 0 bytes.toList)

end Scaffold.Text
