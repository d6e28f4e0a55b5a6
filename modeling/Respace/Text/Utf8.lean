/-! Texts as bytes. A text is stored in UTF-8; bytes that are no UTF-8 are refused at the first sequence
    that is not well formed, which is named by its place and by what is wrong with it. -/

namespace Respace.Text

/-- What is wrong with a sequence of bytes. -/
inductive ByteFault where
  | invalidStart
  | invalidContinuation
  | unexpectedEnd
  deriving DecidableEq

/-- A sequence of `count` bytes, the first of them `byte` at `position`, that encodes no character. -/
structure DecodeError where
  fault : ByteFault
  byte : UInt8
  position : Nat
  count : Nat
  deriving DecidableEq

def ByteFault.message : ByteFault → String
  | .invalidStart => "invalid start byte"
  | .invalidContinuation => "invalid continuation byte"
  | .unexpectedEnd => "unexpected end of data"

/-- A byte as two hexadecimal digits. -/
def byteHex (b : UInt8) : String :=
  String.ofList [Nat.digitChar (b.toNat / 16), Nat.digitChar (b.toNat % 16)]

/-- The error in words; a single byte is shown, a longer sequence is named by its ends. -/
def DecodeError.message (e : DecodeError) : String :=
  let place :=
    if e.count = 1 then s!"byte 0x{byteHex e.byte} in position {e.position}"
    else s!"bytes in position {e.position}-{e.position + e.count - 1}"
  s!"'utf-8' codec can't decode {place}: {e.fault.message}"

/-- The bytes that may follow each first byte of a longer sequence: how many in all, and the least and
    greatest second byte. -/
def sequenceOf? (b : UInt8) : Option (Nat × UInt8 × UInt8) :=
  if 0xc2 ≤ b && b ≤ 0xdf then some (1, 0x80, 0xbf)
  else if b == 0xe0 then some (2, 0xa0, 0xbf)
  else if b == 0xed then some (2, 0x80, 0x9f)
  else if 0xe1 ≤ b && b ≤ 0xef then some (2, 0x80, 0xbf)
  else if b == 0xf0 then some (3, 0x90, 0xbf)
  else if b == 0xf4 then some (3, 0x80, 0x8f)
  else if 0xf1 ≤ b && b ≤ 0xf3 then some (3, 0x80, 0xbf)
  else none

/-- Reads the bytes that `n` places still need; `seen` counts those read. Gives what is left, or the
    fault and the number of bytes that were good. -/
def tails (lo hi : UInt8) : Nat → Nat → List UInt8 → Except (ByteFault × Nat) (List UInt8)
  | 0, _, bs => .ok bs
  | _ + 1, seen, [] => .error (.unexpectedEnd, seen)
  | n + 1, seen, b :: bs =>
    if lo ≤ b && b ≤ hi then tails 0x80 0xbf n (seen + 1) bs
    else .error (.invalidContinuation, seen)

/-- The first sequence that is not well formed, from `position` on. `fuel` bounds the number of
    sequences; the number of bytes is enough. -/
def firstFault? : (fuel : Nat) → (position : Nat) → List UInt8 → Option DecodeError
  | 0, _, _ => none
  | _ + 1, _, [] => none
  | fuel + 1, position, b :: bs =>
    if b < 0x80 then firstFault? fuel (position + 1) bs
    else match sequenceOf? b with
      | none => some ⟨.invalidStart, b, position, 1⟩
      | some (n, lo, hi) =>
        match tails lo hi n 1 bs with
        | .ok rest => firstFault? fuel (position + n + 1) rest
        | .error (fault, count) => some ⟨fault, b, position, count⟩

/-- The bytes of a text. -/
def encode (s : String) : ByteArray := s.toUTF8

/-- The text that bytes encode. -/
def decode (bytes : ByteArray) : Except DecodeError String :=
  match String.fromUTF8? bytes with
  | some s => .ok s
  | none =>
    .error ((firstFault? bytes.size 0 bytes.toList).getD ⟨.unexpectedEnd, 0, bytes.size, 1⟩)

/-- Reading back what was written gives the text. -/
theorem decode_encode (s : String) : decode (encode s) = .ok s := by
  have h : String.fromUTF8? s.toUTF8 = some s := by
    simp only [String.fromUTF8?]
    split
    · rfl
    · next hv => exact absurd s.isValidUTF8 (by simpa using hv)
  simp only [decode, encode, h]

def byteSize (s : List Char) : Nat := s.foldr (fun c n => c.utf8Size + n) 0

end Respace.Text
