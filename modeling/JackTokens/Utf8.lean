import JackTokens.Decimal

namespace JackTokens

/-- Why the bytes at the front of an input form no character. -/
inductive Malformed where
  /-- The first byte begins no character. -/
  | lead
  /-- The input ends before the bytes that the first one asks for. -/
  | truncated
  /-- The bytes are there, but no more than the first `readable` of them begin a character. -/
  | sequence (readable : Nat)
deriving DecidableEq

def Malformed.message : Malformed → String
  | .lead => "invalid UTF-8 lead byte"
  | .truncated => "truncated UTF-8 sequence at end of input"
  | .sequence readable =>
    "invalid utf-8 sequence of " ++ decimal readable ++ " bytes from index 0"

structure ByteRange where
  low : UInt8
  high : UInt8

def ByteRange.contains (range : ByteRange) (byte : UInt8) : Bool :=
  range.low ≤ byte && byte ≤ range.high

/-- What any byte after the second of a character may be. -/
def ByteRange.tail : ByteRange :=
  ⟨0x80, 0xBF⟩

/-- The bytes that may follow `lead` in a character, `none` if `lead` begins no character. The
second byte is narrower after E0 and F0, where a shorter form exists, after ED, where surrogates
would be, and after F4, where the code points end. -/
def trailing? (lead : UInt8) : Option (List ByteRange) :=
  if lead ≤ 0x7F then some []
  else if lead < 0xC2 then none
  else if lead ≤ 0xDF then some [.tail]
  else if lead = 0xE0 then some [⟨0xA0, 0xBF⟩, .tail]
  else if lead = 0xED then some [⟨0x80, 0x9F⟩, .tail]
  else if lead ≤ 0xEF then some [.tail, .tail]
  else if lead = 0xF0 then some [⟨0x90, 0xBF⟩, .tail, .tail]
  else if lead ≤ 0xF3 then some [.tail, .tail, .tail]
  else if lead = 0xF4 then some [⟨0x80, 0x8F⟩, .tail, .tail]
  else none

/-- How many bytes at the front of a list lie in the ranges that belong to them. -/
def matching : List ByteRange → List UInt8 → Nat
  | range :: ranges, byte :: bytes =>
    if range.contains byte then matching ranges bytes + 1 else 0
  | _, _ => 0

/-- The character that `lead` and the bytes after it form, given the ranges for those bytes. -/
def decodeSequence (lead : UInt8) (ranges : List ByteRange) (rest : List UInt8) :
    Except Malformed Char :=
  match (lead :: rest).toByteArray.utf8DecodeChar? 0 with
  | some c => .ok c
  | none => .error (.sequence (matching ranges rest + 1))

def encode (cs : List Char) : List UInt8 :=
  cs.flatMap String.utf8EncodeChar

end JackTokens
