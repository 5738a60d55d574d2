import BracketCalc.Text.Quoted
/-!
# Reading UTF-8

Bytes are read as UTF-8 without overlong forms, surrogates or code points above
U+10FFFF.  The first byte that cannot be part of a character stops the reading,
and the fault tells which bytes of the broken character had been read.
-/

namespace BracketCalc.Utf8

/-- What is wrong with a byte sequence. -/
inductive Reason where
  | invalidStart
  | invalidContinuation
  | unexpectedEnd
  deriving DecidableEq, Repr

/-- A broken character: its first byte, the offset of that byte, and how many bytes of it fit
together. -/
structure Fault where
  reason : Reason
  lead : UInt8
  start : Nat
  length : Nat
  deriving DecidableEq, Repr

def Reason.message : Reason → Text
  | invalidStart => "invalid start byte".toList
  | invalidContinuation => "invalid continuation byte".toList
  | unexpectedEnd => "unexpected end of data".toList

/-- One byte is named by its value, several by the range of their offsets. -/
def Fault.message (fault : Fault) : Text :=
  let bytes :=
    if fault.length = 1 then
      "byte 0x".toList ++ Text.hexPlaces 2 fault.lead.toNat ++ " in position ".toList
        ++ Text.ofNat fault.start
    else
      "bytes in position ".toList ++ Text.ofNat fault.start ++ '-'
        :: Text.ofNat (fault.start + fault.length - 1)
  "'utf-8' codec can't decode ".toList ++ bytes ++ ": ".toList ++ fault.reason.message

/-- A character of which some bytes have been read: the bytes still owed, the range of the next one,
and the number, the first and the payload of those read. -/
structure Partial where
  owed : Nat
  low : UInt8
  high : UInt8
  taken : Nat
  lead : UInt8
  payload : Nat

/-- What a first byte announces. -/
inductive Start where
  | whole (c : Char)
  | more (rest : Partial)
  | invalid

/-- The bytes that follow a first byte: the second one is restricted after `E0`, `ED`, `F0` and
`F4`. -/
def start (lead : UInt8) : Start :=
  let more (owed : Nat) (low high : UInt8) (payload : Nat) : Start :=
    .more ⟨owed, low, high, 1, lead, payload⟩
  if lead < 0x80 then .whole (Char.ofNat lead.toNat)
  else if lead < 0xC2 then .invalid
  else if lead < 0xE0 then more 1 0x80 0xBF (lead.toNat - 0xC0)
  else if lead < 0xF0 then
    more 2 (if lead = 0xE0 then 0xA0 else 0x80) (if lead = 0xED then 0x9F else 0xBF)
      (lead.toNat - 0xE0)
  else if lead < 0xF5 then
    more 3 (if lead = 0xF0 then 0x90 else 0x80) (if lead = 0xF4 then 0x8F else 0xBF)
      (lead.toNat - 0xF0)
  else .invalid

/-- Reads on at the given offset, in the middle of a character or between two. -/
def decodeFrom (offset : Nat) : Option Partial → List UInt8 → Except Fault Text
  | none, [] => .ok []
  | some p, [] => .error ⟨.unexpectedEnd, p.lead, offset - p.taken, p.taken⟩
  | none, b :: rest =>
      match start b with
      | .whole c => (c :: ·) <$> decodeFrom (offset + 1) none rest
      | .more p => decodeFrom (offset + 1) (some p) rest
      | .invalid => .error ⟨.invalidStart, b, offset, 1⟩
  | some p, b :: rest =>
      if p.low ≤ b ∧ b ≤ p.high then
        let payload := p.payload * 64 + (b.toNat - 0x80)
        if p.owed ≤ 1 then (Char.ofNat payload :: ·) <$> decodeFrom (offset + 1) none rest
        else
          decodeFrom (offset + 1) (some ⟨p.owed - 1, 0x80, 0xBF, p.taken + 1, p.lead, payload⟩) rest
      else .error ⟨.invalidContinuation, p.lead, offset - p.taken, p.taken⟩

/-- The text that the bytes encode. -/
def decode (bytes : List UInt8) : Except Fault Text := decodeFrom 0 none bytes

end BracketCalc.Utf8
