import Replica.Ident

/-! # Text on the wire

Text travels in UTF-8. A byte sequence that is not UTF-8 is described by its first flaw: where the
last whole character ends, and how many of the following bytes still begin a character.

Main definitions:
* `Utf8.encode`, `Utf8.decode` — a text and its bytes.
* `Utf8.Flaw`, `Utf8.firstFlaw` — why bytes are refused.
* `Utf8.followers` — which bytes may follow a lead byte. -/

namespace Replica.Utf8

/-- Bounds of one byte, both included. -/
structure Bounds where
  /-- The least byte allowed. -/
  least : UInt8
  /-- The greatest byte allowed. -/
  greatest : UInt8

/-- A byte that continues a character where nothing narrower is required. -/
def continuation : Bounds := ⟨0x80, 0xBF⟩

/-- Whether a byte lies within bounds. -/
def Bounds.admits (b : Bounds) (byte : UInt8) : Bool := b.least ≤ byte && byte ≤ b.greatest

/-- What has to follow a lead byte; nothing if no character begins with `lead`. The narrower bounds
exclude long spellings, surrogates and numbers beyond the last character. -/
def followers (lead : UInt8) : Option (List Bounds) :=
  if lead ≤ 0x7F then some []
  else if lead ≤ 0xC1 then none
  else if lead ≤ 0xDF then some [continuation]
  else if lead = 0xE0 then some [⟨0xA0, 0xBF⟩, continuation]
  else if lead = 0xED then some [⟨0x80, 0x9F⟩, continuation]
  else if lead ≤ 0xEF then some [continuation, continuation]
  else if lead = 0xF0 then some [⟨0x90, 0xBF⟩, continuation, continuation]
  else if lead ≤ 0xF3 then some [continuation, continuation, continuation]
  else if lead = 0xF4 then some [⟨0x80, 0x8F⟩, continuation, continuation]
  else none

/-- A **flaw**: why some bytes are no text. -/
inductive Flaw where
  /-- The `length` bytes at `start` begin no character that could continue as the input does. -/
  | wrong (start length : Nat)
  /-- The input ends inside the character at `start`. -/
  | cut (start : Nat)
deriving DecidableEq

/-- The wording of a flaw. -/
def Flaw.message : Flaw → String
  | .wrong start length => s!"invalid utf-8 sequence of {length} bytes from index {start}"
  | .cut start => s!"incomplete utf-8 byte sequence from index {start}"

/-- Reads on inside the character at `start`, with `seen` bytes read and the bytes `due` to come. -/
def flawFrom (start seen : Nat) (due : List Bounds) : Bytes → Flaw
  | [] => .cut start
  | byte :: rest =>
    match due with
    | bounds :: due =>
      if bounds.admits byte then flawFrom start (seen + 1) due rest else .wrong start seen
    | [] =>
      match followers byte with
      | some due => flawFrom (start + seen) 1 due rest
      | none => .wrong (start + seen) 1

/-- The **first flaw** of bytes that are no text. -/
def firstFlaw (bytes : Bytes) : Flaw := flawFrom 0 0 [] bytes

/-- The bytes of a text. -/
def encode (text : String) : Bytes := text.toUTF8.data.toList

/-- The text of some bytes, or their first flaw. -/
def decode (bytes : Bytes) : Except Flaw String :=
  match String.fromUTF8? ⟨bytes.toArray⟩ with
  | some text => .ok text
  | none => .error (firstFlaw bytes)

/-- Reading gives back what was written. -/
@[simp] theorem decode_encode (text : String) : decode (encode text) = .ok text := by
  simp [decode, encode, String.fromUTF8?, String.fromUTF8, text.isValidUTF8]

/-- Only the bytes of a text are read as that text. -/
theorem encode_of_decode {bytes : Bytes} {text : String} (h : decode bytes = .ok text) :
    encode text = bytes := by
  unfold decode at h
  split at h
  · rename_i read
    cases h
    simp only [String.fromUTF8?, Option.dite_none_right_eq_some] at read
    obtain ⟨valid, read⟩ := read
    cases read
    simp [encode, String.fromUTF8]
  · cases h

end Replica.Utf8
