import Replica.Value
import Replica.Wire.Utf8

/-! # Writing payloads

Numbers are written least byte first, in the bytes of their width. A text or a list is preceded by
its length, of which sixteen bits are kept: longer ones are written in full under a length that has
wrapped.

Main definitions:
* `Wire.word`, `Wire.ofWord` — the little-endian digits of a number, and the number of some digits.
* `Wire.value`, `Wire.values` — a value and a counted list of values.
* `Wire.fields`, `Wire.args`, `Wire.calls`, `Wire.spawn` — the payloads. -/

namespace Replica.Wire

/-! ## Words -/

/-- The `width` low bytes of `n`, the least first. -/
def word : (width n : Nat) → Bytes
  | 0, _ => []
  | width + 1, n => .ofNat n :: word width (n / 256)

/-- The number that some bytes spell, the least first. -/
def ofWord : Bytes → Nat
  | [] => 0
  | byte :: rest => byte.toNat + 256 * ofWord rest

@[simp] theorem length_word (width n : Nat) : (word width n).length = width := by
  induction width generalizing n with
  | zero => rfl
  | succ width ih => simp [word, ih]

/-- A word of a given width is determined by its number. -/
theorem word_ofWord (bytes : Bytes) : word bytes.length (ofWord bytes) = bytes := by
  induction bytes with
  | nil => rfl
  | cons byte rest ih =>
    have lt : byte.toNat < 256 := byte.toNat_lt
    have tail : (byte.toNat + 256 * ofWord rest) / 256 = ofWord rest := by omega
    have head : UInt8.ofNat (byte.toNat + 256 * ofWord rest) = byte := by
      apply UInt8.toNat_inj.mp
      have low : (UInt8.ofNat (byte.toNat + 256 * ofWord rest)).toNat = _ % 256 :=
        UInt8.toNat_ofNat'
      omega
    simp [word, ofWord, head, tail, ih]

/-- A byte. -/
def u8 (n : UInt8) : Bytes := [n]

/-- An unsigned number of two bytes. -/
def u16 (n : UInt16) : Bytes := word 2 n.toNat

/-- An unsigned number of four bytes. -/
def u32 (n : UInt32) : Bytes := word 4 n.toNat

/-- An unsigned number of eight bytes. -/
def u64 (n : UInt64) : Bytes := word 8 n.toNat

/-- A signed number of four bytes. -/
def i32 (n : Int32) : Bytes := u32 n.toUInt32

/-- A signed number of eight bytes. -/
def i64 (n : Int64) : Bytes := u64 n.toUInt64

/-- The length of a list as it precedes the list. -/
def count (n : Nat) : Bytes := u16 (.ofNat n)

/-- A text after its length in bytes. -/
def string (text : String) : Bytes :=
  let bytes := Utf8.encode text
  count bytes.length ++ bytes

/-- A reference: the entity, then the offset. -/
def reference (r : Reference) : Bytes := i64 r.entity ++ u32 r.offset

/-! ## Values -/

mutual

/-- Writes a value before what is `done`, whose bytes stand last first. -/
def emit : Value → Bytes → Bytes
  | .int i, done => (0 :: i32 i).reverseAux done
  | .ref r, done => (1 :: reference r).reverseAux done
  | .null, done => 2 :: done
  | .struct vs, done => emitAll vs ((3 :: count vs.length).reverseAux done)
  | .array vs, done => emitAll vs ((4 :: count vs.length).reverseAux done)

/-- Writes values one after the other before what is `done`, whose bytes stand last first. -/
def emitAll : List Value → Bytes → Bytes
  | [], done => done
  | v :: vs, done => emitAll vs (emit v done)

end

/-- A **value**: a tag, then its number, its reference or its parts. -/
def value (v : Value) : Bytes := (emit v []).reverse

/-- A counted list of values. -/
def values (vs : List Value) : Bytes := count vs.length ++ (emitAll vs []).reverse

mutual

theorem emit_eq_append : (v : Value) → (done : Bytes) → emit v done = emit v [] ++ done
  | .int _, _ | .ref _, _ => by simp [emit, List.reverseAux_eq]
  | .null, _ => rfl
  | .struct vs, done => by
    rw [emit, emit, emitAll_eq_append vs, emitAll_eq_append vs (List.reverseAux _ [])]
    simp [List.reverseAux_eq]
  | .array vs, done => by
    rw [emit, emit, emitAll_eq_append vs, emitAll_eq_append vs (List.reverseAux _ [])]
    simp [List.reverseAux_eq]

theorem emitAll_eq_append : (vs : List Value) → (done : Bytes) →
    emitAll vs done = emitAll vs [] ++ done
  | [], _ => rfl
  | v :: vs, done => by
    rw [emitAll, emitAll, emitAll_eq_append vs (emit v done), emitAll_eq_append vs (emit v []),
      emit_eq_append v done]
    simp

end

theorem reverse_emitAll (vs : List Value) : (emitAll vs []).reverse = vs.flatMap value := by
  induction vs with
  | nil => rfl
  | cons v vs ih => rw [emitAll, emitAll_eq_append]; simp [ih, value]

@[simp] theorem values_eq (vs : List Value) : values vs = count vs.length ++ vs.flatMap value := by
  rw [values, reverse_emitAll]

@[simp] theorem value_int (i : Int32) : value (.int i) = 0 :: i32 i := by
  simp [value, emit, List.reverseAux_eq]

@[simp] theorem value_ref (r : Reference) : value (.ref r) = 1 :: reference r := by
  simp [value, emit, List.reverseAux_eq]

@[simp] theorem value_null : value .null = [2] := rfl

@[simp] theorem value_struct (vs : List Value) : value (.struct vs) = 3 :: values vs := by
  rw [value, emit, emitAll_eq_append, values]
  simp [List.reverseAux_eq]

@[simp] theorem value_array (vs : List Value) : value (.array vs) = 4 :: values vs := by
  rw [value, emit, emitAll_eq_append, values]
  simp [List.reverseAux_eq]

/-! ## Payloads -/

/-- One assignment: the field, its property and the value. -/
def assignment (a : Assignment) : Bytes := u32 a.offset ++ u16 a.rep ++ value a.value

/-- A **property payload**: a counted list of assignments. -/
def fields (as : List Assignment) : Bytes := count as.length ++ as.flatMap assignment

/-- An **argument payload**: a counted list of values. -/
def args (vs : List Value) : Bytes := values vs

/-- One call: the function and its arguments. -/
def call (c : Call) : Bytes := u32 c.function ++ values c.args

/-- A **multicast payload**: a counted list of calls. -/
def calls (cs : List Call) : Bytes := count cs.length ++ cs.flatMap call

/-- A text that may be absent: a flag, then the text. -/
def optional : Option String → Bytes
  | none => [0]
  | some text => 1 :: string text

/-- **Spawn data**: class, place, stable path and container. The orientation does not travel. -/
def spawn (s : Spawn) : Bytes :=
  string s.className ++ u64 s.location.x ++ u64 s.location.y ++ u64 s.location.z
    ++ optional s.stablePath ++ optional (s.container.map Container.path)

end Replica.Wire
