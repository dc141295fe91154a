import Mathlib.Algebra.Group.Nat.Defs
import Replica.Wire.Reader

/-! # Readers undo writers

Each reader accepts what its writer writes and nothing else. Both directions are one equivalence,
so a reader that is put together from others is described by rewriting with what is known of its
parts. Lists count to `2 ^ 16`, and a value travels unharmed if all lists inside it do.

Main definitions:
* `Wire.Reader.Exact` — a reader that accepts exactly what a writer writes.
* `Value.IsWritable` — a value all of whose lists can be counted.
* `Wire.decodeFields_eq_ok`, `Wire.decodeValue_eq_ok`, `Wire.decodeArgs_eq_ok`,
  `Wire.decodeCalls_eq_ok` — what the payload readers accept. -/

namespace Replica

/-! ## Values that can be written -/

/-- The number of items that a list must stay below for its count to be kept in full. -/
def Wire.countLimit : Nat := 65536

mutual

/-- A value is **writable** if all lists inside it can be counted. -/
def Value.IsWritable : Value → Prop
  | .int _ | .ref _ | .null => True
  | .struct vs | .array vs => vs.length < Wire.countLimit ∧ Value.AllWritable vs

/-- All of some values are writable. -/
def Value.AllWritable : List Value → Prop
  | [] => True
  | v :: vs => v.IsWritable ∧ Value.AllWritable vs

end

/-- All values can be written just if each can. -/
theorem Value.allWritable_iff {vs : List Value} :
    Value.AllWritable vs ↔ ∀ v ∈ vs, v.IsWritable := by
  induction vs with
  | nil => simp [AllWritable]
  | cons v vs ih => simp [AllWritable, ih]

/-- A list of values is writable as a whole if it can be counted and its items are writable. -/
def Value.ListWritable (vs : List Value) : Prop :=
  vs.length < Wire.countLimit ∧ ∀ v ∈ vs, v.IsWritable

@[simp] theorem Value.isWritable_struct {vs : List Value} :
    (Value.struct vs).IsWritable ↔ Value.ListWritable vs := by
  rw [IsWritable, allWritable_iff, ListWritable]

@[simp] theorem Value.isWritable_array {vs : List Value} :
    (Value.array vs).IsWritable ↔ Value.ListWritable vs := by
  rw [IsWritable, allWritable_iff, ListWritable]

/-! ## The numbers of words -/

namespace Wire

/-- A word keeps the low bytes of its number. -/
theorem ofWord_word (width n : Nat) : ofWord (word width n) = n % 256 ^ width := by
  induction width generalizing n with
  | zero => simp [word, ofWord, Nat.mod_one]
  | succ width ih =>
    have split : 256 ^ (width + 1) = 256 * 256 ^ width := Nat.pow_succ'
    have low : (UInt8.ofNat n).toNat = n % 256 := UInt8.toNat_ofNat'
    rw [word, ofWord, ih, low, split, Nat.mod_mul]

/-- A word is smaller than the power that its width allows. -/
theorem ofWord_lt (bytes : Bytes) : ofWord bytes < 256 ^ bytes.length := by
  have positive : 0 < 256 ^ bytes.length := Nat.pow_pos (by decide)
  rw [← word_ofWord bytes, ofWord_word]
  simpa using Nat.mod_lt (ofWord bytes) positive

end Wire

namespace Wire.Reader

variable {α β : Type}

/-! ## Exact readers -/

/-- A reader is **exact** for a writer if, on at most `n` bytes, it accepts just what the writer
makes of the items that satisfy `P`, and consumes just that. -/
def Exact (n : Nat) (reader : Reader α) (write : α → Bytes) (P : α → Prop) : Prop :=
  ∀ (c : Cursor) (a : α) (c' : Cursor), c.rest.length ≤ n →
    (reader c = .ok a c' ↔
      P a ∧ c.rest = write a ++ c'.rest ∧ c'.position = c.position + (write a).length)

/-- What a sequence of two readers accepts. -/
theorem bind_eq_ok {x : Reader α} {f : α → Reader β} {c c'' : Cursor} {b : β} :
    (x >>= f) c = .ok b c'' ↔ ∃ a c', x c = .ok a c' ∧ f a c' = .ok b c'' := by
  show EStateM.bind x f c = _ ↔ _
  unfold EStateM.bind
  cases x c with
  | ok a c' =>
    constructor
    · exact fun h => ⟨a, c', rfl, h⟩
    · rintro ⟨_, _, ⟨⟩, h⟩
      exact h
  | error flaw c' => simp

/-- What a reader that reads nothing accepts. -/
theorem pure_eq_ok {c c' : Cursor} {a b : α} :
    (pure a : Reader α) c = .ok b c' ↔ a = b ∧ c = c' := by
  show EStateM.Result.ok a c = _ ↔ _
  simp

/-- What a reader followed by a function accepts. -/
theorem map_eq_ok {x : Reader α} {f : α → β} {c c' : Cursor} {b : β} :
    (do return f (← x) : Reader β) c = .ok b c' ↔ ∃ a, x c = .ok a c' ∧ f a = b := by
  rw [bind_eq_ok]
  constructor
  · rintro ⟨a, c₁, read, rest⟩
    obtain ⟨rfl, rfl⟩ := pure_eq_ok.mp rest
    exact ⟨a, read, rfl⟩
  · rintro ⟨a, read, rfl⟩
    exact ⟨a, c', read, pure_eq_ok.mpr ⟨rfl, rfl⟩⟩

/-- A cursor has no more to come after a successful read. -/
theorem Exact.length_le {n : Nat} {reader : Reader α} {write : α → Bytes} {P : α → Prop}
    (h : Exact n reader write P) {c c' : Cursor} {a : α} (small : c.rest.length ≤ n)
    (read : reader c = .ok a c') : c'.rest.length ≤ c.rest.length := by
  obtain ⟨-, rest, -⟩ := (h c a c' small).mp read
  simp [rest]

/-- A reader that measures its input first is exact if it is so for every measure. -/
theorem exact_measured {reader : Nat → Reader α} {write : α → Bytes} {P : α → Prop}
    (h : ∀ n, Exact n (reader n) write P) (n : Nat) :
    Exact n (fun c => reader c.rest.length c) write P :=
  fun c a c' _ => h c.rest.length c a c' (Nat.le_refl _)

/-! ## Words -/

/-- Bytes are read just if they come next. -/
theorem bytes_eq_ok {n : Nat} {c c' : Cursor} {read : Bytes} :
    bytes n c = .ok read c' ↔
      read.length = n ∧ c.rest = read ++ c'.rest ∧ c'.position = c.position + n := by
  obtain ⟨position, rest⟩ := c
  obtain ⟨position', rest'⟩ := c'
  simp only [bytes, List.splitAt_eq]
  split
  · rename_i full
    simp only [EStateM.Result.ok.injEq, Cursor.mk.injEq]
    constructor
    · rintro ⟨rfl, rfl, rfl⟩
      exact ⟨full, (List.take_append_drop n rest).symm, rfl⟩
    · rintro ⟨rfl, rfl, rfl⟩
      simp
  · rename_i short
    simp only [reduceCtorEq, false_iff]
    rintro ⟨rfl, rfl, -⟩
    exact short (by simp)

/-- A word is read just if its bytes come next. -/
theorem word_eq_ok {width : Nat} {c c' : Cursor} {n : Nat} :
    word width c = .ok n c' ↔
      n < 256 ^ width ∧ c.rest = Wire.word width n ++ c'.rest ∧
        c'.position = c.position + width := by
  rw [word, map_eq_ok]
  constructor
  · rintro ⟨read, ok, rfl⟩
    obtain ⟨rfl, rest, position⟩ := bytes_eq_ok.mp ok
    exact ⟨ofWord_lt read, by rw [rest, word_ofWord], position⟩
  · rintro ⟨small, rest, position⟩
    refine ⟨Wire.word width n, bytes_eq_ok.mpr ⟨length_word width n, rest, position⟩, ?_⟩
    rw [ofWord_word, Nat.mod_eq_of_lt small]

/-- A byte is read just if it comes next. -/
theorem u8_eq_ok {c c' : Cursor} {x : UInt8} :
    u8 c = .ok x c' ↔ c.rest = x :: c'.rest ∧ c'.position = c.position + 1 := by
  rw [u8, map_eq_ok]
  constructor
  · rintro ⟨n, ok, rfl⟩
    exact (word_eq_ok.mp ok).2
  · rintro ⟨rest, position⟩
    refine ⟨x.toNat, word_eq_ok.mpr ⟨x.toNat_lt, ?_, position⟩, UInt8.ofNat_toNat⟩
    simpa [Wire.word] using rest

/-- A number of 16 bits is read just if its bytes come next. -/
theorem u16_eq_ok {c c' : Cursor} {x : UInt16} :
    u16 c = .ok x c' ↔ c.rest = Wire.u16 x ++ c'.rest ∧ c'.position = c.position + 2 := by
  rw [u16, map_eq_ok]
  constructor
  · rintro ⟨n, ok, rfl⟩
    obtain ⟨small, rest, position⟩ := word_eq_ok.mp ok
    rw [Wire.u16, UInt16.toNat_ofNat_of_lt' small]
    exact ⟨rest, position⟩
  · rintro ⟨rest, position⟩
    exact ⟨x.toNat, word_eq_ok.mpr ⟨x.toNat_lt, rest, position⟩, UInt16.ofNat_toNat⟩

/-- A number of 32 bits is read just if its bytes come next. -/
theorem u32_eq_ok {c c' : Cursor} {x : UInt32} :
    u32 c = .ok x c' ↔ c.rest = Wire.u32 x ++ c'.rest ∧ c'.position = c.position + 4 := by
  rw [u32, map_eq_ok]
  constructor
  · rintro ⟨n, ok, rfl⟩
    obtain ⟨small, rest, position⟩ := word_eq_ok.mp ok
    rw [Wire.u32, UInt32.toNat_ofNat_of_lt' small]
    exact ⟨rest, position⟩
  · rintro ⟨rest, position⟩
    exact ⟨x.toNat, word_eq_ok.mpr ⟨x.toNat_lt, rest, position⟩, UInt32.ofNat_toNat⟩

/-- A number of 64 bits is read just if its bytes come next. -/
theorem u64_eq_ok {c c' : Cursor} {x : UInt64} :
    u64 c = .ok x c' ↔ c.rest = Wire.u64 x ++ c'.rest ∧ c'.position = c.position + 8 := by
  rw [u64, map_eq_ok]
  constructor
  · rintro ⟨n, ok, rfl⟩
    obtain ⟨small, rest, position⟩ := word_eq_ok.mp ok
    rw [Wire.u64, UInt64.toNat_ofNat_of_lt' small]
    exact ⟨rest, position⟩
  · rintro ⟨rest, position⟩
    exact ⟨x.toNat, word_eq_ok.mpr ⟨x.toNat_lt, rest, position⟩, UInt64.ofNat_toNat⟩

/-- A signed number of 32 bits is read just if its bytes come next. -/
theorem i32_eq_ok {c c' : Cursor} {x : Int32} :
    i32 c = .ok x c' ↔ c.rest = Wire.i32 x ++ c'.rest ∧ c'.position = c.position + 4 := by
  rw [i32, map_eq_ok]
  constructor
  · rintro ⟨n, ok, rfl⟩
    exact u32_eq_ok.mp ok
  · rintro ⟨rest, position⟩
    exact ⟨x.toUInt32, u32_eq_ok.mpr ⟨rest, position⟩, rfl⟩

/-- A signed number of 64 bits is read just if its bytes come next. -/
theorem i64_eq_ok {c c' : Cursor} {x : Int64} :
    i64 c = .ok x c' ↔ c.rest = Wire.i64 x ++ c'.rest ∧ c'.position = c.position + 8 := by
  rw [i64, map_eq_ok]
  constructor
  · rintro ⟨n, ok, rfl⟩
    exact u64_eq_ok.mp ok
  · rintro ⟨rest, position⟩
    exact ⟨x.toUInt64, u64_eq_ok.mpr ⟨rest, position⟩, rfl⟩

/-- A reference is read just if its bytes come next. -/
theorem reference_eq_ok {c c' : Cursor} {r : Reference} :
    reference c = .ok r c' ↔
      c.rest = Wire.reference r ++ c'.rest ∧ c'.position = c.position + 12 := by
  simp only [reference, bind_eq_ok, pure_eq_ok, i64_eq_ok, u32_eq_ok]
  constructor
  · rintro ⟨entity, c₁, ⟨rest₁, position₁⟩, offset, c₂, ⟨rest₂, position₂⟩, rfl, rfl⟩
    simp [Wire.reference, rest₁, rest₂, position₁, position₂]
  · rintro ⟨rest, position⟩
    refine ⟨r.entity, ⟨c.position + 8, Wire.u32 r.offset ++ c'.rest⟩, ⟨?_, rfl⟩,
      r.offset, c', ⟨rfl, position⟩, rfl, rfl⟩
    simpa [Wire.reference] using rest

/-! ## Lists -/

/-- What a reader of several items accepts behind those that are done. -/
theorem itemsOnto_eq_ok {n : Nat} {item : Reader α} {write : α → Bytes} {P : α → Prop}
    (exact : Exact n item write P) {count : Nat} {done items : List α} {c c' : Cursor}
    (small : c.rest.length ≤ n) :
    itemsOnto item count done c = .ok items c' ↔
      ∃ read, items = done.reverse ++ read ∧ read.length = count ∧ (∀ a ∈ read, P a) ∧
        c.rest = read.flatMap write ++ c'.rest ∧
        c'.position = c.position + (read.flatMap write).length := by
  -- The induction runs over the items still to be read; those that are done only pile up.
  induction count generalizing done c with
  | zero =>
    rw [itemsOnto, pure_eq_ok]
    constructor
    · rintro ⟨rfl, rfl⟩
      exact ⟨[], by simp⟩
    · rintro ⟨read, rfl, none, -, rest, position⟩
      rw [List.length_eq_zero_iff] at none
      subst none
      cases c; cases c'
      simp_all
  | succ count ih =>
    rw [itemsOnto, bind_eq_ok]
    constructor
    · rintro ⟨a, c₁, head, tail⟩
      have less := Nat.le_trans (exact.length_le small head) small
      obtain ⟨good, rest, position⟩ := (exact c a c₁ small).mp head
      obtain ⟨read, rfl, length, goods, rest₁, position₁⟩ := (ih less).mp tail
      refine ⟨a :: read, by simp, by simp [length], by simp [good]; exact goods, ?_, ?_⟩
      · simp [rest, rest₁]
      · simp [position, position₁, Nat.add_assoc]
    · rintro ⟨read, rfl, length, goods, rest, position⟩
      obtain ⟨a, read, rfl⟩ : ∃ a tail, read = a :: tail :=
        List.exists_cons_of_length_eq_add_one length
      have head := (exact c a ⟨c.position + (write a).length, read.flatMap write ++ c'.rest⟩
        small).mpr ⟨goods a (by simp), by simpa using rest, rfl⟩
      refine ⟨a, _, head, (ih (Nat.le_trans (exact.length_le small head) small)).mpr
        ⟨read, by simp, by simpa using length, fun b mem => goods b (by simp [mem]), rfl, ?_⟩⟩
      simp [position, Nat.add_assoc]

/-- A count takes two bytes. -/
theorem length_count (n : Nat) : (Wire.count n).length = 2 := length_word 2 _

/-- A reader of counted lists is exact if the reader of its items is. -/
theorem Exact.counted {n : Nat} {item : Reader α} {write : α → Bytes} {P : α → Prop}
    (exact : Exact n item write P) :
    Exact n (Reader.counted item) (fun as => Wire.count as.length ++ as.flatMap write)
      fun as => as.length < Wire.countLimit ∧ ∀ a ∈ as, P a := by
  intro c items c' small
  rw [Reader.counted, bind_eq_ok]
  constructor
  · rintro ⟨k, c₁, head, tail⟩
    obtain ⟨rest, position⟩ := u16_eq_ok.mp head
    have less : c₁.rest.length ≤ n := by simp [rest] at small; omega
    obtain ⟨read, same, length, goods, rest₁, position₁⟩ := (itemsOnto_eq_ok exact less).mp tail
    obtain rfl : items = read := same
    have counted : Wire.count items.length = Wire.u16 k := by
      rw [Wire.count, length, UInt16.ofNat_toNat]
    refine ⟨⟨length ▸ k.toNat_lt, goods⟩, ?_, ?_⟩
    · simp [rest, rest₁, counted]
    · simp [position, position₁, length_count, Nat.add_assoc]
  · rintro ⟨⟨few, goods⟩, rest, position⟩
    have counted : (UInt16.ofNat items.length).toNat = items.length :=
      UInt16.toNat_ofNat_of_lt' few
    refine ⟨.ofNat items.length, ⟨c.position + 2, items.flatMap write ++ c'.rest⟩,
      u16_eq_ok.mpr ⟨by simpa [Wire.count] using rest, rfl⟩, ?_⟩
    have less : (items.flatMap write ++ c'.rest).length ≤ n := by simp [rest] at small ⊢; omega
    refine (itemsOnto_eq_ok exact less).mpr ⟨items, rfl, counted.symm, goods, rfl, ?_⟩
    simp [position, length_count, Nat.add_assoc]

/-! ## Values -/

/-- A value takes at least one byte. -/
theorem value_ne_nil (v : Value) : Wire.value v ≠ [] := by
  cases v <;> simp

/-- The reader of values is exact where the depth is at least the number of bytes. -/
theorem exact_valueWithin (depth : Nat) :
    Exact depth (valueWithin depth) Wire.value Value.IsWritable := by
  induction depth with
  | zero =>
    intro c v c' small
    have none : c.rest = [] := List.length_eq_zero_iff.mp (Nat.le_zero.mp small)
    constructor
    · intro read
      obtain ⟨tag, c₁, first, -⟩ := bind_eq_ok.mp read
      simp [u8_eq_ok, none] at first
    · rintro ⟨-, rest, -⟩
      have empty : Wire.value v = [] := (List.append_eq_nil_iff.mp (rest.symm.trans none)).1
      exact absurd empty (value_ne_nil v)
  | succ depth ih =>
    intro c v c' small
    rw [valueWithin, bind_eq_ok]
    -- Everything after the tag is one byte shorter, so the readers of parts are exact there.
    have parts := fun (c₁ : Cursor) (less : c₁.rest.length ≤ depth) (vs : List Value) =>
      ih.counted c₁ vs c' less
    constructor
    · rintro ⟨tag, c₁, first, more⟩
      obtain ⟨rest, position⟩ := u8_eq_ok.mp first
      have less : c₁.rest.length ≤ depth := by simpa [rest] using small
      -- The tag decides which kind of value follows.
      split at more
      · obtain ⟨i, read, rfl⟩ := map_eq_ok.mp more
        obtain ⟨rest₁, position₁⟩ := i32_eq_ok.mp read
        simp [Value.IsWritable, rest, rest₁, position, position₁, Wire.i32, Wire.u32]
      · obtain ⟨r, read, rfl⟩ := map_eq_ok.mp more
        obtain ⟨rest₁, position₁⟩ := reference_eq_ok.mp read
        simp [Value.IsWritable, rest, rest₁, position, position₁, Wire.reference, Wire.i64,
          Wire.u64, Wire.u32]
      · obtain ⟨rfl, rfl⟩ := pure_eq_ok.mp more
        simp [Value.IsWritable, rest, position]
      · obtain ⟨vs, read, rfl⟩ := map_eq_ok.mp more
        obtain ⟨good, rest₁, position₁⟩ := (parts c₁ less vs).mp read
        refine ⟨Value.isWritable_struct.mpr good, ?_, ?_⟩
        · simp [rest, rest₁]
        · simp [position, position₁]; omega
      · obtain ⟨vs, read, rfl⟩ := map_eq_ok.mp more
        obtain ⟨good, rest₁, position₁⟩ := (parts c₁ less vs).mp read
        refine ⟨Value.isWritable_array.mpr good, ?_, ?_⟩
        · simp [rest, rest₁]
        · simp [position, position₁]; omega
      · cases more
    · rintro ⟨good, rest, position⟩
      cases v with
      | int i =>
        rw [value_int] at rest position
        exact ⟨0, ⟨c.position + 1, Wire.i32 i ++ c'.rest⟩, u8_eq_ok.mpr ⟨rest, rfl⟩,
          map_eq_ok.mpr ⟨i, i32_eq_ok.mpr ⟨rfl, by simp [position, Wire.i32, Wire.u32]⟩, rfl⟩⟩
      | ref r =>
        rw [value_ref] at rest position
        refine ⟨1, ⟨c.position + 1, Wire.reference r ++ c'.rest⟩, u8_eq_ok.mpr ⟨rest, rfl⟩,
          map_eq_ok.mpr ⟨r, reference_eq_ok.mpr ⟨rfl, ?_⟩, rfl⟩⟩
        simp [position, Wire.reference, Wire.i64, Wire.u64, Wire.u32]
      | null =>
        rw [value_null] at rest position
        exact ⟨2, c', u8_eq_ok.mpr ⟨rest, position⟩, pure_eq_ok.mpr ⟨rfl, rfl⟩⟩
      | struct vs =>
        rw [value_struct] at rest position
        have less : (Wire.values vs ++ c'.rest).length ≤ depth := by simp [rest] at small ⊢; omega
        refine ⟨3, ⟨c.position + 1, Wire.values vs ++ c'.rest⟩, u8_eq_ok.mpr ⟨rest, rfl⟩,
          map_eq_ok.mpr ⟨vs, (parts _ less vs).mpr
            ⟨Value.isWritable_struct.mp good, by simp, ?_⟩, rfl⟩⟩
        simp [position]; omega
      | array vs =>
        rw [value_array] at rest position
        have less : (Wire.values vs ++ c'.rest).length ≤ depth := by simp [rest] at small ⊢; omega
        refine ⟨4, ⟨c.position + 1, Wire.values vs ++ c'.rest⟩, u8_eq_ok.mpr ⟨rest, rfl⟩,
          map_eq_ok.mpr ⟨vs, (parts _ less vs).mpr
            ⟨Value.isWritable_array.mp good, by simp, ?_⟩, rfl⟩⟩
        simp [position]; omega

/-! ## Assignments and calls -/

/-- The reader of assignments is exact where the depth is at least the number of bytes. -/
theorem exact_assignmentWithin (depth : Nat) :
    Exact depth (assignmentWithin depth) Wire.assignment fun a => a.value.IsWritable := by
  intro c a c' small
  simp only [assignmentWithin, bind_eq_ok, pure_eq_ok, u32_eq_ok, u16_eq_ok]
  constructor
  · rintro ⟨offset, c₁, ⟨rest₁, position₁⟩, rep, c₂, ⟨rest₂, position₂⟩, v, c₃, read, rfl, rfl⟩
    have less : c₂.rest.length ≤ depth := by simp [rest₁, rest₂] at small; omega
    obtain ⟨good, rest₃, position₃⟩ := (exact_valueWithin depth c₂ v c₃ less).mp read
    refine ⟨good, by simp [Wire.assignment, rest₁, rest₂, rest₃], ?_⟩
    simp [Wire.assignment, Wire.u32, Wire.u16, position₁, position₂, position₃]
    omega
  · rintro ⟨good, rest, position⟩
    have less : (Wire.value a.value ++ c'.rest).length ≤ depth := by
      simp [rest, Wire.assignment] at small ⊢
      omega
    refine ⟨a.offset, ⟨c.position + 4, Wire.u16 a.rep ++ (Wire.value a.value ++ c'.rest)⟩,
      ⟨by simpa [Wire.assignment] using rest, rfl⟩,
      a.rep, ⟨c.position + 4 + 2, Wire.value a.value ++ c'.rest⟩, ⟨rfl, rfl⟩, a.value, c',
      (exact_valueWithin depth _ _ _ less).mpr ⟨good, rfl, ?_⟩, rfl, rfl⟩
    simp [position, Wire.assignment, Wire.u32, Wire.u16]
    omega

/-- The reader of calls is exact where the depth is at least the number of bytes. -/
theorem exact_callWithin (depth : Nat) :
    Exact depth (callWithin depth) Wire.call fun c => Value.ListWritable c.args := by
  intro c call c' small
  simp only [callWithin, bind_eq_ok, pure_eq_ok, u32_eq_ok]
  constructor
  · rintro ⟨function, c₁, ⟨rest₁, position₁⟩, args, c₂, read, rfl, rfl⟩
    have less : c₁.rest.length ≤ depth := by simp [rest₁] at small; omega
    obtain ⟨good, rest₂, position₂⟩ := ((exact_valueWithin depth).counted c₁ args c₂ less).mp read
    refine ⟨good, by simp [Wire.call, rest₁, rest₂], ?_⟩
    simp [Wire.call, Wire.u32, position₁, position₂, Nat.add_assoc]
  · rintro ⟨good, rest, position⟩
    have less : (Wire.values call.args ++ c'.rest).length ≤ depth := by
      simp [rest, Wire.call] at small ⊢
      omega
    refine ⟨call.function, ⟨c.position + 4, Wire.values call.args ++ c'.rest⟩,
      ⟨by simpa [Wire.call] using rest, rfl⟩, call.args, c',
      ((exact_valueWithin depth).counted _ _ _ less).mpr ⟨good, by simp, ?_⟩, rfl, rfl⟩
    simp [position, Wire.call, Wire.u32, Nat.add_assoc]

/-! ## Payloads -/

/-- A whole payload is accepted just if it is what the writer makes of the result. -/
theorem Exact.decode_eq_ok {reader : Reader α} {write : α → Bytes} {P : α → Prop} {payload : Bytes}
    (exact : Exact payload.length reader write P) {a : α} :
    reader.decode payload = .ok a ↔ P a ∧ payload = write a := by
  -- A payload is accepted if the reader uses all of it up.
  have whole : ∀ (b : α) (c' : Cursor),
      (do let a ← reader; finish; return a : Reader α) (.start payload) = .ok b c' ↔
        (P b ∧ payload = write b) ∧ c' = ⟨payload.length, []⟩ := by
    intro b c'
    simp only [bind_eq_ok, pure_eq_ok]
    constructor
    · rintro ⟨b, c₁, read, ⟨⟩, c₂, done, rfl, rfl⟩
      obtain ⟨good, rest, position⟩ := (exact (.start payload) b c₁ (Nat.le_refl _)).mp read
      unfold finish at done
      split at done
      · rename_i none
        cases done
        rw [List.isEmpty_iff] at none
        have spelt : payload = write b := by simpa [Cursor.start, none] using rest
        refine ⟨⟨good, spelt⟩, ?_⟩
        obtain ⟨position₁, rest₁⟩ := c₁
        simp_all [Cursor.start]
      · cases done
    · rintro ⟨⟨good, spelt⟩, rfl⟩
      refine ⟨b, ⟨payload.length, []⟩, (exact _ _ _ (Nat.le_refl _)).mpr ⟨good, ?_, ?_⟩,
        (), ⟨payload.length, []⟩, rfl, rfl, rfl⟩
      · simpa [Cursor.start] using spelt
      · simp [Cursor.start, ← spelt]
  unfold Reader.decode
  split
  · rename_i b c' read
    obtain ⟨⟨good, spelt⟩, -⟩ := (whole b c').mp read
    simp only [Except.ok.injEq]
    constructor
    · rintro rfl
      exact ⟨good, spelt⟩
    · intro h
      have other := (whole a ⟨payload.length, []⟩).mpr ⟨h, rfl⟩
      rw [read] at other
      cases other
      rfl
  · rename_i flaw c' refused
    simp only [reduceCtorEq, false_iff]
    intro h
    have other := (whole a ⟨payload.length, []⟩).mpr ⟨h, rfl⟩
    rw [refused] at other
    cases other

end Wire.Reader

namespace Wire

/-- The property payloads that are accepted. -/
theorem decodeFields_eq_ok {payload : Bytes} {as : List Assignment} :
    decodeFields payload = .ok as ↔
      (as.length < countLimit ∧ ∀ a ∈ as, a.value.IsWritable) ∧ payload = fields as :=
  (Reader.exact_measured (fun n => (Reader.exact_assignmentWithin n).counted) _).decode_eq_ok

/-- The values that are accepted. -/
theorem decodeValue_eq_ok {buffer : Bytes} {v : Value} :
    decodeValue buffer = .ok v ↔ v.IsWritable ∧ buffer = value v :=
  (Reader.exact_measured Reader.exact_valueWithin _).decode_eq_ok

/-- The argument payloads that are accepted. -/
theorem decodeArgs_eq_ok {payload : Bytes} {vs : List Value} :
    decodeArgs payload = .ok vs ↔ Value.ListWritable vs ∧ payload = args vs := by
  have exact := (Reader.exact_measured
    (fun n => (Reader.exact_valueWithin n).counted) payload.length).decode_eq_ok (a := vs)
  rw [args, values_eq]
  exact exact

/-- The multicast payloads that are accepted. -/
theorem decodeCalls_eq_ok {payload : Bytes} {cs : List Call} :
    decodeCalls payload = .ok cs ↔
      (cs.length < countLimit ∧ ∀ c ∈ cs, Value.ListWritable c.args) ∧ payload = calls cs :=
  (Reader.exact_measured (fun n => (Reader.exact_callWithin n).counted) _).decode_eq_ok

end Wire

end Replica
