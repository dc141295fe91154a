import Replica.Proofs.Wire.Endings

/-! # Lists that are too long

A list that is too long is written in full under a count that has wrapped, so a reader groups what
follows in another way. It never takes the result for a payload: every part of a value is written as
a token, a value has at least one token more than its tokens announce, and just one more if all its
lists can be counted. So a reader that has found all that was announced is through before the end of
an oversized value, and what is left is refused.

Main definitions:
* `Wire.Token`, `Value.tokens` — what is written of one part of a value, and of all of them.
* `Value.announced_tokens` — tokens against what they announce.
* `Wire.exists_regrouped` — tokens that announce no more than follows are those of some values.
* `Wire.oversized_refused` — a value is read as itself, or refused. -/

namespace Replica

namespace Wire

/-! ## Tokens -/

/-- A **token** is what is written of a part of a value, without the parts that it has itself. -/
inductive Token where
  /-- An integer. -/
  | int (i : Int32)
  /-- A reference. -/
  | ref (r : Reference)
  /-- No reference. -/
  | null
  /-- A struct, with the count of its parts. -/
  | struct (count : UInt16)
  /-- An array, with the count of its elements. -/
  | array (count : UInt16)

/-- The bytes of a token. -/
def Token.write : Token → Bytes
  | .int i => 0 :: i32 i
  | .ref r => 1 :: Wire.reference r
  | .null => [2]
  | .struct n => 3 :: u16 n
  | .array n => 4 :: u16 n

/-- How many values are **announced** by a token. -/
def Token.announced : Token → Nat
  | .int _ | .ref _ | .null => 0
  | .struct n | .array n => n.toNat

/-- How many values are announced by some tokens. -/
def announced : List Token → Nat
  | [] => 0
  | t :: ts => t.announced + announced ts

@[simp] theorem announced_nil : announced [] = 0 := rfl

@[simp] theorem announced_cons (t : Token) (ts : List Token) :
    announced (t :: ts) = t.announced + announced ts := rfl

@[simp] theorem announced_append (ts us : List Token) :
    announced (ts ++ us) = announced ts + announced us := by
  induction ts with
  | nil => rw [List.nil_append, announced_nil, Nat.zero_add]
  | cons t ts ih => rw [List.cons_append, announced_cons, ih, announced_cons, Nat.add_assoc]

theorem Token.write_ne_nil (t : Token) : t.write ≠ [] := by
  cases t <;> exact List.cons_ne_nil _ _

end Wire

mutual

/-- The tokens of a value, in the order in which they are written. -/
def Value.tokens : Value → List Wire.Token
  | .int i => [.int i]
  | .ref r => [.ref r]
  | .null => [.null]
  | .struct vs => .struct (.ofNat vs.length) :: Value.tokensAll vs
  | .array vs => .array (.ofNat vs.length) :: Value.tokensAll vs

/-- The tokens of some values, one after the other. -/
def Value.tokensAll : List Value → List Wire.Token
  | [] => []
  | v :: vs => v.tokens ++ Value.tokensAll vs

end

namespace Value

@[simp] theorem tokensAll_append (vs ws : List Value) :
    tokensAll (vs ++ ws) = tokensAll vs ++ tokensAll ws := by
  induction vs with
  | nil => rfl
  | cons v vs ih => simp [tokensAll, ih]

open Wire in
mutual

/-- A value is written token by token. -/
theorem flatMap_tokens : (v : Value) → v.tokens.flatMap Token.write = value v
  | .int _ | .ref _ | .null => by simp [tokens, Token.write]
  | .struct vs | .array vs => by simp [tokens, Token.write, flatMap_tokensAll vs, count]

/-- Values are written token by token. -/
theorem flatMap_tokensAll : (vs : List Value) →
    (tokensAll vs).flatMap Token.write = vs.flatMap value
  | [] => rfl
  | v :: vs => by
    rw [tokensAll, List.flatMap_append, flatMap_tokens v, flatMap_tokensAll vs, List.flatMap_cons]

end

open Wire in
mutual

/-- **A value has more tokens than it announces**, and just one more if it is writable. -/
theorem announced_tokens : (v : Value) → announced v.tokens + 1 ≤ v.tokens.length ∧
    (v.tokens.length ≤ announced v.tokens + 1 ↔ v.IsWritable)
  | .int _ | .ref _ | .null => by simp [tokens, Token.announced, IsWritable]
  | .struct vs | .array vs => by
    obtain ⟨least, exact⟩ := announced_tokensAll vs
    have kept : (UInt16.ofNat vs.length).toNat = vs.length % countLimit := UInt16.toNat_ofNat'
    have small := Nat.mod_le vs.length countLimit
    have counted : vs.length ≤ vs.length % countLimit ↔ vs.length < countLimit := by
      unfold countLimit
      omega
    simp only [tokens, announced_cons, Token.announced, List.length_cons, IsWritable, ← exact,
      ← counted, kept]
    omega

/-- Values have at least as many tokens as they are and announce, and just as many if they are
writable. -/
theorem announced_tokensAll : (vs : List Value) →
    announced (tokensAll vs) + vs.length ≤ (tokensAll vs).length ∧
      ((tokensAll vs).length ≤ announced (tokensAll vs) + vs.length ↔ AllWritable vs)
  | [] => by simp [tokensAll, AllWritable]
  | v :: vs => by
    obtain ⟨least, exact⟩ := announced_tokens v
    obtain ⟨leastAll, exactAll⟩ := announced_tokensAll vs
    simp only [tokensAll, announced_append, List.length_append, List.length_cons, AllWritable,
      ← exact, ← exactAll]
    omega

end

end Value

namespace Wire

/-! ## Grouping tokens again -/

/-- What a token and some values make is written as the token and the values. -/
theorem Token.exists_value (t : Token) {parts : List Value} (all : parts.length = t.announced)
    (goods : ∀ v ∈ parts, v.IsWritable) :
    ∃ v : Value, v.IsWritable ∧ v.tokens = t :: Value.tokensAll parts := by
  have none (empty : parts.length = 0) : Value.tokensAll parts = [] := by
    rw [List.length_eq_zero_iff.mp empty, Value.tokensAll]
  have few (n : UInt16) (same : parts.length = n.toNat) :
      Value.ListWritable parts ∧ UInt16.ofNat parts.length = n :=
    ⟨⟨same ▸ n.toNat_lt, goods⟩, by rw [same, UInt16.ofNat_toNat]⟩
  cases t with
  | int i => exact ⟨.int i, trivial, by rw [none all, Value.tokens]⟩
  | ref r => exact ⟨.ref r, trivial, by rw [none all, Value.tokens]⟩
  | null => exact ⟨.null, trivial, by rw [none all, Value.tokens]⟩
  | struct n =>
    obtain ⟨good, counted⟩ := few n all
    exact ⟨.struct parts, Value.isWritable_struct.mpr good, by rw [Value.tokens, counted]⟩
  | array n =>
    obtain ⟨good, counted⟩ := few n all
    exact ⟨.array parts, Value.isWritable_array.mpr good, by rw [Value.tokens, counted]⟩

/-- **Tokens can be grouped again** into as many writable values as are wanted, if they are at least
as many as are wanted and announced. -/
theorem exists_regrouped {ts : List Token} {n : Nat} (enough : announced ts + n ≤ ts.length) :
    ∃ (vs : List Value) (rest : List Token),
      vs.length = n ∧ (∀ v ∈ vs, v.IsWritable) ∧ ts = Value.tokensAll vs ++ rest := by
  -- The parts of the first value are wanted before the values that follow it.
  induction ts generalizing n with
  | nil =>
    obtain rfl : n = 0 := by simpa using enough
    exact ⟨[], [], rfl, by simp, rfl⟩
  | cons t ts ih =>
    cases n with
    | zero => exact ⟨[], t :: ts, rfl, by simp, rfl⟩
    | succ n =>
      rw [announced_cons, List.length_cons] at enough
      obtain ⟨vs, rest, length, goods, rfl⟩ := ih (n := t.announced + n) (by omega)
      have parts : (vs.take t.announced).length = t.announced :=
        List.length_take_of_le (by omega)
      obtain ⟨v, good, spelt⟩ :=
        t.exists_value parts fun v mem => goods v (List.mem_of_mem_take mem)
      refine ⟨v :: vs.drop t.announced, rest, ?_, ?_, ?_⟩
      · rw [List.length_cons, List.length_drop, length]
        omega
      · rw [List.forall_mem_cons]
        exact ⟨good, fun w mem => goods w (List.mem_of_mem_drop mem)⟩
      · rw [Value.tokensAll, spelt, List.cons_append, List.cons_append, ← Value.tokensAll_append,
          List.take_append_drop]

/-- More tokens than are wanted and announced begin with the bytes of as many writable values as are
wanted, and do not end there. -/
theorem exists_regrouped_bytes {ts : List Token} {n : Nat} (more : announced ts + n < ts.length) :
    ∃ (vs : List Value) (back : Bytes), vs.length = n ∧ (∀ v ∈ vs, v.IsWritable) ∧ back ≠ [] ∧
      ts.flatMap Token.write = vs.flatMap value ++ back := by
  obtain ⟨vs, rest, length, goods, rfl⟩ := exists_regrouped (Nat.le_of_lt more)
  refine ⟨vs, rest.flatMap Token.write, length, goods, fun none => ?_, ?_⟩
  · -- If nothing were left, the tokens would be those of writable values, and no more.
    cases rest with
    | cons t rest =>
      rw [List.flatMap_cons, List.append_eq_nil_iff] at none
      exact t.write_ne_nil none.1
    | nil =>
      have exact := (Value.announced_tokensAll vs).2.mpr (Value.allWritable_iff.mpr goods)
      rw [List.append_nil] at more
      omega
  · rw [List.flatMap_append, Value.flatMap_tokensAll]

/-! ## Oversized values -/

/-- A value that is not writable is left over in part. -/
theorem decodeValue_of_oversized {v : Value} (large : ¬v.IsWritable) :
    ∃ n, 0 < n ∧ decodeValue (value v) = .error (.trailing n) := by
  have more : announced v.tokens + 1 < v.tokens.length := by
    rw [← v.announced_tokens.2] at large
    exact Nat.lt_of_not_le large
  obtain ⟨ws, back, one, goods, left, spelt⟩ := exists_regrouped_bytes more
  obtain ⟨w, rfl⟩ := List.length_eq_one_iff.mp one
  rw [Value.flatMap_tokens, List.flatMap_singleton] at spelt
  rw [List.forall_mem_singleton] at goods
  refine ⟨back.length, List.length_pos_iff.mpr left, ?_⟩
  rw [spelt]
  exact delimited_value.extended _ w (decodeValue_eq_ok.mpr ⟨goods, rfl⟩) back left

/-- Arguments that are not writable are left over in part. -/
theorem decodeArgs_of_oversized {vs : List Value} (large : ¬Value.ListWritable vs) :
    ∃ n, 0 < n ∧ decodeArgs (args vs) = .error (.trailing n) := by
  have kept : (UInt16.ofNat vs.length).toNat = vs.length % countLimit := UInt16.toNat_ofNat'
  have more : announced (Value.tokensAll vs) + vs.length % countLimit <
      (Value.tokensAll vs).length := by
    obtain ⟨least, exact⟩ := Value.announced_tokensAll vs
    have small := Nat.mod_le vs.length countLimit
    rw [Value.ListWritable, ← Value.allWritable_iff, ← exact] at large
    unfold countLimit at *
    omega
  obtain ⟨ws, back, length, goods, left, spelt⟩ := exists_regrouped_bytes more
  have few : ws.length < countLimit := by
    rw [length]
    exact Nat.mod_lt _ (by decide)
  -- The count that has wrapped is that of the values which are read.
  have counted : UInt16.ofNat vs.length = .ofNat ws.length := by
    apply UInt16.toNat_inj.mp
    rw [kept, UInt16.toNat_ofNat_of_lt' few, length]
  refine ⟨back.length, List.length_pos_iff.mpr left, ?_⟩
  have same : args vs = args ws ++ back := by
    rw [args, args, values_eq, values_eq, count, count, ← Value.flatMap_tokensAll, spelt, counted,
      List.append_assoc]
  rw [same]
  exact delimited_args.extended _ ws (decodeArgs_eq_ok.mpr ⟨⟨few, goods⟩, rfl⟩) back left

/-- **A value is read as itself or refused**, however long its lists are: it is read if all lists
inside it can be counted, and otherwise something remains when the reader is through. The same holds
of arguments. -/
theorem oversized_refused (v : Value) (vs : List Value) :
    (v.IsWritable ∧ decodeValue (value v) = .ok v ∨
      ¬v.IsWritable ∧ ∃ n, 0 < n ∧ decodeValue (value v) = .error (.trailing n)) ∧
    (Value.ListWritable vs ∧ decodeArgs (args vs) = .ok vs ∨
      ¬Value.ListWritable vs ∧ ∃ n, 0 < n ∧ decodeArgs (args vs) = .error (.trailing n)) := by
  constructor
  · by_cases good : v.IsWritable
    · exact .inl ⟨good, decodeValue_eq_ok.mpr ⟨good, rfl⟩⟩
    · exact .inr ⟨good, decodeValue_of_oversized good⟩
  · by_cases good : Value.ListWritable vs
    · exact .inl ⟨good, decodeArgs_eq_ok.mpr ⟨good, rfl⟩⟩
    · exact .inr ⟨good, decodeArgs_of_oversized good⟩

/-- A struct of an integer and an array whose count wraps to one. -/
def wrappedCount : Value := .struct [.array (List.replicate 65537 .null), .int 3]

theorem oversized_refused_wrappedCount :
    (∃ n, 0 < n ∧ decodeValue (value wrappedCount) = .error (.trailing n)) ∧
      ∃ n, 0 < n ∧ decodeArgs (args [wrappedCount]) = .error (.trailing n) := by
  have large : ¬wrappedCount.IsWritable := by
    intro good
    have parts := (Value.isWritable_struct.mp good).2 _ List.mem_cons_self
    have few := (Value.isWritable_array.mp parts).1
    rw [List.length_replicate, countLimit] at few
    omega
  have largeArgs : ¬Value.ListWritable [wrappedCount] := fun good =>
    large (good.2 _ List.mem_cons_self)
  obtain ⟨single, listed⟩ := oversized_refused wrappedCount [wrappedCount]
  exact ⟨(single.resolve_left fun read => large read.1).2,
    (listed.resolve_left fun read => largeArgs read.1).2⟩

end Wire

end Replica
