import Replica.Proofs.Wire.Formats

/-! # Payloads know their end

A reader that accepts what a writer has made stops at its end, whatever follows, and runs out of
bytes wherever it is cut. So a payload that is accepted is refused when any bytes are taken off its
end, for want of bytes, and when any are added, because they remain.

Main definitions:
* `Wire.IsCut` — some bytes without their end.
* `Wire.Reader.Starves`, `Wire.Reader.NeedsAll` — a reader that runs out of bytes, and one that does
  so on every cut.
* `Wire.Delimited` — a format whose payloads can be neither cut nor extended.
* `Wire.payloads_delimited` — the five payload formats are delimited. -/

namespace Replica

namespace Wire

/-! ## Cuts -/

/-- Some bytes are a **cut** of others if they are a front of them, and not all. -/
def IsCut (front whole : Bytes) : Prop := front <+: whole ∧ front ≠ whole

/-- A cut is shorter. -/
theorem IsCut.length_lt {front whole : Bytes} (cut : IsCut front whole) :
    front.length < whole.length :=
  Nat.lt_of_le_of_ne cut.1.length_le fun same => cut.2 (cut.1.eq_of_length same)

/-- A cut of two pieces is a cut of the first, or the first and a cut of the second. -/
theorem IsCut.append {front u v : Bytes} (cut : IsCut front (u ++ v)) :
    IsCut front u ∨ ∃ rest, front = u ++ rest ∧ IsCut rest v := by
  obtain ⟨⟨back, same⟩, less⟩ := cut
  rcases List.append_eq_append_iff.mp same with ⟨more, rfl, -⟩ | ⟨rest, rfl, rfl⟩
  · by_cases whole : front = front ++ more
    · refine .inr ⟨[], by rw [← whole, List.append_nil], List.nil_prefix, fun none => less ?_⟩
      rw [← none, List.append_nil, ← whole]
    · exact .inl ⟨List.prefix_append front more, whole⟩
  · refine .inr ⟨rest, rfl, List.prefix_append rest back, fun whole => less ?_⟩
    rw [← whole]

namespace Reader

variable {α β : Type}

/-! ## Readers that run out of bytes -/

/-- A reader **starves** if it stops for want of bytes, and says truly where and how many of them
are left. -/
def Starves (reader : Reader α) (c : Cursor) : Prop :=
  ∃ needed c', c'.rest.length < needed ∧
    c'.position + c'.rest.length = c.position + c.rest.length ∧
    reader c = .error (.short needed c'.position c'.rest.length) c'

/-- A reader that starves keeps what follows it from being reached. -/
theorem Starves.bind {x : Reader α} {c : Cursor} (h : Starves x c) (f : α → Reader β) :
    Starves (x >>= f) c := by
  obtain ⟨needed, c', few, kept, stopped⟩ := h
  refine ⟨needed, c', few, kept, ?_⟩
  show EStateM.bind x f c = _
  rw [EStateM.bind, stopped]

/-- What follows a reader starves where the reader has left it. -/
theorem Starves.after {x : Reader α} {f : α → Reader β} {a : α} {c c' : Cursor}
    (read : x c = .ok a c')
    (kept : c'.position + c'.rest.length = c.position + c.rest.length)
    (h : Starves (f a) c') : Starves (x >>= f) c := by
  obtain ⟨needed, c'', few, kept', stopped⟩ := h
  refine ⟨needed, c'', few, kept'.trans kept, ?_⟩
  show EStateM.bind x f c = _
  rw [EStateM.bind, read]
  exact stopped

/-- Two readers in a row starve on a cut if the first one does where its piece is cut, and reads its
piece otherwise, and the second one then does. -/
theorem starves_seq {x : Reader α} {f : α → Reader β} {a : α} {u v front : Bytes} {position : Nat}
    (cut : IsCut front (u ++ v)) (first : IsCut front u → Starves x ⟨position, front⟩)
    (read : ∀ rest, front = u ++ rest →
      x ⟨position, u ++ rest⟩ = .ok a ⟨position + u.length, rest⟩)
    (second : ∀ rest, front = u ++ rest → IsCut rest v →
      Starves (f a) ⟨position + u.length, rest⟩) : Starves (x >>= f) ⟨position, front⟩ := by
  rcases cut.append with early | ⟨rest, rfl, late⟩
  · exact (first early).bind f
  · refine .after (read rest rfl) ?_ (second rest rfl late)
    rw [List.length_append, Nat.add_assoc]

/-- A reader **needs all** of what a writer makes if it starves on every cut of it that has at most
`n` bytes. -/
def NeedsAll (n : Nat) (reader : Reader α) (write : α → Bytes) (P : α → Prop) : Prop :=
  ∀ a, P a → ∀ front, IsCut front (write a) → front.length ≤ n →
    ∀ position, Starves reader ⟨position, front⟩

/-- An exact reader reads an item before whatever follows it. -/
theorem Exact.read {n : Nat} {reader : Reader α} {write : α → Bytes} {P : α → Prop}
    (exact : Exact n reader write P) {a : α} (good : P a) {rest : Bytes} (position : Nat)
    (small : (write a ++ rest).length ≤ n) :
    reader ⟨position, write a ++ rest⟩ = .ok a ⟨position + (write a).length, rest⟩ :=
  (exact _ _ _ small).mpr ⟨good, rfl, rfl⟩

/-! ## Words -/

/-- Too few bytes starve a reader of bytes. -/
theorem starves_bytes {n : Nat} {front : Bytes} (few : front.length < n) (position : Nat) :
    Starves (bytes n) ⟨position, front⟩ := by
  refine ⟨n, ⟨position, front⟩, few, rfl, ?_⟩
  have taken : front.take n = front := List.take_of_length_le (Nat.le_of_lt few)
  simp only [bytes, List.splitAt_eq, taken, if_neg (Nat.ne_of_lt few)]

/-- Too few bytes starve a reader of words. -/
theorem starves_word {width : Nat} {front : Bytes} (few : front.length < width) (position : Nat) :
    Starves (word width) ⟨position, front⟩ :=
  (starves_bytes few position).bind _

theorem starves_u8 {front : Bytes} (few : front.length < 1) (position : Nat) :
    Starves u8 ⟨position, front⟩ :=
  (starves_word few position).bind _

theorem starves_u16 {front : Bytes} (few : front.length < 2) (position : Nat) :
    Starves u16 ⟨position, front⟩ :=
  (starves_word few position).bind _

theorem starves_u32 {front : Bytes} (few : front.length < 4) (position : Nat) :
    Starves u32 ⟨position, front⟩ :=
  (starves_word few position).bind _

theorem starves_u64 {front : Bytes} (few : front.length < 8) (position : Nat) :
    Starves u64 ⟨position, front⟩ :=
  (starves_word few position).bind _

section Words

variable {v front : Bytes} {position : Nat}

/-- A number of two bytes is missed where it is cut, and read before what follows it otherwise. -/
theorem starves_u16_seq {x : UInt16} {f : UInt16 → Reader α} (cut : IsCut front (Wire.u16 x ++ v))
    (more : ∀ rest, front = Wire.u16 x ++ rest → IsCut rest v →
      Starves (f x) ⟨position + (Wire.u16 x).length, rest⟩) :
    Starves (u16 >>= f) ⟨position, front⟩ :=
  starves_seq cut (fun early => starves_u16 early.length_lt position)
    (fun _ _ => u16_eq_ok.mpr ⟨rfl, rfl⟩) more

/-- The same for a number of four bytes. -/
theorem starves_u32_seq {x : UInt32} {f : UInt32 → Reader α} (cut : IsCut front (Wire.u32 x ++ v))
    (more : ∀ rest, front = Wire.u32 x ++ rest → IsCut rest v →
      Starves (f x) ⟨position + (Wire.u32 x).length, rest⟩) :
    Starves (u32 >>= f) ⟨position, front⟩ :=
  starves_seq cut (fun early => starves_u32 early.length_lt position)
    (fun _ _ => u32_eq_ok.mpr ⟨rfl, rfl⟩) more

/-- The same for a number of eight bytes. -/
theorem starves_u64_seq {x : UInt64} {f : UInt64 → Reader α} (cut : IsCut front (Wire.u64 x ++ v))
    (more : ∀ rest, front = Wire.u64 x ++ rest → IsCut rest v →
      Starves (f x) ⟨position + (Wire.u64 x).length, rest⟩) :
    Starves (u64 >>= f) ⟨position, front⟩ :=
  starves_seq cut (fun early => starves_u64 early.length_lt position)
    (fun _ _ => u64_eq_ok.mpr ⟨rfl, rfl⟩) more

end Words

/-- A reference that is cut starves its reader. -/
theorem starves_reference {r : Reference} {front : Bytes} (cut : IsCut front (Wire.reference r))
    (position : Nat) : Starves reference ⟨position, front⟩ := by
  refine starves_seq cut (fun early => (starves_u64 early.length_lt position).bind _)
    (fun rest _ => i64_eq_ok.mpr ⟨rfl, rfl⟩) fun rest _ late => ?_
  exact (starves_u32 late.length_lt _).bind _

/-! ## Lists -/

section Lists

variable {n : Nat} {item : Reader α} {write : α → Bytes} {P : α → Prop}

/-- A reader of several items starves on every cut of them if the reader of one does. -/
theorem starves_itemsOnto (exact : Exact n item write P) (needs : NeedsAll n item write P)
    {items done : List α} (goods : ∀ a ∈ items, P a) {front : Bytes}
    (cut : IsCut front (items.flatMap write)) (small : front.length ≤ n) (position : Nat) :
    Starves (itemsOnto item items.length done) ⟨position, front⟩ := by
  -- The cut lies in the first item, or behind it.
  induction items generalizing done front position with
  | nil => exact absurd cut.length_lt (Nat.not_lt_zero _)
  | cons a items ih =>
    rw [List.forall_mem_cons] at goods
    refine starves_seq cut (fun early => needs a goods.1 front early small position)
      (fun rest whole => exact.read goods.1 position (whole ▸ small)) fun rest whole late => ?_
    refine ih goods.2 late (Nat.le_trans ?_ small) _
    rw [whole, List.length_append]
    exact Nat.le_add_left _ _

/-- A reader of counted lists needs all of them if the reader of their items does. -/
theorem NeedsAll.counted (needs : NeedsAll n item write P) (exact : Exact n item write P) :
    NeedsAll n (Reader.counted item) (fun as => Wire.count as.length ++ as.flatMap write)
      fun as => as.length < Wire.countLimit ∧ ∀ a ∈ as, P a := by
  rintro items ⟨few, goods⟩ front cut small position
  have counted : (UInt16.ofNat items.length).toNat = items.length := UInt16.toNat_ofNat_of_lt' few
  refine starves_u16_seq cut fun rest whole late => ?_
  rw [counted]
  refine starves_itemsOnto exact needs goods late (Nat.le_trans ?_ small) _
  rw [whole, List.length_append]
  exact Nat.le_add_left _ _

end Lists

/-! ## Values -/

/-- A tag that is not there is missed, and a tag that is there is read. -/
theorem starves_tagged {f : UInt8 → Reader α} {tag : UInt8} {body front : Bytes} {position : Nat}
    (cut : IsCut front (tag :: body))
    (more : ∀ rest, front = tag :: rest → IsCut rest body → Starves (f tag) ⟨position + 1, rest⟩) :
    Starves (u8 >>= f) ⟨position, front⟩ :=
  starves_seq (u := [tag]) cut (fun early => starves_u8 early.length_lt position)
    (fun _ _ => u8_eq_ok.mpr ⟨rfl, rfl⟩) more

/-- The reader of values needs all of a value where the depth is at least the number of bytes. -/
theorem needsAll_valueWithin (depth : Nat) :
    NeedsAll depth (valueWithin depth) Wire.value Value.IsWritable := by
  induction depth with
  | zero =>
    intro v _ front _ small position
    exact (starves_u8 (Nat.lt_succ_of_le small) position).bind _
  | succ depth ih =>
    intro v good front cut small position
    have parts := ih.counted (exact_valueWithin depth)
    -- What follows the tag is one byte shorter.
    have shorter : ∀ {tag : UInt8} {rest : Bytes}, front = tag :: rest → rest.length ≤ depth := by
      rintro tag rest rfl
      exact Nat.le_of_succ_le_succ small
    cases v with
    | int i =>
      rw [value_int] at cut
      exact starves_tagged cut fun rest _ late =>
        ((starves_u32 late.length_lt _).bind _).bind _
    | ref r =>
      rw [value_ref] at cut
      exact starves_tagged cut fun rest _ late => (starves_reference late _).bind _
    | null =>
      rw [value_null] at cut
      exact starves_tagged cut fun rest _ late => absurd late.length_lt (Nat.not_lt_zero _)
    | struct vs =>
      rw [value_struct, values_eq] at cut
      exact starves_tagged cut fun rest whole late =>
        (parts vs (Value.isWritable_struct.mp good) rest late (shorter whole) _).bind _
    | array vs =>
      rw [value_array, values_eq] at cut
      exact starves_tagged cut fun rest whole late =>
        (parts vs (Value.isWritable_array.mp good) rest late (shorter whole) _).bind _

/-! ## Assignments, calls and spawn data -/

/-- The reader of assignments needs all of an assignment. -/
theorem needsAll_assignmentWithin (depth : Nat) :
    NeedsAll depth (assignmentWithin depth) Wire.assignment fun a => a.value.IsWritable := by
  intro a good front cut small position
  rw [Wire.assignment, List.append_assoc] at cut
  refine starves_u32_seq cut fun rest whole late => ?_
  refine starves_u16_seq late fun rest' whole' later => ?_
  have less : rest'.length ≤ depth := by simp [whole, whole'] at small; omega
  exact (needsAll_valueWithin depth a.value good rest' later less _).bind _

/-- The reader of calls needs all of a call. -/
theorem needsAll_callWithin (depth : Nat) :
    NeedsAll depth (callWithin depth) Wire.call fun c => Value.ListWritable c.args := by
  intro c good front cut small position
  rw [Wire.call, values_eq] at cut
  refine starves_u32_seq cut fun rest whole late => ?_
  have less : rest.length ≤ depth := by simp [whole] at small; omega
  have args := (needsAll_valueWithin depth).counted (exact_valueWithin depth)
  exact (args c.args good rest late less _).bind _

/-- A text that is cut starves its reader. -/
theorem starves_string {text : String} (countable : IsCountable text) {front : Bytes}
    (cut : IsCut front (Wire.string text)) (position : Nat) :
    Starves string ⟨position, front⟩ := by
  have counted : (UInt16.ofNat (Utf8.encode text).length).toNat = (Utf8.encode text).length :=
    UInt16.toNat_ofNat_of_lt' countable
  refine starves_u16_seq cut fun rest _ late => ?_
  rw [counted]
  exact (starves_bytes late.length_lt _).bind _

/-- A text that may be absent starves its reader when it is cut. -/
theorem starves_optional {text : Option String} (countable : ∀ t, text = some t → IsCountable t)
    {front : Bytes} (cut : IsCut front (Wire.optional text)) (position : Nat) :
    Starves optional ⟨position, front⟩ := by
  cases text with
  | none => exact starves_tagged cut fun rest _ late => absurd late.length_lt (Nat.not_lt_zero _)
  | some t =>
    exact starves_tagged cut fun rest _ late => (starves_string (countable t rfl) late _).bind _

/-- The reader of spawn data needs all of it. -/
theorem needsAll_spawn (n : Nat) : NeedsAll n Reader.spawn Wire.spawn Spawn.IsWritable := by
  intro s good front cut _ position
  simp only [Wire.spawn, List.append_assoc] at cut
  have within : ∀ t, s.container.map Container.path = some t → IsCountable t := by
    intro t same
    obtain ⟨c, there, rfl⟩ := Option.map_eq_some_iff.mp same
    exact good.container c there
  refine starves_seq cut (fun early => starves_string good.className early position)
    (fun rest _ => string_consumes.mpr ⟨good.className, rfl, rfl⟩) fun _ _ cut => ?_
  refine starves_u64_seq cut fun _ _ cut => ?_
  refine starves_u64_seq cut fun _ _ cut => ?_
  refine starves_u64_seq cut fun _ _ cut => ?_
  refine starves_seq cut (fun early => starves_optional good.stablePath early _)
    (fun rest _ => optional_consumes.mpr ⟨good.stablePath, rfl, rfl⟩) fun _ _ cut => ?_
  exact (starves_optional within cut _).bind _

end Reader

/-! ## Payloads -/

/-- A format is **delimited** if an accepted payload is refused when it is cut, because the reader
needs more bytes than are left at the end, and when it is extended, because just the added bytes
remain. -/
structure Delimited {α : Type} (read : Bytes → Except Flaw α) : Prop where
  /-- A payload that is cut is refused. -/
  cut : ∀ payload a, read payload = .ok a → ∀ front, front <+: payload → front ≠ payload →
    ∃ needed position available, available < needed ∧ position + available = front.length ∧
      read front = .error (.short needed position available)
  /-- A payload that is extended is refused. -/
  extended : ∀ payload a, read payload = .ok a → ∀ back, back ≠ [] →
    read (payload ++ back) = .error (.trailing back.length)

namespace Reader

variable {α : Type}

/-- A payload on which the reader starves is refused. -/
theorem Starves.decode {reader : Reader α} {payload : Bytes} (h : Starves reader (.start payload)) :
    ∃ needed position available, available < needed ∧ position + available = payload.length ∧
      reader.decode payload = .error (.short needed position available) := by
  obtain ⟨needed, c', few, kept, stopped⟩ := h.bind fun a => do finish; return a
  refine ⟨needed, c'.position, c'.rest.length, few, ?_, ?_⟩
  · rw [kept]
    exact Nat.zero_add _
  · rw [Reader.decode, stopped]

/-- A payload of which the reader leaves something is refused. -/
theorem decode_of_left {reader : Reader α} {payload : Bytes} {a : α} {c : Cursor}
    (read : reader (.start payload) = .ok a c) (left : c.rest ≠ []) :
    reader.decode payload = .error (.trailing c.rest.length) := by
  have stopped : (do let a ← reader; finish; return a : Reader α) (.start payload) =
      .error (.trailing c.rest.length) c := by
    show EStateM.bind _ _ _ = _
    rw [EStateM.bind, read]
    show EStateM.bind _ _ _ = _
    rw [EStateM.bind, finish, if_neg (by simpa using left)]
  rw [Reader.decode, stopped]

/-- The format of an exact reader that needs all is delimited. -/
theorem delimited_decode {reader : Reader α} {write : α → Bytes} {P : α → Prop}
    (exact : ∀ n, Exact n reader write P) (needs : ∀ n, NeedsAll n reader write P) :
    Delimited reader.decode where
  cut payload a ok front isFront less := by
    obtain ⟨good, rfl⟩ := (exact _).decode_eq_ok.mp ok
    exact (needs front.length a good front ⟨isFront, less⟩ (Nat.le_refl _) 0).decode
  extended payload a ok back added := by
    obtain ⟨good, rfl⟩ := (exact _).decode_eq_ok.mp ok
    exact decode_of_left ((exact _).read good 0 (Nat.le_refl _)) added

/-- The same for a reader that measures its input first. -/
theorem delimited_measured {reader : Nat → Reader α} {write : α → Bytes} {P : α → Prop}
    (exact : ∀ n, Exact n (reader n) write P) (needs : ∀ n, NeedsAll n (reader n) write P) :
    Delimited (decode fun c => reader c.rest.length c) :=
  delimited_decode (exact_measured exact) fun _ a good front cut _ position =>
    needs front.length a good front cut (Nat.le_refl _) position

end Reader

/-- The property payloads are delimited. -/
theorem delimited_fields : Delimited decodeFields :=
  Reader.delimited_measured (fun n => (Reader.exact_assignmentWithin n).counted) fun n =>
    (Reader.needsAll_assignmentWithin n).counted (Reader.exact_assignmentWithin n)

/-- The values are delimited. -/
theorem delimited_value : Delimited decodeValue :=
  Reader.delimited_measured Reader.exact_valueWithin Reader.needsAll_valueWithin

/-- The argument payloads are delimited. -/
theorem delimited_args : Delimited decodeArgs :=
  Reader.delimited_measured (fun n => (Reader.exact_valueWithin n).counted) fun n =>
    (Reader.needsAll_valueWithin n).counted (Reader.exact_valueWithin n)

/-- The multicast payloads are delimited. -/
theorem delimited_calls : Delimited decodeCalls :=
  Reader.delimited_measured (fun n => (Reader.exact_callWithin n).counted) fun n =>
    (Reader.needsAll_callWithin n).counted (Reader.exact_callWithin n)

/-- The spawn payloads are delimited. -/
theorem delimited_spawn : Delimited decodeSpawn :=
  Reader.delimited_decode Reader.exact_spawn Reader.needsAll_spawn

/-- **The payload formats are delimited**: whatever one of the five readers accepts, it refuses when
any bytes are missing at the end, for want of bytes, and when any bytes are added, because they
remain. -/
theorem payloads_delimited :
    Delimited decodeFields ∧ Delimited decodeValue ∧ Delimited decodeArgs ∧ Delimited decodeCalls ∧
      Delimited decodeSpawn :=
  ⟨delimited_fields, delimited_value, delimited_args, delimited_calls, delimited_spawn⟩

theorem payloads_delimited_nestedFields :
    decodeFields (fields nestedFields) = .ok nestedFields ∧ (fields nestedFields).length = 44 ∧
      (∀ k < 44, ∃ needed position available, available < needed ∧ position + available = k ∧
        decodeFields ((fields nestedFields).take k) =
          .error (.short needed position available)) ∧
      decodeFields (fields nestedFields ++ [0, 0]) = .error (.trailing 2) := by
  have length : (fields nestedFields).length = 44 := by decide
  have ok : decodeFields (fields nestedFields) = .ok nestedFields := by
    refine decodeFields_eq_ok.mpr ⟨⟨by decide, ?_⟩, rfl⟩
    simp [nestedFields, Assignment.at, Value.IsWritable, Value.AllWritable, countLimit]
  obtain ⟨delimited, -⟩ := payloads_delimited
  refine ⟨ok, length, fun k less => ?_, delimited.extended _ _ ok _ (List.cons_ne_nil _ _)⟩
  have taken : ((fields nestedFields).take k).length = k :=
    List.length_take_of_le (length ▸ Nat.le_of_lt less)
  have shorter : (fields nestedFields).take k ≠ fields nestedFields := fun same => by
    rw [same, length] at taken
    exact Nat.ne_of_lt less taken.symm
  have refused := delimited.cut _ _ ok _ (List.take_prefix k _) shorter
  rw [taken] at refused
  exact refused

end Wire

end Replica
