import Replica.Proofs.Wire.RoundTrip

/-! # The payload formats are canonical

Texts and spawn data are read just as exactly as values. So each of the five payload formats spells
what it carries in one way only: what is written is read back, and what is accepted is what would
be written again, byte for byte. Spawn data carries no orientation, so only data at rest is read.

Main definitions:
* `Wire.Consumes` — the bytes between two cursors.
* `Spawn.IsWritable` — spawn data that can be written in full.
* `Wire.decodeSpawn_eq_ok` — which spawn payloads are accepted.
* `Wire.Canonical` — a writer and a reader that have one spelling for each item.
* `Wire.payloads_canonical` — the five payload formats are canonical. -/

namespace Replica

namespace Wire

/-- A text is **countable** if the number of its bytes is kept in full. -/
def IsCountable (text : String) : Prop := (Utf8.encode text).length < countLimit

instance (text : String) : Decidable (IsCountable text) :=
  inferInstanceAs (Decidable ((Utf8.encode text).length < countLimit))

/-- Just some bytes are **consumed** between two cursors. -/
def Consumes (c : Cursor) (bytes : Bytes) (c' : Cursor) : Prop :=
  c.rest = bytes ++ c'.rest ∧ c'.position = c.position + bytes.length

/-- What is consumed in one go can be consumed in two. -/
theorem consumes_append {c c'' : Cursor} {front back : Bytes} :
    Consumes c (front ++ back) c'' ↔ ∃ c', Consumes c front c' ∧ Consumes c' back c'' := by
  constructor
  · rintro ⟨rest, position⟩
    refine ⟨⟨c.position + front.length, back ++ c''.rest⟩, ⟨?_, rfl⟩, rfl, ?_⟩
    · rw [rest, List.append_assoc]
    · rw [position, List.length_append, Nat.add_assoc]
  · rintro ⟨c', ⟨rest, position⟩, rest', position'⟩
    refine ⟨?_, ?_⟩
    · rw [rest, rest', List.append_assoc]
    · rw [position', position, List.length_append, Nat.add_assoc]

end Wire

namespace Wire.Reader

/-! ## Texts -/

theorem u16_consumes {c c' : Cursor} {x : UInt16} :
    u16 c = .ok x c' ↔ Consumes c (Wire.u16 x) c' := by
  rw [u16_eq_ok, Consumes, Wire.u16, length_word]

theorem u64_consumes {c c' : Cursor} {x : UInt64} :
    u64 c = .ok x c' ↔ Consumes c (Wire.u64 x) c' := by
  rw [u64_eq_ok, Consumes, Wire.u64, length_word]

/-- The reader of texts is exact. -/
theorem string_consumes {c c' : Cursor} {text : String} :
    string c = .ok text c' ↔ IsCountable text ∧ Consumes c (Wire.string text) c' := by
  simp only [string, bind_eq_ok, u16_consumes, bytes_eq_ok, Wire.string, consumes_append]
  constructor
  · rintro ⟨length, c₁, head, read, c₂, ⟨full, body⟩, decoded⟩
    cases spelt : Utf8.decode read with
    | error flaw =>
      rw [spelt] at decoded
      cases decoded
    | ok found =>
      rw [spelt] at decoded
      obtain ⟨rfl, rfl⟩ := pure_eq_ok.mp decoded
      -- The length that was read is that of the text, since it was enough for all its bytes.
      have bytes : Utf8.encode found = read := Utf8.encode_of_decode spelt
      have counted : Wire.count (Utf8.encode found).length = Wire.u16 length := by
        rw [bytes, full, Wire.count, UInt16.ofNat_toNat]
      refine ⟨?_, c₁, counted ▸ head, ?_⟩
      · rw [IsCountable, bytes, full]
        exact length.toNat_lt
      · rw [bytes, Consumes, full]
        exact body
  · rintro ⟨countable, c₁, head, body⟩
    have counted : (UInt16.ofNat (Utf8.encode text).length).toNat = (Utf8.encode text).length :=
      UInt16.toNat_ofNat_of_lt' countable
    refine ⟨.ofNat (Utf8.encode text).length, c₁, head, Utf8.encode text, c', ?_, ?_⟩
    · rw [counted]
      exact ⟨rfl, body⟩
    · rw [Utf8.decode_encode]
      rfl

/-- The reader of optional texts is exact. -/
theorem optional_consumes {c c' : Cursor} {text : Option String} :
    optional c = .ok text c' ↔
      (∀ t, text = some t → IsCountable t) ∧ Consumes c (Wire.optional text) c' := by
  have flag : ∀ (c₁ : Cursor) (byte : UInt8), u8 c = .ok byte c₁ ↔ Consumes c [byte] c₁ :=
    fun c₁ byte => u8_eq_ok
  simp only [optional, bind_eq_ok, flag]
  constructor
  · rintro ⟨byte, c₁, head, more⟩
    split at more
    · obtain ⟨rfl, rfl⟩ := pure_eq_ok.mp more
      exact ⟨nofun, head⟩
    · obtain ⟨t, read, rfl⟩ := map_eq_ok.mp more
      obtain ⟨countable, body⟩ := string_consumes.mp read
      exact ⟨fun t' same => Option.some.inj same ▸ countable,
        consumes_append.mpr ⟨c₁, head, body⟩⟩
    · cases more
  · rintro ⟨countable, spelt⟩
    cases text with
    | none => exact ⟨0, c', spelt, pure_eq_ok.mpr ⟨rfl, rfl⟩⟩
    | some t =>
      have split : Consumes c ([1] ++ Wire.string t) c' := spelt
      obtain ⟨c₁, head, body⟩ := consumes_append.mp split
      exact ⟨1, c₁, head, map_eq_ok.mpr ⟨t, string_consumes.mpr ⟨countable t rfl, body⟩, rfl⟩⟩

end Wire.Reader

/-! ## Spawn data -/

/-- Spawn data is **writable** if its texts are countable and it is at rest, since its orientation
does not travel. -/
structure Spawn.IsWritable (s : Spawn) : Prop where
  /-- The name of the class. -/
  className : Wire.IsCountable s.className
  /-- The orientation. -/
  rotation : s.rotation = {}
  /-- The path of the object to adopt. -/
  stablePath : ∀ path, s.stablePath = some path → Wire.IsCountable path
  /-- The path of the container. -/
  container : ∀ c, s.container = some c → Wire.IsCountable c.path

namespace Wire

/-- The reader of spawn data is exact. -/
theorem Reader.exact_spawn (n : Nat) : Exact n Reader.spawn Wire.spawn Spawn.IsWritable := by
  intro c s c' _
  show _ ↔ s.IsWritable ∧ Consumes c (Wire.spawn s) c'
  simp only [Reader.spawn, bind_eq_ok, string_consumes, u64_consumes, optional_consumes,
    pure_eq_ok, Wire.spawn, consumes_append]
  constructor
  · rintro ⟨className, c₁, ⟨countable, name⟩, x, c₂, first, y, c₃, second, z, c₄, third, path, c₅,
      ⟨countable₁, adopted⟩, container, c₆, ⟨countable₂, within⟩, rfl, rfl⟩
    have paths : (container.map Container.mk).map Container.path = container := by
      cases container <;> rfl
    refine ⟨⟨countable, rfl, countable₁, ?_⟩, c₅,
      ⟨c₄, ⟨c₃, ⟨c₂, ⟨c₁, name, first⟩, second⟩, third⟩, adopted⟩, ?_⟩
    · intro k same
      obtain ⟨t, there, rfl⟩ := Option.map_eq_some_iff.mp same
      exact countable₂ t there
    · rw [paths]
      exact within
  · rintro ⟨writable, c₅, ⟨c₄, ⟨c₃, ⟨c₂, ⟨c₁, name, first⟩, second⟩, third⟩, adopted⟩, within⟩
    refine ⟨s.className, c₁, ⟨writable.className, name⟩, s.location.x, c₂, first, s.location.y, c₃,
      second, s.location.z, c₄, third, s.stablePath, c₅, ⟨writable.stablePath, adopted⟩,
      s.container.map Container.path, c', ⟨?_, within⟩, ?_, rfl⟩
    · intro t same
      obtain ⟨k, there, rfl⟩ := Option.map_eq_some_iff.mp same
      exact writable.container k there
    · have same : (s.container.map Container.path).map Container.mk = s.container := by
        cases s.container <;> rfl
      rw [same, ← writable.rotation]

/-- The spawn payloads that are accepted. -/
theorem decodeSpawn_eq_ok {payload : Bytes} {s : Spawn} :
    decodeSpawn payload = .ok s ↔ s.IsWritable ∧ payload = spawn s :=
  (Reader.exact_spawn _).decode_eq_ok

/-! ## Canonical formats -/

/-- A format is **canonical** on the items that satisfy `P`: each of them is read back from what is
written of it, and a payload that is accepted is written again, byte for byte, of what was read. So
no two payloads are read as the same item. -/
structure Canonical {α : Type} (write : α → Bytes) (read : Bytes → Except Flaw α) (P : α → Prop) :
    Prop where
  /-- What is written is read back. -/
  read_write : ∀ a, P a → read (write a) = .ok a
  /-- What is accepted is written again. -/
  write_read : ∀ payload a, read payload = .ok a → P a ∧ write a = payload
  /-- Each item has one spelling. -/
  unique : ∀ payload payload' a, read payload = .ok a → read payload' = .ok a → payload = payload'

/-- A format is canonical if it accepts just what is written of the items that satisfy `P`. -/
theorem Canonical.of_iff {α : Type} {write : α → Bytes} {read : Bytes → Except Flaw α}
    {P : α → Prop} (exact : ∀ payload a, read payload = .ok a ↔ P a ∧ payload = write a) :
    Canonical write read P where
  read_write a good := (exact _ a).mpr ⟨good, rfl⟩
  write_read payload a ok := by
    obtain ⟨good, spelt⟩ := (exact payload a).mp ok
    exact ⟨good, spelt.symm⟩
  unique payload payload' a ok ok' := by
    rw [((exact payload a).mp ok).2, ((exact payload' a).mp ok').2]

/-- **The payload formats are canonical.** Property payloads, values, argument payloads and
multicast payloads all of whose lists can be counted are read back from what is written of them, and
spawn data is whose texts can be counted and which is at rest. Whatever any of the five readers
accepts is such an item, and is spelt byte for byte as it is written. -/
theorem payloads_canonical :
    Canonical fields decodeFields
        (fun as => as.length < countLimit ∧ ∀ a ∈ as, a.value.IsWritable) ∧
      Canonical value decodeValue Value.IsWritable ∧
      Canonical args decodeArgs Value.ListWritable ∧
      Canonical calls decodeCalls
        (fun cs => cs.length < countLimit ∧ ∀ c ∈ cs, Value.ListWritable c.args) ∧
      Canonical spawn decodeSpawn Spawn.IsWritable :=
  ⟨.of_iff fun _ _ => decodeFields_eq_ok, .of_iff fun _ _ => decodeValue_eq_ok,
    .of_iff fun _ _ => decodeArgs_eq_ok, .of_iff fun _ _ => decodeCalls_eq_ok,
    .of_iff fun _ _ => decodeSpawn_eq_ok⟩

/-- Two assignments, one of them of an array that holds a reference and a struct. -/
def nestedFields : List Assignment :=
  [.at 1 (.int (-4)), ⟨2, 9, .array [.ref ⟨5, 1⟩, .struct [.null, .int 3]]⟩]

/-- Spawn data of a crate in a container. -/
def crateInHarbor : Spawn := { className := "Crate", container := some ⟨"Levels/Harbor"⟩ }

theorem payloads_canonical_nestedFields :
    decodeFields (fields nestedFields) = .ok nestedFields ∧
      decodeSpawn (spawn crateInHarbor) = .ok crateInHarbor ∧
      ∀ payload, decodeFields payload = .ok nestedFields → payload =
        [2, 0, 1, 0, 0, 0, 1, 0, 0, 252, 255, 255, 255, 2, 0, 0, 0, 9, 0, 4, 2, 0, 1, 5, 0, 0, 0, 0,
          0, 0, 0, 1, 0, 0, 0, 3, 2, 0, 2, 0, 3, 0, 0, 0] := by
  obtain ⟨ofFields, -, -, -, ofSpawn⟩ := payloads_canonical
  refine ⟨ofFields.read_write _ ⟨by decide, ?_⟩, ofSpawn.read_write _ ⟨by decide, rfl, nofun, ?_⟩,
    fun payload ok => ?_⟩
  · simp [nestedFields, Assignment.at, Value.IsWritable, Value.AllWritable, countLimit]
  · intro c same
    cases same
    decide
  · rw [← (ofFields.write_read _ _ ok).2]
    decide

end Wire

end Replica
