import Replica.Proofs.Graph.Places

/-! # Parts of values

The positions that a value leaves outstanding follow its shape: inside an array they are filed under
the indices of the elements. So what is parked at a path is what the part of the value at that path
leaves outstanding, and it stands in the same place once the value is written. Structs have no parts
here: they are parked as a whole.

Main definitions:
* `Value.at?` — the part of a value at a path of array indices.
* `Value.IsAddressable` — indices are wide enough for the arrays inside.
* `Value.Leaves` — what a value leaves outstanding, shape by shape.
* `Value.Parks` — a position is parked at a path for a value.
* `Value.parks_iff` — it is what the part at the path leaves. -/

namespace Replica

variable {resolve : Resolver} {rep rep' : RepIndex} {path : List Offset} {inner : Outstanding}
  {v u : Value}

namespace Value

/-! ## Parts and places -/

/-- The part of a value **at** a path of array indices. -/
def at? : List Offset → Value → Option Value
  | [], v => some v
  | i :: path, .array vs => vs[i.toNat]?.bind (at? path)
  | _ :: _, _ => none

/-- The local form of a value has the local form of each part in its place. -/
theorem at?_localize (resolve : Resolver) (path : List Offset) (v : Value) :
    Localized.at? path (v.localize resolve) = (at? path v).map (localize resolve) := by
  induction path generalizing v with
  | nil => rfl
  | cons i path ih =>
    cases v with
    | array vs =>
      rw [localize, localizeAll_eq_map, Localized.at?, at?, List.getElem?_map]
      cases vs[i.toNat]? with
      | none => rfl
      | some v => exact ih v
    | int _ | ref _ | null | struct _ => rfl

theorem at?_append (path rest : List Offset) (v : Value) :
    at? (path ++ rest) v = (at? path v).bind (at? rest) := by
  induction path generalizing v with
  | nil => rfl
  | cons i path ih =>
    cases v with
    | array vs =>
      rw [List.cons_append, at?, at?]
      cases vs[i.toNat]? with
      | none => rfl
      | some v => exact ih v
    | int _ | ref _ | null | struct _ => rfl

/-- A value that is an **array**, and so has parts. -/
def IsArray : Value → Prop
  | .array _ => True
  | .int _ | .ref _ | .null | .struct _ => False

theorem at?_eq_none (whole : ¬v.IsArray) {path : List Offset} (inside : path ≠ []) :
    at? path v = none := by
  cases path with
  | nil => exact absurd rfl inside
  | cons i path =>
    cases v with
    | array vs => exact absurd trivial whole
    | int _ | ref _ | null | struct _ => rfl

/-- The parts of a value that can be written can be written. -/
theorem IsWritable.at? (h : v.IsWritable) (part : at? path v = some u) : u.IsWritable := by
  induction path generalizing v with
  | nil =>
    cases part
    exact h
  | cons i path ih =>
    cases v with
    | array vs =>
      obtain ⟨v, there, below⟩ := Option.bind_eq_some_iff.mp part
      exact ih ((isWritable_array.mp h).2 v (List.mem_of_getElem? there)) below
    | int _ | ref _ | null | struct _ => cases part

mutual

/-- A value is **addressable** if indices are wide enough for the arrays that can be entered. -/
def IsAddressable : Value → Prop
  | .int _ | .ref _ | .null | .struct _ => True
  | .array vs => vs.length ≤ UInt32.size ∧ AllAddressable vs

/-- All of some values are addressable. -/
def AllAddressable : List Value → Prop
  | [] => True
  | v :: vs => v.IsAddressable ∧ AllAddressable vs

end

theorem allAddressable_iff {vs : List Value} :
    AllAddressable vs ↔ ∀ v ∈ vs, v.IsAddressable := by
  induction vs with
  | nil => simp [AllAddressable]
  | cons v vs ih => simp [AllAddressable, ih]

mutual

/-- What can be written is addressable. -/
theorem IsWritable.isAddressable : (v : Value) → v.IsWritable → v.IsAddressable
  | .int _, _ | .ref _, _ | .null, _ | .struct _, _ => trivial
  | .array vs, h => by
    obtain ⟨short, parts⟩ := h
    refine ⟨?_, AllWritable.allAddressable vs parts⟩
    have narrow : Wire.countLimit ≤ UInt32.size := by decide
    omega

theorem AllWritable.allAddressable : (vs : List Value) → AllWritable vs → AllAddressable vs
  | [], _ => trivial
  | v :: vs, h => ⟨IsWritable.isAddressable v h.1, AllWritable.allAddressable vs h.2⟩

end

/-! ## What stands where -/

/-- The elements of an array wait under their indices. -/
theorem mem_outstandingFrom {i j : Offset} {vs : List Value} {o : Outstanding} :
    (j, o) ∈ outstandingFrom resolve rep i vs ↔
      ∃ n v, vs[n]? = some v ∧ j = i + .ofNat n ∧ v.outstanding resolve rep = some o := by
  induction vs generalizing i with
  | nil => simp [outstandingFrom]
  | cons v vs ih =>
    -- Indices wrap around at their width, so steps are added as indices and not as numbers.
    have next (n : Nat) : i + 1 + UInt32.ofNat n = i + UInt32.ofNat (n + 1) := by
      rw [UInt32.ofNat_add, UInt32.add_assoc, UInt32.add_comm 1]
      rfl
    have step : (j, o) ∈ outstandingFrom resolve rep i (v :: vs) ↔
        j = i ∧ v.outstanding resolve rep = some o ∨
          (j, o) ∈ outstandingFrom resolve rep (i + 1) vs := by
      rw [outstandingFrom]
      cases v.outstanding resolve rep with
      | none => simp
      | some x => rw [List.mem_cons, Prod.mk.injEq, Option.some.injEq, eq_comm (a := o)]
    rw [step, ih]
    constructor
    · rintro (⟨rfl, waits⟩ | ⟨n, u, there, index, waits⟩)
      · exact ⟨0, v, rfl, (UInt32.add_zero j).symm, waits⟩
      · exact ⟨n + 1, u, there, index.trans (next n), waits⟩
    · rintro ⟨n, u, there, index, waits⟩
      cases n with
      | zero =>
        cases there
        exact .inl ⟨index.trans (UInt32.add_zero i), waits⟩
      | succ n => exact .inr ⟨n, u, there, index.trans (next n).symm, waits⟩

/-- What a value **leaves** outstanding, shape by shape. -/
inductive Leaves (resolve : Resolver) (rep : RepIndex) : Value → Outstanding → Prop
  /-- A missing reference is waited for as such. -/
  | single {r : Reference} (unknown : resolve r = none) :
    Leaves resolve rep (.ref r) (.single rep r)
  /-- A struct that misses anything is kept with its bytes and all that it misses. -/
  | struct {vs : List Value} (lacks : (Value.struct vs).missing resolve ≠ ∅) :
    Leaves resolve rep (.struct vs) (.struct rep (Wire.value (.struct vs))
      (.ofNat ((Wire.value (.struct vs)).length * 8)) ((Value.struct vs).missing resolve))
  /-- An array of which some elements wait lists them. -/
  | array {vs : List Value} (waiting : outstandingFrom resolve rep 0 vs ≠ []) :
    Leaves resolve rep (.array vs) (.array rep (outstandingFrom resolve rep 0 vs))

theorem outstanding_eq_some : v.outstanding resolve rep = some inner ↔
    Leaves resolve rep v inner := by
  constructor
  · intro left
    cases v with
    | int _ | null => cases left
    | ref r =>
      rw [outstanding] at left
      split at left
      · rename_i unknown
        cases left
        exact .single (Option.isNone_iff_eq_none.mp unknown)
      · cases left
    | struct vs =>
      rw [outstanding] at left
      dsimp only at left
      split at left
      · cases left
      · rename_i lacks
        cases left
        exact .struct (mt Std.ExtTreeSet.isEmpty_iff.mpr lacks)
    | array vs =>
      rw [outstanding] at left
      split at left
      · cases left
      · rename_i waiting
        cases left
        exact .array waiting
  · intro leaves
    cases leaves with
    | single unknown => rw [outstanding, unknown, Option.isNone_none, if_pos rfl]
    | struct lacks =>
      rw [outstanding]
      exact if_neg (mt Std.ExtTreeSet.isEmpty_iff.mp lacks)
    | array waiting =>
      rw [outstanding]
      split
      · exact absurd ‹_› waiting
      · rfl

/-- The element at an index of an array waits under the index, if the array is addressable. -/
theorem mem_outstandingFrom_zero {i : Offset} {vs : List Value} {o : Outstanding}
    (addressable : vs.length ≤ UInt32.size) :
    (i, o) ∈ outstandingFrom resolve rep 0 vs ↔
      ∃ v, vs[i.toNat]? = some v ∧ v.outstanding resolve rep = some o := by
  rw [mem_outstandingFrom]
  constructor
  · rintro ⟨n, v, there, rfl, waits⟩
    obtain ⟨short, -⟩ := List.getElem?_eq_some_iff.mp there
    rw [UInt32.zero_add, UInt32.toNat_ofNat_of_lt' (by omega)]
    exact ⟨v, there, waits⟩
  · rintro ⟨v, there, waits⟩
    exact ⟨i.toNat, v, there, by rw [UInt32.zero_add, UInt32.ofNat_toNat], waits⟩

/-- A position is **parked at** a path for a value: at the path inside what the value leaves
outstanding. -/
def Parks (resolve : Resolver) (rep : RepIndex) (v : Value) (path : List Offset)
    (inner : Outstanding) : Prop :=
  ∃ o, v.outstanding resolve rep = some o ∧ inner.StandsAt path o

/-- Every position that is parked is what some value leaves outstanding. -/
theorem Parks.exists_leaves (h : v.Parks resolve rep path inner) :
    ∃ u : Value, Leaves resolve rep u inner := by
  induction path generalizing v with
  | nil =>
    obtain ⟨o, left, rfl⟩ := h
    exact ⟨v, outstanding_eq_some.mp left⟩
  | cons i path ih =>
    obtain ⟨o, left, stands⟩ := h
    cases outstanding_eq_some.mp left with
    | array waiting =>
      obtain ⟨o, mem, below⟩ := stands
      obtain ⟨n, v, -, -, waits⟩ := mem_outstandingFrom.mp mem
      exact ih ⟨o, waits, below⟩
    | single _ | struct _ => exact stands.elim

/-- **What is parked at a path is what the part at the path leaves.** -/
theorem parks_iff (addressable : v.IsAddressable) :
    v.Parks resolve rep path inner ↔ ∃ u, at? path v = some u ∧ Leaves resolve rep u inner := by
  induction path generalizing v with
  | nil =>
    constructor
    · rintro ⟨o, left, rfl⟩
      exact ⟨v, rfl, outstanding_eq_some.mp left⟩
    · rintro ⟨u, same, leaves⟩
      cases same
      exact ⟨inner, outstanding_eq_some.mpr leaves, rfl⟩
  | cons i path ih =>
    -- The path goes on inside an array on either side, below the same index.
    constructor
    · rintro ⟨o, left, stands⟩
      cases outstanding_eq_some.mp left with
      | array waiting =>
        obtain ⟨o, mem, below⟩ := stands
        obtain ⟨v, there, waits⟩ := (mem_outstandingFrom_zero addressable.1).mp mem
        have inside := allAddressable_iff.mp addressable.2 v (List.mem_of_getElem? there)
        obtain ⟨u, part, leaves⟩ := (ih inside).mp ⟨o, waits, below⟩
        exact ⟨u, Option.bind_eq_some_iff.mpr ⟨v, there, part⟩, leaves⟩
      | single _ | struct _ => exact stands.elim
    · rintro ⟨u, part, leaves⟩
      cases v with
      | array vs =>
        obtain ⟨v, there, part⟩ := Option.bind_eq_some_iff.mp part
        have inside := allAddressable_iff.mp addressable.2 v (List.mem_of_getElem? there)
        obtain ⟨o, waits, below⟩ := (ih inside).mpr ⟨u, part, leaves⟩
        have mem := (mem_outstandingFrom_zero addressable.1).mpr ⟨v, there, waits⟩
        exact ⟨_, outstanding_eq_some.mpr (.array (List.ne_nil_of_mem mem)), o, mem, below⟩
      | int _ | ref _ | null | struct _ => cases part

/-- A single reference is parked where a missing one stands. -/
theorem parks_single_iff (addressable : v.IsAddressable) {r : Reference} :
    v.Parks resolve rep path (.single rep' r) ↔
      rep' = rep ∧ at? path v = some (.ref r) ∧ resolve r = none := by
  rw [parks_iff addressable]
  constructor
  · rintro ⟨u, part, leaves⟩
    cases leaves with
    | single unknown => exact ⟨rfl, part, unknown⟩
  · rintro ⟨rfl, part, unknown⟩
    exact ⟨.ref r, part, .single unknown⟩

/-- A struct is parked where one stands in which something is missing, and can be read from its
bytes. -/
theorem parks_struct_iff (writable : v.IsWritable) {buffer : Bytes} {bits : UInt32}
    {missing : ReferenceSet} :
    v.Parks resolve rep path (.struct rep' buffer bits missing) ↔
      rep' = rep ∧ ∃ vs, at? path v = some (.struct vs) ∧
        Wire.decodeValue buffer = .ok (.struct vs) ∧ bits = .ofNat (buffer.length * 8) ∧
        missing = (Value.struct vs).missing resolve ∧ missing ≠ ∅ := by
  rw [parks_iff (IsWritable.isAddressable v writable)]
  constructor
  · rintro ⟨u, part, leaves⟩
    cases leaves with
    | @struct vs lacks =>
      exact ⟨rfl, vs, part, Wire.decodeValue_eq_ok.mpr ⟨writable.at? part, rfl⟩, rfl, rfl, lacks⟩
  · rintro ⟨rfl, vs, part, decoded, rfl, rfl, lacks⟩
    -- Reading is the inverse of writing, so the bytes are those of the struct.
    obtain ⟨-, rfl⟩ := Wire.decodeValue_eq_ok.mp decoded
    exact ⟨.struct vs, part, .struct lacks⟩

/-- Nothing that is parked is resolved, and all of it belongs to the property that is written. -/
theorem Parks.unresolved (h : v.Parks resolve rep path inner) :
    inner.isResolved = false ∧ inner.rep = rep := by
  obtain ⟨u, leaves⟩ := h.exists_leaves
  cases leaves with
  | single _ => exact ⟨rfl, rfl⟩
  | struct lacks => exact ⟨by simpa [Outstanding.isResolved] using lacks, rfl⟩
  | array waiting => exact ⟨by simpa [Outstanding.isResolved] using waiting, rfl⟩

end Value

end Replica
