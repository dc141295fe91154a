import Replica.Ident

/-! # Replicated values

What travels in a payload, and what it becomes in the local object graph. A value names other
objects by references; a localized value names them by handles, and by no handle where the object
is missing.

Main definitions:
* `Value` — integers, references and nothing, in structs and arrays.
* `Localized` — the same shape over handles.
* `Value.references` — every reference inside a value, in reading order.
* `Assignment`, `Call` — a value for one field, and values for one function.
* `Spawn` — what is needed to build an entity's objects. -/

namespace Replica

/-- A **value** as the network carries it. -/
inductive Value where
  /-- An integer. -/
  | int (i : Int32)
  /-- A reference to an object. -/
  | ref (r : Reference)
  /-- A reference to no object. -/
  | null
  /-- A record, replicated as one unit. -/
  | struct (parts : List Value)
  /-- A sequence, replicated element by element. -/
  | array (elements : List Value)

/-- A **localized value**: references have become handles, and a missing object no handle. -/
inductive Localized where
  /-- An integer. -/
  | int (i : Int32)
  /-- A local object, or none. -/
  | object (h : Option Handle)
  /-- A record. -/
  | struct (parts : List Localized)
  /-- A sequence. -/
  | array (elements : List Localized)

/-! ## Equality is decidable -/

mutual

/-- Whether two values are equal. -/
def Value.decEq : (v w : Value) → Decidable (v = w)
  | .int i, .int j => if h : i = j then isTrue (h ▸ rfl) else isFalse fun e => h (Value.int.inj e)
  | .ref r, .ref s => if h : r = s then isTrue (h ▸ rfl) else isFalse fun e => h (Value.ref.inj e)
  | .null, .null => isTrue rfl
  | .struct vs, .struct ws =>
    match Value.decEqAll vs ws with
    | isTrue h => isTrue (h ▸ rfl)
    | isFalse h => isFalse fun e => h (Value.struct.inj e)
  | .array vs, .array ws =>
    match Value.decEqAll vs ws with
    | isTrue h => isTrue (h ▸ rfl)
    | isFalse h => isFalse fun e => h (Value.array.inj e)
  | .int _, .ref _ | .int _, .null | .int _, .struct _ | .int _, .array _
  | .ref _, .int _ | .ref _, .null | .ref _, .struct _ | .ref _, .array _
  | .null, .int _ | .null, .ref _ | .null, .struct _ | .null, .array _
  | .struct _, .int _ | .struct _, .ref _ | .struct _, .null | .struct _, .array _
  | .array _, .int _ | .array _, .ref _ | .array _, .null | .array _, .struct _ => isFalse nofun

/-- Whether two lists of values are equal. -/
def Value.decEqAll : (vs ws : List Value) → Decidable (vs = ws)
  | [], [] => isTrue rfl
  | [], _ :: _ | _ :: _, [] => isFalse nofun
  | v :: vs, w :: ws =>
    match Value.decEq v w, Value.decEqAll vs ws with
    | isTrue h, isTrue hs => isTrue (h ▸ hs ▸ rfl)
    | isFalse h, _ => isFalse fun e => h (List.cons.inj e).1
    | _, isFalse hs => isFalse fun e => hs (List.cons.inj e).2

end

instance : DecidableEq Value := Value.decEq

mutual

/-- Whether two localized values are equal. -/
def Localized.decEq : (v w : Localized) → Decidable (v = w)
  | .int i, .int j =>
    if h : i = j then isTrue (h ▸ rfl) else isFalse fun e => h (Localized.int.inj e)
  | .object a, .object b =>
    if h : a = b then isTrue (h ▸ rfl) else isFalse fun e => h (Localized.object.inj e)
  | .struct vs, .struct ws =>
    match Localized.decEqAll vs ws with
    | isTrue h => isTrue (h ▸ rfl)
    | isFalse h => isFalse fun e => h (Localized.struct.inj e)
  | .array vs, .array ws =>
    match Localized.decEqAll vs ws with
    | isTrue h => isTrue (h ▸ rfl)
    | isFalse h => isFalse fun e => h (Localized.array.inj e)
  | .int _, .object _ | .int _, .struct _ | .int _, .array _
  | .object _, .int _ | .object _, .struct _ | .object _, .array _
  | .struct _, .int _ | .struct _, .object _ | .struct _, .array _
  | .array _, .int _ | .array _, .object _ | .array _, .struct _ => isFalse nofun

/-- Whether two lists of localized values are equal. -/
def Localized.decEqAll : (vs ws : List Localized) → Decidable (vs = ws)
  | [], [] => isTrue rfl
  | [], _ :: _ | _ :: _, [] => isFalse nofun
  | v :: vs, w :: ws =>
    match Localized.decEq v w, Localized.decEqAll vs ws with
    | isTrue h, isTrue hs => isTrue (h ▸ hs ▸ rfl)
    | isFalse h, _ => isFalse fun e => h (List.cons.inj e).1
    | _, isFalse hs => isFalse fun e => hs (List.cons.inj e).2

end

instance : DecidableEq Localized := Localized.decEq

/-! ## The references inside a value -/

mutual

/-- Every reference inside a value, in reading order. -/
def Value.references : Value → List Reference
  | .int _ | .null => []
  | .ref r => [r]
  | .struct vs | .array vs => Value.referencesAll vs

/-- Every reference inside a list of values, in reading order. -/
def Value.referencesAll : List Value → List Reference
  | [] => []
  | v :: vs => v.references ++ Value.referencesAll vs

end

/-! ## Fields and arguments -/

/-- An **assignment** of a value to one field. -/
structure Assignment where
  /-- The field. -/
  offset : Offset
  /-- The property that the field belongs to. -/
  rep : RepIndex
  /-- What the field is to hold. -/
  value : Value
deriving DecidableEq

/-- The assignment to a field whose property has the field's own number, cut to its width. -/
def Assignment.at (offset : Offset) (value : Value) : Assignment := ⟨offset, offset.toUInt16, value⟩

/-- A **call** of a function on some arguments. -/
structure Call where
  /-- The function. -/
  function : FunctionIndex
  /-- Its arguments, in order. -/
  args : List Value
deriving DecidableEq

/-! ## Spawn data -/

/-- A place in the scene; the coordinates are bit patterns of doubles, which are only copied. -/
structure Location where
  /-- The first coordinate. -/
  x : UInt64 := 0
  /-- The second coordinate. -/
  y : UInt64 := 0
  /-- The third coordinate. -/
  z : UInt64 := 0
deriving DecidableEq

/-- An orientation; the angles are bit patterns of single-width floats, which are only copied. -/
structure Rotation where
  /-- The angle about the lateral axis. -/
  pitch : UInt32 := 0
  /-- The angle about the vertical axis. -/
  yaw : UInt32 := 0
  /-- The angle about the longitudinal axis. -/
  roll : UInt32 := 0
deriving DecidableEq

/-- **Spawn data**: what is needed to build the local objects of an entity. -/
structure Spawn where
  /-- The class whose template is used. -/
  className : String
  /-- Where the entity appears. -/
  location : Location := {}
  /-- How the entity is turned. -/
  rotation : Rotation := {}
  /-- The path of a pre-placed object to adopt. -/
  stablePath : Option String := none
  /-- The streaming container that holds the spawn point. -/
  container : Option Container := none
deriving DecidableEq

end Replica
