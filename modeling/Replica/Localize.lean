import Replica.Outstanding
import Replica.Wire.Reader

/-! # Localizing values

A value becomes local by replacing each reference by the handle that a resolver gives it. Where the
resolver gives none the local value has a hole, and the outstanding positions say what the holes
wait for.

Main definitions:
* `Resolver` — what is local: the handle of a reference, if any.
* `Value.localize` — the local form of a value.
* `Value.missing` — the references that the resolver does not know.
* `Value.outstanding` — the positions that wait for them, in the shape of the value.
* `Localized.replaceAt` — replaces a value inside arrays. -/

namespace Replica

/-- A **resolver** tells which references are local, and where. -/
abbrev Resolver := Reference → Option Handle

mutual

/-- The **local form** of a value. -/
def Value.localize (resolve : Resolver) : Value → Localized
  | .int i => .int i
  | .ref r => .object (resolve r)
  | .null => .object none
  | .struct vs => .struct (Value.localizeAll resolve vs)
  | .array vs => .array (Value.localizeAll resolve vs)

/-- The local forms of a list of values. -/
def Value.localizeAll (resolve : Resolver) : List Value → List Localized
  | [] => []
  | v :: vs => v.localize resolve :: Value.localizeAll resolve vs

end

theorem Value.localizeAll_eq_map (resolve : Resolver) (vs : List Value) :
    Value.localizeAll resolve vs = vs.map (Value.localize resolve) := by
  induction vs with
  | nil => rfl
  | cons v vs ih => simp [Value.localizeAll, ih]

/-- Those of some references that the resolver does not know. -/
def Resolver.missing (resolve : Resolver) (rs : List Reference) : ReferenceSet :=
  .ofList (rs.filter fun r => (resolve r).isNone)

/-- The references inside a value that are **missing** locally. -/
def Value.missing (resolve : Resolver) (v : Value) : ReferenceSet := resolve.missing v.references

/-- The references inside a list of values that are missing locally. -/
def Value.missingAll (resolve : Resolver) (vs : List Value) : ReferenceSet :=
  resolve.missing (Value.referencesAll vs)

@[simp] theorem Resolver.mem_missing {resolve : Resolver} {rs : List Reference} {r : Reference} :
    r ∈ resolve.missing rs ↔ r ∈ rs ∧ resolve r = none := by
  simp [Resolver.missing, Std.ExtTreeSet.mem_ofList]

mutual

/-- The **outstanding** positions of a value: nothing if no reference is missing, and otherwise a
single reference, a struct with its bytes, or an array of those elements that wait. -/
def Value.outstanding (resolve : Resolver) (rep : RepIndex) : Value → Option Outstanding
  | .ref r => if (resolve r).isNone then some (.single rep r) else none
  | .struct vs =>
    let missing := Value.missing resolve (.struct vs)
    if missing.isEmpty then none
    else
      let buffer := Wire.value (.struct vs)
      some (.struct rep buffer (.ofNat (buffer.length * 8)) missing)
  | .array vs =>
    match Value.outstandingFrom resolve rep 0 vs with
    | [] => none
    | elements => some (.array rep elements)
  | .int _ | .null => none

/-- The outstanding positions of array elements, the first of which has index `i`. An index does not
repeat: a payload counts the elements of an array with 16 bits, and indices have 32. So the
positions are a map, in the order of their indices. -/
def Value.outstandingFrom (resolve : Resolver) (rep : RepIndex) (i : Offset) :
    List Value → List (Offset × Outstanding)
  | [] => []
  | v :: vs =>
    match v.outstanding resolve rep with
    | some o => (i, o) :: Value.outstandingFrom resolve rep (i + 1) vs
    | none => Value.outstandingFrom resolve rep (i + 1) vs

end

namespace Localized

/-- Replaces what stands at a path of array indices; nothing if the path leaves the arrays. -/
def replaceAt (new : Localized) : (path : List Offset) → Localized → Option Localized
  | [], _ => some new
  | i :: path, .array elements => do
    let element ← elements[i.toNat]?
    let element ← replaceAt new path element
    return .array (elements.set i.toNat element)
  | _ :: _, _ => none

@[simp] theorem replaceAt_nil (new old : Localized) : replaceAt new [] old = some new := rfl

end Localized

end Replica
