import Replica.Ident

/-! # Outstanding references

A field whose value names objects that are not local yet is written with holes. What the holes wait
for is kept beside the object, in the shape of the field: a single reference, a struct that is
written again as a whole, or an array whose elements wait on their own.

Main definitions:
* `Outstanding` — what one position waits for.
* `Outstanding.references`, `Outstanding.waitsOn` — its references, and the test for one of them.
* `Parked` — what an object's fields wait for, by field. -/

namespace Replica

/-- A finite set of references. -/
abbrev ReferenceSet := Std.ExtTreeSet Reference

/-- What one position of an object is **outstanding**. -/
inductive Outstanding where
  /-- A field that is a reference. -/
  | single (rep : RepIndex) (reference : Reference)
  /-- A struct, which is read again from its `buffer` once a missing reference is found. -/
  | struct (rep : RepIndex) (buffer : Bytes) (bits : UInt32) (missing : ReferenceSet)
  /-- An array, by ascending index of those elements that wait. -/
  | array (rep : RepIndex) (elements : List (Offset × Outstanding))

namespace Outstanding

/-- The property that the position belongs to. -/
def rep : Outstanding → RepIndex
  | .single rep _ | .struct rep _ _ _ | .array rep _ => rep

/-- The shape of a position. -/
def shape : Outstanding → String
  | .single _ _ => "Single"
  | .struct _ _ _ _ => "Struct"
  | .array _ _ => "Array"

mutual

/-- The references that a position waits for. -/
def references : Outstanding → List Reference
  | .single _ r => [r]
  | .struct _ _ _ missing => missing.toList
  | .array _ elements => referencesAll elements

/-- The references that some elements wait for. -/
def referencesAll : List (Offset × Outstanding) → List Reference
  | [] => []
  | (_, o) :: rest => o.references ++ referencesAll rest

end

mutual

/-- Whether a position waits for `r`. -/
def waitsOn (r : Reference) : Outstanding → Bool
  | .single _ s => s == r
  | .struct _ _ _ missing => missing.contains r
  | .array _ elements => anyWaitsOn r elements

/-- Whether one of some elements waits for `r`. -/
def anyWaitsOn (r : Reference) : List (Offset × Outstanding) → Bool
  | [] => false
  | (_, o) :: rest => o.waitsOn r || anyWaitsOn r rest

end

/-- Whether a position has nothing left to wait for. -/
def isResolved : Outstanding → Bool
  | .single _ _ => false
  | .struct _ _ _ missing => missing.isEmpty
  | .array _ elements => elements.isEmpty

mutual

theorem waitsOn_iff (r : Reference) : (o : Outstanding) → o.waitsOn r = true ↔ r ∈ o.references
  | .single _ s => by simp [waitsOn, references, @eq_comm _ r s]
  | .struct _ _ _ missing => by simp [waitsOn, references, Std.ExtTreeSet.mem_toList]
  | .array _ elements => by simpa [waitsOn, references] using anyWaitsOn_iff r elements

theorem anyWaitsOn_iff (r : Reference) : (elements : List (Offset × Outstanding)) →
    anyWaitsOn r elements = true ↔ r ∈ referencesAll elements
  | [] => by simp [anyWaitsOn, referencesAll]
  | (_, o) :: rest => by
    simp [anyWaitsOn, referencesAll, waitsOn_iff r o, anyWaitsOn_iff r rest]

end

end Outstanding

/-- What an object's fields are **parked** for, by field. -/
abbrev Parked := Std.ExtTreeMap Offset Outstanding

namespace Parked

/-- The references that any field waits for. -/
def references (p : Parked) : ReferenceSet :=
  .ofList (p.toList.flatMap fun (_, o) => o.references)

@[simp] theorem references_empty : references ∅ = ∅ := by simp [references]

theorem mem_references {p : Parked} {r : Reference} :
    r ∈ p.references ↔
      ∃ (offset : Offset) (o : Outstanding), p[offset]? = some o ∧ r ∈ o.references := by
  simp [references, Std.ExtTreeSet.mem_ofList, Std.ExtTreeMap.mem_toList_iff_getElem?_eq_some]

end Parked

end Replica
