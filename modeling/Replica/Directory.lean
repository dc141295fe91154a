import Replica.Ident

/-! # The directory

The directory relates remote references to local handles, one to one. It is kept from both sides, so
each side finds its partner directly.

Main definitions:
* `Directory.handle?`, `Directory.reference?` — the two views.
* `Directory.register` — relates a reference and a handle, and parts both from earlier partners.
* `Directory.unregister`, `Directory.unregisterEntity` — take relations away. -/

namespace Replica

/-- A **directory** of the objects that are local. -/
structure Directory where
  /-- The handle of each reference. -/
  handles : Std.ExtTreeMap Reference Handle
  /-- The reference of each handle. -/
  references : Std.ExtTreeMap Handle Reference

namespace Directory

/-- The directory of no object. -/
def empty : Directory := ⟨∅, ∅⟩

/-- The local object that `r` names. -/
def handle? (d : Directory) (r : Reference) : Option Handle := d.handles[r]?

/-- The name that `h` has on the network. -/
def reference? (d : Directory) (h : Handle) : Option Reference := d.references[h]?

/-- The number of references related. -/
def size (d : Directory) : Nat := d.handles.size

/-- Whether nothing is related. -/
def isEmpty (d : Directory) : Bool := d.handles.isEmpty

/-- Relates `r` and `h`. An object that `r` named before loses its name, and a reference that named
`h` before loses its object. -/
def register (d : Directory) (r : Reference) (h : Handle) : Directory :=
  let references :=
    match d.handles[r]? with
    | some former => if former = h then d.references else d.references.erase former
    | none => d.references
  let handles := d.handles.insert r h
  { handles :=
      match references[h]? with
      | some former => if former = r then handles else handles.erase former
      | none => handles
    references := references.insert h r }

/-- Parts `r` from its object. -/
def unregister (d : Directory) (r : Reference) : Directory :=
  match d.handles[r]? with
  | some h => ⟨d.handles.erase r, d.references.erase h⟩
  | none => d

/-- The references related that belong to an entity, in ascending order. -/
def referencesOf (d : Directory) (entity : EntityId) : List Reference :=
  d.handles.keys.filter (·.entity == entity)

/-- Parts every reference of an entity from its object. -/
def unregisterEntity (d : Directory) (entity : EntityId) : Directory :=
  (d.referencesOf entity).foldl unregister d

@[simp] theorem handle?_empty (r : Reference) : empty.handle? r = none := by simp [handle?, empty]

@[simp] theorem reference?_empty (h : Handle) : empty.reference? h = none := by
  simp [reference?, empty]

@[simp] theorem handle?_register_self (d : Directory) (r : Reference) (h : Handle) :
    (d.register r h).handle? r = some h := by
  simp only [handle?, register]
  split
  · split
    · simp
    · simp [*]
  · simp

@[simp] theorem reference?_register_self (d : Directory) (r : Reference) (h : Handle) :
    (d.register r h).reference? h = some r := by
  simp [reference?, register]

@[simp] theorem handle?_unregister (d : Directory) (r s : Reference) :
    (d.unregister r).handle? s = if r = s then none else d.handle? s := by
  simp only [handle?, unregister]
  split
  · simp [Std.ExtTreeMap.getElem?_erase]
  · split <;> simp_all

end Directory

end Replica
