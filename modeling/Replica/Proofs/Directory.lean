import Replica.Directory

/-! # What the directory keeps

The directory relates references and handles one to one, and registering a pair or taking an entity
out touches no other pair than those that stand in the way.

Main definitions:
* `Directory.Paired` — the two sides of a directory agree.
* `Directory.Paired.handle?_register`, `Directory.Paired.foldl_register`,
  `Directory.handle?_unregisterEntity` — what is local afterwards. -/

namespace Replica.Directory

variable {d : Directory}

/-! ## One to one -/

/-- A directory is **paired** if each side finds the partner that the other side gives it. -/
def Paired (d : Directory) : Prop :=
  ∀ (r : Reference) (h : Handle), d.handle? r = some h ↔ d.reference? h = some r

theorem paired_empty : empty.Paired := by simp [Paired]

/-- Of a paired directory no two references name one object. -/
theorem Paired.injective (p : d.Paired) {r q : Reference} {h : Handle} (hr : d.handle? r = some h)
    (hq : d.handle? q = some h) : r = q := by
  have same := ((p r h).mp hr).symm.trans ((p q h).mp hq)
  exact Option.some.inj same

/-! ## Registering -/

/-- A reference that is local after another was registered was so before. -/
theorem handle?_of_register {r q : Reference} {h k : Handle} (differs : r ≠ q)
    (found : (d.register r h).handle? q = some k) : d.handle? q = some k := by
  have inserted : (d.handles.insert r h)[q]? = d.handle? q := by
    simp [handle?, Std.ExtTreeMap.getElem?_insert, differs]
  simp only [handle?, register] at found
  split at found
  · split at found
    · exact inserted.symm.trans found
    · rw [Std.ExtTreeMap.getElem?_erase] at found
      split at found
      · cases found
      · exact inserted.symm.trans found
  · exact inserted.symm.trans found

/-- What is local after several pairs were registered is one of them or was local before. -/
theorem handle?_of_foldl_register (pairs : List (Reference × Handle)) {q : Reference} {k : Handle}
    (found : (pairs.foldl (fun d (r, h) => d.register r h) d).handle? q = some k) :
    (∃ h, (q, h) ∈ pairs) ∨ d.handle? q = some k := by
  induction pairs generalizing d with
  | nil => exact .inr found
  | cons pair rest ih =>
    obtain ⟨r, h⟩ := pair
    rcases ih found with ⟨h', later⟩ | before
    · exact .inl ⟨h', List.mem_cons_of_mem _ later⟩
    · by_cases same : r = q
      · subst r
        exact .inl ⟨h, List.mem_cons_self⟩
      · exact .inr (handle?_of_register same before)

/-- A reference and an object that are not known yet are registered beside all others. -/
theorem register_of_fresh {r : Reference} {h : Handle} (new : d.handle? r = none)
    (unnamed : d.reference? h = none) :
    (∀ q, (d.register r h).handle? q = if r = q then some h else d.handle? q) ∧
      ∀ k, (d.register r h).reference? k = if h = k then some r else d.reference? k := by
  have registered : d.register r h = ⟨d.handles.insert r h, d.references.insert h r⟩ := by
    have none_r : d.handles[r]? = none := new
    have none_h : d.references[h]? = none := unnamed
    simp only [register, none_r, none_h]
  rw [registered]
  refine ⟨?_, ?_⟩
  · intro q
    simp [handle?, Std.ExtTreeMap.getElem?_insert]
  · intro k
    simp [reference?, Std.ExtTreeMap.getElem?_insert]

/-- Registering a pair enters it and takes away the name that its object had before, whichever
object had the new name. -/
theorem handles_register (d : Directory) (r : Reference) (h : Handle) :
    (d.register r h).handles = d.references[h]?.elim (d.handles.insert r h) fun former =>
      if former = r then d.handles.insert r h else (d.handles.insert r h).erase former := by
  unfold register
  dsimp only
  cases d.handles[r]? with
  | none => cases d.references[h]? <;> rfl
  | some k =>
    by_cases own : k = h
    · simp only [if_pos own]
      cases d.references[h]? <;> rfl
    · have kept : (d.references.erase k)[h]? = d.references[h]? := by
        simp [Std.ExtTreeMap.getElem?_erase, own]
      simp only [if_neg own, kept]
      cases d.references[h]? <;> rfl

/-- What is local after a pair is registered: the pair, and whatever else names another object. -/
theorem Paired.handle?_register (p : d.Paired) (r q : Reference) (h : Handle) :
    (d.register r h).handle? q =
      if r = q then some h else if d.handle? q = some h then none else d.handle? q := by
  by_cases same : r = q
  · rw [if_pos same, ← same, handle?_register_self]
  · have inserted : (d.handles.insert r h)[q]? = d.handle? q := by
      simp [handle?, Std.ExtTreeMap.getElem?_insert, same]
    rw [if_neg same, handle?, handles_register]
    cases named : d.references[h]? with
    | none =>
      have other : d.handle? q ≠ some h := by
        intro known
        have back := (p q h).mp known
        rw [reference?, named] at back
        cases back
      rw [if_neg other]
      exact inserted
    | some former =>
      have back : d.handle? former = some h := (p former h).mpr named
      rw [Option.elim_some]
      by_cases own : former = r
      · subst former
        have other : d.handle? q ≠ some h := fun known => same (p.injective back known)
        rw [if_pos rfl, if_neg other]
        exact inserted
      · rw [if_neg own, Std.ExtTreeMap.getElem?_erase]
        by_cases here : former = q
        · subst former
          simp [back]
        · have other : d.handle? q ≠ some h := fun known => here (p.injective back known)
          simp [here, other, inserted]

/-- What has a name after a pair is registered: the object of the pair, and any other that had
another name. -/
theorem reference?_register (d : Directory) (r : Reference) (h k : Handle) :
    (d.register r h).reference? k =
      if h = k then some r else if d.handle? r = some k then none else d.reference? k := by
  by_cases same : h = k
  · rw [if_pos same, ← same, reference?_register_self]
  · rw [if_neg same]
    simp only [reference?, register, Std.ExtTreeMap.getElem?_insert,
      Std.LawfulEqOrd.compare_eq_iff_eq, same, if_false]
    have known : d.handle? r = d.handles[r]? := rfl
    rw [known]
    cases d.handles[r]? with
    | none => simp
    | some former =>
      by_cases own : former = h
      · have other : former ≠ k := fun eq => same (own.symm.trans eq)
        simp [own, same]
      · simp [own, Std.ExtTreeMap.getElem?_erase]

/-- Registering a pair keeps a directory paired. -/
theorem Paired.register (p : d.Paired) (r : Reference) (h : Handle) : (d.register r h).Paired := by
  intro q k
  rw [p.handle?_register, reference?_register]
  by_cases same_r : r = q
  · subst q
    by_cases same_h : h = k
    · simp [same_h]
    · by_cases former : d.handle? r = some k
      · simp [same_h, former]
      · have unnamed : d.reference? k ≠ some r := fun named => former ((p r k).mpr named)
        simp [same_h, former, unnamed]
  · by_cases same_h : h = k
    · subst k
      by_cases former : d.handle? q = some h <;> simp [same_r, former]
    · by_cases known : d.handle? q = some k
      · have named := (p q k).mp known
        have other : d.handle? r ≠ some k := fun eq => same_r (p.injective eq known)
        simp [same_r, same_h, known, named, other, Ne.symm same_h]
      · have unnamed : d.reference? k ≠ some q := fun named => known ((p q k).mpr named)
        by_cases taken : d.handle? q = some h <;> by_cases other : d.handle? r = some k <;>
          simp [same_r, same_h, known, unnamed, taken, other]

/-- What is local after several pairs were registered is one of them, or was local before as an
object that is in none of them. -/
theorem Paired.handle?_of_foldl_register (p : d.Paired) (pairs : List (Reference × Handle))
    {q : Reference} {k : Handle}
    (found : (pairs.foldl (fun d (r, h) => d.register r h) d).handle? q = some k) :
    (q, k) ∈ pairs ∨ d.handle? q = some k ∧ k ∉ pairs.map (·.2) := by
  induction pairs generalizing d with
  | nil => exact .inr ⟨found, List.not_mem_nil⟩
  | cons pair rest ih =>
    obtain ⟨r, h⟩ := pair
    rcases ih (p.register r h) found with later | ⟨before, apart⟩
    · exact .inl (List.mem_cons_of_mem _ later)
    · rw [p.handle?_register] at before
      split at before
      · rename_i same
        cases same
        cases before
        exact .inl List.mem_cons_self
      · split at before
        · cases before
        · rename_i other
          refine .inr ⟨before, fun mem => ?_⟩
          rcases List.mem_cons.mp mem with rfl | mem
          · exact other before
          · exact apart mem

/-- After several pairs were registered, of different references and objects, each of them is
local. -/
theorem Paired.foldl_register_self (p : d.Paired) (pairs : List (Reference × Handle))
    (references : (pairs.map (·.1)).Nodup) (handles : (pairs.map (·.2)).Nodup) :
    (pairs.foldl (fun d (r, h) => d.register r h) d).Paired ∧
      ∀ x ∈ pairs, (pairs.foldl (fun d (r, h) => d.register r h) d).handle? x.1 = some x.2 := by
  suffices along : (pairs.foldl (fun d (r, h) => d.register r h) d).Paired ∧
      ∀ r h, (r, h) ∈ pairs ∨ d.handle? r = some h ∧ r ∉ pairs.map (·.1) ∧ h ∉ pairs.map (·.2) →
        (pairs.foldl (fun d (r, h) => d.register r h) d).handle? r = some h from
    ⟨along.1, fun x mem => along.2 x.1 x.2 (.inl mem)⟩
  induction pairs generalizing d with
  | nil => exact ⟨p, fun r h known => (known.resolve_left (by simp)).1⟩
  | cons x rest ih =>
    obtain ⟨r, h⟩ := x
    obtain ⟨fresh_r, references⟩ := List.nodup_cons.mp references
    obtain ⟨fresh_h, handles⟩ := List.nodup_cons.mp handles
    obtain ⟨paired, known⟩ := ih (p.register r h) references handles
    refine ⟨paired, fun q k stands => known q k ?_⟩
    rcases stands with listed | ⟨before, out_r, out_h⟩
    · rcases List.mem_cons.mp listed with here | later
      · cases here
        exact .inr ⟨handle?_register_self d r h, fresh_r, fresh_h⟩
      · exact .inl later
    · simp only [List.map_cons, List.mem_cons, not_or] at out_r out_h
      refine .inr ⟨?_, out_r.2, out_h.2⟩
      rw [p.handle?_register, if_neg (Ne.symm out_r.1), if_neg, before]
      rw [before, Option.some.injEq]
      exact out_h.1

/-- What is local after several new pairs were registered: they are, beside what was. -/
theorem Paired.foldl_register (p : d.Paired) (pairs : List (Reference × Handle))
    (references : (pairs.map (·.1)).Nodup) (handles : (pairs.map (·.2)).Nodup)
    (new : ∀ x ∈ pairs, d.handle? x.1 = none ∧ d.reference? x.2 = none) :
    (pairs.foldl (fun d (r, h) => d.register r h) d).Paired ∧
      ∀ q k, (pairs.foldl (fun d (r, h) => d.register r h) d).handle? q = some k ↔
        (q, k) ∈ pairs ∨ d.handle? q = some k := by
  induction pairs generalizing d with
  | nil => exact ⟨p, fun q k => by simp⟩
  | cons x rest ih =>
    obtain ⟨r, h⟩ := x
    obtain ⟨fresh_r, references⟩ := List.nodup_cons.mp references
    obtain ⟨fresh_h, handles⟩ := List.nodup_cons.mp handles
    obtain ⟨new_r, new_h⟩ := new (r, h) List.mem_cons_self
    obtain ⟨handle, reference⟩ := register_of_fresh new_r new_h
    have later : ∀ y ∈ rest, (d.register r h).handle? y.1 = none ∧
        (d.register r h).reference? y.2 = none := by
      intro y mem
      have differs_r : r ≠ y.1 := fun same => fresh_r (List.mem_map.mpr ⟨y, mem, same.symm⟩)
      have differs_h : h ≠ y.2 := fun same => fresh_h (List.mem_map.mpr ⟨y, mem, same.symm⟩)
      rw [handle, reference, if_neg differs_r, if_neg differs_h]
      exact new y (List.mem_cons_of_mem _ mem)
    obtain ⟨paired, known⟩ := ih (p.register r h) references handles later
    refine ⟨paired, fun q k => (known q k).trans ?_⟩
    rw [handle, List.mem_cons, Prod.mk.injEq]
    by_cases same : r = q
    · subst q
      simp [new_r, eq_comm, or_comm]
    · simp [same, Ne.symm same]

/-- After several new pairs were registered, a reference stands as before, or is one of theirs. -/
theorem handle?_eq_or_new {d' : Directory} {pairs : List (Reference × Handle)}
    (registered : ∀ q k, d'.handle? q = some k ↔ (q, k) ∈ pairs ∨ d.handle? q = some k)
    (new : ∀ x ∈ pairs, d.handle? x.1 = none) (q : Reference) :
    d'.handle? q = d.handle? q ∨ d.handle? q = none ∧ ∃ k, (q, k) ∈ pairs := by
  cases found : d'.handle? q with
  | none =>
    cases before : d.handle? q with
    | none => exact .inl rfl
    | some k =>
      rw [(registered q k).mpr (.inr before)] at found
      cases found
  | some k =>
    rcases (registered q k).mp found with now | before
    · exact .inr ⟨new _ now, k, now⟩
    · exact .inl before.symm

/-! ## Taking an entity out -/

theorem handle?_foldl_unregister (rs : List Reference) (d : Directory) (q : Reference) :
    (rs.foldl unregister d).handle? q = if q ∈ rs then none else d.handle? q := by
  induction rs generalizing d with
  | nil => simp
  | cons r rest ih =>
    rw [List.foldl_cons, ih, handle?_unregister]
    by_cases later : q ∈ rest
    · simp [later]
    · by_cases same : r = q
      · simp [same]
      · have ne : q ≠ r := fun h => same h.symm
        simp [later, same, ne]

/-- After an entity is taken out none of its references is local, and the others are as before. -/
theorem handle?_unregisterEntity (d : Directory) (entity : EntityId) (q : Reference) :
    (d.unregisterEntity entity).handle? q = if q.entity = entity then none else d.handle? q := by
  rw [unregisterEntity, handle?_foldl_unregister]
  by_cases own : q.entity = entity
  · by_cases known : q ∈ d.handles
    · have listed : q ∈ d.referencesOf entity := by
        simp [referencesOf, known, own]
      simp [own, listed]
    · have none : d.handle? q = none := Std.ExtTreeMap.getElem?_eq_none known
      simp [own, none]
  · have unlisted : q ∉ d.referencesOf entity := by simp [referencesOf, own]
    simp [own, unlisted]

/-- Taking a pair out keeps a directory paired. -/
theorem Paired.unregister (p : d.Paired) (r : Reference) : (d.unregister r).Paired := by
  intro q k
  rw [handle?_unregister]
  unfold Directory.unregister
  have known : d.handle? r = d.handles[r]? := rfl
  cases found : d.handles[r]? with
  | none =>
    dsimp only
    by_cases same : r = q
    · subst q
      have absent : d.reference? k ≠ some r := fun named => by
        rw [(p r k).mpr named, found] at known
        cases known
      simp [absent]
    · rw [if_neg same]
      exact p q k
  | some h =>
    rw [found] at known
    have there : (⟨d.handles.erase r, d.references.erase h⟩ : Directory).reference? k =
        if h = k then none else d.reference? k := by
      simp [reference?, Std.ExtTreeMap.getElem?_erase]
    dsimp only
    rw [there]
    by_cases same : r = q
    · subst q
      by_cases own : h = k
      · simp [own]
      · have absent : d.reference? k ≠ some r := fun named => by
          rw [(p r k).mpr named, Option.some.injEq] at known
          exact own known.symm
        simp [own, absent]
    · rw [if_neg same]
      by_cases own : h = k
      · subst k
        have other : d.handle? q ≠ some h := fun eq => same (p.injective known eq)
        simp [other]
      · rw [if_neg own]
        exact p q k

/-- Taking an entity out keeps a directory paired. -/
theorem Paired.unregisterEntity (p : d.Paired) (entity : EntityId) :
    (d.unregisterEntity entity).Paired :=
  List.foldlRecOn (motive := Paired) _ _ p fun _ paired r _ => paired.unregister r

/-- After an entity is taken out nothing has a name of it, and all other names are as before. -/
theorem Paired.reference?_unregisterEntity (p : d.Paired) (entity : EntityId) {r : Reference}
    {h : Handle} : (d.unregisterEntity entity).reference? h = some r ↔
      d.reference? h = some r ∧ r.entity ≠ entity := by
  rw [← p.unregisterEntity entity r h, ← p r h, handle?_unregisterEntity]
  split <;> simp_all

end Replica.Directory
