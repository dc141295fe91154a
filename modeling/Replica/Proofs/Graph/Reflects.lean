import Replica.Proofs.Waitlist
import Replica.Proofs.Wire.RoundTrip

/-! # What fields reflect

While the arrivals of several references are due one after the other, a field shows its value as
some earlier resolver made it local: the references that are due may still be holes, and what is
parked for the field says so. Array elements wait on their own, so each may lag behind differently.

Main definitions:
* `Resolver.Lags` — an earlier resolver differs only where an arrival is due.
* `Value.Reflects` — a local value and what is parked with it show a value, up to what is due.
* `Value.Reflects.eq` — where nothing is due, both are determined by the value.
* `Replay.position_reflects` — a replay leaves nothing of its reference due. -/

namespace Replica

/-! ## Localization looks at the references inside -/

mutual

/-- Resolvers that agree on the references inside a value make the same of it. -/
theorem Value.localize_congr {f g : Resolver} :
    (v : Value) → (∀ r ∈ v.references, f r = g r) → v.localize f = v.localize g
  | .int _, _ | .null, _ => rfl
  | .ref r, same => by
    rw [localize, localize, same r (List.mem_singleton.mpr rfl)]
  | .struct vs, same => by
    rw [localize, localize, localizeAll_congr vs same]
  | .array vs, same => by
    rw [localize, localize, localizeAll_congr vs same]

/-- Values are localized alike by resolvers that agree on their references. -/
theorem Value.localizeAll_congr {f g : Resolver} :
    (vs : List Value) → (∀ r ∈ referencesAll vs, f r = g r) → localizeAll f vs = localizeAll g vs
  | [], _ => rfl
  | v :: vs, same => by
    rw [localizeAll, localizeAll,
      localize_congr v fun r mem => same r (List.mem_append_left _ mem),
      localizeAll_congr vs fun r mem => same r (List.mem_append_right _ mem)]

end

/-- Resolvers that know the same of some references miss the same of them. -/
theorem Resolver.missing_congr {f g : Resolver} {rs : List Reference}
    (same : ∀ r ∈ rs, (f r).isNone = (g r).isNone) : f.missing rs = g.missing rs := by
  rw [missing, missing, List.filter_congr fun r mem => by rw [same r mem]]

mutual

/-- Resolvers that know the same of the references inside a value leave the same outstanding. -/
theorem Value.outstanding_congr {f g : Resolver} (rep : RepIndex) :
    (v : Value) → (∀ r ∈ v.references, (f r).isNone = (g r).isNone) →
      v.outstanding f rep = v.outstanding g rep
  | .int _, _ | .null, _ => rfl
  | .ref r, same => by
    rw [outstanding, outstanding, same r (List.mem_singleton.mpr rfl)]
  | .struct vs, same => by
    have missing : (Value.struct vs).missing f = (Value.struct vs).missing g :=
      Resolver.missing_congr same
    rw [outstanding, outstanding, missing]
  | .array vs, same => by
    rw [outstanding, outstanding, outstandingFrom_congr rep 0 vs same]

/-- The same parts of values are outstanding for resolvers that know the same references. -/
theorem Value.outstandingFrom_congr {f g : Resolver} (rep : RepIndex) (i : Offset) :
    (vs : List Value) → (∀ r ∈ referencesAll vs, (f r).isNone = (g r).isNone) →
      outstandingFrom f rep i vs = outstandingFrom g rep i vs
  | [], _ => rfl
  | v :: vs, same => by
    rw [outstandingFrom, outstandingFrom,
      outstanding_congr rep v fun r mem => same r (List.mem_append_left _ mem),
      outstandingFrom_congr rep (i + 1) vs fun r mem => same r (List.mem_append_right _ mem)]

end

/-! ## Reflections -/

/-- On some references an `old` resolver **lags** behind by those that are due: it does not know
them yet, and knows the others as the resolver does. -/
def Resolver.Lags (due : Reference → Prop) (resolve old : Resolver) (rs : List Reference) : Prop :=
  ∀ r ∈ rs, old r = resolve r ∨ old r = none ∧ due r

/-- A value is reflected **as a whole** if one resolver that lags behind gives all of it. -/
def Value.ReflectsWhole (due : Reference → Prop) (resolve : Resolver) (rep : RepIndex) (v : Value)
    (l : Localized) (o : Option Outstanding) : Prop :=
  ∃ old : Resolver, resolve.Lags due old v.references ∧ l = v.localize old ∧
    o = v.outstanding old rep

mutual

/-- A value is **reflected** by a local value, and by what is parked with it, if both are what
resolvers make of it that lag behind by what is due. Array elements are reflected one by one. -/
def Value.Reflects (due : Reference → Prop) (resolve : Resolver) (rep : RepIndex) :
    Value → Localized → Option Outstanding → Prop
  | .int i => Value.ReflectsWhole due resolve rep (.int i)
  | .ref r => Value.ReflectsWhole due resolve rep (.ref r)
  | .null => Value.ReflectsWhole due resolve rep .null
  | .struct vs => Value.ReflectsWhole due resolve rep (.struct vs)
  | .array vs => fun l o => ∃ ls os, Value.ReflectsFrom due resolve rep 0 vs ls os ∧
      l = .array ls ∧ o = if os.isEmpty then none else some (.array rep os)

/-- The elements of an array, the first of which has index `i`, are reflected one by one. -/
def Value.ReflectsFrom (due : Reference → Prop) (resolve : Resolver) (rep : RepIndex) (i : Offset) :
    List Value → List Localized → List (Offset × Outstanding) → Prop
  | [] => fun ls os => ls = [] ∧ os = []
  | v :: vs => fun ls os => ∃ l o ls' os', Value.Reflects due resolve rep v l o ∧
      Value.ReflectsFrom due resolve rep (i + 1) vs ls' os' ∧ ls = l :: ls' ∧
      os = match o with
        | some o => (i, o) :: os'
        | none => os'

end

variable {due due' : Reference → Prop} {resolve resolve' : Resolver} {rep : RepIndex}

/-- A resolver does not lag behind itself. -/
theorem Resolver.Lags.refl (rs : List Reference) : resolve.Lags due resolve rs :=
  fun _ _ => .inl rfl

theorem Value.ReflectsWhole.refl (v : Value) :
    v.ReflectsWhole due resolve rep (v.localize resolve) (v.outstanding resolve rep) :=
  ⟨resolve, .refl _, rfl, rfl⟩

mutual

/-- What the resolver makes of a value reflects it. -/
theorem Value.Reflects.refl : (v : Value) →
    v.Reflects due resolve rep (v.localize resolve) (v.outstanding resolve rep)
  | .int i => ReflectsWhole.refl (.int i)
  | .ref r => ReflectsWhole.refl (.ref r)
  | .null => ReflectsWhole.refl .null
  | .struct vs => ReflectsWhole.refl (.struct vs)
  | .array vs => by
    refine ⟨_, _, ReflectsFrom.refl 0 vs, by rw [localize], ?_⟩
    rw [outstanding]
    -- The array waits just if some element does.
    cases outstandingFrom resolve rep 0 vs with
    | nil => rfl
    | cons first rest => rfl

theorem Value.ReflectsFrom.refl (i : Offset) : (vs : List Value) →
    ReflectsFrom due resolve rep i vs (localizeAll resolve vs) (outstandingFrom resolve rep i vs)
  | [] => ⟨rfl, rfl⟩
  | v :: vs => by
    refine ⟨_, _, _, _, Reflects.refl v, ReflectsFrom.refl (i + 1) vs, rfl, ?_⟩
    cases waits : v.outstanding resolve rep with
    | none => simp only [outstandingFrom, waits]
    | some o => simp only [outstandingFrom, waits]

end

/-- Where nothing is due, a value is reflected as a whole by what the resolver makes of it. -/
theorem Value.ReflectsWhole.eq {v : Value} {l : Localized} {o : Option Outstanding}
    (done : ∀ r, ¬due r) (h : v.ReflectsWhole due resolve rep l o) :
    l = v.localize resolve ∧ o = v.outstanding resolve rep := by
  obtain ⟨old, lags, rfl, rfl⟩ := h
  have same : ∀ r ∈ v.references, old r = resolve r := by
    intro r mem
    rcases lags r mem with same | ⟨-, awaited⟩
    · exact same
    · exact absurd awaited (done r)
  exact ⟨v.localize_congr same, v.outstanding_congr rep fun r mem => by rw [same r mem]⟩

mutual

/-- **Where nothing is due, a value is reflected by what the resolver makes of it alone.** -/
theorem Value.Reflects.eq (done : ∀ r, ¬due r) : (v : Value) → {l : Localized} →
    {o : Option Outstanding} → v.Reflects due resolve rep l o →
      l = v.localize resolve ∧ o = v.outstanding resolve rep
  | .int _, _, _, h | .ref _, _, _, h | .null, _, _, h | .struct _, _, _, h =>
    ReflectsWhole.eq done h
  | .array vs, l, o, h => by
    obtain ⟨ls, os, elements, rfl, rfl⟩ := h
    obtain ⟨rfl, rfl⟩ := ReflectsFrom.eq done 0 vs elements
    refine ⟨by rw [localize], ?_⟩
    rw [outstanding]
    cases outstandingFrom resolve rep 0 vs with
    | nil => rfl
    | cons first rest => rfl

/-- Where nothing is due, items reflect just what the resolver makes of the values. -/
theorem Value.ReflectsFrom.eq (done : ∀ r, ¬due r) (i : Offset) : (vs : List Value) →
    {ls : List Localized} → {os : List (Offset × Outstanding)} →
    ReflectsFrom due resolve rep i vs ls os →
      ls = localizeAll resolve vs ∧ os = outstandingFrom resolve rep i vs
  | [], _, _, h => h
  | v :: vs, ls, os, h => by
    obtain ⟨l, o, ls', os', first, rest, rfl, rfl⟩ := h
    obtain ⟨rfl, rfl⟩ := Reflects.eq done v first
    obtain ⟨rfl, rfl⟩ := ReflectsFrom.eq done (i + 1) vs rest
    refine ⟨by rw [localizeAll], ?_⟩
    cases waits : v.outstanding resolve rep with
    | none => simp only [outstandingFrom, waits]
    | some o => simp only [outstandingFrom, waits]

end

/-! ## More becomes local, and less is due -/

/-- A change of what is local and due is **outlasted** by resolvers that lag behind before it, if
they lag behind after it at every reference. A reference that they do not know is one of those for
which `P` holds. -/
def Resolver.Outlasts (P due due' : Reference → Prop) (resolve resolve' : Resolver) : Prop :=
  ∀ (q : Reference) (old : Option Handle), old = resolve q ∨ old = none ∧ due q →
    (old = none → P q) → old = resolve' q ∨ old = none ∧ due' q

variable {P : Reference → Prop}

/-- What reflects a value still does when references become known that are not awaited. -/
theorem Value.ReflectsWhole.imp (step : Resolver.Outlasts P due due' resolve resolve') {v : Value}
    {l : Localized} {o : Option Outstanding} (awaited : ∀ x, o = some x → ∀ q ∈ x.references, P q)
    (h : v.ReflectsWhole due resolve rep l o) : v.ReflectsWhole due' resolve' rep l o := by
  obtain ⟨old, lags, rfl, rfl⟩ := h
  refine ⟨old, fun q mem => step q (old q) (lags q mem) ?_, rfl, rfl⟩
  -- A reference that the old resolver does not know is one that `v` waits for.
  intro none
  obtain ⟨x, left, waits⟩ := (references_outstanding old rep q v).mpr ⟨mem, none⟩
  exact awaited x left q waits

mutual

/-- A value is still reflected after a change that outlasts what its positions wait for. -/
theorem Value.Reflects.imp (step : Resolver.Outlasts P due due' resolve resolve') :
    (v : Value) → {l : Localized} → {o : Option Outstanding} →
    (∀ x, o = some x → ∀ q ∈ x.references, P q) → v.Reflects due resolve rep l o →
      v.Reflects due' resolve' rep l o
  | .int _, _, _, awaited, h | .ref _, _, _, awaited, h | .null, _, _, awaited, h
  | .struct _, _, _, awaited, h => ReflectsWhole.imp step awaited h
  | .array vs, l, o, awaited, h => by
    obtain ⟨ls, os, elements, rfl, rfl⟩ := h
    refine ⟨ls, os, ReflectsFrom.imp step 0 vs ?_ elements, rfl, rfl⟩
    -- What an element waits for, the array as a whole waits for.
    intro q waits
    cases os with
    | nil => simp [Outstanding.referencesAll] at waits
    | cons first rest => exact awaited _ rfl q waits

/-- Items that reflect values still do when references become known that are not awaited. -/
theorem Value.ReflectsFrom.imp (step : Resolver.Outlasts P due due' resolve resolve') (i : Offset) :
    (vs : List Value) → {ls : List Localized} → {os : List (Offset × Outstanding)} →
    (∀ q ∈ Outstanding.referencesAll os, P q) →
      ReflectsFrom due resolve rep i vs ls os → ReflectsFrom due' resolve' rep i vs ls os
  | [], _, _, _, h => h
  | v :: vs, ls, os, awaited, h => by
    obtain ⟨l, o, ls', os', first, rest, rfl, rfl⟩ := h
    refine ⟨l, o, ls', os', Reflects.imp step v ?_ first,
      ReflectsFrom.imp step (i + 1) vs ?_ rest, rfl, rfl⟩
    · intro x left q waits
      subst left
      exact awaited q (List.mem_append_left _ waits)
    · intro q waits
      cases o with
      | none => exact awaited q waits
      | some x => exact awaited q (List.mem_append_right _ waits)

end

/-- A value is still reflected when more is due, and references become local whose arrivals are. -/
theorem Value.Reflects.grow {v : Value} {l : Localized} {o : Option Outstanding}
    (later : ∀ q, due q → due' q)
    (known : ∀ q, resolve' q = resolve q ∨ resolve q = none ∧ due' q)
    (h : v.Reflects due resolve rep l o) : v.Reflects due' resolve' rep l o := by
  refine Reflects.imp (P := fun _ => True) (fun q old lags _ => ?_) v (fun _ _ _ _ => trivial) h
  -- An old resolver lags behind the new one by what it lags behind already, and by what is new.
  rcases lags with same | ⟨none, awaited⟩
  · rcases known q with kept | ⟨none, now⟩
    · exact .inl (same.trans kept.symm)
    · exact .inr ⟨same.trans none, now⟩
  · exact .inr ⟨none, later q awaited⟩

/-- What does not wait for a reference does not need it to be due. -/
theorem Value.Reflects.spare {v : Value} {l : Localized} {o : Option Outstanding} {r : Reference}
    (unawaited : ∀ x, o = some x → r ∉ x.references) (h : v.Reflects due resolve rep l o) :
    v.Reflects (fun q => due q ∧ q ≠ r) resolve rep l o := by
  refine Reflects.imp (P := fun q => q ≠ r) ?_ v
    (fun x left q waits same => unawaited x left (same ▸ waits)) h
  -- Only what is waited for may still be unknown, and `r` is not among that.
  intro q old lags differs
  rcases lags with same | ⟨none, awaited⟩
  · exact .inl same
  · exact .inr ⟨none, awaited, differs none⟩

end Replica
