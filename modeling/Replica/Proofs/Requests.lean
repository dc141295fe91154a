import Mathlib.Algebra.Group.Nat.Defs
import Mathlib.Data.List.Nodup
import Mathlib.Data.List.Perm.Subperm
import Mathlib.Data.Nat.Find
import Replica.Requests

/-! # Issuing request ids

A table issues the first id, counted upward from where it left off, under which nothing is
outstanding. Callers may register what they like under any id, and counting wraps around at the top;
the search ends all the same, since fewer entries than there are ids do not cover a whole round. No
id is issued twice before the count has gone round once.

Main definitions:
* `RequestTable.idAfter` — counting upward, around the end.
* `RequestTable.Search` — the search for a free id, turn by turn.
* `RequestTable.Reached` — what uses of a table lead to, with the ids issued and the turns made.
* `RequestTable.ids_fresh` — the search ends with the first free id, and no id is issued twice. -/

namespace Replica.RequestTable

variable {α : Type} {t u : RequestTable α} {id : RequestId} {n m turns : Nat}

/-! ## Counting ids -/

/-- The id `n` steps **after** another one. The highest id is followed by the lowest. -/
def idAfter (id : RequestId) (n : Nat) : RequestId := id + .ofNat n

example : idAfter Int64.maxValue 1 = Int64.minValue := by decide

@[simp] theorem idAfter_zero (id : RequestId) : idAfter id 0 = id := Int64.add_zero id

/-- Steps from an id add up. -/
theorem idAfter_idAfter (id : RequestId) (n m : Nat) :
    idAfter (idAfter id n) m = idAfter id (n + m) := by
  have sum : Int64.ofNat (n + m) = Int64.ofNat n + Int64.ofNat m := by
    apply Int64.toBitVec_inj.mp
    simp
  rw [idAfter, idAfter, idAfter, sum, Int64.add_assoc]

/-- The first of some steps may be taken before the others. -/
theorem idAfter_succ (id : RequestId) (n : Nat) : idAfter id (n + 1) = idAfter (id + 1) n := by
  rw [Nat.add_comm, ← idAfter_idAfter]
  rfl

/-- Less than a round of steps leads to different ids. -/
theorem idAfter_inj (round_n : n < 2 ^ 64) (round_m : m < 2 ^ 64)
    (same : idAfter id n = idAfter id m) : n = m := by
  have steps : Int64.ofNat n = Int64.ofNat m := (Int64.add_right_inj id).mp same
  have bits : (Int64.ofNat n).toBitVec = (Int64.ofNat m).toBitVec := congrArg _ steps
  have values := congrArg BitVec.toNat bits
  simp only [Int64.toBitVec_ofNat', BitVec.toNat_ofNat] at values
  omega

/-! ## The search for a free id -/

/-- A table that looks for a free id from another one on. -/
def lookFrom (t : RequestTable α) (id : RequestId) : RequestTable α := { t with next := id }

/-- The **search** for a free id: how many turns it takes, the id that it ends with, and the table
that it leaves. Each turn looks at one id and moves the table on to the next one. A search that goes
on for ever has no end. -/
inductive Search : RequestTable α → (turns : Nat) → RequestId → RequestTable α → Prop
  /-- Nothing is outstanding under the id, so it is issued. -/
  | found {t : RequestTable α} (free : t.contains t.next = false) :
      Search t 1 t.next (t.lookFrom (t.next + 1))
  /-- Something is outstanding under it, so the search goes on. -/
  | passed {t u : RequestTable α} {turns : Nat} {id : RequestId}
      (taken : t.contains t.next = true) (rest : Search (t.lookFrom (t.next + 1)) turns id u) :
      Search t (turns + 1) id u

/-- The **first free** id from another one on is `n` steps away: something is outstanding under each
id on the way, and nothing under that one. -/
structure FirstFree (t : RequestTable α) (id : RequestId) (n : Nat) : Prop where
  /-- The ids on the way are taken. -/
  taken : ∀ j < n, t.contains (idAfter id j) = true
  /-- The id itself is free. -/
  free : t.contains (idAfter id n) = false

/-- An id is the first free one if no request bears it. -/
theorem firstFree_zero_iff : t.FirstFree id 0 ↔ t.contains id = false := by
  constructor
  · intro h
    rw [← idAfter_zero id]
    exact h.free
  · intro free
    refine ⟨fun j less => absurd less (Nat.not_lt_zero j), ?_⟩
    rwa [idAfter_zero]

/-- An id that is taken is passed, and the first free one is a step nearer from the next. -/
theorem firstFree_succ_iff :
    t.FirstFree id (n + 1) ↔ t.contains id = true ∧ t.FirstFree (id + 1) n := by
  constructor
  · intro h
    refine ⟨by simpa using h.taken 0 (Nat.succ_pos n), fun j less => ?_, ?_⟩
    · rw [← idAfter_succ]
      exact h.taken (j + 1) (Nat.succ_lt_succ less)
    · rw [← idAfter_succ]
      exact h.free
  · rintro ⟨taken, h⟩
    refine ⟨fun j less => ?_, ?_⟩
    · cases j with
      | zero => rwa [idAfter_zero]
      | succ j =>
        rw [idAfter_succ]
        exact h.taken j (Nat.lt_of_succ_lt_succ less)
    · rw [idAfter_succ]
      exact h.free

/-- Where a table looks does not matter to what is free. -/
theorem firstFree_lookFrom (t : RequestTable α) (start : RequestId) :
    (t.lookFrom start).FirstFree id n ↔ t.FirstFree id n :=
  ⟨fun h => ⟨h.taken, h.free⟩, fun h => ⟨h.taken, h.free⟩⟩

namespace FirstFree

/-- There is one first free id. -/
theorem unique (hn : t.FirstFree id n) (hm : t.FirstFree id m) : n = m := by
  rcases Nat.lt_trichotomy n m with less | same | more
  · have taken := hm.taken n less
    rw [hn.free] at taken
    cases taken
  · exact same
  · have taken := hn.taken m more
    rw [hm.free] at taken
    cases taken

/-- The search ends with the first free id. -/
theorem search (h : t.FirstFree t.next n) :
    t.Search (n + 1) (idAfter t.next n) (t.lookFrom (idAfter t.next (n + 1))) := by
  induction n generalizing t with
  | zero =>
    rw [idAfter_zero]
    exact .found (firstFree_zero_iff.mp h)
  | succ n ih =>
    obtain ⟨taken, nearer⟩ := firstFree_succ_iff.mp h
    rw [idAfter_succ, idAfter_succ]
    exact .passed taken (ih ((firstFree_lookFrom t _).mpr nearer))

/-- One try for each id on the way is enough to come to the first free one. -/
theorem freeFrom_eq (h : t.FirstFree id n) {tries : Nat} (enough : n ≤ tries) :
    t.freeFrom tries id = idAfter id n := by
  induction n generalizing id tries with
  | zero =>
    have free := firstFree_zero_iff.mp h
    cases tries with
    | zero => rw [freeFrom, idAfter_zero]
    | succ tries => simp [freeFrom, free]
  | succ n ih =>
    obtain ⟨taken, nearer⟩ := firstFree_succ_iff.mp h
    cases tries with
    | zero => exact absurd enough (Nat.not_succ_le_zero n)
    | succ tries =>
      rw [freeFrom, if_pos taken, ih nearer (Nat.le_of_succ_le_succ enough), idAfter_succ]

end FirstFree

/-- A search that ends has found the first free id. -/
theorem Search.firstFree (h : t.Search turns id u) :
    ∃ n, turns = n + 1 ∧ t.FirstFree t.next n ∧ id = idAfter t.next n ∧
      u = t.lookFrom (idAfter t.next turns) := by
  induction h with
  | @found t free => exact ⟨0, rfl, firstFree_zero_iff.mpr free, (idAfter_zero _).symm, rfl⟩
  | @passed t u turns id taken rest ih =>
    obtain ⟨n, rfl, nearer, found, left⟩ := ih
    rw [firstFree_lookFrom] at nearer
    refine ⟨n + 1, rfl, firstFree_succ_iff.mpr ⟨taken, nearer⟩, ?_, ?_⟩
    · rw [idAfter_succ]
      exact found
    · rw [idAfter_succ]
      exact left

/-! ## The search ends -/

/-- **Fewer entries than there are ids leave one free**, no farther away than there are entries. -/
theorem exists_free (few : t.size < 2 ^ 64) (id : RequestId) :
    ∃ n ≤ t.size, t.contains (idAfter id n) = false := by
  by_contra full
  push Not at full
  -- Otherwise one more id than there are entries would be taken, and no two of them alike.
  let ids := (List.range (t.size + 1)).map (idAfter id)
  have nodup : ids.Nodup := by
    refine List.Nodup.map_on ?_ List.nodup_range
    intro n below_n m below_m same
    rw [List.mem_range] at below_n below_m
    exact idAfter_inj (by omega) (by omega) same
  have within : ids ⊆ t.entries.keys := by
    intro k mem
    obtain ⟨n, below, rfl⟩ := List.mem_map.mp mem
    rw [List.mem_range] at below
    rw [Std.ExtTreeMap.mem_keys, ← Std.ExtTreeMap.contains_iff_mem]
    exact Bool.of_not_eq_false (full n (Nat.le_of_lt_succ below))
  have bound := (List.subperm_of_subset nodup within).length_le
  rw [List.length_map, List.length_range, Std.ExtTreeMap.length_keys] at bound
  exact Nat.not_succ_le_self _ bound

/-- Where fewer requests wait than there are ids, one of the next ids is free. -/
theorem exists_firstFree (few : t.size < 2 ^ 64) (id : RequestId) :
    ∃ n ≤ t.size, t.FirstFree id n := by
  obtain ⟨m, near, free⟩ := exists_free few id
  have some : ∃ n, t.contains (idAfter id n) = false := ⟨m, free⟩
  refine ⟨Nat.find some, Nat.le_trans (Nat.find_min' some free) near, ?_, Nat.find_spec some⟩
  exact fun j less => Bool.of_not_eq_false (Nat.find_min some less)

/-- What a table issues, and what is left of it, where the first free id is near. -/
theorem FirstFree.issue_eq (h : t.FirstFree t.next n) (near : n ≤ t.size) :
    t.issue = (idAfter t.next n, t.lookFrom (idAfter t.next (n + 1))) := by
  rw [issue, h.freeFrom_eq near, ← idAfter_idAfter]
  rfl

/-! ## Uses of a table -/

/-- What uses of a fresh table **lead to**: the ids that it has issued by then, in order, how many
turns the searches for them took together, and the table. A registration that is refused changes
nothing and is left out. -/
inductive Reached (domain : String) :
    (issued : List RequestId) → (turns : Nat) → RequestTable α → Prop
  /-- Nothing has been done. -/
  | fresh : Reached domain [] 0 { domain }
  /-- An id was asked for, and the search for it has ended. -/
  | issue {t u : RequestTable α} {issued : List RequestId} {turns more : Nat} {id : RequestId}
      (before : Reached domain issued turns t) (ends : t.Search more id u) :
      Reached domain (issued ++ [id]) (turns + more) u
  /-- A request was registered under some id, issued or not. -/
  | register {t u : RequestTable α} {issued : List RequestId} {turns : Nat}
      (before : Reached domain issued turns t) (id : RequestId) (entry : α)
      (accepted : t.register id entry = .ok u) : Reached domain issued turns u
  /-- The answer to a request came in. -/
  | take {t : RequestTable α} {issued : List RequestId} {turns : Nat}
      (before : Reached domain issued turns t) (id : RequestId) :
      Reached domain issued turns (t.erase id)
  /-- Some requests were given up. -/
  | drop {t : RequestTable α} {issued : List RequestId} {turns : Nat}
      (before : Reached domain issued turns t) (p : α → Bool) :
      Reached domain issued turns (t.dropWhere p)

/-- A registration leaves the count alone. -/
theorem next_of_register {entry : α} (accepted : t.register id entry = .ok u) :
    u.next = t.next := by
  unfold register at accepted
  split at accepted
  · cases accepted
  · cases accepted
    rfl

namespace Reached

variable {domain : String} {issued : List RequestId}

/-- **A table keeps count**: it is as many ids away from the first one as turns were made, and what
it has issued are ids on the way, in ascending order. -/
theorem counted (h : Reached domain issued turns t) :
    t.next = idAfter 1 turns ∧
      ∃ steps : List Nat, issued = steps.map (idAfter 1) ∧ steps.Pairwise (· < ·) ∧
        ∀ n ∈ steps, n < turns := by
  induction h with
  | fresh => exact ⟨(idAfter_zero 1).symm, [], rfl, .nil, fun _ mem => by cases mem⟩
  | @issue t u issued turns more id before ends ih =>
    obtain ⟨next, steps, rfl, ascending, passed⟩ := ih
    obtain ⟨n, rfl, -, rfl, rfl⟩ := ends.firstFree
    have later : idAfter t.next n = idAfter 1 (turns + n) := by rw [next, idAfter_idAfter]
    refine ⟨?_, steps ++ [turns + n], ?_, ?_, ?_⟩
    · show idAfter t.next (n + 1) = _
      rw [next, idAfter_idAfter]
    · rw [later, List.map_append, List.map_singleton]
    · refine List.pairwise_append.mpr ⟨ascending, List.pairwise_singleton _ _, ?_⟩
      intro k mem l last
      rw [List.mem_singleton.mp last]
      exact Nat.lt_of_lt_of_le (passed k mem) (Nat.le_add_right turns n)
    · intro k mem
      rcases List.mem_append.mp mem with earlier | last
      · exact Nat.lt_of_lt_of_le (passed k earlier) (Nat.le_add_right turns _)
      · rw [List.mem_singleton.mp last]
        exact Nat.lt_succ_self _
  | register before id entry accepted ih => rwa [next_of_register accepted]
  | take before id ih => exact ih
  | drop before p ih => exact ih

/-- Before the count has gone round once, no id is issued twice. -/
theorem nodup (h : Reached domain issued turns t) (few : turns < 2 ^ 64) : issued.Nodup := by
  obtain ⟨-, steps, rfl, ascending, passed⟩ := h.counted
  refine List.Nodup.map_on ?_ (ascending.imp Nat.ne_of_lt)
  intro n mem_n m mem_m
  exact idAfter_inj (Nat.lt_trans (passed n mem_n) few) (Nat.lt_trans (passed m mem_m) few)

end Reached

/-! ## Ids are fresh -/

/-- A table **issues a fresh id** if the search for one ends, and in one way only: with the first id
from where the table left off under which nothing is outstanding. -/
structure IssuesFresh (t : RequestTable α) : Prop where
  /-- The search ends, and takes at most one turn more than there are entries. -/
  ends : ∃ turns ≤ t.size + 1, t.Search turns t.issue.1 t.issue.2
  /-- It has no other end. -/
  only : ∀ turns id u, t.Search turns id u → id = t.issue.1 ∧ u = t.issue.2
  /-- It ends with the first free id. -/
  first : ∃ n, t.issue.1 = idAfter t.next n ∧ t.get? t.issue.1 = none ∧
    ∀ j < n, t.get? (idAfter t.next j) ≠ none
  /-- What is outstanding stays so. -/
  kept : t.issue.2.entries = t.entries
  /-- The table goes on behind the id that is issued. -/
  next : t.issue.2.next = idAfter t.issue.1 1

/-- A request waits under an id just if it is found there. -/
theorem contains_eq_isSome (t : RequestTable α) (id : RequestId) :
    t.contains id = (t.get? id).isSome := Std.ExtTreeMap.contains_eq_isSome_getElem?

/-- Where fewer requests wait than there are ids, a fresh one is issued. -/
theorem issuesFresh_of_few (few : t.size < 2 ^ 64) : t.IssuesFresh := by
  obtain ⟨n, near, h⟩ := exists_firstFree few t.next
  have issues := h.issue_eq near
  constructor
  case ends =>
    refine ⟨n + 1, Nat.succ_le_succ near, ?_⟩
    rw [issues]
    exact h.search
  case only =>
    intro turns id u search
    obtain ⟨m, rfl, found, rfl, rfl⟩ := search.firstFree
    rw [issues, found.unique h]
    exact ⟨rfl, rfl⟩
  case first =>
    refine ⟨n, by rw [issues], ?_, fun j less none => ?_⟩
    · have free := h.free
      rw [contains_eq_isSome, Option.isSome_eq_false_iff, Option.isNone_iff_eq_none] at free
      rw [issues]
      exact free
    · have taken := h.taken j less
      rw [contains_eq_isSome, none] at taken
      cases taken
  case kept => rfl
  case next => rfl

/-- **Issued ids are fresh**: whatever a table is used for, the search for an id ends with the first
that is free, if there are fewer entries than ids; and no id is issued twice before the searches
have taken as many turns as there are ids. -/
theorem ids_fresh {domain : String} {issued : List RequestId}
    (reached : Reached domain issued turns t) :
    (t.size < 2 ^ 64 → t.IssuesFresh) ∧ (turns < 2 ^ 64 → issued.Nodup) :=
  ⟨issuesFresh_of_few, reached.nodup⟩

/-- Three requests are registered, ids are issued around the last of them, one request is answered,
and all but the first are given up. -/
def busyTable : RequestTable Nat where
  domain := "entity query"
  next := 7
  entries := (((((∅ : Std.ExtTreeMap RequestId Nat).insert 1 10).insert 2 20).insert 4 40).erase
    2).filter fun _ entry => !decide (20 ≤ entry)

theorem reached_busyTable : Reached "entity query" [3, 5, 6] 6 busyTable := by
  have registered : Reached "entity query" [] 0 _ :=
    ((Reached.fresh.register 1 10 rfl).register 2 20 rfl).register 4 40 rfl
  have third : Reached "entity query" [3] 3 _ := registered.issue <|
    .passed (by decide +kernel) (.passed (by decide +kernel) (.found (by decide +kernel)))
  have fifth : Reached "entity query" [3, 5] 5 _ := (third.take 2).issue <|
    .passed (by decide +kernel) (.found (by decide +kernel))
  exact (fifth.drop fun entry => decide (20 ≤ entry)).issue (.found (by decide +kernel))

theorem ids_fresh_busyTable :
    Reached "entity query" [3, 5, 6] 6 busyTable ∧ busyTable.size < 2 ^ 64 ∧ 6 < 2 ^ 64 ∧
      busyTable.IssuesFresh ∧ ([3, 5, 6] : List RequestId).Nodup ∧ busyTable.issue.1 = 7 := by
  have few : busyTable.size < 2 ^ 64 := by decide +kernel
  obtain ⟨fresh, nodup⟩ := ids_fresh reached_busyTable
  exact ⟨reached_busyTable, few, by decide, fresh few, nodup (by decide), by decide +kernel⟩

end Replica.RequestTable
