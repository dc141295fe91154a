import Replica.Proofs.Ledger.Accounts

/-! # Holes in executed calls

A parked call counts its missing arguments off and never counts one back on, while its arguments
are made local only when it is executed. So an argument that was found and is gone again by then
leaves a hole. This is the only way to a hole: a call in which nothing is lost in between is
executed with every argument local.

Main definitions:
* `LostBetween` — a reference was found in a moment, and is not local in a later one.
* `Session.executed_whole_iff` — an executed call has a hole just where a reference was lost. -/

namespace Replica

/-- Between two moments of a course a reference is **lost**: it is found in one of them, and not
local in the last. -/
def LostBetween (course : List Moment) (first last : Nat) (r : Reference) : Prop :=
  FoundBetween course first last r ∧ ∃ m, course[last]? = some m ∧ m.session.resolver r = none

/-- An outcome is **whole** if every reference inside the arguments is a local object in the moment
in which the errand ends. -/
def Outcome.IsWhole (x : Outcome) : Prop :=
  ∀ r ∈ Value.referencesAll x.errand.call.args, ∃ h, x.session.resolver r = some h

/-- What a sound ledger lists as executed is whole just if nothing was lost since its delivery. -/
theorem Ledger.Sound.isWhole_iff {l : Ledger} {w : Work} {past : List Moment} (h : l.Sound w past)
    {x : Outcome} (mem : x ∈ l.executed) :
    x.IsWhole ↔ ∀ r ∈ Value.referencesAll x.errand.call.args,
      ¬LostBetween past x.errand.number x.number r := by
  obtain ⟨-, ⟨m, at_number, same⟩, finds⟩ := h.ran x mem
  constructor
  · rintro whole r refs ⟨-, m', at_number', none⟩
    obtain ⟨k, known⟩ := whole r refs
    have eq : m' = m := Option.some.inj (at_number'.symm.trans at_number)
    rw [eq, same, known] at none
    cases none
  · intro kept r refs
    by_cases known : x.session.resolver r = none
    · exact absurd ⟨finds r refs, m, at_number, same.symm ▸ known⟩ (kept r refs)
    · exact Option.ne_none_iff_exists'.mp known

namespace Session

variable {settings : Settings} {protocol : Protocol} {acts : List Act} {s : Session}

/-- **Holes come from lost arguments alone**: after every run, a call that was executed had waited
until each of its references was found, and was executed with what its arguments were locally at
that moment. Every reference was a local object then just if none of them was lost between. -/
theorem executed_whole_iff (ok : (start settings protocol).run acts = .ok s) :
    let course := (start settings protocol).course acts
    s.world.journal.executed = (Ledger.ofCourse course).executed.map (·.execution) ∧
      ∀ x ∈ (Ledger.ofCourse course).executed,
        (∃ m, course[x.number]? = some m ∧ m.session = x.session) ∧
        (∀ r ∈ Value.referencesAll x.errand.call.args,
          FoundBetween course x.errand.number x.number r) ∧
        (x.IsWhole ↔ ∀ r ∈ Value.referencesAll x.errand.call.args,
          ¬LostBetween course x.errand.number x.number r) := by
  have sound := sound_ofCourse ok
  refine ⟨sound.executed, ?_⟩
  intro x mem
  obtain ⟨-, moment, finds⟩ := sound.ran x mem
  exact ⟨moment, finds, sound.isWhole_iff mem⟩

/-- A crate is called with two objects that are still to come. The first one comes and goes before
the second one comes. -/
def argumentComesAndGoes : List Act :=
  let build (entity : EntityId) := (Blueprint.ofClass entity "Crate").operations
  (build 1 ++ [Operation.multicast 1 [⟨3, [.ref (.root 2), .ref (.root 4)]⟩]] ++ build 2 ++
    [Operation.removeEntity 2] ++ build 4).map .receive

theorem executed_whole_iff_argumentComesAndGoes :
    ∃ s course, (start {} Stock.protocol).run argumentComesAndGoes = .ok s ∧
      course = (start {} Stock.protocol).course argumentComesAndGoes ∧
      (Ledger.ofCourse course).executed.length = 1 ∧
      ∀ x ∈ (Ledger.ofCourse course).executed,
        x.IsWhole ↔ ∀ r ∈ Value.referencesAll x.errand.call.args,
          ¬LostBetween course x.errand.number x.number r := by
  obtain ⟨s, ok, -⟩ := exists_run (start {} Stock.protocol) argumentComesAndGoes (fun _ => true)
    (by decide +kernel)
  refine ⟨s, _, ok, rfl, by decide +kernel, ?_⟩
  intro x mem
  exact ((executed_whole_iff ok).2 x mem).2.2

/-- Its call is executed with a hole for the object that has gone. -/
theorem executed_argumentComesAndGoes :
    ∃ s, (start {} Stock.protocol).run argumentComesAndGoes = .ok s ∧
      s.world.journal.executed = [⟨⟨0, 0⟩, 3, [.object none, .object (some ⟨1, 1⟩)]⟩] ∧
      ¬∀ x ∈ (Ledger.ofCourse ((start {} Stock.protocol).course argumentComesAndGoes)).executed,
        x.IsWhole := by
  obtain ⟨s, ok, test⟩ := exists_run (start {} Stock.protocol) argumentComesAndGoes
    (fun s => s.world.journal.executed ==
      [⟨⟨0, 0⟩, 3, [.object none, .object (some ⟨1, 1⟩)]⟩]) (by decide +kernel)
  refine ⟨s, ok, beq_iff_eq.mp test, ?_⟩
  intro whole
  have hollow : (Ledger.ofCourse ((start {} Stock.protocol).course
      argumentComesAndGoes)).executed.any (fun x =>
        (Value.referencesAll x.errand.call.args).contains (.root 2) &&
          (x.session.resolver (.root 2)).isNone) = true := by decide +kernel
  obtain ⟨x, mem, both⟩ := List.any_eq_true.mp hollow
  obtain ⟨refs, none⟩ := Bool.and_eq_true_iff.mp both
  obtain ⟨h, known⟩ := whole x mem (.root 2) (List.contains_iff_mem.mp refs)
  rw [known] at none
  cases none

end Session

end Replica
