import Mathlib.Data.List.Basic
import Mathlib.Data.List.Chain
import Mathlib.Tactic.Common

/-!
# Times kept apart

Lists of times of which each is at least a gap after the one before it, and how
many of them a span of time holds.
-/

namespace LibidBridge

/-- Each time is at least a gap after every earlier one. -/
def Spaced (gap : Nat) (times : List Nat) : Prop :=
  times.Pairwise fun first second => first + gap ≤ second

namespace Spaced

variable {gap : Nat} {times : List Nat}

theorem of_isChain (chain : times.IsChain fun first second => first + gap ≤ second) :
    Spaced gap times := by
  have transitive : IsTrans Nat fun first second => first + gap ≤ second :=
    ⟨fun first second third before after => by omega⟩
  exact List.isChain_iff_pairwise.mp chain

theorem filter (spaced : Spaced gap times) (keeps : Nat → Bool) :
    Spaced gap (times.filter keeps) :=
  List.Pairwise.filter keeps spaced

/-- All but one of the gaps between the times of a span fit in it. -/
theorem mul_gap_le (spaced : Spaced gap times) {first span : Nat}
    (inside : ∀ time ∈ times, first ≤ time ∧ time ≤ first + span) :
    (times.length - 1) * gap ≤ span := by
  induction times generalizing first span with
  | nil => simp
  | cons time times ih =>
      cases times with
      | nil => simp
      | cons second times =>
          obtain ⟨later, rest⟩ := List.pairwise_cons.mp spaced
          have start := inside time List.mem_cons_self
          have after := later second List.mem_cons_self
          have ends := inside second (List.mem_cons_of_mem _ List.mem_cons_self)
          have fits := @ih rest (time + gap) (first + span - (time + gap))
            (fun other member => by
              have := later other member
              have := inside other (List.mem_cons_of_mem _ member)
              omega)
          simp only [List.length_cons, Nat.add_sub_cancel] at fits ⊢
          rw [Nat.succ_mul]
          omega

/-- A span holds one more than the gaps that fit in it, at most. -/
theorem length_le (spaced : Spaced gap times) (positive : 0 < gap) {first span : Nat}
    (inside : ∀ time ∈ times, first ≤ time ∧ time ≤ first + span) :
    times.length ≤ span / gap + 1 := by
  have fits := (Nat.le_div_iff_mul_le positive).mpr (spaced.mul_gap_le inside)
  omega

/-- Of all the times, those within a span. -/
theorem length_filter_le (spaced : Spaced gap times) (positive : 0 < gap) (first span : Nat) :
    (times.filter fun time => first ≤ time ∧ time ≤ first + span).length ≤ span / gap + 1 := by
  apply (spaced.filter _).length_le positive
  intro time member
  simpa using (List.mem_filter.mp member).2

end Spaced

end LibidBridge
