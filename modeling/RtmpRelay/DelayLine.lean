import Mathlib.Algebra.Order.BigOperators.Group.List
import Mathlib.Tactic.Linarith
import Mathlib.Tactic.Common

/-!
# A delay line with a weight threshold

A first-in first-out line keeps every entry until the weights behind it add up
to more than a threshold. `releaseCount T ws` is how many entries of the line
with weights `ws` have left it. For non-negative weights this is the exact
set of entries whose tail sum exceeds `T`, and the count of a line that grows
one entry at a time is computed from the entries still held.
-/

namespace RtmpRelay.DelayLine

variable {M : Type*} [AddCommMonoid M] [LinearOrder M]

def releaseCount (T : M) : List M → ℕ
  | [] => 0
  | _ :: ws => if T < ws.sum then releaseCount T ws + 1 else 0

theorem releaseCount_le_length (T : M) (ws : List M) : releaseCount T ws ≤ ws.length := by
  induction ws with
  | nil => exact le_rfl
  | cons w ws ih =>
    simp only [releaseCount, List.length_cons]
    split_ifs <;> omega

theorem releaseCount_drop {T : M} {ws : List M} {k : ℕ} (hk : k ≤ releaseCount T ws) :
    releaseCount T ws = k + releaseCount T (ws.drop k) := by
  induction k generalizing ws with
  | zero => simp
  | succ k ih =>
    cases ws with
    | nil => simp [releaseCount] at hk
    | cons w ws =>
      simp only [releaseCount] at hk ⊢
      split_ifs at hk ⊢ with h
      · have hrest : releaseCount T ws = k + releaseCount T (ws.drop k) := ih (by omega)
        simp only [List.drop_succ_cons]
        omega
      · omega

section Ordered
variable [IsOrderedAddMonoid M]

theorem sum_drop_le {ws : List M} (hws : ∀ w ∈ ws, 0 ≤ w) (i : ℕ) :
    (ws.drop i).sum ≤ ws.sum := by
  have htake : 0 ≤ (ws.take i).sum :=
    List.sum_nonneg fun w hw => hws w (List.mem_of_mem_take hw)
  calc (ws.drop i).sum = 0 + (ws.drop i).sum := (zero_add _).symm
    _ ≤ (ws.take i).sum + (ws.drop i).sum := add_le_add_left htake _
    _ = ws.sum := by rw [← List.sum_append, List.take_append_drop]

theorem releaseCount_eq_zero {T : M} {ws : List M} (hws : ∀ w ∈ ws, 0 ≤ w)
    (hsum : ws.sum ≤ T) : releaseCount T ws = 0 := by
  cases ws with
  | nil => rfl
  | cons w ws =>
    have htail : ws.sum ≤ T := (sum_drop_le hws 1).trans hsum
    simp [releaseCount, not_lt.mpr htail]

theorem lt_releaseCount_iff {T : M} {ws : List M} (hws : ∀ w ∈ ws, 0 ≤ w) (i : ℕ) :
    i < releaseCount T ws ↔ i < ws.length ∧ T < (ws.drop (i + 1)).sum := by
  induction ws generalizing i with
  | nil => simp [releaseCount]
  | cons w ws ih =>
    have htail : ∀ v ∈ ws, 0 ≤ v := fun v hv => hws v (List.mem_cons_of_mem w hv)
    simp only [releaseCount, List.length_cons, List.drop_succ_cons]
    split_ifs with h
    · cases i with
      | zero => simpa using h
      | succ i =>
        have hi := ih htail i
        constructor
        · intro hlt
          have hr := hi.mp (by omega)
          exact ⟨by omega, hr.2⟩
        · intro hr
          have hlt := hi.mpr ⟨by omega, hr.2⟩
          omega
    · constructor
      · intro hlt
        omega
      · intro hr
        exact absurd (hr.2.trans_le (sum_drop_le htail i)) h

theorem releaseCount_le_append {T : M} {ws vs : List M} (hws : ∀ w ∈ ws ++ vs, 0 ≤ w) :
    releaseCount T ws ≤ releaseCount T (ws ++ vs) := by
  have hleft : ∀ w ∈ ws, 0 ≤ w := fun w hw => hws w (List.mem_append_left vs hw)
  have hright : 0 ≤ vs.sum := List.sum_nonneg fun v hv => hws v (List.mem_append_right ws hv)
  by_contra hlt
  obtain ⟨hi, hT⟩ := (lt_releaseCount_iff hleft _).mp (not_le.mp hlt)
  have hgrow : (ws.drop (releaseCount T (ws ++ vs) + 1)).sum ≤
      ((ws ++ vs).drop (releaseCount T (ws ++ vs) + 1)).sum := by
    rw [List.drop_append_of_le_length (by omega), List.sum_append]
    exact le_add_of_nonneg_right hright
  have hself := (lt_releaseCount_iff hws (releaseCount T (ws ++ vs))).mpr
    ⟨by rw [List.length_append]; omega, hT.trans_le hgrow⟩
  exact lt_irrefl _ hself

theorem releaseCount_concat {T : M} {ws : List M} {v : M} (hws : ∀ w ∈ ws ++ [v], 0 ≤ w) :
    releaseCount T (ws ++ [v]) = releaseCount T ws +
      releaseCount T (ws.drop (releaseCount T ws) ++ [v]) := by
  have h := releaseCount_drop (releaseCount_le_append (T := T) hws)
  rwa [List.drop_append_of_le_length (releaseCount_le_length T ws)] at h

theorem sum_held_le {T m : M} (hT : 0 ≤ T) (hm : 0 ≤ m) {ws : List M}
    (hws : ∀ w ∈ ws, w ≤ m) : (ws.drop (releaseCount T ws)).sum ≤ m + T := by
  induction ws with
  | nil => simpa [releaseCount] using add_nonneg hm hT
  | cons w ws ih =>
    simp only [releaseCount]
    split_ifs with h
    · simpa using ih fun v hv => hws v (List.mem_cons_of_mem w hv)
    · simpa using add_le_add (hws w List.mem_cons_self) (not_lt.mp h)

end Ordered

end RtmpRelay.DelayLine
