import Mathlib.Algebra.Order.BigOperators.Group.List
import Mathlib.Tactic.Abel
import Mathlib.Tactic.Common

/-!
# A clock that counts the kept entries only

Every entry of a list has a weight and a stamp, and the stamps advance by the
weights. A reader adds up the weights of the entries that were kept. The count
between two kept entries is the difference of their stamps exactly when the
entries dropped between them weigh nothing, and for all pairs it is enough to
ask this of neighbouring kept entries.
-/

namespace RtmpRelay.LossyClock

variable {ι M : Type*} [AddCommGroup M] (kept : ι → Bool) (w : ι → M)

def counted (xs : List ι) : M := ((xs.filter kept).map w).sum

def dropped (xs : List ι) : M := ((xs.filter fun x => !kept x).map w).sum

def segment (xs : List ι) (i j : ℕ) : List ι := (xs.take j).drop i

def Stamped (stamp : ι → M) (xs : List ι) : Prop :=
  ∀ k x y, xs[k]? = some x → xs[k + 1]? = some y → stamp y = stamp x + w x

variable {kept w}

theorem counted_append (xs ys : List ι) :
    counted kept w (xs ++ ys) = counted kept w xs + counted kept w ys := by
  simp [counted]

theorem dropped_append (xs ys : List ι) :
    dropped kept w (xs ++ ys) = dropped kept w xs + dropped kept w ys := by
  simp [dropped]

theorem counted_add_dropped (xs : List ι) :
    counted kept w xs + dropped kept w xs = (xs.map w).sum := by
  induction xs with
  | nil => simp [counted, dropped]
  | cons x xs ih =>
    have hsum : ((x :: xs).map w).sum = w x + (xs.map w).sum := by simp
    rw [hsum, ← ih]
    by_cases hx : kept x = true
    · have hc : counted kept w (x :: xs) = w x + counted kept w xs := by simp [counted, hx]
      have hd : dropped kept w (x :: xs) = dropped kept w xs := by simp [dropped, hx]
      rw [hc, hd]
      abel
    · have hc : counted kept w (x :: xs) = counted kept w xs := by simp [counted, hx]
      have hd : dropped kept w (x :: xs) = w x + dropped kept w xs := by simp [dropped, hx]
      rw [hc, hd]
      abel

theorem segment_append {xs : List ι} {i j k : ℕ} (hij : i ≤ j) (hjk : j ≤ k)
    (hk : k ≤ xs.length) : segment xs i j ++ segment xs j k = segment xs i k := by
  have htake : xs.take j ++ (xs.take k).drop j = xs.take k := by
    have hsplit := List.take_append_drop j (xs.take k)
    rwa [List.take_take, Nat.min_eq_left hjk] at hsplit
  have hlen : i ≤ (xs.take j).length := by
    rw [List.length_take]
    omega
  rw [segment, segment, segment, ← htake, List.drop_append_of_le_length hlen, htake]

theorem segment_succ {xs : List ι} {i : ℕ} {x : ι} (hx : xs[i]? = some x) :
    segment xs i (i + 1) = [x] := by
  obtain ⟨hi, rfl⟩ := List.getElem?_eq_some_iff.mp hx
  have hlen : (xs.take i).length = i := by
    rw [List.length_take]
    omega
  rw [segment, List.take_add_one, List.drop_append, hlen]
  simp [hi]

theorem take_append_segment (xs : List ι) {i j : ℕ} (hij : i ≤ j) :
    xs.take i ++ segment xs i j = xs.take j := by
  have hsplit := List.take_append_drop i (xs.take j)
  rwa [List.take_take, Nat.min_eq_left hij] at hsplit

theorem counted_take_sub (xs : List ι) {i j : ℕ} (hij : i ≤ j) :
    counted kept w (xs.take j) - counted kept w (xs.take i) = counted kept w (segment xs i j) := by
  rw [← take_append_segment xs hij, counted_append]
  abel

theorem Stamped.sub {stamp : ι → M} {xs : List ι} (h : Stamped w stamp xs) {i j : ℕ}
    (hij : i ≤ j) {x y : ι} (hx : xs[i]? = some x) (hy : xs[j]? = some y) :
    stamp y - stamp x = ((segment xs i j).map w).sum := by
  induction j, hij using Nat.le_induction generalizing y with
  | base =>
    cases hx.symm.trans hy
    simp [segment]
  | succ j hij ih =>
    have hj : j + 1 < xs.length := (List.getElem?_eq_some_iff.mp hy).1
    have hprev : xs[j]? = some xs[j] := List.getElem?_eq_getElem (by omega)
    have hstamp := h j xs[j] y hprev hy
    have hsum := ih hprev
    rw [← segment_append hij (Nat.le_succ j) hj.le, segment_succ hprev, List.map_append,
      List.sum_append, ← hsum, hstamp]
    simp only [List.map_cons, List.map_nil, List.sum_cons, List.sum_nil]
    abel

theorem Stamped.aligned_iff {stamp : ι → M} {xs : List ι} (h : Stamped w stamp xs) {i j : ℕ}
    (hij : i ≤ j) {x y : ι} (hx : xs[i]? = some x) (hy : xs[j]? = some y) :
    counted kept w (xs.take j) - counted kept w (xs.take i) = stamp y - stamp x ↔
      dropped kept w (segment xs i j) = 0 := by
  have hparts : counted kept w (segment xs i j) + dropped kept w (segment xs i j) =
      ((segment xs i j).map w).sum := counted_add_dropped _
  rw [counted_take_sub xs hij, h.sub hij hx hy, ← hparts]
  exact left_eq_add

variable (kept)

def KeptAt (xs : List ι) (i : ℕ) : Prop := ∃ x, xs[i]? = some x ∧ kept x = true

variable (w)

/-- Nothing of weight was dropped between neighbouring kept entries. -/
def NoGap (xs : List ι) : Prop :=
  ∀ i j, i < j → KeptAt kept xs i → KeptAt kept xs j →
    (∀ k, i < k → k < j → ¬ KeptAt kept xs k) → ((segment xs (i + 1) j).map w).sum = 0

variable {kept w}

theorem KeptAt.lt_length {xs : List ι} {i : ℕ} (h : KeptAt kept xs i) : i < xs.length := by
  obtain ⟨x, hx, _⟩ := h
  exact (List.getElem?_eq_some_iff.mp hx).1

theorem mem_segment {xs : List ι} {i j : ℕ} {x : ι} (h : x ∈ segment xs i j) :
    ∃ k, i ≤ k ∧ k < j ∧ xs[k]? = some x := by
  obtain ⟨n, hn⟩ := List.mem_iff_getElem?.mp h
  rw [segment, List.getElem?_drop] at hn
  have hlt := (List.getElem?_eq_some_iff.mp hn).1
  rw [List.length_take] at hlt
  refine ⟨i + n, by omega, by omega, ?_⟩
  rwa [List.getElem?_take_of_lt (by omega)] at hn

theorem dropped_segment {xs : List ι} {i j : ℕ} (hij : i < j) (hi : KeptAt kept xs i)
    (hj : j ≤ xs.length) (hbetween : ∀ k, i < k → k < j → ¬ KeptAt kept xs k) :
    dropped kept w (segment xs i j) = ((segment xs (i + 1) j).map w).sum := by
  obtain ⟨x, hx, hk⟩ := hi
  rw [← segment_append (Nat.le_succ i) hij hj, segment_succ hx, dropped_append]
  have hnone : (segment xs (i + 1) j).filter (fun y => !kept y) = segment xs (i + 1) j := by
    apply List.filter_eq_self.mpr
    intro y hy
    obtain ⟨k, hik, hkj, hxk⟩ := mem_segment hy
    cases hy' : kept y with
    | false => rfl
    | true => exact absurd ⟨y, hxk, hy'⟩ (hbetween k hik hkj)
  rw [dropped, dropped, hnone]
  simp [hk]

theorem noGap_iff (xs : List ι) :
    (∀ i j, i < j → KeptAt kept xs i → KeptAt kept xs j →
      dropped kept w (segment xs i j) = 0) ↔ NoGap kept w xs := by
  constructor
  · intro h i j hij hi hj hbetween
    rw [← dropped_segment hij hi hj.lt_length.le hbetween]
    exact h i j hij hi hj
  · intro h i j hij hi hj
    -- by induction on the distance, splitting at a kept entry in between
    obtain ⟨n, hn⟩ : ∃ n, j - i ≤ n := ⟨_, le_rfl⟩
    induction n generalizing i j with
    | zero => omega
    | succ n ih =>
      by_cases hmid : ∃ k, i < k ∧ k < j ∧ KeptAt kept xs k
      · obtain ⟨k, hik, hkj, hk⟩ := hmid
        rw [← segment_append hik.le hkj.le hj.lt_length.le, dropped_append,
          ih i k hik hi hk (by omega), ih k j hkj hk hj (by omega), add_zero]
      · have hbetween : ∀ k, i < k → k < j → ¬ KeptAt kept xs k :=
          fun k hik hkj hk => hmid ⟨k, hik, hkj, hk⟩
        rw [dropped_segment hij hi hj.lt_length.le hbetween]
        exact h i j hij hi hj hbetween

theorem noGap_iff_of_pos [LinearOrder M] [IsOrderedAddMonoid M] {xs : List ι}
    (hw : ∀ x ∈ xs, 0 < w x) :
    NoGap kept w xs ↔ ∀ i k j, i < k → k < j → KeptAt kept xs i → KeptAt kept xs j →
      KeptAt kept xs k := by
  constructor
  · intro h i k j hik hkj hi hj
    by_contra hk
    have hzero := (noGap_iff xs).mpr h i j (hik.trans hkj) hi hj
    have hlt : k < xs.length := hkj.trans hj.lt_length
    have hx : xs[k]? = some xs[k] := List.getElem?_eq_getElem hlt
    have hdrop : kept xs[k] = false := by
      cases hv : kept xs[k] with
      | false => rfl
      | true => exact absurd ⟨xs[k], hx, hv⟩ hk
    have hnonneg : ∀ a b, 0 ≤ dropped kept w (segment xs a b) := by
      intro a b
      apply List.sum_nonneg
      intro v hv
      obtain ⟨y, hy, rfl⟩ := List.mem_map.mp hv
      obtain ⟨n, _, _, hn⟩ := mem_segment (List.mem_of_mem_filter hy)
      exact (hw y (List.mem_of_getElem? hn)).le
    have hself : dropped kept w (segment xs k (k + 1)) = w xs[k] := by
      rw [segment_succ hx]
      simp [dropped, hdrop]
    rw [← segment_append hik.le hkj.le hj.lt_length.le,
      ← segment_append (Nat.le_succ k) hkj hj.lt_length.le, dropped_append, dropped_append,
      hself] at hzero
    have hpos : 0 < w xs[k] := hw _ (List.getElem_mem hlt)
    have hrest : 0 < w xs[k] + dropped kept w (segment xs (k + 1) j) :=
      add_pos_of_pos_of_nonneg hpos (hnonneg _ _)
    exact absurd hzero (add_pos_of_nonneg_of_pos (hnonneg _ _) hrest).ne'
  · intro h i j hij hi hj hbetween
    have hnext : j = i + 1 := by
      by_contra hne
      exact hbetween (i + 1) (by omega) (by omega) (h i (i + 1) j (by omega) (by omega) hi hj)
    subst hnext
    simp [segment]

end RtmpRelay.LossyClock
