import Mathlib.Data.List.Infix
import Mathlib.Tactic.Common

/-!
# Occurrences of a word in a list

`findFrom` is the first position from a given one at which a word occurs.
`occurrences` reads the list once from left to right, takes every position at
which the word occurs and skips the rest of it: the leftmost non-overlapping
occurrences. For a non-empty word they come out of repeated searches from the
end of the last match, and every other occurrence starts inside one of them.
-/

namespace RtmpRelay.Occurrences

variable {α : Type*} {w s : List α}

def OccursAt (w s : List α) (i : ℕ) : Prop := i ≤ s.length ∧ w <+: s.drop i

theorem OccursAt.add_le (h : OccursAt w s i) : i + w.length ≤ s.length := by
  have hlen := h.2.length_le
  rw [List.length_drop] at hlen
  have hle := h.1
  omega

theorem occursAt_drop {i j : ℕ} (hj : j ≤ s.length) :
    OccursAt w (s.drop j) i ↔ OccursAt w s (j + i) := by
  rw [OccursAt, OccursAt, List.drop_drop, List.length_drop]
  constructor
  · intro h
    exact ⟨by omega, h.2⟩
  · intro h
    exact ⟨by omega, h.2⟩

theorem occursAt_cons_succ {a : α} {i : ℕ} : OccursAt w (a :: s) (i + 1) ↔ OccursAt w s i := by
  rw [OccursAt, OccursAt, List.drop_succ_cons, List.length_cons, Nat.add_le_add_iff_right]

theorem occursAt_nil_iff (hw : w ≠ []) {i : ℕ} : ¬ OccursAt w [] i := by
  intro h
  have hle := h.add_le
  have hpos : 0 < w.length := List.length_pos_iff.mpr hw
  rw [List.length_nil] at hle
  omega

variable [DecidableEq α]

instance (w s : List α) (i : ℕ) : Decidable (OccursAt w s i) :=
  inferInstanceAs (Decidable (_ ∧ _))

def findFrom (s w : List α) (start : ℕ) : Option ℕ :=
  (List.range' start (s.length + 1 - start)).find? fun i => OccursAt w s i

theorem findFrom_eq_some {start p : ℕ} :
    findFrom s w start = some p ↔
      start ≤ p ∧ OccursAt w s p ∧ ∀ q, start ≤ q → q < p → ¬ OccursAt w s q := by
  rw [findFrom, List.find?_range'_eq_some]
  simp only [decide_eq_true_eq, List.mem_range'_1, Bool.not_eq_true', decide_eq_false_iff_not]
  constructor
  · intro h
    exact ⟨h.2.1.1, h.1, h.2.2⟩
  · intro h
    have hle := h.2.1.1
    exact ⟨h.2.1, ⟨h.1, by omega⟩, h.2.2⟩

theorem findFrom_eq_none {start : ℕ} :
    findFrom s w start = none ↔ ∀ q, start ≤ q → ¬ OccursAt w s q := by
  rw [findFrom, List.find?_eq_none]
  simp only [decide_eq_true_eq, List.mem_range'_1]
  constructor
  · intro h q hq hocc
    have hle := hocc.1
    exact h q ⟨hq, by omega⟩ hocc
  · intro h q hq
    exact h q hq.1

theorem findFrom_nil {start : ℕ} (h : start ≤ s.length) : findFrom s [] start = some start :=
  findFrom_eq_some.mpr ⟨le_rfl, ⟨h, List.nil_prefix⟩, fun _ hq hlt => absurd hq (not_le.mpr hlt)⟩

/-- The scan at position `i`, with `skip` entries of the last match left. -/
def scan (w : List α) : ℕ → ℕ → List α → List ℕ
  | _, _, [] => []
  | i, 0, a :: s =>
    if w <+: a :: s then i :: scan w (i + 1) (w.length - 1) s else scan w (i + 1) 0 s
  | i, skip + 1, _ :: s => scan w (i + 1) skip s

def occurrences (w s : List α) : List ℕ := scan w 0 0 s

theorem scan_skip {i skip : ℕ} (h : skip ≤ s.length) :
    scan w i skip s = scan w (i + skip) 0 (s.drop skip) := by
  induction s generalizing i skip with
  | nil =>
    rw [List.drop_nil, scan, scan]
  | cons a s ih =>
    cases skip with
    | zero => rfl
    | succ skip =>
      rw [scan, ih (Nat.le_of_succ_le_succ h), List.drop_succ_cons]
      congr 1
      omega

theorem scan_eq_nil {i : ℕ} (h : ∀ q, ¬ OccursAt w s q) : scan w i 0 s = [] := by
  induction s generalizing i with
  | nil => rw [scan]
  | cons a s ih =>
    have hhead : ¬ w <+: a :: s := fun hpre => h 0 ⟨Nat.zero_le _, hpre⟩
    rw [scan, if_neg hhead]
    exact ih fun q hq => h (q + 1) (occursAt_cons_succ.mpr hq)

/-- The scan takes the first occurrence and goes on behind it. -/
theorem scan_eq_cons (hw : w ≠ []) {i p : ℕ} (hp : OccursAt w s p)
    (hfirst : ∀ q < p, ¬ OccursAt w s q) :
    scan w i 0 s = (i + p) :: scan w (i + p + w.length) 0 (s.drop (p + w.length)) := by
  induction s generalizing i p with
  | nil => exact absurd hp (occursAt_nil_iff hw)
  | cons a s ih =>
    cases p with
    | zero =>
      have hpos : 0 < w.length := List.length_pos_iff.mpr hw
      have hle := hp.add_le
      rw [List.length_cons] at hle
      have hpre : w <+: a :: s := hp.2
      have hdrop : (a :: s).drop (0 + w.length) = s.drop (w.length - 1) := by
        rw [Nat.zero_add, ← Nat.sub_add_cancel hpos, List.drop_succ_cons, Nat.sub_add_cancel hpos]
      rw [scan, if_pos hpre, scan_skip (by omega), hdrop, Nat.add_zero]
      congr 2
      omega
    | succ p =>
      have hhead : ¬ w <+: a :: s := fun hpre => hfirst 0 (Nat.succ_pos p) ⟨Nat.zero_le _, hpre⟩
      rw [scan, if_neg hhead, ih (occursAt_cons_succ.mp hp)
        fun q hq hocc => hfirst (q + 1) (Nat.succ_lt_succ hq) (occursAt_cons_succ.mpr hocc)]
      have hshift : i + 1 + p = i + (p + 1) := by omega
      have hdrop : (a :: s).drop (p + 1 + w.length) = s.drop (p + w.length) := by
        rw [Nat.add_right_comm, List.drop_succ_cons]
      rw [hshift, hdrop]

theorem scan_of_find_none {start : ℕ} (h : findFrom s w start = none) :
    scan w start 0 (s.drop start) = [] := by
  by_cases hle : start ≤ s.length
  · apply scan_eq_nil
    intro q hq
    exact findFrom_eq_none.mp h (start + q) (Nat.le_add_right start q) ((occursAt_drop hle).mp hq)
  · rw [List.drop_eq_nil_of_le (not_le.mp hle).le, scan]

theorem scan_of_find_some (hw : w ≠ []) {start p : ℕ} (h : findFrom s w start = some p) :
    scan w start 0 (s.drop start) = p :: scan w (p + w.length) 0 (s.drop (p + w.length)) := by
  obtain ⟨hle, hocc, hfirst⟩ := findFrom_eq_some.mp h
  obtain ⟨k, rfl⟩ := Nat.exists_eq_add_of_le hle
  have hstart : start ≤ s.length := hle.trans hocc.1
  rw [scan_eq_cons hw ((occursAt_drop hstart).mpr hocc), List.drop_drop, Nat.add_assoc start k]
  intro q hq hbefore
  exact hfirst (start + q) (Nat.le_add_right start q) (by omega) ((occursAt_drop hstart).mp hbefore)

/-! The positions taken. -/

theorem scan_mem {i skip p : ℕ} (h : p ∈ scan w i skip s) :
    i + skip ≤ p ∧ OccursAt w s (p - i) := by
  induction s generalizing i skip with
  | nil => simp [scan] at h
  | cons a s ih =>
    cases skip with
    | zero =>
      rw [scan] at h
      have hrest : ∀ skip, p ∈ scan w (i + 1) skip s → i ≤ p ∧ OccursAt w (a :: s) (p - i) := by
        intro skip hmem
        obtain ⟨hle, hocc⟩ := ih hmem
        have heq : p - i = p - (i + 1) + 1 := by omega
        rw [heq]
        exact ⟨by omega, occursAt_cons_succ.mpr hocc⟩
      split_ifs at h with hpre
      · rcases List.mem_cons.mp h with rfl | hmem
        · rw [Nat.sub_self]
          exact ⟨le_rfl, Nat.zero_le _, hpre⟩
        · exact hrest _ hmem
      · exact hrest _ h
    | succ skip =>
      rw [scan] at h
      obtain ⟨hle, hocc⟩ := ih h
      have heq : p - i = p - (i + 1) + 1 := by omega
      rw [heq]
      exact ⟨by omega, occursAt_cons_succ.mpr hocc⟩

theorem scan_cover (hw : w ≠ []) {i skip q : ℕ} (hq : OccursAt w s q) (hskip : skip ≤ q) :
    i + q ∈ scan w i skip s ∨ ∃ p ∈ scan w i skip s, p < i + q ∧ i + q < p + w.length := by
  induction s generalizing i skip q with
  | nil => exact absurd hq (occursAt_nil_iff hw)
  | cons a s ih =>
    have hrest : ∀ skip q, OccursAt w (a :: s) (q + 1) → skip ≤ q →
        i + (q + 1) ∈ scan w (i + 1) skip s ∨
          ∃ p ∈ scan w (i + 1) skip s, p < i + (q + 1) ∧ i + (q + 1) < p + w.length := by
      intro skip q hocc hle
      have hshift : i + 1 + q = i + (q + 1) := by omega
      have hcover := ih (i := i + 1) (occursAt_cons_succ.mp hocc) hle
      rwa [hshift] at hcover
    cases skip with
    | zero =>
      rw [scan]
      cases q with
      | zero =>
        have hpre : w <+: a :: s := hq.2
        rw [if_pos hpre, Nat.add_zero]
        exact Or.inl List.mem_cons_self
      | succ q =>
        split_ifs with hpre
        · by_cases hin : w.length ≤ q + 1
          · rcases hrest (w.length - 1) q hq (by omega) with hmem | ⟨p, hp, hlo, hhi⟩
            · exact Or.inl (List.mem_cons_of_mem i hmem)
            · exact Or.inr ⟨p, List.mem_cons_of_mem i hp, hlo, hhi⟩
          · exact Or.inr ⟨i, List.mem_cons_self, by omega, by omega⟩
        · exact hrest 0 q hq (Nat.zero_le q)
    | succ skip =>
      cases q with
      | zero => exact absurd hskip (Nat.not_succ_le_zero skip)
      | succ q =>
        rw [scan]
        exact hrest skip q hq (Nat.le_of_succ_le_succ hskip)

theorem occurrences_occursAt {p : ℕ} (h : p ∈ occurrences w s) : OccursAt w s p :=
  (scan_mem h).2

/-- Every occurrence is taken or starts inside one that is. -/
theorem occurrences_cover (hw : w ≠ []) {q : ℕ} (hq : OccursAt w s q) :
    q ∈ occurrences w s ∨ ∃ p ∈ occurrences w s, p < q ∧ q < p + w.length := by
  have hcover := scan_cover (i := 0) hw hq (Nat.zero_le q)
  rwa [Nat.zero_add] at hcover

end RtmpRelay.Occurrences
