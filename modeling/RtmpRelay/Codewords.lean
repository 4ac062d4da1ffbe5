import RtmpRelay.Occurrences

/-!
# Codes that synchronise themselves

A code writes every symbol as a word of its own. Here no word is a prefix of
another and the first letter of a word never stands inside a word, so a search
for an encoded text in an encoded text meets symbol boundaries only: the
occurrences taken by a search over letters are those taken over symbols.
-/

namespace RtmpRelay.Codewords

open Occurrences

variable {α β : Type*}

structure Code (α β : Type*) where
  enc : α → List β
  lead : β → Prop
  shape : ∀ a, ∃ b bs, enc a = b :: bs ∧ lead b ∧ ∀ x ∈ bs, ¬ lead x
  prefix_free : ∀ a b, enc a <+: enc b → a = b

namespace Code
variable (C : Code α β) {w s : List α}

def encode (s : List α) : List β := s.flatMap C.enc

@[simp] theorem encode_nil : C.encode [] = [] := rfl

@[simp] theorem encode_cons (a : α) (s : List α) : C.encode (a :: s) = C.enc a ++ C.encode s := rfl

theorem encode_append (s t : List α) : C.encode (s ++ t) = C.encode s ++ C.encode t :=
  List.flatMap_append

/-- The position of the first letter of symbol `i`. -/
def offset (s : List α) (i : ℕ) : ℕ := (C.encode (s.take i)).length

theorem offset_cons_succ (a : α) (s : List α) (i : ℕ) :
    C.offset (a :: s) (i + 1) = (C.enc a).length + C.offset s i := by
  rw [offset, List.take_succ_cons, encode_cons, List.length_append, offset]

theorem encode_ne_nil (hw : w ≠ []) : C.encode w ≠ [] := by
  cases w with
  | nil => exact absurd rfl hw
  | cons a w =>
    obtain ⟨b, bs, ha, _⟩ := C.shape a
    rw [encode_cons, ha]
    exact List.cons_ne_nil _ _

theorem encode_prefix_iff : C.encode w <+: C.encode s ↔ w <+: s := by
  constructor
  · intro h
    induction w generalizing s with
    | nil => exact List.nil_prefix
    | cons a w ih =>
      cases s with
      | nil =>
        have hnil := List.prefix_nil.mp h
        exact absurd hnil (C.encode_ne_nil (List.cons_ne_nil a w))
      | cons b s =>
        rw [encode_cons, encode_cons] at h
        have hleft : C.enc a <+: C.enc b ++ C.encode s := (List.prefix_append _ _).trans h
        obtain rfl : a = b := by
          rcases List.prefix_or_prefix_of_prefix hleft (List.prefix_append _ _) with hab | hba
          · exact C.prefix_free a b hab
          · exact (C.prefix_free b a hba).symm
        rw [List.prefix_append_right_inj] at h
        exact (List.prefix_cons_inj a).mpr (ih h)
  · intro h
    obtain ⟨t, rfl⟩ := h
    rw [encode_append]
    exact List.prefix_append _ _

theorem offset_of_prefix (h : w <+: s) : C.offset s w.length = (C.encode w).length := by
  rw [offset, ← List.prefix_iff_eq_take.mp h]

theorem offset_add_of_occursAt {i : ℕ} (h : OccursAt w s i) :
    C.offset s i + (C.encode w).length = C.offset s (i + w.length) := by
  have hsplit : s.take (i + w.length) = s.take i ++ w := by
    rw [List.take_add, ← List.prefix_iff_eq_take.mp h.2]
  rw [offset, offset, hsplit, encode_append, List.length_append]

/-- A filter on letters that keeps or drops whole words is a filter on symbols. -/
theorem filter_encode {p : β → Bool} {q : α → Bool} (h : ∀ a, ∀ b ∈ C.enc a, p b = q a)
    (s : List α) : (C.encode s).filter p = C.encode (s.filter q) := by
  induction s with
  | nil => rfl
  | cons a s ih =>
    rw [encode_cons, List.filter_append, ih]
    cases hq : q a with
    | true =>
      have hall : (C.enc a).filter p = C.enc a :=
        List.filter_eq_self.mpr fun b hb => (h a b hb).trans hq
      rw [List.filter_cons_of_pos hq, encode_cons, hall]
    | false =>
      have hnone : (C.enc a).filter p = [] := by
        rw [List.filter_eq_nil_iff]
        intro b hb
        rw [h a b hb, hq]
        exact Bool.false_ne_true
      rw [List.filter_cons_of_neg (by simp [hq]), hnone, List.nil_append]

end Code

/-! A scan over a block of letters. -/

section Scan
variable [DecidableEq β] {v l t : List β}

theorem scan_append_skip (i k : ℕ) :
    scan v i (l.length + k) (l ++ t) = scan v (i + l.length) k t := by
  induction l generalizing i with
  | nil => simp
  | cons x l ih =>
    rw [List.length_cons, Nat.add_right_comm, List.cons_append, scan, ih]
    congr 1
    omega

theorem scan_append_of_head {b : β} {u : List β} (hl : ∀ x ∈ l, x ≠ b) (i : ℕ) :
    scan (b :: u) i 0 (l ++ t) = scan (b :: u) (i + l.length) 0 t := by
  induction l generalizing i with
  | nil => simp
  | cons x l ih =>
    have hne : ¬ b :: u <+: x :: (l ++ t) := by
      intro hpre
      exact hl x List.mem_cons_self (List.cons_prefix_cons.mp hpre).1.symm
    rw [List.cons_append, scan, if_neg hne, ih fun y hy => hl y (List.mem_cons_of_mem x hy)]
    congr 1
    rw [List.length_cons]
    omega

end Scan

namespace Code
variable (C : Code α β) [DecidableEq α] [DecidableEq β] {w s : List α}

/-- One scan over the letters against one over the symbols, from letter `j` and symbol `i`. -/
theorem scan_encode (hw : w ≠ []) (i j k : ℕ) :
    scan (C.encode w) j (C.offset s k) (C.encode s) =
      (scan w i k s).map fun p => j + C.offset s (p - i) := by
  obtain ⟨a₀, u, rfl⟩ := List.exists_cons_of_ne_nil hw
  obtain ⟨b₀, bs₀, ha₀, hlead₀, _⟩ := C.shape a₀
  induction s generalizing i j k with
  | nil => rw [encode_nil, scan, scan, List.map_nil]
  | cons a s ih =>
    -- the positions taken behind `a` are those of the rest, shifted by its letters
    have hshift : ∀ k, (scan (a₀ :: u) (i + 1) k s).map
        (fun p => j + (C.enc a).length + C.offset s (p - (i + 1))) =
          (scan (a₀ :: u) (i + 1) k s).map fun p => j + C.offset (a :: s) (p - i) := by
      intro k
      apply List.map_congr_left
      intro p hp
      have hle := (scan_mem hp).1
      have heq : p - i = p - (i + 1) + 1 := by omega
      rw [heq, offset_cons_succ, Nat.add_assoc]
    have hrest := fun k => (ih (i + 1) (j + (C.enc a).length) k).trans (hshift k)
    cases k with
    | succ k => rw [offset_cons_succ, C.encode_cons a s, scan_append_skip, hrest, scan]
    | zero =>
      obtain ⟨b, bs, ha, _, htail⟩ := C.shape a
      have hlen : (C.enc a).length = bs.length + 1 := by rw [ha, List.length_cons]
      have hzero : C.offset (a :: s) 0 = 0 := rfl
      have hcons : C.encode (a :: s) = b :: (bs ++ C.encode s) := by
        rw [encode_cons, ha, List.cons_append]
      have hiff : C.encode (a₀ :: u) <+: b :: (bs ++ C.encode s) ↔ a₀ :: u <+: a :: s := by
        rw [← hcons, C.encode_prefix_iff]
      by_cases hpre : a₀ :: u <+: a :: s
      · obtain ⟨rfl, hu⟩ := List.cons_prefix_cons.mp hpre
        have hskip : (C.encode (a₀ :: u)).length - 1 = bs.length + C.offset s u.length := by
          rw [C.offset_of_prefix hu, encode_cons, List.length_append, hlen]
          omega
        rw [hzero, hcons, scan, if_pos (hiff.mpr hpre), hskip, scan_append_skip, Nat.add_assoc,
          Nat.add_comm 1, ← hlen, hrest, scan, if_pos hpre, List.map_cons, Nat.sub_self, hzero,
          Nat.add_zero]
        rfl
      · have hword : C.encode (a₀ :: u) = b₀ :: (bs₀ ++ C.encode u) := by
          rw [encode_cons, ha₀, List.cons_append]
        have hskip : ∀ x ∈ bs, x ≠ b₀ := by
          rintro x hx rfl
          exact htail x hx hlead₀
        have hnone := hrest 0
        rw [hzero, hcons, scan, if_neg (mt hiff.mp hpre), scan, if_neg hpre, hword,
          scan_append_of_head hskip, Nat.add_assoc, Nat.add_comm 1, ← hlen, ← hword]
        exact hnone

theorem occurrences_encode (hw : w ≠ []) :
    occurrences (C.encode w) (C.encode s) = (occurrences w s).map (C.offset s) := by
  have hscan := C.scan_encode (s := s) hw 0 0 0
  have hzero : C.offset s 0 = 0 := rfl
  rw [hzero] at hscan
  rw [occurrences, occurrences, hscan]
  simp

end Code

end RtmpRelay.Codewords
