import Mathlib.Data.List.Infix
import Mathlib.Tactic.Common

/-!
# The dictionary

A string is its bytes. `loadFromFile` reads the file line by line and stores
each line as it is, so a key never holds a line feed, but it may hold other
white space and may be empty. The map of a dictionary only holds `true`, so it
is the list of its keys; the order in which a program meets them is any
permutation of that list.
-/

namespace RtmpRelay

abbrev Str := List UInt8

-- `::isspace` in the C locale.
def isspace (b : UInt8) : Bool := b = 32 || (9 ≤ b && b ≤ 13)

def removeSpaces (input : Str) : Str := input.filter fun b => !isspace b

def newline : UInt8 := 10

/-- The lines that `std::getline` takes from a stream; the last one may lack its line feed. -/
def getlines : Str → List Str
  | [] => []
  | b :: rest =>
    if b = newline then [] :: getlines rest
    else
      match getlines rest with
      | [] => [[b]]
      | line :: lines => (b :: line) :: lines

structure Dictionary where
  keys : List Str
  nodup : keys.Nodup

namespace Dictionary

def empty : Dictionary := { keys := [], nodup := List.nodup_nil }

-- `m_data_map[line] = true`
def insert (d : Dictionary) (line : Str) : Dictionary :=
  if h : line ∈ d.keys then d
  else { keys := line :: d.keys, nodup := List.nodup_cons.mpr ⟨h, d.nodup⟩ }

/-- `none` is a file that cannot be opened. -/
def loadFromFile (d : Dictionary) : Option Str → Dictionary
  | none => d
  | some file => (getlines file).foldl insert d

def init (file : Option Str) : Dictionary := empty.loadFromFile file

theorem mem_insert {d : Dictionary} {line key : Str} :
    key ∈ (d.insert line).keys ↔ key = line ∨ key ∈ d.keys := by
  simp only [insert]
  split_ifs with h
  · constructor
    · exact Or.inr
    · intro hkey
      rcases hkey with rfl | hkey
      · exact h
      · exact hkey
  · exact List.mem_cons

theorem mem_foldl_insert {d : Dictionary} {lines : List Str} {key : Str} :
    key ∈ (lines.foldl insert d).keys ↔ key ∈ lines ∨ key ∈ d.keys := by
  induction lines generalizing d with
  | nil => simp
  | cons line lines ih =>
    rw [List.foldl_cons, ih, mem_insert, List.mem_cons]
    constructor
    · intro h
      rcases h with h | h | h
      · exact Or.inl (Or.inr h)
      · exact Or.inl (Or.inl h)
      · exact Or.inr h
    · intro h
      rcases h with (h | h) | h
      · exact Or.inr (Or.inl h)
      · exact Or.inl h
      · exact Or.inr (Or.inr h)

theorem mem_init_some {file key : Str} : key ∈ (init (some file)).keys ↔ key ∈ getlines file := by
  rw [init, loadFromFile, mem_foldl_insert, empty]
  simp

end Dictionary

/-! Lines and files. -/

theorem newline_not_mem_getlines {file line : Str} (h : line ∈ getlines file) :
    newline ∉ line := by
  induction file generalizing line with
  | nil => simp [getlines] at h
  | cons b rest ih =>
    rw [getlines] at h
    split_ifs at h with hb
    · rcases List.mem_cons.mp h with rfl | hline
      · exact List.not_mem_nil
      · exact ih hline
    · split at h
      · rw [List.mem_singleton.mp h, List.mem_singleton]
        exact fun heq => hb heq.symm
      · next first lines hlines =>
        rcases List.mem_cons.mp h with rfl | hline
        · rw [List.mem_cons, not_or]
          exact ⟨fun heq => hb heq.symm, ih (hlines ▸ List.mem_cons_self)⟩
        · exact ih (hlines ▸ List.mem_cons_of_mem first hline)

def fileOf (lines : List Str) : Str := lines.flatMap fun line => line ++ [newline]

theorem getlines_line {line : Str} (h : newline ∉ line) (rest : Str) :
    getlines (line ++ newline :: rest) = line :: getlines rest := by
  induction line with
  | nil => rw [List.nil_append, getlines, if_pos rfl]
  | cons b line ih =>
    rw [List.mem_cons, not_or] at h
    rw [List.cons_append, getlines, if_neg fun heq => h.1 heq.symm, ih h.2]

/-- Every list of lines is read from some file. -/
theorem getlines_fileOf {lines : List Str} (h : ∀ line ∈ lines, newline ∉ line) :
    getlines (fileOf lines) = lines := by
  induction lines with
  | nil => rfl
  | cons line lines ih =>
    have hfile : fileOf (line :: lines) = line ++ newline :: fileOf lines := by
      simp [fileOf]
    rw [hfile, getlines_line (h line List.mem_cons_self),
      ih fun l hl => h l (List.mem_cons_of_mem line hl)]

/-! Stripped strings. -/

theorem removeSpaces_eq_self {s : Str} (h : ∀ b ∈ s, isspace b = false) : removeSpaces s = s := by
  apply List.filter_eq_self.mpr
  intro b hb
  rw [h b hb]
  rfl

theorem isspace_of_mem_removeSpaces {s : Str} {b : UInt8} (h : b ∈ removeSpaces s) :
    isspace b = false := by
  simpa using (List.mem_filter.mp h).2

@[simp] theorem removeSpaces_removeSpaces (s : Str) :
    removeSpaces (removeSpaces s) = removeSpaces s :=
  removeSpaces_eq_self fun _ => isspace_of_mem_removeSpaces

theorem removeSpaces_append (s t : Str) :
    removeSpaces (s ++ t) = removeSpaces s ++ removeSpaces t := List.filter_append s t

example : getlines [97, 98, 10, 10, 99] = [[97, 98], [], [99]] := by decide

end RtmpRelay
