import RtmpRelay.HitDict

/-!
# White space

The sentence is stripped of white space, the lines of the dictionary file and
the texts of the words are not. A key with white space in it is never found, so
two dictionaries that differ in white space only give the same segments for
certain exactly when no stripped line occurs in the stripped sentence, and a
phrase is hit when its stripped form occurs exactly when its line has no white
space.
-/

namespace RtmpRelay

open Occurrences HitDict

/-- `hitDict` returns `out`, in some order of the keys of the file. -/
def Finds (file sentence : Str) (wordList : List WordInfomation) (out : List AudioSegement) :
    Prop :=
  ∃ dict : List Str, dict.Perm (Dictionary.init (some file)).keys ∧
    ∃ bound, ∀ fuel, bound ≤ fuel → hitDict fuel dict sentence wordList = some out

def intervals (out : List AudioSegement) : List (Int × Int) :=
  out.map fun segment => (segment.start, segment.stop)

def SameIntervals (out out' : List AudioSegement) : Prop := (intervals out).Perm (intervals out')

def NoBlankLine (file : Str) : Prop := ∀ line ∈ getlines file, removeSpaces line ≠ []

structure SameWord (item item' : WordInfomation) : Prop where
  text : removeSpaces item'.text = removeSpaces item.text
  startTime : item'.startTime = item.startTime
  endTime : item'.endTime = item.endTime

/-- The two inputs differ by white space in the sentence, in words and in lines only. -/
structure Variant (file sentence : Str) (wordList : List WordInfomation) (file' sentence' : Str)
    (wordList' : List WordInfomation) : Prop where
  lines : List.Forall₂ (fun line line' => removeSpaces line' = removeSpaces line)
    (getlines file) (getlines file')
  sentence : removeSpaces sentence' = removeSpaces sentence
  words : List.Forall₂ SameWord wordList wordList'

def Occurs (phrase sentence : Str) : Prop := ∃ q, OccursAt phrase (removeSpaces sentence) q

section Spaces
variable {file sentence : Str} {wordList : List WordInfomation} {out : List AudioSegement}

theorem NoBlankLine.line_ne (h : NoBlankLine file) {line : Str} (hline : line ∈ getlines file) :
    line ≠ [] := by
  rintro rfl
  exact h [] hline rfl

theorem Finds.eq (h : NoBlankLine file) (hfinds : Finds file sentence wordList out) :
    ∃ dict : List Str, dict.Perm (Dictionary.init (some file)).keys ∧
      out = dict.flatMap fun key =>
        (occurrences key (removeSpaces sentence)).map (segmentAt wordList key) := by
  obtain ⟨dict, hdict, bound, hout⟩ := hfinds
  refine ⟨dict, hdict, ?_⟩
  have hne : ∀ key ∈ dict, key ≠ [] := fun key hkey =>
    h.line_ne (Dictionary.mem_init_some.mp (hdict.mem_iff.mp hkey))
  have heq : hitDict ((removeSpaces sentence).length + (bound + 1)) dict sentence wordList = _ :=
    hitDict_eq hne (by omega) wordList
  rw [hout _ (by omega)] at heq
  exact Option.some.inj heq

theorem exists_finds (h : NoBlankLine file) (sentence : Str) (wordList : List WordInfomation) :
    ∃ out, Finds file sentence wordList out := by
  have hne : ∀ key ∈ (Dictionary.init (some file)).keys, key ≠ [] := fun key hkey =>
    h.line_ne (Dictionary.mem_init_some.mp hkey)
  exact ⟨_, _, List.Perm.refl _, (removeSpaces sentence).length + 1,
    fun fuel hfuel => hitDict_eq hne hfuel wordList⟩

theorem removeSpaces_of_occurs {phrase : Str} (h : Occurs phrase sentence) :
    removeSpaces phrase = phrase := by
  obtain ⟨q, hq⟩ := h
  apply removeSpaces_eq_self
  intro b hb
  exact isspace_of_mem_removeSpaces (List.mem_of_mem_drop (hq.2.subset hb))

theorem occurrences_ne_nil_iff {key : Str} (hkey : key ≠ []) :
    occurrences key (removeSpaces sentence) ≠ [] ↔ Occurs key sentence := by
  constructor
  · intro h
    obtain ⟨q, hq⟩ := List.exists_mem_of_ne_nil _ h
    exact ⟨q, occurrences_occursAt hq⟩
  · intro h hnil
    obtain ⟨q, hq⟩ := h
    rcases occurrences_cover hkey hq with hmem | ⟨p, hmem, _⟩
    · rw [hnil] at hmem
      exact List.not_mem_nil hmem
    · rw [hnil] at hmem
      exact List.not_mem_nil hmem

theorem Finds.hit_iff (h : NoBlankLine file) (hfinds : Finds file sentence wordList out)
    {line : Str} (hline : line ∈ getlines file) :
    (∃ segment ∈ out, segment.text = line) ↔ Occurs line sentence := by
  obtain ⟨dict, hdict, rfl⟩ := hfinds.eq h
  have hmem : line ∈ dict := hdict.mem_iff.mpr (Dictionary.mem_init_some.mpr hline)
  rw [← occurrences_ne_nil_iff (h.line_ne hline)]
  constructor
  · intro hhit
    obtain ⟨segment, hsegment, rfl⟩ := hhit
    obtain ⟨key, _, hmap⟩ := List.mem_flatMap.mp hsegment
    obtain ⟨pos, hpos, rfl⟩ := List.mem_map.mp hmap
    exact List.ne_nil_of_mem hpos
  · intro hocc
    obtain ⟨pos, hpos⟩ := List.exists_mem_of_ne_nil _ hocc
    exact ⟨segmentAt wordList line pos,
      List.mem_flatMap.mpr ⟨line, hmem, List.mem_map_of_mem hpos⟩, rfl⟩

theorem Finds.eq_nil (h : NoBlankLine file) (hfinds : Finds file sentence wordList out)
    (hnone : ∀ line ∈ getlines file, ¬ Occurs line sentence) : out = [] := by
  obtain ⟨dict, hdict, rfl⟩ := hfinds.eq h
  apply List.flatMap_eq_nil_iff.mpr
  intro key hkey
  have hline : key ∈ getlines file := Dictionary.mem_init_some.mp (hdict.mem_iff.mp hkey)
  by_contra hne
  apply hnone key hline
  apply (occurrences_ne_nil_iff (h.line_ne hline)).mp
  intro hnil
  exact hne (by rw [hnil]; rfl)

theorem sameIntervals_nil_left {out : List AudioSegement} (h : SameIntervals [] out) :
    out = [] := by
  have hnil := h.symm.eq_nil
  exact List.map_eq_nil_iff.mp hnil

/-! Two variants of every input: the lines stripped, and a blank behind each line. -/

def strippedFile (file : Str) : Str := fileOf ((getlines file).map removeSpaces)

def blank : UInt8 := 32

def blankedFile (file : Str) : Str := fileOf ((getlines file).map fun line => line ++ [blank])

theorem getlines_strippedFile (file : Str) :
    getlines (strippedFile file) = (getlines file).map removeSpaces := by
  apply getlines_fileOf
  intro line hline
  obtain ⟨l, _, rfl⟩ := List.mem_map.mp hline
  intro hmem
  have hspace := isspace_of_mem_removeSpaces hmem
  exact absurd hspace (by decide)

theorem getlines_blankedFile (file : Str) :
    getlines (blankedFile file) = (getlines file).map fun line => line ++ [blank] := by
  apply getlines_fileOf
  intro line hline
  obtain ⟨l, hl, rfl⟩ := List.mem_map.mp hline
  rw [List.mem_append, not_or]
  exact ⟨newline_not_mem_getlines hl, by decide⟩

theorem removeSpaces_concat_blank (line : Str) :
    removeSpaces (line ++ [blank]) = removeSpaces line := by
  rw [removeSpaces_append]
  exact List.append_nil _

theorem sameWord_refl (wordList : List WordInfomation) : List.Forall₂ SameWord wordList wordList :=
  List.forall₂_same.mpr fun _ _ => ⟨rfl, rfl, rfl⟩

theorem variant_strippedFile (file sentence : Str) (wordList : List WordInfomation) :
    Variant file sentence wordList (strippedFile file) sentence wordList where
  lines := by
    rw [getlines_strippedFile, List.forall₂_map_right_iff, List.forall₂_same]
    intro line _
    exact removeSpaces_removeSpaces line
  sentence := rfl
  words := sameWord_refl wordList

theorem variant_blankedFile (file sentence : Str) (wordList : List WordInfomation) :
    Variant file sentence wordList (blankedFile file) sentence wordList where
  lines := by
    rw [getlines_blankedFile, List.forall₂_map_right_iff, List.forall₂_same]
    intro line _
    exact removeSpaces_concat_blank line
  sentence := rfl
  words := sameWord_refl wordList

theorem Variant.line {file' sentence' : Str} {wordList' : List WordInfomation}
    (h : Variant file sentence wordList file' sentence' wordList') {line' : Str}
    (hline : line' ∈ getlines file') :
    ∃ line ∈ getlines file, removeSpaces line' = removeSpaces line := by
  obtain ⟨i, hi⟩ := List.mem_iff_getElem?.mp hline
  obtain ⟨hlt, rfl⟩ := List.getElem?_eq_some_iff.mp hi
  have hlt' : i < (getlines file).length := h.lines.length_eq ▸ hlt
  exact ⟨(getlines file)[i], List.getElem_mem hlt', h.lines.get hlt' hlt⟩

theorem Variant.noBlankLine {file' sentence' : Str} {wordList' : List WordInfomation}
    (h : Variant file sentence wordList file' sentence' wordList') (hblank : NoBlankLine file) :
    NoBlankLine file' := by
  intro line' hline'
  obtain ⟨line, hline, heq⟩ := h.line hline'
  rw [heq]
  exact hblank line hline

/-- The same segments are found in every variant if and only if nothing is
ever found. -/
theorem variants_agree_iff (hblank : NoBlankLine file) :
    (∀ file' sentence' wordList', Variant file sentence wordList file' sentence' wordList' →
        ∀ out out', Finds file sentence wordList out → Finds file' sentence' wordList' out' →
          SameIntervals out out') ↔
      ∀ line ∈ getlines file, ¬ Occurs (removeSpaces line) sentence := by
  constructor
  · intro h line hline hocc
    obtain ⟨out, hout⟩ := exists_finds hblank sentence wordList
    have hstripped := variant_strippedFile file sentence wordList
    have hblanked := variant_blankedFile file sentence wordList
    obtain ⟨out₁, hout₁⟩ := exists_finds (hstripped.noBlankLine hblank) sentence wordList
    obtain ⟨out₂, hout₂⟩ := exists_finds (hblanked.noBlankLine hblank) sentence wordList
    have hnil : out₂ = [] := by
      apply hout₂.eq_nil (hblanked.noBlankLine hblank)
      intro line' hline' hocc'
      rw [getlines_blankedFile] at hline'
      obtain ⟨l, _, rfl⟩ := List.mem_map.mp hline'
      have hself := removeSpaces_of_occurs hocc'
      have hmem : blank ∈ removeSpaces (l ++ [blank]) := by
        rw [hself]
        exact List.mem_append_right l (List.mem_singleton_self blank)
      exact absurd (isspace_of_mem_removeSpaces hmem) (by decide)
    subst hnil
    have hempty : out = [] := by
      have hsame := h _ _ _ hblanked out [] hout hout₂
      exact List.map_eq_nil_iff.mp hsame.eq_nil
    subst hempty
    have hempty : out₁ = [] := sameIntervals_nil_left (h _ _ _ hstripped [] out₁ hout hout₁)
    subst hempty
    have hline₁ : removeSpaces line ∈ getlines (strippedFile file) := by
      rw [getlines_strippedFile]
      exact List.mem_map_of_mem hline
    obtain ⟨segment, hsegment, _⟩ :=
      (hout₁.hit_iff (hstripped.noBlankLine hblank) hline₁).mpr hocc
    exact List.not_mem_nil hsegment
  · intro hnone file' sentence' wordList' hvariant out out' hout hout'
    have hout_nil : out = [] := by
      apply hout.eq_nil hblank
      intro line hline hocc
      apply hnone line hline
      rwa [removeSpaces_of_occurs hocc]
    have hout'_nil : out' = [] := by
      apply hout'.eq_nil (hvariant.noBlankLine hblank)
      intro line' hline' hocc
      obtain ⟨line, hline, heq⟩ := hvariant.line hline'
      apply hnone line hline
      rw [← heq, removeSpaces_of_occurs hocc]
      rwa [Occurs, hvariant.sentence] at hocc
    rw [hout_nil, hout'_nil]
    exact List.Perm.refl _

theorem SameWord.eq {item item' : WordInfomation} (h : SameWord item item')
    (hitem : removeSpaces item.text = item.text) (hitem' : removeSpaces item'.text = item'.text) :
    item' = item := by
  obtain ⟨htext, hstart, hend⟩ := h
  rw [hitem, hitem'] at htext
  cases item
  cases item'
  simp_all

theorem eq_of_forall₂ {α : Type*} {R : α → α → Prop} {xs ys : List α}
    (h : List.Forall₂ R xs ys) (heq : ∀ x ∈ xs, ∀ y ∈ ys, R x y → y = x) : ys = xs := by
  induction h with
  | nil => rfl
  | @cons x y xs ys hxy _ ih =>
    have hhead : y = x := heq x List.mem_cons_self y List.mem_cons_self hxy
    have htail : ys = xs := ih fun a ha b hb =>
      heq a (List.mem_cons_of_mem x ha) b (List.mem_cons_of_mem y hb)
    rw [hhead, htail]

theorem clean_variants_agree {file' sentence' : Str} {wordList' : List WordInfomation}
    (hblank : NoBlankLine file)
    (h : Variant file sentence wordList file' sentence' wordList')
    (hlines : ∀ line ∈ getlines file ++ getlines file', removeSpaces line = line)
    (hwords : ∀ item ∈ wordList ++ wordList', removeSpaces item.text = item.text)
    {out' : List AudioSegement} (hout : Finds file sentence wordList out)
    (hout' : Finds file' sentence' wordList' out') : SameIntervals out out' := by
  have hfile : getlines file' = getlines file := by
    apply eq_of_forall₂ h.lines
    intro line hline line' hline' heq
    rw [← hlines line (List.mem_append_left _ hline), ← heq,
      hlines line' (List.mem_append_right _ hline')]
  have hwordList : wordList' = wordList := by
    apply eq_of_forall₂ h.words
    intro item hitem item' hitem' heq
    exact heq.eq (hwords item (List.mem_append_left _ hitem))
      (hwords item' (List.mem_append_right _ hitem'))
  obtain ⟨dict, hdict, rfl⟩ := hout.eq hblank
  obtain ⟨dict', hdict', rfl⟩ := hout'.eq (h.noBlankLine hblank)
  have hkeys : (Dictionary.init (some file')).keys = (Dictionary.init (some file)).keys := by
    simp only [Dictionary.init, Dictionary.loadFromFile, hfile]
  rw [hkeys] at hdict'
  rw [hwordList, h.sentence]
  exact ((hdict.trans hdict'.symm).flatMap_right _).map _

end Spaces

/-- For a file without blank lines: all variants of the input give the same
segments if and only if no stripped line occurs in the stripped sentence; a line
is hit exactly when its stripped form occurs, if and only if it has no white
space or does not occur; and two variants without white space in lines and words
give the same segments. -/
theorem spaces_ignored_iff {file : Str} (hblank : NoBlankLine file) (sentence : Str)
    (wordList : List WordInfomation) :
    ((∀ file' sentence' wordList', Variant file sentence wordList file' sentence' wordList' →
        ∀ out out', Finds file sentence wordList out → Finds file' sentence' wordList' out' →
          SameIntervals out out') ↔
      ∀ line ∈ getlines file, ¬ Occurs (removeSpaces line) sentence) ∧
    (∀ line ∈ getlines file, ∀ out, Finds file sentence wordList out →
      (((∃ segment ∈ out, segment.text = line) ↔ Occurs (removeSpaces line) sentence) ↔
        removeSpaces line = line ∨ ¬ Occurs (removeSpaces line) sentence)) ∧
    ∀ file' sentence' wordList', Variant file sentence wordList file' sentence' wordList' →
      (∀ line ∈ getlines file ++ getlines file', removeSpaces line = line) →
      (∀ item ∈ wordList ++ wordList', removeSpaces item.text = item.text) →
      ∀ out out', Finds file sentence wordList out → Finds file' sentence' wordList' out' →
        SameIntervals out out' := by
  refine ⟨variants_agree_iff hblank, ?_, ?_⟩
  · intro line hline out hout
    rw [hout.hit_iff hblank hline]
    constructor
    · intro h
      by_cases hocc : Occurs (removeSpaces line) sentence
      · exact Or.inl (removeSpaces_of_occurs (h.mpr hocc))
      · exact Or.inr hocc
    · intro h
      rcases h with hself | hnone
      · rw [hself]
      · constructor
        · intro hocc
          rwa [removeSpaces_of_occurs hocc]
        · intro hocc
          exact absurd hocc hnone
  · intro file' sentence' wordList' hvariant hlines hwords out out' hout hout'
    exact clean_variants_agree hblank hvariant hlines hwords hout hout'

/-! The line "ab" as it stands, and with a carriage return. -/

def sampleWord : List WordInfomation := [{ text := [97, 98], startTime := 0, endTime := 100 }]

theorem sampleFinds : Finds [97, 98, 10] [97, 98] sampleWord
    [{ start := 0, stop := 100, text := [97, 98] }] :=
  ⟨_, List.Perm.refl _, 3, fun _ hfuel => hitDict_eq (by decide) hfuel sampleWord⟩

theorem spaces_ignored_sample :
    ∃ segment ∈ [AudioSegement.mk 0 100 [97, 98]], segment.text = [97, 98] := by
  have hblank : NoBlankLine [97, 98, 10] := by
    unfold NoBlankLine
    decide
  have hocc : Occurs (removeSpaces [97, 98]) [97, 98] := ⟨0, by decide⟩
  have hphrase := (spaces_ignored_iff hblank [97, 98] sampleWord).2.1 [97, 98] (by decide) _
    sampleFinds
  exact (hphrase.mpr (Or.inl (by decide))).mpr hocc

theorem carriage_return_hides :
    ¬ ∀ (file sentence : Str) (wordList : List WordInfomation), NoBlankLine file →
      removeSpaces (texts wordList) = removeSpaces sentence →
      ∀ file' sentence' wordList', Variant file sentence wordList file' sentence' wordList' →
        ∀ out out', Finds file sentence wordList out → Finds file' sentence' wordList' out' →
          SameIntervals out out' := by
  intro h
  have hvariant : Variant [97, 98, 10] [97, 98] sampleWord [97, 98, 13, 10] [97, 98] sampleWord := {
    lines := List.Forall₂.cons rfl List.Forall₂.nil
    sentence := rfl
    words := sameWord_refl sampleWord }
  have hfinds : Finds [97, 98, 13, 10] [97, 98] sampleWord [] :=
    ⟨_, List.Perm.refl _, 3, fun _ hfuel => hitDict_eq (by decide) hfuel sampleWord⟩
  have hsame := h [97, 98, 10] [97, 98] sampleWord (by unfold NoBlankLine; decide) rfl _ _ _
    hvariant _ _ sampleFinds hfinds
  exact absurd hsame.length_eq (by decide)

end RtmpRelay
