import StepGraph.Proofs.Double.Numeral

/-!
# Words for reals

Infinity and no number are written as words, in any case.  A word is looked for
in a text whose letters have been made small.  A dotted capital becomes a small
letter there too, and it takes one byte more than the letter it becomes: with one
in it, as many bytes as the word has do not spell the word.
-/

namespace StepGraph

namespace Double

def IsWord (t : Text) : Prop :=
  t.lower = utf8 "inf" ∨ t.lower = utf8 "infinity" ∨ t.lower = utf8 "nan"

/-! ## Small letters -/

theorem smallLetters_cons {b : UInt8} (plain : b ≠ 0xC4) (rest : Text) :
    smallLetters (b :: rest) = Text.lowerByte b :: smallLetters rest :=
  smallLetters.eq_3 b rest fun _ same _ => plain same

/-- Without a dotted capital, only the case of the letters changes. -/
theorem smallLetters_append {plain : Text} (isPlain : 0xC4 ∉ plain) (rest : Text) :
    smallLetters (plain ++ rest) = plain.lower ++ smallLetters rest := by
  induction plain with
  | nil => rfl
  | cons b plain ih =>
    rw [List.mem_cons, not_or] at isPlain
    rw [List.cons_append, smallLetters_cons (Ne.symm isPlain.1), ih isPlain.2]
    rfl

theorem smallLetters_of_plain {plain : Text} (isPlain : 0xC4 ∉ plain) :
    smallLetters plain = plain.lower := by
  have appended := smallLetters_append isPlain []
  rwa [List.append_nil, smallLetters, List.append_nil] at appended

/-- A spelling is not changed by what follows it. -/
theorem smallLetters_append_of_closed {spelling : Text} (closed : 0xC4 ∉ smallLetters spelling)
    (rest : Text) :
    smallLetters (spelling ++ rest) = smallLetters spelling ++ smallLetters rest := by
  induction spelling using smallLetters.induct with
  | case1 => rfl
  | case2 spelling ih =>
    rw [smallLetters] at closed ⊢
    rw [List.cons_append, List.cons_append, smallLetters, ih (List.not_mem_of_not_mem_cons closed)]
    rfl
  | case3 b spelling notDotted ih =>
    rw [smallLetters.eq_3 b spelling notDotted] at closed ⊢
    have plain : b ≠ 0xC4 := by
      rintro rfl
      exact closed List.mem_cons_self
    rw [List.cons_append, smallLetters_cons plain, ih (List.not_mem_of_not_mem_cons closed)]
    rfl

theorem length_smallLetters_le (t : Text) : (smallLetters t).length ≤ t.length := by
  induction t using smallLetters.induct with
  | case1 => exact Nat.le_refl 0
  | case2 rest ih =>
    rw [smallLetters, List.length_cons, List.length_cons, List.length_cons]
    omega
  | case3 b rest notDotted ih =>
    rw [smallLetters.eq_3 b rest notDotted, List.length_cons, List.length_cons]
    omega

theorem eq_nil_of_smallLetters {t : Text} (empty : smallLetters t = []) : t = [] := by
  induction t using smallLetters.induct with
  | case1 => rfl
  | case2 rest => cases empty
  | case3 b rest notDotted =>
    rw [smallLetters.eq_3 b rest notDotted] at empty
    cases empty

/-- A byte of the dotted capital that is left alone stays as it is, and one that is not gives a
small letter. -/
theorem plain_of_smallLetters {t : Text} (noLetter : 105 ∉ smallLetters t)
    (noByte : 0xC4 ∉ smallLetters t) : 0xC4 ∉ t := by
  induction t using smallLetters.induct with
  | case1 => exact List.not_mem_nil
  | case2 rest => exact absurd List.mem_cons_self noLetter
  | case3 b rest notDotted ih =>
    rw [smallLetters.eq_3 b rest notDotted, List.mem_cons, not_or] at noLetter noByte
    rw [List.mem_cons, not_or]
    refine ⟨?_, ih noLetter.2 noByte.2⟩
    rintro rfl
    exact noByte.1 rfl

/-- What stands at the front of the small letters stands, in some spelling, at the front of the
text. -/
theorem exists_spelling {t word : Text} (front : word <+: smallLetters t) (closed : 0xC4 ∉ word) :
    ∃ spelling rest, t = spelling ++ rest ∧ smallLetters spelling = word := by
  induction t using smallLetters.induct generalizing word with
  | case1 =>
    obtain rfl : word = [] := List.prefix_nil.mp front
    exact ⟨[], [], rfl, rfl⟩
  | case2 rest ih =>
    cases word with
    | nil => exact ⟨[], _, rfl, rfl⟩
    | cons letter word =>
      obtain ⟨rfl, inner⟩ := List.cons_prefix_cons.mp front
      obtain ⟨spelling, more, rfl, spelled⟩ := ih inner (List.not_mem_of_not_mem_cons closed)
      exact ⟨0xC4 :: 0xB0 :: spelling, more, rfl, by rw [smallLetters, spelled]⟩
  | case3 b rest notDotted ih =>
    cases word with
    | nil => exact ⟨[], _, rfl, rfl⟩
    | cons letter word =>
      rw [smallLetters.eq_3 b rest notDotted] at front
      obtain ⟨rfl, inner⟩ := List.cons_prefix_cons.mp front
      obtain ⟨spelling, more, rfl, spelled⟩ := ih inner (List.not_mem_of_not_mem_cons closed)
      have plain : b ≠ 0xC4 := by
        rintro rfl
        exact closed List.mem_cons_self
      exact ⟨b :: spelling, more, rfl, by rw [smallLetters_cons plain, spelled]⟩

/-! ## Words -/

theorem isWord_iff (t : Text) : IsWord t ↔ t.lower ∈ words := by
  simp only [IsWord, words, List.mem_cons, List.not_mem_nil, or_false]
  exact or_left_comm

theorem length_of_lower {t word : Text} (spelled : t.lower = word) : t.length = word.length := by
  rw [← spelled, Text.lower, List.length_map]

theorem not_mem_of_mem_words {word : Text} (isWord : word ∈ words) : 0xC4 ∉ word := by
  revert word
  decide

theorem IsWord.plain {t : Text} (isWord : IsWord t) : 0xC4 ∉ t := fun member =>
  not_mem_of_mem_words ((isWord_iff t).mp isWord) (List.mem_map_of_mem member)

theorem startsWithWord_iff (t word : Text) :
    startsWithWord t word = true ↔ word <+: smallLetters t := List.isPrefixOf_iff_prefix

theorem IsWord.startsWith {t rest : Text} (isWord : IsWord t) :
    startsWithWord (t ++ rest) t.lower = true := by
  rw [startsWithWord_iff, smallLetters_append isWord.plain]
  exact List.prefix_append _ _

/-- The word that is found is the longest one that the text begins with. -/
theorem find?_words {t word : Text} (found : words.find? (startsWithWord t) = some word) :
    word ∈ words ∧ startsWithWord t word = true ∧
      ∀ other ∈ words, startsWithWord t other = true → other.length ≤ word.length := by
  refine ⟨List.mem_of_find?_eq_some found, List.find?_some found, ?_⟩
  intro other isWord starts
  by_cases infinite : startsWithWord t (utf8 "infinity") = true
  · rw [words, List.find?_cons_of_pos infinite] at found
    obtain rfl := Option.some.inj found
    have longest : ∀ other ∈ words, other.length ≤ (utf8 "infinity").length := by decide
    exact longest other isWord
  · have short : ∀ other ∈ words, other ≠ utf8 "infinity" → other.length ≤ 3 := by decide
    have long : ∀ word ∈ words, 3 ≤ word.length := by decide
    have otherWord : other ≠ utf8 "infinity" := by
      rintro rfl
      exact infinite starts
    exact Nat.le_trans (short other isWord otherWord)
      (long word (List.mem_of_find?_eq_some found))

/-- A byte that begins a word, not a number: it is a letter, or not in ASCII. -/
def IsLetter (b : UInt8) : Prop := 64 < b.toNat ∧ b ≠ 95

theorem front_of_spelling {spelling : Text} (spelled : smallLetters spelling ∈ words)
    (rest : Text) : ∃ b ∈ (spelling ++ rest).head?, IsLetter b := by
  have heads : ∀ word ∈ words, word.head? = some 105 ∨ word.head? = some 110 := by decide
  cases spelling with
  | nil => rcases heads _ spelled with none | none <;> cases none
  | cons b spelling =>
    refine ⟨b, rfl, ?_⟩
    by_cases dotted : b = 0xC4
    · subst dotted
      exact ⟨by decide, by decide⟩
    · rw [smallLetters_cons dotted] at spelled
      have letter := heads _ spelled
      simp only [List.head?_cons, Option.some.injEq, ← UInt8.toNat_inj, Text.toNat_lowerByte,
        UInt8.toNat_ofNat] at letter
      simp only [IsLetter, ne_eq, ← UInt8.toNat_inj, UInt8.toNat_ofNat]
      split at letter <;> omega

theorem IsWord.front {t : Text} (isWord : IsWord t) : ∃ b ∈ t.head?, IsLetter b := by
  have spelled : smallLetters t ∈ words := by
    rw [smallLetters_of_plain isWord.plain]
    exact (isWord_iff t).mp isWord
  have letter := front_of_spelling spelled []
  rwa [List.append_nil] at letter

theorem IsWord.ne_nil {t : Text} (isWord : IsWord t) : t ≠ [] := by
  rintro rfl
  obtain ⟨b, first, -⟩ := isWord.front
  cases first

theorem unsigned_of_letter {t : Text} (front : ∃ b ∈ t.head?, IsLetter b) :
    Integer.Unsigned t := by
  obtain ⟨b, first, letter⟩ := front
  intro other same
  obtain rfl : b = other := Option.some.inj (first.symm.trans same)
  constructor <;> rintro rfl <;> exact absurd letter.1 (by decide)

/-! ## Words that are found -/

/-- A word that is found is spelled out, or spelled with a dotted capital. -/
theorem spelled_of_found {t word : Text} (found : words.find? (startsWithWord t) = some word) :
    (∃ spelling rest, t = spelling ++ rest ∧ spelling.lower = word) ∨
      ∃ spelling rest, t = spelling ++ rest ∧ smallLetters spelling = word ∧ 0xC4 ∈ spelling := by
  obtain ⟨isWord, starts, -⟩ := find?_words found
  obtain ⟨spelling, rest, rfl, spelled⟩ :=
    exists_spelling ((startsWithWord_iff _ _).mp starts) (not_mem_of_mem_words isWord)
  by_cases dotted : 0xC4 ∈ spelling
  · exact .inr ⟨spelling, rest, rfl, spelled, dotted⟩
  · rw [smallLetters_of_plain dotted] at spelled
    exact .inl ⟨spelling, rest, rfl, spelled⟩

/-- Of the words only infinity has a letter for a dotted capital behind its first one. -/
theorem undotted_of_short {spelling : Text} (isWord : smallLetters spelling ∈ words)
    (short : smallLetters spelling ≠ utf8 "infinity") (first : ∀ b ∈ spelling.head?, b ≠ 0xC4) :
    0xC4 ∉ spelling := by
  have tails : ∀ word ∈ words, word ≠ utf8 "infinity" → 105 ∉ word.tail ∧ 0xC4 ∉ word.tail := by
    decide
  cases spelling with
  | nil => exact List.not_mem_nil
  | cons b rest =>
    have plain : b ≠ 0xC4 := first b rfl
    rw [smallLetters_cons plain] at isWord short
    obtain ⟨noLetter, noByte⟩ := tails _ isWord short
    exact List.not_mem_cons_of_ne_of_not_mem (Ne.symm plain) (plain_of_smallLetters noLetter noByte)

/-- With a dotted capital, as many bytes as the word has make no word. -/
theorem not_isWord_of_dotted {spelling : Text} (dotted : 0xC4 ∈ spelling) (rest : Text) :
    ¬ IsWord ((spelling ++ rest).take (smallLetters spelling).length) := by
  rw [List.take_append_of_le_length (length_smallLetters_le spelling)]
  intro isWord
  generalize cut : spelling.take (smallLetters spelling).length = taken at isWord
  obtain ⟨more, rfl⟩ : taken <+: spelling := cut ▸ List.take_prefix _ _
  have letters := smallLetters_append isWord.plain more
  have length := congrArg List.length cut
  rw [List.length_take, Nat.min_eq_left (length_smallLetters_le _), letters, List.length_append,
    Text.lower, List.length_map] at length
  obtain rfl : more = [] :=
    eq_nil_of_smallLetters (List.eq_nil_of_length_eq_zero (Nat.add_eq_left.mp length))
  rw [List.append_nil] at dotted
  exact isWord.plain dotted

theorem find?_words_infinity {spelling : Text} (spelled : smallLetters spelling = utf8 "infinity")
    (rest : Text) :
    words.find? (startsWithWord (spelling ++ rest)) = some (utf8 "infinity") := by
  apply List.find?_cons_of_pos
  rw [startsWithWord_iff, smallLetters_append_of_closed (by rw [spelled]; decide), spelled]
  exact List.prefix_append _ _

theorem find?_words_nan {nan : Text} (spelled : nan.lower = utf8 "nan") (rest : Text) :
    words.find? (startsWithWord (nan ++ rest)) = some (utf8 "nan") := by
  have letters : smallLetters (nan ++ rest) = utf8 "nan" ++ smallLetters rest := by
    rw [smallLetters_append (IsWord.plain (.inr (.inr spelled))), spelled]
  have other {word : Text} (first : word.head? = some 105) :
      ¬ startsWithWord (nan ++ rest) word = true := by
    rw [startsWithWord_iff, letters]
    rintro ⟨more, same⟩
    have filled : word ≠ [] := by
      rintro rfl
      cases first
    have firsts := congrArg List.head? same
    rw [Text.head?_append filled, first] at firsts
    cases firsts
  rw [words, List.find?_cons_of_neg (other rfl), List.find?_cons_of_neg (other rfl)]
  apply List.find?_cons_of_pos
  rw [startsWithWord_iff, letters]
  exact List.prefix_append _ _

end Double

end StepGraph
