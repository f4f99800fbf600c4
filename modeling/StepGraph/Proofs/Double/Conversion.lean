import StepGraph.Machine
import StepGraph.Proofs.Double.Words

/-!
# Texts converted to reals

A numeral is a sign and a decimal number, or a sign and a word for infinity or
for no number.  A text is converted by reading the longest numeral at its front.
Two kinds of texts are misread: a word for no number is found behind a sign,
where no reader accepts it, and infinity is found with a dotted capital in it.
-/

namespace StepGraph

namespace Double

/-! ## Numerals -/

/-- A number without a sign. -/
def IsMagnitude (t : Text) : Prop := IsDecimal t ∨ IsWord t

inductive IsNumeral : Text → Prop
  | mk {sign magnitude : Text} (isSign : Integer.IsSign sign)
      (isMagnitude : IsMagnitude magnitude) : IsNumeral (sign ++ magnitude)

/-- The longest numeral at the front of a text. -/
structure LongestNumeral (numeral t : Text) : Prop where
  isNumeral : IsNumeral numeral
  front : numeral <+: t
  longest : ∀ other, IsNumeral other → other <+: t → other.length ≤ numeral.length

/-- The texts that are misread: a sign before a word for no number, and infinity with a dotted
capital among its letters. -/
inductive Misread : Text → Prop
  | signedNan {sign nan rest : Text} (isSign : Integer.IsSign sign) (signed : sign ≠ [])
      (spelled : nan.lower = utf8 "nan") : Misread (sign ++ (nan ++ rest))
  | dotted {sign spelling rest : Text} (isSign : Integer.IsSign sign)
      (spelled : smallLetters spelling = utf8 "infinity") (dotted : 0xC4 ∈ spelling) :
      Misread (sign ++ (spelling ++ rest))

theorem not_letter_of_decimal {number rest : Text} {b : UInt8} (isDecimal : IsDecimal number)
    (first : b ∈ (number ++ rest).head?) : ¬ IsLetter b := by
  obtain ⟨other, front, numeric⟩ := isDecimal.front
  rw [Text.head?_append isDecimal.ne_nil] at first
  obtain rfl : b = other := Option.some.inj (first.symm.trans front)
  rintro ⟨high, -⟩
  rcases numeric with digit | rfl
  · have bounds := (Text.isDigit_iff b).mp digit
    omega
  · exact absurd high (by decide)

/-! ## Reading -/

theorem IsMagnitude.unsigned {t : Text} (isMagnitude : IsMagnitude t) : Integer.Unsigned t := by
  rcases isMagnitude with isDecimal | isWord
  · exact isDecimal.unsigned
  · exact unsigned_of_letter isWord.front

theorem IsMagnitude.ne_nil {t : Text} (isMagnitude : IsMagnitude t) : t ≠ [] := by
  rcases isMagnitude with isDecimal | isWord
  · exact isDecimal.ne_nil
  · exact isWord.ne_nil

theorem IsMagnitude.front {t : Text} (isMagnitude : IsMagnitude t) (rest : Text) :
    ∀ b ∈ (t ++ rest).head?, b ≠ 0xC4 := by
  rintro b first rfl
  rcases isMagnitude with isDecimal | isWord
  · exact not_letter_of_decimal isDecimal first ⟨by decide, by decide⟩
  · exact isWord.plain (Text.mem_of_front isWord.ne_nil _ first)

theorem read_ne_malformed {sign magnitude : Text} (isSign : Integer.IsSign sign)
    (isMagnitude : IsMagnitude magnitude)
    (unsignedNan : magnitude.lower = utf8 "nan" → sign = []) :
    read (sign ++ magnitude) ≠ .malformed := by
  rcases isMagnitude with isDecimal | isWord
  · exact read_decimal isSign isDecimal
  · unfold read
    rw [Integer.splitSign_append isSign fun _ => unsigned_of_letter isWord.front]
    dsimp only
    split
    · nofun
    · next finite =>
      split
      · nofun
      · next notNan =>
        rcases isWord with inf | infinity | nan
        · simp [inf] at finite
        · simp [infinity] at finite
        · rw [unsignedNan nan, List.nil_append] at notNan
          exact absurd nan notNan

theorem readNumber_of_letter {b : UInt8} (letter : IsLetter b) (negative : Bool) (rest : Text) :
    readNumber negative (b :: rest) = .malformed := by
  have high := letter.1
  have notDigit : ¬ Text.isDigit b = true := by
    rw [Text.isDigit_iff]
    omega
  have notZero : b ≠ 48 := by
    rintro rfl
    exact absurd high (by decide)
  have notPoint : b ≠ 46 := by
    rintro rfl
    exact absurd high (by decide)
  have split : splitMantissa Text.isDigit (b :: rest) = ([], 0, b :: rest) := by
    simp [splitMantissa, notDigit, notPoint]
  have decimal : readDecimal negative (b :: rest) = .malformed := by
    simp [readDecimal, split]
  unfold readNumber
  split
  · next same =>
    cases same
    exact absurd rfl notZero
  · exact decimal

/-- Of the texts that begin with a letter only the words are read, and behind a sign not all. -/
theorem read_of_letter {sign rest : Text} (isSign : Integer.IsSign sign)
    (front : ∃ b ∈ rest.head?, IsLetter b)
    (noWord : IsWord rest → sign ≠ [] ∧ rest.lower = utf8 "nan") :
    read (sign ++ rest) = .malformed := by
  have finite : ¬ (rest.lower = utf8 "inf" || rest.lower = utf8 "infinity") = true := by
    rw [Bool.or_eq_true, decide_eq_true_eq, decide_eq_true_eq]
    rintro (inf | infinity)
    · have nan := (noWord (.inl inf)).2
      rw [inf] at nan
      cases nan
    · have nan := (noWord (.inr (.inl infinity))).2
      rw [infinity] at nan
      cases nan
  have notNan : (sign ++ rest).lower ≠ utf8 "nan" := by
    intro nan
    cases isSign with
    | none => exact (noWord (.inr (.inr nan))).1 rfl
    | plus => cases nan
    | minus => cases nan
  unfold read
  rw [Integer.splitSign_append isSign fun _ => unsigned_of_letter front]
  dsimp only
  rw [if_neg finite, if_neg notNan]
  split
  · obtain ⟨b, first, letter⟩ := front
    cases rest with
    | nil => cases first
    | cons other rest =>
      obtain rfl : other = b := Option.some.inj first
      have kept : (other != 95) = true := by simpa using letter.2
      rw [List.filter_cons, if_pos kept]
      exact readNumber_of_letter letter _ _
  · rfl

/-! ## Magnitudes at the front of a text -/

/-- A decimal number is found where no word is, and it is the longest. -/
theorem magnitudePrefix?_of_no_word {t magnitude : Text}
    (none : words.find? (startsWithWord t) = none) (isMagnitude : IsMagnitude magnitude)
    (front : magnitude <+: t) :
    IsDecimal (decimalPrefix t) ∧ magnitudePrefix? t = some (decimalPrefix t) ∧
      magnitude <+: decimalPrefix t := by
  obtain ⟨rest, rfl⟩ := front
  have isDecimal : IsDecimal magnitude := by
    refine isMagnitude.resolve_right fun isWord => ?_
    exact List.find?_eq_none.mp none _ ((isWord_iff _).mp isWord) isWord.startsWith
  have found := decimal_front isDecimal rest
  have filled : decimalPrefix (magnitude ++ rest) ≠ [] := by
    intro empty
    rw [empty, List.prefix_nil] at found
    exact isMagnitude.ne_nil found
  refine ⟨isDecimal_decimalPrefix filled, ?_, found⟩
  simp only [magnitudePrefix?, none, List.isEmpty_iff, if_neg filled]

/-- A word that is spelled out in as many bytes is the longest magnitude. -/
theorem length_le_of_word {word rest other : Text} (isWord : IsWord word)
    (found : words.find? (startsWithWord (word ++ rest)) = some word.lower)
    (isMagnitude : IsMagnitude other) (front : other <+: word ++ rest) :
    other.length ≤ word.length := by
  obtain ⟨more, same⟩ := front
  rcases isMagnitude with isDecimal | otherWord
  · obtain ⟨b, first, letter⟩ := isWord.front
    have begins : b ∈ (other ++ more).head? := by
      rw [same, Text.head?_append isWord.ne_nil]
      exact first
    exact absurd letter (not_letter_of_decimal isDecimal begins)
  · have starts : startsWithWord (word ++ rest) other.lower = true := same ▸ otherWord.startsWith
    have bound := (find?_words found).2.2 _ ((isWord_iff other).mp otherWord) starts
    rwa [← length_of_lower rfl, ← length_of_lower rfl] at bound

/-- What is found in a text with a magnitude in front is the longest one, unless it is infinity with
a dotted capital. -/
theorem exists_longest {t magnitude : Text} (isMagnitude : IsMagnitude magnitude)
    (front : magnitude <+: t)
    (undotted : ∀ spelling rest, t = spelling ++ rest →
      smallLetters spelling = utf8 "infinity" → 0xC4 ∉ spelling) :
    ∃ longest, magnitudePrefix? t = some longest ∧ IsMagnitude longest ∧ longest <+: t ∧
      ∀ other, IsMagnitude other → other <+: t → other.length ≤ longest.length := by
  cases found : words.find? (startsWithWord t) with
  | none =>
    obtain ⟨isDecimal, prefixed, -⟩ := magnitudePrefix?_of_no_word found isMagnitude front
    refine ⟨decimalPrefix t, prefixed, .inl isDecimal, decimalPrefix_front t, ?_⟩
    intro other isOther otherFront
    exact (magnitudePrefix?_of_no_word found isOther otherFront).2.2.length_le
  | some word =>
    obtain ⟨isWord, -, -⟩ := find?_words found
    have taken : magnitudePrefix? t = some (t.take word.length) := by
      simp only [magnitudePrefix?, found]
    rcases spelled_of_found found with
      ⟨spelling, rest, rfl, rfl⟩ | ⟨spelling, rest, rfl, rfl, dotted⟩
    · rw [← isWord_iff] at isWord
      rw [← length_of_lower rfl, List.take_left] at taken
      refine ⟨spelling, taken, .inr isWord, List.prefix_append _ _, ?_⟩
      exact fun other isOther => length_le_of_word isWord found isOther
    -- The magnitude in front keeps a dotted capital from the first place, and behind it only
    -- infinity has one.
    · obtain ⟨more, same⟩ := front
      have first : ∀ b ∈ spelling.head?, b ≠ 0xC4 := by
        have filled : spelling ≠ [] := List.ne_nil_of_mem dotted
        rw [← Text.head?_append filled rest, ← same]
        exact isMagnitude.front more
      by_cases infinite : smallLetters spelling = utf8 "infinity"
      · exact absurd dotted (undotted spelling rest rfl infinite)
      · exact absurd dotted (undotted_of_short isWord infinite first)

/-- As many bytes as a word has, cut from a spelling with a dotted capital, are not read. -/
theorem read_of_dotted {sign spelling : Text} (isSign : Integer.IsSign sign)
    (isWord : smallLetters spelling ∈ words) (dotted : 0xC4 ∈ spelling) (rest : Text) :
    read (sign ++ (spelling ++ rest).take (smallLetters spelling).length) = .malformed := by
  have noWord := not_isWord_of_dotted dotted rest
  refine read_of_letter isSign ?_ fun isWord => absurd isWord noWord
  have long : ∀ word ∈ words, word.length ≠ 0 := by decide
  rw [List.head?_take, if_neg (long _ isWord)]
  exact front_of_spelling isWord rest

/-! ## Numerals at the front of a text -/

section Numerals

variable {sign rest : Text} (isSign : Integer.IsSign sign)
variable (unsigned : sign = [] → Integer.Unsigned rest)
include isSign unsigned

theorem numericPrefix?_eq {t : Text} (indents : t.Indents (sign ++ rest)) :
    numericPrefix? t = (magnitudePrefix? rest).map (sign ++ ·) := by
  unfold numericPrefix?
  rw [indents.dropWhile_eq]
  dsimp only
  rw [Integer.splitSign_append isSign unsigned, Integer.leadingSign_append isSign unsigned]

theorem IsNumeral.exists_magnitude {numeral : Text} (isNumeral : IsNumeral numeral)
    (front : numeral <+: sign ++ rest) :
    ∃ magnitude, numeral = sign ++ magnitude ∧ IsMagnitude magnitude ∧ magnitude <+: rest := by
  obtain @⟨ownSign, magnitude, isOwnSign, isMagnitude⟩ := isNumeral
  obtain ⟨more, same⟩ := front
  rw [List.append_assoc] at same
  have ownUnsigned : Integer.Unsigned (magnitude ++ more) := by
    unfold Integer.Unsigned
    rw [Text.head?_append isMagnitude.ne_nil]
    exact isMagnitude.unsigned
  have sameSign := congrArg Integer.leadingSign same
  rw [Integer.leadingSign_append isOwnSign fun _ => ownUnsigned,
    Integer.leadingSign_append isSign unsigned] at sameSign
  subst sameSign
  exact ⟨magnitude, rfl, isMagnitude, more, List.append_cancel_left same⟩

theorem not_misread (front : ∀ b ∈ rest.head?, ¬ IsLetter b) : ¬ Misread (sign ++ rest) := by
  have differs {ownSign more : Text} (isOwnSign : Integer.IsSign ownSign)
      (letter : ∃ b ∈ more.head?, IsLetter b) : ownSign ++ more ≠ sign ++ rest := by
    intro same
    have bodies := congrArg (fun t => (Integer.splitSign t).2) same
    simp only [Integer.splitSign_append isOwnSign fun _ => unsigned_of_letter letter,
      Integer.splitSign_append isSign unsigned] at bodies
    obtain ⟨b, first, isLetter⟩ := letter
    exact front b (bodies ▸ first) isLetter
  intro misread
  generalize whole : sign ++ rest = t at misread
  cases misread with
  | @signedNan ownSign nan more isOwnSign signed spelled =>
    have isWord : IsWord nan := .inr (.inr spelled)
    refine differs isOwnSign ?_ whole.symm
    rw [Text.head?_append isWord.ne_nil]
    exact isWord.front
  | @dotted ownSign spelling more isOwnSign spelled dotted =>
    refine differs isOwnSign ?_ whole.symm
    exact front_of_spelling (spelled ▸ List.mem_cons_self) more

/-- A numeral that is not misread is found at its full length. -/
theorem exists_longestNumeral {t numeral : Text} (indents : t.Indents (sign ++ rest))
    (isNumeral : IsNumeral numeral) (front : numeral <+: sign ++ rest)
    (notMisread : ¬ Misread (sign ++ rest)) :
    ∃ longest, numericPrefix? t = some longest ∧ LongestNumeral longest (sign ++ rest) ∧
      read longest ≠ .malformed := by
  obtain ⟨magnitude, rfl, isMagnitude, begins⟩ := isNumeral.exists_magnitude isSign unsigned front
  have undotted : ∀ spelling more, rest = spelling ++ more →
      smallLetters spelling = utf8 "infinity" → 0xC4 ∉ spelling := by
    rintro spelling more rfl spelled dotted
    exact notMisread (.dotted isSign spelled dotted)
  obtain ⟨longest, found, isLongest, longestFront, bound⟩ :=
    exists_longest isMagnitude begins undotted
  have unsignedNan : longest.lower = utf8 "nan" → sign = [] := by
    intro nan
    obtain ⟨more, rfl⟩ := longestFront
    by_contra signed
    exact notMisread (.signedNan isSign signed nan)
  refine ⟨sign ++ longest, ?_, ⟨⟨isSign, isLongest⟩, ?_, ?_⟩, ?_⟩
  · rw [numericPrefix?_eq isSign unsigned indents, found]
    rfl
  · exact (List.prefix_append_right_inj sign).mpr longestFront
  · intro other isOther otherFront
    obtain ⟨own, rfl, isOwn, ownFront⟩ := isOther.exists_magnitude isSign unsigned otherFront
    rw [List.length_append, List.length_append]
    exact Nat.add_le_add_left (bound own isOwn ownFront) _
  · exact read_ne_malformed isSign isLongest unsignedNan

theorem ofPrefix_of_no_numeral {t : Text} (indents : t.Indents (sign ++ rest))
    (noNumeral : ∀ numeral, IsNumeral numeral → ¬ numeral <+: sign ++ rest) : ofPrefix t = 0 := by
  have noMagnitude (magnitude : Text) (isMagnitude : IsMagnitude magnitude) :
      ¬ magnitude <+: rest := fun front =>
    noNumeral _ ⟨isSign, isMagnitude⟩ ((List.prefix_append_right_inj sign).mpr front)
  unfold ofPrefix
  rw [numericPrefix?_eq isSign unsigned indents, magnitudePrefix?]
  cases found : words.find? (startsWithWord rest) with
  | none =>
    have empty : decimalPrefix rest = [] := by
      by_contra filled
      exact noMagnitude _ (.inl (isDecimal_decimalPrefix filled)) (decimalPrefix_front rest)
    rw [empty]
    rfl
  | some word =>
    have isWord := (find?_words found).1
    rcases spelled_of_found found with
      ⟨spelling, more, rfl, rfl⟩ | ⟨spelling, more, rfl, rfl, dotted⟩
    · exact absurd (List.prefix_append _ _) (noMagnitude _ (.inr ((isWord_iff _).mpr isWord)))
    · simp only [Option.map_some, read_of_dotted isSign isWord dotted, Reading.toFloat]

end Numerals

theorem ofPrefix_of_misread {t rest : Text} (indents : t.Indents rest) (misread : Misread rest) :
    ofPrefix t = 0 := by
  unfold ofPrefix
  cases misread with
  | @signedNan sign nan rest isSign signed spelled =>
    have isWord : IsWord nan := .inr (.inr spelled)
    rw [numericPrefix?_eq isSign (fun unsigned => absurd unsigned signed) indents, magnitudePrefix?,
      find?_words_nan spelled]
    simp only [Option.map_some, ← length_of_lower spelled, List.take_left,
      read_of_letter isSign isWord.front fun _ => ⟨signed, spelled⟩, Reading.toFloat]
  | @dotted sign spelling rest isSign spelled dotted =>
    have isWord : smallLetters spelling ∈ words := by
      rw [spelled]
      exact List.mem_cons_self
    have unsigned : Integer.Unsigned (spelling ++ rest) :=
      unsigned_of_letter (front_of_spelling isWord rest)
    rw [numericPrefix?_eq isSign (fun _ => unsigned) indents, magnitudePrefix?,
      find?_words_infinity spelled, ← spelled]
    simp only [Option.map_some, read_of_dotted isSign isWord dotted, Reading.toFloat]

end Double

open Double in
/-- The real number read from a text is the longest numeral behind its white space, which is never
malformed; without a numeral it is zero.  Where the text is misread it is zero as well. -/
theorem float_reads_longest_numeral (t : Text) :
    (∃ rest, t.Indents rest) ∧
      ∀ rest, t.Indents rest →
        ((∃ numeral, IsNumeral numeral ∧ numeral <+: rest) → ¬ Misread rest →
          ∃ longest, numericPrefix? t = some longest ∧ LongestNumeral longest rest ∧
            read longest ≠ .malformed ∧ ofPrefix t = (read longest).toFloat) ∧
        ((∀ numeral, IsNumeral numeral → ¬ numeral <+: rest) → ofPrefix t = 0) ∧
        (Misread rest → ofPrefix t = 0) := by
  refine ⟨⟨_, Text.indents_dropWhile t⟩, ?_⟩
  intro rest indents
  obtain ⟨sign, unsigned, rfl, isSign, isUnsigned⟩ := Integer.exists_sign rest
  refine ⟨?_, ofPrefix_of_no_numeral isSign isUnsigned indents, ofPrefix_of_misread indents⟩
  rintro ⟨numeral, isNumeral, front⟩ notMisread
  obtain ⟨longest, found, isLongest, wellFormed⟩ :=
    exists_longestNumeral isSign isUnsigned indents isNumeral front notMisread
  refine ⟨longest, found, isLongest, wellFormed, ?_⟩
  rw [ofPrefix, found]

open Double in
/-- An exponent without digits is left out of the numeral, and a sign alone is none. -/
theorem numerals_stop_before_open_exponents :
    (LongestNumeral (utf8 "-.5") (utf8 "-.5e+z") ∧ read (utf8 "-.5") ≠ .malformed ∧
      ofPrefix (utf8 "\t-.5e+z") = (read (utf8 "-.5")).toFloat) ∧
    ofPrefix (utf8 " -") = 0 ∧ ofPrefix (utf8 "+NaN") = 0 := by
  refine ⟨?_, ?_, ?_⟩
  · have indents : (utf8 "\t-.5e+z").Indents (utf8 "-.5e+z") :=
      ⟨⟨utf8 "\t", by decide +kernel, rfl⟩, by decide +kernel⟩
    have isMantissa : IsMantissa (utf8 ".5") :=
      @IsMantissa.mk [] (utf8 ".5") nofun (.point (by decide +kernel)) (by decide +kernel)
    have isNumeral : IsNumeral (utf8 "-.5") := .mk .minus (.inl (.mk isMantissa .none))
    have notMisread : ¬ Misread (utf8 "-.5e+z") := by
      apply @not_misread (utf8 "-") (utf8 ".5e+z") .minus nofun
      rintro _ ⟨⟩ letter
      exact absurd letter.1 (by decide)
    obtain ⟨longest, found, rest⟩ := ((float_reads_longest_numeral _).2 _ indents).1
      ⟨_, isNumeral, by decide⟩ notMisread
    obtain rfl : longest = utf8 "-.5" := Option.some.inj (found.symm.trans (by decide))
    exact rest
  · have indents : (utf8 " -").Indents (utf8 "-") :=
      ⟨⟨utf8 " ", by decide +kernel, rfl⟩, by decide +kernel⟩
    apply ((float_reads_longest_numeral _).2 _ indents).2.1
    intro numeral isNumeral front
    obtain ⟨magnitude, -, isMagnitude, begins⟩ :=
      @IsNumeral.exists_magnitude (utf8 "-") [] .minus nofun numeral isNumeral front
    exact isMagnitude.ne_nil (List.prefix_nil.mp begins)
  · have indents : (utf8 "+NaN").Indents (utf8 "+NaN") :=
      ⟨⟨[], by decide +kernel, rfl⟩, by decide +kernel⟩
    apply ((float_reads_longest_numeral _).2 _ indents).2.2
    exact @Misread.signedNan (utf8 "+") (utf8 "NaN") [] .plus (by decide) (by decide)

open Double in
/-- The longest numeral is no number under a sign in the one text and infinity in the other; the
first is found and not read, the second is not found, and both conversions fail. -/
theorem signed_nan_and_dotted_infinity_are_not_read :
    (LongestNumeral (utf8 "-nan") (utf8 "-nan") ∧ read (utf8 "-nan") = .malformed ∧
      Machine.convertFloat (utf8 "-nan") 1 = failAt 1 (.notNumber (utf8 "float"))) ∧
    LongestNumeral (utf8 "inf") (utf8 "infİnity") ∧
      numericPrefix? (utf8 "infİnity") ≠ some (utf8 "inf") ∧
      Machine.convertFloat (utf8 "infİnity") 1 = failAt 1 (.notNumber (utf8 "float")) := by
  have letter : ∃ b ∈ (utf8 "infİnity").head?, IsLetter b := ⟨105, rfl, by decide, by decide⟩
  refine ⟨⟨⟨?_, List.prefix_rfl, ?_⟩, ?_, ?_⟩, ⟨?_, by decide, ?_⟩, by decide, ?_⟩
  · exact .mk .minus (.inr (.inr (.inr rfl)))
  · intro other _ front
    exact front.length_le
  · exact read_of_letter .minus (IsWord.front (.inr (.inr rfl))) fun _ => ⟨by decide, rfl⟩
  · rfl
  · exact .mk .none (.inr (.inl rfl))
  · intro other isNumeral front
    obtain ⟨magnitude, rfl, isMagnitude, begins⟩ :=
      @IsNumeral.exists_magnitude [] (utf8 "infİnity") .none (fun _ => unsigned_of_letter letter)
        other isNumeral front
    rcases isMagnitude with isDecimal | inf | infinity | nan
    · obtain ⟨more, same⟩ := begins
      obtain ⟨b, first, isLetter⟩ := letter
      exact absurd isLetter (not_letter_of_decimal isDecimal (same ▸ first))
    · exact Nat.le_of_eq (length_of_lower inf)
    · have cut := List.prefix_iff_eq_take.mp begins
      rw [length_of_lower infinity] at cut
      rw [cut] at infinity
      cases infinity
    · have short := length_of_lower nan
      exact Nat.le_of_eq short
  · rfl

end StepGraph
