import StepGraph.Path

/-!
# Places and their paths

A place is a list of names from the root, and its path writes them with slashes.
Cleaning a path finds the place it means, and going from a place to the one
around it is cutting the path at its last slash.
-/

namespace StepGraph

namespace Path

/-- What can stand between slashes in a path without detours. -/
structure IsName (s : Text) : Prop where
  filled : s ≠ []
  noSlash : slash ∉ s
  notDot : s ≠ dot
  notDotDot : s ≠ dotDot

/-! ## Segments -/

theorem segments_ne_nil (p : Text) : segments p ≠ [] := by
  cases p with
  | nil => exact List.cons_ne_nil _ _
  | cons b p =>
    unfold segments
    split
    · exact List.cons_ne_nil _ _
    · split <;> exact List.cons_ne_nil _ _

theorem segments_cons_slash (p : Text) : segments (slash :: p) = [] :: segments p := by
  rw [segments, if_pos rfl]

theorem segments_cons {b : UInt8} {p first : Text} {others : List Text} (notSlash : b ≠ slash)
    (split : segments p = first :: others) : segments (b :: p) = (b :: first) :: others := by
  rw [segments, if_neg notSlash, split]

theorem segments_append_slash (p q : Text) :
    segments (p ++ slash :: q) = segments p ++ segments q := by
  induction p with
  | nil => exact segments_cons_slash q
  | cons b p ih =>
    by_cases isSlash : b = slash
    · rw [isSlash, List.cons_append, segments_cons_slash, segments_cons_slash, ih]
      rfl
    · cases split : segments p with
      | nil => exact absurd split (segments_ne_nil p)
      | cons first others =>
        rw [split] at ih
        rw [List.cons_append, segments_cons isSlash ih, segments_cons isSlash split]
        rfl

theorem segments_of_noSlash {s : Text} (noSlash : slash ∉ s) : segments s = [s] := by
  induction s with
  | nil => rfl
  | cons b s ih =>
    obtain ⟨notSlash, noSlash⟩ := not_or.mp (mt List.mem_cons.mpr noSlash)
    exact segments_cons (Ne.symm notSlash) (ih noSlash)

theorem slash_notMem_of_mem_segments {p s : Text} (member : s ∈ segments p) : slash ∉ s := by
  induction p generalizing s with
  | nil =>
    rw [List.mem_singleton.mp member]
    exact List.not_mem_nil
  | cons b p ih =>
    by_cases isSlash : b = slash
    · rw [isSlash, segments_cons_slash] at member
      obtain rfl | member := List.mem_cons.mp member
      · exact List.not_mem_nil
      · exact ih member
    · cases split : segments p with
      | nil => exact absurd split (segments_ne_nil p)
      | cons first others =>
        rw [segments_cons isSlash split] at member
        rw [split] at ih
        obtain rfl | member := List.mem_cons.mp member
        · exact mt List.mem_cons.mp (not_or.mpr ⟨Ne.symm isSlash, ih List.mem_cons_self⟩)
        · exact ih (List.mem_cons_of_mem _ member)

/-- The path of a place other than the root has a slash before every name. -/
theorem ofParts_eq_flatMap {place : List Text} (filled : place ≠ []) :
    ofParts place = place.flatMap (slash :: ·) := by
  unfold ofParts
  induction place with
  | nil => exact absurd rfl filled
  | cons s rest ih =>
    cases rest with
    | nil => exact congrArg (slash :: ·) (List.append_nil s).symm
    | cons t rest =>
      rw [List.flatMap_cons, ← ih (List.cons_ne_nil _ _), Text.join, List.append_assoc]
      rfl

theorem segments_flatMap {place : List Text} (names : ∀ s ∈ place, IsName s) (p : Text) :
    segments (p ++ place.flatMap (slash :: ·)) = segments p ++ place := by
  induction place generalizing p with
  | nil => rw [List.flatMap_nil, List.append_nil, List.append_nil]
  | cons s rest ih =>
    obtain ⟨isName, names⟩ := List.forall_mem_cons.mp names
    rw [List.flatMap_cons, ← List.append_assoc, ih names, segments_append_slash,
      segments_of_noSlash isName.noSlash, List.append_assoc]
    rfl

theorem segments_ofParts {place : List Text} (names : ∀ s ∈ place, IsName s)
    (filled : place ≠ []) : segments (ofParts place) = [] :: place := by
  have split := segments_flatMap names []
  rwa [List.nil_append, ← ofParts_eq_flatMap filled] at split

/-! ## The walk along segments -/

section

variable {s : Text} (rooted : Bool) (done rest : List Text)

theorem walk_cons_stay (stays : (decide (s = []) || decide (s = dot)) = true) :
    walk rooted done (s :: rest) = walk rooted done rest := by
  cases done <;> rw [walk, if_pos stays]

theorem walk_cons_push (moves : ¬ (decide (s = []) || decide (s = dot)) = true)
    (notUp : s ≠ dotDot) : walk rooted done (s :: rest) = walk rooted (s :: done) rest := by
  cases done <;> rw [walk, if_neg moves, if_neg notUp]

theorem walk_cons_name (isName : IsName s) :
    walk rooted done (s :: rest) = walk rooted (s :: done) rest :=
  walk_cons_push rooted done rest (by simp [isName.filled, isName.notDot]) isName.notDotDot

end

theorem walk_append (rooted : Bool) (done first second : List Text) :
    walk rooted done (first ++ second) = walk rooted (walk rooted done first).reverse second := by
  fun_induction walk rooted done first with
  | case1 done => rw [List.nil_append, List.reverse_reverse]
  | case2 done s rest stays ih => rw [List.cons_append, walk_cons_stay _ _ _ stays, ih]
  | case3 rest moves ih => rw [List.cons_append, walk, if_neg moves, if_pos rfl, ih]
  | case4 rest last before moves ih =>
    rw [List.cons_append, walk, if_neg moves, if_pos rfl, ih]
  | case5 done s rest moves notUp ih =>
    rw [List.cons_append, walk_cons_push _ _ _ moves notUp, ih]

theorem walk_names {place : List Text} (names : ∀ s ∈ place, IsName s) (rooted : Bool)
    (done : List Text) : walk rooted done place = done.reverse ++ place := by
  induction place generalizing done with
  | nil => rw [walk, List.append_nil]
  | cons s rest ih =>
    obtain ⟨isName, names⟩ := List.forall_mem_cons.mp names
    rw [walk_cons_name _ _ _ isName, ih names, List.reverse_cons, List.append_assoc]
    rfl

/-- From the root two dots never stay, so a walk ends with names alone. -/
theorem isName_of_mem_walk {done rest : List Text} (walked : ∀ s ∈ done, IsName s)
    (ahead : ∀ s ∈ rest, slash ∉ s) : ∀ s ∈ walk true done rest, IsName s := by
  fun_induction walk true done rest with
  | case1 done =>
    intro s member
    exact walked s (List.mem_reverse.mp member)
  | case2 done s rest stays ih => exact ih walked (List.forall_mem_cons.mp ahead).2
  | case3 rest moves ih => exact ih walked (List.forall_mem_cons.mp ahead).2
  | case4 rest last before moves ih =>
    obtain ⟨isName, before⟩ := List.forall_mem_cons.mp walked
    rw [if_neg isName.notDotDot] at ih ⊢
    exact ih before (List.forall_mem_cons.mp ahead).2
  | case5 done s rest moves notUp ih =>
    obtain ⟨noSlash, ahead⟩ := List.forall_mem_cons.mp ahead
    have apart : s ≠ [] ∧ s ≠ dot := by simpa using moves
    exact ih (List.forall_mem_cons.mpr ⟨⟨apart.1, noSlash, apart.2, notUp⟩, walked⟩) ahead

theorem isName_of_mem_parts (p : Text) : ∀ s ∈ parts p, IsName s :=
  isName_of_mem_walk nofun fun _ member => slash_notMem_of_mem_segments member

/-! ## Whole paths -/

theorem parts_append_slash (p q : Text) :
    parts (p ++ slash :: q) = walk true (parts p).reverse (segments q) := by
  unfold parts
  rw [segments_append_slash, walk_append]

theorem parts_ofParts {place : List Text} (names : ∀ s ∈ place, IsName s) :
    parts (ofParts place) = place := by
  cases place with
  | nil => rfl
  | cons s rest =>
    rw [parts, segments_ofParts names (List.cons_ne_nil s rest)]
    exact walk_names names true []

theorem isAbsolute_ofParts (place : List Text) : isAbsolute (ofParts place) = true := rfl

theorem clean_of_isAbsolute {p : Text} (rooted : isAbsolute p = true) :
    clean p = ofParts (parts p) :=
  if_pos rooted

theorem clean_ofParts {place : List Text} (names : ∀ s ∈ place, IsName s) :
    clean (ofParts place) = ofParts place := by
  rw [clean_of_isAbsolute (isAbsolute_ofParts place), parts_ofParts names]

theorem join_ofParts {place : List Text} (names : ∀ s ∈ place, IsName s) {name : Text}
    (isName : IsName name) : join (ofParts place) name = ofParts (place ++ [name]) := by
  have filled : name.isEmpty = false := List.isEmpty_eq_false_iff.mpr isName.filled
  have rooted : isAbsolute (ofParts place ++ [slash] ++ name) = true := rfl
  have extended : parts (ofParts place ++ [slash] ++ name) = place ++ [name] := by
    rw [List.append_assoc, List.singleton_append, parts_append_slash, parts_ofParts names,
      segments_of_noSlash isName.noSlash, walk_cons_name _ _ _ isName, walk, List.reverse_cons,
      List.reverse_reverse]
  unfold join
  rw [filled, Bool.and_false, if_neg Bool.false_ne_true]
  change clean (ofParts place ++ [slash] ++ name) = _
  rw [clean_of_isAbsolute rooted, extended]

/-- Every path means a place once it is seen from a directory. -/
theorem absolute_eq_ofParts (current : List Text) (p : Text) :
    ∃ place, (∀ s ∈ place, IsName s) ∧ absolute (ofParts current) p = ofParts place := by
  have cleaned {q : Text} (rooted : isAbsolute q = true) :
      ∃ place, (∀ s ∈ place, IsName s) ∧ clean q = ofParts place :=
    ⟨parts q, isName_of_mem_parts q, clean_of_isAbsolute rooted⟩
  unfold absolute
  split
  · next rooted => exact cleaned rooted
  · cases p with
    | nil => exact cleaned (isAbsolute_ofParts current)
    | cons b p =>
      have rooted : isAbsolute (ofParts current ++ [slash] ++ b :: p) = true := rfl
      exact cleaned rooted

/-! ## The place around a place -/

/-- The path of what a path stands in: all up to its last slash, without detours. -/
def parent (p : Text) : Text := clean (p.reverse.dropWhile (· != slash)).reverse

theorem parent_root : parent (ofParts []) = ofParts [] := by decide

theorem parent_append_slash {s : Text} (noSlash : slash ∉ s) (p : Text) :
    parent (p ++ slash :: s) = clean (p ++ [slash]) := by
  have inside : ∀ b ∈ s.reverse, (b != slash) = true := by
    intro b member
    have apart : b ≠ slash := by
      rintro rfl
      exact noSlash (List.mem_reverse.mp member)
    exact bne_iff_ne.mpr apart
  unfold parent
  rw [List.reverse_append, List.reverse_cons, List.append_assoc,
    List.dropWhile_append_of_pos inside, List.singleton_append,
    List.dropWhile_cons_of_neg (by simp), List.reverse_cons, List.reverse_reverse]

theorem parent_ofParts {around : List Text} (names : ∀ s ∈ around, IsName s) {name : Text}
    (isName : IsName name) : parent (ofParts (around ++ [name])) = ofParts around := by
  have filled : around ++ [name] ≠ [] := by simp
  rw [ofParts_eq_flatMap filled, List.flatMap_append, List.flatMap_singleton,
    parent_append_slash isName.noSlash]
  cases around with
  | nil => rfl
  | cons s rest =>
    rw [← ofParts_eq_flatMap (List.cons_ne_nil s rest)]
    have rooted : isAbsolute (ofParts (s :: rest) ++ [slash]) = true := rfl
    rw [clean_of_isAbsolute rooted, parts_append_slash, parts_ofParts names]
    change ofParts (walk true (s :: rest).reverse [[]]) = _
    rw [walk_cons_stay _ _ _ rfl, walk, List.reverse_reverse]

/-- A path other than the root's is longer than that of the place around it. -/
theorem length_ofParts_lt (around : List Text) {name : Text} (isName : IsName name) :
    (ofParts around).length < (ofParts (around ++ [name])).length := by
  have filled : 0 < name.length := List.length_pos_iff.mpr isName.filled
  have whole : around ++ [name] ≠ [] := by simp
  rw [ofParts_eq_flatMap whole, List.flatMap_append, List.flatMap_singleton, List.length_append,
    List.length_cons]
  cases around with
  | nil =>
    change 1 < 0 + (name.length + 1)
    omega
  | cons s rest =>
    rw [← ofParts_eq_flatMap (List.cons_ne_nil s rest)]
    omega

theorem parent_ne_of_name {around : List Text} (names : ∀ s ∈ around, IsName s) {name : Text}
    (isName : IsName name) : parent (ofParts (around ++ [name])) ≠ ofParts (around ++ [name]) := by
  intro same
  have shorter := length_ofParts_lt around isName
  rw [← parent_ofParts names isName, same] at shorter
  exact Nat.lt_irrefl _ shorter

end Path

end StepGraph
