import StepGraph.FileTree
import StepGraph.Proofs.Path

/-!
# What a path finds

A path finds something at a place exactly if it can be asked for and directories
stand all the way to what is there.
-/

namespace StepGraph

namespace FileTree

/-- The path of a place can be asked for: it is not too long, nor is a name in it, and it has no
byte zero. -/
structure Nameable (place : List Text) : Prop where
  noZero : 0 ∉ Path.ofParts place
  short : (Path.ofParts place).length ≤ maxPath
  shortNames : ∀ name ∈ place, name.length ≤ maxName

/-- There is something at a place, and a directory at every place around it. -/
structure Stands (tree : FileTree) (place : List Text) : Prop where
  around : ∀ above, above <+: place → above ≠ place → tree.entry? above = some .directory
  taken : tree.entry? place ≠ none

/-- Names lead from one directory into the next and to something in the last. -/
def Leads (tree : FileTree) : (directory : List Text) → List Text → Prop
  | directory, [] => tree.entry? directory ≠ none
  | directory, s :: rest =>
    tree.entry? directory = some .directory ∧ tree.Leads (directory ++ [s]) rest

theorem leads_iff (tree : FileTree) (directory rest : List Text) :
    tree.Leads directory rest ↔
      (∀ above, above <+: rest → above ≠ rest →
        tree.entry? (directory ++ above) = some .directory) ∧
      tree.entry? (directory ++ rest) ≠ none := by
  induction rest generalizing directory with
  | nil =>
    rw [Leads, List.append_nil]
    refine ⟨fun taken => ⟨?_, taken⟩, fun stands => stands.2⟩
    intro above around proper
    exact absurd (List.prefix_nil.mp around) proper
  | cons s rest ih =>
    rw [Leads, ih, List.append_assoc, List.singleton_append]
    constructor
    · rintro ⟨here, further, taken⟩
      refine ⟨?_, taken⟩
      intro above around proper
      obtain rfl | ⟨deeper, rfl, within⟩ := List.prefix_cons_iff.mp around
      · rwa [List.append_nil]
      · have stands := further deeper within fun same => proper (congrArg _ same)
        rwa [List.append_assoc] at stands
    · rintro ⟨around, taken⟩
      refine ⟨?_, ?_, taken⟩
      · have here := around [] List.nil_prefix (List.cons_ne_nil _ _).symm
        rwa [List.append_nil] at here
      · intro above within proper
        have stands := around (s :: above) ((List.prefix_cons_inj s).mpr within)
          fun same => proper (List.cons.inj same).2
        rwa [List.append_assoc]

theorem leads_nil_iff (tree : FileTree) (place : List Text) :
    tree.Leads [] place ↔ tree.Stands place := by
  rw [leads_iff]
  exact ⟨fun ⟨around, taken⟩ => ⟨around, taken⟩, fun ⟨around, taken⟩ => ⟨around, taken⟩⟩

inductive Place.Taken : Place → Prop where
  | file (parts : List Text) (content : Text) : Taken (.file parts content)
  | directory (parts : List Text) : Taken (.directory parts)

theorem hasEntry_iff_taken (tree : FileTree) (current : List Text) (path : Text) :
    tree.hasEntry current path = true ↔
      ∃ place, tree.locate current path = .ok place ∧ place.Taken := by
  unfold hasEntry
  split
  · next found => exact iff_of_true rfl ⟨_, found, .file _ _⟩
  · next found => exact iff_of_true rfl ⟨_, found, .directory _⟩
  · next notFile notDirectory =>
    refine iff_of_false Bool.false_ne_true ?_
    rintro ⟨place, found, taken⟩
    cases taken with
    | file parts content => exact notFile _ _ found
    | directory parts => exact notDirectory _ found

theorem read_of_not_hasEntry {tree : FileTree} {current : List Text} {path : Text}
    (lacks : ¬ tree.hasEntry current path = true) :
    ∃ error, tree.read current path = .error error := by
  unfold read
  split
  · next found => exact absurd ((hasEntry_iff_taken ..).mpr ⟨_, found, .file _ _⟩) lacks
  · exact ⟨_, rfl⟩
  · exact ⟨_, rfl⟩
  · exact ⟨_, rfl⟩

/-- From a directory, names find something exactly if they lead there. -/
theorem follow_taken_iff {tree : FileTree} {directory rest : List Text}
    (names : ∀ s ∈ rest, Path.IsName s) (isDirectory : tree.entry? directory = some .directory) :
    (∃ place, tree.follow directory rest = .ok place ∧ place.Taken) ↔
      (∀ s ∈ rest, s.length ≤ maxName) ∧ tree.Leads directory rest := by
  induction rest generalizing directory with
  | nil =>
    refine iff_of_true ⟨_, rfl, .directory _⟩ ⟨nofun, ?_⟩
    rw [Leads, isDirectory]
    exact Option.some_ne_none _
  | cons s rest ih =>
    obtain ⟨isName, names⟩ := List.forall_mem_cons.mp names
    have stays : ¬ (decide (s = []) || decide (s = Path.dot)) = true := by
      simp [isName.filled, isName.notDot]
    rw [follow, if_neg stays, if_neg isName.notDotDot, List.forall_mem_cons]
    split
    · next long =>
      refine iff_of_false nofun ?_
      rintro ⟨⟨short, -⟩, -⟩
      exact Nat.not_le.mpr long short
    next short =>
    rw [Leads]
    split
    · next found =>
      rw [ih names found]
      refine ⟨fun ⟨shorts, leads⟩ => ⟨⟨Nat.not_lt.mp short, shorts⟩, isDirectory, leads⟩, ?_⟩
      exact fun ⟨⟨_, shorts⟩, _, leads⟩ => ⟨shorts, leads⟩
    · next content found =>
      cases rest with
      | nil =>
        refine iff_of_true ⟨_, rfl, .file _ _⟩ ⟨⟨Nat.not_lt.mp short, nofun⟩, isDirectory, ?_⟩
        rw [Leads, found]
        exact Option.some_ne_none _
      | cons t rest =>
        refine iff_of_false nofun ?_
        rintro ⟨-, -, directory, -⟩
        rw [found] at directory
        cases directory
    · next missing =>
      have notLeads : ¬ tree.Leads (directory ++ [s]) rest := by
        cases rest with
        | nil => exact fun taken => taken missing
        | cons t rest =>
          rintro ⟨directory, -⟩
          rw [missing] at directory
          cases directory
      refine iff_of_false ?_ fun leads => notLeads leads.2.2
      rintro ⟨place, found, taken⟩
      split at found
      · cases found
        cases taken
      · cases found

theorem locate_ofParts (tree : FileTree) (current : List Text) {place : List Text}
    (names : ∀ s ∈ place, Path.IsName s) :
    tree.locate current (Path.ofParts place) =
      if (Path.ofParts place).contains 0 then .error .invalidName
      else if maxPath < (Path.ofParts place).length then .error .nameTooLong
      else tree.follow [] place := by
  have walked : tree.follow [] (Path.segments (Path.ofParts place)) = tree.follow [] place := by
    cases place with
    | nil => rfl
    | cons s rest =>
      rw [Path.segments_ofParts names (List.cons_ne_nil s rest)]
      rfl
  rw [← walked]
  rfl

theorem hasEntry_iff (tree : FileTree) (current : List Text) {place : List Text}
    (names : ∀ s ∈ place, Path.IsName s) :
    tree.hasEntry current (Path.ofParts place) = true ↔ Nameable place ∧ tree.Stands place := by
  rw [hasEntry_iff_taken, locate_ofParts tree current names, ← leads_nil_iff]
  split
  · next zero =>
    refine iff_of_false nofun ?_
    rintro ⟨⟨noZero, -, -⟩, -⟩
    exact noZero (List.contains_iff_mem.mp zero)
  next noZero =>
  split
  · next long =>
    refine iff_of_false nofun ?_
    rintro ⟨⟨-, short, -⟩, -⟩
    exact Nat.not_le.mpr long short
  next short =>
  rw [follow_taken_iff names rfl]
  have noZero : 0 ∉ Path.ofParts place := mt List.contains_iff_mem.mpr noZero
  constructor
  · rintro ⟨shortNames, leads⟩
    exact ⟨⟨noZero, Nat.not_lt.mp short, shortNames⟩, leads⟩
  · rintro ⟨⟨-, -, shortNames⟩, leads⟩
    exact ⟨shortNames, leads⟩

end FileTree

end StepGraph
