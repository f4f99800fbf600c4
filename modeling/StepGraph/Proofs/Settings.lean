import StepGraph.Proofs.FileTree
import StepGraph.Settings

/-!
# Settings of the nearest directory

The search for settings climbs from a directory to the one around it until a
settings file is found, or the root has none.  What is found first counts, even
if it cannot be used: nothing farther away replaces it.  Only a settings file
whose path cannot be asked for is passed over.
-/

namespace StepGraph

namespace Settings

/-! ## Loading -/

theorem isName_fileName : Path.IsName fileName where
  filled := by decide
  noSlash := by decide
  notDot := by decide
  notDotDot := by decide

/-- The settings file exists in the directory at a place, whether it is a file or not. -/
def Offers (tree : FileTree) (place : List Text) : Prop :=
  tree.Stands (place ++ [fileName])

/-- The settings file exists in the directory at a place, and its path can be asked for. -/
def Finds (tree : FileTree) (place : List Text) : Prop :=
  FileTree.Nameable (place ++ [fileName]) ∧ Offers tree place

theorem directory_of_ofContent {path directory content : Text} {settings : Settings}
    (read : ofContent path directory content = .ok settings) : settings.directory = directory := by
  unfold ofContent at read
  split at read
  · cases read
  · split at read
    · split at read
      · cases read
      · cases read
        rfl
    · cases read

theorem ofContent_ne_unreadable {path directory content path' : Text} {error : FileError} :
    ofContent path directory content ≠ .error (.unreadable path' error) := by
  unfold ofContent
  split
  · nofun
  · split
    · split <;> nofun
    · nofun

/-- Settings that cannot be read are named by their path. -/
theorem path_of_load_unreadable {tree : FileTree} {current : List Text} {directory path : Text}
    {error : FileError} (loaded : load tree current directory = .error (.unreadable path error)) :
    path = Path.join directory fileName := by
  unfold load at loaded
  dsimp only at loaded
  split at loaded
  · cases loaded
    rfl
  · exact absurd loaded ofContent_ne_unreadable

section

variable {tree : FileTree} {place : List Text} (names : ∀ s ∈ place, Path.IsName s)
include names

theorem isName_of_mem_concat : ∀ s ∈ place ++ [fileName], Path.IsName s :=
  List.forall_mem_append.mpr ⟨names, List.forall_mem_singleton.mpr isName_fileName⟩

theorem hasEntry_join_iff (current : List Text) :
    tree.hasEntry current (Path.join (Path.ofParts place) fileName) = true ↔
      Finds tree place := by
  rw [Path.join_ofParts names isName_fileName,
    FileTree.hasEntry_iff tree current (isName_of_mem_concat names)]
  rfl

theorem absolute_ofParts (current : Text) :
    Path.absolute current (Path.ofParts place) = Path.ofParts place :=
  Path.clean_ofParts names

/-- The path of a place means the same in every directory. -/
theorem load_ofParts (current : List Text) :
    load tree current (Path.ofParts place) = load tree [] (Path.ofParts place) := by
  unfold load
  rw [Path.join_ofParts names isName_fileName]
  rfl

theorem directory_of_load {current : List Text} {settings : Settings}
    (loaded : load tree current (Path.ofParts place) = .ok settings) :
    settings.directory = Path.ofParts place := by
  unfold load at loaded
  rw [absolute_ofParts names] at loaded
  dsimp only at loaded
  split at loaded
  · cases loaded
  · exact directory_of_ofContent loaded

/-- Settings that are not found where they are looked for cannot be read there. -/
theorem load_of_not_finds (bare : ¬ Finds tree place) :
    ∃ error, load tree [] (Path.ofParts place) =
      .error (.unreadable (Path.ofParts (place ++ [fileName])) error) := by
  have lacks := mt (hasEntry_join_iff names []).mp bare
  obtain ⟨error, failed⟩ := FileTree.read_of_not_hasEntry lacks
  refine ⟨error, ?_⟩
  unfold load
  dsimp only
  rw [failed, Path.join_ofParts names isName_fileName]

end

/-! ## The search -/

section

variable {tree : FileTree} {up : List Text}

theorem findFrom_of_finds (names : ∀ s ∈ up.reverse, Path.IsName s)
    (finds : Finds tree up.reverse) :
    findFrom tree up = load tree [] (Path.ofParts up.reverse) := by
  have has := (hasEntry_join_iff names []).mpr finds
  cases up with
  | nil => exact if_pos has
  | cons part above => exact if_pos has

theorem findFrom_root_of_not_finds (bare : ¬ Finds tree []) :
    findFrom tree [] = .ok default :=
  if_neg (mt (hasEntry_join_iff (List.forall_mem_nil _) []).mp bare)

theorem findFrom_cons_of_not_finds {part : Text}
    (names : ∀ s ∈ (part :: up).reverse, Path.IsName s)
    (bare : ¬ Finds tree (part :: up).reverse) :
    findFrom tree (part :: up) = findFrom tree up :=
  if_neg (mt (hasEntry_join_iff names []).mp bare)

end

/-- The nearest of the places around a place, itself included, with a property: every other one
that has it lies around it. -/
structure Nearest (has : List Text → Prop) (start place : List Text) : Prop where
  around : place <+: start
  here : has place
  first : ∀ other, other <+: start → has other → other <+: place

theorem nearest_self {has : List Text → Prop} {start : List Text} (here : has start) :
    Nearest has start start :=
  ⟨List.prefix_rfl, here, fun _ around _ => around⟩

theorem Nearest.unique {has : List Text → Prop} {start place other : List Text}
    (nearest : Nearest has start place) (nearest' : Nearest has start other) : place = other := by
  have within := nearest'.first place nearest.around nearest.here
  have around := nearest.first other nearest'.around nearest'.here
  exact within.eq_of_length_le around.length_le

theorem around_of_has {has : List Text → Prop} {above : List Text} {part : Text}
    (bare : ¬ has (above ++ [part])) {place : List Text}
    (around : place <+: above ++ [part]) (here : has place) : place <+: above := by
  obtain rfl | around := List.prefix_concat_iff.mp around
  · exact absurd here bare
  · exact around

/-- What the search gives at a place: the settings of the nearest place where some are found, or
the defaults. -/
theorem findFrom_nearest (tree : FileTree) {up : List Text}
    (names : ∀ s ∈ up.reverse, Path.IsName s) :
    (∃ place, Nearest (Finds tree) up.reverse place ∧
        findFrom tree up = load tree [] (Path.ofParts place)) ∨
      (∀ place, place <+: up.reverse → ¬ Finds tree place) ∧ findFrom tree up = .ok default := by
  induction up with
  | nil =>
    by_cases finds : Finds tree []
    · exact .inl ⟨[], nearest_self finds, findFrom_of_finds names finds⟩
    · refine .inr ⟨?_, findFrom_root_of_not_finds finds⟩
      intro place around
      rwa [List.prefix_nil.mp around]
  | cons part above ih =>
    by_cases finds : Finds tree (part :: above).reverse
    · exact .inl ⟨_, nearest_self finds, findFrom_of_finds names finds⟩
    rw [findFrom_cons_of_not_finds names finds]
    rw [List.reverse_cons] at names finds ⊢
    obtain ⟨place, nearest, found⟩ | ⟨none, found⟩ := ih (List.forall_mem_append.mp names).1
    · refine .inl ⟨place, ⟨?_, nearest.here, ?_⟩, found⟩
      · exact List.prefix_concat_iff.mpr (.inr nearest.around)
      · intro other around found
        exact nearest.first other (around_of_has finds around found) found
    · refine .inr ⟨?_, found⟩
      intro place around found
      exact none place (around_of_has finds around found) found

/-- What cannot be asked for is not what the search gives: loading it fails with its path, and no
other place has that path. -/
theorem findFrom_ne_load {tree : FileTree} {up place : List Text}
    (names : ∀ s ∈ up.reverse, Path.IsName s) (around : place <+: up.reverse)
    (unnameable : ¬ FileTree.Nameable (place ++ [fileName])) :
    findFrom tree up ≠ load tree [] (Path.ofParts place) := by
  intro found
  have namesAround : ∀ {other}, other <+: up.reverse → ∀ s ∈ other, Path.IsName s :=
    fun around s member => names s (around.subset member)
  have namesPlace := namesAround around
  obtain ⟨error, failed⟩ :=
    load_of_not_finds namesPlace (mt (And.left : Finds tree place → _) unnameable)
  obtain ⟨other, nearest, loaded⟩ | ⟨-, loaded⟩ := findFrom_nearest tree names
  · have namesOther := namesAround nearest.around
    have path : Path.ofParts (place ++ [fileName]) = Path.ofParts (other ++ [fileName]) := by
      rw [← Path.join_ofParts namesOther isName_fileName]
      exact path_of_load_unreadable (loaded.symm.trans (found.trans failed))
    have same : place ++ [fileName] = other ++ [fileName] := by
      rw [← Path.parts_ofParts (isName_of_mem_concat namesPlace), path,
        Path.parts_ofParts (isName_of_mem_concat namesOther)]
    rw [same] at unnameable
    exact unnameable nearest.here.1
  · cases loaded.symm.trans (found.trans failed)

/-- The search gives the settings of the nearest place that has some exactly if their path can be
asked for. -/
theorem findFrom_eq_load_iff {tree : FileTree} {up place : List Text}
    (names : ∀ s ∈ up.reverse, Path.IsName s) (nearest : Nearest (Offers tree) up.reverse place) :
    findFrom tree up = load tree [] (Path.ofParts place) ↔
      FileTree.Nameable (place ++ [fileName]) := by
  constructor
  · intro found
    exact Classical.byContradiction fun unnameable =>
      findFrom_ne_load names nearest.around unnameable found
  · intro nameable
    have finds : Nearest (Finds tree) up.reverse place :=
      ⟨nearest.around, ⟨nameable, nearest.here⟩,
        fun other around found => nearest.first other around found.2⟩
    obtain ⟨other, nearest', loaded⟩ | ⟨none, -⟩ := findFrom_nearest tree names
    · rw [loaded, finds.unique nearest']
    · exact absurd finds.here (none place finds.around)

/-! ## The climb over paths -/

/-- The search as a climb over paths, from each to its parent; only the root is its own parent. -/
inductive Climbs (tree : FileTree) : Text → Except SettingsError Settings → Prop where
  | found {directory : Text} (has : tree.hasEntry [] (Path.join directory fileName) = true) :
      Climbs tree directory (load tree [] directory)
  | top {directory : Text} (lacks : ¬ tree.hasEntry [] (Path.join directory fileName) = true)
      (root : Path.parent directory = directory) : Climbs tree directory (.ok default)
  | up {directory : Text} {result : Except SettingsError Settings}
      (lacks : ¬ tree.hasEntry [] (Path.join directory fileName) = true)
      (below : Path.parent directory ≠ directory)
      (rest : Climbs tree (Path.parent directory) result) : Climbs tree directory result

theorem Climbs.unique {tree : FileTree} {directory : Text}
    {result result' : Except SettingsError Settings} (first : Climbs tree directory result)
    (second : Climbs tree directory result') : result = result' := by
  induction first with
  | found has =>
    cases second with
    | found => rfl
    | top lacks | up lacks => exact absurd has lacks
  | top lacks root =>
    cases second with
    | found has => exact absurd has lacks
    | top => rfl
    | up _ below => exact absurd root below
  | up lacks below rest ih =>
    cases second with
    | found has => exact absurd has lacks
    | top _ root => exact absurd root below
    | up _ _ rest => exact ih rest

/-- The search over the names of a place is the climb from its path. -/
theorem climbs_findFrom (tree : FileTree) {up : List Text}
    (names : ∀ s ∈ up.reverse, Path.IsName s) :
    Climbs tree (Path.ofParts up.reverse) (findFrom tree up) := by
  induction up with
  | nil =>
    by_cases finds : Finds tree []
    · rw [findFrom_of_finds names finds]
      exact .found ((hasEntry_join_iff names []).mpr finds)
    · rw [findFrom_root_of_not_finds finds]
      exact .top (mt (hasEntry_join_iff names []).mp finds) Path.parent_root
  | cons part above ih =>
    by_cases finds : Finds tree (part :: above).reverse
    · rw [findFrom_of_finds names finds]
      exact .found ((hasEntry_join_iff names []).mpr finds)
    have lacks := mt (hasEntry_join_iff names []).mp finds
    rw [findFrom_cons_of_not_finds names finds]
    rw [List.reverse_cons] at names lacks ⊢
    obtain ⟨around, isName⟩ := List.forall_mem_append.mp names
    have isName := List.forall_mem_singleton.mp isName
    refine .up lacks (Path.parent_ne_of_name around isName) ?_
    rw [Path.parent_ofParts around isName]
    exact ih around

/-! ## Two settings files far apart -/

/-- Directories inside each other down to a place, with an empty settings file in the first and
one in the last. -/
def shaft (place : List Text) : FileTree where
  entries := (place ++ [fileName], .file []) :: ([fileName], .file []) ::
    ((List.range (place.length + 1)).map place.take).map fun above => (above, .directory)

theorem lookup_map_of_mem {key : List Text} {keys : List (List Text)} {entry : FileEntry}
    (member : key ∈ keys) : (keys.map fun key => (key, entry)).lookup key = some entry := by
  induction keys with
  | nil => cases member
  | cons first rest ih =>
    rw [List.map_cons, List.lookup_cons]
    by_cases same : key = first
    · rw [beq_iff_eq.mpr same]
    · rw [beq_eq_false_iff_ne.mpr same]
      exact ih ((List.mem_cons.mp member).resolve_left same)

theorem offers_shaft_root (place : List Text) : Offers (shaft place) [] where
  around := by
    intro above around proper
    obtain same | around := List.prefix_concat_iff.mp around
    · exact absurd same proper
    · rw [List.prefix_nil.mp around]
      rfl
  taken := by
    rw [FileTree.entry?, if_neg (by simp), shaft, List.lookup_cons]
    split
    · exact Option.some_ne_none _
    · rw [List.nil_append, List.lookup_cons_self]
      exact Option.some_ne_none _

section

variable {place : List Text} (free : fileName ∉ place)
include free

theorem offers_shaft : Offers (shaft place) place where
  around := by
    intro above around proper
    obtain same | around := List.prefix_concat_iff.mp around
    · exact absurd same proper
    unfold FileTree.entry?
    split
    · rfl
    have notRoot : above ≠ [fileName] := by
      rintro rfl
      exact free (around.subset (List.mem_singleton_self fileName))
    rw [shaft, List.lookup_cons, beq_eq_false_iff_ne.mpr proper, List.lookup_cons,
      beq_eq_false_iff_ne.mpr notRoot]
    refine lookup_map_of_mem (List.mem_map.mpr ⟨above.length, ?_, ?_⟩)
    · exact List.mem_range.mpr (Nat.lt_succ_of_le around.length_le)
    · exact (List.prefix_iff_eq_take.mp around).symm
  taken := by
    rw [FileTree.entry?, if_neg (by simp), shaft, List.lookup_cons_self]
    exact Option.some_ne_none _

theorem eq_of_offers_shaft {other : List Text} (offers : Offers (shaft place) other) :
    other = place ∨ other = [] := by
  have taken := offers.taken
  rw [FileTree.entry?, if_neg (by simp)] at taken
  obtain ⟨held, member, same⟩ := List.lookup_isSome_iff.mp (Option.isSome_iff_ne_none.mpr taken)
  have same := beq_iff_eq.mp same
  obtain rfl | member := List.mem_cons.mp member
  · exact .inl (List.append_cancel_right same)
  obtain rfl | member := List.mem_cons.mp member
  · exact .inr (List.append_cancel_right (same.trans (List.nil_append _).symm))
  obtain ⟨above, within, rfl⟩ := List.mem_map.mp member
  obtain ⟨depth, -, rfl⟩ := List.mem_map.mp within
  have same : other ++ [fileName] = place.take depth := same
  have inside : fileName ∈ place.take depth := by
    rw [← same]
    exact List.mem_concat_self
  exact absurd (List.mem_of_mem_take inside) free

theorem nearest_offers_shaft : Nearest (Offers (shaft place)) place place :=
  nearest_self (offers_shaft free)

/-- From a place that cannot be asked for, the settings of the root count. -/
theorem findFrom_shaft (names : ∀ s ∈ place, Path.IsName s)
    (unnameable : ¬ FileTree.Nameable (place ++ [fileName])) :
    findFrom (shaft place) place.reverse = load (shaft place) [] (Path.ofParts []) := by
  have root : Finds (shaft place) [] := ⟨⟨by decide, by decide, by decide⟩, offers_shaft_root place⟩
  rw [← List.reverse_reverse place] at names
  obtain ⟨other, nearest, found⟩ | ⟨none, -⟩ := findFrom_nearest (shaft place) names
  · obtain rfl | rfl := eq_of_offers_shaft free nearest.here.2
    · exact absurd nearest.here.1 unnameable
    · exact found
  · exact absurd root (none [] List.nil_prefix)

end

end Settings

/-- The search for settings ends, wherever it starts.  It gives what loading the settings file of
the nearest directory where it is found gives, be it settings of that directory or an error, and
the defaults only if it is found in no directory from the start up to the root.  A settings file
that exists is passed over exactly if its path cannot be asked for. -/
theorem settings_come_from_nearest_directory (tree : FileTree) (current : List Text)
    (directory : Text) :
    ∃ start : List Text, (∀ s ∈ start, Path.IsName s) ∧
      Path.absolute (Path.ofParts current) directory = Path.ofParts start ∧
      (∀ result, Settings.Climbs tree (Path.ofParts start) result ↔
        result = Settings.find tree current directory) ∧
      ((∃ place, Settings.Nearest (Settings.Finds tree) start place ∧
          Settings.find tree current directory =
            Settings.load tree current (Path.ofParts place) ∧
          ∀ settings, Settings.find tree current directory = .ok settings →
            settings.directory = Path.ofParts place) ∨
        (∀ place, place <+: start → ¬ Settings.Finds tree place) ∧
          Settings.find tree current directory = .ok Settings.default ∧
          Settings.default.directory = []) ∧
      (∀ place, Settings.Nearest (Settings.Offers tree) start place →
        (Settings.find tree current directory = Settings.load tree current (Path.ofParts place) ↔
          FileTree.Nameable (place ++ [Settings.fileName]))) ∧
      ((∀ place, place <+: start → ¬ Settings.Offers tree place) →
        Settings.find tree current directory = .ok Settings.default) := by
  obtain ⟨start, names, absolute⟩ := Path.absolute_eq_ofParts current directory
  have search : Settings.find tree current directory = Settings.findFrom tree start.reverse := by
    rw [Settings.find, absolute, Path.parts_ofParts names]
  have namesUp : ∀ s ∈ start.reverse.reverse, Path.IsName s := by rwa [List.reverse_reverse]
  have namesAround : ∀ {place}, place <+: start → ∀ s ∈ place, Path.IsName s :=
    fun around s member => names s (around.subset member)
  have climbs := Settings.climbs_findFrom tree namesUp
  have nearest := Settings.findFrom_nearest tree namesUp
  rw [List.reverse_reverse, ← search] at climbs nearest
  refine ⟨start, names, absolute, ?_, ?_, ?_, ?_⟩
  · intro result
    constructor
    · exact fun other => other.unique climbs
    · rintro rfl
      exact climbs
  · obtain ⟨place, nearest, found⟩ | ⟨none, found⟩ := nearest
    · rw [← Settings.load_ofParts (namesAround nearest.around) current] at found
      refine .inl ⟨place, nearest, found, ?_⟩
      intro settings ok
      exact Settings.directory_of_load (namesAround nearest.around) (found.symm.trans ok)
    · exact .inr ⟨none, found, rfl⟩
  · intro place offers
    rw [Settings.load_ofParts (namesAround offers.around) current, search]
    rw [← List.reverse_reverse start] at offers
    exact Settings.findFrom_eq_load_iff namesUp offers
  · intro bare
    obtain ⟨place, nearest, -⟩ | ⟨-, found⟩ := nearest
    · exact absurd nearest.here.2 (bare place nearest.around)
    · exact found

/-- A directory in the place of the nearest settings file is not passed over. -/
example :
    Settings.find
        ⟨[([utf8 "a"], .directory), ([utf8 "a", Settings.fileName], .directory),
          ([Settings.fileName], .file [])]⟩ [] (utf8 "/a/b") =
      .error (.unreadable (utf8 "/a/nupy.toml")
        { opened := true, path := utf8 "/a/nupy.toml", fault := .isDirectory }) := by
  rfl

/-- Sixteen directories inside each other, with names as long as names may be: the path of the
settings file in the last has 4106 bytes, and the settings file of the root is used instead. -/
theorem overlong_settings_are_passed_over :
    let place := List.replicate 16 (List.replicate 255 97)
    let tree := Settings.shaft place
    Settings.Nearest (Settings.Offers tree) place place ∧
      Settings.find tree [] (Path.ofParts place) = Settings.load tree [] (Path.ofParts []) ∧
      Settings.find tree [] (Path.ofParts place) ≠
        Settings.load tree [] (Path.ofParts place) := by
  intro place tree
  have names : ∀ s ∈ place, Path.IsName s := by
    intro s member
    rw [List.eq_of_mem_replicate member]
    exact ⟨by decide, by decide, by decide, by decide⟩
  have free : Settings.fileName ∉ place := by
    intro member
    exact absurd (List.eq_of_mem_replicate member) (by decide)
  have unnameable : ¬ FileTree.Nameable (place ++ [Settings.fileName]) := by
    intro nameable
    exact absurd nameable.short (by decide +kernel)
  have search : Settings.find tree [] (Path.ofParts place) =
      Settings.findFrom tree place.reverse := by
    rw [Settings.find, Settings.absolute_ofParts names, Path.parts_ofParts names]
  rw [search]
  refine ⟨Settings.nearest_offers_shaft free, Settings.findFrom_shaft free names unnameable, ?_⟩
  rw [← List.reverse_reverse place] at names
  exact Settings.findFrom_ne_load names (by simp) unnameable

end StepGraph
