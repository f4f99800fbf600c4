import StepGraph.ProgramFile
import StepGraph.Proofs.Build.Nodes
import StepGraph.Proofs.Cbor.RoundTrip

/-!
# Compiled programs

A file that has been written holds what was written.  So a compiled program loads
as the program it was made from, except that the reader of compiled programs
refuses what nests too deep, and the writer does not.
-/

namespace StepGraph

namespace FileTree

/-! ## Files that are written -/

/-- The place can be written to, whether a file is there or is made. -/
inductive Place.Opens : Place → List Text → Prop where
  | file (parts : List Text) (content : Text) : Opens (.file parts content) parts
  | free (parts : List Text) : Opens (.free parts false) parts

theorem entry?_set_self (tree : FileTree) {parts : List Text} (filled : parts ≠ [])
    (entry : FileEntry) : entry? (tree.set parts entry) parts = some entry := by
  unfold entry? set
  rw [if_neg (by simpa using filled), List.lookup_cons_self]

theorem entry?_set_of_ne (tree : FileTree) {parts other : List Text} (apart : other ≠ parts)
    (entry : FileEntry) : entry? (tree.set parts entry) other = tree.entry? other := by
  unfold entry? set
  rw [List.lookup_cons, beq_eq_false_iff_ne.mpr apart]
  split
  · rfl
  · dsimp only
    induction tree.entries with
    | nil => rfl
    | cons first rest ih =>
      obtain ⟨place, found⟩ := first
      by_cases same : place = parts
      · subst same
        rw [List.filter_cons_of_neg (by simp), ih, List.lookup_cons,
          beq_eq_false_iff_ne.mpr apart]
      · rw [List.filter_cons_of_pos (by simpa using same), List.lookup_cons, List.lookup_cons, ih]

/-- Where a file can be written there is no directory. -/
theorem entry?_of_follow {tree : FileTree} {directory segments parts : List Text} {place : Place}
    (led : tree.follow directory segments = .ok place) (opens : place.Opens parts) :
    parts ≠ [] ∧ tree.entry? parts ≠ some .directory := by
  fun_induction follow tree directory segments with
  | case1 => cases led; cases opens
  | case2 directory s rest stays ih => exact ih led
  | case3 directory rest stays ih => exact ih led
  | case4 => cases led
  | case5 directory s rest _ _ _ found ih => exact ih led
  | case6 directory s rest _ _ _ content found ends =>
    cases led
    cases opens
    exact ⟨by simp, by simp [found]⟩
  | case7 => cases led
  | case8 directory s rest _ _ _ found ends =>
    cases led
    cases rest with
    | nil =>
      cases opens
      exact ⟨by simp, by simp [found]⟩
    | cons => cases opens
  | case9 => cases led

/-- Only the entry at the end of the way changes, and the way there passes through directories. -/
theorem follow_set {tree : FileTree} {directory segments parts : List Text} {place : Place}
    (led : tree.follow directory segments = .ok place) (opens : place.Opens parts)
    (content : Text) :
    (tree.set parts (.file content)).follow directory segments = .ok (.file parts content) := by
  obtain ⟨filled, noDirectory⟩ := entry?_of_follow led opens
  have written := entry?_set_self tree filled (.file content)
  fun_induction follow tree directory segments with
  | case1 => cases led; cases opens
  | case2 directory s rest stays ih =>
    rw [follow, if_pos stays]
    exact ih led
  | case3 directory rest stays ih =>
    rw [follow, if_neg stays, if_pos rfl]
    exact ih led
  | case4 => cases led
  | case5 directory s rest stays up short found ih =>
    have apart : directory ++ [s] ≠ parts := by
      rintro rfl
      exact noDirectory found
    rw [follow, if_neg stays, if_neg up, if_neg short, entry?_set_of_ne tree apart, found]
    exact ih led
  | case6 directory s rest stays up short old found ends =>
    cases led
    cases opens
    rw [follow, if_neg stays, if_neg up, if_neg short, written]
    exact if_pos ends
  | case7 => cases led
  | case8 directory s rest stays up short found ends =>
    cases led
    cases rest with
    | nil =>
      cases opens
      rw [follow, if_neg stays, if_neg up, if_neg short, written]
      rfl
    | cons => cases opens
  | case9 => cases led

/-- A file is written where its path leads, and nowhere else. -/
theorem write_ok {tree tree' : FileTree} {directory : List Text} {path content : Text}
    (written : tree.write directory path content = .ok tree') :
    ∃ place parts, tree.locate directory path = .ok place ∧ place.Opens parts ∧
      tree' = tree.set parts (.file content) := by
  unfold write modify at written
  split at written
  · rename_i parts old found
    cases written
    exact ⟨_, parts, found, .file parts old, rfl⟩
  · rename_i parts found
    cases written
    exact ⟨_, parts, found, .free parts, rfl⟩
  · cases written
  · cases written
  · cases written

theorem locate_set {tree : FileTree} {directory parts : List Text} {path : Text} {place : Place}
    (led : tree.locate directory path = .ok place) (opens : place.Opens parts) (content : Text) :
    (tree.set parts (.file content)).locate directory path = .ok (.file parts content) := by
  unfold locate at led ⊢
  split at led
  · cases led
  · split at led
    · cases led
    · split at led
      · cases led
      · rename_i valid filled short
        rw [if_neg valid, if_neg filled, if_neg short]
        exact follow_set led opens content

theorem read_of_write {tree tree' : FileTree} {directory : List Text} {path content : Text}
    (written : tree.write directory path content = .ok tree') :
    tree'.read directory path = .ok content := by
  obtain ⟨place, parts, led, opens, rfl⟩ := write_ok written
  rw [read, locate_set led opens content]

/-! ## Programs that are compiled -/

theorem build_of_loadDraft {tree : FileTree} {directory : List Text} {path : Text} {draft : Draft}
    {graph : Graph} (loaded : tree.loadDraft directory path = .ok (draft, graph)) :
    draft.build = .ok graph := by
  unfold loadDraft at loaded
  split at loaded
  · cases loaded
  · split at loaded
    · cases loaded
    · rename_i built
      cases loaded
      exact built

section Loading

variable {tree : FileTree} {directory : List Text} {path content : Text}
  (found : tree.read directory path = .ok content)
include found

theorem loadDraft_of_read {draft : Draft} {graph : Graph}
    (read : (Format.ofPath path).read? content = some draft) (built : draft.build = .ok graph) :
    tree.loadDraft directory path = .ok (draft, graph) := by
  unfold loadDraft readDraft
  simp only [found, read, built]

theorem loadDraft_of_malformed (malformed : (Format.ofPath path).read? content = none) :
    tree.loadDraft directory path = .error (.malformed path (.ofPath path)) := by
  unfold loadDraft readDraft
  simp only [found, malformed]

end Loading

theorem read_of_writeDraft {tree tree' : FileTree} {directory : List Text} {path : Text}
    {draft : Draft} (written : tree.writeDraft directory path draft = .ok tree') :
    tree'.read directory path = .ok ((Format.ofPath path).write draft) := by
  unfold writeDraft at written
  split at written
  · cases written
  · rename_i put
    cases written
    exact read_of_write put

/-- The writer has no limit on nesting, and the reader has one. -/
theorem load_of_writeDraft {tree tree' : FileTree} {directory : List Text} {path : Text}
    {draft : Draft} {graph : Graph} (built : draft.build = .ok graph) (inRange : draft.InRange)
    (isUtf8 : draft.IsUtf8) (short : draft.ListsWithin 131072)
    (binary : Format.ofPath path = .compiled)
    (written : tree.writeDraft directory path draft = .ok tree') :
    tree'.load directory path =
      if (Cbor.ofDraft draft).nesting ≤ 32 then .ok graph
      else .error (.malformed path .compiled) := by
  have found := read_of_writeDraft written
  have readBack : (Format.ofPath path).read? ((Format.ofPath path).write draft) =
      if (Cbor.ofDraft draft).nesting ≤ 32 then some draft else none := by
    rw [binary]
    exact Cbor.read?_write inRange isUtf8 short
  split
  · rename_i shallow
    rw [if_pos shallow] at readBack
    rw [load, loadDraft_of_read found readBack built]
    rfl
  · rename_i deep
    rw [if_neg deep] at readBack
    rw [load, loadDraft_of_malformed found readBack, binary]
    rfl

/-- A program that has been compiled loads as the graph of its source exactly if its arrays and maps
do not nest too deep.  It is compiled whether they do or not. -/
theorem compiled_program_loads {tree tree' : FileTree} {directory : List Text}
    {source target : Text} {draft : Draft} {graph : Graph}
    (loaded : tree.loadDraft directory source = .ok (draft, graph)) (inRange : draft.InRange)
    (isUtf8 : draft.IsUtf8) (short : draft.ListsWithin 131072)
    (binary : Format.ofPath target = .compiled)
    (compiled : tree.compile directory source target = .ok tree') :
    tree'.load directory target =
      if (Cbor.ofDraft draft).nesting ≤ 32 then .ok graph
      else .error (.malformed target .compiled) := by
  rw [compile, loaded] at compiled
  exact load_of_writeDraft (build_of_loadDraft loaded) inRange isUtf8 short binary compiled

def withCountdown : FileTree :=
  FileTree.empty.set [utf8 "old.nupyc"] (.file (Cbor.write .countdown))

theorem compiled_countdown_loads :
    ∃ tree', withCountdown.compile [] (utf8 "old.nupyc") (utf8 "new.nupyc") = .ok tree' ∧
      tree'.load [] (utf8 "new.nupyc") = .ok .countdown := by
  have inRange : Draft.countdown.InRange :=
    { lines := by decide, texts := by decide, lists := by decide }
  have isUtf8 : Draft.countdown.IsUtf8 := fun t member =>
    Text.isUtf8_of_ascii (by revert t; decide +kernel)
  have short : Draft.countdown.ListsWithin 131072 := by unfold Draft.ListsWithin; decide
  have shallow : (Cbor.ofDraft .countdown).nesting ≤ 32 := by decide
  have readBack : Cbor.read? (Cbor.write .countdown) = some .countdown :=
    (Cbor.read?_write inRange isUtf8 short).trans (if_pos shallow)
  have loaded : withCountdown.loadDraft [] (utf8 "old.nupyc") = .ok (.countdown, .countdown) :=
    loadDraft_of_read rfl readBack Draft.build_countdown
  have compiled : withCountdown.compile [] (utf8 "old.nupyc") (utf8 "new.nupyc") =
      .ok (withCountdown.set [utf8 "new.nupyc"] (.file (Cbor.write .countdown))) := by
    rw [compile, loaded]
    rfl
  refine ⟨_, compiled, ?_⟩
  rw [compiled_program_loads loaded inRange isUtf8 short (by decide) compiled, if_pos shallow]

end FileTree

/-! ## A program that nests too deep -/

namespace Draft

/-- A loop around a loop and so on, with nothing to do in the last. -/
def nestedLoops : (depth : Nat) → StatementDraft
  | 0 => { StatementDraft.empty with line := 1, kind := utf8 "pass" }
  | depth + 1 =>
    { StatementDraft.empty with
      line := 1, kind := utf8 "while", expr := some ⟨⟨utf8 "False", []⟩, [], none⟩
      body := [nestedLoops depth] }

def nested (depth : Nat) : Draft := { statements := some [nestedLoops depth] }

theorem inRange_nested : (nested 15).InRange where
  lines := by decide +kernel
  texts := by decide +kernel
  lists := by decide +kernel

theorem isUtf8_nested : (nested 15).IsUtf8 := fun t member =>
  Text.isUtf8_of_ascii (by revert t; decide +kernel)

/-- The loops in readable form, where each takes over all but its body from the mapping `a`. -/
def nestedLoopsText : (depth : Nat) → Text
  | 0 => utf8 "\x7bline: 1,kind: pass\x7d"
  | depth + 1 => utf8 "\x7b<<: *a,body: [" ++ nestedLoopsText depth ++ utf8 "]\x7d"

def nestedText (depth : Nat) : Text :=
  utf8 "\x7ba: &a \x7bline: 1,kind: while,expr: \x7blhs: \x7bkind: False\x7d\x7d\x7d," ++
    utf8 "statements: [" ++ nestedLoopsText depth ++ utf8 "]\x7d"

end Draft

namespace FileTree

/-- Fifteen loops inside each other are compiled without an error, and the compiled program cannot
be loaded. -/
theorem nested_program_does_not_load :
    let source := FileTree.empty.set [utf8 "deep.yaml"] (.file (Draft.nestedText 15))
    ∃ graph tree', source.loadDraft [] (utf8 "deep.yaml") = .ok (.nested 15, graph) ∧
      (Draft.nested 15).InRange ∧ (Draft.nested 15).IsUtf8 ∧
      (Draft.nested 15).ListsWithin 131072 ∧
      source.compile [] (utf8 "deep.yaml") (utf8 "deep.nupyc") = .ok tree' ∧
      tree'.load [] (utf8 "deep.nupyc") = .error (.malformed (utf8 "deep.nupyc") .compiled) := by
  intro source
  have short : (Draft.nested 15).ListsWithin 131072 := by
    unfold Draft.ListsWithin
    decide +kernel
  obtain ⟨graph, built⟩ : ∃ graph, (Draft.nested 15).build = .ok graph := by
    have accepted : (Draft.nested 15).build.isOk = true := by decide +kernel
    cases built : (Draft.nested 15).build with
    | ok graph => exact ⟨graph, rfl⟩
    | error error =>
      rw [built] at accepted
      cases accepted
  have read : Yaml.read? (Draft.nestedText 15) = some (.nested 15) := by decide +kernel
  have loaded : source.loadDraft [] (utf8 "deep.yaml") = .ok (.nested 15, graph) :=
    loadDraft_of_read rfl read built
  have written : source.writeDraft [] (utf8 "deep.nupyc") (.nested 15) =
      .ok (source.set [utf8 "deep.nupyc"] (.file (Cbor.write (.nested 15)))) := rfl
  have compiled : source.compile [] (utf8 "deep.yaml") (utf8 "deep.nupyc") =
      .ok (source.set [utf8 "deep.nupyc"] (.file (Cbor.write (.nested 15)))) := by
    rw [compile, loaded]
    exact written
  refine ⟨graph, _, loaded, Draft.inRange_nested, Draft.isUtf8_nested, short, compiled, ?_⟩
  rw [load_of_writeDraft built Draft.inRange_nested Draft.isUtf8_nested short (by decide) written]
  exact if_neg (by decide +kernel)

end FileTree

end StepGraph
