import StepGraph.Proofs.Machine.Interaction
import StepGraph.Terminal

/-!
# Typed lines

A statement or a prompt depends on the lines of its source by the one it asks for
only.  At a terminal, what finds no line is tried again with one; what it did before
that is the same as what it does with the line, up to the answer.  So a run at a
terminal is the run on the text of all the lines.
-/

namespace StepGraph

namespace Text

/-- The last line of a text has its line end. -/
def IsWhole (t : Text) : Prop := ∀ b ∈ t.getLast?, b = newline

theorem isWhole_nil : IsWhole [] := nofun

theorem IsWhole.append {s t : Text} (first : s.IsWhole) (second : t.IsWhole) :
    (s ++ t).IsWhole := by
  intro b member
  rw [List.getLast?_append] at member
  cases last : t.getLast? with
  | none =>
    rw [last, Option.none_or] at member
    exact first b member
  | some b' =>
    rw [last, Option.some_or] at member
    cases member
    exact second b last

theorem IsWhole.drop {t : Text} (whole : t.IsWhole) (n : Nat) : IsWhole (t.drop n) := by
  intro b member
  rw [List.getLast?_drop] at member
  split at member
  · cases member
  · exact whole b member

/-- The first line of a whole text is the same whatever comes after the text. -/
theorem takeLine_append {t : Text} (whole : t.IsWhole) (filled : t ≠ []) (more : Text) :
    (t ++ more).takeLine = (t.takeLine.1, t.takeLine.2 ++ more) := by
  induction t with
  | nil => exact absurd rfl filled
  | cons b rest ih =>
    rw [List.cons_append, takeLine, takeLine]
    by_cases ends : b = newline
    · rw [if_pos ends, if_pos ends]
    · have filledRest : rest ≠ [] := by
        rintro rfl
        exact ends (whole b rfl)
      have wholeRest : IsWhole rest := whole.drop 1
      rw [if_neg ends, if_neg ends, ih wholeRest filledRest]

theorem takeLine_snd_eq_drop (t : Text) : t.takeLine.2 = t.drop t.takeLine.1.length := by
  induction t with
  | nil => rfl
  | cons b rest ih =>
    rw [takeLine]
    split
    · rfl
    · exact ih

theorem length_takeLine_le (t : Text) : t.takeLine.1.length ≤ t.length := by
  induction t with
  | nil => exact Nat.le_refl 0
  | cons b rest ih =>
    rw [takeLine]
    split
    · exact Nat.succ_le_succ (Nat.zero_le _)
    · exact Nat.succ_le_succ ih

end Text

/-- Lines as they are typed: none is empty, and only the last may lack its line end. -/
inductive Typed : List Text → Prop
  | nil : Typed []
  | last {line : Text} (filled : line ≠ []) : Typed [line]
  | cons {line : Text} {lines : List Text} (filled : line ≠ []) (whole : line.IsWhole)
      (rest : Typed lines) : Typed (line :: lines)

namespace Typed

variable {line : Text} {lines : List Text}

theorem filled (typed : Typed (line :: lines)) : line ≠ [] := by cases typed <;> assumption

theorem tail (typed : Typed (line :: lines)) : Typed lines := by
  cases typed with
  | last => exact .nil
  | cons _ _ rest => exact rest

end Typed

/-! ## Sources -/

namespace LineEditor

theorem pieceLength_le (t : Text) : pieceLength t ≤ t.length := by
  have within : (Text.takeLine (t.take window)).1.length ≤ t.length :=
    Nat.le_trans (Text.length_takeLine_le _) (List.length_take_le' _ _)
  unfold pieceLength
  dsimp only
  split
  · exact within
  · next full =>
    have long : window ≤ (Text.takeLine (t.take window)).1.length := by
      simp only [Bool.or_eq_true, decide_eq_true_eq, not_or] at full
      exact Nat.le_of_not_lt full.1
    split
    · exact Nat.le_trans (Nat.sub_le _ _) (Nat.le_trans long within)
    · exact Nat.le_trans long within

/-- The next piece of a whole text is the same whatever comes after the text. -/
theorem pieceLength_append {t : Text} (whole : t.IsWhole) (filled : t ≠ []) (more : Text) :
    pieceLength (t ++ more) = pieceLength t := by
  have same : (Text.takeLine ((t ++ more).take window)).1 = (Text.takeLine (t.take window)).1 := by
    by_cases long : window ≤ t.length
    · rw [List.take_append_of_le_length long]
    · have short := Nat.le_of_not_le long
      rw [List.take_append, List.take_of_length_le short, Text.takeLine_append whole filled]
  unfold pieceLength
  rw [same]

theorem nextLine?_of_filled {t : Text} (filled : t ≠ []) :
    nextLine? t = some (dropLineEnd (t.take (pieceLength t)), t.drop (pieceLength t)) := by
  have starts : ¬ t.isEmpty = true := by simpa using filled
  exact if_neg starts

theorem nextLine?_append {t : Text} (whole : t.IsWhole) (filled : t ≠ []) (more : Text) :
    nextLine? (t ++ more) =
      some (dropLineEnd (t.take (pieceLength t)), t.drop (pieceLength t) ++ more) := by
  have within := pieceLength_le t
  rw [nextLine?_of_filled (List.append_ne_nil_of_left_ne_nil filled more),
    pieceLength_append whole filled, List.take_append_of_le_length within,
    List.drop_append_of_le_length within]

end LineEditor

namespace LineSource

/-- What has come in and has not been read. -/
def left : LineSource → Text
  | console rest _ _ => rest
  | editor state => state.rest
  | script lines _ => lines.flatten

/-- A source at a terminal where lines are still to be typed. -/
inductive Expects : LineSource → List Text → Prop
  | console {rest : Text} {showsPrompt : Bool} {lines : List Text}
      (whole : rest.IsWhole ∨ lines = []) : Expects (.console rest showsPrompt none) lines
  | editor {state : LineEditor} {lines : List Text}
      (whole : state.rest.IsWhole ∨ lines = []) : Expects (.editor state) lines

variable {source : LineSource} {line : Text} {lines : List Text} {prompt : Text}

namespace Expects

theorem supply_nil (expects : source.Expects lines) : source.supply [] = source := by
  cases expects <;> simp [LineSource.supply]

theorem supply_supply (expects : source.Expects lines) (first second : Text) :
    (source.supply first).supply second = source.supply (first ++ second) := by
  cases expects <;> simp [LineSource.supply]

theorem supply (expects : source.Expects (line :: lines)) (typed : Typed (line :: lines)) :
    (source.supply line).Expects lines ∧ (source.supply line).left ≠ [] := by
  have filled := typed.filled
  have whole {rest : Text} (left : rest.IsWhole ∨ line :: lines = []) :
      (rest ++ line).IsWhole ∨ lines = [] := by
    obtain left | none := left
    · cases typed with
      | last => exact .inr rfl
      | cons _ whole => exact .inl (left.append whole)
    · cases none
  cases expects with
  | console left => exact ⟨.console (whole left), List.append_ne_nil_of_right_ne_nil _ filled⟩
  | editor left => exact ⟨.editor (whole left), List.append_ne_nil_of_right_ne_nil _ filled⟩

/-- Where something is left to read, it is read. -/
theorem read_ne_endOfInput (expects : source.Expects lines) (filled : source.left ≠ []) :
    (source.read prompt).result ≠ .endOfInput := by
  cases expects with
  | @console rest showsPrompt =>
    have starts : startsWithLine rest none = true := by
      simpa [startsWithLine, left] using filled
    simp only [read, readConsole, if_pos starts]
    rintro ⟨⟩
  | @editor state =>
    simp only [read, readEditor]
    split
    · rintro ⟨⟩
    · have found := LineEditor.nextLine?_of_filled (t := state.rest) filled
      rw [found]
      rintro ⟨⟩

theorem read_last (expects : source.Expects []) : (source.read prompt).source.Expects [] := by
  cases expects with
  | console =>
    simp only [read, readConsole]
    split <;> exact .console (.inr rfl)
  | editor =>
    simp only [read, readEditor]
    repeat' split
    all_goals exact .editor (.inr rfl)

/-- A read that finds a line gives the same when more lines have come in. -/
theorem read_supply (expects : source.Expects lines)
    (served : (source.read prompt).result ≠ .endOfInput ∨ lines = []) :
    (source.supply lines.flatten).read prompt =
        { source.read prompt with
          source := (source.read prompt).source.supply lines.flatten } ∧
      (source.read prompt).source.Expects lines := by
  by_cases none : lines = []
  · subst none
    rw [List.flatten_nil, expects.supply_nil, expects.read_last.supply_nil]
    exact ⟨rfl, expects.read_last⟩
  have answered := served.resolve_right none
  cases expects with
  | @console rest showsPrompt _ whole =>
    have whole := whole.resolve_right none
    by_cases filled : rest = []
    · subst filled
      exact absurd rfl answered
    have starts : startsWithLine rest .none = true := by simpa [startsWithLine] using filled
    have startsMore : startsWithLine (rest ++ lines.flatten) .none = true := by
      simp [startsWithLine, filled]
    simp only [LineSource.supply, read, readConsole, if_pos starts, if_pos startsMore,
      Text.takeLine_append whole filled]
    refine ⟨trivial, .console (.inl ?_)⟩
    rw [Text.takeLine_snd_eq_drop]
    exact whole.drop _
  | @editor state _ whole =>
    have whole := whole.resolve_right none
    simp only [LineSource.supply, read, readEditor] at answered ⊢
    split
    · exact ⟨rfl, .editor (.inl whole)⟩
    next printable =>
    rw [if_neg printable] at answered
    by_cases filled : state.rest = []
    · simp [LineEditor.nextLine?, filled] at answered
    simp only [LineEditor.nextLine?_append whole filled, LineEditor.nextLine?_of_filled filled]
    exact ⟨trivial, .editor (.inl (whole.drop _))⟩

theorem remember (expects : source.Expects lines) (command : Text) :
    (∀ text, (source.supply text).remember command = (source.remember command).supply text) ∧
      (source.remember command).Expects lines := by
  cases expects with
  | console whole => exact ⟨fun _ => rfl, .console whole⟩
  | editor whole =>
    simp only [LineSource.supply, LineSource.remember]
    split
    · exact ⟨fun _ => rfl, .editor whole⟩
    · exact ⟨fun _ => rfl, .editor whole⟩

end Expects

end LineSource

/-! ## Attempts -/

/-- A terminal where lines are typed one after the other. -/
def Terminal.typist : Terminal (StateM (List Text)) where
  display _ := pure ()
  ask := modifyGet fun
    | [] => ([], [])
    | line :: rest => (line, rest)

namespace Attempt

variable {σ α : Type}

theorem typist_displayMachine (m : Option Machine) : Terminal.typist.displayMachine m = pure () := by
  cases m <;> rfl

theorem typist_ask_cons (line : Text) (lines : List Text) :
    Terminal.typist.ask.run (line :: lines) = pure (line, lines) := rfl

section

variable {a : Attempt σ α} {s : σ}

theorem attempt_of_line (lines : List Text) (served : a.wantsLine (a.make s) = false) :
    (Terminal.typist.attempt a s).run lines = (a.make s, lines) := by
  rw [Terminal.attempt, typist_displayMachine, served]
  rfl

theorem attempt_of_end (wants : a.wantsLine (a.make s) = true) :
    (Terminal.typist.attempt a s).run [] = (a.make s, []) := by
  rw [Terminal.attempt, typist_displayMachine, wants]
  rfl

theorem attempt_again (wants : a.wantsLine (a.make s) = true) {line : Text} (filled : line ≠ [])
    (lines : List Text) :
    (Terminal.typist.attempt a s).run (line :: lines) = (a.make (a.supply s line), lines) := by
  have filled : ¬ line.isEmpty = true := by simpa using filled
  simp only [Terminal.attempt, typist_displayMachine, wants, if_true, StateT.run_bind, pure_bind,
    typist_ask_cons, if_neg filled]
  rfl

end

/-- An attempt that depends on the lines to come by the line it asks for only.  What `expects` says
of the state holds as long as lines come in, `filled` says that there is one, and `supplied` is the
result with more lines to come. -/
structure Follows (a : Attempt σ α) (expects : σ → List Text → Prop) (filled : σ → Prop)
    (supplied : α → Text → α) (kept : α → List Text → Prop) : Prop where
  supply_supply {s : σ} {lines : List Text} (ready : expects s lines) (first second : Text) :
    a.supply (a.supply s first) second = a.supply s (first ++ second)
  comesIn {s : σ} {line : Text} {lines : List Text} (ready : expects s (line :: lines))
    (typed : Typed (line :: lines)) : expects (a.supply s line) lines ∧ filled (a.supply s line)
  frame {s : σ} {lines : List Text} (ready : expects s lines)
    (served : a.wantsLine (a.make s) = false ∨ filled s ∨ lines = []) :
    a.make (a.supply s lines.flatten) = supplied (a.make s) lines.flatten ∧
      kept (a.make s) lines

/-- At a terminal an attempt gives what it gives when all lines have come in. -/
theorem Follows.attempt {a : Attempt σ α} {expects : σ → List Text → Prop} {filled : σ → Prop}
    {supplied : α → Text → α} {kept : α → List Text → Prop}
    (follows : a.Follows expects filled supplied kept) {s : σ} {lines : List Text}
    (ready : expects s lines) (typed : Typed lines) :
    ∃ result rest, (Terminal.typist.attempt a s).run lines = pure (result, rest) ∧ Typed rest ∧
      a.make (a.supply s lines.flatten) = supplied result rest.flatten ∧ kept result rest := by
  cases wants : a.wantsLine (a.make s) with
  | false =>
    exact ⟨a.make s, lines, attempt_of_line lines wants, typed, follows.frame ready (.inl wants)⟩
  | true =>
    cases lines with
    | nil =>
      exact ⟨a.make s, [], attempt_of_end wants, typed, follows.frame ready (.inr (.inr rfl))⟩
    | cons line rest =>
      obtain ⟨ready', here⟩ := follows.comesIn ready typed
      refine ⟨a.make (a.supply s line), rest, attempt_again wants typed.filled rest, typed.tail, ?_⟩
      rw [List.flatten_cons, ← follows.supply_supply ready]
      exact follows.frame ready' (.inr (.inl here))

end Attempt

/-! ## Statements -/

/-- What is done with a channel does not depend on lines that come in later. -/
theorem Machine.Interacts.supply {α : Type} {act : Channel → Machine × Except Fault α}
    (interacts : Interacts act) {c : Channel} {lines : List Text}
    (expects : c.input.Expects lines)
    (served : ¬ LacksLine (act c).2 ∨ c.input.left ≠ [] ∨ lines = []) :
    act { c with input := c.input.supply lines.flatten } =
        ((act c).1.supply lines.flatten, (act c).2) ∧
      (act c).1.input.Expects lines := by
  cases interacts with
  | writes memory text result same =>
    simp only [same]
    exact ⟨rfl, expects⟩
  | asks prompt memory result vain _ same =>
    have answered : (c.input.read prompt).result ≠ .endOfInput ∨ lines = [] := by
      obtain found | filled | none := served
      · refine .inl fun ended => found ?_
        rw [same, ended]
        exact vain
      · exact .inl (expects.read_ne_endOfInput filled)
      · exact .inr none
    obtain ⟨reads, kept⟩ := expects.read_supply answered
    simp only [same, Channel.ask, reads]
    exact ⟨rfl, kept⟩

/-- What lacks a line on one channel fails for no defect on another. -/
theorem Machine.Interacts.sound_of_lacksLine {α : Type} {act : Channel → Machine × Except Fault α}
    (interacts : Interacts act) {c : Channel} (lacks : LacksLine (act c).2) (other : Channel)
    (defect : Defect) : (act other).2 ≠ .error (.defect defect) := by
  cases interacts with
  | writes memory text result same =>
    rw [same] at lacks ⊢
    obtain ⟨line, rfl⟩ := lacks
    nofun
  | asks prompt memory result _ sound same =>
    rw [same]
    exact sound _ defect

namespace Graph

variable (g : Graph) (id : NodeId) {m : Machine}

theorem execute_supply {lines : List Text} (expects : m.input.Expects lines)
    (served : ¬ Machine.LacksLine (g.execute id m).2 ∨ m.input.left ≠ [] ∨ lines = []) :
    g.execute id (m.supply lines.flatten) =
        ((g.execute id m).1.supply lines.flatten, (g.execute id m).2) ∧
      (g.execute id m).1.input.Expects lines := by
  unfold execute at served ⊢
  cases found : g.node id with
  | error defect => exact ⟨rfl, expects⟩
  | ok node =>
    rw [found] at served
    exact (m.execute_interacts node).supply (c := m.channel) expects served

theorem execute_sound_of_lacksLine (lacks : Machine.LacksLine (g.execute id m).2) (text : Text)
    (defect : Defect) : (g.execute id (m.supply text)).2 ≠ .error (.defect defect) := by
  unfold execute at lacks ⊢
  cases found : g.node id with
  | error defect =>
    rw [found] at lacks
    obtain ⟨line, lacks⟩ := lacks
    cases lacks
  | ok node =>
    rw [found] at lacks
    exact (m.execute_interacts node).sound_of_lacksLine (c := m.channel) lacks
      { m.channel with input := m.input.supply text } defect

end Graph

theorem Machine.supply_supply {m : Machine} {lines : List Text} (expects : m.input.Expects lines)
    (first second : Text) : (m.supply first).supply second = m.supply (first ++ second) := by
  simp only [Machine.supply, expects.supply_supply]

theorem Attempt.execute_follows (g : Graph) (id : NodeId) :
    (Attempt.execute g id).Follows (fun m lines => m.input.Expects lines)
      (fun m => m.input.left ≠ []) (fun result text => (result.1.supply text, result.2))
      (fun result lines => result.1.input.Expects lines) where
  supply_supply ready := Machine.supply_supply ready
  comesIn ready typed := ready.supply typed
  frame {m} _ ready served := by
    refine g.execute_supply id ready (served.imp_left fun served lacks => ?_)
    obtain ⟨line, lacks⟩ := lacks
    rcases executed : g.execute id m with ⟨after, result⟩
    rw [executed] at lacks
    subst lacks
    simp only [Attempt.execute, executed] at served
    cases served

theorem LogRecord.ofAssignment_supply (node : Node) (m : Machine) (text : Text) :
    ofAssignment node (m.supply text) = ofAssignment node m := by
  unfold ofAssignment
  split <;> rfl

/-- A run at a terminal is the run on the text of the lines. -/
theorem Terminal.run_follows (g : Graph) (verbose : Bool) (fuel : Nat)
    (records : Array LogRecord) (link : Link) {m : Machine} {lines : List Text}
    (expects : m.input.Expects lines) (typed : Typed lines) :
    ∃ after halt rest,
      (typist.run g verbose fuel records link m).run lines =
        ((if verbose then g.runRecords records fuel link (m.supply lines.flatten) else records,
          after, halt), rest) ∧
      g.run fuel link (m.supply lines.flatten) = (after.supply rest.flatten, halt) := by
  induction fuel generalizing records link m lines with
  | zero =>
    cases link with
    | none => exact ⟨m, .finished, lines, by cases verbose <;> rfl, rfl⟩
    | some id => exact ⟨m, .outOfFuel, lines, by cases verbose <;> rfl, rfl⟩
  | succ fuel ih =>
    cases link with
    | none => exact ⟨m, .finished, lines, by cases verbose <;> rfl, rfl⟩
    | some id =>
      obtain ⟨⟨executed, result⟩, left, ran, typedLeft, same, kept⟩ :=
        (Attempt.execute_follows g id).attempt expects typed
      have same : g.execute id (m.supply lines.flatten) = (executed.supply left.flatten, result) :=
        same
      simp only [Terminal.run, Graph.run, Graph.runRecords, StateT.run_bind, ran, same]
      cases result with
      | error fault => exact ⟨executed, .failed fault, left, by cases verbose <;> rfl, rfl⟩
      | ok outcome =>
        obtain ⟨after, halt, rest, goesOn, ended⟩ := ih
          (records ++ if verbose then
            ((g.node? id).map (LogRecord.ofAssignment · executed)).getD [] else [])
          outcome.next kept typedLeft
        refine ⟨after, halt, rest, ?_, ended⟩
        refine goesOn.trans ?_
        cases verbose with
        | false => simp
        | true =>
          simp only [LogRecord.ofAssignment_supply]
          rfl

end StepGraph
