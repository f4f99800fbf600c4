import Mathlib.Data.List.Forall2
import StepGraph.LineSource
import StepGraph.Proofs.Text.Lines
import StepGraph.Proofs.Text.Opening

/-!
# Lines from a console

However often a console is asked, it gives the lines of its text one after the
other and each of them once, without its line end; when none is left it reports
the end of the input, at this prompt and at all later ones.  Each prompt is
shown once, if it is to be shown at all.
-/

namespace StepGraph

namespace Text

/-! ## Line ends -/

/-- A line is a chunk of text without the carriage returns and line feeds at its end. -/
structure Strips (chunk line : Text) : Prop where
  ending : ∃ ending : Text, (∀ b ∈ ending, b = 10 ∨ b = 13) ∧ chunk = line ++ ending
  last : ∀ b ∈ line.getLast?, b ≠ 10 ∧ b ≠ 13

theorem strips_iff {chunk line : Text} : Strips chunk line ↔ line = chunk.trimLineEnd := by
  constructor
  · rintro ⟨⟨ending, isEnd, rfl⟩, last⟩
    have dropped : ((line ++ ending).reverse.dropWhile fun b => b == 10 || b == 13) =
        line.reverse := by
      rw [List.reverse_append]
      apply dropWhile_run
      · intro b member
        simpa using isEnd b (List.mem_reverse.mp member)
      · intro b front
        rw [List.head?_reverse] at front
        simpa using last b front
    rw [trimLineEnd, dropped, List.reverse_reverse]
  · rintro rfl
    refine ⟨⟨(chunk.reverse.takeWhile fun b => b == 10 || b == 13).reverse, ?_, ?_⟩, ?_⟩
    · intro b member
      simpa using List.mem_takeWhile_imp (List.mem_reverse.mp member)
    · rw [trimLineEnd, ← List.reverse_append, List.takeWhile_append_dropWhile,
        List.reverse_reverse]
    · intro b last
      rw [trimLineEnd, List.getLast?_reverse] at last
      simpa using head?_dropWhile (fun b => b == 10 || b == 13) chunk.reverse b last

/-! ## Chunks -/

theorem Cut.eq_lines {chunks : List Text} (cut : Cut chunks) : chunks = lines chunks.flatten := by
  induction chunks with
  | nil => rfl
  | cons chunk rest ih =>
    obtain ⟨filled, taken⟩ := cut.takeLine_flatten
    have cutRest : Cut rest := cut.sublist (List.sublist_cons_self chunk rest)
    rw [lines_of_ne_nil filled, taken, ← ih cutRest]

theorem tail_lines (text : Text) : text.lines.tail = text.takeLine.2.lines := by
  by_cases empty : text = []
  · subst empty
    rfl
  · rw [lines_of_ne_nil empty, List.tail_cons]

/-- The lines of a text: it is cut after each line feed, what is left makes a last chunk unless it
is empty, and each chunk loses its line end. -/
def HasLines (text : Text) (lines : List Text) : Prop :=
  ∃ chunks, Cut chunks ∧ chunks.flatten = text ∧ List.Forall₂ Strips chunks lines

theorem hasLines_iff {text : Text} {lines : List Text} :
    text.HasLines lines ↔ lines = text.lines.map trimLineEnd := by
  have strips_eq : Strips = fun chunk line => trimLineEnd chunk = line := by
    funext chunk line
    exact propext (strips_iff.trans eq_comm)
  have stripped (chunks : List Text) :
      List.Forall₂ Strips chunks lines ↔ lines = chunks.map trimLineEnd := by
    rw [strips_eq, ← List.forall₂_map_left_iff, List.forall₂_eq_eq_eq]
    exact eq_comm
  constructor
  · rintro ⟨chunks, cut, rfl, strips⟩
    rw [← cut.eq_lines]
    exact (stripped chunks).mp strips
  · intro trimmed
    exact ⟨text.lines, text.cut_lines, text.flatten_lines, (stripped _).mpr trimmed⟩

end Text

def ReadResult.ofLine? : Option Text → ReadResult
  | some text => .line text
  | none => .endOfInput

namespace LineSource

theorem read_console_nil (prompt : Text) (showsPrompt : Bool) :
    (console [] showsPrompt).read prompt =
      ⟨.endOfInput, if showsPrompt then prompt else [], console [] showsPrompt⟩ := rfl

theorem read_console {text : Text} (some : text ≠ []) (prompt : Text) (showsPrompt : Bool) :
    (console text showsPrompt).read prompt =
      ⟨.line text.takeLine.1.trimLineEnd, if showsPrompt then prompt else [],
        console text.takeLine.2 showsPrompt⟩ := by
  simp [read, readConsole, startsWithLine, some]

/-- The answers of a source to prompts, one after the other: the result of each read and what was
written on the way. -/
def answers : LineSource → List Text → List (ReadResult × Text)
  | _, [] => []
  | source, prompt :: prompts =>
    ((source.read prompt).result, (source.read prompt).written) ::
      answers (source.read prompt).source prompts

/-- One read of a console takes one line of its text. -/
theorem answers_console_cons (text : Text) (showsPrompt : Bool) (prompt : Text)
    (prompts : List Text) :
    answers (.console text showsPrompt) (prompt :: prompts) =
      (.ofLine? (text.lines.head?.map Text.trimLineEnd), if showsPrompt then prompt else []) ::
        answers (.console text.takeLine.2 showsPrompt) prompts := by
  by_cases empty : text = []
  · subst empty
    rfl
  · rw [answers, read_console empty, Text.lines_of_ne_nil empty]
    rfl

theorem answers_console (text : Text) (showsPrompt : Bool) (prompts : List Text) :
    answers (.console text showsPrompt) prompts =
      prompts.mapIdx fun i prompt =>
        (.ofLine? ((text.lines.map Text.trimLineEnd)[i]?), if showsPrompt then prompt else []) := by
  induction prompts generalizing text with
  | nil => rfl
  | cons prompt prompts ih =>
    rw [answers_console_cons, ih, List.mapIdx_cons, ← Text.tail_lines, List.head?_eq_getElem?]
    simp

/-- The lines that a console gives before it fails. -/
def wholeLines (text : Text) : List Text :=
  text.lines.takeWhile fun line => line.getLast? == some 10

theorem wholeLines_of_startsWithLine {text reason : Text}
    (starts : startsWithLine text (some reason)) :
    wholeLines text = text.takeLine.1 :: wholeLines text.takeLine.2 := by
  have filled : text ≠ [] := by
    rintro rfl
    cases starts
  rw [wholeLines, Text.lines_of_ne_nil filled]
  exact List.takeWhile_cons_of_pos starts

theorem wholeLines_of_not_startsWithLine {text reason : Text}
    (ends : ¬ startsWithLine text (some reason)) : wholeLines text = [] := by
  by_cases empty : text = []
  · subst empty
    rfl
  · rw [wholeLines, Text.lines_of_ne_nil empty]
    exact List.takeWhile_cons_of_neg ends

/-- A console whose text ends with a failure gives the lines that have their line feed, each of them
once, and then fails at every prompt. -/
theorem answers_failing_console (text : Text) (showsPrompt : Bool) (reason : Text)
    (prompts : List Text) :
    answers (.console text showsPrompt (some reason)) prompts =
      prompts.mapIdx fun i prompt =>
        ((wholeLines text)[i]?.elim (.failed reason) fun line => .line line.trimLineEnd,
          if showsPrompt then prompt else []) := by
  induction prompts generalizing text with
  | nil => rfl
  | cons prompt prompts ih =>
    rw [answers, List.mapIdx_cons]
    by_cases starts : startsWithLine text (some reason)
    · simp only [read, readConsole, if_pos starts, wholeLines_of_startsWithLine starts, ih]
      rfl
    · simp only [read, readConsole, if_neg starts, wholeLines_of_not_startsWithLine starts, ih]
      rfl

end LineSource

/-- A console answers any prompts with the lines of its text, each of them once and in order, and
after the last one with the end of the input.  Nothing is written but the prompt. -/
theorem console_gives_each_line_once (text : Text) :
    ∃ lines, (∀ others, text.HasLines others ↔ others = lines) ∧
      ∀ (showsPrompt : Bool) (prompts : List Text),
        (LineSource.console text showsPrompt).answers prompts =
          prompts.mapIdx fun i prompt =>
            (.ofLine? lines[i]?, if showsPrompt ∧ prompt ≠ [] then prompt else []) := by
  refine ⟨text.lines.map Text.trimLineEnd, fun others => Text.hasLines_iff, ?_⟩
  intro showsPrompt prompts
  rw [LineSource.answers_console]
  congr 1
  funext i prompt
  by_cases shown : showsPrompt = true
  · by_cases empty : prompt = []
    · simp [empty]
    · simp [shown, empty]
  · simp [shown]

/-- Lines that are empty, or become so, do not end the input. -/
example : (LineSource.console (utf8 "a\r\n\n\r") true).answers (.replicate 4 (utf8 "> ")) =
    [(.line (utf8 "a"), utf8 "> "), (.line [], utf8 "> "), (.line [], utf8 "> "),
      (.endOfInput, utf8 "> ")] := by
  decide

end StepGraph
