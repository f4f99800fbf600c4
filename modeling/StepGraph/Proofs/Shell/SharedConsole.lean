import StepGraph.Proofs.Build.Nodes
import StepGraph.Proofs.Console
import StepGraph.Proofs.Shell.Dialogue

/-!
# One console for two readers

A shell that takes its commands from the console of the program shares the lines
of one text with it: each line goes to the one or to the other.  The session
tells how the lines are parted, and is the same when the two are given their
lines on separate consoles.
-/

namespace StepGraph

/-- Every element goes to one of two lists, in its order. -/
inductive Parted {α : Type} : List α → List α → List α → Prop
  | nil : Parted [] [] []
  | left {x : α} {all first second : List α} (rest : Parted all first second) :
      Parted (x :: all) (x :: first) second
  | right {x : α} {all first second : List α} (rest : Parted all first second) :
      Parted (x :: all) first (x :: second)

namespace Parted

variable {α : Type} {all first second : List α}

theorem all_left (all : List α) : Parted all all [] := by
  induction all with
  | nil => exact .nil
  | cons x all ih => exact .left ih

theorem append_right (parted : Parted all first second) (front : List α) :
    Parted (front ++ all) first (front ++ second) := by
  induction front with
  | nil => exact parted
  | cons x front ih => exact .right ih

theorem sublist_left (parted : Parted all first second) : first.Sublist all := by
  induction parted with
  | nil => exact .slnil
  | left _ ih => exact ih.cons_cons _
  | right _ ih => exact ih.cons _

theorem sublist_right (parted : Parted all first second) : second.Sublist all := by
  induction parted with
  | nil => exact .slnil
  | left _ ih => exact ih.cons _
  | right _ ih => exact ih.cons_cons _

end Parted

/-! ## Reading from a console -/

/-- The lines that events take from a console are the first ones.  With any of the later lines after
them, they are what the same events take. -/
theorem Plays.console {c after : Channel} {events : List Event} {text : Text} {showsPrompt : Bool}
    (plays : Plays c events after) (input : c.input = .console text showsPrompt) :
    ∃ taken rest, after.input = .console rest showsPrompt ∧ text.lines = taken ++ rest.lines ∧
      ∀ more : List Text, more.Sublist rest.lines →
        Plays { c with input := .console (taken ++ more).flatten showsPrompt } events
          { after with input := .console more.flatten showsPrompt } := by
  induction plays generalizing text with
  | done => exact ⟨[], text, input, rfl, fun _ _ => .done⟩
  | wrote _ ih =>
    obtain ⟨taken, rest, reads, cut, plays⟩ := ih input
    exact ⟨taken, rest, reads, cut, fun more sublist => .wrote (plays more sublist)⟩
  | @asked c after prompt answer events answered _ ih =>
    by_cases some : text = []
    · subst some
      rw [input, LineSource.read_console_nil] at answered
      have leaves : (c.ask prompt).input = .console [] showsPrompt := by
        rw [Channel.ask, input, LineSource.read_console_nil]
      obtain ⟨taken, rest, reads, cut, plays⟩ := ih leaves
      refine ⟨taken, rest, reads, cut, ?_⟩
      intro more sublist
      obtain ⟨rfl, none⟩ := List.append_eq_nil_iff.mp cut.symm
      rw [none] at sublist
      obtain rfl := List.sublist_nil.mp sublist
      refine .asked answered ?_
      have later := plays [] (List.nil_sublist _)
      simp only [Channel.ask, input, LineSource.read_console_nil] at later ⊢
      exact later
    · rw [input, LineSource.read_console some] at answered
      have leaves : (c.ask prompt).input = .console text.takeLine.2 showsPrompt := by
        rw [Channel.ask, input, LineSource.read_console some]
      obtain ⟨taken, rest, reads, cut, plays⟩ := ih leaves
      have lines := Text.lines_of_ne_nil some
      refine ⟨text.takeLine.1 :: taken, rest, reads, ?_, ?_⟩
      · rw [lines, cut]
        rfl
      · intro more sublist
        have chosen : (text.takeLine.1 :: (taken ++ more)).Sublist text.lines := by
          rw [lines, cut]
          exact ((List.Sublist.refl taken).append sublist).cons_cons _
        obtain ⟨someLeft, takes⟩ := (text.cut_lines.sublist chosen).takeLine_flatten
        have read := LineSource.read_console someLeft prompt showsPrompt
        rw [takes] at read
        have later := plays more sublist
        simp only [Channel.ask, input, LineSource.read_console some] at later
        refine .asked ?_ ?_
        · simp only [List.cons_append, read]
          exact answered
        · simp only [Channel.ask, List.cons_append, read]
          exact later

namespace Debugger

def reading (d : Debugger) (input : LineSource) : Debugger := d.on { d.channel with input }

end Debugger

namespace Shell

/-! ## Sharing and separating -/

def shared (sh : Shell) (text : Text) (showsPrompt : Bool) : Shell :=
  { sh with debugger := sh.debugger.reading (.console text showsPrompt), commands := none }

def separate (sh : Shell) (commands input : Text) (showsPrompt : Bool) : Shell :=
  { sh with
    debugger := sh.debugger.reading (.console input showsPrompt)
    commands := some (.console commands showsPrompt) }

def prompted (sh : Shell) (showsPrompt : Bool) : Shell :=
  (sh.writeLine []).write (if showsPrompt then sh.prompt else [])

variable (sh : Shell) (showsPrompt : Bool)

theorem nextRequest_shared_nil :
    (sh.shared [] showsPrompt).nextRequest =
      ((sh.prompted showsPrompt).shared [] showsPrompt, .error .endOfInput) := rfl

theorem nextRequest_separate_nil (input : Text) :
    (sh.separate [] input showsPrompt).nextRequest =
      ((sh.prompted showsPrompt).separate [] input showsPrompt, .error .endOfInput) := rfl

theorem nextRequest_shared {text : Text} (some : text ≠ []) :
    (sh.shared text showsPrompt).nextRequest =
      ((sh.prompted showsPrompt).shared text.takeLine.2 showsPrompt,
        .ok (Request.ofLine text.takeLine.1.trimLineEnd)) := by
  obtain ⟨b, rest, rfl⟩ := List.exists_cons_of_ne_nil some
  rfl

theorem nextRequest_separate {line : Text} {commands : List Text}
    (cut : Text.Cut (line :: commands)) (input : Text) :
    (sh.separate (line :: commands).flatten input showsPrompt).nextRequest =
      ((sh.prompted showsPrompt).separate commands.flatten input showsPrompt,
        .ok (Request.ofLine line.trimLineEnd)) := by
  obtain ⟨some, takes⟩ := cut.takeLine_flatten
  generalize (line :: commands).flatten = text at some takes
  have first : line = (Text.takeLine text).1 := by rw [takes]
  have rest : commands.flatten = (Text.takeLine text).2 := by rw [takes]
  rw [first, rest]
  obtain ⟨b, rest, rfl⟩ := List.exists_cons_of_ne_nil some
  rfl

variable {sh showsPrompt} {text : Text} {after : Shell}

theorem eq_shared (commands : after.commands = none)
    (input : after.debugger.channel.input = .console text showsPrompt) :
    after = after.shared text showsPrompt := by
  rw [shared, Debugger.reading, ← input, ← commands]
  rfl

/-- A command takes the first lines of the console for the program.  With a console of its own it
takes them as well, whatever else of the later lines is there. -/
theorem carryOut_shared {fuel : Nat} {command : Command}
    (carried : (sh.shared text showsPrompt).carryOut fuel command = .ok (some after)) :
    ∃ taken rest, after = after.shared rest showsPrompt ∧ text.lines = taken ++ rest.lines ∧
      ∀ (commands : Text) (more : List Text), more.Sublist rest.lines →
        (sh.separate commands (taken ++ more).flatten showsPrompt).carryOut fuel command =
          .ok (some (after.separate commands more.flatten showsPrompt)) := by
  obtain ⟨frame, events, here, there⟩ := carryOut_replays carried
  obtain ⟨taken, rest, reads, cut, plays⟩ := here.console rfl
  refine ⟨taken, rest, ?_, cut, ?_⟩
  · exact eq_shared (congrArg Shell.commands frame) reads
  · intro commands more sublist
    have carriedThere := there _ _ (plays more sublist) (some (.console commands showsPrompt))
    rw [frame]
    exact carriedThere

theorem finish_shared {how ending : SessionEnd}
    (finished : (sh.shared text showsPrompt).finish how = .ok (some (after, ending)))
    (commands input : Text) :
    ∃ again, (sh.separate commands input showsPrompt).finish how = .ok (some (again, ending)) ∧
      again.debugger = after.debugger.reading again.debugger.machine.input := by
  obtain ⟨rfl, channel, finishes⟩ := finish_on finished
  refine ⟨_, finishes { (sh.shared text showsPrompt).debugger.channel with
    input := .console input showsPrompt } (some (.console commands showsPrompt)), ?_⟩
  rw [← channel]
  rfl

end Shell

/-- No line of a shared console is lost or read twice.  When a session on one console ends, its
lines can be parted into two lists, such that the session with the lines of the one as commands and
those of the other as input of the program ends in the same way.  The debugger is the same then,
with its graph, its memory and all that was written, but for the input that is left. -/
theorem shared_console_parts {sh after : Shell} {text : Text} {showsPrompt : Bool} {fuel : Nat}
    {ending : SessionEnd}
    (ran : (sh.shared text showsPrompt).run fuel = .ok (some (after, ending))) :
    ∃ commands input, Parted text.lines commands input ∧
      ∃ again, (sh.separate commands.flatten input.flatten showsPrompt).run fuel =
          .ok (some (again, ending)) ∧
        again.debugger = after.debugger.reading again.debugger.machine.input := by
  induction fuel generalizing sh text with
  | zero => cases ran
  | succ fuel ih =>
    by_cases some : text = []
    · subst some
      simp only [Shell.run, Shell.nextRequest_shared_nil] at ran
      obtain ⟨again, finished, same⟩ := Shell.finish_shared ran [] []
      refine ⟨[], [], .nil, again, ?_, same⟩
      simp only [Shell.run, List.flatten_nil, Shell.nextRequest_separate_nil]
      exact finished
    · have lines := Text.lines_of_ne_nil some
      have isNext {commands input : List Text}
          (parted : Parted text.lines (text.takeLine.1 :: commands) input) :=
        sh.nextRequest_separate showsPrompt (text.cut_lines.sublist parted.sublist_left)
          input.flatten
      simp only [Shell.run, Shell.nextRequest_shared sh showsPrompt some] at ran
      cases request : Request.ofLine text.takeLine.1.trimLineEnd with
      | quit =>
        simp only [request] at ran
        have parted : Parted text.lines (text.takeLine.1 :: text.takeLine.2.lines) [] :=
          lines ▸ .all_left text.lines
        obtain ⟨again, finished, same⟩ := Shell.finish_shared ran text.takeLine.2.lines.flatten []
        refine ⟨_, [], parted, again, ?_, same⟩
        simp only [Shell.run, isNext parted, request]
        exact finished
      | nothing =>
        simp only [request] at ran
        obtain ⟨commands, input, parted, again, ranAgain, same⟩ := ih ran
        have parted : Parted text.lines (text.takeLine.1 :: commands) input := lines ▸ parted.left
        refine ⟨_, input, parted, again, ?_, same⟩
        simp only [Shell.run, isNext parted, request]
        exact ranAgain
      | command command =>
        simp only [request] at ran
        split at ran
        · cases ran
        · cases ran
        · rename_i answered carried
          obtain ⟨taken, rest, shares, cut, carries⟩ := Shell.carryOut_shared carried
          rw [shares] at ran
          obtain ⟨commands, input, parted, again, ranAgain, same⟩ := ih ran
          have carriedAgain := carries commands.flatten input parted.sublist_right
          have parted : Parted text.lines (text.takeLine.1 :: commands) (taken ++ input) := by
            rw [lines, cut]
            exact (parted.append_right taken).left
          refine ⟨_, _, parted, again, ?_, same⟩
          simp only [Shell.run, isNext parted, request, carriedAgain]
          exact ranAgain

/-- A program that asks for a line and prints it. -/
def Graph.echo : Graph :=
  let name : Element := { kind := .identifier, text := utf8 "x" }
  { nodes := #[
      .step 1 (.assign (utf8 "x") (.call (utf8 "input") { kind := .strLiteral, text := utf8 "? " }))
        (some 1),
      .step 2 (.call (utf8 "print") (some name)) none],
    entry := some 0 }

theorem Graph.lines_echo : Graph.echo.lines = .ok [1, 2] := by
  have reached : Graph.echo.reachable = .ok [1, 0] := by
    simp [reachable, explore, echo, node?, Node.links]
  rw [lines, reached]
  rfl

/-- The line after the step is input of the program and the others are commands, the last one
without a line feed. -/
theorem echo_shares_its_console :
    ∃ loaded after commands input again, Debugger.load .echo .idle = .ok loaded ∧
      ((Shell.make loaded none [] id).shared (utf8 "s\nhello\nr\nw") false).run 20 =
        .ok (some (after, .endOfInput)) ∧
      Parted [utf8 "s\n", utf8 "hello\n", utf8 "r\n", utf8 "w"] commands input ∧
      ((Shell.make loaded none [] id).separate commands.flatten input.flatten false).run 20 =
        .ok (some (again, .endOfInput)) ∧
      again.output = after.output ∧
      after.output = (utf8 "\n\nhello\n\ncompleted execution\n\n").toArray := by
  obtain ⟨loaded, after, isLoaded, ran, output⟩ :=
    Shell.exists_session (Debugger.load .echo .idle)
      (fun d => ((Shell.make d none [] id).shared (utf8 "s\nhello\nr\nw") false).run 20)
      Shell.output .endOfInput (utf8 "\n\nhello\n\ncompleted execution\n\n").toArray
      (by rw [Debugger.load, Graph.lines_echo]; decide +kernel)
  have lines : (utf8 "s\nhello\nr\nw").lines =
      [utf8 "s\n", utf8 "hello\n", utf8 "r\n", utf8 "w"] := by
    decide +kernel
  obtain ⟨commands, input, parted, again, ranAgain, sameDebugger⟩ := shared_console_parts ran
  rw [lines] at parted
  have sameOutput := congrArg (fun d => d.machine.output) sameDebugger
  exact ⟨loaded, after, commands, input, again, isLoaded, ran, parted, ranAgain, sameOutput, output⟩

end StepGraph
