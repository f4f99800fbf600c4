import StepGraph.Proofs.Build.Nodes
import StepGraph.Proofs.Console
import StepGraph.Proofs.Shell.Dialogue

/-!
# Looking does not interfere

A command line that is blank, that asks to look at something or that is no
command at all leaves no trace in a session but its own answer.  Two sessions
are followed side by side, one of them without such lines.  They stay alike:
only what was written, and what is still to be read, is different.
-/

namespace StepGraph

namespace Request

def looking : List Text := [utf8 "h", utf8 "lb", utf8 "p", utf8 "sm", utf8 "ss", utf8 "w"]

def acting : List Text := [utf8 "q", utf8 "r", utf8 "s", utf8 "b", utf8 "rb", utf8 "cb"]

/-- A command line that is blank, looks at something or is unknown. -/
def isIdle (line : Text) : Bool :=
  match line.fields with
  | [] => true
  | word :: _ => decide (word ∈ looking) || decide (word ∉ looking ++ acting)

def inspects : Request → Bool
  | .nothing => true
  | .quit => false
  | .command c => c.inspects

theorem inspects_ofWords (word : Text) (arguments : List Text) :
    (ofWords word arguments).inspects =
      (decide (word ∈ looking) || decide (word ∉ looking ++ acting)) := by
  by_cases known : word ∈ looking ++ acting
  · simp only [looking, acting, List.cons_append, List.nil_append, List.mem_cons,
      List.not_mem_nil, or_false] at known
    rcases known with rfl | rfl | rfl | rfl | rfl | rfl | rfl | rfl | rfl | rfl | rfl | rfl
    all_goals rfl
  · have other : ofWords word arguments = .command .unknown := by
      simp only [looking, acting, List.cons_append, List.nil_append, List.mem_cons,
        List.not_mem_nil, or_false, not_or] at known
      simp [ofWords, known]
    rw [other, decide_eq_true known, Bool.or_true]
    rfl

theorem inspects_ofLine (line : Text) : (ofLine line).inspects = isIdle line := by
  unfold ofLine isIdle
  cases line.fields with
  | nil => rfl
  | cons word arguments => exact inspects_ofWords word arguments

end Request

namespace LineSource

/-- A source serves lines, one at each prompt, and then ends or fails. -/
inductive Serves (prompt : Text) : LineSource → List Text → SessionEnd → Prop
  | ended {source : LineSource} (read : (source.read prompt).result = .endOfInput) :
      Serves prompt source [] .endOfInput
  | failed {source : LineSource} {reason : Text}
      (read : (source.read prompt).result = .failed reason) :
      Serves prompt source [] (.readFailed reason)
  | line {source : LineSource} {text : Text} {lines : List Text} {ending : SessionEnd}
      (read : (source.read prompt).result = .line text)
      (rest : Serves prompt ((source.read prompt).source.remember text) lines ending) :
      Serves prompt source (text :: lines) ending

theorem serves_script (prompt : Text) (lines : List Text) (failure : Option Text) :
    Serves prompt (.script lines failure) lines (failure.elim .endOfInput .readFailed) := by
  induction lines with
  | nil =>
    cases failure with
    | none => exact .ended rfl
    | some reason => exact .failed rfl
  | cons text lines ih => exact .line rfl ih

theorem serves_console (prompt text : Text) (showsPrompt : Bool) :
    Serves prompt (.console text showsPrompt) (text.lines.map Text.trimLineEnd) .endOfInput := by
  induction cut : text.lines generalizing text with
  | nil =>
    have empty : text = [] := by rw [← text.flatten_lines, cut]; rfl
    subst empty
    exact .ended rfl
  | cons line lines ih =>
    have some : text ≠ [] := by
      rintro rfl
      cases cut
    rw [Text.lines_of_ne_nil some] at cut
    injection cut with first rest
    have read := read_console some prompt showsPrompt
    refine .line (by rw [read, first]) ?_
    rw [read]
    exact ih _ rest

end LineSource

/-- The debugger with all that was written forgotten. -/
def Debugger.silent (d : Debugger) : Debugger := d.on { d.channel with output := #[] }

namespace Shell

/-! ## Shells that are alike -/

/-- Shells that differ in nothing but what was written and where the commands come from. -/
structure Alike (sh other : Shell) : Prop where
  silent : other.debugger.silent = sh.debugger.silent
  prompt : other.prompt = sh.prompt
  errorStyle : other.errorStyle = sh.errorStyle

namespace Alike

variable {sh other third after : Shell} {command : Command} {fuel : Nat}

theorem symm (alike : sh.Alike other) : other.Alike sh :=
  ⟨alike.silent.symm, alike.prompt.symm, alike.errorStyle.symm⟩

theorem trans (alike : sh.Alike other) (further : other.Alike third) : sh.Alike third :=
  ⟨further.silent.trans alike.silent, further.prompt.trans alike.prompt,
    further.errorStyle.trans alike.errorStyle⟩

theorem debugger (alike : sh.Alike other) :
    other.debugger = sh.debugger.on { sh.debugger.channel with output := other.output } := by
  have same := congrArg (fun d => d.on { d.channel with output := other.output }) alike.silent
  exact same

theorem eq (alike : sh.Alike other) :
    other = { sh with
      debugger := sh.debugger.on { sh.debugger.channel with output := other.output },
      commands := other.commands } := by
  have debugger := alike.debugger
  have prompt := alike.prompt
  have errorStyle := alike.errorStyle
  cases other
  simp only at debugger prompt errorStyle ⊢
  rw [prompt, errorStyle]
  exact congrArg (fun d => Shell.mk d _ _ _) debugger

theorem carryOut {reply : Text} (alike : sh.Alike other)
    (carried : sh.carryOut fuel command = .ok (some after))
    (writes : after.output = sh.output ++ reply) :
    ∃ answered, other.carryOut fuel command = .ok (some answered) ∧
      answered.output = other.output ++ reply ∧ after.Alike answered := by
  obtain ⟨frame, events, here, there⟩ := carryOut_replays carried
  obtain ⟨text, wrote, elsewhere⟩ := here.elsewhere
  have answer : text = reply := by
    have same := congrArg Array.toList (wrote.symm.trans writes)
    simpa [output, Debugger.channel, Machine.channel] using same
  subst answer
  have carriedElsewhere := there _ _ (elsewhere other.output) other.commands
  have same := congrArg (fun sh => sh.carryOut fuel command) alike.eq
  refine ⟨_, same.trans carriedElsewhere, rfl, rfl, ?_, ?_⟩
  · exact (congrArg Shell.prompt frame).symm
  · exact (congrArg Shell.errorStyle frame).symm

theorem finish {how ending : SessionEnd} (alike : sh.Alike other)
    (finished : sh.finish how = .ok (some (after, ending))) :
    ∃ closed, other.finish how = .ok (some (closed, ending)) ∧
      closed.debugger.silent = after.debugger.silent := by
  obtain ⟨rfl, channel, finishes⟩ := finish_on finished
  have same := congrArg (fun sh => sh.finish ending) alike.eq
  refine ⟨_, same.trans (finishes _ _), ?_⟩
  rw [← channel]
  rfl

end Alike

/-- A command that looks is carried out, and leaves the shell alike. -/
theorem exists_carryOut_of_inspects (sh : Shell) {command : Command}
    (inspects : command.inspects = true) (fuel : Nat) :
    ∃ after, sh.carryOut fuel command = .ok (some after) ∧ sh.Alike after := by
  obtain ⟨text, writes⟩ := sh.writes_of_inspects inspects
  exact ⟨_, writes fuel sh.debugger.channel sh.commands, ⟨rfl, rfl, rfl⟩⟩

/-! ## Shells that wait for lines -/

def Awaits (sh : Shell) (lines : List Text) (ending : SessionEnd) : Prop :=
  ∃ source, sh.commands = some source ∧ source.Serves sh.prompt lines ending

theorem Asks.unique {sh asked other : Shell} {line text : Text} (asks : sh.Asks line asked)
    (again : sh.Asks text other) : line = text ∧ asked = other := by
  obtain ⟨read, reads, rfl⟩ := asks
  obtain ⟨same, readsAgain, rfl⟩ := again
  rw [reads] at readsAgain
  cases readsAgain
  exact ⟨rfl, rfl⟩

theorem readLine_of_commands {sh : Shell} {source : LineSource}
    (commands : sh.commands = some source) :
    ∃ read, (sh.writeLine []).readLine = (read, (source.read sh.prompt).result) ∧ sh.Alike read ∧
      read.commands = some (source.read sh.prompt).source := by
  have written : (sh.writeLine []).commands = some source := commands
  rw [readLine, written]
  exact ⟨_, rfl, ⟨rfl, rfl, rfl⟩, rfl⟩

theorem alike_remember (sh : Shell) (line : Text) {source : LineSource}
    (commands : sh.commands = some source) :
    sh.Alike (sh.remember line) ∧ (sh.remember line).commands = some (source.remember line) := by
  rw [remember, commands]
  exact ⟨⟨rfl, rfl, rfl⟩, rfl⟩

namespace Awaits

variable {sh : Shell} {line : Text} {lines : List Text} {ending : SessionEnd}

theorem asks (awaits : sh.Awaits (line :: lines) ending) :
    ∃ asked, sh.Asks line asked ∧ sh.Alike asked ∧ asked.Awaits lines ending := by
  obtain ⟨source, commands, serves⟩ := awaits
  obtain ⟨read, reads, alike, left⟩ := readLine_of_commands commands
  obtain ⟨remembers, rest⟩ := read.alike_remember line left
  cases serves with
  | line result serves =>
    rw [result] at reads
    have asked := alike.trans remembers
    refine ⟨read.remember line, ⟨read, reads, rfl⟩, asked, _, rest, ?_⟩
    rw [asked.prompt]
    exact serves

theorem ended (awaits : sh.Awaits [] ending) :
    ∃ read, sh.nextRequest = (read, .error ending) ∧ sh.Alike read := by
  obtain ⟨source, commands, serves⟩ := awaits
  obtain ⟨read, reads, alike, -⟩ := readLine_of_commands commands
  refine ⟨read, ?_, alike⟩
  cases serves with
  | ended result => rw [nextRequest, reads, result]
  | failed result => rw [nextRequest, reads, result]

theorem of_asks {asked : Shell} (awaits : sh.Awaits lines ending) (asks : sh.Asks line asked) :
    ∃ rest, lines = line :: rest ∧ sh.Alike asked ∧ asked.Awaits rest ending := by
  cases lines with
  | nil =>
    obtain ⟨read, next, -⟩ := awaits.ended
    rw [nextRequest_of_asks asks] at next
    cases next
  | cons first rest =>
    obtain ⟨other, again, alike, left⟩ := awaits.asks
    obtain ⟨rfl, rfl⟩ := again.unique asks
    exact ⟨rest, rfl, alike, left⟩

/-- The end of a session is reached by shells that are alike if they are given the same line. -/
theorem closes {other after : Shell} {others : List Text} {how : SessionEnd}
    (awaits : sh.Awaits lines ending) (awaitsOther : other.Awaits others ending)
    (alike : sh.Alike other) (head : others.head? = lines.head?) (closes : sh.Closes after how) :
    ∃ closed, other.Closes closed how ∧ closed.debugger.silent = after.debugger.silent := by
  cases closes with
  | quit asks request finished =>
    obtain ⟨rest, rfl, asked, -⟩ := awaits.of_asks asks
    obtain ⟨others, rfl⟩ := List.head?_eq_some_iff.mp head
    obtain ⟨askedOther, asksOther, alikeOther, -⟩ := awaitsOther.asks
    obtain ⟨closed, finishes, silent⟩ := (asked.symm.trans (alike.trans alikeOther)).finish finished
    exact ⟨closed, .quit asksOther request finishes, silent⟩
  | ended next finished =>
    cases lines with
    | cons line rest =>
      obtain ⟨asked, asks, -⟩ := awaits.asks
      rw [nextRequest_of_asks asks] at next
      cases next
    | nil =>
      obtain ⟨read, nextHere, asked⟩ := awaits.ended
      rw [next] at nextHere
      cases nextHere
      obtain rfl := List.head?_eq_none_iff.mp head
      obtain ⟨readOther, nextOther, alikeOther⟩ := awaitsOther.ended
      obtain ⟨closed, finishes, silent⟩ :=
        (asked.symm.trans (alike.trans alikeOther)).finish finished
      exact ⟨closed, .ended nextOther finishes, silent⟩

theorem carryOut {after : Shell} {fuel : Nat} {command : Command} (awaits : sh.Awaits lines ending)
    (carried : sh.carryOut fuel command = .ok (some after)) : after.Awaits lines ending := by
  obtain ⟨frame, -⟩ := carryOut_replays carried
  rw [frame]
  exact awaits

end Awaits

/-! ## Two sessions side by side -/

/-- Two shells that are alike, the second of which is not given the idle lines. -/
structure Abreast (lines : List Text) (ending : SessionEnd) (sh other : Shell) : Prop where
  alike : sh.Alike other
  awaits : sh.Awaits lines ending
  awaitsOther : other.Awaits (lines.filter fun line => !Request.isIdle line) ending

namespace Abreast

variable {sh other now : Shell} {line : Text} {lines : List Text} {ending : SessionEnd}
  {exchanges : List Exchange}

/-- An idle line is answered by the one shell while the other waits. -/
theorem skip {answered : Shell} (abreast : Abreast (line :: lines) ending sh other)
    (idle : Request.isIdle line = true) (alike : sh.Alike answered)
    (awaits : answered.Awaits lines ending) : Abreast lines ending answered other := by
  have awaitsOther := abreast.awaitsOther
  rw [List.filter_cons_of_neg (by simp [idle])] at awaitsOther
  exact ⟨alike.symm.trans abreast.alike, awaits, awaitsOther⟩

/-- A line that is not idle is given to both shells. -/
theorem both (abreast : Abreast (line :: lines) ending sh other)
    (active : Request.isIdle line = false) :
    ∃ asked askedOther, sh.Asks line asked ∧ other.Asks line askedOther ∧
      Abreast lines ending asked askedOther := by
  have awaitsOther := abreast.awaitsOther
  rw [List.filter_cons_of_pos (by simp [active])] at awaitsOther
  obtain ⟨asked, asks, alike, left⟩ := abreast.awaits.asks
  obtain ⟨askedOther, asksOther, alikeOther, leftOther⟩ := awaitsOther.asks
  exact ⟨asked, askedOther, asks, asksOther,
    alike.symm.trans (abreast.alike.trans alikeOther), left, leftOther⟩

/-- The shell without idle lines has the other exchanges of a dialogue, in the same order. -/
theorem dialogue (abreast : Abreast lines ending sh other) (dialogue : sh.Dialogue exchanges now) :
    ∃ left nowOther, Abreast left ending now nowOther ∧
      other.Dialogue (exchanges.filter fun x => !Request.isIdle x.line) nowOther := by
  induction dialogue generalizing lines other with
  | here => exact ⟨lines, other, abreast, .here⟩
  | @blank _ _ _ line _ asks request _ ih =>
    obtain ⟨rest, rfl, alike, awaits⟩ := abreast.awaits.of_asks asks
    have idle : Request.isIdle line = true := by
      rw [← Request.inspects_ofLine, request]
      rfl
    rw [List.filter_cons_of_neg (by simp [idle])]
    exact ih (abreast.skip idle alike awaits)
  | @command _ asked _ _ line _ command fuel _ asks request carried writes _ ih =>
    obtain ⟨rest, rfl, alike, awaits⟩ := abreast.awaits.of_asks asks
    cases idle : Request.isIdle line with
    | true =>
      have inspects : command.inspects = true := by
        rw [← Request.inspects_ofLine, request] at idle
        exact idle
      obtain ⟨after, carriedHere, looked⟩ := asked.exists_carryOut_of_inspects inspects fuel
      rw [carried] at carriedHere
      cases carriedHere
      rw [List.filter_cons_of_neg (by simp [idle])]
      exact ih (abreast.skip idle (alike.trans looked) (awaits.carryOut carried))
    | false =>
      obtain ⟨askedHere, askedOther, asksHere, asksOther, abreast⟩ := abreast.both idle
      obtain ⟨-, rfl⟩ := asksHere.unique asks
      obtain ⟨answered, carriedOther, writesOther, alike⟩ := abreast.alike.carryOut carried writes
      obtain ⟨left, nowOther, abreast, dialogue⟩ :=
        ih ⟨alike, awaits.carryOut carried, abreast.awaitsOther.carryOut carriedOther⟩
      rw [List.filter_cons_of_pos (by simp [idle])]
      exact ⟨left, nowOther, abreast, .command asksOther request carriedOther writesOther dialogue⟩

/-- An idle line goes before any dialogue. -/
theorem idle_first (abreast : Abreast (line :: lines) ending sh other)
    (idle : Request.isIdle line = true) :
    ∃ (answered : Shell) (reply : Text), Abreast lines ending answered other ∧
      ∀ exchanges now, answered.Dialogue exchanges now →
        sh.Dialogue (⟨line, reply⟩ :: exchanges) now := by
  obtain ⟨asked, asks, alike, awaits⟩ := abreast.awaits.asks
  rw [← Request.inspects_ofLine] at idle
  cases request : Request.ofLine line with
  | nothing =>
    rw [Request.inspects_ofLine] at idle
    exact ⟨asked, [], abreast.skip idle alike awaits, fun _ _ => .blank asks request⟩
  | quit =>
    rw [request] at idle
    cases idle
  | command command =>
    have inspects : command.inspects = true := by
      rw [request] at idle
      exact idle
    obtain ⟨answered, carried, looked⟩ := asked.exists_carryOut_of_inspects inspects 0
    obtain ⟨reply, writes⟩ := exists_reply carried
    rw [Request.inspects_ofLine] at idle
    exact ⟨answered, reply, abreast.skip idle (alike.trans looked) (awaits.carryOut carried),
      fun _ _ => .command asks request carried writes⟩

/-- A dialogue without idle lines is that of the shell with them, up to its next active line. -/
theorem exists_dialogue (abreast : Abreast lines ending sh other)
    (dialogue : other.Dialogue exchanges now) :
    ∃ all here left, sh.Dialogue all here ∧
      (all.filter fun x => !Request.isIdle x.line) = exchanges ∧ Abreast left ending here now ∧
      (left.filter fun line => !Request.isIdle line).head? = left.head? := by
  induction lines generalizing sh other exchanges with
  | nil =>
    cases dialogue with
    | here => exact ⟨[], sh, [], .here, rfl, abreast, rfl⟩
    | blank asks =>
      obtain ⟨rest, same, -⟩ := abreast.awaitsOther.of_asks asks
      cases same
    | command asks =>
      obtain ⟨rest, same, -⟩ := abreast.awaitsOther.of_asks asks
      cases same
  | cons line lines ih =>
    cases idle : Request.isIdle line with
    | true =>
      obtain ⟨answered, reply, abreast, first⟩ := abreast.idle_first idle
      obtain ⟨all, here, left, rest, same, ends⟩ := ih abreast dialogue
      refine ⟨⟨line, reply⟩ :: all, here, left, first all here rest, ?_, ends⟩
      rw [List.filter_cons_of_neg (by simp [idle])]
      exact same
    | false =>
      have kept : (line :: lines).filter (fun line => !Request.isIdle line) =
          line :: lines.filter fun line => !Request.isIdle line :=
        List.filter_cons_of_pos (by simp [idle])
      obtain ⟨asked, askedOther, asks, asksOther, both⟩ := abreast.both idle
      cases dialogue with
      | here =>
        refine ⟨[], sh, line :: lines, .here, rfl, abreast, ?_⟩
        rw [kept]
        rfl
      | blank asksHere request =>
        obtain ⟨rfl, -⟩ := asksOther.unique asksHere
        rw [← Request.inspects_ofLine, request] at idle
        cases idle
      | command asksHere request carried writes rest =>
        obtain ⟨rfl, rfl⟩ := asksOther.unique asksHere
        obtain ⟨answered, carriedHere, writesHere, alike⟩ := both.alike.symm.carryOut carried writes
        obtain ⟨all, here, left, dialogue, same, ends⟩ :=
          ih ⟨alike.symm, both.awaits.carryOut carriedHere, both.awaitsOther.carryOut carried⟩ rest
        refine ⟨⟨line, _⟩ :: all, here, left,
          .command asks request carriedHere writesHere dialogue, ?_, ends⟩
        rw [List.filter_cons_of_pos (by simp [idle]), same]

theorem head_of_closes {after : Shell} {how : SessionEnd} (abreast : Abreast lines ending sh other)
    (closes : sh.Closes after how) :
    (lines.filter fun line => !Request.isIdle line).head? = lines.head? := by
  cases lines with
  | nil => rfl
  | cons line lines =>
    cases closes with
    | quit asks request =>
      obtain ⟨rest, same, -⟩ := abreast.awaits.of_asks asks
      cases same
      have active : Request.isIdle line = false := by
        rw [← Request.inspects_ofLine, request]
        rfl
      rw [List.filter_cons_of_pos (by simp [active])]
      rfl
    | ended next =>
      obtain ⟨asked, asks, -⟩ := abreast.awaits.asks
      rw [nextRequest_of_asks asks] at next
      cases next

end Abreast

end Shell

/-- Idle command lines can be left out of a session.  At every prompt the exchanges of all other
lines have been the same, and so is the debugger but for its output; and the session ends in the
same way, with the same debugger but for its output, if it ends at all. -/
theorem inspection_does_not_interfere (sh : Shell) {source other : LineSource} {lines : List Text}
    {ending : SessionEnd} (serves : source.Serves sh.prompt lines ending)
    (servesOther :
      other.Serves sh.prompt (lines.filter fun line => !Request.isIdle line) ending) :
    (∀ exchanges d,
      (∃ all now, ({ sh with commands := some source } : Shell).Dialogue all now ∧
        (all.filter fun x => !Request.isIdle x.line) = exchanges ∧ now.debugger.silent = d) ↔
      ∃ now, ({ sh with commands := some other } : Shell).Dialogue exchanges now ∧
        now.debugger.silent = d) ∧
    ∀ how d,
      (∃ fuel after, ({ sh with commands := some source } : Shell).run fuel =
        .ok (some (after, how)) ∧ after.debugger.silent = d) ↔
      ∃ fuel after, ({ sh with commands := some other } : Shell).run fuel =
        .ok (some (after, how)) ∧ after.debugger.silent = d := by
  have abreast : Shell.Abreast lines ending { sh with commands := some source }
      { sh with commands := some other } :=
    ⟨⟨rfl, rfl, rfl⟩, ⟨source, rfl, serves⟩, ⟨other, rfl, servesOther⟩⟩
  constructor
  · intro exchanges d
    constructor
    · rintro ⟨all, now, dialogue, rfl, rfl⟩
      obtain ⟨left, nowOther, there, dialogueOther⟩ := abreast.dialogue dialogue
      exact ⟨nowOther, dialogueOther, there.alike.silent⟩
    · rintro ⟨now, dialogue, rfl⟩
      obtain ⟨all, here, left, dialogueHere, same, there, -⟩ := abreast.exists_dialogue dialogue
      exact ⟨all, here, dialogueHere, same, there.alike.silent.symm⟩
  · intro how d
    constructor
    · rintro ⟨fuel, after, ran, rfl⟩
      obtain ⟨all, now, dialogue, closes⟩ := Shell.run_iff_dialogue.mp ⟨fuel, ran⟩
      obtain ⟨left, nowOther, there, dialogueOther⟩ := abreast.dialogue dialogue
      obtain ⟨closed, closesOther, silent⟩ :=
        there.awaits.closes there.awaitsOther there.alike (there.head_of_closes closes) closes
      obtain ⟨enough, ranOther⟩ :=
        Shell.run_iff_dialogue.mpr ⟨_, nowOther, dialogueOther, closesOther⟩
      exact ⟨enough, closed, ranOther, silent⟩
    · rintro ⟨fuel, after, ran, rfl⟩
      obtain ⟨exchanges, now, dialogue, closes⟩ := Shell.run_iff_dialogue.mp ⟨fuel, ran⟩
      obtain ⟨all, here, left, dialogueHere, -, there, head⟩ := abreast.exists_dialogue dialogue
      obtain ⟨closed, closesHere, silent⟩ :=
        there.awaitsOther.closes there.awaits there.alike.symm head.symm closes
      obtain ⟨enough, ranHere⟩ := Shell.run_iff_dialogue.mpr ⟨all, here, dialogueHere, closesHere⟩
      exact ⟨enough, closed, ranHere, silent⟩

/-- A countdown is stepped and run, with and without looking at it on the way. -/
theorem watched_countdown_is_undisturbed :
    ∃ loaded fuel after undisturbed, Debugger.load .countdown .idle = .ok loaded ∧
      (Shell.make loaded
          (some (.console (utf8 "h\ns\n \nw\nrun\nr\np n\nq\nlb\n") true)) [] id).run fuel =
        .ok (some (after, .quit)) ∧
      (Shell.make loaded (some (.script [utf8 "s", utf8 "r", utf8 "q"] none)) [] id).run 20 =
        .ok (some (undisturbed, .quit)) ∧
      after.debugger.silent = undisturbed.debugger.silent ∧ after.debugger.state = .completed := by
  obtain ⟨loaded, undisturbed, isLoaded, ran, completed⟩ :=
    Shell.exists_session (Debugger.load .countdown .idle)
      (fun d => (Shell.make d (some (.script [utf8 "s", utf8 "r", utf8 "q"] none)) [] id).run 20)
      (fun sh => sh.debugger.state) .quit .completed
      (by rw [Debugger.load, Graph.lines_countdown]; decide +kernel)
  have active : (((utf8 "h\ns\n \nw\nrun\nr\np n\nq\nlb\n").lines.map Text.trimLineEnd).filter
      fun line => !Request.isIdle line) = [utf8 "s", utf8 "r", utf8 "q"] := by
    decide +kernel
  obtain ⟨-, ends⟩ := inspection_does_not_interfere (Shell.make loaded none [] id)
    (LineSource.serves_console _ _ true) (by rw [active]; exact LineSource.serves_script _ _ none)
  obtain ⟨fuel, after, ranHere, silent⟩ := (ends .quit _).mpr ⟨20, undisturbed, ran, rfl⟩
  have state := congrArg Debugger.state silent
  exact ⟨loaded, fuel, after, undisturbed, isLoaded, ranHere, ran, silent, state.trans completed⟩

end StepGraph
