import StepGraph.Machine

/-!
# How a statement deals with the outside

Apart from its memory a statement meets the world in two ways only: it writes a
text and reads nothing, or it asks for one line and goes on with what it is
given.  Which of the two, and with what text or prompt, the memory tells; the
source of the lines and the text written so far have no part in it.  So what was
written and asked, with the answers, decides everything: on any other channel on
which the same is answered, the same is done.
-/

namespace StepGraph

/-- The outside of a machine: where its lines come from, and what it has written. -/
structure Channel where
  input : LineSource
  output : Array UInt8

namespace Channel

def write (c : Channel) (text : Text) : Channel := { c with output := c.output ++ text }

@[simp] theorem write_nil (c : Channel) : c.write [] = c := by simp [write]

def ask (c : Channel) (prompt : Text) : Channel :=
  { input := (c.input.read prompt).source, output := c.output ++ (c.input.read prompt).written }

end Channel

/-- What passes between a machine and its channel. -/
inductive Event where
  | wrote (text : Text)
  | asked (prompt : Text) (answer : ReadResult)

/-- The events take place on a channel, one after the other. -/
inductive Plays : Channel → List Event → Channel → Prop
  | done {c : Channel} : Plays c [] c
  | wrote {c after : Channel} {text : Text} {events : List Event}
      (rest : Plays (c.write text) events after) : Plays c (.wrote text :: events) after
  | asked {c after : Channel} {prompt : Text} {answer : ReadResult} {events : List Event}
      (answered : (c.input.read prompt).result = answer)
      (rest : Plays (c.ask prompt) events after) : Plays c (.asked prompt answer :: events) after

theorem appendList_append (output : Array UInt8) (s t : Text) :
    output ++ (s ++ t) = output ++ s ++ t := by
  apply Array.ext'
  simp

namespace Plays

theorem append {c middle after : Channel} {first second : List Event} (one : Plays c first middle)
    (two : Plays middle second after) : Plays c (first ++ second) after := by
  induction one with
  | done => exact two
  | wrote _ ih => exact .wrote (ih two)
  | asked answered _ ih => exact .asked answered (ih two)

theorem split {c after : Channel} {first second : List Event}
    (plays : Plays c (first ++ second) after) :
    ∃ middle, Plays c first middle ∧ Plays middle second after := by
  induction first generalizing c with
  | nil => exact ⟨c, .done, plays⟩
  | cons event first ih =>
    cases plays with
    | wrote rest =>
      obtain ⟨middle, one, two⟩ := ih rest
      exact ⟨middle, .wrote one, two⟩
    | asked answered rest =>
      obtain ⟨middle, one, two⟩ := ih rest
      exact ⟨middle, .asked answered one, two⟩

/-- What the events write is put after what was written before, whatever that was. -/
theorem elsewhere {c after : Channel} {events : List Event} (plays : Plays c events after) :
    ∃ text : Text, after.output = c.output ++ text ∧
      ∀ output, Plays { c with output } events { after with output := output ++ text } := by
  induction plays with
  | done =>
    refine ⟨[], by simp, ?_⟩
    intro output
    rw [Array.appendList_nil]
    exact .done
  | @wrote c _ first _ _ ih =>
    obtain ⟨text, grown, there⟩ := ih
    refine ⟨first ++ text, ?_, ?_⟩
    · rw [grown, appendList_append]
      rfl
    · intro output
      rw [appendList_append]
      exact .wrote (there (output ++ first))
  | @asked c _ prompt _ _ answered _ ih =>
    obtain ⟨text, grown, there⟩ := ih
    refine ⟨(c.input.read prompt).written ++ text, ?_, ?_⟩
    · rw [grown, appendList_append]
      rfl
    · intro output
      rw [appendList_append]
      exact .asked answered (there (output ++ (c.input.read prompt).written))

end Plays

namespace Machine

def channel (m : Machine) : Channel := { input := m.input, output := m.output }

def on (m : Machine) (c : Channel) : Machine := { m with input := c.input, output := c.output }

/-- The result of what has found no line. -/
def LacksLine {α : Type} (result : Except Fault α) : Prop :=
  ∃ line, result = failAt line .endOfInput

/-- What is done with a channel: a text is written, or one line is asked for.  The memory and the
result depend on nothing else than the answer. -/
inductive Interacts {α : Type} (act : Channel → Machine × Except Fault α) : Prop
  | writes (memory : Memory) (text : Text) (result : Except Fault α)
      (same : ∀ c, act c = (⟨memory, c.input, c.output ++ text⟩, result))
  | asks (prompt : Text) (memory : ReadResult → Memory) (result : ReadResult → Except Fault α)
      (vain : LacksLine (result .endOfInput))
      (sound : ∀ answer defect, result answer ≠ .error (.defect defect))
      (same : ∀ c, act c =
        (⟨memory (c.input.read prompt).result, (c.ask prompt).input, (c.ask prompt).output⟩,
          result (c.input.read prompt).result))

namespace Interacts

variable {α β : Type} {act : Channel → Machine × Except Fault α}

theorem idle (memory : Memory) (result : Except Fault α)
    (same : ∀ c, act c = (⟨memory, c.input, c.output⟩, result)) : Interacts act := by
  refine .writes memory [] result ?_
  intro c
  simp [same]

theorem map {further : Channel → Machine × Except Fault β} (interacts : Interacts act)
    (memory : Memory → Except Fault α → Memory) (f : α → β)
    (same : ∀ c, further c =
      ({ (act c).1 with memory := memory (act c).1.memory (act c).2 }, (act c).2.map f)) :
    Interacts further := by
  cases interacts with
  | writes after text value acts =>
    refine .writes (memory after value) text (value.map f) ?_
    intro c
    rw [same, acts]
  | asks prompt after value vain sound acts =>
    refine .asks prompt (fun reply => memory (after reply) (value reply))
      (fun reply => (value reply).map f) ?_ ?_ ?_
    · obtain ⟨line, lacks⟩ := vain
      rw [lacks]
      exact ⟨line, rfl⟩
    · intro answer defect failed
      cases given : value answer with
      | error fault =>
        rw [given] at failed
        cases failed
        exact sound answer defect given
      | ok value =>
        rw [given] at failed
        cases failed
    · intro c
      rw [same, acts]

/-- The events on one channel decide what is done on every channel where they take place. -/
theorem plays (interacts : Interacts act) (c : Channel) :
    ∃ events, Plays c events (act c).1.channel ∧
      ∀ other after, Plays other events after → act other = ((act c).1.on after, (act c).2) := by
  cases interacts with
  | writes memory text result same =>
    simp only [same]
    refine ⟨[.wrote text], .wrote .done, ?_⟩
    intro other after plays
    cases plays with
    | wrote rest =>
      cases rest
      rfl
  | asks prompt memory result _ _ same =>
    simp only [same]
    refine ⟨[.asked prompt (c.input.read prompt).result], .asked rfl .done, ?_⟩
    intro other after plays
    cases plays with
    | asked answered rest =>
      cases rest
      rw [answered]
      rfl

end Interacts

variable (m : Machine) (line : Int)

theorem callInput_interacts (argument : Element) :
    Interacts fun c => (m.on c).callInput argument line := by
  cases evaluated : argument.eval m.memory line with
  | error fault =>
    simp only [callInput, on, evaluated]
    exact .idle m.memory _ fun _ => rfl
  | ok value =>
    cases value with
    | str prompt =>
      refine .asks prompt (fun _ => m.memory)
        (fun
          | .line text => .ok (.str text.trimLineEnd)
          | .endOfInput => failAt line .endOfInput
          | .failed reason => failAt line (.inputFailed reason)) ⟨line, rfl⟩ ?_ ?_
      · intro answer defect
        cases answer <;> nofun
      · intro c
        simp only [callInput, on, evaluated, readLine, write]
        cases (c.input.read prompt).result <;> rfl
    | _ =>
      simp only [callInput, on, evaluated]
      exact .idle m.memory _ fun _ => rfl

theorem stringArgument_on (c : Channel) (function : Text) (argument : Element) :
    (m.on c).stringArgument function argument line = m.stringArgument function argument line := rfl

theorem callFunction_interacts (function : Text) (argument : Element) :
    Interacts fun c => (m.on c).callFunction function argument line := by
  unfold callFunction
  split
  · exact m.callInput_interacts line argument
  · simp only [stringArgument_on]
    split
    · exact .idle m.memory _ fun _ => rfl
    · split
      · exact .idle m.memory _ fun _ => rfl
      · exact .idle m.memory _ fun _ => rfl

theorem evalSource_interacts (source : Source) :
    Interacts fun c => (m.on c).evalSource source line := by
  cases source with
  | expr e => exact .idle m.memory (e.eval m.memory line) fun _ => rfl
  | call function argument => exact m.callFunction_interacts line function argument

theorem callStatement_interacts (function : Text) (argument : Option Element) :
    Interacts fun c => (m.on c).callStatement function argument line := by
  unfold callStatement
  split
  · cases argument with
    | none => exact .writes m.memory _ _ fun _ => rfl
    | some e =>
      cases evaluated : e.eval m.memory line with
      | ok value =>
        simp only [on, evaluated]
        exact .writes m.memory _ _ fun _ => rfl
      | error fault =>
        simp only [on, evaluated]
        exact .idle m.memory _ fun _ => rfl
  · exact .idle m.memory _ fun _ => rfl

theorem act_interacts (action : Action) : Interacts fun c => (m.on c).act action line := by
  cases action with
  | assign target source =>
    refine (m.evalSource_interacts line source).map
      (fun after result => result.toOption.elim after (after.write target))
      (fun _ => ()) ?_
    intro c
    simp only [act]
    rcases (m.on c).evalSource source line with ⟨after, fault | value⟩ <;> rfl
  | call function argument => exact m.callStatement_interacts line function argument
  | pass => exact .idle m.memory _ fun _ => rfl

/-- A statement writes a text, or asks for one line. -/
theorem execute_interacts (node : Node) : Interacts fun c => (m.on c).execute node := by
  cases node with
  | step line action next =>
    refine (m.act_interacts line action).map (fun after _ => after)
      (fun _ => { branch := .next, next }) ?_
    intro c
    simp only [execute]
    rcases (m.on c).act action line with ⟨after, fault | _⟩ <;> rfl
  | loop line condition body next =>
    cases evaluated : condition.eval m.memory line with
    | error fault =>
      simp only [execute, on, evaluated]
      exact .idle m.memory _ fun _ => rfl
    | ok value =>
      simp only [execute, on, evaluated]
      cases value with
      | bool truth => cases truth <;> exact .idle m.memory _ fun _ => rfl
      | _ => exact .idle m.memory _ fun _ => rfl

end Machine

/-- The node at a position does on every channel what it does on one with the same events. -/
theorem Graph.execute_plays (g : Graph) (id : NodeId) (m : Machine) :
    ∃ events, Plays m.channel events (g.execute id m).1.channel ∧
      ∀ other after, Plays other events after →
        g.execute id (m.on other) = ((g.execute id m).1.on after, (g.execute id m).2) := by
  unfold Graph.execute
  cases g.node id with
  | ok node => exact (m.execute_interacts node).plays m.channel
  | error defect =>
    refine ⟨[], .done, ?_⟩
    intro other after plays
    cases plays
    rfl

end StepGraph
