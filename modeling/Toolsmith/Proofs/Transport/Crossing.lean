import Mathlib
import Toolsmith.Transport.Channel

/-! # The two ends of a channel are crossed

Whatever is done at the two ends of a channel, in any order, each direction is a queue of its own.
An `Action` is about the messages from one of the ends, and does to the pipe out of this end what it
would do to the pipe alone (`Channel.act_eq`). So what was received in a direction, followed by what
is queued, is what was sent (`Channel.queue_after`), and what comes of the actions in a direction
does not depend on the other direction at all (`Channel.log_filter`). `Channel.ends_cross` puts this
together.
-/

namespace Toolsmith

/-- The other end of a channel. -/
def Side.opposite : Side → Side
  | .left => .right
  | .right => .left

namespace Pipe

/-- What is done at an end. -/
inductive Use where
  | send (text : String)
  | receive
  | close
deriving DecidableEq

/-- What comes of it. -/
inductive Outcome where
  | sent (result : Except ProtocolError Unit)
  | received (reception : Reception)
  | closed

/-- The message that was sent, if sending worked. -/
def Use.sentTexts : Use → Outcome → List String
  | .send text, .sent (.ok ()) => [text]
  | _, _ => []

/-- The message that was received, if there was one. -/
def Use.receivedTexts : Use → Outcome → List String
  | .receive, .received (.message text) => [text]
  | _, _ => []

/-- Do something at an end of a pipe. -/
def act (pipe : Pipe) : Use → Outcome × Pipe
  | .send text => (.sent (pipe.send text).1, (pipe.send text).2)
  | .receive => (.received pipe.receive.1, pipe.receive.2)
  | .close => (.closed, pipe.close)

variable {pipe : Pipe}

theorem canReceive_act (use : Use) : (pipe.act use).2.canReceive = pipe.canReceive := by
  cases use with
  | send text =>
      simp only [act, send]
      split <;> rfl
  | receive =>
      simp only [act, receive]
      split <;> rfl
  | close => rfl

/-- An end can send until it was closed. -/
theorem canSend_act (use : Use) :
    (pipe.act use).2.canSend = (pipe.canSend && decide (use ≠ .close)) := by
  cases use with
  | send text =>
      simp only [act, send]
      split <;> simp
  | receive =>
      simp only [act, receive]
      split <;> simp
  | close => simp [act, close]

/-- **A step** at a pipe: what was queued or is sent now is received now or queued. -/
theorem queue_act (live : pipe.canReceive = true) (use : Use) :
    pipe.queue ++ use.sentTexts (pipe.act use).1 =
      use.receivedTexts (pipe.act use).1 ++ (pipe.act use).2.queue := by
  cases use with
  | send text =>
      cases canSend : pipe.canSend with
      | true => simp [act, send, canSend, live, Use.sentTexts, Use.receivedTexts]
      | false => simp [act, send, canSend, Use.sentTexts, Use.receivedTexts]
  | receive =>
      cases queued : pipe.queue with
      | nil =>
          cases canSend : pipe.canSend with
          | true => simp [act, receive, queued, canSend, Use.sentTexts, Use.receivedTexts]
          | false => simp [act, receive, queued, canSend, Use.sentTexts, Use.receivedTexts]
      | cons text rest => simp [act, receive, queued, Use.sentTexts, Use.receivedTexts]
  | close => simp [act, close, Use.sentTexts, Use.receivedTexts]

end Pipe

namespace Channel

open Pipe (Use Outcome)

/-- What someone does at one of the ends. -/
structure Action where
  side : Side
  use : Use
deriving DecidableEq

/-- The end that the messages come from that an action is about. -/
def Action.origin (action : Action) : Side :=
  match action.use with
  | .send _ | .close => action.side
  | .receive => action.side.opposite

/-- Do something at an end of a channel. -/
def act (channel : Channel) (action : Action) : Outcome × Channel :=
  match action.use with
  | .send text => (.sent (channel.send action.side text).1, (channel.send action.side text).2)
  | .receive => (.received (channel.receive action.side).1, (channel.receive action.side).2)
  | .close => (.closed, channel.close action.side)

/-- The channel after some actions. -/
def after (channel : Channel) (actions : List Action) : Channel :=
  actions.foldl (fun channel action => (channel.act action).2) channel

/-- Actions, one after another, with what comes of them. -/
def log (channel : Channel) : List Action → List (Action × Outcome)
  | [] => []
  | action :: rest => (action, (channel.act action).1) :: (channel.act action).2.log rest

/-- The messages whose sending at an end worked, in order. -/
def delivered (side : Side) (history : List (Action × Outcome)) : List String :=
  (history.filter (·.1.side = side)).flatMap fun entry => entry.1.use.sentTexts entry.2

/-- The messages that were received at an end, in order. -/
def received (side : Side) (history : List (Action × Outcome)) : List String :=
  (history.filter (·.1.side = side)).flatMap fun entry => entry.1.use.receivedTexts entry.2

variable {channel : Channel} {side : Side}

/-- An action does to the pipe of its direction what it would do to the pipe alone, and nothing to
the other pipe. -/
theorem act_eq (action : Action) :
    channel.act action =
      (((channel.outgoing action.origin).act action.use).1,
        channel.setOutgoing action.origin ((channel.outgoing action.origin).act action.use).2) := by
  obtain ⟨here, use⟩ := action
  cases use <;> cases here <;> rfl

theorem outgoing_act {action : Action} (about : action.origin = side) :
    (channel.act action).2.outgoing side = ((channel.outgoing side).act action.use).2 := by
  subst about
  rw [act_eq]
  cases action.origin <;> rfl

theorem outgoing_act_of_ne {action : Action} (apart : action.origin ≠ side) :
    (channel.act action).2.outgoing side = channel.outgoing side := by
  rw [act_eq]
  cases origin : action.origin <;> cases side <;> first | rfl | exact absurd origin apart

/-- What is sent at an end is about the messages from this end. -/
theorem delivered_cons (action : Action) (outcome : Outcome) (rest : List (Action × Outcome)) :
    delivered side ((action, outcome) :: rest) =
      (if action.origin = side then action.use.sentTexts outcome else []) ++
        delivered side rest := by
  obtain ⟨here, use⟩ := action
  cases use with
  | send | close =>
      by_cases same : here = side
      · simp [delivered, Action.origin, same]
      · simp [delivered, Action.origin, same]
  | receive =>
      by_cases same : here = side
      · simp [delivered, same, Use.sentTexts]
      · simp [delivered, same, Use.sentTexts]

/-- What is received at an end is about the messages from the other end. -/
theorem received_cons (action : Action) (outcome : Outcome) (rest : List (Action × Outcome)) :
    received side.opposite ((action, outcome) :: rest) =
      (if action.origin = side then action.use.receivedTexts outcome else []) ++
        received side.opposite rest := by
  obtain ⟨here, use⟩ := action
  cases use with
  | send | close =>
      by_cases same : here = side.opposite
      · simp [received, same, Use.receivedTexts]
      · simp [received, same, Use.receivedTexts]
  | receive =>
      have turned : Action.origin ⟨here, .receive⟩ = side ↔ here = side.opposite := by
        cases here <;> cases side <;> simp [Action.origin, Side.opposite]
      simp only [turned]
      by_cases same : here = side.opposite
      · simp [received, same]
      · simp [received, same]

theorem canReceive_after (actions : List Action) :
    ((channel.after actions).outgoing side).canReceive = (channel.outgoing side).canReceive := by
  induction actions generalizing channel with
  | nil => rfl
  | cons action rest ih =>
      refine (@ih (channel.act action).2).trans ?_
      by_cases about : action.origin = side
      · rw [outgoing_act about, Pipe.canReceive_act]
      · rw [outgoing_act_of_ne about]

/-- After some actions an end can send unless one of them closed it. -/
theorem canSend_after (actions : List Action) :
    ((channel.after actions).outgoing side).canSend =
      ((channel.outgoing side).canSend && decide (⟨side, .close⟩ ∉ actions)) := by
  induction actions generalizing channel with
  | nil => simp [after]
  | cons action rest ih =>
      refine (@ih (channel.act action).2).trans ?_
      by_cases about : action.origin = side
      · have closes : action.use = .close ↔ action = ⟨side, .close⟩ := by
          obtain ⟨here, use⟩ := action
          cases use <;> simp_all [Action.origin]
        rw [outgoing_act about, Pipe.canSend_act, Bool.and_assoc, ← Bool.decide_and]
        simp [closes, eq_comm]
      · have other : ⟨side, .close⟩ ≠ action := by
          rintro rfl
          exact about rfl
        rw [outgoing_act_of_ne about]
        simp [other]

/-- **A run** at a channel: in each direction, what was queued or was sent is received or
queued. -/
theorem queue_after (live : (channel.outgoing side).canReceive = true) (actions : List Action) :
    (channel.outgoing side).queue ++ delivered side (channel.log actions) =
      received side.opposite (channel.log actions) ++
        ((channel.after actions).outgoing side).queue := by
  induction actions generalizing channel with
  | nil => simp [log, after, delivered, received]
  | cons action rest ih =>
      have run := @ih (channel.act action).2
      rw [log, delivered_cons, received_cons]
      by_cases about : action.origin = side
      · rw [outgoing_act about, Pipe.canReceive_act] at run
        have step := Pipe.queue_act live action.use
        have outcome : (channel.act action).1 = ((channel.outgoing side).act action.use).1 := by
          rw [act_eq, about]
        rw [if_pos about, if_pos about, outcome, ← List.append_assoc, step, List.append_assoc,
          run live, List.append_assoc]
        rfl
      · rw [outgoing_act_of_ne about] at run
        rw [if_neg about, if_neg about, List.nil_append, List.nil_append]
        exact run live

/-- What comes of the actions in a direction does not depend on those in the other direction. -/
theorem log_filter {other : Channel} (same : channel.outgoing side = other.outgoing side)
    (actions : List Action) :
    (channel.log actions).filter (·.1.origin = side) =
      other.log (actions.filter (·.origin = side)) := by
  induction actions generalizing channel other with
  | nil => rfl
  | cons action rest ih =>
      by_cases about : action.origin = side
      · have outcome : (channel.act action).1 = (other.act action).1 := by
          rw [act_eq, act_eq, about, same]
        have next : (channel.act action).2.outgoing side = (other.act action).2.outgoing side := by
          rw [outgoing_act about, outgoing_act about, same]
        simp only [log, List.filter_cons, about, decide_true, ↓reduceIte, outcome, ih next]
      · have next : (channel.act action).2.outgoing side = other.outgoing side := by
          rw [outgoing_act_of_ne about, same]
        simp only [log, List.filter_cons, about, decide_false, Bool.false_eq_true, ↓reduceIte,
          ih next]

theorem receive_opposite (channel : Channel) (side : Side) :
    (channel.receive side.opposite).1 = (channel.outgoing side).receive.1 := by
  cases side <;> rfl

theorem setOutgoing_outgoing (channel : Channel) (side : Side) :
    channel.setOutgoing side (channel.outgoing side) = channel := by
  cases side <;> rfl

/-- **Crossed ends.** Let anything be done at the two ends of a new channel, in any order. Then what
was received at an end and what still waits there make up, in order, what was sent at the other end,
and receiving finds the first that waits. It finds that the other end has gone when that was closed
and all that it sent was received, and only then. Sending at an end that was closed is refused and
changes nothing; at one that was not it works. And all that comes of what is done about the messages
from an end is what would come of it if nothing else were done. -/
theorem ends_cross (actions : List Action) (side : Side) :
    let history := log {} actions
    let channel := after {} actions
    (∃ waiting, delivered side history = received side.opposite history ++ waiting ∧
      (channel.receive side.opposite).1 =
        match waiting with
        | text :: _ => .message text
        | [] => if ⟨side, .close⟩ ∈ actions then .gone else .waiting) ∧
    ((channel.receive side.opposite).1 = .gone ↔
      ⟨side, .close⟩ ∈ actions ∧ received side.opposite history = delivered side history) ∧
    (∀ text, ⟨side, .close⟩ ∈ actions → channel.send side text = (.error .closed, channel)) ∧
    (∀ text, ⟨side, .close⟩ ∉ actions → (channel.send side text).1 = .ok ()) ∧
    history.filter (·.1.origin = side) = log {} (actions.filter (·.origin = side)) := by
  intro history channel
  have fresh : outgoing {} side = {} := by
    cases side <;> rfl
  have live : (channel.outgoing side).canReceive = true := by
    rw [canReceive_after, fresh]
  have canSend : (channel.outgoing side).canSend = decide (⟨side, .close⟩ ∉ actions) := by
    rw [canSend_after, fresh, Bool.true_and]
  have queued : delivered side history =
      received side.opposite history ++ (channel.outgoing side).queue := by
    have run := @queue_after {} side (by rw [fresh]) actions
    rwa [fresh, List.nil_append] at run
  have receives : (channel.receive side.opposite).1 =
      match (channel.outgoing side).queue with
      | text :: _ => .message text
      | [] => if ⟨side, .close⟩ ∈ actions then .gone else .waiting := by
    rw [receive_opposite, Pipe.receive]
    cases (channel.outgoing side).queue with
    | cons text rest => rfl
    | nil =>
        by_cases closed : ⟨side, .close⟩ ∈ actions
        · simp [canSend, closed]
        · simp [canSend, closed]
  refine ⟨⟨_, queued, receives⟩, ?_, ?_, ?_, log_filter rfl actions⟩
  · rw [receives, queued, List.self_eq_append_right]
    cases (channel.outgoing side).queue with
    | cons text rest => simp
    | nil => simp
  · intro text closed
    have refused : (channel.outgoing side).send text = (.error .closed, channel.outgoing side) := by
      simp [Pipe.send, canSend, closed]
    rw [send, refused]
    exact congrArg _ (channel.setOutgoing_outgoing side)
  · intro text opened
    simp [send, Pipe.send, canSend, opened, live]

end Channel
end Toolsmith
