import Mathlib
import Toolsmith.Server.Session

/-! # Serving in order

A loop, its client and whoever asks the server to stop act side by side. A `Scene` is a moment of
their play, `Loop.Acts` a step of the loop and `Loop.Happens` one of the others; where the loop
finds both a message and a request to stop, either may be taken. Over a transport that keeps
messages in order (`Fifo`) the loop accounts for all it receives (`Loop.serves_in_order`): what it
sent is what the server answers, one after another, to the first of the client's messages; it stops
between two messages only, and without a request to stop only after the last one.
`Loop.advance_acts` says that a session plays along these steps.
-/

namespace Toolsmith

namespace Server

/-- The texts that a server answers to messages, one after another. -/
def replies (server : Server) : List String → List String
  | [] => []
  | text :: rest =>
    (match (server.handle text).1 with
      | .answer response => [response.text]
      | .silence | .crash => []) ++ (server.handle text).2.replies rest

/-- The server after messages. -/
def afterMessages (server : Server) (messages : List String) : Server :=
  messages.foldl (fun server text => (server.handle text).2) server

theorem replies_append (server : Server) (first second : List String) :
    server.replies (first ++ second) =
      server.replies first ++ (server.afterMessages first).replies second := by
  induction first generalizing server with
  | nil => rfl
  | cons text rest ih =>
      simp only [List.cons_append, replies, ih, List.append_assoc]
      rfl

theorem afterMessages_concat (server : Server) (messages : List String) (text : String) :
    server.afterMessages (messages ++ [text]) =
      ((server.afterMessages messages).handle text).2 := by
  simp only [afterMessages, List.foldl_append, List.foldl_cons, List.foldl_nil]

end Server

/-- A transport whose client is known: what the client sent waits in a queue. -/
structure Fifo {σ : Type} (transport : Transport σ) where
  /-- What was sent and not yet received, in order. -/
  queue : σ → List String
  /-- The client has closed its end. -/
  left : σ → Bool
  /-- The transport works. -/
  Works : σ → Prop
  /-- The client sends a message. -/
  arrive : σ → String → σ
  /-- The client closes its end. -/
  leave : σ → σ
  receive_message : ∀ {link text rest}, Works link → queue link = text :: rest →
    ∃ next, transport.receive link = (.message text, next) ∧ Works next ∧ queue next = rest ∧
      left next = left link
  receive_gone : ∀ {link}, Works link → queue link = [] → left link = true →
    ∃ next, transport.receive link = (.gone, next) ∧ Works next ∧ queue next = [] ∧
      left next = true
  receive_waiting : ∀ {link}, Works link → queue link = [] → left link = false →
    transport.receive link = (.waiting, link)
  send_ok : ∀ {link} text, Works link →
    ∃ next, transport.send link text = (.ok (), next) ∧ Works next ∧ queue next = queue link ∧
      left next = left link
  left_close : ∀ link, left (transport.close link).2 = left link
  arrive_works : ∀ {link} text, Works link → left link = false →
    Works (arrive link text) ∧ queue (arrive link text) = queue link ++ [text] ∧
      left (arrive link text) = false
  leave_works : ∀ {link}, Works link → Works (leave link) ∧ queue (leave link) = queue link
  left_leave : ∀ link, left (leave link) = true

namespace Loop

variable {σ : Type}

/-- What a loop is about to do. -/
inductive Phase where
  /-- To look whether the server was asked to stop before. -/
  | entering
  /-- To receive a message, or to notice a request to stop. -/
  | selecting
  | handling (message : String)
  | replying (response : String)
  | closing
  | ended (result : Except ProtocolError Unit)

/-- A moment of a loop and its client. -/
structure Scene (σ : Type) where
  phase : Phase
  server : Server
  link : σ
  /-- The server was asked to stop. -/
  stopped : Bool
  /-- What the client has sent so far. -/
  offered : List String
  /-- What the loop has received so far. -/
  taken : List String := []
  /-- What the loop has sent so far. -/
  sent : List String := []

/-- The phase after a message was handled. -/
def Phase.after : Server.Reaction → Phase
  | .silence => .selecting
  | .answer response => .replying response.text
  | .crash => .ended (.error crashError)

/-- A step of the loop. -/
inductive Acts (transport : Transport σ) (scene : Scene σ) : Scene σ → Prop
  | enter (entering : scene.phase = .entering) :
      Acts transport scene
        { scene with phase := if scene.stopped then .closing else .selecting }
  | receive {text : String} {link : σ} (selecting : scene.phase = .selecting)
      (received : transport.receive scene.link = (.message text, link)) :
      Acts transport scene
        { scene with phase := .handling text, link := link, taken := scene.taken ++ [text] }
  | miss {link : σ} (selecting : scene.phase = .selecting)
      (received : transport.receive scene.link = (.gone, link)) :
      Acts transport scene { scene with phase := .closing, link := link }
  | fail {error : ProtocolError} {link : σ} (selecting : scene.phase = .selecting)
      (received : transport.receive scene.link = (.failed error, link)) :
      Acts transport scene { scene with phase := .ended (.error error), link := link }
  | notice (selecting : scene.phase = .selecting) (stopped : scene.stopped = true) :
      Acts transport scene { scene with phase := .closing }
  | handle {text : String} (handling : scene.phase = .handling text) :
      Acts transport scene
        { scene with
          phase := .after (scene.server.handle text).1
          server := (scene.server.handle text).2 }
  | reply {text : String} {link : σ} (replying : scene.phase = .replying text)
      (delivered : transport.send scene.link text = (.ok (), link)) :
      Acts transport scene
        { scene with phase := .selecting, link := link, sent := scene.sent ++ [text] }
  | choke {text : String} {error : ProtocolError} {link : σ}
      (replying : scene.phase = .replying text)
      (refused : transport.send scene.link text = (.error error, link)) :
      Acts transport scene { scene with phase := .ended (.error error), link := link }
  | close (closing : scene.phase = .closing) :
      Acts transport scene
        { scene with
          phase := .ended (transport.close scene.link).1
          link := (transport.close scene.link).2 }

/-- A step of the client, or a request to stop. -/
inductive Happens {transport : Transport σ} (fifo : Fifo transport) (scene : Scene σ) :
    Scene σ → Prop
  | arrive (text : String) (present : fifo.left scene.link = false) :
      Happens fifo scene
        { scene with
          link := fifo.arrive scene.link text
          offered := scene.offered ++ [text] }
  | leave : Happens fifo scene { scene with link := fifo.leave scene.link }
  | stop : Happens fifo scene { scene with stopped := true }

/-- A step of anyone. -/
def Step {transport : Transport σ} (fifo : Fifo transport) (before after : Scene σ) : Prop :=
  Acts transport before after ∨ Happens fifo before after

/-- The moment at which a loop starts, with what the client sent before. -/
def Scene.start {transport : Transport σ} (fifo : Fifo transport) (server : Server) (link : σ)
    (stopped : Bool) : Scene σ :=
  { phase := .entering, server := server, link := link, stopped := stopped,
    offered := fifo.queue link }

section Invariant

variable {transport : Transport σ} (fifo : Fifo transport) (server : Server)

/-- How what was received and sent so far, and the state of the server, come from the server that
the loop started with. Closing the transport needs the condition `whole`. -/
inductive Answered (taken sent : List String) (now : Server) (whole : Prop) : Phase → Prop
  | entering (none : taken = []) (silent : sent = []) (same : now = server) :
      Answered taken sent now whole .entering
  | selecting (all : sent = server.replies taken) (reached : now = server.afterMessages taken) :
      Answered taken sent now whole .selecting
  | handling {answered : List String} {text : String} (last : taken = answered ++ [text])
      (others : sent = server.replies answered) (reached : now = server.afterMessages answered) :
      Answered taken sent now whole (.handling text)
  | replying {answered : List String} {text : String} {response : Response}
      (last : taken = answered ++ [text]) (others : sent = server.replies answered)
      (reached : now = server.afterMessages taken)
      (answers : ((server.afterMessages answered).handle text).1 = .answer response) :
      Answered taken sent now whole (.replying response.text)
  | closing (all : sent = server.replies taken) (complete : whole) :
      Answered taken sent now whole .closing
  | closed {link : σ} (works : fifo.Works link) (all : sent = server.replies taken)
      (complete : whole) : Answered taken sent now whole (.ended (transport.close link).1)
  | crashed {answered : List String} {text : String} (last : taken = answered ++ [text])
      (others : sent = server.replies answered)
      (crashes : ((server.afterMessages answered).handle text).1 = .crash) :
      Answered taken sent now whole (.ended (.error crashError))

variable {fifo server}

theorem Answered.imp {taken sent : List String} {now : Server} {whole more : Prop} {phase : Phase}
    (account : Answered fifo server taken sent now whole phase) (weaker : whole → more) :
    Answered fifo server taken sent now more phase := by
  cases account with
  | entering none silent same => exact .entering none silent same
  | selecting all reached => exact .selecting all reached
  | handling last others reached => exact .handling last others reached
  | replying last others reached answers => exact .replying last others reached answers
  | closing all complete => exact .closing all (weaker complete)
  | closed works all complete => exact .closed works all (weaker complete)
  | crashed last others crashes => exact .crashed last others crashes

theorem Answered.entered {taken sent : List String} {now : Server} {whole : Prop}
    (account : Answered fifo server taken sent now whole .entering) :
    Answered fifo server taken sent now whole .selecting := by
  cases account with
  | entering none silent same =>
      rw [none, silent, same]
      exact .selecting rfl rfl

theorem Answered.received {taken sent : List String} {now : Server} {whole more : Prop}
    (account : Answered fifo server taken sent now whole .selecting) (text : String) :
    Answered fifo server (taken ++ [text]) sent now more (.handling text) := by
  cases account with
  | selecting all reached => exact .handling rfl all reached

/-- When a message was handled, its answer is what remains to be sent. -/
theorem Answered.handled {taken sent : List String} {now : Server} {whole : Prop} {text : String}
    (account : Answered fifo server taken sent now whole (.handling text)) :
    Answered fifo server taken sent (now.handle text).2 whole (.after (now.handle text).1) := by
  cases account with
  | @handling answered _ last others reached =>
      have replied := server.replies_append answered [text]
      rw [← last] at replied
      rw [reached, ← server.afterMessages_concat, ← last]
      cases reaction : ((server.afterMessages answered).handle text).1 with
      | silence =>
          refine .selecting ?_ rfl
          rw [replied, others]
          simp [Server.replies, reaction]
      | answer response => exact .replying last others rfl reaction
      | crash => exact .crashed last others reaction

theorem Answered.replied {taken sent : List String} {now : Server} {whole : Prop} {text : String}
    (account : Answered fifo server taken sent now whole (.replying text)) :
    Answered fifo server taken (sent ++ [text]) now whole .selecting := by
  cases account with
  | @replying answered _ response last others reached answers =>
      refine .selecting ?_ reached
      rw [last, server.replies_append, others]
      simp [Server.replies, answers]

theorem Answered.stops {taken sent : List String} {now : Server} {whole more : Prop}
    (account : Answered fifo server taken sent now whole .selecting) (complete : more) :
    Answered fifo server taken sent now more .closing := by
  cases account with
  | selecting all reached => exact .closing all complete

theorem Answered.closes {taken sent : List String} {now : Server} {whole : Prop} {link : σ}
    (account : Answered fifo server taken sent now whole .closing) (works : fifo.Works link) :
    Answered fifo server taken sent now whole (.ended (transport.close link).1) := by
  cases account with
  | closing all complete => exact .closed works all complete

variable (fifo server)

/-- The client is gone, and all it sent was received. -/
def Scene.Complete (scene : Scene σ) : Prop :=
  fifo.left scene.link = true ∧ scene.taken = scene.offered

/-- The steps that a loop has left at most when nothing more arrives: up to three for a message. -/
def Scene.remaining (scene : Scene σ) : Nat :=
  match scene.phase with
  | .entering => 3 * (fifo.queue scene.link).length + 3
  | .selecting => 3 * (fifo.queue scene.link).length + 2
  | .handling _ => 3 * (fifo.queue scene.link).length + 4
  | .replying _ => 3 * (fifo.queue scene.link).length + 3
  | .closing => 3 * (fifo.queue scene.link).length + 1
  | .ended _ => 0

/-- A loop waits only for a client that is there, and has sent nothing more, or for a request to
stop. -/
def Scene.Waits (scene : Scene σ) : Prop :=
  scene.phase = .selecting ∧ fifo.queue scene.link = [] ∧ fifo.left scene.link = false ∧
    scene.stopped = false

/-- What holds at every moment of a loop that started with this server. -/
structure Faithful (scene : Scene σ) : Prop where
  account : Answered fifo server scene.taken scene.sent scene.server
    (scene.stopped = false → scene.Complete fifo) scene.phase
  received : scene.taken <+: scene.offered
  works : (∃ result, scene.phase = .ended result) ∨
    fifo.Works scene.link ∧ scene.taken ++ fifo.queue scene.link = scene.offered

variable {fifo server}

theorem Faithful.working {scene : Scene σ} (faithful : Faithful fifo server scene)
    (running : ∀ result, scene.phase ≠ .ended result) :
    fifo.Works scene.link ∧ scene.taken ++ fifo.queue scene.link = scene.offered := by
  rcases faithful.works with ⟨result, ended⟩ | works
  · exact absurd ended (running result)
  · exact works

theorem faithful_start {link : σ} (works : fifo.Works link) (stopped : Bool) :
    Faithful fifo server (.start fifo server link stopped) where
  account := .entering rfl rfl rfl
  received := List.nil_prefix
  works := .inr ⟨works, rfl⟩

/-- What a loop finds when it receives: the oldest message, the news that the client is gone, or
nothing. -/
inductive Finds (fifo : Fifo transport) (scene : Scene σ) : Prop
  | message {text : String} {link : σ}
      (received : transport.receive scene.link = (.message text, link)) (works : fifo.Works link)
      (queued : fifo.queue scene.link = text :: fifo.queue link)
      (same : fifo.left link = fifo.left scene.link) : Finds fifo scene
  | gone {link : σ} (received : transport.receive scene.link = (.gone, link))
      (works : fifo.Works link) (queued : fifo.queue scene.link = []) (empty : fifo.queue link = [])
      (left : fifo.left scene.link = true) (same : fifo.left link = true) : Finds fifo scene
  | waiting (received : transport.receive scene.link = (.waiting, scene.link))
      (queued : fifo.queue scene.link = []) (present : fifo.left scene.link = false) :
      Finds fifo scene

theorem Faithful.finds {scene : Scene σ} (faithful : Faithful fifo server scene)
    (selecting : scene.phase = .selecting) : Finds fifo scene := by
  obtain ⟨works, _⟩ := faithful.working (by simp [selecting])
  cases queued : fifo.queue scene.link with
  | cons text rest =>
      obtain ⟨link, received, works, tail, same⟩ := fifo.receive_message works queued
      exact .message received works (by rw [queued, tail]) same
  | nil =>
      cases left : fifo.left scene.link with
      | true =>
          obtain ⟨link, received, works, empty, same⟩ := fifo.receive_gone works queued left
          exact .gone received works queued empty left same
      | false => exact .waiting (fifo.receive_waiting works queued left) queued left

/-- A message that was received is the first of those in the queue. -/
theorem Faithful.of_message {scene : Scene σ} (faithful : Faithful fifo server scene)
    (selecting : scene.phase = .selecting) {text : String} {link : σ}
    (received : transport.receive scene.link = (.message text, link)) :
    fifo.Works link ∧ fifo.queue scene.link = text :: fifo.queue link ∧
      fifo.left link = fifo.left scene.link := by
  cases faithful.finds selecting with
  | message found works queued same =>
      cases received.symm.trans found
      exact ⟨works, queued, same⟩
  | gone found => cases received.symm.trans found
  | waiting found => cases received.symm.trans found

/-- The client is found gone only when the queue is empty. -/
theorem Faithful.of_gone {scene : Scene σ} (faithful : Faithful fifo server scene)
    (selecting : scene.phase = .selecting) {link : σ}
    (received : transport.receive scene.link = (.gone, link)) :
    fifo.Works link ∧ fifo.queue scene.link = [] ∧ fifo.queue link = [] ∧
      fifo.left scene.link = true ∧ fifo.left link = true := by
  cases faithful.finds selecting with
  | message found => cases received.symm.trans found
  | gone found works queued empty left same =>
      cases received.symm.trans found
      exact ⟨works, queued, empty, left, same⟩
  | waiting found => cases received.symm.trans found

theorem Faithful.not_failed {scene : Scene σ} (faithful : Faithful fifo server scene)
    (selecting : scene.phase = .selecting) {error : ProtocolError} {link : σ} :
    transport.receive scene.link ≠ (.failed error, link) := by
  intro received
  cases faithful.finds selecting with
  | message found => cases received.symm.trans found
  | gone found => cases received.symm.trans found
  | waiting found => cases received.symm.trans found

/-- A reply is delivered without a failure, and takes nothing from the queue. -/
theorem Faithful.of_delivered {scene : Scene σ} (faithful : Faithful fifo server scene)
    {text : String} (replying : scene.phase = .replying text)
    {result : Except ProtocolError Unit} {link : σ}
    (delivered : transport.send scene.link text = (result, link)) :
    result = .ok () ∧ fifo.Works link ∧ fifo.queue link = fifo.queue scene.link ∧
      fifo.left link = fifo.left scene.link := by
  obtain ⟨works, _⟩ := faithful.working (by simp [replying])
  obtain ⟨_, found, facts⟩ := fifo.send_ok text works
  cases delivered.symm.trans found
  exact ⟨rfl, facts⟩

/-- **A step of the loop** keeps account. -/
theorem Faithful.acts {before after : Scene σ} (faithful : Faithful fifo server before)
    (step : Acts transport before after) : Faithful fifo server after := by
  have account := faithful.account
  cases step with
  | enter entering =>
      have works := faithful.working (by simp [entering])
      rw [entering] at account
      refine ⟨?_, faithful.received, .inr works⟩
      change Answered fifo server before.taken before.sent before.server
        (before.stopped = false → before.Complete fifo)
        (if before.stopped = true then .closing else .selecting)
      by_cases stopped : before.stopped = true
      · rw [if_pos stopped]
        exact account.entered.stops fun running => nomatch stopped.symm.trans running
      · rw [if_neg stopped]
        exact account.entered
  | @receive text link selecting received =>
      obtain ⟨_, conserved⟩ := faithful.working (by simp [selecting])
      obtain ⟨works, queued, _⟩ := faithful.of_message selecting received
      have same : before.taken ++ [text] ++ fifo.queue link = before.offered := by
        rw [List.append_assoc, List.singleton_append, ← queued, conserved]
      rw [selecting] at account
      exact ⟨account.received text, ⟨_, same⟩, .inr ⟨works, same⟩⟩
  | miss selecting received =>
      obtain ⟨_, conserved⟩ := faithful.working (by simp [selecting])
      obtain ⟨works, queued, empty, _, left⟩ := faithful.of_gone selecting received
      rw [queued, List.append_nil] at conserved
      rw [selecting] at account
      refine ⟨account.stops fun _ => ⟨left, conserved⟩, faithful.received, .inr ⟨works, ?_⟩⟩
      rw [empty, List.append_nil]
      exact conserved
  | fail selecting received => exact absurd received (faithful.not_failed selecting)
  | notice selecting stopped =>
      have works := faithful.working (by simp [selecting])
      rw [selecting] at account
      refine ⟨account.stops fun running => ?_, faithful.received, .inr works⟩
      rw [stopped] at running
      cases running
  | handle handling =>
      have works := faithful.working (by simp [handling])
      rw [handling] at account
      exact ⟨account.handled, faithful.received, .inr works⟩
  | reply replying delivered =>
      obtain ⟨_, conserved⟩ := faithful.working (by simp [replying])
      obtain ⟨_, works, same, left⟩ := faithful.of_delivered replying delivered
      rw [replying] at account
      refine ⟨account.replied.imp fun complete running => ?_, faithful.received, .inr ⟨works, ?_⟩⟩
      · exact ⟨left.trans (complete running).1, (complete running).2⟩
      · rw [same]
        exact conserved
  | choke replying refused => exact nomatch (faithful.of_delivered replying refused).1
  | close closing =>
      obtain ⟨works, _⟩ := faithful.working (by simp [closing])
      rw [closing] at account
      refine ⟨(account.closes works).imp fun complete running => ?_, faithful.received,
        .inl ⟨_, rfl⟩⟩
      exact ⟨(fifo.left_close before.link).trans (complete running).1, (complete running).2⟩

/-- **A step of the others** keeps account too. -/
theorem Faithful.happens {before after : Scene σ} (faithful : Faithful fifo server before)
    (step : Happens fifo before after) : Faithful fifo server after := by
  cases step with
  | arrive text present =>
      refine ⟨faithful.account.imp fun complete running => ?_,
        faithful.received.trans (List.prefix_append _ _), ?_⟩
      · -- A client that is still there has not been missed.
        have left := (complete running).1
        rw [present] at left
        cases left
      · rcases faithful.works with ended | ⟨works, conserved⟩
        · exact .inl ended
        · obtain ⟨works, queued, _⟩ := fifo.arrive_works text works present
          refine .inr ⟨works, ?_⟩
          rw [queued, ← List.append_assoc, conserved]
  | leave =>
      refine ⟨faithful.account.imp fun complete running => ?_, faithful.received, ?_⟩
      · exact ⟨fifo.left_leave before.link, (complete running).2⟩
      · rcases faithful.works with ended | ⟨works, conserved⟩
        · exact .inl ended
        · obtain ⟨works, queued⟩ := fifo.leave_works works
          refine .inr ⟨works, ?_⟩
          rw [queued]
          exact conserved
  | stop => exact ⟨faithful.account.imp fun _ => (nomatch ·), faithful.received, faithful.works⟩

/-- **Every moment** of a loop over a working transport is accounted for. -/
theorem faithful_of_reached {link : σ} (works : fifo.Works link) {stopped : Bool} {scene : Scene σ}
    (reached : Relation.ReflTransGen (Step fifo) (.start fifo server link stopped) scene) :
    Faithful fifo server scene := by
  induction reached with
  | refl => exact faithful_start works stopped
  | tail _ step ih =>
      rcases step with acted | happened
      · exact ih.acts acted
      · exact ih.happens happened

/-- Each step of the loop leaves less to be done. -/
theorem Faithful.remaining_lt {before after : Scene σ} (faithful : Faithful fifo server before)
    (step : Acts transport before after) : after.remaining fifo < before.remaining fifo := by
  cases step with
  | enter entering =>
      cases stopped : before.stopped with
      | true => simp [Scene.remaining, entering]
      | false => simp [Scene.remaining, entering]
  | receive selecting received =>
      obtain ⟨_, queued, _⟩ := faithful.of_message selecting received
      simp only [Scene.remaining, selecting, queued, List.length_cons]
      omega
  | miss selecting received =>
      obtain ⟨_, queued, empty, _⟩ := faithful.of_gone selecting received
      simp only [Scene.remaining, selecting, queued, empty]
      omega
  | fail selecting received =>
      simp only [Scene.remaining, selecting]
      omega
  | notice selecting stopped =>
      simp only [Scene.remaining, selecting]
      omega
  | @handle text handling =>
      simp only [Scene.remaining, handling]
      cases (before.server.handle text).1 with
      | silence => simp only [Phase.after]; omega
      | answer response => simp only [Phase.after]; omega
      | crash => simp only [Phase.after]; omega
  | reply replying delivered =>
      obtain ⟨_, _, same, _⟩ := faithful.of_delivered replying delivered
      simp only [Scene.remaining, replying, same]
      omega
  | choke replying refused =>
      simp only [Scene.remaining, replying]
      omega
  | close closing =>
      simp only [Scene.remaining, closing]
      omega

/-- The loop alone changes nothing about what the others did. -/
theorem Faithful.others_acts {before after : Scene σ} (faithful : Faithful fifo server before)
    (step : Acts transport before after) :
    fifo.left after.link = fifo.left before.link ∧ after.stopped = before.stopped ∧
      after.offered = before.offered := by
  cases step with
  | receive selecting received =>
      exact ⟨(faithful.of_message selecting received).2.2, rfl, rfl⟩
  | miss selecting received =>
      obtain ⟨_, _, _, left, same⟩ := faithful.of_gone selecting received
      exact ⟨same.trans left.symm, rfl, rfl⟩
  | fail selecting received => exact absurd received (faithful.not_failed selecting)
  | reply replying delivered =>
      exact ⟨(faithful.of_delivered replying delivered).2.2.2, rfl, rfl⟩
  | choke replying refused => exact nomatch (faithful.of_delivered replying refused).1
  | close closing => exact ⟨fifo.left_close before.link, rfl, rfl⟩
  | enter entering => exact ⟨rfl, rfl, rfl⟩
  | notice selecting stopped => exact ⟨rfl, rfl, rfl⟩
  | handle handling => exact ⟨rfl, rfl, rfl⟩

/-- The loop can act unless it has ended or waits for the others. -/
theorem Faithful.acts_or_waits {scene : Scene σ} (faithful : Faithful fifo server scene) :
    (∃ next, Acts transport scene next) ∨ (∃ result, scene.phase = .ended result) ∨
      scene.Waits fifo := by
  cases phase : scene.phase with
  | entering => exact .inl ⟨_, .enter phase⟩
  | selecting =>
      cases faithful.finds phase with
      | message received => exact .inl ⟨_, .receive phase received⟩
      | gone received => exact .inl ⟨_, .miss phase received⟩
      | waiting received queued present =>
          cases stopped : scene.stopped with
          | true => exact .inl ⟨_, .notice phase stopped⟩
          | false => exact .inr (.inr ⟨phase, queued, present, stopped⟩)
  | handling text => exact .inl ⟨_, .handle phase⟩
  | replying text =>
      obtain ⟨works, _⟩ := faithful.working (by simp [phase])
      obtain ⟨_, delivered, _⟩ := fifo.send_ok text works
      exact .inl ⟨_, .reply phase delivered⟩
  | closing => exact .inl ⟨_, .close phase⟩
  | ended result => exact .inr (.inl ⟨result, rfl⟩)

/-- Nothing was received, and nothing will be. -/
def Scene.Untouched (scene : Scene σ) : Prop :=
  scene.stopped = true ∧ scene.taken = [] ∧ scene.sent = [] ∧
    (scene.phase = .entering ∨ scene.phase = .closing ∨ ∃ result, scene.phase = .ended result)

/-- A loop that was asked to stop before it received anything takes and sends nothing more. -/
theorem untouched_of_step {before after : Scene σ} (untouched : before.Untouched)
    (step : Step fifo before after) : after.Untouched := by
  obtain ⟨stopped, none, silent, phase⟩ := untouched
  rcases step with acted | happened
  · cases acted with
    | enter entering =>
        refine ⟨stopped, none, silent, .inr (.inl ?_)⟩
        simp only [stopped, ↓reduceIte]
    | close closing => exact ⟨stopped, none, silent, .inr (.inr ⟨_, rfl⟩)⟩
    | receive now | miss now | fail now | notice now | handle now | reply now | choke now =>
        rw [now] at phase
        simp at phase
  · cases happened with
    | arrive text present => exact ⟨stopped, none, silent, phase⟩
    | leave => exact ⟨stopped, none, silent, phase⟩
    | stop => exact ⟨rfl, none, silent, phase⟩

theorem untouched_of_reached {link : σ} {scene : Scene σ}
    (reached : Relation.ReflTransGen (Step fifo) (.start fifo server link true) scene) :
    scene.Untouched := by
  induction reached with
  | refl => exact ⟨rfl, rfl, rfl, .inl rfl⟩
  | tail _ step ih => exact untouched_of_step ih step

/-- On every way that the loop can take by itself it comes to a moment with this property. -/
inductive Finishes (transport : Transport σ) (goal : Scene σ → Prop) : Scene σ → Prop
  | now {scene : Scene σ} (met : goal scene) : Finishes transport goal scene
  | later {scene : Scene σ} (acts : ∃ next, Acts transport scene next)
      (comes : ∀ next, Acts transport scene next → Finishes transport goal next) :
      Finishes transport goal scene

/-- A loop that finishes reaches its goal by some of its steps. -/
theorem Finishes.exists_reached {goal : Scene σ → Prop} {scene : Scene σ}
    (finishes : Finishes transport goal scene) :
    ∃ final, Relation.ReflTransGen (Acts transport) scene final ∧ goal final := by
  induction finishes with
  | now met => exact ⟨_, .refl, met⟩
  | later acts _ comes =>
      obtain ⟨next, step⟩ := acts
      obtain ⟨final, run, met⟩ := comes next step
      exact ⟨final, .head step run, met⟩

/-- How a loop may end: with what closing the transport comes to, or because user code crashed in
the message received last. All messages before were answered, and without a request to stop these
are all. -/
structure EndsWith (fifo : Fifo transport) (server : Server) (scene : Scene σ)
    (result : Except ProtocolError Unit) : Prop where
  answered : scene.sent = server.replies scene.taken
  reason : (∃ link, fifo.Works link ∧ result = (transport.close link).1 ∧
      (scene.stopped = false → scene.taken = scene.offered)) ∨
    result = .error crashError ∧ ∃ before text, scene.taken = before ++ [text] ∧
      ((server.afterMessages before).handle text).1 = .crash

/-- A faithful loop has ended in one of the ways in which it may end. -/
theorem Faithful.endsWith {scene : Scene σ} (faithful : Faithful fifo server scene)
    {result : Except ProtocolError Unit} (ended : scene.phase = .ended result) :
    EndsWith fifo server scene result := by
  have account := faithful.account
  rw [ended] at account
  cases account with
  | closed works all complete =>
      exact ⟨all, .inl ⟨_, works, rfl, fun running => (complete running).2⟩⟩
  | crashed last others crashes =>
      refine ⟨?_, .inr ⟨rfl, _, _, last, crashes⟩⟩
      rw [last, server.replies_append, others]
      simp [Server.replies, crashes]

/-- At any moment all messages received were answered, but for one in progress. -/
theorem Faithful.exists_answered {scene : Scene σ} (faithful : Faithful fifo server scene) :
    ∃ answered, answered <+: scene.taken ∧ scene.taken.length ≤ answered.length + 1 ∧
      scene.sent = server.replies answered := by
  have but_one {answered : List String} {text : String} (last : scene.taken = answered ++ [text]) :
      answered <+: scene.taken ∧ scene.taken.length ≤ answered.length + 1 := by
    rw [last, List.length_append, List.length_singleton]
    exact ⟨List.prefix_append _ _, le_refl _⟩
  have all : scene.taken <+: scene.taken ∧ scene.taken.length ≤ scene.taken.length + 1 :=
    ⟨List.prefix_refl _, Nat.le_succ _⟩
  have account := faithful.account
  generalize scene.phase = phase at account
  cases account with
  | entering none silent same => exact ⟨_, all.1, all.2, by rw [silent, none]; rfl⟩
  | selecting sent reached => exact ⟨_, all.1, all.2, sent⟩
  | handling last others reached => exact ⟨_, (but_one last).1, (but_one last).2, others⟩
  | replying last others reached answers => exact ⟨_, (but_one last).1, (but_one last).2, others⟩
  | closing sent complete => exact ⟨_, all.1, all.2, sent⟩
  | closed works sent complete => exact ⟨_, all.1, all.2, sent⟩
  | crashed last others crashes => exact ⟨_, (but_one last).1, (but_one last).2, others⟩

/-- **The loop ends** when the client is gone or the server was asked to stop. The induction is on
the steps that the loop has left. -/
theorem Faithful.finishes {scene : Scene σ} (faithful : Faithful fifo server scene)
    (finishing : fifo.left scene.link = true ∨ scene.stopped = true) :
    Finishes transport (fun final => final.stopped = scene.stopped ∧
      final.offered = scene.offered ∧
      ∃ result, final.phase = .ended result ∧ EndsWith fifo server final result) scene := by
  induction left : scene.remaining fifo using Nat.strong_induction_on generalizing scene with
  | _ steps ih =>
      rcases faithful.acts_or_waits with acts | ⟨result, ended⟩ | ⟨_, _, present, running⟩
      · refine .later acts fun next step => ?_
        have fewer := faithful.remaining_lt step
        obtain ⟨gone, stopped, offered⟩ := faithful.others_acts step
        have still : fifo.left next.link = true ∨ next.stopped = true := by
          rwa [gone, stopped]
        have comes := ih _ (left ▸ fewer) (faithful.acts step) still rfl
        rwa [stopped, offered] at comes
      · exact .now ⟨rfl, rfl, result, ended, faithful.endsWith ended⟩
      · rw [present, running] at finishing
        simp at finishing

/-- A moment at which the loop stands where a computed loop does. -/
def Scene.Shows (scene : Scene σ) (state : LoopState σ) : Prop :=
  scene.server = state.server ∧ scene.link = state.link ∧
    match state.status with
    | .waiting => scene.phase = .selecting
    | .ended result => scene.phase = .ended result

/-- The loop handles a message, sends the answer if there is one, and goes on. -/
theorem run_of_message {fuel : Nat} {link next : σ} {text : String}
    (received : transport.receive link = (.message text, next)) :
    run transport (fuel + 1) server link =
      match (server.handle text).1 with
      | .crash => ⟨.ended (.error crashError), (server.handle text).2, next⟩
      | .silence => run transport fuel (server.handle text).2 next
      | .answer response =>
        match transport.send next response.text with
        | (.error error, next) => ⟨.ended (.error error), (server.handle text).2, next⟩
        | (.ok (), next) => run transport fuel (server.handle text).2 next := by
  simp only [run, received]
  obtain ⟨reaction, after⟩ := server.handle text
  cases reaction <;> rfl

/-- A computed loop acts as the loop does. -/
theorem Faithful.run_acts {scene : Scene σ} (faithful : Faithful fifo server scene)
    (selecting : scene.phase = .selecting) (fuel : Nat) :
    ∃ next, Relation.ReflTransGen (Acts transport) scene next ∧
      next.Shows (run transport fuel scene.server scene.link) := by
  induction fuel generalizing scene with
  | zero => exact ⟨scene, .refl, rfl, rfl, selecting⟩
  | succ fuel ih =>
      cases faithful.finds selecting with
      | waiting received =>
          rw [run, received]
          exact ⟨scene, .refl, rfl, rfl, selecting⟩
      | gone received =>
          rw [run, received]
          exact ⟨_, .tail (.single (.miss selecting received)) (.close rfl), rfl, rfl, rfl⟩
      | @message text link received works =>
          have handled : Acts transport { scene with
              phase := .handling text, link := link, taken := scene.taken ++ [text] }
            { scene with
              phase := .after (scene.server.handle text).1, server := (scene.server.handle text).2,
              link := link, taken := scene.taken ++ [text] } := .handle rfl
          have kept := (faithful.acts (.receive selecting received)).acts handled
          have reached := Relation.ReflTransGen.tail (.single (.receive selecting received)) handled
          rw [run_of_message received]
          cases reaction : (scene.server.handle text).1 with
          | silence =>
              rw [reaction] at kept reached
              obtain ⟨next, run, shown⟩ := ih kept rfl
              exact ⟨next, reached.trans run, shown⟩
          | crash =>
              rw [reaction] at reached
              exact ⟨_, reached, rfl, rfl, rfl⟩
          | answer response =>
              rw [reaction] at kept reached
              obtain ⟨sent, delivered, _⟩ := fifo.send_ok response.text works
              obtain ⟨next, run, shown⟩ := ih (kept.acts (.reply rfl delivered)) rfl
              simp only [delivered]
              exact ⟨next, (reached.tail (.reply rfl delivered)).trans run, shown⟩

/-- **A session plays the loop.** Where a session lets its loop run, from its start or later, it
takes steps of the loop. -/
theorem Faithful.advance_acts {scene : Scene σ} (faithful : Faithful fifo server scene)
    (ready : scene.phase = .entering ∨ scene.phase = .selecting) (session : Session)
    (same : session.server = scene.server) (asked : session.life.stopping = scene.stopped)
    (fuel : Nat) :
    ∃ next, Relation.ReflTransGen (Acts transport) scene next ∧
      next.Shows (session.advance transport fuel scene.link) := by
  unfold Session.advance
  rw [same, asked]
  cases stopped : scene.stopped with
  | true =>
      rcases ready with entering | selecting
      · have entered : Acts transport scene _ := .enter entering
        simp only [stopped, ↓reduceIte] at entered
        exact ⟨_, .tail (.single entered) (.close rfl), rfl, rfl, rfl⟩
      · exact ⟨_, .tail (.single (.notice selecting stopped)) (.close rfl), rfl, rfl, rfl⟩
  | false =>
      rcases ready with entering | selecting
      · have entered : Acts transport scene _ := .enter entering
        simp only [stopped, Bool.false_eq_true, ↓reduceIte] at entered
        obtain ⟨next, run, shown⟩ := (faithful.acts entered).run_acts rfl fuel
        exact ⟨next, .head entered run, shown⟩
      · exact faithful.run_acts selecting fuel

end Invariant

/-- **Serving in order.** Let a loop start over a transport that works and keeps messages in order,
let the client send and close its end, and let the server be asked to stop, at any moments. Then
what the loop has sent is always what the server answers, one after another, to the first messages
of the client; all it received is answered but for one message in progress. A loop that ended has
answered all that it received, and all that was sent unless it was asked to stop; it ended with what
closing the transport came to, or because user code crashed in the last message. It does end when
the client is gone or when it was asked to stop, and when it was asked before it started it receives
nothing. A session plays along. -/
theorem serves_in_order {transport : Transport σ} (fifo : Fifo transport) (server : Server)
    {link : σ} (works : fifo.Works link) {stopped : Bool} {scene : Scene σ}
    (reached : Relation.ReflTransGen (Step fifo) (.start fifo server link stopped) scene) :
    (∃ answered, answered <+: scene.taken ∧ scene.taken <+: scene.offered ∧
      scene.taken.length ≤ answered.length + 1 ∧ scene.sent = server.replies answered) ∧
    (∀ result, scene.phase = .ended result → EndsWith fifo server scene result) ∧
    (fifo.left scene.link = true ∨ scene.stopped = true →
      Finishes transport (fun final => final.stopped = scene.stopped ∧
        final.offered = scene.offered ∧
        ∃ result, final.phase = .ended result ∧ EndsWith fifo server final result) scene) ∧
    (stopped = true → scene.taken = [] ∧ scene.sent = [] ∧
      ∀ result, scene.phase = .ended result →
        ∃ before, fifo.Works before ∧ result = (transport.close before).1) ∧
    ∀ (session : Session) (fuel : Nat), scene.phase = .entering ∨ scene.phase = .selecting →
      session.server = scene.server → session.life.stopping = scene.stopped →
        ∃ next, Relation.ReflTransGen (Acts transport) scene next ∧
          next.Shows (session.advance transport fuel scene.link) := by
  have faithful := faithful_of_reached works reached
  refine ⟨?_, fun result ended => faithful.endsWith ended, faithful.finishes, ?_, ?_⟩
  · obtain ⟨answered, first, but_one, sent⟩ := faithful.exists_answered
    exact ⟨answered, first, faithful.received, but_one, sent⟩
  · rintro rfl
    obtain ⟨_, none, silent, _⟩ := untouched_of_reached reached
    refine ⟨none, silent, fun result ended => ?_⟩
    rcases (faithful.endsWith ended).reason with
      ⟨before, works, closed, _⟩ | ⟨_, before, _, last, _⟩
    · exact ⟨before, works, closed⟩
    · rw [none] at last
      cases before <;> cases last
  · intro session fuel ready same asked
    exact faithful.advance_acts ready session same asked fuel

end Loop

/-- A channel that no end was dropped of keeps what its client sends in order. -/
def Channel.fifo : Fifo (Channel.transport .right) where
  queue channel := channel.fromLeft.queue
  left channel := !channel.fromLeft.canSend
  Works channel := channel.fromLeft.canReceive = true ∧ channel.fromRight.canSend = true ∧
    channel.fromRight.canReceive = true
  arrive channel text := (channel.send .left text).2
  leave channel := channel.close .left
  receive_message := by
    rintro ⟨⟨queue, canSend, canReceive⟩, right⟩ text rest works rfl
    exact ⟨_, rfl, works, rfl, rfl⟩
  receive_gone := by
    rintro ⟨⟨queue, canSend, canReceive⟩, right⟩ works rfl left
    cases canSend
    · exact ⟨_, rfl, works, rfl, rfl⟩
    · cases left
  receive_waiting := by
    rintro ⟨⟨queue, canSend, canReceive⟩, right⟩ works rfl present
    cases canSend
    · cases present
    · rfl
  send_ok := by
    rintro ⟨left, ⟨queue, _, _⟩⟩ text ⟨receives, rfl, rfl⟩
    exact ⟨_, rfl, ⟨receives, rfl, rfl⟩, rfl, rfl⟩
  left_close := fun _ => rfl
  arrive_works := by
    rintro ⟨⟨queue, canSend, _⟩, right⟩ text ⟨rfl, works⟩ present
    cases canSend
    · cases present
    · exact ⟨⟨rfl, works⟩, rfl, rfl⟩
  leave_works := fun works => ⟨works, rfl⟩
  left_leave := fun _ => rfl

namespace Loop

def pingMessage : String := "\x7b\"jsonrpc\":\"2.0\",\"id\":1,\"method\":\"ping\"\x7d"

def pingAnswer : String := "\x7b\"jsonrpc\":\"2.0\",\"id\":1,\"result\":\x7b\x7d\x7d"

/-- A channel whose client asked once and went away. -/
def askedOnce : Channel := { fromLeft := { queue := [pingMessage], canSend := false } }

def plainServer : Server := .make "s" "1" {} {}

theorem handle_pingMessage :
    (plainServer.handle pingMessage).1 = .answer (.success (.integer 1) .empty) := by
  have read : Request.read pingMessage = .ok ⟨"2.0", some (.integer 1), "ping", none⟩ := by cbv
  rw [Server.handle, read]
  rfl

theorem replies_pingMessage : plainServer.replies [pingMessage] = [pingAnswer] := by
  have written : (Response.success (.integer 1) .empty).text = pingAnswer := by cbv
  simp only [Server.replies, handle_pingMessage, written, List.append_nil]

/-- A client that went away gets its answer. -/
theorem serves_in_order_of_askedOnce :
    Channel.fifo.Works askedOnce ∧ ∃ scene,
      Relation.ReflTransGen (Step Channel.fifo)
        (.start Channel.fifo plainServer askedOnce false) scene ∧
      scene.phase = .ended (.ok ()) ∧ scene.taken = [pingMessage] ∧ scene.sent = [pingAnswer] := by
  have works : Channel.fifo.Works askedOnce := ⟨rfl, rfl, rfl⟩
  have begins : Relation.ReflTransGen (Step Channel.fifo)
      (.start Channel.fifo plainServer askedOnce false) _ := .refl
  obtain ⟨_, _, finishes, _⟩ := serves_in_order Channel.fifo plainServer works begins
  obtain ⟨final, acts, running, offered, result, ended, ends⟩ :=
    (finishes (.inl rfl)).exists_reached
  have reached : Relation.ReflTransGen (Step Channel.fifo) _ final :=
    Relation.ReflTransGen.mono (fun _ _ => Or.inl) _ _ acts
  obtain ⟨⟨_, _, received, _⟩, _⟩ := serves_in_order Channel.fifo plainServer works reached
  rw [offered] at received
  rcases ends.reason with ⟨link, _, closed, whole⟩ | ⟨_, before, text, last, crashes⟩
  · have taken : final.taken = [pingMessage] := (whole running).trans offered
    have fine : result = .ok () := closed
    rw [fine] at ended
    refine ⟨works, final, reached, ended, taken, ?_⟩
    rw [ends.answered, taken, replies_pingMessage]
  · -- The only message that could crash the server is answered.
    rw [last] at received
    have short := received.length_le
    have none : before = [] := by
      simpa [Scene.start, Channel.fifo, askedOnce] using short
    subst none
    have same : text = pingMessage := by
      simpa [Scene.start, Channel.fifo, askedOnce] using received
    subst same
    rw [Server.afterMessages, List.foldl_nil, handle_pingMessage] at crashes
    cases crashes

/-- A server with a tool that crashes. -/
def brittleServer : Server :=
  plainServer.registerTool ⟨"boom", "", none⟩ (some fun _ => .error .crash)

def boomCall : String :=
  "\x7b\"jsonrpc\":\"2.0\",\"id\":1,\"method\":\"tools/call\",\"params\":[\"boom\"]\x7d"

theorem handle_boomCall : (brittleServer.handle boomCall).1 = .crash := by
  have read : Request.read boomCall = .ok ⟨"2.0", some (.integer 1), "tools/call",
      some (.array [.string "boom"])⟩ := by cbv
  rw [Server.handle, read]
  rfl

/-- A session that starts on a script lets its loop run on the script. -/
theorem startScript_fresh (server : Server) (script : Script) :
    let state :=
      Loop.run Script.transport (script.events.length + 1) server { script with log := [] }
    (Session.startScript { server := server } none script).2 =
      { server := state.server
        life := Session.lifeAfter { started := true } state.status
        link := .script state.link
        log := state.link.log } :=
  rfl

/-- A loop need not end well when its client goes away: it ends with an error when the transport
cannot be closed, and it ends without an answer when user code crashes. -/
theorem ends_badly :
    ((Session.startScript { server := plainServer } none
      { events := [.leave], failClose := true }).2.wait).1 =
        .done (.error (.transport "close failed")) ∧
    let crashed := (Session.startScript { server := brittleServer } none
      { events := [.message boomCall, .leave] }).2
    crashed.wait.1 = .done (.error crashError) ∧ crashed.log = [] := by
  refine ⟨rfl, ?_⟩
  rw [startScript_fresh, run_of_message rfl, handle_boomCall]
  exact ⟨rfl, rfl⟩

end Loop

end Toolsmith
