import Mathlib
import Toolsmith.Server.Basic
import Toolsmith.Server.Lifecycle

/-! # One start, one told

The clones of a server share its life, and whoever has one may start the server, ask it to stop and
wait for it, while its loop runs as a task of its own. A `Scene` is a moment of all this, and an
`Action` one step of a call or of the task, which reads or writes one of the shared cells; a call
that is polled where it has to wait stays where it is. Whatever the order of the steps, one call at
most holds the server, and what ended the loop is kept until the first call that waits for it
resumes (`Orderly`). `Lifecycle.tells_first` is what the calls return then; it says too that calls
that are not disturbed do what the operations of a `Lifecycle` do at once.
-/

namespace Toolsmith

namespace Lifecycle

variable {κ : Type}

/-- What a call is for. -/
inductive Errand where
  | start (hook : Option Hook)
  | stop
  | wait

/-- What a call is about to do, or what it returned. -/
inductive Call where
  | unmade
  /-- To put a hook in its place before it starts the server. -/
  | installing (hook : Hook)
  /-- To look whether the server was started, and to mark it as started. -/
  | claiming
  /-- To let the loop run. -/
  | spawning
  | startReturned (result : Except ProtocolError Unit)
  /-- To ask the server to stop. -/
  | asking
  | stopReturned
  /-- To look whether the server was started. -/
  | looking
  /-- To see that the loop has ended. -/
  | waiting
  /-- To take what the loop ended with. -/
  | resuming
  | waitReturned (result : Except ProtocolError Unit)

def Errand.begin : Errand → Call
  | .start (some hook) => .installing hook
  | .start none => .claiming
  | .stop => .asking
  | .wait => .looking

/-- How far the task has come that runs the loop. -/
inductive Task where
  | absent
  | running
  /-- The result is in its place, and nobody was told yet. -/
  | recorded (result : Except ProtocolError Unit)
  | done (result : Except ProtocolError Unit)

/-- A moment of a server's life, with the calls of those who have it. -/
structure Scene (κ : Type) where
  life : Lifecycle := {}
  hook : Option Hook := none
  task : Task := .absent
  calls : κ → Call := fun _ => .unmade
  /-- The calls that waited for the loop, in the order in which they came to its outcome. -/
  resumed : List κ := []

/-- A step of a call or of the task. -/
inductive Action (κ : Type) where
  | make (call : κ) (errand : Errand)
  | poll (call : κ)
  | record (result : Except ProtocolError Unit)
  | announce

def Action.polls [DecidableEq κ] (call : κ) : Action κ → Bool
  | .poll polled => polled = call
  | _ => false

/-- A call that waits, or has waited, for the loop. -/
def Call.waits : Call → Bool
  | .looking | .waiting | .resuming | .waitReturned _ => true
  | _ => false

def Call.returned : Call → Bool
  | .startReturned _ | .stopReturned | .waitReturned _ => true
  | _ => false

/-- How many polls a call needs that never has to wait. -/
def Call.remaining : Call → Nat
  | .installing _ | .looking => 3
  | .claiming | .waiting => 2
  | .spawning | .asking | .resuming => 1
  | .unmade | .startReturned _ | .stopReturned | .waitReturned _ => 0

/-- Where a call stands that tried to mark the server as started. -/
def Call.ofStart : Except ProtocolError Unit → Call
  | .ok () => .spawning
  | .error error => .startReturned (.error error)

/-- Where a call stands that waits, with what it learns. -/
def Call.ofWait : WaitResult → Call
  | .pending => .waiting
  | .done result => .waitReturned result

namespace Scene

variable [DecidableEq κ]

def turn (scene : Scene κ) (call : κ) (phase : Call) : Scene κ :=
  { scene with calls := Function.update scene.calls call phase }

/-- The next step of a call. With the last one it returns. -/
def poll (scene : Scene κ) (call : κ) : Scene κ :=
  match scene.calls call with
  | .unmade | .startReturned _ | .stopReturned | .waitReturned _ => scene
  | .installing hook => { scene with hook := some hook }.turn call .claiming
  | .claiming => { scene with life := scene.life.start.2 }.turn call (.ofStart scene.life.start.1)
  | .spawning => { scene with task := .running }.turn call (.startReturned (.ok ()))
  | .asking => { scene with life := scene.life.stop }.turn call .stopReturned
  | .looking => scene.turn call (if scene.life.started then .waiting else .waitReturned (.ok ()))
  | .waiting => scene.turn call (if scene.life.ended then .resuming else .waiting)
  | .resuming =>
    { scene with
      life := { scene.life with outcome := none }
      resumed := scene.resumed ++ [call] }.turn call
        (.waitReturned (scene.life.outcome.getD (.ok ())))

/-- A call is made, unless it was made before. -/
def make (scene : Scene κ) (call : κ) (errand : Errand) : Scene κ :=
  match scene.calls call with
  | .unmade => scene.turn call errand.begin
  | _ => scene

/-- The loop that runs has ended, and its result is put in its place. -/
def record (scene : Scene κ) (result : Except ProtocolError Unit) : Scene κ :=
  match scene.task with
  | .running =>
    { scene with task := .recorded result, life := { scene.life with outcome := some result } }
  | _ => scene

/-- All are told that the loop has ended, when its result is in its place. -/
def announce (scene : Scene κ) : Scene κ :=
  match scene.task with
  | .recorded result =>
    { scene with task := .done result, life := { scene.life with ended := true } }
  | _ => scene

/-- Do a step, where it can be done. -/
def act (scene : Scene κ) : Action κ → Scene κ
  | .make call errand => scene.make call errand
  | .poll call => scene.poll call
  | .record result => scene.record result
  | .announce => scene.announce

def after (scene : Scene κ) (actions : List (Action κ)) : Scene κ :=
  actions.foldl act scene

theorem after_append (scene : Scene κ) (first second : List (Action κ)) :
    scene.after (first ++ second) = (scene.after first).after second :=
  List.foldl_append

theorem calls_turn_self (scene : Scene κ) (call : κ) (phase : Call) :
    (scene.turn call phase).calls call = phase := by
  simp [turn]

theorem calls_turn_of_ne (scene : Scene κ) {call other : κ} (phase : Call) (apart : other ≠ call) :
    (scene.turn call phase).calls other = scene.calls other := by
  simp [turn, apart]

end Scene

section Invariant

theorem start_of_fresh {life : Lifecycle} (fresh : life.started = false) :
    life.start = (.ok (), { life with started := true }) := by
  rw [start, fresh]
  rfl

theorem start_of_started {life : Lifecycle} (started : life.started = true) :
    life.start = (.error alreadyStarted, life) := by
  rw [start, if_pos started]

def Task.isDone : Task → Bool
  | .done _ => true
  | _ => false

theorem Task.isDone_iff {task : Task} : task.isDone = true ↔ ∃ result, task = .done result := by
  cases task with
  | done result => simp [isDone]
  | absent | running | recorded => simp [isDone]

/-- What the task leaves for the next call to take. -/
def Task.left (resumed : List κ) : Task → Option (Except ProtocolError Unit)
  | .absent | .running => none
  | .recorded result => some result
  | .done result => if resumed.isEmpty then some result else none

/-- What is true of a call at each point, if `holder` is the call that marked the server as
started. -/
def Call.Fits (holder : Option κ) (started : Bool) (task : Task) (first : Option κ) (call : κ) :
    Call → Prop
  | .unmade | .installing _ | .claiming | .asking | .stopReturned | .looking => True
  | .spawning => holder = some call ∧ task = .absent
  | .startReturned (.ok ()) => holder = some call ∧ task ≠ .absent
  | .startReturned (.error error) => error = alreadyStarted ∧ ∃ other ≠ call, holder = some other
  | .waiting => started = true
  | .resuming => ∃ result, task = .done result
  | .waitReturned result =>
    task = .done result ∧ first = some call ∨ result = .ok () ∧ first ≠ some call

/-- What is true of a call at any moment, with the call that holds the server and the first that
resumed. -/
structure Placed (holder : Option κ) (started : Bool) (task : Task) (first : Option κ) (call : κ)
    (phase : Call) : Prop where
  fits : phase.Fits holder started task first call
  holds : holder = some call → phase = .spawning ∨ phase = .startReturned (.ok ())
  resumes : first = some call → ∃ result, task = .done result ∧ phase = .waitReturned result

structure Orderly (holder : Option κ) (scene : Scene κ) : Prop where
  started : scene.life.started = holder.isSome
  ended : scene.life.ended = scene.task.isDone
  outcome : scene.life.outcome = scene.task.left scene.resumed
  /-- There is no task as long as nobody holds the server. -/
  unheld : holder = none → scene.task = .absent
  calls : ∀ call, Placed holder scene.life.started scene.task scene.resumed.head? call
    (scene.calls call)

variable {holder : Option κ} {scene : Scene κ} {call : κ}

theorem orderly_new : Orderly none ({} : Scene κ) where
  started := rfl
  ended := rfl
  outcome := rfl
  unheld _ := rfl
  calls _ := ⟨trivial, nofun, nofun⟩

section Placed

variable {later first firstLater : Option κ} {started startedLater : Bool} {task next : Task}
  {phase : Call}

theorem Placed.holder_ne (placed : Placed holder started task first call phase)
    (aside : phase ≠ .spawning) (unreturned : phase.returned = false) : holder ≠ some call := by
  intro held
  rcases placed.holds held with rfl | rfl
  · exact aside rfl
  · cases unreturned

theorem Placed.first_ne (placed : Placed holder started task first call phase)
    (unreturned : phase.returned = false) : first ≠ some call := by
  intro head
  obtain ⟨result, _, rfl⟩ := placed.resumes head
  cases unreturned

theorem Placed.turn {turned : Call} (placed : Placed holder started task first call phase)
    (aside : phase ≠ .spawning) (unreturned : phase.returned = false)
    (fits : turned.Fits holder started task first call) :
    Placed holder started task first call turned where
  fits := fits
  holds held := absurd held (placed.holder_ne aside unreturned)
  resumes head := absurd head (placed.first_ne unreturned)

/-- A call stays in its place when others go forward. -/
theorem Placed.mono (placed : Placed holder started task first call phase)
    (held : ∀ other, holder = some other → later = some other)
    (mine : later = some call → holder = some call)
    (begun : started = true → startedLater = true)
    (spawns : phase = .spawning → next = .absent) (spawned : task ≠ .absent → next ≠ .absent)
    (done : ∀ result, task = .done result → next = .done result)
    (same : first = some call ↔ firstLater = some call) :
    Placed later startedLater next firstLater call phase where
  holds held := placed.holds (mine held)
  resumes head := (placed.resumes (same.2 head)).imp fun result ends => ⟨done _ ends.1, ends.2⟩
  fits := by
    have fits := placed.fits
    cases phase with
    | unmade | installing | claiming | asking | stopReturned | looking => trivial
    | spawning => exact ⟨held _ fits.1, spawns rfl⟩
    | startReturned result =>
        cases result with
        | ok => exact ⟨held _ fits.1, spawned fits.2⟩
        | error =>
            obtain ⟨error, other, apart, holds⟩ := fits
            exact ⟨error, other, apart, held _ holds⟩
    | waiting => exact begun fits
    | resuming => exact fits.imp done
    | waitReturned result =>
        rcases fits with ⟨ended, head⟩ | ⟨ok, other⟩
        · exact .inl ⟨done _ ended, same.1 head⟩
        · exact .inr ⟨ok, fun head => other (same.2 head)⟩

end Placed

theorem Orderly.placed {phase : Call} (orderly : Orderly holder scene)
    (stands : scene.calls call = phase) :
    Placed holder scene.life.started scene.task scene.resumed.head? call phase := by
  rw [← stands]
  exact orderly.calls call

theorem Orderly.resumed_nil (orderly : Orderly holder scene) (running : scene.task.isDone = false) :
    scene.resumed = [] := by
  cases resumed : scene.resumed with
  | nil => rfl
  | cons first rest =>
      obtain ⟨result, done, _⟩ := (orderly.calls first).resumes (by rw [resumed]; rfl)
      rw [done] at running
      cases running

/-- The task goes on, and the calls stay in their places. -/
theorem Orderly.proceed {task next : Task} {life : Lifecycle} (orderly : Orderly holder scene)
    (started : life.started = scene.life.started) (ended : life.ended = next.isDone)
    (outcome : life.outcome = next.left scene.resumed) (stands : scene.task = task)
    (present : task ≠ .absent) (still : next ≠ .absent) (running : task.isDone = false) :
    Orderly holder { scene with task := next, life := life } where
  started := started.trans orderly.started
  ended := ended
  outcome := outcome
  unheld none := absurd (stands.symm.trans (orderly.unheld none)) present
  calls call := by
    subst stands
    refine (orderly.calls call).mono (fun _ => id) id (fun begun => started ▸ begun) ?_
      (fun _ => still) ?_ Iff.rfl
    · intro spawning
      exact absurd (orderly.placed spawning).fits.2 present
    · intro result done
      rw [done] at running
      cases running

/-- Recording the result of the loop keeps a scene orderly. -/
theorem Orderly.record (orderly : Orderly holder scene) (result : Except ProtocolError Unit) :
    Orderly holder (scene.record result) := by
  unfold Scene.record
  split
  next running =>
    have ended := orderly.ended
    rw [running] at ended
    exact orderly.proceed rfl ended rfl running nofun nofun rfl
  next => exact orderly

/-- The end of the loop is made known while its result is still in its place. -/
theorem Orderly.announce (orderly : Orderly holder scene) : Orderly holder scene.announce := by
  unfold Scene.announce
  split
  next result recorded =>
    have kept := orderly.outcome
    rw [recorded] at kept
    have none := orderly.resumed_nil (by rw [recorded]; rfl)
    refine orderly.proceed rfl rfl ?_ recorded nofun nofun rfl
    rw [none]
    exact kept
  next => exact orderly

theorem head?_concat_eq_some {other : κ} (resumed : List κ) (apart : other ≠ call) :
    resumed.head? = some other ↔ (resumed ++ [call]).head? = some other := by
  cases resumed with
  | nil => simp [apart.symm]
  | cons first rest => simp

section Polling

variable [DecidableEq κ]

theorem forall_turn {P : κ → Call → Prop} {phase : Call} (scene : Scene κ) (here : P call phase)
    (others : ∀ other ≠ call, P other (scene.calls other)) (other : κ) :
    P other ((scene.turn call phase).calls other) := by
  by_cases same : other = call
  · subst same
    rw [Scene.calls_turn_self]
    exact here
  · rw [Scene.calls_turn_of_ne _ _ same]
    exact others other same

/-- A call goes on, and no cell changes that tells another call anything. -/
theorem Orderly.turn {before phase : Call} (orderly : Orderly holder scene)
    (stands : scene.calls call = before) (aside : before ≠ .spawning)
    (unreturned : before.returned = false)
    (fits : phase.Fits holder scene.life.started scene.task scene.resumed.head? call) :
    Orderly holder (scene.turn call phase) where
  started := orderly.started
  ended := orderly.ended
  outcome := orderly.outcome
  unheld := orderly.unheld
  calls := by
    subst stands
    exact forall_turn scene ((orderly.calls call).turn aside unreturned fits)
      fun other _ => orderly.calls other

/-- A call marks a server as started that nobody holds. -/
theorem Orderly.claim (orderly : Orderly holder scene) (claiming : scene.calls call = .claiming)
    (fresh : scene.life.started = false) :
    Orderly (some call)
      ({ scene with life := { scene.life with started := true } }.turn call .spawning) := by
  have unheld : holder = none := by
    rw [← Option.not_isSome_iff_eq_none, ← orderly.started, fresh]
    nofun
  have absent := orderly.unheld unheld
  subst unheld
  refine ⟨rfl, orderly.ended, orderly.outcome, nofun, forall_turn _ ?_ ?_⟩
  · have unresumed := (orderly.placed claiming).first_ne rfl
    exact ⟨⟨rfl, absent⟩, fun _ => .inl rfl, fun head => absurd head unresumed⟩
  · intro other apart
    refine (orderly.calls other).mono nofun ?_ (fun _ => rfl) (fun _ => absent) id (fun _ => id)
      Iff.rfl
    intro mine
    exact absurd (Option.some.inj mine).symm apart

/-- The call that holds the server lets the loop run. -/
theorem Orderly.spawn (orderly : Orderly holder scene) (spawning : scene.calls call = .spawning) :
    Orderly holder ({ scene with task := .running }.turn call (.startReturned (.ok ()))) := by
  have placed := orderly.placed spawning
  obtain ⟨held, absent⟩ := placed.fits
  refine ⟨orderly.started, ?_, ?_, ?_, forall_turn _ ?_ ?_⟩
  · rw [Scene.turn, orderly.ended, absent]
    rfl
  · rw [Scene.turn, orderly.outcome, absent]
    rfl
  · intro none
    rw [held] at none
    cases none
  · exact ⟨⟨held, nofun⟩, fun _ => .inr rfl, fun head => absurd head (placed.first_ne rfl)⟩
  · intro other apart
    refine (orderly.calls other).mono (fun _ => id) id id ?_ (fun _ => nofun) ?_ Iff.rfl
    · -- Two calls that are about to let the loop run would both hold the server.
      intro spawns
      have also := (orderly.placed spawns).fits.1
      have same := Option.some.inj (also.symm.trans held)
      exact absurd same apart
    · intro result done
      rw [absent] at done
      cases done

/-- A call takes what the loop ended with, if no other has taken it before. -/
theorem Orderly.resume (orderly : Orderly holder scene) (resuming : scene.calls call = .resuming) :
    Orderly holder
      ({ scene with
        life := { scene.life with outcome := none }
        resumed := scene.resumed ++ [call] }.turn call
          (.waitReturned (scene.life.outcome.getD (.ok ())))) := by
  have placed := orderly.placed resuming
  obtain ⟨result, done⟩ := placed.fits
  have outcome := orderly.outcome
  rw [done] at outcome
  have unresumed := placed.first_ne rfl
  refine ⟨orderly.started, orderly.ended, ?_, orderly.unheld, forall_turn _ ?_ ?_⟩
  · rw [Scene.turn, done]
    simp [Task.left]
  · rw [outcome]
    refine ⟨?_, fun held => absurd held (placed.holder_ne nofun rfl), ?_⟩
    · cases resumed : scene.resumed with
      | nil => exact .inl ⟨done, rfl⟩
      | cons first rest =>
          rw [resumed] at unresumed
          exact .inr ⟨rfl, unresumed⟩
    · intro head
      cases resumed : scene.resumed with
      | nil => exact ⟨result, done, rfl⟩
      | cons first rest =>
          rw [resumed] at head unresumed
          exact absurd head unresumed
  · intro other apart
    refine (orderly.calls other).mono (fun _ => id) id id ?_ id (fun _ => id)
      (head?_concat_eq_some scene.resumed apart)
    intro spawning
    exact (orderly.placed spawning).fits.2

/-- **A step of a call** keeps everything in order. -/
theorem Orderly.poll (orderly : Orderly holder scene) (call : κ) :
    ∃ holder, Orderly holder (scene.poll call) := by
  unfold Scene.poll
  cases stands : scene.calls call with
  | unmade | startReturned | stopReturned | waitReturned => exact ⟨holder, orderly⟩
  | installing hook =>
      have turned : Orderly holder (scene.turn call .claiming) :=
        orderly.turn stands nofun rfl trivial
      exact ⟨holder, { turned with }⟩
  | claiming =>
      cases started : scene.life.started with
      | false =>
          rw [start_of_fresh started]
          exact ⟨some call, orderly.claim stands started⟩
      | true =>
          rw [start_of_started started]
          obtain ⟨other, held⟩ := Option.isSome_iff_exists.1 (orderly.started ▸ started)
          have apart : other ≠ call := by
            rintro rfl
            exact (orderly.placed stands).holder_ne nofun rfl held
          exact ⟨holder, orderly.turn stands nofun rfl ⟨rfl, other, apart, held⟩⟩
  | spawning => exact ⟨holder, orderly.spawn stands⟩
  | asking =>
      have turned : Orderly holder (scene.turn call .stopReturned) :=
        orderly.turn stands nofun rfl trivial
      exact ⟨holder, { turned with }⟩
  | looking =>
      refine ⟨holder, orderly.turn stands nofun rfl ?_⟩
      by_cases started : scene.life.started = true
      · rw [if_pos started]
        exact started
      · rw [if_neg started]
        exact .inr ⟨rfl, (orderly.placed stands).first_ne rfl⟩
  | waiting =>
      refine ⟨holder, orderly.turn stands nofun rfl ?_⟩
      by_cases ended : scene.life.ended = true
      · rw [if_pos ended]
        rw [orderly.ended] at ended
        exact Task.isDone_iff.1 ended
      · rw [if_neg ended]
        exact (orderly.placed stands).fits
  | resuming => exact ⟨holder, orderly.resume stands⟩

theorem Orderly.make (orderly : Orderly holder scene) (call : κ) (errand : Errand) :
    Orderly holder (scene.make call errand) := by
  unfold Scene.make
  split
  next unmade =>
    refine orderly.turn unmade nofun rfl ?_
    rcases errand with (_ | _) | _ | _ <;> trivial
  next => exact orderly

/-- **A step** of anyone keeps everything in order. -/
theorem Orderly.act (orderly : Orderly holder scene) (action : Action κ) :
    ∃ holder, Orderly holder (scene.act action) := by
  cases action with
  | make call errand => exact ⟨holder, orderly.make call errand⟩
  | poll call => exact orderly.poll call
  | record result => exact ⟨holder, orderly.record result⟩
  | announce => exact ⟨holder, orderly.announce⟩

/-- **A run** leaves everything in order. -/
theorem Orderly.after (orderly : Orderly holder scene) (actions : List (Action κ)) :
    ∃ holder, Orderly holder (scene.after actions) := by
  induction actions generalizing holder scene with
  | nil => exact ⟨holder, orderly⟩
  | cons action rest ih =>
      obtain ⟨_, next⟩ := orderly.act action
      exact ih next

/-- The outcome waits for whoever comes first after the end of the loop. -/
theorem Orderly.told (orderly : Orderly holder scene) {ending : Except ProtocolError Unit}
    (done : scene.task = .done ending) (none : scene.resumed = [])
    (waiting : scene.calls call = .waiting) :
    (scene.after [.poll call, .poll call]).calls call = .waitReturned ending := by
  have ended : scene.life.ended = true := by
    rw [orderly.ended, done]
    rfl
  have outcome : scene.life.outcome = some ending := by
    rw [orderly.outcome, done, none]
    rfl
  have seen : scene.poll call = scene.turn call .resuming := by
    rw [Scene.poll, waiting, ended]
    rfl
  have resuming := scene.calls_turn_self call .resuming
  simp only [Scene.after, List.foldl_cons, List.foldl_nil, Scene.act, seen]
  rw [Scene.poll, resuming, Scene.calls_turn_self, Scene.turn, outcome]
  rfl

end Polling

end Invariant

section Progress

variable [DecidableEq κ] {scene : Scene κ} {call : κ}

/-- What is never taken back. -/
structure Grows (before after : Scene κ) : Prop where
  started : before.life.started = true → after.life.started = true
  ended : before.life.ended = true → after.life.ended = true
  resumed : before.resumed <+: after.resumed

theorem grows_poll (scene : Scene κ) (call : κ) : Grows scene (scene.poll call) := by
  unfold Scene.poll
  cases scene.calls call with
  | claiming =>
      cases started : scene.life.started with
      | false =>
          rw [start_of_fresh started]
          exact ⟨fun _ => rfl, id, List.prefix_refl _⟩
      | true =>
          rw [start_of_started started]
          exact ⟨id, id, List.prefix_refl _⟩
  | resuming => exact ⟨id, id, List.prefix_append _ _⟩
  | _ => exact ⟨id, id, List.prefix_refl _⟩

/-- No action takes back what was set. -/
theorem grows_act (scene : Scene κ) (action : Action κ) : Grows scene (scene.act action) := by
  cases action with
  | make call errand =>
      rw [Scene.act, Scene.make]
      split <;> exact ⟨id, id, List.prefix_refl _⟩
  | poll call => exact grows_poll scene call
  | record result =>
      rw [Scene.act, Scene.record]
      split <;> exact ⟨id, id, List.prefix_refl _⟩
  | announce =>
      rw [Scene.act, Scene.announce]
      split
      · exact ⟨id, fun _ => rfl, List.prefix_refl _⟩
      · exact ⟨id, id, List.prefix_refl _⟩

theorem calls_poll_of_ne {other : κ} (apart : other ≠ call) :
    (scene.poll call).calls other = scene.calls other := by
  unfold Scene.poll
  cases scene.calls call with
  | unmade | startReturned | stopReturned | waitReturned => rfl
  | _ => exact Scene.calls_turn_of_ne _ _ apart

/-- Only its polls move a call, once it was made. -/
theorem calls_act {action : Action κ} (unpolled : action.polls call = false) :
    (scene.act action).calls call = scene.calls call ∨
      scene.calls call = .unmade ∧
        ∃ errand : Errand, (scene.act action).calls call = errand.begin := by
  cases action with
  | make other errand =>
      rw [Scene.act, Scene.make]
      split
      next unmade =>
        by_cases same : call = other
        · subst same
          exact .inr ⟨unmade, errand, Scene.calls_turn_self ..⟩
        · exact .inl (Scene.calls_turn_of_ne _ _ same)
      next => exact .inl rfl
  | poll other =>
      have apart : other ≠ call := of_decide_eq_false unpolled
      exact .inl (calls_poll_of_ne apart.symm)
  | record result =>
      rw [Scene.act, Scene.record]
      split <;> exact .inl rfl
  | announce =>
      rw [Scene.act, Scene.announce]
      split <;> exact .inl rfl

theorem eq_poll_of_polls {action : Action κ} (polled : action.polls call = true) :
    action = .poll call := by
  cases action with
  | poll other => rw [of_decide_eq_true polled]
  | make | record | announce => cases polled

theorem Call.remaining_le (phase : Call) : phase.remaining ≤ 3 := by
  cases phase <;> simp [remaining]

theorem returned_of_remaining {phase : Call} (made : phase ≠ .unmade)
    (none : phase.remaining = 0) : phase.returned = true := by
  cases phase with
  | unmade => exact absurd rfl made
  | startReturned | stopReturned | waitReturned => rfl
  | _ => cases none

/-- **A poll** of a call that does not have to wait takes it closer to its return. -/
theorem remaining_poll (made : scene.calls call ≠ .unmade)
    (able : (scene.calls call).waits = true → scene.life.ended = true) :
    (scene.poll call).calls call ≠ .unmade ∧
      ((scene.poll call).calls call).waits = (scene.calls call).waits ∧
      ((scene.poll call).calls call).remaining ≤ (scene.calls call).remaining - 1 := by
  unfold Scene.poll
  cases stands : scene.calls call with
  | unmade => exact absurd stands made
  | startReturned | stopReturned | waitReturned => simp [stands, Call.remaining]
  | installing | spawning | asking | resuming =>
      rw [Scene.calls_turn_self]
      exact ⟨nofun, rfl, le_refl _⟩
  | claiming =>
      rw [Scene.calls_turn_self]
      cases scene.life.start.1 with
      | ok => exact ⟨nofun, rfl, le_refl _⟩
      | error => exact ⟨nofun, rfl, Nat.zero_le _⟩
  | looking =>
      rw [Scene.calls_turn_self]
      split
      · exact ⟨nofun, rfl, le_refl _⟩
      · exact ⟨nofun, rfl, Nat.zero_le _⟩
  | waiting =>
      rw [stands] at able
      rw [Scene.calls_turn_self, if_pos (able rfl)]
      exact ⟨nofun, rfl, le_refl _⟩

/-- **A run** that polls a call often enough ends with its return. -/
theorem returned_after (made : scene.calls call ≠ .unmade)
    (able : (scene.calls call).waits = true → scene.life.ended = true) (actions : List (Action κ))
    (often : (scene.calls call).remaining ≤ actions.countP (Action.polls call)) :
    ((scene.after actions).calls call).returned = true := by
  induction actions generalizing scene with
  | nil =>
      rw [List.countP_nil, Nat.le_zero] at often
      exact returned_of_remaining made often
  | cons action rest ih =>
      rw [List.countP_cons] at often
      have ended := (grows_act scene action).ended
      by_cases polled : action.polls call = true
      · obtain rfl := eq_poll_of_polls polled
        obtain ⟨still, waits, fewer⟩ := remaining_poll made able
        refine @ih (scene.act (.poll call)) still ?_ ?_
        · intro waiting
          exact ended (able (waits ▸ waiting))
        · rw [if_pos polled] at often
          exact fewer.trans (Nat.sub_le_of_le_add often)
      · have same := (calls_act (Bool.eq_false_of_not_eq_true polled)).resolve_right
          fun begun => made begun.1
        rw [if_neg polled, Nat.add_zero] at often
        rw [← same] at made able often
        exact @ih (scene.act action) made (fun waiting => ended (able waiting)) often

/-- Where the server was started, a call returns from waiting only by taking the outcome. -/
theorem resumed_of_poll {result : Except ProtocolError Unit} (started : scene.life.started = true)
    (returned : (scene.poll call).calls call = .waitReturned result) :
    scene.calls call = .waitReturned result ∨ call ∈ (scene.poll call).resumed := by
  unfold Scene.poll at returned ⊢
  cases stands : scene.calls call with
  | unmade | startReturned | stopReturned | waitReturned =>
      simp only [stands] at returned
      exact .inl returned
  | resuming => exact .inr (List.mem_append_right _ List.mem_cons_self)
  | installing | spawning | asking =>
      simp only [stands, Scene.calls_turn_self] at returned
      cases returned
  | claiming =>
      simp only [stands, Scene.calls_turn_self, start_of_started started] at returned
      cases returned
  | looking =>
      simp only [stands, Scene.calls_turn_self, started] at returned
      cases returned
  | waiting =>
      simp only [stands, Scene.calls_turn_self] at returned
      split at returned <;> cases returned

/-- A call that looks only after the server was started. -/
structure Late (scene : Scene κ) (call : κ) : Prop where
  started : scene.life.started = true
  resumed : ∀ result, scene.calls call = .waitReturned result → call ∈ scene.resumed

theorem Late.act (late : Late scene call) (action : Action κ) : Late (scene.act action) call where
  started := (grows_act scene action).started late.started
  resumed result returned := by
    have grown := (grows_act scene action).resumed.subset
    by_cases polled : action.polls call = true
    · obtain rfl := eq_poll_of_polls polled
      rcases resumed_of_poll late.started returned with before | now
      · exact grown (late.resumed result before)
      · exact now
    · rcases calls_act (Bool.eq_false_of_not_eq_true polled) with same | ⟨_, errand, begun⟩
      · exact grown (late.resumed result (same.symm.trans returned))
      · rw [begun] at returned
        rcases errand with (_ | _) | _ | _ <;> cases returned

theorem Late.after (late : Late scene call) (actions : List (Action κ)) :
    Late (scene.after actions) call := by
  induction actions generalizing scene with
  | nil => exact late
  | cons action rest ih => exact ih (late.act action)

/-- A call that waits, and was made when a start had returned well, resumes before it returns. -/
theorem resumed_of_late {earlier later : List (Action κ)} {starter : κ}
    {result : Except ProtocolError Unit}
    (well : (Scene.after {} earlier).calls starter = .startReturned (.ok ()))
    (unmade : (Scene.after {} earlier).calls call = .unmade)
    (returned : (Scene.after {} (earlier ++ later)).calls call = .waitReturned result) :
    call ∈ (Scene.after {} (earlier ++ later)).resumed ∧
      ∃ ending, (Scene.after {} (earlier ++ later)).task = .done ending := by
  have late : Late (Scene.after {} earlier) call := by
    obtain ⟨holder, orderly⟩ := orderly_new.after earlier
    refine ⟨?_, fun result waited => ?_⟩
    · rw [orderly.started, (orderly.placed well).fits.1]
      rfl
    · rw [unmade] at waited
      cases waited
  have member : call ∈ (Scene.after {} (earlier ++ later)).resumed := by
    rw [Scene.after_append] at returned ⊢
    exact (late.after later).resumed result returned
  refine ⟨member, Task.isDone_iff.1 ?_⟩
  obtain ⟨holder, orderly⟩ := orderly_new.after (earlier ++ later)
  by_contra running
  rw [orderly.resumed_nil (Bool.eq_false_of_not_eq_true running)] at member
  cases member

end Progress

section Undisturbed

/-- A call that is made and goes on as far as it can, while nothing else happens. -/
def undisturbed (call : κ) (errand : Errand) : List (Action κ) :=
  [.make call errand, .poll call, .poll call, .poll call]

/-- Where a call stands, and the life and the hook it leaves, when all it does is done at once. -/
def Errand.atOnce (life : Lifecycle) (hook : Option Hook) : Errand → Call × Lifecycle × Option Hook
  | .start other => (.startReturned life.start.1, life.start.2, other.or hook)
  | .stop => (.stopReturned, life.stop, hook)
  | .wait => (.ofWait life.wait.1, life.wait.2, hook)

variable [DecidableEq κ] {scene : Scene κ} {call : κ}

/-- A call that is made and polled alone comes to its end. -/
theorem after_undisturbed (unmade : scene.calls call = .unmade) (errand : Errand) :
    let final := scene.after (undisturbed call errand)
    (final.calls call, final.life, final.hook) = errand.atOnce scene.life scene.hook := by
  have made : scene.make call errand = scene.turn call errand.begin := by
    rw [Scene.make, unmade]
  simp only [undisturbed, Scene.after, List.foldl_cons, List.foldl_nil, Scene.act, made]
  cases errand with
  | start hook =>
      cases started : scene.life.started with
      | false =>
          cases hook <;> simp [Errand.begin, Errand.atOnce, Scene.poll, Scene.turn, Call.ofStart,
            start_of_fresh started]
      | true =>
          cases hook <;> simp [Errand.begin, Errand.atOnce, Scene.poll, Scene.turn, Call.ofStart,
            start_of_started started]
  | stop => simp [Errand.begin, Errand.atOnce, Scene.poll, Scene.turn]
  | wait =>
      cases started : scene.life.started with
      | false =>
          simp [Errand.begin, Errand.atOnce, Scene.poll, Scene.turn, Call.ofWait, wait, started]
      | true =>
          cases ended : scene.life.ended <;> simp [Errand.begin, Errand.atOnce, Scene.poll,
            Scene.turn, Call.ofWait, wait, started, ended]

theorem life_after_finish (running : scene.task = .running) (result : Except ProtocolError Unit) :
    (scene.after [.record result, .announce]).life = scene.life.finish result := by
  simp [Scene.after, Scene.act, Scene.record, Scene.announce, running, finish]

end Undisturbed

/-- **One start, one told.** Let those who have a server make any calls, and let the loop end when
it may and with any result, in any order of their steps. Then a start that returned was the only one
to return well, or it was refused because another call holds the server. A call that waits, and was
made when a start had returned well, does not return before the loop has ended. The first call to
resume after that returns what the loop ended with, and every other call that waits returns without
an error. No call stays behind: three polls are enough, for one that waits as soon as the loop has
ended. Calls that nobody disturbs do what the operations of a lifecycle do. -/
theorem tells_first [DecidableEq κ] (actions : List (Action κ)) :
    let scene := Scene.after {} actions
    (∀ call other, scene.calls call = .startReturned (.ok ()) →
      scene.calls other = .startReturned (.ok ()) → call = other) ∧
    (∀ call result, scene.calls call = .startReturned result → result = .ok () ∨
      result = .error (.internal "server already started") ∧
        ∃ other ≠ call, scene.calls other = .spawning ∨
          scene.calls other = .startReturned (.ok ())) ∧
    (∀ earlier later call starter result, actions = earlier ++ later →
      (Scene.after {} earlier).calls starter = .startReturned (.ok ()) →
      (Scene.after {} earlier).calls call = .unmade → scene.calls call = .waitReturned result →
        call ∈ scene.resumed ∧ ∃ ending, scene.task = .done ending) ∧
    (∀ call result, scene.calls call = .waitReturned result →
      scene.task = .done result ∧ scene.resumed.head? = some call ∨
        result = .ok () ∧ scene.resumed.head? ≠ some call) ∧
    (∀ call, scene.resumed.head? = some call →
      ∃ ending, scene.task = .done ending ∧ scene.calls call = .waitReturned ending) ∧
    (∀ call ending, scene.task = .done ending → scene.resumed = [] → scene.calls call = .waiting →
      (scene.after [.poll call, .poll call]).calls call = .waitReturned ending) ∧
    (∀ call more, scene.calls call ≠ .unmade →
      ((scene.calls call).waits = true → ∃ ending, scene.task = .done ending) →
      3 ≤ more.countP (Action.polls call) → ((scene.after more).calls call).returned = true) ∧
    (∀ call errand, scene.calls call = .unmade →
      let final := scene.after (undisturbed call errand)
      (final.calls call, final.life, final.hook) = errand.atOnce scene.life scene.hook) ∧
    ∀ result, scene.task = .running →
      (scene.after [.record result, .announce]).life = scene.life.finish result := by
  intro scene
  obtain ⟨holder, orderly⟩ := orderly_new.after actions
  refine ⟨?_, ?_, ?_, ?_, ?_, ?_, ?_, fun call errand unmade => after_undisturbed unmade errand,
    fun result running => life_after_finish running result⟩
  · intro call other well also
    have holds := (orderly.placed well).fits.1
    have held := (orderly.placed also).fits.1
    exact Option.some.inj (holds.symm.trans held)
  · intro call result returned
    cases result with
    | ok => exact .inl rfl
    | error error =>
        obtain ⟨rfl, other, apart, holds⟩ := (orderly.placed returned).fits
        exact .inr ⟨rfl, other, apart, (orderly.calls other).holds holds⟩
  · rintro earlier later call starter result rfl well unmade returned
    exact resumed_of_late well unmade returned
  · intro call result returned
    exact (orderly.placed returned).fits
  · intro call first
    exact (orderly.calls call).resumes first
  · intro call ending done none waiting
    exact orderly.told done none waiting
  · intro call more made able often
    refine returned_after made ?_ more (le_trans (Call.remaining_le _) often)
    intro waits
    rw [orderly.ended]
    exact Task.isDone_iff.2 (able waits)

/-- Two calls start a server and two wait for it; the one that began to wait last resumes first. -/
def race : List (Action Nat) :=
  [.make 0 (.start none), .make 1 (.start none), .poll 1, .poll 0, .poll 1, .make 2 .wait, .poll 2,
    .make 3 .wait, .poll 3, .record (.error .closed), .poll 2, .announce, .poll 3, .poll 3, .poll 2,
    .poll 2]

/-- Of two starts one is refused, and of two calls that wait one is told the error. -/
theorem tells_first_of_race :
    let scene := Scene.after {} race
    scene.calls 0 = .startReturned (.error (.internal "server already started")) ∧
      scene.calls 1 = .startReturned (.ok ()) ∧ scene.calls 2 = .waitReturned (.ok ()) ∧
      scene.calls 3 = .waitReturned (.error .closed) := by
  intro scene
  obtain ⟨_, starts, _, _, first, _⟩ := tells_first race
  obtain ⟨ending, done, told⟩ := first 3 rfl
  cases done
  rcases starts 0 _ rfl with well | ⟨refused, _⟩
  · cases well
  · exact ⟨congrArg _ refused, rfl, rfl, told⟩

end Lifecycle
end Toolsmith
