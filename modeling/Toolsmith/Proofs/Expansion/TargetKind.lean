import Mathlib
import Toolsmith.Expansion.Dispatch

/-! # Items that a tag does not belong on

What a marking is attached to is judged in two steps. Its kind is judged before the arguments are
looked at: an item of another kind is refused for what it is, whatever the arguments are
(`expandOn_of_other_kind`). Its shape is judged by the expansion of the tag, which is given
arguments that were read. A declaration that stands for no value, and a block that implements a
trait, are therefore refused for what they are only when the arguments can be read; otherwise the
problem with the arguments is reported in its place (`expandOn_of_misshapen`).
-/

namespace Toolsmith

open Source

/-- The problem of a tag on an item that it does not belong on. -/
def Tag.targetProblem (tag : Tag) : Diagnostic :=
  match tag with
  | .tool | .resource => .propertyTarget ⟨tag, false⟩
  | _ => .typeTarget ⟨tag, false⟩

/-- Whether a tag belongs on an item: on a property among the declarations, on an inherent block
among the blocks. A parameter is described anywhere. -/
def Target.admits (target : Target) (tag : Tag) : Bool :=
  match tag, target with
  | .tool, .property declaration | .resource, .property declaration => declaration.isProperty
  | .server, .type block | .toolbox, .type block | .globalServer, .type block =>
    block.trait.isNone
  | .param, _ => true
  | _, _ => false

/-- Whether an item is of the kind that a tag belongs on, whatever its shape. -/
def Target.isKindFor (target : Target) (tag : Tag) : Bool :=
  match tag, target with
  | .tool, .property _ | .resource, .property _ => true
  | .server, .type _ | .toolbox, .type _ | .globalServer, .type _ => true
  | .param, _ => true
  | _, _ => false

theorem site_of_parseMarking {site : Site} {tokens : List Tree} {marking : Marking}
    (read : parseMarking site tokens = .ok marking) : marking.site = site := by
  unfold parseMarking Marking.parse at read
  cases arguments : readAll Argument.listReader tokens with
  | error mismatch =>
      rw [arguments] at read
      cases read
  | ok found =>
      rw [arguments] at read
      cases read
      rfl

/-- What refuses every marking for the place where it stands refuses those that were read there. -/
theorem parseMarking_bind_refused {site : Site} {tokens : List Tree}
    {next : Marking → Except Diagnostic Expansion} {problem : Site → Diagnostic}
    (refuses : ∀ marking, next marking = .error (problem marking.site)) :
    (parseMarking site tokens >>= next) =
      (parseMarking site tokens >>= fun _ => .error (problem site)) := by
  cases read : parseMarking site tokens with
  | error problem => rfl
  | ok marking =>
      change next marking = .error (problem site)
      rw [refuses, site_of_parseMarking read]

theorem expandTool_of_misshapen {property : Declaration} (misshapen : property.isProperty = false)
    (marking : Marking) : expandTool marking property = .error (.propertyTarget marking.site) := by
  unfold expandTool
  rw [misshapen]
  rfl

theorem expandResource_of_misshapen {property : Declaration}
    (misshapen : property.isProperty = false) (marking : Marking) :
    expandResource marking property = .error (.propertyTarget marking.site) := by
  unfold expandResource
  rw [misshapen]
  rfl

/-- A block that implements a trait is refused, whatever would be done with it. -/
theorem checkInherent_bind_of_trait {block : ImplBlock} (implements : block.trait.isNone = false)
    (site : Site) (rest : Unit → Except Diagnostic Expansion) :
    (checkInherent site block >>= rest) = .error (.typeTarget site) := by
  unfold checkInherent
  cases found : block.trait with
  | none =>
      rw [found] at implements
      cases implements
  | some path => rfl

section Unfit

variable {tag : Tag} {item : List Tree}

/-- **Another kind.** An item of another kind than the tag belongs on is refused for what it is. -/
theorem expandOn_of_other_kind (other : (Target.classify item).isKindFor tag = false)
    (tokens : List Tree) : expandOn tag tokens item = .error tag.targetProblem := by
  unfold expandOn
  cases kind : Target.classify item with
  | property declaration =>
      rw [kind] at other
      cases tag with
      | tool => cases other
      | resource => cases other
      | param => cases other
      | _ => rfl
  | type block =>
      rw [kind] at other
      cases tag with
      | tool => rfl
      | resource => rfl
      | _ => cases other
  | function =>
      rw [kind] at other
      cases tag with
      | param => cases other
      | _ => rfl
  | other =>
      rw [kind] at other
      cases tag with
      | param => cases other
      | _ => rfl

/-- **Another shape.** An item of the right kind that the tag does not belong on is refused for what
it is once the arguments were read. -/
theorem expandOn_of_misshapen (fits : (Target.classify item).isKindFor tag = true)
    (unfit : (Target.classify item).admits tag = false) (tokens : List Tree) :
    expandOn tag tokens item =
      (parseMarking ⟨tag, false⟩ tokens >>= fun _ => .error tag.targetProblem) := by
  unfold expandOn
  cases kind : Target.classify item with
  | property declaration =>
      rw [kind] at fits unfit
      cases tag with
      | tool => exact parseMarking_bind_refused (expandTool_of_misshapen unfit)
      | resource => exact parseMarking_bind_refused (expandResource_of_misshapen unfit)
      | param => cases unfit
      | _ => cases fits
  | type block =>
      rw [kind] at fits unfit
      have refused (implements : block.trait.isNone = false) (marking : Marking) :=
        checkInherent_bind_of_trait implements marking.site
      cases tag with
      | server => exact parseMarking_bind_refused fun marking => refused unfit marking _
      | toolbox => exact parseMarking_bind_refused fun marking => refused unfit marking _
      | globalServer => exact parseMarking_bind_refused fun marking => refused unfit marking _
      | param => cases unfit
      | _ => cases fits
  | function =>
      rw [kind] at fits unfit
      cases tag with
      | param => cases unfit
      | _ => cases fits
  | other =>
      rw [kind] at fits unfit
      cases tag with
      | param => cases unfit
      | _ => cases fits

end Unfit

/-- **Items that a tag does not belong on.** The expansion of such an item always fails. It fails
for what the item is, and for nothing else, exactly when the item is of another kind or the
arguments can be read. When the kind fits and the arguments cannot be read, it fails for the
arguments. -/
theorem expandOn_of_unfit (tag : Tag) (tokens : List Tree) {item : List Tree}
    (unfit : (Target.classify item).admits tag = false) :
    (expandOn tag tokens item = .error tag.targetProblem ↔
      ((Target.classify item).isKindFor tag = true →
        ∃ marking, Marking.parse ⟨tag, false⟩ tokens = .ok marking)) ∧
    ∀ error, (Target.classify item).isKindFor tag = true →
      Marking.parse ⟨tag, false⟩ tokens = .error error →
        expandOn tag tokens item = .error (.malformed error.message) := by
  cases fits : (Target.classify item).isKindFor tag with
  | false =>
      refine ⟨⟨fun _ same => ?_, fun _ => expandOn_of_other_kind fits tokens⟩, fun _ same => ?_⟩
      · cases same
      · cases same
  | true =>
      rw [expandOn_of_misshapen fits unfit tokens, parseMarking]
      cases read : Marking.parse ⟨tag, false⟩ tokens with
      | ok marking =>
          refine ⟨⟨fun _ _ => ⟨marking, rfl⟩, fun _ => rfl⟩, fun error _ unread => ?_⟩
          cases unread
      | error error =>
          refine ⟨⟨fun refused => ?_, fun readable => ?_⟩, fun other _ unread => ?_⟩
          · cases tag <;> cases refused
          · obtain ⟨marking, found⟩ := readable rfl
            cases found
          · cases unread
            rfl

/-- A declaration with a parameter, which stands for no value. -/
def parameterized : List Tree :=
  [name "fn", name "echo", paren ([name "text"] ++ op ":" ++ [name "String"])] ++ op "->" ++
    [name "Tool"] ++ op ";"

def implementing : List Tree :=
  [name "impl", name "Default", name "for", name "EchoServer", brace []]

def problem? : Except Diagnostic Expansion → Option Diagnostic
  | .ok _ => none
  | .error problem => some problem

theorem problem?_eq_some {result : Except Diagnostic Expansion} {problem : Diagnostic} :
    problem? result = some problem ↔ result = .error problem := by
  cases result with
  | ok expansion => simp [problem?]
  | error other => simp [problem?]

/-- A declaration with a parameter is refused for what it is under arguments that can be read, even
when the tag does not know them. -/
theorem expandOn_of_unfit_parameterized :
    let port := [name "port"] ++ op "=" ++ [.literal "1"]
    (Target.classify parameterized).admits .tool = false ∧
      expandOn .tool port parameterized = .error (.propertyTarget ⟨.tool, false⟩) := by
  intro port
  have unfit : (Target.classify parameterized).admits .tool = false := by decide +kernel
  have readable : (Marking.parse ⟨.tool, false⟩ port).isOk = true := by decide +kernel
  refine ⟨unfit, (expandOn_of_unfit .tool port unfit).1.mpr fun _ => ?_⟩
  cases read : Marking.parse ⟨.tool, false⟩ port with
  | ok marking => exact ⟨marking, rfl⟩
  | error error =>
      rw [read] at readable
      cases readable

/-- Arguments that cannot be read hide what an item is, although its shape can be seen without them.
So not every item that a tag does not belong on is refused for what it is. -/
theorem unread_arguments_hide_target :
    (Target.classify parameterized).admits .tool = false ∧
      expandOn .tool (op "=") parameterized = .error (.malformed "expected an expression") ∧
      (Target.classify implementing).admits .server = false ∧
      expandOn .server (op "=") implementing = .error (.malformed "expected an expression") ∧
      ¬ ∀ tag tokens item, (Target.classify item).admits tag = false →
        expandOn tag tokens item = .error tag.targetProblem := by
  have unfit : (Target.classify parameterized).admits .tool = false := by decide +kernel
  have hidden : expandOn .tool (op "=") parameterized =
      .error (.malformed "expected an expression") := by
    rw [← problem?_eq_some]
    decide +kernel
  have implements : (Target.classify implementing).admits .server = false := by decide +kernel
  have masked : expandOn .server (op "=") implementing =
      .error (.malformed "expected an expression") := by
    rw [← problem?_eq_some]
    decide +kernel
  refine ⟨unfit, hidden, implements, masked, fun judged => ?_⟩
  have refused := judged .tool (op "=") parameterized unfit
  rw [hidden] at refused
  cases refused

end Toolsmith
