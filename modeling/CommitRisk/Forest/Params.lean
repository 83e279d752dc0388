import CommitRisk.Json.Numeral
import CommitRisk.Json.Writer

/-!
# Hyper-parameters of a Forest

How many trees a forest has, how deep they may grow and what they are seeded
with. The parameters are written as a JSON object with all three members and
read from one with any of them, or from an array that gives them by position.
A member that is not known is skipped whatever its value, and a known one may
not come twice.

## Main definitions

* `HyperParameters`: The parameters.
* `ParameterFault`: Why no forest can be grown with them.
* `HyperParameters.fault?`: The fault of parameters, if there is one.
* `HyperParameters.toJson`, `HyperParameters.ofJson?`: Writing and reading.
* `HyperParameters.parse?`: The parameters written in a text.
-/

namespace CommitRisk

/-- The parameters a forest is grown with. -/
structure HyperParameters where
  estimators : UInt64
  /-- The depth at which a branch becomes a leaf, the root being at zero. -/
  maxDepth : Option UInt64
  seed : Option UInt64
deriving DecidableEq, Repr

/-- Why no forest can be grown. -/
inductive ParameterFault where
  | noTrees
  | noDepth
deriving DecidableEq, Repr

/-- The text of a parameter fault. -/
def ParameterFault.text : ParameterFault → String
  | .noTrees => "n_estimators must be >= 1"
  | .noDepth => "max_depth must be >= 1 when set"

namespace HyperParameters

/-- A hundred trees of any depth without a seed. -/
def default : HyperParameters where
  estimators := 100
  maxDepth := none
  seed := none

/-- The fault of parameters, if there is one: a forest needs a tree, and a tree
    that has a largest depth needs to be allowed one split. -/
def fault? (p : HyperParameters) : Option ParameterFault :=
  if p.estimators = 0 then some .noTrees
  else if p.maxDepth = some 0 then some .noDepth
  else none

/-- The parameters as a JSON object. -/
def toJson (p : HyperParameters) : Json :=
  .object [
    ("n_estimators", .ofNat p.estimators.toNat),
    ("max_depth", .ofOption (fun d => .ofNat d.toNat) p.maxDepth),
    ("random_state", .ofOption (fun s => .ofNat s.toNat) p.seed)]

/-- The parameters on one line. -/
def text (p : HyperParameters) : String :=
  p.toJson.compact

end HyperParameters

/-- A count as the value of a parameter. -/
def Json.toCount? : Json → Option UInt64
  | .number literal => count? literal
  | _ => none

/-- A count or null as the value of a parameter that may be left open. -/
def Json.toOptionalCount? : Json → Option (Option UInt64)
  | .null => some none
  | j => j.toCount?.map some

namespace HyperParameters

/-- The parameters found so far in an object, each of them present if its member
    came by. -/
structure Members where
  estimators : Option UInt64
  maxDepth : Option (Option UInt64)
  seed : Option (Option UInt64)

/-- No member has come by. -/
def Members.none : Members :=
  ⟨Option.none, Option.none, Option.none⟩

/-- Reads one member of an object. A known member may come only once. -/
def Members.member (p : Members) (key : String) (value : Json) : Option Members :=
  if key = "n_estimators" then
    if p.estimators.isSome then Option.none
    else value.toCount?.map fun n => { p with estimators := some n }
  else if key = "max_depth" then
    if p.maxDepth.isSome then Option.none
    else value.toOptionalCount?.map fun d => { p with maxDepth := some d }
  else if key = "random_state" then
    if p.seed.isSome then Option.none
    else value.toOptionalCount?.map fun s => { p with seed := some s }
  else some p

/-- The parameters, with the default for those that did not come by. -/
def Members.complete (p : Members) : HyperParameters where
  estimators := p.estimators.getD default.estimators
  maxDepth := p.maxDepth.getD default.maxDepth
  seed := p.seed.getD default.seed

/-- The parameters a JSON value stands for. -/
def ofJson? : Json → Option HyperParameters
  | .object members =>
      (members.foldlM (fun (found : Members) (key, value) => found.member key value)
        Members.none).map Members.complete
  | .array [] => some default
  | .array [n] => n.toCount?.map fun n => { default with estimators := n }
  | .array [n, d] => do
      let n ← n.toCount?
      let d ← d.toOptionalCount?
      return { default with estimators := n, maxDepth := d }
  | .array [n, d, s] => do
      let n ← n.toCount?
      let d ← d.toOptionalCount?
      let s ← s.toOptionalCount?
      return ⟨n, d, s⟩
  | _ => Option.none

/-- The parameters written in a text. -/
def parse? (s : String) : Option HyperParameters :=
  (Json.parse? s).bind ofJson?

end HyperParameters

end CommitRisk
