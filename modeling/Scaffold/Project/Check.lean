import Scaffold.Fragment.Relation
import Scaffold.Text.Character

/-!
# Checking a project

The generation takes a description as it is. A check looks for what is wrong with one: blank names,
names that are given twice, parents that are not declared. It reports everything it finds, in the
order of the description.
-/

namespace Scaffold

/-- How grave an issue is. -/
inductive Severity where
  | warning
  | error
  deriving DecidableEq, Repr

/-- The word for a severity. -/
def Severity.word : Severity → String
  | warning => "warning"
  | error => "error"

/-- Something that a check found. -/
structure Issue where
  severity : Severity
  cause : ProjectError
  deriving DecidableEq, Repr

/-- An issue that is an error if the condition holds, else nothing. -/
def Issue.errorIf (condition : Prop) [Decidable condition] (cause : ProjectError) : List Issue :=
  if condition then [⟨.error, cause⟩] else []

/-- Whether a name is empty or blank. -/
def isBlankName (name : String) : Bool := Text.isBlankText name.toList

namespace Entity

/-- The blank names of an entity. -/
def nameIssues (e : Entity) : List Issue :=
  Issue.errorIf (isBlankName e.name) (.invalidProject "an object has an empty name") ++
  Issue.errorIf (isBlankName e.singular)
    (.invalidProject ("object '" ++ e.name ++ "' has an empty name_singular")) ++
  e.fields.flatMap fun f => Issue.errorIf (isBlankName f.name)
    (.invalidProject ("object '" ++ e.name ++ "' has a field with an empty name"))

/-- The labels of an entity that an earlier one has too. -/
def repeatIssues (e : Entity) (earlier : List Entity) : List Issue :=
  Issue.errorIf (e.name ∈ earlier.map (·.name)) (.duplicateEntity .name e.name) ++
  Issue.errorIf (e.singular ∈ earlier.map (·.singular)) (.duplicateEntity .singular e.singular)

end Entity

/-- How grave it is that a parent is not declared. -/
def RelationPolicy.severity : RelationPolicy → Severity
  | permissive => .warning
  | strict => .error

/-- The parents of an entity that the project does not declare. -/
def Relations.unresolvedParents (p : Project) (e : Entity) : List String :=
  e.parents.filter fun name => (p.entity? name).isNone

namespace Project

/-- The issues about the parents of an entity. -/
def parentIssues (p : Project) (policy : RelationPolicy) (e : Entity) : List Issue :=
  (Relations.unresolvedParents p e).map fun name =>
    ⟨policy.severity, .unresolvedRelation e.name name⟩

/-- The issues of the entities `rest`, before which `earlier` stand. -/
def entityIssues (p : Project) (policy : RelationPolicy) (earlier : List Entity) :
    (rest : List Entity) → List Issue
  | [] => []
  | e :: rest =>
    e.nameIssues ++ e.repeatIssues earlier ++ p.parentIssues policy e ++
      p.entityIssues policy (e :: earlier) rest

/-- Everything that is wrong with a project, in the order of its description. -/
def check (p : Project) (policy : RelationPolicy) : List Issue :=
  Issue.errorIf (isBlankName p.name) (.invalidProject "project name is empty") ++
  Issue.errorIf (p.entities = []) (.invalidProject "project declares no objects") ++
  p.entityIssues policy [] p.entities

end Project

namespace Issue

/-- The causes of the issues of one severity. -/
def causes (issues : List Issue) (severity : Severity) : List ProjectError :=
  (issues.filter fun i => i.severity = severity).map (·.cause)

/-- The first error among the issues, if there is one. Warnings do no harm. -/
def firstError? (issues : List Issue) : Option ProjectError := (causes issues .error).head?

end Issue

end Scaffold
