import Scaffold.Error.Project

/-!
# Relations to parents

An entity that belongs to others gets, for each of them in order, an injected service, a fetch
function and its call, and a select in the edit form. The select needs the parent's declaration;
under the permissive policy a parent that is not declared only goes without it.
-/

namespace Scaffold

/-- What to do about a parent that is not declared. -/
inductive RelationPolicy where
  /-- Leave its select out. -/
  | permissive
  /-- Generate nothing. -/
  | strict
  deriving DecidableEq, Repr, Inhabited

namespace RelationPolicy

/-- The word for a policy. -/
def word : RelationPolicy → String
  | permissive => "permissive"
  | strict => "strict"

/-- The policy that a flag chooses. -/
def ofStrict (strict : Bool) : RelationPolicy := if strict then .strict else .permissive

/-- The policy that a word names, in whatever case it is written. -/
def ofWord? (w : String) : Except ProjectError RelationPolicy :=
  let word := String.ofList (Text.lowerText w.toList)
  if word = "permissive" then .ok .permissive
  else if word = "strict" then .ok .strict
  else .error (.invalidProject
    ("unknown relation policy '" ++ word ++ "' (expected permissive or strict)"))

end RelationPolicy

namespace Fragment

/-- The name under which the service of a parent is injected. -/
def injectedService (parent : String) : String := "'" ++ parent ++ "Service', "

/-- The argument that the service of a parent is bound to. -/
def boundService (parent : String) : String := parent ++ "Service, "

/-- The call of a parent's fetch function. -/
def fetchCall (parent : String) : String := "\t\t\tget" ++ capitalized parent ++ "();\n"

/-- The function that loads the collection of a parent. -/
def fetchFunction (parent : String) : String :=
  let getter := "get" ++ capitalized parent
  "\t\tfunction " ++ getter ++ "() \x7b\n" ++
  "\t\t\t" ++ parent ++ "Service." ++ getter ++ "().then(\n" ++
  "\t\t\tfunction(response)\x7b\n" ++
  "\t\t\t\tvm." ++ parent ++ " = response.data.data;\n" ++
  "\t\t\t\x7d,\n" ++
  "\t\t\tfunction(error)\x7bconsole.error(error)\x7d);\n" ++
  "\t\t\x7d\n\n"

/-- The select that picks a parent of the declared entity. -/
def parentSelect (parent : Entity) : String :=
  let one := parent.singular
  "\t<div class=\"form-group\">\n" ++
  "\t\t<label for=\"" ++ one ++ "_id\">" ++ capitalized one ++ "</label>\n" ++
  "\t\t<select class=\"form-control\" id=\"" ++ one ++ "_id\"\n" ++
  "\t\tng-options=\"" ++ one ++ ".id as " ++ one ++ ".name for " ++ one ++ " in vm." ++ parent.name ++
    "\"\n" ++
  "\t\tng-model=\"vm." ++ NameCode.singular.token ++ "." ++ one ++ "_id\" required>\n" ++
  "\t\t\t<option value=\"\">---</option>\n" ++
  "\t\t</select>\n" ++
  "\t</div>\n\n"

end Fragment

/-- The fragments that an entity's relations add to its files. -/
structure Relations where
  injectedServices : String := ""
  boundServices : String := ""
  fetchFunctions : String := ""
  fetchCalls : String := ""
  /-- A select for each parent that is declared. -/
  selects : String := ""
  /-- The parents that are not declared. -/
  unresolved : List String := []
  deriving DecidableEq, Repr

namespace Relations

/-- The relations with those to one more parent, given its declaration if there is one. -/
def add (r : Relations) (name : String) (parent? : Option Entity) : Relations where
  injectedServices := r.injectedServices ++ Fragment.injectedService name
  boundServices := r.boundServices ++ Fragment.boundService name
  fetchFunctions := r.fetchFunctions ++ Fragment.fetchFunction name
  fetchCalls := r.fetchCalls ++ Fragment.fetchCall name
  selects := r.selects ++ (parent?.map Fragment.parentSelect).getD ""
  unresolved := if parent?.isNone then r.unresolved ++ [name] else r.unresolved

/-- Goes on along the parents of an entity, given the relations to those before. -/
def expandFrom (p : Project) (policy : RelationPolicy) (entity : String) (r : Relations) :
    (parents : List String) → Except ProjectError Relations
  | [] => .ok r
  | name :: parents =>
    match p.entity? name, policy with
    | none, .strict => .error (.unresolvedRelation entity name)
    | parent?, _ => expandFrom p policy entity (r.add name parent?) parents

/-- The relations of an entity, unless the policy is strict and a parent is not declared. -/
def expand (p : Project) (policy : RelationPolicy) (e : Entity) : Except ProjectError Relations :=
  expandFrom p policy e.name {} e.parents

end Relations

end Scaffold
