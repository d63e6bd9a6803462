import Scaffold.Error.Project
import Scaffold.Path.Contained
import Scaffold.Template.Filling
import Scaffold.Text.Replace

/-!
# Rendering in two stages

A base file is rendered in two stages. The first fills its slots, which leaves a residual text:
the fragments bring name codes of their own. The second replaces the name codes of an entity's
file, after it has made sure that no other token is left; a file of the whole application may
hold no token.
-/

namespace Scaffold

/-- A base file whose slots are filled. -/
structure Residual where
  text : String
  deriving DecidableEq, Repr

/-- The string with every occurrence of a token replaced. -/
def replaced (token value text : String) : String :=
  String.ofList (Text.replaceAll token.toList value.toList text.toList)

/-- The names of the tokens of a string, in order of appearance. -/
def tokenNames (text : String) : List String := (Template.findTokens text.toList).map String.ofList

/-- Fills the slots that a base file declares, one after the other. -/
def BaseFile.render (file : BaseFile) (source : String) (filling : Filling) :
    Except ProjectError Residual :=
  Residual.mk <$> file.slots.foldlM (fun text slot =>
    match filling.value? slot with
    | some value => .ok (replaced slot.token value text)
    | none => .error (.missingSlot file slot)) source

namespace Residual

/-- Replaces the name codes of a file. A token that is no name code is an error, for which `file` is
named. -/
def resolve (residual : Residual) (entity : Entity) (app : String) (file : ContainedPath) :
    Except ProjectError String :=
  match (tokenNames residual.text).find? fun name => (NameCode.ofName? name).isNone with
  | some token => .error (.unresolvedToken file.display token)
  | none => .ok <| NameCode.all.foldl
      (fun text code => replaced code.token (code.value entity app) text) residual.text

/-- The text of a file that has no name codes. Any token is an error, for which `file` is named. -/
def finish (residual : Residual) (file : ContainedPath) : Except ProjectError String :=
  match tokenNames residual.text with
  | token :: _ => .error (.unresolvedToken file.display token)
  | [] => .ok residual.text

end Residual

end Scaffold
