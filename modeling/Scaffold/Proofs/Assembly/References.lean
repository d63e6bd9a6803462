import Scaffold.Proofs.Assembly.Content
import Scaffold.Proofs.Assembly.Guards

/-!
# References between the files of an application

The files of an application refer to each other by names that are spelled out in several places: in
the blocks of the shared files, in the models, and in the fragments of relations. Over the bundled
base code the spellings agree (`Bundled.links`): what a page loads and a state shows is a file of
the application, the controller that a state binds is registered there, and what an entity fetches
of a declared parent is served by the parent's file.
-/

namespace Scaffold

open Template (Spells IsFramed Segment head?_toList_append getLast?_toList_append)

/-! ### Texts of references -/

namespace Reference

/-- The tag that loads a script. -/
def script (path : String) : String := "\t<script src=\"/" ++ path ++ "\"></script>\n"

/-- The state that shows a view by a controller. -/
def state (name url view controller : String) : String :=
  "\t\t.state('" ++ name ++ "', \x7b\n" ++
  "\t\t\turl: '" ++ url ++ "',\n" ++
  "\t\t\tviews: \x7b\n" ++
  "\t\t\t\t'main@': \x7b\n" ++
  "\t\t\t\t\ttemplateUrl: '" ++ view ++ "',\n" ++
  "\t\t\t\t\tcontroller: '" ++ controller ++ " as vm'\n" ++
  "\t\t\t\t\x7d\n" ++
  "\t\t\t\x7d\n" ++
  "\t\t\x7d)\n"

/-- The registration of a controller. -/
def controller (name : String) : String := "\t.controller('" ++ name ++ "', ["

/-- The registration of the services of an entity, with that which fetches all. -/
def services (name : String) : String :=
  "\t.factory('" ++ name ++ "Service', ['$http', 'config', function($http, config) \x7b\n" ++
  "\t\tvar url = config.ApiAddress + '/" ++ name ++ "';\n" ++
  "\n" ++
  "\t\treturn \x7b\n" ++
  "\t\t\tget" ++ capitalized name ++ ": get" ++ capitalized name ++ ","

/-- The call that fetches all of a parent, and where they are kept. -/
def fetch (parent : String) : String :=
  "\t\t\t" ++ parent ++ "Service.get" ++ capitalized parent ++ "().then(\n" ++
  "\t\t\tfunction(response)\x7b\n" ++
  "\t\t\t\tvm." ++ parent ++ " = response.data.data;\n"

/-- The select that offers what is kept of a parent. -/
def select (parent : Entity) : String :=
  let one := parent.singular
  "\t\t<select class=\"form-control\" id=\"" ++ one ++ "_id\"\n" ++
  "\t\tng-options=\"" ++ one ++ ".id as " ++ one ++ ".name for " ++ one ++ " in vm." ++ parent.name ++
    "\"\n"

end Reference

theorem Fragment.scriptIncludes_eq (e : Entity) :
    scriptIncludes e = "\t<!-- " ++ capitalized e.name ++ " -->\n" ++
      Reference.script (Model.services.location e) ++
      Reference.script (Model.listController.location e) ++
      Reference.script (Model.editController.location e) ++ "\n" := by
  -- the fragment spells the ends of a location and of the tag in one literal
  have hstem : "\t<script src=\"/app/components/" = "\t<script src=\"/" ++ "app/components/" := rfl
  have hservices : ".services.js\"></script>\n" = ".services.js" ++ "\"></script>\n" := rfl
  have hlist : ".controller.js\"></script>\n" = ".controller.js" ++ "\"></script>\n" := rfl
  have hedit : ".edit.controller.js\"></script>\n\n" =
      ".edit.controller.js" ++ "\"></script>\n" ++ "\n" := rfl
  unfold scriptIncludes Reference.script Model.location Entity.directory
  simp only [hstem, hservices, hlist, hedit]
  simp only [String.append_assoc]

theorem Fragment.routeStates_eq (e : Entity) :
    routeStates e =
      Reference.state ("root." ++ e.name) ("/" ++ e.name) (Model.listView.location e)
        (e.name ++ "Controller") ++
      Reference.state ("root." ++ e.name ++ ".edit") "/edit/:id" (Model.editView.location e)
        (e.singular ++ "EditController") := by
  have hname : "\t\t.state('root." = "\t\t.state('" ++ "root." := rfl
  have hurl : "\t\t\turl: '/" = "\t\t\turl: '" ++ "/" := rfl
  have hview : "\t\t\t\t\ttemplateUrl: 'app/components/" =
      "\t\t\t\t\ttemplateUrl: '" ++ "app/components/" := rfl
  have hviews : "/views/" = "/views" ++ "/" := rfl
  have hlist : ".list.html',\n" = ".list.html" ++ "',\n" := rfl
  have hcontroller : "Controller as vm'\n" = "Controller" ++ " as vm'\n" := rfl
  have hedit : ".edit', \x7b\n" = ".edit" ++ "', \x7b\n" := rfl
  have hid : "\t\t\turl: '/edit/:id',\n" = "\t\t\turl: '" ++ "/edit/:id" ++ "',\n" := rfl
  have hform : ".edit.html',\n" = ".edit.html" ++ "',\n" := rfl
  have heditController : "EditController as vm'\n" = "EditController" ++ " as vm'\n" := rfl
  unfold routeStates Reference.state Model.location Entity.viewsDirectory Entity.directory
  simp only [hname, hurl, hview, hviews, hlist, hcontroller, hedit, hid, hform, heditController]
  simp only [String.append_assoc]

/-! ### Fragments of relations -/

namespace Reference

theorem isFramed_fetch (parent : String) : IsFramed (fetch parent).toList := by
  refine .of_lines ?_ (getLast?_toList_append (by decide) _)
  repeat apply head?_toList_append
  decide

theorem isFramed_select (parent : Entity) : IsFramed (select parent).toList := by
  refine .of_lines ?_ (getLast?_toList_append (by decide) _)
  repeat apply head?_toList_append
  decide

section
variable {known : List Char → Bool}

theorem spells_fetch {parent : String} (hp : IsPlainName parent) : Spells known (fetch parent) :=
  Spells.literal (by decide) |>.andName hp |>.andLiteral (by decide) |>.andName hp.capitalized
    |>.andLiteral (by decide) |>.andLiteral (by decide) |>.andLiteral (by decide) |>.andName hp
    |>.andLiteral (by decide)

theorem spells_select {parent : Entity} (hp : parent.HasPlainNames) :
    Spells known (select parent) :=
  Spells.literal (by decide) |>.andName hp.singular |>.andLiteral (by decide)
    |>.andLiteral (by decide) |>.andName hp.singular |>.andLiteral (by decide)
    |>.andName hp.singular |>.andLiteral (by decide) |>.andName hp.singular
    |>.andLiteral (by decide) |>.andName hp.name |>.andLiteral (by decide)

end

theorem infix_fetchFunction (parent : String) :
    (fetch parent).toList <:+: (Fragment.fetchFunction parent).toList := by
  refine infix_of_eq_append (a := "\t\tfunction get" ++ capitalized parent ++ "() \x7b\n")
    (b := "\t\t\t\x7d,\n" ++
      "\t\t\tfunction(error)\x7bconsole.error(error)\x7d);\n" ++
      "\t\t\x7d\n\n") ?_
  have hfunction : "\t\tfunction get" = "\t\tfunction " ++ "get" := rfl
  have hservice : "Service.get" = "Service." ++ "get" := rfl
  unfold Fragment.fetchFunction fetch
  simp only [hfunction, hservice]
  simp only [String.append_assoc]

theorem infix_parentSelect (parent : Entity) :
    (select parent).toList <:+: (Fragment.parentSelect parent).toList := by
  refine infix_of_eq_append
    (a := "\t<div class=\"form-group\">\n" ++
      "\t\t<label for=\"" ++ parent.singular ++ "_id\">" ++ capitalized parent.singular ++
        "</label>\n")
    (b := "\t\tng-model=\"vm." ++ NameCode.singular.token ++ "." ++ parent.singular ++
        "_id\" required>\n" ++
      "\t\t\t<option value=\"\">---</option>\n" ++
      "\t\t</select>\n" ++
      "\t</div>\n\n") ?_
  unfold Fragment.parentSelect select
  simp only [String.append_assoc]

end Reference

/-! ### Anchors of references -/

namespace Bundled

/-- The places in the models where references lead to or start from. -/
inductive Anchor where
  | services
  | listController
  | editController
  | fetch
  | select

namespace Anchor

def model : Anchor → Model
  | services => .services
  | listController => .listController
  | editController => .editController
  | fetch => .editController
  | select => .editView

/-- What stands at the place in the model. -/
def segments : Anchor → List Segment
  | services => [
      .literal "\t.factory('".toList, .token NameCode.plural.name.toList,
      .literal "Service', ['$http', 'config', function($http, config) \x7b\n".toList,
      .literal "\t\tvar url = config.ApiAddress + '/".toList, .token NameCode.plural.name.toList,
      .literal "';\n".toList, .literal "\n".toList, .literal "\t\treturn \x7b\n".toList,
      .literal "\t\t\tget".toList, .token NameCode.pluralCapital.name.toList,
      .literal ": get".toList, .token NameCode.pluralCapital.name.toList, .literal ",".toList]
  | listController => [
      .literal "\t.controller('".toList, .token NameCode.plural.name.toList,
      .literal "Controller".toList, .literal "', [".toList]
  | editController => [
      .literal "\t.controller('".toList, .token NameCode.singular.name.toList,
      .literal "EditController".toList, .literal "', [".toList]
  | fetch => [
      .literal "\n".toList, .token Slot.getForeignObjects.name.toList, .literal "\t".toList]
  | select => [
      .literal "\n".toList, .token Slot.formFields.name.toList,
      .token Slot.foreignSelectsFields.name.toList, .literal "\t".toList]

theorem wellFormed (anchor : Anchor) : ∀ s ∈ anchor.segments, s.WellFormed := by
  cases anchor <;> decide +kernel

def template (anchor : Anchor) : Template := ⟨anchor.segments, anchor.wellFormed⟩

theorem isFramed (anchor : Anchor) : IsFramed anchor.template.chars :=
  .of_any (by cases anchor <;> decide +kernel)

theorem infix_of_toList_eq {s : String} {piece cs : List Char} (hs : s.toList = cs)
    (h : piece <:+: cs) : piece <:+: s.toList := hs ▸ h

theorem infix_source (anchor : Anchor) :
    anchor.template.chars <:+: (source (.model anchor.model)).toList := by
  -- the characters of the source are put together first, the search then decides over them
  cases anchor <;> apply infix_of_toList_eq
  case services.hs | listController.hs | editController.hs | fetch.hs | select.hs =>
    repeat apply toList_append_ofList
    exact String.toList_ofList
  all_goals decide +kernel

/-- What stands at the place in the file of an entity. -/
def text (p : Project) (e : Entity) : Anchor → String
  | services => Reference.services e.name
  | listController => Reference.controller (e.name ++ "Controller")
  | editController => Reference.controller (e.singular ++ "EditController")
  | fetch => "\n" ++ Slot.getForeignObjects.expansion p e ++ "\t"
  | select =>
    "\n" ++ Slot.formFields.expansion p e ++ Slot.foreignSelectsFields.expansion p e ++ "\t"

theorem filled_eq (anchor : Anchor) (p : Project) (e : Entity) :
    anchor.template.filled (anchor.model.tokenChars p e) = (anchor.text p e).toList := by
  cases anchor
  all_goals
    unfold text template Template.filled segments model
    simp only [List.flatMap_cons, List.flatMap_nil, Segment.filled, Model.tokenChars_code]
  case services =>
    unfold Reference.services
    simp only [NameCode.value, String.toList_append, List.append_assoc, List.append_nil]
  case listController | editController =>
    unfold Reference.controller
    simp only [NameCode.value, String.toList_append, List.append_assoc, List.append_nil]
  case fetch | select =>
    simp (disch := decide) only [Model.tokenChars_slot, String.toList_append, List.append_assoc,
      List.append_nil]

end Anchor

end Bundled

/-! ### Applications -/

namespace Application

/-- A text stands in the file at a path of the application. -/
def HasText (a : Application) (path text : String) : Prop :=
  ∃ content, a.tree.content? ⟨path⟩ = some content ∧ text.toList <:+: content.toList

/-- What an entity asks of a declared parent, and what the parent's file offers. -/
structure LinksParent (a : Application) (e : Entity) (parent : Entity) : Prop where
  fetched : a.HasText (Model.editController.location e) (Reference.fetch parent.name)
  selected : a.HasText (Model.editView.location e) (Reference.select parent)
  served : a.HasText (Model.services.location parent) (Reference.services parent.name)

/-- The names by which the application refers to the files of an entity and to what they
register. -/
structure Links (a : Application) (p : Project) (e : Entity) : Prop where
  /-- The files of the module stand in the application. -/
  files : ∃ m, Module.assemble p .permissive Bundled.baseCode e = .ok m ∧ ∀ model, ∃ content,
    m.content? model = some content ∧ a.tree.content? ⟨model.location e⟩ = some content
  /-- The page loads the scripts of the module. -/
  scripts : Fragment.scriptIncludes e = "\t<!-- " ++ capitalized e.name ++ " -->\n" ++
    Reference.script (Model.services.location e) ++
    Reference.script (Model.listController.location e) ++
    Reference.script (Model.editController.location e) ++ "\n"
  /-- The states show the views of the module by its controllers. -/
  states : Fragment.routeStates e =
    Reference.state ("root." ++ e.name) ("/" ++ e.name) (Model.listView.location e)
      (e.name ++ "Controller") ++
    Reference.state ("root." ++ e.name ++ ".edit") "/edit/:id" (Model.editView.location e)
      (e.singular ++ "EditController")
  listController : a.HasText (Model.listController.location e)
    (Reference.controller (e.name ++ "Controller"))
  editController : a.HasText (Model.editController.location e)
    (Reference.controller (e.singular ++ "EditController"))
  parents : ∀ name ∈ e.parents, ∀ parent, p.entity? name = some parent →
    parent.name = name ∧ a.LinksParent e parent

end Application

namespace Bundled

variable {p : Project} {a : Application}

section
variable {e : Entity} (hp : p.IsPlain)
  (ha : Application.assemble p .permissive baseCode = .ok a) (he : e ∈ p.entities)
include hp ha he

/-- What an anchor holds stands in the file of its model. -/
theorem Anchor.hasText (anchor : Anchor) {text : String}
    (h : text.toList <:+: (anchor.text p e).toList) :
    a.HasText (anchor.model.location e) text := by
  obtain ⟨m, -, hfiles⟩ := Application.exists_file ha he
  obtain ⟨f, hf, -, hcontent⟩ := hfiles anchor.model
  have hpiece := Module.infix_content hp.camelName hp.hasPlainNames (hp.entities e he) hf
    (content_baseCode _) (spells_model _) anchor.isFramed anchor.infix_source
  rw [anchor.filled_eq] at hpiece
  exact ⟨f.content, hcontent, h.trans hpiece⟩

theorem hasText_services :
    a.HasText (Model.services.location e) (Reference.services e.name) :=
  Anchor.services.hasText hp ha he List.infix_rfl

theorem hasText_fetch {name : String} (hname : name ∈ e.parents) :
    a.HasText (Model.editController.location e) (Reference.fetch name) := by
  have hplain := hp.entities e he
  have hslot := Slot.getForeignObjects.infix_expansion hp.hasPlainNames hplain
    (Reference.isFramed_fetch name) (Reference.spells_fetch (hplain.parents name hname))
    (List.mem_map_of_mem hname) (Reference.infix_fetchFunction name)
  exact Anchor.fetch.hasText hp ha he (hslot.trans (infix_of_eq_append rfl))

theorem hasText_select {name : String} {parent : Entity} (hname : name ∈ e.parents)
    (hparent : p.entity? name = some parent) :
    a.HasText (Model.editView.location e) (Reference.select parent) := by
  have hdeclared := (Project.of_entity?_eq_some hparent).1
  have hslot := Slot.foreignSelectsFields.infix_expansion hp.hasPlainNames (hp.entities e he)
    (Reference.isFramed_select parent) (Reference.spells_select (hp.hasPlainNames parent hdeclared))
    (List.mem_map_of_mem (List.mem_filterMap.2 ⟨name, hname, hparent⟩))
    (Reference.infix_parentSelect parent)
  exact Anchor.select.hasText hp ha he (hslot.trans (infix_of_eq_append rfl))

end

/-- Every reference between the files of an application leads where it says. -/
theorem links (hp : p.IsPlain) (ha : Application.assemble p .permissive baseCode = .ok a) :
    ∀ e ∈ p.entities, a.Links p e := by
  intro e he
  obtain ⟨m, hm, hfiles⟩ := Application.exists_file ha he
  exact {
    files := by
      refine ⟨m, hm, fun model => ?_⟩
      obtain ⟨f, -, hown, hcontent⟩ := hfiles model
      exact ⟨f.content, hown, hcontent⟩
    scripts := Fragment.scriptIncludes_eq e
    states := Fragment.routeStates_eq e
    listController := Anchor.listController.hasText hp ha he List.infix_rfl
    editController := Anchor.editController.hasText hp ha he List.infix_rfl
    parents := by
      intro name hname parent hparent
      obtain ⟨hdeclared, rfl⟩ := Project.of_entity?_eq_some hparent
      exact ⟨rfl, hasText_fetch hp ha he hname, hasText_select hp ha he hname hparent,
        hasText_services hp ha hdeclared⟩ }

/-- A car that belongs to a maker. -/
theorem links_of_cars :
    let maker : Entity := ⟨"makers", "maker", [], []⟩
    let car : Entity := ⟨"cars", "car", [⟨"price", .float, true, true, none⟩], ["makers", "lots"]⟩
    let garage : Project := ⟨"Garage", none, [maker, car]⟩
    ∃ a, Application.assemble garage .permissive baseCode = .ok a ∧ a.Links garage car ∧
      a.HasText "app/components/cars/cars.edit.controller.js" (Reference.fetch "makers") ∧
      a.HasText "app/components/makers/makers.services.js" (Reference.services "makers") := by
  intro maker car garage
  have hplain : garage.IsPlain := by decide +kernel
  obtain ⟨a, ha⟩ := exists_assemble_iff_fits.2 (fits hplain (by decide) (by decide))
  have hlinks := links hplain ha
  obtain ⟨-, hparent⟩ := (hlinks car (by decide)).parents "makers" (by decide) maker (by decide)
  exact ⟨a, ha, hlinks car (by decide), hparent.fetched, hparent.served⟩

end Bundled

end Scaffold
