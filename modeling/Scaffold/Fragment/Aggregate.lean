import Scaffold.Project.Basic

/-!
# Blocks of the shared files

What an entity adds to the files that all entities share: its routes, its menu entry and the scripts
to load.
-/

namespace Scaffold.Fragment

/-- The states of an entity: its list, and below it the form. -/
def routeStates (e : Entity) : String :=
  let many := e.name
  "\t\t.state('root." ++ many ++ "', \x7b\n" ++
  "\t\t\turl: '/" ++ many ++ "',\n" ++
  "\t\t\tviews: \x7b\n" ++
  "\t\t\t\t'main@': \x7b\n" ++
  "\t\t\t\t\ttemplateUrl: 'app/components/" ++ many ++ "/views/" ++ many ++ ".list.html',\n" ++
  "\t\t\t\t\tcontroller: '" ++ many ++ "Controller as vm'\n" ++
  "\t\t\t\t\x7d\n" ++
  "\t\t\t\x7d\n" ++
  "\t\t\x7d)\n" ++
  "\t\t.state('root." ++ many ++ ".edit', \x7b\n" ++
  "\t\t\turl: '/edit/:id',\n" ++
  "\t\t\tviews: \x7b\n" ++
  "\t\t\t\t'main@': \x7b\n" ++
  "\t\t\t\t\ttemplateUrl: 'app/components/" ++ many ++ "/views/" ++ many ++ ".edit.html',\n" ++
  "\t\t\t\t\tcontroller: '" ++ e.singular ++ "EditController as vm'\n" ++
  "\t\t\t\t\x7d\n" ++
  "\t\t\t\x7d\n" ++
  "\t\t\x7d)\n"

/-- The menu entry of an entity. -/
def menuEntry (e : Entity) : String :=
  "\t\t<li role=\"presentation\"><a href=\"#\" ui-sref=\"root." ++ e.name ++ "\">" ++
    capitalized e.name ++ "</a></li>\n"

/-- The scripts of an entity: services, list controller, edit controller. -/
def scriptIncludes (e : Entity) : String :=
  let stem := "\t<script src=\"/app/components/" ++ e.name ++ "/" ++ e.name
  "\t<!-- " ++ capitalized e.name ++ " -->\n" ++
  stem ++ ".services.js\"></script>\n" ++
  stem ++ ".controller.js\"></script>\n" ++
  stem ++ ".edit.controller.js\"></script>\n\n"

end Scaffold.Fragment
