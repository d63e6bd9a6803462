import Scaffold.BaseCode.Basic

/-!
# The bundled base code

A base code for applications that run in a browser: one page, with a list and a form for each entity.
Its files are given in the order in which they are put together.
-/

namespace Scaffold

namespace Bundled

/-- The page that loads everything. -/
def index : String :=
  "<!DOCTYPE html>\n" ++
  "<html lang=\"en\" ng-app=\"angularAppName\">\n" ++
  "<head>\n" ++
  "\t<meta charset=\"utf-8\">\n" ++
  "\t<meta name=\"viewport\" content=\"width=device-width, initial-scale=1\">\n" ++
  "\t<title>appName</title>\n" ++
  "\t<link rel=\"stylesheet\" href=\"https://cdnjs.cloudflare.com/ajax/libs/twitter-bootstrap/3.4.1/css/bootstrap.min.css\">\n" ++
  "\t<link rel=\"stylesheet\" href=\"/app/styles/app.css\">\n" ++
  "</head>\n" ++
  "<body>\n" ++
  "\t<div ui-view=\"header\"></div>\n" ++
  "\t<div class=\"container-fluid\">\n" ++
  "\t\t<div class=\"row\">\n" ++
  "\t\t\t<div class=\"col-sm-3 col-md-2 sidebar\" ui-view=\"sidebar\"></div>\n" ++
  "\t\t\t<div class=\"col-sm-9 col-sm-offset-3 col-md-10 col-md-offset-2 main\" ui-view=\"main\"></div>\n" ++
  "\t\t</div>\n" ++
  "\t</div>\n" ++
  "\n" ++
  "\t<script src=\"https://cdnjs.cloudflare.com/ajax/libs/angular.js/1.8.3/angular.min.js\"></script>\n" ++
  "\t<script src=\"https://cdnjs.cloudflare.com/ajax/libs/angular-ui-router/1.0.30/angular-ui-router.min.js\"></script>\n" ++
  "\t<script src=\"https://cdnjs.cloudflare.com/ajax/libs/danialfarid-angular-file-upload/12.2.13/ng-file-upload-all.min.js\"></script>\n" ++
  "\n" ++
  "\t<script src=\"/app/app.js\"></script>\n" ++
  "\t<script src=\"/app/app.config.js\"></script>\n" ++
  "\t<script src=\"/app/app.states.js\"></script>\n" ++
  "\t<script src=\"/app/components/home/home.controller.js\"></script>\n" ++
  "\n" ++
  "\x7b%insertScripts%\x7d</body>\n" ++
  "</html>\n"

/-- The application module. -/
def app : String :=
  "angular.module('angularAppName', ['ui.router', 'ngFileUpload']);\n"

/-- The constants of the application. -/
def appConfig : String :=
  "angular.module('angularAppName')\n" ++
  "\t.constant('config', \x7b\n" ++
  "\t\tApiAddress: '/api',\n" ++
  "\t\tUploadAddress: '/uploads'\n" ++
  "\t\x7d);\n"

/-- The routes of the application. -/
def appStates : String :=
  "angular.module('angularAppName')\n" ++
  "\t.config(['$stateProvider', '$urlRouterProvider', function($stateProvider, $urlRouterProvider) \x7b\n" ++
  "\t\t$urlRouterProvider.otherwise('/');\n" ++
  "\n" ++
  "\t\t$stateProvider\n" ++
  "\t\t.state('root', \x7b\n" ++
  "\t\t\turl: '',\n" ++
  "\t\t\tabstract: true,\n" ++
  "\t\t\tviews: \x7b\n" ++
  "\t\t\t\t'header': \x7b\n" ++
  "\t\t\t\t\ttemplateUrl: 'app/components/layout/views/header.html'\n" ++
  "\t\t\t\t\x7d,\n" ++
  "\t\t\t\t'sidebar': \x7b\n" ++
  "\t\t\t\t\ttemplateUrl: 'app/components/layout/views/sidebar.html'\n" ++
  "\t\t\t\t\x7d\n" ++
  "\t\t\t\x7d\n" ++
  "\t\t\x7d)\n" ++
  "\t\t.state('root.home', \x7b\n" ++
  "\t\t\turl: '/',\n" ++
  "\t\t\tviews: \x7b\n" ++
  "\t\t\t\t'main@': \x7b\n" ++
  "\t\t\t\t\ttemplateUrl: 'app/components/home/views/home.html',\n" ++
  "\t\t\t\t\tcontroller: 'homeController as vm'\n" ++
  "\t\t\t\t\x7d\n" ++
  "\t\t\t\x7d\n" ++
  "\t\t\x7d)\n" ++
  "\x7b%states%\x7d\t\t;\n" ++
  "\t\x7d]);\n"

/-- The style sheet. -/
def appStyles : String :=
  "body \x7b\n" ++
  "\tpadding-top: 50px;\n" ++
  "\x7d\n" ++
  "\n" ++
  ".sidebar \x7b\n" ++
  "\tposition: fixed;\n" ++
  "\ttop: 51px;\n" ++
  "\tbottom: 0;\n" ++
  "\tleft: 0;\n" ++
  "\tpadding: 20px;\n" ++
  "\toverflow-x: hidden;\n" ++
  "\toverflow-y: auto;\n" ++
  "\tbackground-color: #f5f5f5;\n" ++
  "\tborder-right: 1px solid #eee;\n" ++
  "\x7d\n" ++
  "\n" ++
  ".main \x7b\n" ++
  "\tpadding: 20px;\n" ++
  "\x7d\n"

/-- The controller of the start page. -/
def homeController : String :=
  "angular.module('angularAppName')\n" ++
  "\t.controller('homeController', [function() \x7b\n" ++
  "\t\tvar vm = this;\n" ++
  "\t\tvm.title = 'appName';\n" ++
  "\t\x7d]);\n"

/-- The start page. -/
def homeView : String :=
  "<div class=\"jumbotron\">\n" ++
  "\t<h1>\x7b\x7bvm.title\x7d\x7d</h1>\n" ++
  "\t<p>Pick a collection from the menu to get started.</p>\n" ++
  "</div>\n"

/-- The header. -/
def headerView : String :=
  "<nav class=\"navbar navbar-inverse navbar-fixed-top\">\n" ++
  "\t<div class=\"container-fluid\">\n" ++
  "\t\t<div class=\"navbar-header\">\n" ++
  "\t\t\t<a class=\"navbar-brand\" href=\"#\" ui-sref=\"root.home\">appName</a>\n" ++
  "\t\t</div>\n" ++
  "\t</div>\n" ++
  "</nav>\n"

/-- The sidebar, with the menu. -/
def sidebarView : String :=
  "<ul class=\"nav nav-sidebar\">\n" ++
  "\t<li role=\"presentation\"><a href=\"#\" ui-sref=\"root.home\">Home</a></li>\n" ++
  "\x7b%menuItems%\x7d</ul>\n"

/-- The model of the services of an entity. -/
def baseServices : String :=
  "angular.module('\x7b%angularAppName%\x7d')\n" ++
  "\t.factory('\x7b%objects%\x7dService', ['$http', 'config', function($http, config) \x7b\n" ++
  "\t\tvar url = config.ApiAddress + '/\x7b%objects%\x7d';\n" ++
  "\n" ++
  "\t\treturn \x7b\n" ++
  "\t\t\tget\x7b%Objects%\x7d: get\x7b%Objects%\x7d,\n" ++
  "\t\t\tget\x7b%Object%\x7d: get\x7b%Object%\x7d,\n" ++
  "\t\t\tsave\x7b%Object%\x7d: save\x7b%Object%\x7d,\n" ++
  "\t\t\tdelete\x7b%Object%\x7d: delete\x7b%Object%\x7d\n" ++
  "\t\t\x7d;\n" ++
  "\n" ++
  "\t\tfunction get\x7b%Objects%\x7d() \x7b\n" ++
  "\t\t\treturn $http.get(url);\n" ++
  "\t\t\x7d\n" ++
  "\n" ++
  "\t\tfunction get\x7b%Object%\x7d(id) \x7b\n" ++
  "\t\t\treturn $http.get(url + '/' + id);\n" ++
  "\t\t\x7d\n" ++
  "\n" ++
  "\t\tfunction save\x7b%Object%\x7d(\x7b%object%\x7d) \x7b\n" ++
  "\t\t\tif (\x7b%object%\x7d.id) \x7b\n" ++
  "\t\t\t\treturn $http.put(url + '/' + \x7b%object%\x7d.id, \x7b%object%\x7d);\n" ++
  "\t\t\t\x7d\n" ++
  "\t\t\treturn $http.post(url, \x7b%object%\x7d);\n" ++
  "\t\t\x7d\n" ++
  "\n" ++
  "\t\tfunction delete\x7b%Object%\x7d(id) \x7b\n" ++
  "\t\t\treturn $http.delete(url + '/' + id);\n" ++
  "\t\t\x7d\n" ++
  "\t\x7d]);\n"

/-- The model of the controller of an entity's list. -/
def baseController : String :=
  "angular.module('\x7b%angularAppName%\x7d')\n" ++
  "\t.controller('\x7b%objects%\x7dController', ['\x7b%objects%\x7dService', function(\x7b%objects%\x7dService) \x7b\n" ++
  "\t\tvar vm = this;\n" ++
  "\t\tvm.\x7b%objects%\x7d = [];\n" ++
  "\t\tvm.delete\x7b%Object%\x7d = delete\x7b%Object%\x7d;\n" ++
  "\n" ++
  "\t\tinit();\n" ++
  "\n" ++
  "\t\tfunction init() \x7b\n" ++
  "\t\t\t\x7b%objects%\x7dService.get\x7b%Objects%\x7d().then(\n" ++
  "\t\t\tfunction(response)\x7b\n" ++
  "\t\t\t\tvm.\x7b%objects%\x7d = response.data.data;\n" ++
  "\t\t\t\x7d,\n" ++
  "\t\t\tfunction(error)\x7bconsole.error(error)\x7d);\n" ++
  "\t\t\x7d\n" ++
  "\n" ++
  "\t\tfunction delete\x7b%Object%\x7d(id) \x7b\n" ++
  "\t\t\t\x7b%objects%\x7dService.delete\x7b%Object%\x7d(id).then(init,\n" ++
  "\t\t\tfunction(error)\x7bconsole.error(error)\x7d);\n" ++
  "\t\t\x7d\n" ++
  "\t\x7d]);\n"

/-- The model of the controller of an entity's form. -/
def baseEditController : String :=
  "angular.module('\x7b%angularAppName%\x7d')\n" ++
  "\t.controller('\x7b%object%\x7dEditController', ['$state', '$stateParams', 'Upload', 'config', \x7b%injectOtherServices%\x7d'\x7b%objects%\x7dService', function($state, $stateParams, Upload, config, \x7b%otherServices%\x7d\x7b%objects%\x7dService) \x7b\n" ++
  "\t\tvar vm = this;\n" ++
  "\t\tvm.config = config;\n" ++
  "\t\tvm.\x7b%object%\x7d = \x7b\x7d;\n" ++
  "\t\tvm.save = save;\n" ++
  "\t\tvm.uploadFile = uploadFile;\n" ++
  "\n" ++
  "\t\tinit();\n" ++
  "\n" ++
  "\t\tfunction init() \x7b\n" ++
  "\t\t\tif ($stateParams.id && $stateParams.id !== 'new') \x7b\n" ++
  "\t\t\t\t\x7b%objects%\x7dService.get\x7b%Object%\x7d($stateParams.id).then(\n" ++
  "\t\t\t\tfunction(response)\x7b\n" ++
  "\t\t\t\t\tvm.\x7b%object%\x7d = response.data.data;\n" ++
  "\t\t\t\t\x7d,\n" ++
  "\t\t\t\tfunction(error)\x7bconsole.error(error)\x7d);\n" ++
  "\t\t\t\x7d\n" ++
  "\x7b%foreignFunctionsCall%\x7d\t\t\x7d\n" ++
  "\n" ++
  "\x7b%getForeignObjects%\x7d\t\tfunction save() \x7b\n" ++
  "\t\t\t\x7b%objects%\x7dService.save\x7b%Object%\x7d(vm.\x7b%object%\x7d).then(\n" ++
  "\t\t\tfunction()\x7b\n" ++
  "\t\t\t\t$state.go('root.\x7b%objects%\x7d');\n" ++
  "\t\t\t\x7d,\n" ++
  "\t\t\tfunction(error)\x7bconsole.error(error)\x7d);\n" ++
  "\t\t\x7d\n" ++
  "\n" ++
  "\t\tfunction uploadFile(file, field) \x7b\n" ++
  "\t\t\tif (!file) \x7b\n" ++
  "\t\t\t\treturn;\n" ++
  "\t\t\t\x7d\n" ++
  "\t\t\tUpload.upload(\x7b\n" ++
  "\t\t\t\turl: config.UploadAddress + '/\x7b%objects%\x7d/' + vm.\x7b%object%\x7d.id,\n" ++
  "\t\t\t\tdata: \x7bfile: file, field: field\x7d\n" ++
  "\t\t\t\x7d).then(\n" ++
  "\t\t\tfunction(response)\x7b\n" ++
  "\t\t\t\tvm.\x7b%object%\x7d[field] = response.data.data;\n" ++
  "\t\t\t\x7d,\n" ++
  "\t\t\tfunction(error)\x7bconsole.error(error)\x7d);\n" ++
  "\t\t\x7d\n" ++
  "\t\x7d]);\n"

/-- The model of an entity's list. -/
def baseListView : String :=
  "<div class=\"page-header\">\n" ++
  "\t<h2>\x7b%Objects%\x7d <a class=\"btn btn-primary pull-right\" ui-sref=\"root.\x7b%objects%\x7d.edit(\x7bid: 'new'\x7d)\">New \x7b%Object%\x7d</a></h2>\n" ++
  "</div>\n" ++
  "\n" ++
  "<div class=\"table-responsive\">\n" ++
  "\t<table class=\"table table-striped\">\n" ++
  "\t\t<thead>\n" ++
  "\t\t\t<tr>\n" ++
  "\x7b%headerFields%\x7d\t\t\t\t\t<th></th>\n" ++
  "\t\t\t</tr>\n" ++
  "\t\t</thead>\n" ++
  "\t\t<tbody>\n" ++
  "\t\t\t<tr ng-repeat=\"\x7b%object%\x7d in vm.\x7b%objects%\x7d\">\n" ++
  "\x7b%listFields%\x7d\t\t\t\t\t<td>\n" ++
  "\t\t\t\t\t\t<a class=\"btn btn-default btn-xs\" ui-sref=\"root.\x7b%objects%\x7d.edit(\x7bid: \x7b%object%\x7d.id\x7d)\">Edit</a>\n" ++
  "\t\t\t\t\t\t<button class=\"btn btn-danger btn-xs\" ng-click=\"vm.delete\x7b%Object%\x7d(\x7b%object%\x7d.id)\">Delete</button>\n" ++
  "\t\t\t\t\t</td>\n" ++
  "\t\t\t</tr>\n" ++
  "\t\t</tbody>\n" ++
  "\t</table>\n" ++
  "</div>\n"

/-- The model of an entity's form. -/
def baseEditView : String :=
  "<div class=\"page-header\">\n" ++
  "\t<h2>\x7b%Object%\x7d</h2>\n" ++
  "</div>\n" ++
  "\n" ++
  "<form name=\"\x7b%object%\x7dForm\" ng-submit=\"vm.save()\" novalidate>\n" ++
  "\x7b%formFields%\x7d\x7b%foreignSelectsFields%\x7d\t<button type=\"submit\" class=\"btn btn-primary\" ng-disabled=\"\x7b%object%\x7dForm.$invalid\">Save</button>\n" ++
  "\t<a class=\"btn btn-default\" ui-sref=\"root.\x7b%objects%\x7d\">Cancel</a>\n" ++
  "</form>\n"

/-- The bundled files with their paths. -/
def files : List (String × String) :=
  [("index.html", index),
    ("app/app.js", app),
    ("app/app.config.js", appConfig),
    ("app/app.states.js", appStates),
    ("app/styles/app.css", appStyles),
    ("app/components/home/home.controller.js", homeController),
    ("app/components/home/views/home.html", homeView),
    ("app/components/layout/views/header.html", headerView),
    ("app/components/layout/views/sidebar.html", sidebarView),
    ("app/components/base/base.services.js", baseServices),
    ("app/components/base/base.controller.js", baseController),
    ("app/components/base/base.edit.controller.js", baseEditController),
    ("app/components/base/views/base.list.html", baseListView),
    ("app/components/base/views/base.edit.html", baseEditView)]

/-- The paths of the bundled files are contained. -/
theorem files_contained : ∀ f ∈ files, Path.escape? ⟨f.1⟩ = none := by decide

/-- The bundled base code. -/
def baseCode : BaseCode :=
  .ofList (files.pmap (fun f contained => (⟨⟨f.1⟩, contained⟩, f.2)) files_contained)

/-- How the bundled base code is called. -/
def description : String := "bundled AngularJS base code"

end Bundled

end Scaffold
