import DartScaffold.Api.Basic
import DartScaffold.Config.Feature
import DartScaffold.ModelTest.File
import DartScaffold.Run.Task
import DartScaffold.Run.Unit

/-!
The place of a unit: a page of a feature, with the settings of the file that configures it.
-/

namespace DartScaffold.Run

open Disk (Location)

structure Site where
  feature : Feature
  page : Page
  settings : Settings
  deriving Repr

namespace Site

def featureDirectory (s : Site) : Location :=
  Location.ofString s.feature.directory

/-- The directory of the page's code. It must exist. -/
def directory (s : Site) : Location :=
  (s.featureDirectory.child "lib").child s.page.name

/-- The directory of the page's tests. -/
def testDirectory (s : Site) : Location :=
  (s.featureDirectory.child "test").child (s.page.name ++ "_test")

/-- The options of a run override the settings of a file. -/
def wantsLayers (s : Site) (p : Plan) : Bool :=
  p.options.layers.getD s.settings.layers

def wantsPruning (s : Site) (p : Plan) : Bool :=
  p.options.replace.getD s.settings.replace

def wantsTests (s : Site) (p : Plan) : Bool :=
  p.options.unitTest.getD s.settings.unitTest

def testSubject (s : Site) (api : Api) : ModelTest.Subject :=
  { feature := s.feature.name, page := s.page.name, api := api.name }

/-- The place of a unit in messages. -/
def context (s : Site) : Entries :=
  [("feature", .str s.feature.name), ("page", .str s.page.name)]

/-- The result of a unit of this page, before anything is known of it. -/
def result (s : Site) (api : Option String) : UnitResult :=
  { feature := s.feature.name, page := s.page.name, api }

end Site

end DartScaffold.Run
