import HouseStyle.Text.Lowercase
import HouseStyle.Tree.Parser

/-! # Paths

What a path says about a file: its language, by the extension, and whether it belongs to tests,
examples and the like, whose code does not show its author's usual habits. -/

namespace HouseStyle.Path

open HouseStyle.Text

/-- The components of a path that is written with slashes, without empty ones and single points. -/
def components (path : Text) : List Text :=
  (parts '/' path).filter fun p => !p.isEmpty && p != ['.']

/-- The last component of a path, empty if it has none. -/
def fileName (path : Text) : Text := (components path).getLast?.getD []

/-- The extension of a path with its point: what follows the last point of the file name, unless
nothing precedes it or nothing follows it. -/
def extension (path : Text) : Text :=
  match cutLast? '.' (fileName path) with
  | some (before, after) => if before.isEmpty || after.isEmpty then [] else '.' :: after
  | none => []

/-- The extensions that are not JavaScript's. -/
def extensionLanguages : List (String × Language) :=
  [(".ts", .typescript), (".mts", .typescript), (".cts", .typescript), (".tsx", .tsx)]

/-- The language of a path; JavaScript if the extension says nothing else. -/
def language (path : Text) : Language :=
  (extensionLanguages.lookup (String.ofList (lower (extension path)))).getD .javascript

/-! ### Test-like paths -/

/-- The names of directories and files that hold tests, examples and the like. -/
def testNames : List String :=
  ["test", "tests", "example", "examples", "fixture", "fixtures", "bench", "benchmark", "__tests__",
    "__mocks__", "__fixtures__", "spec", "specs", "demo", "demos", "sample", "samples", "script",
    "scripts", "doc", "docs", "dist"]

/-- Whether a component is one of the names. -/
def isTestName (component : Text) : Bool := testNames.any (·.toList == component)

/-- Whether a component is one of the names, perhaps with one line feed after it. -/
def isLastTestName (component : Text) : Bool :=
  isTestName component || (component.getLast? == some '\n' && isTestName component.dropLast)

/-- Whether a file name starts like that of a test. -/
def startsLikeTest (name : Text) : Bool :=
  ["test", "example", "bench"].any fun w =>
    w.toList.isPrefixOf name &&
      ((name.drop w.length).head? == some '.' || (name.drop w.length).head? == some '-')

/-- Whether a file name ends like that of a test: in `.test` or `.spec` and an extension. -/
def endsLikeTest (name : Text) : Bool :=
  match cutLast? '.' name with
  | some (before, after) =>
    !after.isEmpty && [".test", ".spec"].any fun w => w.toList.isSuffixOf before
  | none => false

/-- Whether a path belongs to tests, examples and the like. -/
def isTestLike (path : Text) : Bool :=
  let normal := lower (path.map fun c => if c = '\\' then '/' else c)
  let components := parts '/' normal
  let last := components.getLast?.getD []
  components.dropLast.any isTestName || isLastTestName last || startsLikeTest last ||
    endsLikeTest last

end HouseStyle.Path
