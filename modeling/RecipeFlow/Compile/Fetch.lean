import RecipeFlow.Fault.Basic
import RecipeFlow.Recipe.Basic
import RecipeFlow.Shell.Word
import RecipeFlow.Url.Parse

/-! Fetching: the files that a recipe's inputs stand for, and the commands that bring them to where
the first command reads them. -/
namespace RecipeFlow

/-- How one file gets to where it is read. -/
inductive FetchItem where
  | download (url filename : String)
  | copy (path filename : String)
  /-- Visible inside every task already. -/
  | mounted (path : String)
  deriving DecidableEq, Repr, Inhabited

/-- What is behind the last slash of a path, slashes at its end aside. -/
def basename (path : String) : String :=
  String.ofList (Text.afterLastSlash (Text.trimSlashes path).toList)

/-- The last segment of a URL's path; without one, the base name of the text itself. -/
def urlBasename (url : String) : String :=
  match (Url.parse url).toOption.bind Url.lastSegment? with
  | some name => if name.isEmpty then basename url else String.ofList name
  | none => basename url

/-- Who chooses the name that a download is saved under. -/
inductive FetchNaming where
  /-- The server; readers list the directory. -/
  | server
  /-- The item; readers open that very path. -/
  | pinned
  deriving DecidableEq, Repr

namespace FetchItem

/-- Where the file comes from. -/
def source : FetchItem → String
  | download url _ => url
  | copy path _ | mounted path => path

def filename : FetchItem → String
  | download _ name | copy _ name => name
  | mounted path => basename path

/-- The path that the file is read from, given the directory files are fetched into. -/
def inputPath (staging : String) : FetchItem → String
  | download _ name | copy _ name => Text.trimSlashes staging ++ "/" ++ name
  | mounted path => path

/-- The command that brings the file into a directory, if one is needed. -/
def command? (dir : String) (naming : FetchNaming) : FetchItem → Option String
  | download url name => some (match naming with
    | .server => "wget --content-disposition -P " ++ dir ++ " " ++ Shell.quote url
    | .pinned => "wget -O " ++ Text.trimSlashes dir ++ "/" ++ Shell.quote name ++ " " ++
        Shell.quote url)
  | copy path name =>
    some ("cp " ++ Shell.quote path ++ " " ++ Text.trimSlashes dir ++ "/" ++ Shell.quote name)
  | mounted _ => none

/-- The files of one input. A dataset has to be resolved before. -/
def ofInput (i : Input) : Except Fault (List FetchItem) :=
  match i.kind with
  | .url => .ok [.download i.value (urlBasename i.value)]
  | .fileSystem => .ok [.copy i.value (basename i.value)]
  | .pvcMount => .ok [.mounted i.value]
  | .dataone =>
    if i.resolved.isEmpty then
      .error (.resolution Code.unresolved
        ("dataset " ++ i.value ++ " has not been resolved to any data objects") none)
    else .ok (i.resolved.map fun o => .download o.url o.filename)
  | .unknown kind => .error (.unsupported kind i.value)

/-- The files of all inputs in their order. -/
def ofInputs (inputs : List Input) : Except Fault (List FetchItem) :=
  (inputs.mapM ofInput).map List.flatten

/-- The first item whose file name an earlier one has, behind that earlier one. -/
def clashFrom? (seen : List FetchItem) : List FetchItem → Option (FetchItem × FetchItem)
  | [] => none
  | i :: r =>
    match seen.find? (·.filename = i.filename) with
    | some first => some (first, i)
    | none => clashFrom? (i :: seen) r

/-- Partitions address files by name, so no two may share one. -/
def checkDistinct (items : List FetchItem) : Except Fault Unit :=
  match clashFrom? [] items with
  | none => .ok ()
  | some (first, second) =>
    .error (.invalid Code.duplicateFilename
      ("inputs " ++ first.source ++ " and " ++ second.source ++ " both resolve to file name '" ++
        second.filename ++ "'") (some "input.params"))

/-- The command that fetches every item into a directory. -/
def fetchCommand (items : List FetchItem) (dir : String) (naming : FetchNaming) : String :=
  let commands := items.filterMap (command? dir naming)
  "mkdir -p " ++ dir ++ " && " ++
    if commands.isEmpty then "echo 'No input files to fetch'" else " && ".intercalate commands

end FetchItem

end RecipeFlow
