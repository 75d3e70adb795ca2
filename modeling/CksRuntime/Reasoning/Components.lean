import CksRuntime.Lib.PyText
import CksRuntime.Lib.Table
import CksRuntime.Reasoning.Staleness

/-!
# The components of a graph and their versions

The helpers of `reasoning/graph_auto_update_sweeper.py`: which repository a `Component` object
belongs to (`_resolve_component`), which version is published there (`_fetch_version_sync`,
`_fetch_package_json_version_sync`), and whether the object is behind it (`_is_outdated`).
`Upstream` is what the answers depend on: `safe_get`, `urlparse` and `json.loads`.
-/

set_option autoImplicit false

namespace CksRuntime

open PyText

/-! ## Objects -/

/-- A value of an object's structure: a text, or another value, of which the truth is read. -/
inductive GraphValue
  | str (s : String)
  | other (truthy : Bool)
deriving DecidableEq

/-- What the graph sweepers read of an object. -/
structure GraphObject where
  id : String
  type : String
  name : Option String := none
  fields : Table String GraphValue := ∅

/-- The type of the objects that are looked up. -/
def COMPONENT_TYPE : String := "Component"

/-- Whether the object is a component, with a version. -/
def GraphObject.isComponent (obj : GraphObject) : Bool :=
  obj.type == COMPONENT_TYPE && (obj.fields.lookup "version").isSome

/-- `obj.identity.name or obj.identity.id`. -/
def GraphObject.componentName (obj : GraphObject) : String :=
  match obj.name with
  | some name => if name = "" then obj.id else name
  | none => obj.id

/-- `obj.structure.get("version")`. -/
def GraphObject.version (obj : GraphObject) : GraphValue :=
  (obj.fields.lookup "version").getD (.other false)

/-! ## Versions -/

/-- `value.lstrip("v")`, of a text. -/
def lstripV : GraphValue → GraphValue
  | .str s => .str (lstrip (· = 'v') s)
  | .other truthy => .other truthy

/-- `_version_tuple`: none where a chunk is no number. -/
def versionTuple (version : GraphValue) : Option (List Int) :=
  match lstripV version with
  | .str s => (split '.' s).mapM int
  | .other _ => none

/-- `_is_outdated`. -/
def isOutdated (graphVersion : GraphValue) (actualVersion : String) : Bool :=
  if graphVersion = .str actualVersion then false
  else
    match versionTuple (lstripV graphVersion), versionTuple (lstripV (.str actualVersion)) with
    | some graphTuple, some actualTuple => graphTuple < actualTuple
    -- unparsable on one side or the other: known to differ
    | _, _ => true

/-! ## Repositories -/

/-- What is read of a parsed URL. -/
structure ParseResult where
  netloc : String
  path : String

/-- What `safe_get` does with a URL. -/
inductive Fetched
  | unsafeURL (message : String)
  | raised (message : String)
  | unavailable
  | response (statusCode : Nat) (text : String)

/-- The URLs, and what they answer. -/
structure Upstream where
  /-- `urlparse`: none where it raises ValueError. -/
  urlparse : String → Option ParseResult
  /-- The answer to a URL, at each round of the loop over the components. -/
  safeGet : Nat → String → Fetched
  /-- `json.loads`: none where it raises ValueError; within, none where the value is no dict. -/
  loads : String → Option (Option (Table String GraphValue))

namespace Upstream

variable (up : Upstream)

/-- `_repo_from_url`. -/
def repoFromUrl (repoUrl : String) : Except SweepError (Option String) :=
  match up.urlparse repoUrl with
  | none => .error (.other "ValueError")
  | some parsed =>
    if parsed.netloc ≠ "" ∧ ¬contains "github.com" parsed.netloc then .ok none
    else
      let path :=
        if parsed.netloc ≠ "" then parsed.path
        else String.ofList (stripChars (· = '/') repoUrl.toList)
      match (split '/' path).filter (· ≠ "") with
      | owner :: repo :: _ => .ok (some (owner ++ "/" ++ removesuffix ".git" repo))
      | _ => .ok none

/-- Which file tells the version. -/
inductive VersionSource
  | python
  | packageJson
deriving DecidableEq

/-- Where a known component has it. -/
structure KnownComponent where
  repo : String
  path : String

/-- `_KNOWN_COMPONENTS`. -/
def knownComponents : List (String × KnownComponent) :=
  [("cks-core", ⟨"punctumactus/cks-core", "src/cks/_version.py"⟩),
    ("cks-runtime", ⟨"punctumactus/cks-runtime", "src/cks_runtime/_version.py"⟩),
    ("cks-mcp", ⟨"punctumactus/cks-mcp", "src/cks_mcp/_version.py"⟩)]

/-- `_CANDIDATE_PATHS`, formatted. -/
def candidatePaths (pkg : String) : List String :=
  ["_version.py", pkg ++ "/_version.py", "src/" ++ pkg ++ "/_version.py"]

/-- `_PACKAGE_JSON_CANDIDATE_PATHS`, formatted. -/
def packageJsonCandidatePaths (pkg : String) : List String :=
  ["package.json", pkg ++ "/package.json"]

/-- `_pkg_name`. -/
def pkgName (componentName : String) : String := replace '-' '_' componentName

/-- `_raw_url`. -/
def rawUrl (repo path : String) : String :=
  "https://raw.githubusercontent.com/" ++ repo ++ "/main/" ++ path

/-- `_repo_from_url` of what the structure has, if it is true. -/
def declaredRepo (fields : Table String GraphValue) : Except SweepError (Option String) :=
  match fields.lookup "repo_url" with
  | some (.str repoUrl) => if repoUrl = "" then .ok none else up.repoFromUrl repoUrl
  | some (.other true) => .error (.other "AttributeError")
  | some (.other false) => .ok none
  | none => .ok none

/-- Whether a component's version is in a `package.json`. -/
def isNpm (fields : Table String GraphValue) : Bool :=
  fields.lookup "version_source" = some (.str "package.json")

/-- Where to look for the version. -/
structure Resolved where
  repo : String
  candidatePaths : List String
  source : VersionSource

/-- `_resolve_component`: none where no repository is known. -/
def resolveComponent (componentName : String) (fields : Table String GraphValue) :
    Except SweepError (Option Resolved) :=
  match knownComponents.lookup componentName, isNpm fields with
  | some known, false => .ok (some ⟨known.repo, [known.path], .python⟩)
  | known, npm => do
    match ← up.declaredRepo fields with
    | some repo =>
      let pkg := pkgName componentName
      if npm then return some ⟨repo, packageJsonCandidatePaths pkg, .packageJson⟩
      else return some ⟨repo, candidatePaths pkg, .python⟩
    | none =>
      -- the paths are not formatted here
      return known.map fun k => ⟨k.repo, packageJsonCandidatePaths "\x7bpkg\x7d", .packageJson⟩

/-! ## Published versions -/

/-- The first candidate that can be fetched and read, or the last error. -/
def fetchFirst (read : String → String → Except String String) (round : Nat) (repo : String) :
    Option String → List String → Except String String
  | lastError, [] => .error (lastError.getD ("no candidate paths for " ++ repo))
  | _, path :: paths =>
    let url := rawUrl repo path
    match up.safeGet round url with
    | .unsafeURL message => .error ("unsafe_url: " ++ message)
    | .raised message =>
      fetchFirst read round repo (some ("error fetching " ++ url ++ ": " ++ message)) paths
    | .unavailable => fetchFirst read round repo (some ("could not fetch " ++ url)) paths
    | .response statusCode text =>
      if statusCode ≠ 200 then
        fetchFirst read round repo (some ("could not fetch " ++ url)) paths
      else
        match read url text with
        | .ok version => .ok version
        | .error e => fetchFirst read round repo (some e) paths

/-- Either quote, of a Python text. -/
def isQuote (c : Char) : Bool := c = '\'' || c = '"'

/-- `_VERSION_RE`, at one position: the group. -/
def matchVersion (s : List Char) : Option String :=
  let assignment := (s.drop "__version__".length).dropWhile isspace
  let quoted := assignment.tail.dropWhile isspace
  let version := quoted.tail.takeWhile fun c => !isQuote c
  if "__version__".toList.isPrefixOf s && assignment.head?.any (· == '=') && quoted.head?.any isQuote
      && !version.isEmpty && quoted.tail.any isQuote then
    some (String.ofList version)
  else none

/-- `_VERSION_RE.search(text)`. -/
def searchVersion (text : String) : Option String := text.toList.tails.findSome? matchVersion

/-- The version in the source of a package. -/
def readVersion (url text : String) : Except String String :=
  match searchVersion text with
  | some version => .ok version
  | none => .error ("no __version__ found at " ++ url)

/-- `_fetch_version_sync`. -/
def fetchVersion (round : Nat) (repo : String) (candidatePaths : List String) :
    Except String String :=
  up.fetchFirst readVersion round repo none candidatePaths

/-- The version in a `package.json`. -/
def readPackageJson (url text : String) : Except String String :=
  match up.loads text with
  | none => .error ("invalid JSON at " ++ url)
  | some data =>
    match data.bind (·.lookup "version") with
    | some (.str version) =>
      if version = "" then .error ("no 'version' field found at " ++ url) else .ok version
    | _ => .error ("no 'version' field found at " ++ url)

/-- `_fetch_package_json_version_sync`. -/
def fetchPackageJsonVersion (round : Nat) (repo : String) (candidatePaths : List String) :
    Except String String :=
  up.fetchFirst up.readPackageJson round repo none candidatePaths

end Upstream

end CksRuntime
