import Contiwatch.Lib.Dotted
import Contiwatch.Lib.GoStrings
import Contiwatch.Lib.SortSlice

/-!
# Release Check

A release is built by `.github/scripts/resolve-release-tags.sh`, which makes the version of the
program of its tag and target. The program infers its channel from its version, fetches the
releases, takes the greatest tag of its channel, and compares its version with it
(`internal/server/release_check.go`). Versions are taken apart as lists of characters.

## Main results

* `compareVersions` — the comparison of versions and tags.
* `RefreshReleaseCheck` — what the program reports after a fetch.
-/

namespace Contiwatch

open GoStrings

/-! ### Building a release -/

/-- A character that the script takes in a tag; the first one is no dot and no dash. -/
def isTagChar (c : Char) : Bool := c.isAlpha || c.isDigit || c = '_' || c = '.' || c = '-'

/-- The check of the tag. -/
def isReleaseTag (tag : String) : Bool :=
  match tag.toList with
  | [] => false
  | c :: rest => c != '.' && c != '-' && isTagChar c && rest.length ≤ 123 && rest.all isTagChar

/-- `resolve-release-tags.sh`, for a repository that it takes: the tags of the image, and the
version. -/
def resolveReleaseTags (tag target repository : String) : Option (List String × String) :=
  let image := "ghcr.io/" ++ toLower Char.toLower repository
  if ¬ isReleaseTag tag then none
  else if target = "dev" then
    some ([image ++ ":dev_latest", image ++ ":dev_" ++ tag],
      if hasPrefix tag "dev" then tag else "dev" ++ tag)
  else if target = "main" then some ([image ++ ":latest", image ++ ":" ++ tag], tag)
  else none

/-- `resolveVersion`; `fallback` is what the environment and the build give when no version is
embedded. -/
def resolveVersion (embedded fallback : String) : String :=
  if embedded ≠ "" ∧ embedded ≠ "dev" then trimPrefix embedded "v" else fallback

/-! ### Comparing versions -/

/-- `strings.HasPrefix(strings.ToLower(v), pre)`. -/
def lowerHasPrefix (v : List Char) (pre : String) : Bool :=
  pre.toList.isPrefixOf (v.map Char.toLower)

/-- `strings.TrimPrefix` for one character. -/
def trimChar (c : Char) : List Char → List Char
  | a :: rest => if a = c then rest else a :: rest
  | [] => []

/-- The number that decimal digits stand for. -/
def digitsValue (digits : List Char) : ℕ :=
  digits.foldl (fun n c => 10 * n + (c.toNat - '0'.toNat)) 0

/-- `strconv.Atoi`, for an `int` of 64 bits. -/
def atoi (v : List Char) : Option ℤ :=
  let (negative, digits) : Bool × List Char :=
    match v with
    | '-' :: rest => (true, rest)
    | '+' :: rest => (false, rest)
    | _ => (false, v)
  if digits = [] ∨ ¬ digits.all Char.isDigit then none
  else
    let n : ℤ := if negative then -(digitsValue digits : ℤ) else digitsValue digits
    if -2 ^ 63 ≤ n ∧ n < 2 ^ 63 then some n else none

/-- `normalizeVersion`. -/
def normalizeVersion (v : List Char) : List Char :=
  let v := trimSpace v
  if lowerHasPrefix v "v" then trimChar 'v' v else v

/-- `isDevVersion`. -/
def isDevVersion (v : List Char) : Bool := lowerHasPrefix (trimSpace v) "dev"

/-- `devSuffix`. -/
def devSuffix (v : List Char) : List Char :=
  let trimmed := trimSpace v
  let trimmed := if lowerHasPrefix trimmed "vdev" then trimmed.drop 1 else trimmed
  trimSpace (trimChar '_' (trimChar '-' (trimmed.drop 3)))

/-- `parseSemverParts`. -/
def parseSemverParts (v : List Char) : Option (List ℤ) :=
  if v = [] then none
  else (split '.' v).mapM fun part =>
    let part := trimSpace part
    if part = [] then some 0 else atoi part

/-- `compareSemver`. -/
def compareSemver (a b : List ℤ) : Ordering := Dotted.compareParts a b

/-- `parseInt`. -/
def parseInt (v : List Char) : Option ℤ := if v = [] then none else atoi v

/-- `strings.Compare`. -/
def compareText (a b : List Char) : Ordering := if a = b then .eq else if a < b then .lt else .gt

/-- `compareDevVersions`. -/
def compareDevVersions (a b : List Char) : Ordering :=
  let left := devSuffix a
  let right := devSuffix b
  match parseSemverParts left, parseSemverParts right with
  | some leftParts, some rightParts => compareSemver leftParts rightParts
  | _, _ =>
      match parseInt left, parseInt right with
      | some li, some ri => compare li ri
      | _, _ => compareText left right

/-- `compareVersions`. -/
def compareVersions (a b : List Char) : Ordering :=
  let left := normalizeVersion a
  let right := normalizeVersion b
  if left = [] ∧ right = [] then .eq
  else if left = [] then .lt
  else if right = [] then .gt
  else
    match isDevVersion left, isDevVersion right with
    | true, false => .lt
    | false, true => .gt
    | true, true => compareDevVersions left right
    | false, false =>
        match parseSemverParts left, parseSemverParts right with
        | some leftParts, some rightParts => compareSemver leftParts rightParts
        | _, _ => compareText left right

/-! ### Selecting a release -/

/-- The fields of `githubRelease` that are read. -/
structure GithubRelease where
  tagName : String
  name : String
  targetCommitish : String
  htmlURL : String
  draft : Bool
  deriving DecidableEq

/-- `releaseVersion`. -/
def releaseVersion (rel : GithubRelease) : String :=
  if rel.tagName ≠ "" then rel.tagName else rel.name

/-- `isDevRelease`. -/
def isDevRelease (rel : GithubRelease) : Bool :=
  lowerHasPrefix (trimSpace rel.tagName.toList) "dev" ||
    lowerHasPrefix (trimSpace rel.name.toList) "dev" ||
    decide (toLower Char.toLower (trimSpaceStr rel.targetCommitish) = "dev")

/-- The releases that `selectReleaseForChannel` sorts. -/
def candidates (releases : List GithubRelease) (channel : String) : List GithubRelease :=
  let dev : Bool := toLower Char.toLower (trimSpaceStr channel) = "dev"
  let filtered := releases.filter fun rel => !rel.draft && isDevRelease rel == dev
  if filtered = [] then releases else filtered

/-- The order in which `selectReleaseForChannel` sorts. -/
def newerFirst (a b : GithubRelease) : Prop :=
  compareVersions (releaseVersion b).toList (releaseVersion a).toList = .lt

/-- The results of `selectReleaseForChannel`. -/
def SelectReleaseForChannel (releases : List GithubRelease) (channel : String) :
    Option GithubRelease → Prop
  | none => releases = []
  | some latest => SortSlice.FirstOfSorted newerFirst (candidates releases channel) latest

/-! ### The state of the check -/

/-- `releaseMeta`, for a repository and without a channel in the environment. -/
structure ReleaseMeta where
  version : String
  repo : String
  channel : String
  deriving DecidableEq

/-- The metadata of the program. -/
def releaseMeta (version repo : String) : ReleaseMeta :=
  let version := trimSpaceStr version
  { version := version
    repo := repo
    channel :=
      if lowerHasPrefix version.toList "dev" || lowerHasPrefix version.toList "vdev" then "dev"
      else "main" }

/-- `releaseInfo`. -/
structure ReleaseInfo where
  version : String
  tag : String
  url : String
  deriving DecidableEq

/-- `releaseCheckState`. -/
structure ReleaseCheckState where
  repo : String
  channel : String
  latest : ReleaseInfo
  updateAvailable : Bool
  checkedAt : ℕ
  error : String
  etag : String
  deriving DecidableEq

/-- What `fetchGitHubReleases` gives. -/
inductive Fetch
  | failed (err : String)
  | notModified
  | fetched (releases : List GithubRelease) (etag : String)

/-- What is said of a release. -/
def releaseInfo : Option GithubRelease → ReleaseInfo
  | none => { version := "", tag := "", url := "" }
  | some rel => { version := releaseVersion rel, tag := rel.tagName, url := rel.htmlURL }

/-- The state before the first check. -/
def ReleaseCheckState.zero : ReleaseCheckState where
  repo := ""
  channel := ""
  latest := releaseInfo none
  updateAvailable := false
  checkedAt := 0
  error := ""
  etag := ""

/-- `refreshReleaseCheck`: the states that it may leave. -/
inductive RefreshReleaseCheck (info : ReleaseMeta) (prev : ReleaseCheckState) (now : ℕ) :
    Fetch → ReleaseCheckState → Prop
  | failed {err : String} :
      RefreshReleaseCheck info prev now (.failed err)
        { prev with
          repo := info.repo, channel := info.channel, checkedAt := now, error := err }
  | notModified :
      RefreshReleaseCheck info prev now .notModified
        { prev with repo := info.repo, channel := info.channel, checkedAt := now, error := "" }
  | fetched {releases : List GithubRelease} {etag : String} {latest : Option GithubRelease}
      (h : SelectReleaseForChannel releases info.channel latest) :
      RefreshReleaseCheck info prev now (.fetched releases etag)
        { repo := info.repo
          channel := info.channel
          latest := releaseInfo latest
          updateAvailable :=
            (releaseInfo latest).version ≠ "" && info.version ≠ "" &&
              compareVersions info.version.toList (releaseInfo latest).version.toList == .lt
          checkedAt := now
          error := ""
          etag := etag }

end Contiwatch
