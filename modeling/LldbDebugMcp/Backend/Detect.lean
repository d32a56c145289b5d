/- module: LldbDebugMcp/Backend/Detect
   source: crates/lldb-backend/src/detect.rs
   digest: The search for the adapter: the first candidate that is there, and what its flag says. -/

import LldbDebugMcp.Core.Types
import LldbDebugMcp.Library.Text

set_option autoImplicit false
set_option relaxedAutoImplicit false

namespace LldbDebugMcp.Backend.Detect

open LldbDebugMcp.Core.Types
open LldbDebugMcp.Library

structure Detected where
  path : String
  isLldbDap : Bool
  deriving DecidableEq, Repr

/-- What the search consults. -/
structure Env where
  var : String → Option String
  lookPath : String → Option String
  pathExists : String → Bool
  xcrunFindLldbDap : Option String
  isMacos : Bool

def isCapableBasename (name : String) : Bool :=
  name.toList.tails.any fun rest => "lldb-dap".toList.isPrefixOf rest

/-- The names along a path, without those that stand for the directory they are in. -/
def components (path : String) : List (List Char) :=
  (path.toList.splitOn '/').filter fun name => name ≠ [] ∧ name ≠ ['.']

/-- The last name of a path, or the path itself where that is none of a file. -/
def basename (path : String) : String :=
  match (components path).getLast? with
  | some name => if name = ['.', '.'] then path else String.ofList name
  | none => path

/-! The search, step by step: a hit leaves it early, and a miss goes on the list. -/

def searchEnvPath (env : Env) (searched : List String) : Except Detected (List String) :=
  match (env.var "LLDB_DAP_PATH").filter fun path => !path.isEmpty with
  | some envPath =>
    if (env.lookPath envPath).isSome then throw ⟨envPath, isCapableBasename (basename envPath)⟩
    else if env.pathExists envPath then throw ⟨envPath, isCapableBasename (basename envPath)⟩
    else return searched ++ ["LLDB_DAP_PATH=" ++ envPath]
  | none => return searched

def searchPath (env : Env) (isLldbDap : Bool) (searched : List String) (name : String) :
    Except Detected (List String) :=
  match env.lookPath name with
  | some path => throw ⟨path, isLldbDap⟩
  | none => return searched ++ [name]

def versioned (v : Nat) : String := "lldb-dap-" ++ String.ofList (Text.decimal v)

def searchXcrun (env : Env) (searched : List String) : Except Detected (List String) :=
  if env.isMacos then
    match (env.xcrunFindLldbDap.map fun out => String.ofList (Text.trim out.toList)).filter
        fun path => !path.isEmpty with
    | some path => throw ⟨path, true⟩
    | none => return searched ++ ["xcrun --find lldb-dap"]
  else return searched

def search (env : Env) : Except Detected (List String) := do
  let searched ← searchEnvPath env []
  let searched ← searchPath env true searched "lldb-dap"
  let searched ← (List.range' 15 6).reverse.foldlM
    (fun searched v => searchPath env true searched (versioned v)) searched
  let searched ← searchPath env false searched "lldb-vscode"
  searchXcrun env searched

def notFound (searched : List String) : BackendError :=
  .detect ("lldb-dap binary not found; searched: " ++ String.intercalate ", " searched)

def findLldbDapWith (env : Env) : Except BackendError Detected :=
  match search env with
  | .error detected => .ok detected
  | .ok searched => .error (notFound searched)

/-! The order of preference. -/

inductive Candidate where
  | envPath (path : String)
  | onPath (name : String) (isLldbDap : Bool)
  | xcrun
  deriving DecidableEq, Repr

namespace Candidate

def label : Candidate → String
  | .envPath path => "LLDB_DAP_PATH=" ++ path
  | .onPath name _ => name
  | .xcrun => "xcrun --find lldb-dap"

/-- What a candidate comes to. -/
def hit (env : Env) : Candidate → Option Detected
  | .envPath path =>
    if (env.lookPath path).isSome || env.pathExists path then
      some ⟨path, isCapableBasename (basename path)⟩
    else none
  | .onPath name isLldbDap => (env.lookPath name).map fun path => ⟨path, isLldbDap⟩
  | .xcrun =>
    ((env.xcrunFindLldbDap.map fun out => String.ofList (Text.trim out.toList)).filter
      fun path => !path.isEmpty).map fun path => ⟨path, true⟩

end Candidate

/-- The names that are looked up, in order, each with whether it is the one that knows the flag. -/
def names : List (String × Bool) :=
  [("lldb-dap", true), ("lldb-dap-20", true), ("lldb-dap-19", true), ("lldb-dap-18", true),
    ("lldb-dap-17", true), ("lldb-dap-16", true), ("lldb-dap-15", true), ("lldb-vscode", false)]

def candidates (env : Env) : List Candidate :=
  ((env.var "LLDB_DAP_PATH").filter fun path => !path.isEmpty).toList.map Candidate.envPath ++
    names.map (fun name => .onPath name.1 name.2) ++ if env.isMacos then [.xcrun] else []

/-- Try a candidate. -/
def attempt (env : Env) (searched : List String) (c : Candidate) : Except Detected (List String) :=
  match c.hit env with
  | some detected => throw detected
  | none => return searched ++ [c.label]

section

variable {env : Env} {c : Candidate} {searched : List String}

theorem attempt_hit {detected : Detected} (hit : c.hit env = some detected) :
    attempt env searched c = .error detected := by
  unfold attempt
  rw [hit]
  rfl

theorem attempt_miss (miss : c.hit env = none) :
    attempt env searched c = .ok (searched ++ [c.label]) := by
  unfold attempt
  rw [miss]
  rfl

/-- A chain of attempts leaves at the first hit, and else has gone through all of them. -/
theorem foldlM_attempt (cs : List Candidate) (searched : List String) :
    cs.foldlM (attempt env) searched =
      (cs.findSome? (Candidate.hit env)).elim (.ok (searched ++ cs.map Candidate.label))
        .error := by
  induction cs generalizing searched with
  | nil =>
    rw [List.map_nil, List.append_nil]
    rfl
  | cons c cs ih =>
    rw [List.foldlM_cons, List.findSome?_cons]
    cases found : c.hit env with
    | some detected =>
      rw [attempt_hit found]
      rfl
    | none =>
      rw [attempt_miss found]
      have further := ih (searched ++ [c.label])
      rw [List.append_assoc] at further
      exact further

theorem searchPath_eq (isLldbDap : Bool) (name : String) :
    searchPath env isLldbDap searched name = attempt env searched (.onPath name isLldbDap) := by
  unfold searchPath
  cases found : env.lookPath name with
  | some path =>
    have hit : (Candidate.onPath name isLldbDap).hit env = some ⟨path, isLldbDap⟩ :=
      congrArg (Option.map _) found
    exact (attempt_hit hit).symm
  | none =>
    have miss : (Candidate.onPath name isLldbDap).hit env = none := congrArg (Option.map _) found
    exact (attempt_miss miss).symm

theorem searchEnvPath_eq : searchEnvPath env searched =
    (((env.var "LLDB_DAP_PATH").filter fun path => !path.isEmpty).toList.map
      Candidate.envPath).foldlM (attempt env) searched := by
  unfold searchEnvPath
  cases (env.var "LLDB_DAP_PATH").filter fun path => !path.isEmpty with
  | none => rfl
  | some path =>
    simp only [Option.toList_some, List.map_cons, List.map_nil, List.foldlM_cons, List.foldlM_nil,
      bind_pure]
    by_cases there : (env.lookPath path).isSome
    · have hit : (Candidate.envPath path).hit env =
          some ⟨path, isCapableBasename (basename path)⟩ := by
        simp only [Candidate.hit, there, Bool.true_or, if_true]
      rw [if_pos there, attempt_hit hit]
      rfl
    · rw [if_neg there]
      by_cases here : env.pathExists path
      · have hit : (Candidate.envPath path).hit env =
            some ⟨path, isCapableBasename (basename path)⟩ := by
          simp only [Candidate.hit, here, Bool.or_true, if_true]
        rw [if_pos here, attempt_hit hit]
        rfl
      · have miss : (Candidate.envPath path).hit env = none := by
          simp [Candidate.hit, there, here]
        rw [if_neg here, attempt_miss miss]
        rfl

theorem searchXcrun_eq : searchXcrun env searched =
    (if env.isMacos then [Candidate.xcrun] else []).foldlM (attempt env) searched := by
  unfold searchXcrun
  by_cases macos : env.isMacos
  · simp only [if_pos macos, List.foldlM_cons, List.foldlM_nil, bind_pure]
    cases found : (env.xcrunFindLldbDap.map fun out => String.ofList (Text.trim out.toList)).filter
      fun path => !path.isEmpty with
    | some path =>
      have hit : Candidate.xcrun.hit env = some ⟨path, true⟩ := congrArg (Option.map _) found
      exact (attempt_hit hit).symm
    | none =>
      have miss : Candidate.xcrun.hit env = none := congrArg (Option.map _) found
      exact (attempt_miss miss).symm
  · rw [if_neg macos, if_neg macos]
    rfl

end

theorem names_eq : names.map (fun name => Candidate.onPath name.1 name.2) =
    .onPath "lldb-dap" true ::
      ((List.range' 15 6).reverse.map (fun v => .onPath (versioned v) true) ++
        [.onPath "lldb-vscode" false]) := by
  decide

theorem search_eq (env : Env) : search env = (candidates env).foldlM (attempt env) [] := by
  unfold search candidates
  rw [List.foldlM_append, List.foldlM_append, ← searchEnvPath_eq, names_eq]
  simp only [searchPath_eq, searchXcrun_eq, bind_assoc, List.foldlM_cons, List.foldlM_append,
    List.foldlM_map, List.foldlM_nil, bind_pure]

theorem findLldbDapWith_eq (env : Env) : findLldbDapWith env =
    ((candidates env).findSome? (Candidate.hit env)).elim
      (.error (notFound ((candidates env).map Candidate.label))) .ok := by
  unfold findLldbDapWith
  rw [search_eq, foldlM_attempt]
  cases (candidates env).findSome? (Candidate.hit env) <;> rfl

theorem findLldbDapWith_ok {env : Env} {detected : Detected} :
    findLldbDapWith env = .ok detected ↔
      (candidates env).findSome? (Candidate.hit env) = some detected := by
  rw [findLldbDapWith_eq]
  cases (candidates env).findSome? (Candidate.hit env) with
  | none => exact iff_of_false nofun nofun
  | some detected' => simp only [Option.elim_some, Except.ok.injEq, Option.some.injEq]

/-- The search finds the first candidate that is there, and it fails, having named every one of
them, exactly if none is. -/
theorem detected_first (env : Env) :
    (∀ detected, findLldbDapWith env = .ok detected ↔ ∃ before c after,
      candidates env = before ++ c :: after ∧ c.hit env = some detected ∧
        ∀ c' ∈ before, c'.hit env = none) ∧
    ∀ e, findLldbDapWith env = .error e ↔ (∀ c ∈ candidates env, c.hit env = none) ∧
      e = notFound ((candidates env).map Candidate.label) := by
  refine ⟨fun detected => findLldbDapWith_ok.trans List.findSome?_eq_some_iff, fun e => ?_⟩
  rw [findLldbDapWith_eq, ← List.findSome?_eq_none_iff]
  cases (candidates env).findSome? (Candidate.hit env) with
  | none => simp only [Option.elim_none, Except.error.injEq, true_and, eq_comm]
  | some detected => exact iff_of_false nofun fun none => nomatch none.1

/-! The search on a host. -/

structure Host where
  environment : String → Option String
  isFile : String → Bool
  /-- Whether one of its executable bits is set. -/
  isExecutable : String → Bool
  /-- What `xcrun --find lldb-dap` prints, if it succeeds. -/
  xcrun : Option String
  isMacos : Bool

def isExecutableFile (host : Host) (path : String) : Bool :=
  host.isFile path && host.isExecutable path

/-- The directories of a `PATH`. -/
def splitPaths (pathVar : String) : List String :=
  (pathVar.toList.splitOn ':').map String.ofList

/-- `Path::join` of a name that is not absolute. -/
def join (dir name : String) : String :=
  if dir.toList.getLast? = some '/' then dir ++ name else dir ++ "/" ++ name

/-- The file of a name in a directory. -/
def probe (host : Host) (name dir : String) : Option String :=
  if dir.isEmpty then none
  else if isExecutableFile host (join dir name) then some (join dir name)
  else none

def lookPathIn (host : Host) (name : String) (pathVar : Option String) : Option String :=
  if '/' ∈ name.toList then if isExecutableFile host name then some name else none
  else
    pathVar.bind fun pathVar => (splitPaths pathVar).findSome? (probe host name)

/-- `SystemEnv`. -/
def systemEnv (host : Host) : Env where
  var := host.environment
  lookPath name := lookPathIn host name (host.environment "PATH")
  pathExists := host.isFile
  xcrunFindLldbDap := host.xcrun
  isMacos := host.isMacos

def findLldbDap (host : Host) : Except BackendError Detected := findLldbDapWith (systemEnv host)

section

variable {host : Host} {name path : String}

theorem probe_eq_some {dir : String} : probe host name dir = some path ↔
    dir ≠ "" ∧ isExecutableFile host (join dir name) ∧ path = join dir name := by
  unfold probe
  by_cases empty : dir = ""
  · simp [empty]
  · rw [if_neg (by rwa [String.isEmpty_iff])]
    by_cases there : isExecutableFile host (join dir name)
    · rw [if_pos there, Option.some.injEq]
      exact ⟨fun same => ⟨empty, there, same.symm⟩, fun found => found.2.2.symm⟩
    · rw [if_neg there]
      exact iff_of_false nofun fun found => there found.2.1

theorem probe_eq_none {dir : String} : probe host name dir = none ↔
    (dir ≠ "" → isExecutableFile host (join dir name) = false) := by
  unfold probe
  by_cases empty : dir = ""
  · simp [empty]
  · by_cases there : isExecutableFile host (join dir name) <;> simp [empty, there]

/-- A file found on the `PATH`, in the first directory that has it. -/
theorem lookPathIn_eq_some {pathVar : Option String} (plain : '/' ∉ name.toList) :
    lookPathIn host name pathVar = some path ↔
      ∃ before dir after, pathVar.map splitPaths = some (before ++ dir :: after) ∧ dir ≠ "" ∧
        path = join dir name ∧ isExecutableFile host path ∧
        ∀ other ∈ before, other ≠ "" → isExecutableFile host (join other name) = false := by
  unfold lookPathIn
  rw [if_neg plain]
  cases pathVar with
  | none =>
    refine iff_of_false nofun ?_
    rintro ⟨before, dir, after, split, -⟩
    cases split
  | some pathVar =>
    simp only [Option.bind_some, Option.map_some, Option.some.injEq, List.findSome?_eq_some_iff]
    constructor
    · rintro ⟨before, dir, after, split, found, missed⟩
      obtain ⟨full, there, rfl⟩ := probe_eq_some.mp found
      exact ⟨before, dir, after, split, full, rfl, there, fun other mem =>
        probe_eq_none.mp (missed other mem)⟩
    · rintro ⟨before, dir, after, split, full, rfl, there, missed⟩
      exact ⟨before, dir, after, split, probe_eq_some.mpr ⟨full, there, rfl⟩, fun other mem =>
        probe_eq_none.mpr (missed other mem)⟩

/-- A joined path ends in a separator and the name. -/
theorem toList_join (dir name : String) :
    ∃ front, (join dir name).toList = front ++ '/' :: name.toList := by
  unfold join
  split
  · rename_i ends
    refine ⟨dir.toList.dropLast, ?_⟩
    have whole := List.dropLast_append_getLast? '/' ends
    rw [String.toList_append, ← List.singleton_append, ← List.append_assoc, whole]
  · exact ⟨dir.toList, by simp [String.toList_append]⟩

/-- The name of a file is the last one of its path. -/
theorem basename_join {dir : String} (plain : '/' ∉ name.toList) (full : name.toList ≠ [])
    (file : name.toList ≠ ['.'] ∧ name.toList ≠ ['.', '.']) :
    basename (join dir name) = name := by
  obtain ⟨front, parts⟩ := toList_join dir name
  have alone : name.toList.splitOnP (· == '/') = [name.toList] :=
    List.splitOnP_eq_singleton fun c mem => beq_eq_false_iff_ne.mpr fun slash => plain (slash ▸ mem)
  have last : (components (join dir name)).getLast? = some name.toList := by
    unfold components
    rw [parts, List.splitOn_eq_splitOnP, List.splitOnP_append_cons _ _ (by decide), alone,
      List.filter_append]
    simp [full, file.1]
  unfold basename
  rw [last]
  simp [file.2]

end

theorem names_plain : ∀ name ∈ names, '/' ∉ name.1.toList ∧ name.1.toList ≠ [] ∧
    (name.1.toList ≠ ['.'] ∧ name.1.toList ≠ ['.', '.']) ∧
    name.2 = isCapableBasename name.1 := by
  decide

/-- The flag says what the name of the file does. -/
def Named (detected : Detected) : Prop :=
  detected.isLldbDap = isCapableBasename (basename detected.path)

private theorem nonempty_of_filter {path : String} (full : (!path.isEmpty) = true) : path ≠ "" := by
  rintro rfl
  cases full

/-- An adapter that was not found by `xcrun` is flagged by the name of its file, and it is the file
that `LLDB_DAP_PATH` gives or what a search of the `PATH` for one of the names comes to, an
executable, while no preferred name is there. One that was found so stands where `xcrun` says. -/
theorem detected_named {host : Host} {detected : Detected}
    (found : findLldbDap host = .ok detected) :
    (host.environment "LLDB_DAP_PATH" = some detected.path ∧ detected.path ≠ "" ∧
      ((lookPathIn host detected.path (host.environment "PATH")).isSome ∨
        host.isFile detected.path) ∧ Named detected) ∨
    (∃ before name after, names = before ++ name :: after ∧
      lookPathIn host name.1 (host.environment "PATH") = some detected.path ∧
      basename detected.path = name.1 ∧ isExecutableFile host detected.path ∧ Named detected ∧
      ∀ other ∈ before, lookPathIn host other.1 (host.environment "PATH") = none) ∨
    host.isMacos ∧ detected.isLldbDap ∧ detected.path ≠ "" ∧
      (∃ out, host.xcrun = some out ∧ String.ofList (Text.trim out.toList) = detected.path) ∧
      ∀ name ∈ names, lookPathIn host name.1 (host.environment "PATH") = none := by
  have first := findLldbDapWith_ok.mp found
  unfold candidates at first
  rw [List.findSome?_append, List.findSome?_append, Option.or_eq_some_iff, Option.or_eq_some_iff]
    at first
  rcases first with (given | ⟨-, listed⟩) | ⟨missed, last⟩
  · left
    obtain ⟨c, mem, hit⟩ := List.exists_of_findSome?_eq_some given
    obtain ⟨path, here, rfl⟩ := List.mem_map.mp mem
    obtain ⟨told, full⟩ := Option.filter_eq_some_iff.mp (Option.mem_toList.mp here)
    simp only [Candidate.hit, Option.ite_none_right_eq_some, Option.some.injEq] at hit
    obtain ⟨there, rfl⟩ := hit
    exact ⟨told, nonempty_of_filter full, Bool.or_eq_true_iff.mp there, rfl⟩
  · right; left
    rw [List.findSome?_map] at listed
    obtain ⟨before, name, after, split, hit, missed⟩ := List.findSome?_eq_some_iff.mp listed
    have known : name ∈ names := split ▸ List.mem_append_cons_self
    obtain ⟨plain, full, file, flag⟩ := names_plain name known
    obtain ⟨path, here, rfl⟩ := Option.map_eq_some_iff.mp hit
    obtain ⟨_, dir, _, _, _, joined, there, _⟩ := (lookPathIn_eq_some plain).mp here
    subst joined
    have base : basename (join dir name.1) = name.1 := basename_join plain full file
    refine ⟨before, name, after, split, here, base, there, ?_, fun other mem =>
      Option.map_eq_none_iff.mp (missed other mem)⟩
    exact flag.trans (congrArg isCapableBasename base.symm)
  · right; right
    have none := List.findSome?_eq_none_iff.mp (Option.or_eq_none_iff.mp missed).2
    have absent : ∀ name ∈ names, lookPathIn host name.1 (host.environment "PATH") = .none :=
      fun name mem => Option.map_eq_none_iff.mp (none _ (List.mem_map_of_mem mem))
    by_cases macos : host.isMacos
    · have only : (systemEnv host).isMacos = true := macos
      rw [if_pos only, List.findSome?_singleton] at last
      obtain ⟨path, said, rfl⟩ := Option.map_eq_some_iff.mp last
      obtain ⟨said, full⟩ := Option.filter_eq_some_iff.mp said
      exact ⟨macos, rfl, nonempty_of_filter full, Option.map_eq_some_iff.mp said, absent⟩
    · have none : (systemEnv host).isMacos ≠ true := macos
      rw [if_neg none] at last
      cases last

/-- A host with an `lldb-dap-18` and a later `lldb-dap-20` on its `PATH`. -/
def twoVersions : Host where
  environment key := if key = "PATH" then some "/usr/bin:/opt/llvm/" else none
  isFile path := path = "/usr/bin/lldb-dap-18" || path = "/opt/llvm/lldb-dap-20"
  isExecutable _ := true
  xcrun := none
  isMacos := false

theorem detected_named_versions : ∃ before name after, names = before ++ name :: after ∧
    lookPathIn twoVersions name.1 (some "/usr/bin:/opt/llvm/") = some "/opt/llvm/lldb-dap-20" ∧
    "lldb-dap-20" = name.1 ∧
    ∀ other ∈ before, lookPathIn twoVersions other.1 (some "/usr/bin:/opt/llvm/") = none := by
  have found : findLldbDap twoVersions = .ok ⟨"/opt/llvm/lldb-dap-20", true⟩ := by decide
  rcases detected_named found with ⟨given, -⟩ |
    ⟨before, name, after, split, here, base, -, -, missed⟩ | ⟨macos, -⟩
  · cases given
  · exact ⟨before, name, after, split, here, base ▸ by decide, missed⟩
  · cases macos

end LldbDebugMcp.Backend.Detect
