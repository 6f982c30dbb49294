import RcpGraph.Lib.Dict
import RcpGraph.Lib.Text
import Mathlib.Data.List.Dedup

/-!
The write scope of one Work-like launch. A path is the list of its components, absolute
and normalized; what the execution host answers about paths is a record of functions.
-/

namespace RcpGraph.WriteScope

abbrev Path := List String

def render (p : Path) : String := "/" ++ Text.join "/" p

/-- The proper ancestors of a path. -/
def parents (p : Path) : List Path := (List.range p.length).map fun n => p.take n

/-- The execution host, as its account sees it. -/
structure Host where
  remote : Bool
  /-- `resolve`, and `realpath` on a remote host. -/
  realpath : Path → Path
  present : Path → Bool
  directory : Path → Bool
  writable : Path → Bool
  /-- The account's home, resolved. -/
  home : Path
  /-- `tempfile.gettempdir()` of the backend. -/
  temporary : Path
  /-- `control_directory_candidate`. -/
  controlDirectory : Path
  /-- `short_socket_root` of the home, and whether the home is too deep for its own sockets. -/
  shortSocketRoot : Path
  deepHome : Bool
  /-- The task stage and its workspace on a remote host, and the stages of older releases. -/
  stage : Path
  workspace : Path
  legacyStages : List Path

namespace Host

variable (h : Host)

/-- `_ExecutionPathSemantics.equal`: one file on the backend, one name elsewhere. -/
def same (left right : Path) : Bool :=
  if !h.remote && h.present left && h.present right then h.realpath left = h.realpath right
  else left = right

/-- `_ExecutionPathSemantics.overlaps`. -/
def overlaps (left right : Path) : Bool :=
  h.same left right || ((parents left).any fun p => h.same p right) ||
    (parents right).any fun p => h.same left p

/-- `_canonical_directories` of one path. -/
def canonicalDirectory (requireWritable : Bool) (raw : Path) : Except String Path :=
  if h.directory (h.realpath raw) = false then
    .error ("project repository root is unavailable: " ++ render raw)
  else if requireWritable && !h.writable (h.realpath raw) then
    .error ("project repository root is not writable: " ++ render raw)
  else .ok (h.realpath raw)

/-- `_canonical_directories`: all of them, or the first that fails. -/
def canonicalDirectories (requireWritable : Bool) : List Path → Except String (List Path)
  | [] => .ok []
  | raw :: rest =>
      match h.canonicalDirectory requireWritable raw, canonicalDirectories requireWritable rest with
      | .error e, _ => .error e
      | .ok _, .error e => .error e
      | .ok p, .ok ps => .ok (p :: ps)

end Host

/-- The paths without repetition, in the order of their text. -/
def sortedPaths (ps : List Path) : List Path :=
  ps.dedup.mergeSort fun a b => render a ≤ render b

structure RepositoryConfig where
  repoAlias : String
  /-- The id of its machine card, empty while unassigned. -/
  machine : String
  path : Path
  deriving DecidableEq, Repr

structure Manifest where
  /-- `repository_map`. -/
  repositories : Dict String RepositoryConfig
  /-- The repository that holds the graph's state. -/
  state : RepositoryConfig

structure RepositoryPointer where
  repoAlias : String
  machine : String
  path : Path
  deriving DecidableEq, Repr

/-- A repository root some project of the catalog owns. -/
structure RegisteredRepositoryRoot where
  projectId : String
  repoAlias : String
  machine : String
  path : Path
  deriving DecidableEq, Repr

structure WorktreeBinding where
  repositoryAlias : String
  machineId : String
  sharedPath : Path
  worktreePath : Path
  gitCommonDir : Path
  /-- The project and the readiness of a conversation's worktree; none for an episode's. -/
  conversation : Option (String × Bool)
  deriving DecidableEq, Repr

inductive Capability where
  | discuss
  | workAuto
  | orchestrate
  deriving DecidableEq, Repr

/-- The storage of an installed server. -/
structure ServerPaths where
  releasesRoot : Path
  sourceCheckout : Path
  credentialsRoot : Path
  updateCheckpointsRoot : Path
  restoreOperationsRoot : Path
  configPath : Path
  runtimeDir : Path
  deriving DecidableEq, Repr

/-- The arguments of `resolve_project_write_scope`. -/
structure Request where
  manifest : Manifest
  truthScope : List String
  projectId : String
  machineId : String
  capability : Capability
  stageRoot : Path
  workspaceRoot : Path
  admittedAliases : List String
  pointers : List RepositoryPointer
  /-- The data directory of the running server. -/
  appDataDir : Option Path
  /-- The installed storage that owns this data directory. -/
  installed : Option ServerPaths
  inventory : List RegisteredRepositoryRoot
  additionalProtected : List Path
  binding : Option WorktreeBinding
  includeSharedCheckout : Bool
  machineWritablePaths : List Path

structure WritableRepositoryRoot where
  repoAlias : String
  machine : String
  path : Path
  deriving DecidableEq, Repr

/-- The order of a scope's repositories. -/
def WritableRepositoryRoot.before (a b : WritableRepositoryRoot) : Bool :=
  a.repoAlias < b.repoAlias || a.repoAlias = b.repoAlias &&
    (a.machine < b.machine || a.machine = b.machine && render a.path ≤ render b.path)

structure ProjectWriteScope where
  projectId : String
  machineId : String
  capability : Capability
  stageRoot : Path
  workspaceRoot : Path
  repositories : List WritableRepositoryRoot
  gitMetadataRoots : List Path
  grantedRoots : List Path
  protectedWritePaths : List Path
  grantedProtectedPaths : List Path

/-- `rcp_owned_paths`. -/
def rcpOwnedPaths (h : Host) (appDataDir : Option Path) (installed : Option ServerPaths) :
    List Path :=
  (h.home ++ [".rcp"]) :: (if h.deepHome then [h.shortSocketRoot] else []) ++
    if h.remote then [h.home ++ [".local", "share", "rcp"]]
    else h.controlDirectory :: match appDataDir with
      | none => []
      | some dataDir => h.realpath dataDir :: match installed with
        | none => []
        | some paths => [paths.releasesRoot, paths.sourceCheckout, paths.credentialsRoot,
            paths.updateCheckpointsRoot, paths.restoreOperationsRoot, paths.configPath.dropLast,
            paths.runtimeDir]

/-- `default_temporary_roots`. -/
def defaultTemporaryRoots (h : Host) : List Path :=
  ["tmp"] :: if h.remote then [] else [h.temporary]

/-- `protected_repository_paths`: the canonical state below each root and in the state
repository, as declared and as resolved, and the additional paths. -/
def protectedRepositoryPaths (h : Host) (state : RepositoryConfig) (roots additional : List Path) :
    List Path :=
  let declared := (roots.map fun root => root ++ [".research"]) ++ [state.path ++ [".research"]]
  let resolved := match h.canonicalDirectories false declared.dedup with
    | .ok canonical => canonical
    | .error _ => declared.dedup.filterMap fun path => (h.canonicalDirectory false path).toOption
  sortedPaths (declared ++ additional ++ resolved)

/-- `_granted_roots`: the protected paths the grants cover. -/
def grantedRoots (h : Host) (grants owned : List Path) : Except String (List Path) :=
  let candidates := (if h.remote then owned else owned ++ owned.map h.realpath).dedup
  if grants = [] then .ok []
  else
    match grants.findSome? fun grant => (candidates.find? fun path =>
        h.same grant path || (parents grant).any fun p => h.same p path).map fun path =>
          "writable path " ++ render grant ++ " is inside protected storage at " ++ render path with
    | some refusal => .error refusal
    | none => .ok (sortedPaths (candidates.filter fun path =>
        grants.any fun grant => (parents path).any fun p => h.same p grant))

/-- `_reject_broad_repository_root`. -/
def rejectBroadRepositoryRoot (h : Host) (appDataDir : Option Path) (root : Path) :
    Option String :=
  if h.same root [] then some "the filesystem root cannot be a project repository write root"
  else if h.same root h.home then
    some "the execution account home cannot be a project repository write root"
  else if [["tmp"], ["private", "tmp"], h.realpath h.temporary].any (h.same root) then
    some "a broad temporary directory cannot be a project repository write root"
  else
    match appDataDir with
    | none => none
    | some dataDir =>
        if h.remote = false ∧ h.overlaps root (h.realpath dataDir) then
          some "the RCP application data directory cannot be a repository write root"
        else none

/-- `_reject_repository_ownership_overlap`. -/
def rejectRepositoryOwnershipOverlap (h : Host) (repository : RepositoryConfig)
    (projectId : String) (eligible : List RepositoryConfig)
    (inventory : List RegisteredRepositoryRoot) (root : Path) : Option String :=
  let foreign := inventory.find? fun owner =>
    !(owner.projectId = projectId && eligible.any fun item =>
      item.repoAlias = owner.repoAlias && item.machine = owner.machine && item.path = owner.path) &&
      (h.overlaps repository.path owner.path || h.overlaps root (h.realpath owner.path))
  foreign.map fun owner =>
    "repository " ++ Text.quoted repository.repoAlias ++ " overlaps " ++
      (if owner.projectId = projectId then "an unadmitted repository" else "another project") ++
      " on this execution machine: " ++ owner.projectId ++ "/" ++ owner.repoAlias

def refuseIf (c : Bool) (message : String) : Except String PUnit :=
  if c then .error message else .ok ⟨⟩

/-- The first refusal among some checks. -/
def refuseFirst : List (Option String) → Except String PUnit
  | [] => .ok ⟨⟩
  | none :: rest => refuseFirst rest
  | some message :: _ => .error message

def check (c : Bool) (message : String) : Option String := if c then some message else none

namespace Request

variable (r : Request)

def aliases : List String := Text.sortedSet r.admittedAliases

/-- The admitted repositories of the execution machine. -/
def eligible : List RepositoryConfig :=
  (r.aliases.filterMap fun repoAlias => r.manifest.repositories.get? repoAlias).filter
    fun repository => repository.machine = r.machineId

def pointer (repoAlias : String) : Option RepositoryPointer :=
  r.pointers.find? fun pointer => pointer.repoAlias = repoAlias

/-- The checks on the request itself, in the order of the source. -/
def entryChecks : List (Option String) :=
  [check (r.capability = .discuss) "capability 'discuss' has no project write scope",
    check (r.projectId = "") "project write scope requires a durable project id",
    check (r.aliases.length ≠ r.admittedAliases.length)
      "write-scope repository aliases must be sorted and unique",
    check (r.aliases.any fun repoAlias => repoAlias ∉ r.truthScope)
      ("write scope names repositories outside this project: " ++
        Text.quotedList (r.aliases.filter fun repoAlias => repoAlias ∉ r.truthScope)),
    check (¬ (r.pointers.map (·.repoAlias)).Nodup) "duplicate repository pointer in write scope",
    check (r.aliases.any fun repoAlias => repoAlias ∉ r.manifest.repositories) "KeyError",
    check (r.aliases.any fun repoAlias =>
      (r.manifest.repositories.get? repoAlias).any fun repository => repository.machine = "")
      "Assign a machine to repository.",
    check (r.includeSharedCheckout && r.binding.isNone)
      "shared checkout integration requires a conversation worktree binding"]

/-- The checks on the worktree a conversation or an episode is bound to. -/
def bindingChecks (binding : WorktreeBinding) : List (Option String) :=
  [check (binding.conversation.isSome && r.capability ≠ .workAuto)
      "conversation worktrees require ordinary Work capability",
    check (binding.conversation.any fun owner => !owner.2) "conversation worktree is not ready",
    check (binding.conversation.isNone && r.includeSharedCheckout && r.capability ≠ .orchestrate)
      "episode launches cannot admit the shared checkout",
    check ((binding.conversation.any fun owner => owner.1 ≠ r.projectId) ||
        binding.machineId ≠ r.machineId)
      "conversation worktree belongs to a different project or execution machine",
    check (r.aliases ≠ [binding.repositoryAlias] || r.eligible.length ≠ 1)
      "conversation worktree requires its exact single repository run scope"]

def pointerChecks (repository : RepositoryConfig) : List (Option String) :=
  [check (r.pointer repository.repoAlias).isNone
      ("write scope is missing repository pointer " ++ Text.quoted repository.repoAlias),
    check ((r.pointer repository.repoAlias).any fun pointer => pointer.machine ≠ repository.machine)
      ("repository " ++ Text.quoted repository.repoAlias ++
        " does not match its project execution machine")]

/-- The path a repository is reached at. -/
def pointerPath (repository : RepositoryConfig) : Path :=
  ((r.pointer repository.repoAlias).map (·.path)).getD []

/-- Grants join a scope that writes repositories. -/
def declaredGrants (h : Host) : List Path :=
  if r.eligible = [] then [] else r.machineWritablePaths ++ defaultTemporaryRoots h

def declaredPaths (h : Host) : List Path :=
  [r.stageRoot, r.workspaceRoot] ++ r.additionalProtected ++
    (r.eligible.flatMap fun repository => [repository.path, r.pointerPath repository]) ++
    (match r.binding with
      | none => []
      | some binding => [binding.sharedPath, binding.worktreePath, binding.gitCommonDir]) ++
    r.declaredGrants h

/-- An episode's grants keep away from its shared checkout. -/
def grants (h : Host) : List Path :=
  sortedPaths (((r.declaredGrants h).filter fun grant =>
    !(r.binding.any fun binding => binding.conversation.isNone &&
      h.overlaps (h.realpath grant) (h.realpath binding.sharedPath))).map h.realpath)

def executionInventory : List RegisteredRepositoryRoot :=
  r.inventory.filter fun item => item.machine = r.machineId

/-- The inventory rows of an admitted repository. -/
def ownership (repository : RepositoryConfig) : List RegisteredRepositoryRoot :=
  r.executionInventory.filter fun item =>
    item.projectId = r.projectId && item.repoAlias = repository.repoAlias &&
      item.machine = repository.machine && item.path = repository.path

/-- The roots a repository is written at. -/
def rootsOf (h : Host) (repository : RepositoryConfig) : List Path :=
  h.realpath (r.pointerPath repository) ::
    if r.includeSharedCheckout then [h.realpath repository.path] else []

/-- The roots whose place is checked: the registered checkout's too, and its Git metadata. -/
def checkedRoots (h : Host) (repository : RepositoryConfig) : List Path :=
  (h.realpath repository.path :: r.rootsOf h repository ++
    (r.binding.map (·.gitCommonDir)).toList).dedup

/-- The checks on one admitted repository. -/
def repositoryChecks (h : Host) (repository : RepositoryConfig) : List (Option String) :=
  (match r.binding with
    | some binding =>
        [check (h.realpath repository.path ≠ binding.sharedPath)
            "conversation worktree no longer matches its registered shared root",
          check (h.realpath binding.worktreePath ≠ binding.worktreePath)
            "conversation worktree moved or its path was retargeted",
          check (h.realpath binding.gitCommonDir ≠ binding.gitCommonDir)
            "conversation Git metadata moved or its path was retargeted",
          check (h.realpath (r.pointerPath repository) ≠ binding.worktreePath)
            "repository pointer does not match its conversation worktree",
          check (h.overlaps (h.realpath repository.path) (h.realpath (r.pointerPath repository)))
            "conversation worktree must be outside the shared checkout"]
    | none =>
        [check (h.realpath repository.path ≠ h.realpath (r.pointerPath repository))
          ("repository " ++ Text.quoted repository.repoAlias ++
            " no longer matches its registered project root")]) ++
    [check ((r.ownership repository).length ≠ 1)
      ("repository " ++ Text.quoted repository.repoAlias ++
        " is missing from the canonical project inventory")] ++
    (r.checkedRoots h repository).flatMap fun root =>
      [rejectBroadRepositoryRoot h r.appDataDir root,
        rejectRepositoryOwnershipOverlap h repository r.projectId r.eligible r.executionInventory
          root]

def repositoryRoots (h : Host) : List WritableRepositoryRoot :=
  r.eligible.flatMap fun repository => (r.rootsOf h repository).map fun root =>
    ⟨repository.repoAlias, repository.machine, root⟩

/-- RCP's storage and every canonical state directory of the machine. -/
def ownedPaths (h : Host) : List Path :=
  rcpOwnedPaths h r.appDataDir r.installed ++
    protectedRepositoryPaths h r.manifest.state
      (sortedPaths (r.executionInventory.flatMap fun item => [item.path, h.realpath item.path])) [] ++
    [h.realpath r.stageRoot ++ ["inputs"]] ++
    if h.remote then h.legacyStages.filter fun root => root ≠ h.realpath r.stageRoot else []

/-- The canonical state of the admitted roots and the paths the launch adds. -/
def baseProtected (h : Host) : List Path :=
  protectedRepositoryPaths h r.manifest.state ((r.repositoryRoots h).map (·.path))
    (r.additionalProtected ++ r.additionalProtected.map h.realpath)

/-- The scope's own validation. -/
def scopeChecks (h : Host) : List (Option String) :=
  [check (¬ h.realpath r.stageRoot <+: h.realpath r.workspaceRoot)
      "write-scope workspace must be inside its exact task stage",
    check (¬ ((r.repositoryRoots h).map (·.path)).Nodup)
      "write-scope repository roots must be exact and unique"]

end Request

/-- `resolve_project_write_scope`. -/
def resolveProjectWriteScope (h : Host) (r : Request) : Except String ProjectWriteScope := do
  refuseFirst r.entryChecks
  refuseFirst ((r.binding.map r.bindingChecks).getD [])
  refuseFirst (r.eligible.flatMap r.pointerChecks)
  let _ ← h.canonicalDirectories true (r.declaredPaths h)
  refuseIf (r.binding.any fun binding => binding.conversation.isNone &&
    r.machineWritablePaths.any fun grant =>
      h.overlaps (h.realpath grant) (h.realpath binding.sharedPath))
    "episode machine writable grant overlaps the shared checkout"
  refuseIf (h.remote && (h.realpath r.stageRoot ≠ h.stage ||
    h.realpath r.workspaceRoot ≠ h.workspace))
    "remote write scope does not match its exact RCP task stage"
  let _ ← h.canonicalDirectories false (r.executionInventory.map (·.path))
  refuseFirst (r.eligible.flatMap (r.repositoryChecks h))
  let covered ← grantedRoots h (r.grants h) (r.ownedPaths h)
  refuseFirst (r.scopeChecks h)
  pure {
    projectId := r.projectId
    machineId := r.machineId
    capability := r.capability
    stageRoot := h.realpath r.stageRoot
    workspaceRoot := h.realpath r.workspaceRoot
    repositories := (r.repositoryRoots h).mergeSort WritableRepositoryRoot.before
    gitMetadataRoots := (r.binding.map (·.gitCommonDir)).toList
    grantedRoots := r.grants h
    protectedWritePaths := sortedPaths (r.baseProtected h ++ covered)
    grantedProtectedPaths := sortedPaths (covered.filter fun path => path ∉ r.baseProtected h) }

end RcpGraph.WriteScope
