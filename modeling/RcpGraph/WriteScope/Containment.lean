import RcpGraph.WriteScope.Scope

/-!
What a resolved scope protects. Grants never expose RCP's storage, and no root exposes
canonical state; a repository root exposes RCP's storage unless something else covers it.
-/

namespace RcpGraph.WriteScope

theorem mem_sortedPaths (ps : List Path) (p : Path) : p ∈ sortedPaths ps ↔ p ∈ ps := by
  unfold sortedPaths
  rw [List.mem_mergeSort, List.mem_dedup]

theorem mem_parents (p q : Path) : q ∈ parents p ↔ q <+: p ∧ q ≠ p := by
  unfold parents
  rw [List.mem_map]
  constructor
  · rintro ⟨n, hn, rfl⟩
    rw [List.mem_range] at hn
    refine ⟨List.take_prefix n p, ?_⟩
    intro heq
    have hlen := congrArg List.length heq
    rw [List.length_take] at hlen
    omega
  · rintro ⟨hpre, hne⟩
    refine ⟨q.length, ?_, (List.prefix_iff_eq_take.mp hpre).symm⟩
    rw [List.mem_range]
    have hle := hpre.length_le
    by_contra hge
    exact hne (hpre.eq_of_length (by omega))

theorem Host.same_refl (h : Host) (p : Path) : h.same p p = true := by
  unfold Host.same
  split <;> simp

theorem Host.overlaps_of_prefix (h : Host) {p q : Path} (hpq : p <+: q) :
    h.overlaps p q = true ∧ h.overlaps q p = true := by
  unfold Host.overlaps
  by_cases heq : p = q
  · rw [heq]
    simp [h.same_refl]
  · have hmem : p ∈ parents q := (mem_parents q p).mpr ⟨hpq, heq⟩
    have hleft : (parents q).any (fun x => h.same p x) = true :=
      List.any_eq_true.mpr ⟨p, hmem, h.same_refl p⟩
    have hright : (parents q).any (fun x => h.same x p) = true :=
      List.any_eq_true.mpr ⟨p, hmem, h.same_refl p⟩
    rw [hleft, hright]
    simp

theorem refuseFirst_ok {checks : List (Option String)} (h : refuseFirst checks = .ok ⟨⟩)
    {c : Option String} (hc : c ∈ checks) : c = none := by
  induction checks with
  | nil => cases hc
  | cons check checks ih =>
      cases check with
      | some message => cases h
      | none =>
          rcases List.mem_cons.mp hc with rfl | hc
          · rfl
          · exact ih h hc

theorem check_none {c : Bool} {message : String} (h : check c message = none) : c = false := by
  cases c with
  | false => rfl
  | true => cases h

/-- A grant lies strictly above a path. -/
def Host.Covers (h : Host) (grants : List Path) (p : Path) : Prop :=
  ∃ grant ∈ grants, ∃ q ∈ parents p, h.same q grant = true

/-- What a grant covers, it covers below it. -/
theorem Host.Covers.below {h : Host} {grants : List Path} {p q : Path} (hp : h.Covers grants p)
    (hpq : p <+: q) : h.Covers grants q := by
  obtain ⟨grant, hgrant, x, hx, hsame⟩ := hp
  obtain ⟨hxp, hne⟩ := (mem_parents p x).mp hx
  refine ⟨grant, hgrant, x, (mem_parents q x).mpr ⟨hxp.trans hpq, ?_⟩, hsame⟩
  rintro rfl
  exact hne (hxp.eq_of_length (le_antisymm hxp.length_le hpq.length_le))

/-- No grant is at or inside an owned path, and those it covers are protected. -/
theorem grantedRoots_ok {h : Host} {grants owned covered : List Path}
    (hok : grantedRoots h grants owned = .ok covered) :
    (∀ p ∈ covered, h.Covers grants p) ∧
      ∀ p ∈ owned, (∀ grant ∈ grants, grant ≠ p) ∧ (h.Covers grants p → p ∈ covered) := by
  unfold grantedRoots at hok
  by_cases hgrants : grants = []
  · rw [if_pos hgrants] at hok
    cases hok
    subst hgrants
    refine ⟨?_, ?_⟩
    · intro p hp
      cases hp
    · intro p _
      refine ⟨?_, ?_⟩
      · intro grant hgrant
        cases hgrant
      · rintro ⟨grant, hgrant, -⟩
        cases hgrant
  · simp only [if_neg hgrants] at hok
    split at hok
    · cases hok
    · rename_i hnone
      cases hok
      have howned : ∀ p ∈ owned, p ∈ (if h.remote then owned
          else owned ++ owned.map h.realpath).dedup := by
        intro p hp
        rw [List.mem_dedup]
        split
        · exact hp
        · exact List.mem_append_left _ hp
      constructor
      · intro p hp
        rw [mem_sortedPaths, List.mem_filter, List.any_eq_true] at hp
        obtain ⟨-, grant, hgrant, hany⟩ := hp
        obtain ⟨q, hq, hsame⟩ := List.any_eq_true.mp hany
        exact ⟨grant, hgrant, q, hq, hsame⟩
      · intro p hp
        constructor
        · rintro grant hgrant rfl
          have hfind := List.findSome?_eq_none_iff.mp hnone grant hgrant
          rw [Option.map_eq_none_iff, List.find?_eq_none] at hfind
          exact hfind grant (howned grant hp) (by simp [h.same_refl])
        · rintro ⟨grant, hgrant, q, hq, hsame⟩
          rw [mem_sortedPaths, List.mem_filter]
          refine ⟨howned p hp, ?_⟩
          exact List.any_eq_true.mpr ⟨grant, hgrant, List.any_eq_true.mpr ⟨q, hq, hsame⟩⟩

/-- What a resolved scope was built from. -/
structure Resolved (h : Host) (r : Request) (scope : ProjectWriteScope) (covered : List Path) :
    Prop where
  checks : ∀ repository ∈ r.eligible, ∀ c ∈ r.repositoryChecks h repository, c = none
  granted : WriteScope.grantedRoots h (r.grants h) (r.ownedPaths h) = .ok covered
  repositories : scope.repositories =
    (r.repositoryRoots h).mergeSort WritableRepositoryRoot.before
  grants : scope.grantedRoots = r.grants h
  protectedPaths : scope.protectedWritePaths = sortedPaths (r.baseProtected h ++ covered)

theorem bind_ok {ε α β : Type} {m : Except ε α} {f : α → Except ε β} {b : β}
    (h : (m >>= f) = .ok b) : ∃ a, m = .ok a ∧ f a = .ok b := by
  cases m with
  | error e => cases h
  | ok a => exact ⟨a, rfl, h⟩

theorem resolve_ok {h : Host} {r : Request} {scope : ProjectWriteScope}
    (hok : resolveProjectWriteScope h r = .ok scope) : ∃ covered, Resolved h r scope covered := by
  unfold resolveProjectWriteScope at hok
  obtain ⟨_, _, hok⟩ := bind_ok hok
  obtain ⟨_, _, hok⟩ := bind_ok hok
  obtain ⟨_, _, hok⟩ := bind_ok hok
  obtain ⟨_, _, hok⟩ := bind_ok hok
  obtain ⟨_, _, hok⟩ := bind_ok hok
  obtain ⟨_, _, hok⟩ := bind_ok hok
  obtain ⟨_, _, hok⟩ := bind_ok hok
  obtain ⟨_, hchecks, hok⟩ := bind_ok hok
  obtain ⟨covered, hgranted, hok⟩ := bind_ok hok
  obtain ⟨_, _, hok⟩ := bind_ok hok
  cases hok
  refine ⟨covered, ?_, hgranted, rfl, rfl, rfl⟩
  intro repository hrepository c hc
  exact refuseFirst_ok hchecks (List.mem_flatMap.mpr ⟨repository, hrepository, hc⟩)

theorem Host.canonicalDirectory_ok {h : Host} {w : Bool} {raw p : Path}
    (hok : h.canonicalDirectory w raw = .ok p) :
    p = h.realpath raw ∧ h.directory (h.realpath raw) = true := by
  unfold Host.canonicalDirectory at hok
  by_cases hdir : h.directory (h.realpath raw) = false
  · rw [if_pos hdir] at hok
    cases hok
  · rw [if_neg hdir] at hok
    split at hok
    · cases hok
    · cases hok
      exact ⟨rfl, by simpa using hdir⟩

theorem Host.canonicalDirectory_read (h : Host) {raw : Path}
    (hdir : h.directory (h.realpath raw) = true) :
    h.canonicalDirectory false raw = .ok (h.realpath raw) := by
  unfold Host.canonicalDirectory
  rw [if_neg (by simp [hdir])]
  simp

theorem Host.canonicalDirectories_ok {h : Host} {w : Bool} {raws ps : List Path}
    (hok : h.canonicalDirectories w raws = .ok ps) :
    ps = raws.map h.realpath ∧ ∀ raw ∈ raws, h.directory (h.realpath raw) = true := by
  induction raws generalizing ps with
  | nil =>
      cases hok
      exact ⟨rfl, by simp⟩
  | cons raw raws ih =>
      unfold Host.canonicalDirectories at hok
      cases hraw : h.canonicalDirectory w raw with
      | error e =>
          rw [hraw] at hok
          cases hok
      | ok p =>
          cases hrest : h.canonicalDirectories w raws with
          | error e =>
              rw [hraw, hrest] at hok
              cases hok
          | ok rest =>
              rw [hraw, hrest] at hok
              cases hok
              obtain ⟨rfl, hall⟩ := ih hrest
              obtain ⟨rfl, hdir⟩ := Host.canonicalDirectory_ok hraw
              refine ⟨rfl, ?_⟩
              intro q hq
              rcases List.mem_cons.mp hq with rfl | hq
              · exact hdir
              · exact hall q hq

/-- The canonical state directories a deny list starts from. -/
def stateDirectories (state : RepositoryConfig) (roots : List Path) : List Path :=
  (roots.map fun root => root ++ [".research"]) ++ [state.path ++ [".research"]]

/-- Whether the state directories were resolved together or one by one, those that exist are
protected as resolved too. -/
theorem mem_protectedRepositoryPaths {h : Host} {state : RepositoryConfig}
    {roots additional : List Path} {p : Path} :
    p ∈ protectedRepositoryPaths h state roots additional ↔
      p ∈ stateDirectories state roots ∨ p ∈ additional ∨
        ∃ raw ∈ stateDirectories state roots,
          h.directory (h.realpath raw) = true ∧ p = h.realpath raw := by
  unfold protectedRepositoryPaths
  rw [← stateDirectories.eq_1]
  simp only [mem_sortedPaths, List.mem_append]
  rw [or_assoc]
  refine or_congr_right (or_congr_right ?_)
  cases hall : h.canonicalDirectories false (stateDirectories state roots).dedup with
  | ok canonical =>
      obtain ⟨rfl, hdir⟩ := Host.canonicalDirectories_ok hall
      simp only [List.mem_map, List.mem_dedup] at hdir ⊢
      constructor
      · rintro ⟨raw, hraw, rfl⟩
        exact ⟨raw, hraw, hdir raw hraw, rfl⟩
      · rintro ⟨raw, hraw, -, rfl⟩
        exact ⟨raw, hraw, rfl⟩
  | error e =>
      simp only [List.mem_filterMap, List.mem_dedup]
      constructor
      · rintro ⟨raw, hraw, hsome⟩
        cases hone : h.canonicalDirectory false raw with
        | error e =>
            rw [hone] at hsome
            cases hsome
        | ok q =>
            rw [hone] at hsome
            cases hsome
            obtain ⟨rfl, hdir⟩ := Host.canonicalDirectory_ok hone
            exact ⟨raw, hraw, hdir, rfl⟩
      · rintro ⟨raw, hraw, hdir, rfl⟩
        refine ⟨raw, hraw, ?_⟩
        rw [h.canonicalDirectory_read hdir]
        rfl

/-- The canonical state below a root is protected. -/
theorem research_mem_protected (h : Host) (state : RepositoryConfig) {roots additional : List Path}
    {root : Path} (hroot : root ∈ roots) :
    root ++ [".research"] ∈ protectedRepositoryPaths h state roots additional := by
  rw [mem_protectedRepositoryPaths]
  left
  unfold stateDirectories
  exact List.mem_append_left _ (List.mem_map.mpr ⟨root, hroot, rfl⟩)

/-- An inventory row that belongs to an admitted repository. -/
def Request.Admits (r : Request) (owner : RegisteredRepositoryRoot) : Prop :=
  owner.projectId = r.projectId ∧ ∃ repository ∈ r.eligible,
    repository.repoAlias = owner.repoAlias ∧ repository.machine = owner.machine ∧
      repository.path = owner.path

section Resolved

variable {h : Host} {r : Request} {scope : ProjectWriteScope} {covered : List Path}

/-- Nothing that another owner's root overlaps is admitted. -/
theorem Resolved.apart (hr : Resolved h r scope covered) {repository : RepositoryConfig}
    (hrepository : repository ∈ r.eligible) {owner : RegisteredRepositoryRoot}
    (howner : owner ∈ r.executionInventory) (hadmits : ¬ r.Admits owner) {root : Path}
    (hroot : root ∈ r.checkedRoots h repository) :
    h.overlaps root (h.realpath owner.path) = false := by
  have hnone := hr.checks repository hrepository
    (rejectRepositoryOwnershipOverlap h repository r.projectId r.eligible r.executionInventory root)
    (by
      unfold Request.repositoryChecks
      refine List.mem_append_right _ (List.mem_flatMap.mpr ⟨root, hroot, ?_⟩)
      simp)
  unfold rejectRepositoryOwnershipOverlap at hnone
  rw [Option.map_eq_none_iff, List.find?_eq_none] at hnone
  have hclear := hnone owner howner
  by_contra hoverlap
  rw [Bool.not_eq_false] at hoverlap
  refine hclear ?_
  rw [hoverlap]
  simp only [Bool.or_true, Bool.and_true, Bool.not_eq_true', Bool.and_eq_false_iff,
    decide_eq_false_iff_not]
  by_cases hproject : owner.projectId = r.projectId
  · right
    rw [List.any_eq_false]
    intro item hitem hsame
    simp only [Bool.and_eq_true, decide_eq_true_eq] at hsame
    exact hadmits ⟨hproject, item, hitem, hsame.1.1, hsame.1.2, hsame.2⟩
  · exact Or.inl hproject

/-- The checks on the worktree a repository is bound to. -/
theorem Resolved.bound (hr : Resolved h r scope covered) {binding : WorktreeBinding}
    (hb : r.binding = some binding) {repository : RepositoryConfig}
    (hrepository : repository ∈ r.eligible) :
    h.realpath (r.pointerPath repository) = binding.worktreePath ∧
      h.overlaps (h.realpath repository.path) (h.realpath (r.pointerPath repository)) = false := by
  have hchecks := hr.checks repository hrepository
  unfold Request.repositoryChecks at hchecks
  rw [hb] at hchecks
  constructor
  · have hpath := check_none (hchecks
      (check (h.realpath (r.pointerPath repository) ≠ binding.worktreePath)
        "repository pointer does not match its conversation worktree") (by simp))
    simpa using hpath
  · exact check_none (hchecks
      (check (h.overlaps (h.realpath repository.path) (h.realpath (r.pointerPath repository)))
        "conversation worktree must be outside the shared checkout") (by simp))

theorem Resolved.unbound (hr : Resolved h r scope covered) (hb : r.binding = none)
    {repository : RepositoryConfig} (hrepository : repository ∈ r.eligible) :
    h.realpath repository.path = h.realpath (r.pointerPath repository) := by
  have hchecks := hr.checks repository hrepository
  unfold Request.repositoryChecks at hchecks
  rw [hb] at hchecks
  have hpath := check_none (hchecks
    (check (h.realpath repository.path ≠ h.realpath (r.pointerPath repository))
      ("repository " ++ Text.quoted repository.repoAlias ++
        " no longer matches its registered project root")) (by simp))
  simpa using hpath

/-- A registered root is written, or apart from every written root. -/
theorem Resolved.registered (hr : Resolved h r scope covered) {admitted repository : RepositoryConfig}
    (hadmitted : admitted ∈ r.eligible) (hrepository : repository ∈ r.eligible) {root : Path}
    (hroot : root ∈ r.rootsOf h repository) :
    h.realpath admitted.path ∈ r.rootsOf h admitted ∨
      h.overlaps (h.realpath admitted.path) root = false := by
  unfold Request.rootsOf at hroot ⊢
  cases hb : r.binding with
  | none =>
      rw [hr.unbound hb hadmitted]
      exact Or.inl List.mem_cons_self
  | some binding =>
      cases hshared : r.includeSharedCheckout with
      | true => exact Or.inl (by simp)
      | false =>
          rw [hshared] at hroot
          obtain rfl : root = h.realpath (r.pointerPath repository) := by simpa using hroot
          rw [(hr.bound hb hrepository).1, ← (hr.bound hb hadmitted).1]
          exact Or.inr (hr.bound hb hadmitted).2

theorem mem_repositoryRoots {root : Path} :
    root ∈ (r.repositoryRoots h).map (·.path) ↔
      ∃ repository ∈ r.eligible, root ∈ r.rootsOf h repository := by
  unfold Request.repositoryRoots
  simp only [List.map_flatMap, List.map_map, Function.comp_def, List.map_id', List.mem_flatMap]

theorem mem_checkedRoots {repository : RepositoryConfig} {root : Path}
    (hroot : root ∈ r.rootsOf h repository) : root ∈ r.checkedRoots h repository := by
  unfold Request.checkedRoots
  rw [List.mem_dedup]
  exact List.mem_append_left _ (List.mem_cons_of_mem _ hroot)

/-- Canonical state at or below a repository root is protected. -/
theorem Resolved.research (hr : Resolved h r scope covered) {item : RegisteredRepositoryRoot}
    (hitem : item ∈ r.executionInventory) {root : Path}
    (hroot : root ∈ (r.repositoryRoots h).map (·.path))
    (hbelow : root <+: h.realpath item.path ++ [".research"]) :
    h.realpath item.path ++ [".research"] ∈ r.baseProtected h := by
  obtain ⟨repository, hrepository, hroot⟩ := mem_repositoryRoots.mp hroot
  have hoverlap : h.overlaps root (h.realpath item.path) = true ∧
      h.overlaps (h.realpath item.path) root = true := by
    rcases List.prefix_concat_iff.mp hbelow with rfl | hpre
    · exact (h.overlaps_of_prefix (List.prefix_append _ _)).symm
    · exact h.overlaps_of_prefix hpre
  by_cases hadmits : r.Admits item
  · obtain ⟨-, admitted, hadmitted, -, -, hpath⟩ := hadmits
    rw [← hpath] at hoverlap ⊢
    rcases hr.registered hadmitted hrepository hroot with hmem | hapart
    · exact research_mem_protected h r.manifest.state
        (mem_repositoryRoots.mpr ⟨admitted, hadmitted, hmem⟩)
    · rw [hoverlap.2] at hapart
      cases hapart
  · have hapart := hr.apart hrepository hitem hadmits (mem_checkedRoots hroot)
    rw [hoverlap.1] at hapart
    cases hapart

/-- RCP's storage on the execution account, and the canonical state of each repository of
the machine. -/
def Request.storage (h : Host) (r : Request) : List Path :=
  rcpOwnedPaths h r.appDataDir r.installed ++
    r.executionInventory.map fun item => h.realpath item.path ++ [".research"]

/-- What a scope's roots expose of some paths, its denies take back. -/
def ProjectWriteScope.Contains (scope : ProjectWriteScope) (paths : List Path) : Prop :=
  ∀ p ∈ paths, ∀ root ∈ scope.repositories.map (·.path) ++ scope.grantedRoots,
    root <+: p → ∃ q ∈ scope.protectedWritePaths, q <+: p

instance (scope : ProjectWriteScope) (paths : List Path) : Decidable (scope.Contains paths) :=
  inferInstanceAs (Decidable (∀ p ∈ paths,
    ∀ root ∈ scope.repositories.map (·.path) ++ scope.grantedRoots,
      root <+: p → ∃ q ∈ scope.protectedWritePaths, q <+: p))

/-- A deny that stands whatever was granted: a canonical state directory of a written root or
of the state repository, as declared or as resolved, or a path the launch adds. -/
def Request.Denies (h : Host) (r : Request) (q : Path) : Prop :=
  q ∈ stateDirectories r.manifest.state ((r.repositoryRoots h).map (·.path)) ∨
    (∃ raw ∈ stateDirectories r.manifest.state ((r.repositoryRoots h).map (·.path)),
      h.directory (h.realpath raw) = true ∧ q = h.realpath raw) ∨
    ∃ raw ∈ r.additionalProtected, q = raw ∨ q = h.realpath raw

theorem Request.denies_iff {q : Path} : r.Denies h q ↔ q ∈ r.baseProtected h := by
  unfold Request.Denies Request.baseProtected
  rw [mem_protectedRepositoryPaths]
  refine or_congr_right ?_
  rw [or_comm]
  refine or_congr_left ?_
  rw [List.mem_append, List.mem_map]
  constructor
  · rintro ⟨raw, hraw, rfl | rfl⟩
    · exact Or.inl hraw
    · exact Or.inr ⟨raw, hraw, rfl⟩
  · rintro (hq | ⟨raw, hraw, rfl⟩)
    · exact ⟨q, hq, Or.inl rfl⟩
    · exact ⟨raw, hraw, Or.inr rfl⟩

/-- RCP's own storage at or below a written repository root is covered by a grant or lies in
a path denied anyway. -/
def Request.Sheltered (h : Host) (r : Request) : Prop :=
  ∀ p ∈ rcpOwnedPaths h r.appDataDir r.installed, ∀ root ∈ (r.repositoryRoots h).map (·.path),
    root <+: p → h.Covers (r.grants h) p ∨ ∃ q, r.Denies h q ∧ q <+: p

theorem Resolved.mem_protected (hr : Resolved h r scope covered) {q : Path} :
    q ∈ scope.protectedWritePaths ↔ r.Denies h q ∨ q ∈ covered := by
  rw [hr.protectedPaths, mem_sortedPaths, List.mem_append, Request.denies_iff]

theorem Resolved.mem_roots (hr : Resolved h r scope covered) {root : Path} :
    root ∈ scope.repositories.map (·.path) ↔ root ∈ (r.repositoryRoots h).map (·.path) := by
  rw [hr.repositories]
  simp only [List.mem_map, List.mem_mergeSort]

theorem Request.storage_owned {p : Path} (hp : p ∈ r.storage h) : p ∈ r.ownedPaths h := by
  unfold Request.ownedPaths
  rcases List.mem_append.mp hp with howned | hstate
  · exact List.mem_append_left _ (List.mem_append_left _ (List.mem_append_left _ howned))
  · obtain ⟨item, hitem, rfl⟩ := List.mem_map.mp hstate
    refine List.mem_append_left _ (List.mem_append_left _ (List.mem_append_right _ ?_))
    apply research_mem_protected
    rw [mem_sortedPaths, List.mem_flatMap]
    exact ⟨item, hitem, by simp⟩

/-- A grant never exposes what is owned. -/
theorem Resolved.granted_contains (hr : Resolved h r scope covered) {p root : Path}
    (hp : p ∈ r.ownedPaths h) (hroot : root ∈ scope.grantedRoots) (hbelow : root <+: p) :
    p ∈ scope.protectedWritePaths := by
  rw [hr.grants] at hroot
  obtain ⟨hne, hcovered⟩ := (grantedRoots_ok hr.granted).2 p hp
  refine hr.mem_protected.mpr (Or.inr (hcovered ⟨root, hroot, root, ?_, h.same_refl root⟩))
  exact (mem_parents p root).mpr ⟨hbelow, hne root hroot⟩

end Resolved

theorem scope_contains_storage {h : Host} {r : Request} {scope : ProjectWriteScope}
    (hok : resolveProjectWriteScope h r = .ok scope) :
    scope.Contains (r.storage h) ↔ r.Sheltered h := by
  obtain ⟨covered, hr⟩ := resolve_ok hok
  constructor
  · intro hcontains p hp root hroot hbelow
    obtain ⟨q, hq, hqp⟩ := hcontains p (List.mem_append_left _ hp) root
      (List.mem_append_left _ (hr.mem_roots.mpr hroot)) hbelow
    rcases hr.mem_protected.mp hq with hdenied | hcovered
    · exact Or.inr ⟨q, hdenied, hqp⟩
    · exact Or.inl (((grantedRoots_ok hr.granted).1 q hcovered).below hqp)
  · intro hsheltered p hp root hroot hbelow
    have howned := Request.storage_owned hp
    rcases List.mem_append.mp hroot with hroot | hroot
    · rw [hr.mem_roots] at hroot
      rcases List.mem_append.mp hp with hstorage | hstate
      · rcases hsheltered p hstorage root hroot hbelow with hcovers | ⟨q, hdenied, hqp⟩
        · refine ⟨p, hr.mem_protected.mpr (Or.inr ?_), List.prefix_refl p⟩
          exact ((grantedRoots_ok hr.granted).2 p howned).2 hcovers
        · exact ⟨q, hr.mem_protected.mpr (Or.inl hdenied), hqp⟩
      · obtain ⟨item, hitem, rfl⟩ := List.mem_map.mp hstate
        refine ⟨_, hr.mem_protected.mpr (Or.inl ?_), List.prefix_refl _⟩
        exact Request.denies_iff.mpr (hr.research hitem hroot hbelow)
    · exact ⟨p, hr.granted_contains howned hroot hbelow, List.prefix_refl p⟩

/-- A remote account on which every path is a writable directory. -/
def aliceHost : Host where
  remote := true
  realpath := fun p => p
  present := fun _ => true
  directory := fun _ => true
  writable := fun _ => true
  home := ["users", "alice"]
  temporary := ["tmp"]
  controlDirectory := ["users", "alice", ".rcp", "ssh"]
  shortSocketRoot := ["tmp", "rcp"]
  deepHome := false
  stage := ["stage"]
  workspace := ["stage", "workspace"]
  legacyStages := []

/-- Work in a project whose one repository is the parent of the account's home. -/
def workInUsers (additionalProtected : List Path) : Request where
  manifest :=
    { repositories := Dict.ofList [("main", ⟨"main", "m", ["users"]⟩)]
      state := ⟨"main", "m", ["users"]⟩ }
  truthScope := ["main"]
  projectId := "p"
  machineId := "m"
  capability := .workAuto
  stageRoot := ["stage"]
  workspaceRoot := ["stage", "workspace"]
  admittedAliases := ["main"]
  pointers := [⟨"main", "m", ["users"]⟩]
  appDataDir := none
  installed := none
  inventory := [⟨"p", "main", "m", ["users"]⟩]
  additionalProtected := additionalProtected
  binding := none
  includeSharedCheckout := false
  machineWritablePaths := []

theorem resolved_of_any {x : Except String ProjectWriteScope} {p : ProjectWriteScope → Bool}
    (h : x.toOption.any p = true) : ∃ scope, x = .ok scope ∧ p scope = true := by
  cases x with
  | error e => cases h
  | ok scope => exact ⟨scope, rfl, h⟩

/-- A launch that protects the home shelters what the repository root would expose. -/
theorem scope_contains_storage_protected_home :
    ∃ scope, resolveProjectWriteScope aliceHost (workInUsers [["users", "alice"]]) = .ok scope ∧
      scope.Contains ((workInUsers [["users", "alice"]]).storage aliceHost) := by
  obtain ⟨scope, hok, -⟩ := resolved_of_any
    (show (resolveProjectWriteScope aliceHost
      (workInUsers [["users", "alice"]])).toOption.any (fun _ => true) = true by decide +kernel)
  refine ⟨scope, hok, (scope_contains_storage hok).mpr ?_⟩
  have hhome : ∀ p ∈ rcpOwnedPaths aliceHost none none, ["users", "alice"] <+: p := by
    decide
  intro p hp root _ _
  refine Or.inr ⟨["users", "alice"], ?_, hhome p hp⟩
  exact Or.inr (Or.inr ⟨_, List.mem_singleton.mpr rfl, Or.inl rfl⟩)

/-- The parent of the home is an admitted root, and nothing denies the account's storage. -/
theorem storage_exposed :
    ∃ scope, resolveProjectWriteScope aliceHost (workInUsers []) = .ok scope ∧
      ¬ scope.Contains ((workInUsers []).storage aliceHost) := by
  obtain ⟨scope, hok, hexposed⟩ := resolved_of_any
    (show (resolveProjectWriteScope aliceHost (workInUsers [])).toOption.any
      (fun scope => ¬ scope.Contains ((workInUsers []).storage aliceHost)) = true
      by decide +kernel)
  exact ⟨scope, hok, by simpa using hexposed⟩

end RcpGraph.WriteScope
