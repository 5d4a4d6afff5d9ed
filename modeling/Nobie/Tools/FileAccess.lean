/-
# What the file tools touch

A call of a file tool checks the path it was given, and then reads and writes: the path
itself, what it finds below it, the directories above it that are missing, and the file an
update is first written to. Only the first two have passed the check. The path gates are a
subtree test, and all that a call touches has passed it, exactly if the allowed entries keep
away from the root and the protected directories and what the call touches unchecked lies
inside.
-/

import Nobie.Tools.PathGates

namespace Nobie.Tools

open Foundation List

/-! ## Calls and what they touch -/

/-- What a host tells about its directories. -/
structure DirectoryReading where
  /-- `readdirSync`, nothing if it throws. -/
  names : Location → Disk → Option (List String)
  /-- `statSync(path).isDirectory()`, nothing if it throws. -/
  isDirectory : Location → Disk → Option Bool
  proper : ∀ {location disk found}, names location disk = some found →
    ∀ name ∈ found, ProperComponent name

/-- The parameters of `file_search` that decide where it looks. -/
structure FileSearch where
  paths : List String
  (searchNames searchContent : Bool)
  excluded : String → Bool
  /-- Whether a search by name has found enough files. -/
  enough : ℕ → Bool
  /-- Whether an `rg` program is found. -/
  ripgrep : Bool

inductive FileToolCall
  | read (path : String)
  | write (path content : String) (createDirs : Bool)
  | list (path : String) (recursive showHidden : Bool)
  | patch (patch : ParsedPatch)
  | delete (path : String)
  | search (params : FileSearch)

inductive TouchKind
  | checked | created | temporary
  deriving DecidableEq

structure Touch where
  kind : TouchKind
  location : Location

section Touches

variable (host : FileHost) (policy : PathPolicy) (workDir : String) (reading : DirectoryReading)

/-- The path the call has checked, and those below it that it has found. -/
def checkedAt (locations : List Location) : List Touch := locations.map (⟨.checked, ·⟩)

/-- The directories that `mkdirSync` makes. -/
def madeDirectories (path : String) (disk : Disk) : List Touch :=
  match (host.mkdirSync path disk).2 with
  | .error _ => []
  | .ok () =>
    ((host.locate path).inits.filter fun above => above ≠ [] ∧ disk.entries above = none).map
      (⟨.created, ·⟩)

/-- A write after its check, with the directories above the file if they are wanted. -/
def writeInto (filePath content : String) (createDirs : Bool) (disk : Disk) : Disk × List Touch :=
  if createDirs then
    match host.mkdirSync (dirname filePath) disk with
    | (made, .error _) => (made, madeDirectories host (dirname filePath) disk)
    | (made, .ok ()) =>
      ((host.writeFileSync filePath content made).1,
        madeDirectories host (dirname filePath) disk ++ checkedAt [host.locate filePath])
  else
    ((host.writeFileSync filePath content disk).1, checkedAt [host.locate filePath])

/-- `listDir`: the locations it looks at, and whether it came to its end. -/
def listDir (recursive showHidden : Bool) (disk : Disk) : ℕ → String → List Location × Bool
  | 0, _ => ([], true)
  | depth + 1, dir =>
    match reading.names (host.locate dir) disk with
    | none => ([], false)
    | some items =>
      items.foldl (fun seen item =>
        if ¬ seen.2 ∨ (¬ showHidden ∧ startsWith item ".") then seen
        else
          let full := joinPaths dir item
          let locations := seen.1 ++ [host.locate full]
          if reading.isDirectory (host.locate full) disk = some true ∧ recursive then
            let inner := listDir recursive showHidden disk depth full
            (locations ++ inner.1, inner.2)
          else (locations, true)) ([], true)

/-- The depths from zero to five. -/
def listDepths : ℕ := 6

/-- `walkDir`: the files it has found and the locations it has looked at. -/
def walkDir (params : FileSearch) (disk : Disk) (enough : ℕ → Bool) :
    ℕ → String → List String × List Location → List String × List Location
  | 0, _, found => found
  | depth + 1, dir, found =>
    if enough found.1.length then found
    else
      match reading.names (host.locate dir) disk with
      | none => found
      | some entries =>
        entries.foldl (fun found entry =>
          if enough found.1.length ∨ params.excluded entry then found
          else
            let full := joinPaths dir entry
            let looked := found.2 ++ [host.locate full]
            match reading.isDirectory (host.locate full) disk with
            | none => (found.1, looked)
            | some true => walkDir params disk enough depth full (found.1, looked)
            | some false => (found.1 ++ [full], looked)) found

/-- `MAX_DEPTH` and the depth zero. -/
def walkDepths : ℕ := 11

/-- The loop over the paths of a search: the check of each, and those that exist unless one
is refused. -/
def searchPaths (disk : Disk) : List String → List Location × Option (List String)
  | [] => ([], some [])
  | path :: rest =>
    match assertAllowedPath host policy path with
    | .error _ => ([], none)
    | .ok () =>
      let later := searchPaths disk rest
      (host.locate path :: later.1,
        later.2.map fun found => if host.existsSync path disk then path :: found else found)

/-- The walk over the search paths. -/
def walkPaths (params : FileSearch) (disk : Disk) (enough : ℕ → Bool) (paths : List String) :
    List String × List Location :=
  paths.foldl (fun found path => walkDir host reading params disk enough walkDepths path found)
    ([], [])

/-- The bound on the files whose content is searched. -/
def contentFiles : ℕ := 10000

def searchLocations (params : FileSearch) (disk : Disk) : List Location :=
  let paths := if params.paths.length > 0 then params.paths else [workDir]
  let searched := searchPaths host policy disk paths
  searched.1 ++
    match searched.2 with
    | none => []
    | some found =>
      (if params.searchNames then (walkPaths host reading params disk params.enough found).2
        else []) ++
      (if params.searchContent then
        if params.ripgrep then found.map host.locate
        else (walkPaths host reading params disk (contentFiles ≤ ·) found).2
      else [])

/-- Whether an update comes to its write. -/
def findsHunks (absPath : String) (hunks : List Hunk) (disk : Disk) : Bool :=
  host.existsSync absPath disk &&
    match host.readFileSync absPath disk with
    | .error _ => false
    | .ok raw => (applyHunks (splitLines raw) hunks).toBool

def operationTouches (op : PatchOperation) (disk : Disk) : List Touch :=
  let absPath := resolveFilePath workDir op.filePath
  match assertAllowedPath host policy absPath with
  | .error _ => []
  | .ok () =>
    checkedAt [host.locate absPath] ++
      match op with
      | .add _ _ =>
        if host.existsSync absPath disk then []
        else madeDirectories host (dirname absPath) disk
      | .delete _ => []
      | .update _ hunks =>
        if findsHunks host absPath hunks disk then
          [⟨.temporary, host.locate (temporaryPath absPath)⟩]
        else []

/-- The operations of a patch, up to the first that fails. -/
def patchTouches (disk : Disk) : List PatchOperation → List Touch
  | [] => []
  | op :: rest =>
    operationTouches host policy workDir op disk ++
      match applyOperation host policy workDir op disk with
      | (_, .error _) => []
      | (after, .ok _) => patchTouches after rest

/-- A call that has checked the path it was given. -/
def withPath (path : String) (disk : Disk) (body : String → Disk × List Touch) :
    Disk × List Touch :=
  let filePath := expandHome policy.home path
  match assertAllowedPath host policy filePath with
  | .error _ => (disk, [])
  | .ok () => body filePath

/-- The disk after a call, and what the call has touched. -/
def runFileTool (disk : Disk) : FileToolCall → Disk × List Touch
  | .read path =>
    withPath host policy path disk fun filePath => (disk, checkedAt [host.locate filePath])
  | .write path content createDirs =>
    withPath host policy path disk fun filePath => writeInto host filePath content createDirs disk
  | .list path recursive showHidden =>
    withPath host policy path disk fun dirPath =>
      (disk, checkedAt (host.locate dirPath ::
        if reading.isDirectory (host.locate dirPath) disk = some true then
          (listDir host reading recursive showHidden disk listDepths dirPath).1
        else []))
  | .patch patch =>
    ((applyPatch host policy workDir patch disk).1,
      patchTouches host policy workDir disk patch.operations)
  | .delete path =>
    withPath host policy path disk fun filePath =>
      (if host.existsSync filePath disk then (host.unlinkSync filePath disk).1 else disk,
        checkedAt [host.locate filePath])
  | .search params => (disk, checkedAt (searchLocations host policy workDir reading params disk))

end Touches

/-! ## What was checked -/

variable {path : String}

variable {location : Location} {params : FileSearch} {enough : ℕ → Bool}

section Checked

variable {host : PosixHost} {policy : PathPolicy} {workDir : String}
  {reading : DirectoryReading} {disk : Disk}

/-- The location lies below a path, under proper names. -/
def LiesBelow (host : PosixHost) (path : String) (location : Location) : Prop :=
  host.locate path <+: location ∧ ProperLocation location

theorem liesBelow_self (host : PosixHost) (path : String) :
    LiesBelow host path (host.locate path) :=
  ⟨prefix_rfl, FileHost.properLocation_locate host.proper path⟩

theorem liesBelow_join {name : String} (hname : ProperComponent name)
    (h : LiesBelow host (joinPaths path name) location) : LiesBelow host path location := by
  obtain ⟨hbelow, hproper⟩ := h
  rw [host.locate_joinPaths path hname] at hbelow
  exact ⟨(prefix_append _ _).trans hbelow, hproper⟩

theorem listDir_below {recursive showHidden : Bool} (depth : ℕ) (dir : String) :
    ∀ location ∈ (listDir host reading recursive showHidden disk depth dir).1,
      LiesBelow host dir location := by
  induction depth generalizing dir with
  | zero => exact forall_mem_nil _
  | succ depth ih =>
    unfold listDir
    split
    · exact forall_mem_nil _
    · next items hitems =>
      have hnames := reading.proper hitems
      -- The loop adds the items and what lies below them.
      refine List.foldlRecOn items _ (motive := fun (seen : List Location × Bool) =>
        ∀ location ∈ seen.1, LiesBelow host dir location) (forall_mem_nil _) ?_
      intro seen hseen item hitem
      have hfull : LiesBelow host dir (host.locate (joinPaths dir item)) :=
        liesBelow_join (hnames item hitem) (liesBelow_self host _)
      have hlocations : ∀ location ∈ seen.1 ++ [host.locate (joinPaths dir item)],
          LiesBelow host dir location := by
        intro location hlocation
        obtain hbefore | hitself := mem_append.mp hlocation
        · exact hseen location hbefore
        · exact mem_singleton.mp hitself ▸ hfull
      dsimp only
      split_ifs
      · exact hseen
      · intro location hlocation
        obtain hbefore | hinner := mem_append.mp hlocation
        · exact hlocations location hbefore
        · exact liesBelow_join (hnames item hitem) (ih (joinPaths dir item) location hinner)
      · exact hlocations

theorem walkDir_below {paths : List String} (depth : ℕ) (dir : String)
    (hdir : ∀ location, LiesBelow host dir location →
      ∃ path ∈ paths, LiesBelow host path location) (found : List String × List Location)
    (hfound : ∀ location ∈ found.2, ∃ path ∈ paths, LiesBelow host path location) :
    ∀ location ∈ (walkDir host reading params disk enough depth dir found).2,
      ∃ path ∈ paths, LiesBelow host path location := by
  induction depth generalizing dir found with
  | zero => exact hfound
  | succ depth ih =>
    unfold walkDir
    split_ifs
    · exact hfound
    · split
      · exact hfound
      · next entries hentries =>
        have hnames := reading.proper hentries
        refine List.foldlRecOn entries _
          (motive := fun (found : List String × List Location) => ∀ location ∈ found.2,
            ∃ path ∈ paths, LiesBelow host path location) hfound ?_
        intro found hfound entry hentry
        have hbelow : ∀ location, LiesBelow host (joinPaths dir entry) location →
            ∃ path ∈ paths, LiesBelow host path location :=
          fun location hlocation => hdir location (liesBelow_join (hnames entry hentry) hlocation)
        have hlooked : ∀ location ∈ found.2 ++ [host.locate (joinPaths dir entry)],
            ∃ path ∈ paths, LiesBelow host path location := by
          intro location hlocation
          obtain hbefore | hitself := mem_append.mp hlocation
          · exact hfound location hbefore
          · exact mem_singleton.mp hitself ▸ hbelow _ (liesBelow_self host _)
        dsimp only
        split_ifs
        · exact hfound
        · split
          · exact hlooked
          · exact ih (joinPaths dir entry) hbelow _ hlooked
          · exact hlooked

theorem walkPaths_below (paths : List String) :
    ∀ location ∈ (walkPaths host reading params disk enough paths).2,
      ∃ path ∈ paths, LiesBelow host path location := by
  refine List.foldlRecOn paths _
    (motive := fun (found : List String × List Location) => ∀ location ∈ found.2,
      ∃ path ∈ paths, LiesBelow host path location) (forall_mem_nil _) ?_
  intro found hfound path hpath
  exact walkDir_below walkDepths path (fun location hlocation => ⟨path, hpath, hlocation⟩)
    found hfound

/-- The location lies below a path that the file tools accept. -/
def Gated (host : PosixHost) (policy : PathPolicy) (location : Location) : Prop :=
  ∃ path, assertAllowedPath host.toFileHost policy path = .ok () ∧ LiesBelow host path location

theorem gated_of_accepted (h : assertAllowedPath host policy path = .ok ()) :
    Gated host policy (host.locate path) :=
  ⟨path, h, liesBelow_self host path⟩

theorem searchPaths_gated (host : PosixHost) (policy : PathPolicy) (disk : Disk)
    (paths : List String) :
    (∀ location ∈ (searchPaths host policy disk paths).1, Gated host policy location) ∧
      ∀ found ∈ (searchPaths host policy disk paths).2, ∀ path ∈ found,
        assertAllowedPath host policy path = .ok () := by
  induction paths with
  | nil =>
    refine ⟨forall_mem_nil _, ?_⟩
    intro found hfound path hpath
    obtain rfl := Option.mem_some.mp hfound
    cases hpath
  | cons path rest ih =>
    unfold searchPaths
    split
    · refine ⟨forall_mem_nil _, ?_⟩
      intro found hfound
      cases hfound
    · next haccepted =>
      constructor
      · intro location hlocation
        obtain rfl | hlater := mem_cons.mp hlocation
        · exact gated_of_accepted haccepted
        · exact ih.1 location hlater
      · intro found hfound other hother
        obtain ⟨later, hlater, rfl⟩ := Option.map_eq_some_iff.mp hfound
        split_ifs at hother
        · obtain rfl | hrest := mem_cons.mp hother
          · exact haccepted
          · exact ih.2 later hlater other hrest
        · exact ih.2 later hlater other hother

theorem searchLocations_gated (params : FileSearch) :
    ∀ location ∈ searchLocations host policy workDir reading params disk,
      Gated host policy location := by
  unfold searchLocations
  generalize (if params.paths.length > 0 then params.paths else [workDir]) = paths
  have hsearched := searchPaths_gated host policy disk paths
  obtain ⟨hlooked, hpaths⟩ := hsearched
  intro location hlocation
  obtain hbefore | hwalked := mem_append.mp hlocation
  · exact hlooked location hbefore
  · split at hwalked
    · cases hwalked
    · next found hfound =>
      have hgated : ∀ enough : ℕ → Bool, ∀ location ∈
          (walkPaths host reading params disk enough found).2,
          Gated host policy location := by
        intro enough location hlocation
        obtain ⟨path, hpath, hbelow⟩ := walkPaths_below found location hlocation
        exact ⟨path, hpaths found hfound path hpath, hbelow⟩
      obtain hnames | hcontent := mem_append.mp hwalked
      · split_ifs at hnames
        · exact hgated _ location hnames
        · cases hnames
      · split_ifs at hcontent
        · obtain ⟨path, hpath, rfl⟩ := mem_map.mp hcontent
          exact gated_of_accepted (hpaths found hfound path hpath)
        · exact hgated _ location hcontent
        · cases hcontent

/-- What is touched as checked lies below an accepted path. -/
def ChecksHold (host : PosixHost) (policy : PathPolicy) (touches : List Touch) : Prop :=
  ∀ touch ∈ touches, touch.kind = .checked → Gated host policy touch.location

theorem checksHold_checkedAt {locations : List Location}
    (h : ∀ location ∈ locations, Gated host policy location) :
    ChecksHold host policy (checkedAt locations) := by
  intro touch htouch _
  obtain ⟨location, hlocation, rfl⟩ := mem_map.mp htouch
  exact h location hlocation

theorem checksHold_append {first second : List Touch} (hfirst : ChecksHold host policy first)
    (hsecond : ChecksHold host policy second) : ChecksHold host policy (first ++ second) :=
  fun touch htouch => (mem_append.mp htouch).elim (hfirst touch) (hsecond touch)

theorem checksHold_nil : ChecksHold host policy [] := nofun

theorem checksHold_madeDirectories (path : String) :
    ChecksHold host policy (madeDirectories host path disk) := by
  unfold madeDirectories
  split
  · exact checksHold_nil
  · intro touch htouch hkind
    obtain ⟨location, -, rfl⟩ := mem_map.mp htouch
    cases hkind

theorem checksHold_operation (op : PatchOperation) :
    ChecksHold host policy (operationTouches host policy workDir op disk) := by
  unfold operationTouches
  dsimp only
  split
  · exact checksHold_nil
  · next haccepted =>
    refine checksHold_append (checksHold_checkedAt fun location hlocation => ?_) ?_
    · exact mem_singleton.mp hlocation ▸ gated_of_accepted haccepted
    · cases op with
      | add filePath content =>
        split_ifs
        · exact checksHold_nil
        · exact checksHold_madeDirectories _
      | delete filePath => exact checksHold_nil
      | update filePath hunks =>
        dsimp only
        split_ifs
        · intro touch htouch hkind
          rw [mem_singleton.mp htouch] at hkind
          cases hkind
        · exact checksHold_nil

theorem checksHold_patch (ops : List PatchOperation) :
    ChecksHold host policy (patchTouches host policy workDir disk ops) := by
  induction ops generalizing disk with
  | nil => exact checksHold_nil
  | cons op rest ih =>
    refine checksHold_append (checksHold_operation op) ?_
    split
    · exact checksHold_nil
    · exact ih

theorem checksHold_withPath {body : String → Disk × List Touch}
    (h : ∀ filePath, assertAllowedPath host policy filePath = .ok () →
      ChecksHold host policy (body filePath).2) :
    ChecksHold host policy (withPath host policy path disk body).2 := by
  unfold withPath
  dsimp only
  split
  · exact checksHold_nil
  · next haccepted => exact h _ haccepted

/-- Of what a call touches, only what it creates and temporary files have passed no check. -/
theorem checksHold_runFileTool (call : FileToolCall) :
    ChecksHold host policy (runFileTool host policy workDir reading disk call).2 := by
  have hpath {filePath : String}
      (haccepted : assertAllowedPath host policy filePath = .ok ()) :
      ChecksHold host policy (checkedAt [host.locate filePath]) :=
    checksHold_checkedAt fun location hlocation =>
      mem_singleton.mp hlocation ▸ gated_of_accepted haccepted
  cases call with
  | read | delete => exact checksHold_withPath fun filePath haccepted => hpath haccepted
  | write path content createDirs =>
    refine checksHold_withPath fun filePath haccepted => ?_
    unfold writeInto
    split_ifs
    · split
      · exact checksHold_madeDirectories _
      · exact checksHold_append (checksHold_madeDirectories _) (hpath haccepted)
    · exact hpath haccepted
  | list path recursive showHidden =>
    refine checksHold_withPath fun filePath haccepted => checksHold_checkedAt ?_
    intro location hlocation
    obtain rfl | hlisted := mem_cons.mp hlocation
    · exact gated_of_accepted haccepted
    · split_ifs at hlisted
      · exact ⟨filePath, haccepted, listDir_below _ _ location hlisted⟩
      · cases hlisted
  | patch patch => exact checksHold_patch patch.operations
  | search params => exact checksHold_checkedAt (searchLocations_gated params)

end Checked

/-! ## What is not touched stays -/

section Untouched

variable {host : FileHost} {policy : PathPolicy} {workDir : String} {reading : DirectoryReading}
  {disk : Disk} {location : Location}

end Untouched

/-! ## When all that is touched has passed the test -/

section Gated

variable {host : PosixHost} {policy : PathPolicy} {workDir : String}
  {reading : DirectoryReading} {disk : Disk}

/-- The gates are the subtree test, and all that the call touches has passed it. -/
structure GatesHold (host : FileHost) (policy : PathPolicy) (workDir : String)
    (reading : DirectoryReading) (disk : Disk) (call : FileToolCall) : Prop where
  agree : GatesAgree host policy
  passed : ∀ touch ∈ (runFileTool host policy workDir reading disk call).2,
    LocationTest host policy touch.location

/-- The directories a call makes and its temporary files lie inside. -/
def SideTouchesInside (host : FileHost) (policy : PathPolicy) (workDir : String)
    (reading : DirectoryReading) (disk : Disk) (call : FileToolCall) : Prop :=
  ∀ touch ∈ (runFileTool host policy workDir reading disk call).2,
    touch.kind ≠ .checked → LocationTest host policy touch.location

/-- Under gates that agree, all below an accepted path passes the test. -/
theorem Gated.locationTest (h : Gated host policy location)
    (hagree : GatesAgree host policy) :
    LocationTest host policy location := by
  obtain ⟨path, haccepted, hbelow, hproper⟩ := h
  have htest := (hagree.fileTools path).mp haccepted
  obtain haway | hnothing := gatesAgree_iff.mp hagree
  · exact haway.locationTest_below htest hbelow hproper
  · exact absurd haccepted (hnothing.refuses path).2

/-- When the gates are a subtree test that all a call touches has passed. -/
theorem gatesHold_iff (host : PosixHost) (policy : PathPolicy) (workDir : String)
    (reading : DirectoryReading) (disk : Disk) (call : FileToolCall) :
    GatesHold host.toFileHost policy workDir reading disk call ↔
      (EntriesKeepAway host.toFileHost policy ∨ NothingAllowed host.toFileHost policy) ∧
        SideTouchesInside host.toFileHost policy workDir reading disk call := by
  constructor
  · intro h
    exact ⟨gatesAgree_iff.mp h.agree, fun touch htouch _ => h.passed touch htouch⟩
  · rintro ⟨hentries, hside⟩
    have hagree := gatesAgree_iff.mpr hentries
    refine ⟨hagree, fun touch htouch => ?_⟩
    by_cases hkind : touch.kind = .checked
    · exact (checksHold_runFileTool call touch htouch hkind).locationTest hagree
    · exact hside touch htouch hkind

end Gated

/-- The root is allowed. -/
def rootPolicy : PathPolicy where
  home := "/work"
  allowedPaths := ["/"]

/-- The tool policy refuses what lies below an allowed root. -/
theorem belowRoot_refused :
    (isPathAllowed plainHost rootPolicy "/data/notes.txt").allowed = false ∧
      SubtreeTest plainHost rootPolicy (expandHome rootPolicy.home "/data/notes.txt") := by
  unfold SubtreeTest Below
  decide +kernel

end Nobie.Tools
