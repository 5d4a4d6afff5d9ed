/-
# Applying a patch

A patch is a list of operations on files. They are carried out one after the other,
each with its checks, and the first that fails ends the patch: the operations before
it stay done, and the result names the files they changed. The failing operation
itself changes no file, unless the host stops a call in the middle of its work.
-/

import Nobie.Foundation.FileSystem

namespace Nobie.Tools

open Foundation List

/-! ## Patches -/

inductive ChangeOp
  | add | remove | context
  deriving DecidableEq

structure HunkChange where
  op : ChangeOp
  line : String

structure Hunk where
  changes : List HunkChange

inductive PatchOperation
  | update (filePath : String) (hunks : List Hunk)
  | add (filePath : String) (content : String)
  | delete (filePath : String)

def PatchOperation.filePath : PatchOperation → String
  | .update filePath _ | .add filePath _ | .delete filePath => filePath

structure ParsedPatch where
  operations : List PatchOperation

structure ApplyResult where
  success : Bool
  message : String
  filesChanged : List String

/-! ## Path checks -/

/-- The security settings of the configuration, and the home directory. -/
structure PathPolicy where
  home : String
  allowedPaths : List String

def startsWith (text start : String) : Bool := start.toList.isPrefixOf text.toList

/-- What a replacement text stands for: a dollar sign may stand before another one, before a
sign for what was matched, or before a quote for what is before or behind it. -/
def replacementText (matched before after : List Char) : List Char → List Char
  | c :: d :: rest =>
    if c = '$' ∧ d = '$' then '$' :: replacementText matched before after rest
    else if c = '$' ∧ d = '&' then matched ++ replacementText matched before after rest
    else if c = '$' ∧ d = Char.ofNat 96 then
      before ++ replacementText matched before after rest
    else if c = '$' ∧ d = Char.ofNat 39 then
      after ++ replacementText matched before after rest
    else c :: replacementText matched before after (d :: rest)
  | rest => rest

/-- `replace("~", home)`: the first tilde. -/
def replaceTilde (home : String) (path : List Char) : List Char :=
  let before := path.takeWhile (· ≠ '~')
  match path.dropWhile (· ≠ '~') with
  | [] => path
  | tilde :: after => before ++ replacementText [tilde] before after home.toList ++ after

def deniedPaths : List String :=
  ["/System", "/usr", "/bin", "/sbin", "/etc", "/boot", "/sys", "C:\\Windows"]

/-- `assertAllowedPath`: the message of the error if there is one. -/
def assertAllowedPath (host : FileHost) (policy : PathPolicy) (filePath : String) :
    Except String Unit :=
  let resolved := host.resolve filePath
  let allowed :=
    if policy.allowedPaths.length > 0 then
      policy.allowedPaths.map fun path =>
        host.resolve (String.ofList (replaceTilde policy.home path.toList))
    else [policy.home]
  if ¬ allowed.any fun path => startsWith resolved (path ++ "/") || resolved == path then
    .error (s!"Access denied: \"{resolved}\" is outside the allowed paths.\n" ++
      "Allowed: " ++ ", ".intercalate allowed)
  else if deniedPaths.any (startsWith resolved) then
    .error s!"Access denied: \"{resolved}\" is a protected system path"
  else .ok ()

/-! ## Hunks -/

/-- The lines a hunk expects to find. -/
def Hunk.expected (hunk : Hunk) : List String :=
  (hunk.changes.filter fun change => change.op = .context ∨ change.op = .remove).map (·.line)

/-- The first place at which the expected lines stand. -/
def matchStart (expected : List String) (lines : List String) : Option ℕ :=
  (List.range (lines.length + 1 - expected.length)).find? fun start =>
    (lines.drop start).take expected.length = expected

/-- The lines from where a hunk applies on. -/
def applyChanges : List HunkChange → List String → List String
  | [], lines => lines
  | ⟨.context, line⟩ :: rest, lines => lines.headD line :: applyChanges rest lines.tail
  | ⟨.remove, _⟩ :: rest, lines => applyChanges rest lines.tail
  | ⟨.add, line⟩ :: rest, lines => line :: applyChanges rest lines

def applyHunkToLines (lines : List String) (hunk : Hunk) : Option (List String) :=
  if hunk.expected.length = 0 then
    some (lines ++ (hunk.changes.filter fun change => change.op = .add).map (·.line))
  else
    (matchStart hunk.expected lines).map fun start =>
      lines.take start ++ applyChanges hunk.changes (lines.drop start)

/-- The loop over the hunks; the hunk whose lines are not found if there is one. -/
def applyHunks (lines : List String) : List Hunk → Except Hunk (List String)
  | [] => .ok lines
  | hunk :: rest =>
    match applyHunkToLines lines hunk with
    | some lines => applyHunks lines rest
    | none => .error hunk

/-- The pieces between line ends, which take a carriage return with them. -/
def splitLines (text : String) : List String :=
  let pieces := text.toList.splitOn '\n'
  (pieces.dropLast.map fun piece =>
      String.ofList (if piece.getLast? = some '\r' then piece.dropLast else piece)) ++
    (pieces.getLast?.map String.ofList).toList

/-! ## Operations -/

section Apply

variable (host : FileHost) (policy : PathPolicy) (workDir : String)

def resolveFilePath (filePath : String) : String :=
  if isAbsolute filePath then filePath else joinPaths workDir filePath

variable (absPath : String) (disk : Disk)

/-- The file an update is written to before it takes its place. -/
def temporaryPath : String := absPath ++ ".nobie.tmp"

def addFile (absPath content : String) (disk : Disk) : Disk × Except String (List String) :=
  if host.existsSync absPath disk then
    (disk, .error s!"Add File failed: \"{absPath}\" already exists")
  else
    match host.mkdirSync (dirname absPath) disk with
    | (disk, .error message) => (disk, .error s!"Add File failed for \"{absPath}\": {message}")
    | (disk, .ok ()) =>
      match host.writeFileSync absPath content disk with
      | (disk, .error message) => (disk, .error s!"Add File failed for \"{absPath}\": {message}")
      | (disk, .ok ()) => (disk, .ok [absPath])

def deleteFile : Disk × Except String (List String) :=
  if host.existsSync absPath disk then
    match host.unlinkSync absPath disk with
    | (disk, .error message) => (disk, .error s!"Delete File failed for \"{absPath}\": {message}")
    | (disk, .ok ()) => (disk, .ok [absPath])
  else (disk, .ok [])

/-- The failure branch of an update's write. -/
def abandonUpdate (absPath message : String) (disk : Disk) : Disk × Except String (List String) :=
  ((host.unlinkSync (temporaryPath absPath) disk).1,
    .error s!"Failed to write \"{absPath}\": {message}")

/-- The new text of an updated file takes its place. -/
def replaceFile (absPath text : String) (disk : Disk) : Disk × Except String (List String) :=
  match host.writeFileSync (temporaryPath absPath) text disk with
  | (disk, .error message) => abandonUpdate host absPath message disk
  | (disk, .ok ()) =>
    match host.renameSync (temporaryPath absPath) absPath disk with
    | (disk, .error message) => abandonUpdate host absPath message disk
    | (disk, .ok ()) => (disk, .ok [absPath])

def updateFile (hunks : List Hunk) (disk : Disk) : Disk × Except String (List String) :=
  if host.existsSync absPath disk then
    match host.readFileSync absPath disk with
    | .error message => (disk, .error s!"Failed to read \"{absPath}\": {message}")
    | .ok raw =>
      match applyHunks (splitLines raw) hunks with
      | .error hunk =>
        let contextLines := ", ".intercalate (hunk.expected.take 3)
        (disk, .error (s!"Hunk context not found in \"{absPath}\". " ++
          s!"Expected lines near: {contextLines}"))
      | .ok lines => replaceFile host absPath ("\n".intercalate lines) disk
  else (disk, .error s!"Update File failed: \"{absPath}\" does not exist")

/-- One operation: the disk after it, and the files it changed or the message. -/
def applyOperation (op : PatchOperation) (disk : Disk) : Disk × Except String (List String) :=
  let absPath := resolveFilePath workDir op.filePath
  match assertAllowedPath host policy absPath with
  | .error message => (disk, .error s!"Path check failed for \"{op.filePath}\": {message}")
  | .ok () =>
    match op with
    | .add _ content => addFile host absPath content disk
    | .delete _ => deleteFile host absPath disk
    | .update _ hunks => updateFile host absPath hunks disk

/-- The loop over the operations. -/
def applyOperations (disk : Disk) (filesChanged : List String) :
    List PatchOperation → Disk × ApplyResult
  | [] =>
    (disk,
      { success := true
        message := s!"Patch applied successfully. {filesChanged.length} file(s) changed: " ++
          ", ".intercalate filesChanged
        filesChanged })
  | op :: rest =>
    match applyOperation host policy workDir op disk with
    | (disk, .ok paths) => applyOperations disk (filesChanged ++ paths) rest
    | (disk, .error message) => (disk, { success := false, message, filesChanged })

def applyPatch (patch : ParsedPatch) (disk : Disk) : Disk × ApplyResult :=
  applyOperations host policy workDir disk [] patch.operations

end Apply

/-! ## What a failing operation leaves alone -/

variable {op : PatchOperation}

section Failure

variable {host : FileHost} {policy : PathPolicy} {workDir : String}

/-- Where an operation writes before it is done. -/
def scratch (host : FileHost) (workDir : String) : PatchOperation → List Location
  | .add filePath _ => [host.locate (resolveFilePath workDir filePath)]
  | .delete _ => []
  | .update filePath _ => [host.locate (temporaryPath (resolveFilePath workDir filePath))]

/-- The files outside some locations are the same, and all files if the host stops no
call. -/
def SameFiles (host : FileHost) (excepted : List Location) (before after : Disk) : Prop :=
  (∀ location, location ∉ excepted → after.text? location = before.text? location) ∧
    (host.NoFaults → ∀ location, after.text? location = before.text? location)

theorem sameFiles_refl (excepted : List Location) (disk : Disk) :
    SameFiles host excepted disk disk :=
  ⟨fun _ _ => rfl, fun _ _ => rfl⟩

variable {absPath content message : String} {hunks : List Hunk} {disk after : Disk}

theorem addFile_error (h : addFile host absPath content disk = (after, .error message)) :
    SameFiles host [host.locate absPath] disk after := by
  unfold addFile at h
  split_ifs at h
  · cases h
    exact sameFiles_refl _ _
  · split at h
    · next hmkdir =>
      cases h
      exact ⟨fun location _ => FileHost.text?_mkdirSync hmkdir location,
        fun _ location => FileHost.text?_mkdirSync hmkdir location⟩
    · next made hmkdir =>
      split at h
      · next hwrite =>
        cases h
        constructor
        · intro location hlocation
          rw [mem_singleton] at hlocation
          exact (FileHost.text?_writeFileSync hwrite hlocation).trans
            (FileHost.text?_mkdirSync hmkdir location)
        · intro hfaults location
          rw [(FileHost.writeFileSync_error hfaults hwrite).1]
          exact FileHost.text?_mkdirSync hmkdir location
      · cases h

theorem deleteFile_error (h : deleteFile host absPath disk = (after, .error message)) :
    after = disk := by
  unfold deleteFile at h
  split_ifs at h
  · split at h
    · next hunlink =>
      cases h
      exact FileHost.unlinkSync_error hunlink
    · cases h
  · cases h

/-- A replacement that fails touches the temporary file at most. -/
theorem replaceFile_error (hfile : disk.isDirectory (host.locate absPath) = false)
    (h : replaceFile host absPath content disk = (after, .error message)) :
    SameFiles host [host.locate (temporaryPath absPath)] disk after := by
  have hunlink {between : Disk} {text : String} (habandon :
      abandonUpdate host absPath text between = (after, .error message)) :
      (host.unlinkSync (temporaryPath absPath) between).1 = after :=
    (Prod.mk.inj habandon).1
  unfold replaceFile at h
  split at h
  · next between text hwrite =>
    constructor
    · intro location hlocation
      rw [mem_singleton] at hlocation
      rw [← hunlink h]
      exact (FileHost.text?_unlinkSync host _ _ hlocation).trans
        (FileHost.text?_writeFileSync hwrite hlocation)
    · intro hfaults location
      obtain ⟨rfl, hplace⟩ := FileHost.writeFileSync_error hfaults hwrite
      rw [← hunlink h, FileHost.unlinkSync_of_not_file host hplace]
  · next between hwrite =>
    have hwritten := FileHost.writeFileSync_ok hwrite
    split at h
    · next hrename =>
      constructor
      · intro location hlocation
        rw [mem_singleton] at hlocation
        rw [← hunlink h, FileHost.renameSync_error hrename]
        exact (FileHost.text?_unlinkSync host _ _ hlocation).trans
          (FileHost.text?_writeFileSync hwrite hlocation)
      · intro hfaults
        have hok := FileHost.renameSync_written content (temporaryPath absPath) hfaults hfile
        rw [← hwritten, hrename] at hok
        cases hok
    · cases h

theorem updateFile_error (h : updateFile host absPath hunks disk = (after, .error message)) :
    SameFiles host [host.locate (temporaryPath absPath)] disk after := by
  unfold updateFile at h
  split_ifs at h
  · split at h
    · cases h
      exact sameFiles_refl _ _
    · next raw hread =>
      split at h
      · cases h
        exact sameFiles_refl _ _
      · exact replaceFile_error (FileHost.readFileSync_ok hread) h
  · cases h
    exact sameFiles_refl _ _

theorem applyOperation_error
    (h : applyOperation host policy workDir op disk = (after, .error message)) :
    SameFiles host (scratch host workDir op) disk after := by
  unfold applyOperation at h
  dsimp only at h
  split at h
  · cases h
    exact sameFiles_refl _ _
  · cases op with
    | add filePath content => exact addFile_error h
    | delete filePath =>
      obtain rfl := deleteFile_error h
      exact sameFiles_refl _ _
    | update filePath hunks => exact updateFile_error h

end Failure

/-! ## What an operation changes -/

variable {disk : Disk} {paths : List String} {location : Location} {middle : Disk}
  {ops : List PatchOperation} {filesChanged : List String}

section Success

variable {host : FileHost} {policy : PathPolicy} {workDir : String}

/-- The temporary files of an operation. -/
def temporaries (host : FileHost) (workDir : String) : PatchOperation → List Location
  | .update filePath _ => [host.locate (temporaryPath (resolveFilePath workDir filePath))]
  | _ => []

/-- An operation that is carried out changes the files it names and its temporary file
at most. -/
theorem applyOperation_ok {after : Disk}
    (h : applyOperation host policy workDir op disk = (after, .ok paths))
    (hpaths : location ∉ paths.map host.locate)
    (htemporary : location ∉ temporaries host workDir op) :
    after.text? location = disk.text? location := by
  unfold applyOperation at h
  dsimp only at h
  split at h
  · cases h
  · cases op with
    | add filePath content =>
      change addFile host _ content disk = _ at h
      unfold addFile at h
      split_ifs at h
      · cases h
      · split at h
        · cases h
        · next hmkdir =>
          split at h
          · cases h
          · next hwrite =>
            obtain ⟨rfl, hresult⟩ := Prod.mk.inj h
            cases hresult
            have hne := ne_of_not_mem_cons hpaths
            exact (FileHost.text?_writeFileSync hwrite hne).trans
              (FileHost.text?_mkdirSync hmkdir location)
    | delete filePath =>
      change deleteFile host _ disk = _ at h
      unfold deleteFile at h
      split_ifs at h
      · split at h
        · cases h
        · next hunlink =>
          obtain ⟨rfl, hresult⟩ := Prod.mk.inj h
          cases hresult
          have hkept := FileHost.text?_unlinkSync host
            (resolveFilePath workDir (PatchOperation.delete filePath).filePath) disk
            (ne_of_not_mem_cons hpaths)
          rwa [hunlink] at hkept
      · cases h
        rfl
    | update filePath hunks =>
      change updateFile host _ hunks disk = _ at h
      unfold updateFile at h
      split_ifs at h
      · split at h
        · cases h
        · split at h
          · cases h
          · unfold replaceFile at h
            split at h
            · cases h
            · next hwrite =>
              split at h
              · cases h
              · next hrename =>
                obtain ⟨rfl, hresult⟩ := Prod.mk.inj h
                cases hresult
                have hne := ne_of_not_mem_cons htemporary
                exact (FileHost.text?_renameSync hrename hne
                  (ne_of_not_mem_cons hpaths)).trans
                  (FileHost.text?_writeFileSync hwrite hne)
      · cases h

theorem applyOperations_of_ok (h : applyOperation host policy workDir op disk = (middle, .ok paths))
    (filesChanged : List String) (rest : List PatchOperation) :
    applyOperations host policy workDir disk filesChanged (op :: rest) =
      applyOperations host policy workDir middle (filesChanged ++ paths) rest := by
  rw [applyOperations, h]

theorem applyOperations_of_error {message : String}
    (h : applyOperation host policy workDir op disk = (middle, .error message))
    (filesChanged : List String) (rest : List PatchOperation) :
    applyOperations host policy workDir disk filesChanged (op :: rest) =
      (middle, { success := false, message, filesChanged }) := by
  rw [applyOperations, h]

/-- What is carried out changes the files the result names and temporary files at
most. -/
theorem applyOperations_ok
    (h : (applyOperations host policy workDir disk filesChanged ops).2.success)
    (hpaths : location ∉ (applyOperations host policy workDir disk filesChanged
      ops).2.filesChanged.map host.locate)
    (htemporary : ∀ op ∈ ops, location ∉ temporaries host workDir op) :
    filesChanged <+: (applyOperations host policy workDir disk filesChanged ops).2.filesChanged ∧
      (applyOperations host policy workDir disk filesChanged ops).1.text? location =
        disk.text? location := by
  induction ops generalizing disk filesChanged with
  | nil => exact ⟨prefix_refl _, rfl⟩
  | cons op rest ih =>
    cases hop : applyOperation host policy workDir op disk with
    | mk middle result =>
      cases result with
      | ok paths =>
        rw [applyOperations_of_ok hop] at h hpaths ⊢
        obtain ⟨hfront, htext⟩ := ih h hpaths
          fun other hother => htemporary other (mem_cons_of_mem _ hother)
        refine ⟨(prefix_append _ _).trans hfront, htext.trans ?_⟩
        refine applyOperation_ok hop (fun hmem => hpaths ?_) (htemporary op mem_cons_self)
        obtain ⟨path, hpath, rfl⟩ := mem_map.mp hmem
        exact mem_map_of_mem (hfront.subset (mem_append_right _ hpath))
      | error message =>
        rw [applyOperations_of_error hop] at h
        cases h

end Success

/-! ## Patches that fail -/

section Patch

variable {host : FileHost} {policy : PathPolicy} {workDir : String}

/-- A loop that fails has carried out the operations before the first that fails. -/
theorem applyOperations_failure
    (h : (applyOperations host policy workDir disk filesChanged ops).2.success = false) :
    ∃ done failing rest message, ops = done ++ failing :: rest ∧
      (applyOperations host policy workDir disk filesChanged done).2.success ∧
      (applyOperations host policy workDir disk filesChanged done).2.filesChanged =
        (applyOperations host policy workDir disk filesChanged ops).2.filesChanged ∧
      applyOperation host policy workDir failing
        (applyOperations host policy workDir disk filesChanged done).1 =
        ((applyOperations host policy workDir disk filesChanged ops).1, .error message) := by
  induction ops generalizing disk filesChanged with
  | nil => cases h
  | cons op rest ih =>
    cases hop : applyOperation host policy workDir op disk with
    | mk middle result =>
      cases result with
      | ok paths =>
        rw [applyOperations_of_ok hop] at h ⊢
        obtain ⟨done, failing, later, message, rfl, hdone⟩ := ih h
        refine ⟨op :: done, failing, later, message, rfl, ?_⟩
        rw [applyOperations_of_ok hop]
        exact hdone
      | error message =>
        rw [applyOperations_of_error hop]
        exact ⟨[], op, rest, message, rfl, rfl, rfl, hop⟩

/-- The operations of a failed patch that were carried out, the first that failed, and
what is on the disk. -/
structure StoppedAt (host : FileHost) (policy : PathPolicy) (workDir : String)
    (patch : ParsedPatch) (disk : Disk) (done : List PatchOperation) (failing : PatchOperation)
    (rest : List PatchOperation) : Prop where
  operations : patch.operations = done ++ failing :: rest
  carriedOut : (applyPatch host policy workDir ⟨done⟩ disk).2.success
  filesChanged : (applyPatch host policy workDir ⟨done⟩ disk).2.filesChanged =
    (applyPatch host policy workDir patch disk).2.filesChanged
  /-- The result names the files that the operations before changed. -/
  named : ∀ location,
    location ∉ (applyPatch host policy workDir patch disk).2.filesChanged.map host.locate →
    (∀ op ∈ done, location ∉ temporaries host workDir op) →
    (applyPatch host policy workDir ⟨done⟩ disk).1.text? location = disk.text? location
  /-- The failing operation changes no file. -/
  unchanged : SameFiles host (scratch host workDir failing)
    (applyPatch host policy workDir ⟨done⟩ disk).1 (applyPatch host policy workDir patch disk).1

/-- A patch that fails stops at its first operation that fails: the disk is as the
operations before it left it. -/
theorem failedPatch_stops {patch : ParsedPatch} {disk : Disk}
    (h : (applyPatch host policy workDir patch disk).2.success = false) :
    ∃ done failing rest, StoppedAt host policy workDir patch disk done failing rest := by
  obtain ⟨done, failing, rest, message, hops, hdone, hchanged, hfailing⟩ :=
    applyOperations_failure h
  refine ⟨done, failing, rest, hops, hdone, hchanged, fun location hpaths htemporary => ?_,
    applyOperation_error hfailing⟩
  exact (applyOperations_ok hdone (by rwa [hchanged]) htemporary).2

end Patch

/-! ## A patch that fails at its second operation -/

/-- A host that stops no call. -/
def plainHost : FileHost where
  cwd := ["work"]
  message _ _ := "failed"
  fault _ _ := none
  leftover _ _ := none

def plainPolicy : PathPolicy where
  home := "/work"
  allowedPaths := []

def emptyWorkDir : Disk := ⟨fun location => if location = ["work"] then some .directory else none⟩

/-- A new file, and an update of a file that does not exist. -/
def addThenUpdate : ParsedPatch := ⟨[.add "new.txt" "text", .update "missing.txt" []]⟩

theorem addThenUpdate_stops :
    ∃ done failing rest,
      StoppedAt plainHost plainPolicy "/work" addThenUpdate emptyWorkDir done failing rest :=
  failedPatch_stops (by decide +kernel)

/-- The patch fails, and the new file stays. -/
theorem failedPatch_leaves_file :
    (applyPatch plainHost plainPolicy "/work" addThenUpdate emptyWorkDir).2.success = false ∧
      emptyWorkDir.text? ["work", "new.txt"] = none ∧
      (applyPatch plainHost plainPolicy "/work" addThenUpdate emptyWorkDir).1.text?
        ["work", "new.txt"] = some "text" := by
  decide +kernel

/-! ## Where the hunks of an update apply

A hunk applies at the first place at which its lines stand, whichever place it was made for, and
one without such lines at the end. A line outside the hunks keeps its end only if that was a line
feed. -/

/-! ## One hunk -/

/-- The lines a hunk leaves in the place of those it expects. -/
def Hunk.written (hunk : Hunk) : List String :=
  (hunk.changes.filter fun change => change.op ≠ .remove).map (·.line)

theorem applyChanges_expected (changes : List HunkChange) (behind : List String) :
    applyChanges changes ((Hunk.mk changes).expected ++ behind) =
      (Hunk.mk changes).written ++ behind := by
  unfold Hunk.expected Hunk.written
  induction changes with
  | nil => rfl
  | cons change rest ih =>
    obtain ⟨op, line⟩ := change
    cases op with
    | add => simpa [applyChanges] using ih
    | remove => simpa [applyChanges] using ih
    | context => simpa [applyChanges] using ih

theorem added_of_expected_eq_nil {hunk : Hunk} (hnil : hunk.expected = []) :
    (hunk.changes.filter fun change => change.op = .add).map (·.line) = hunk.written := by
  unfold Hunk.expected at hnil
  rw [map_eq_nil_iff, filter_eq_nil_iff] at hnil
  refine congrArg _ (filter_congr fun change hchange => ?_)
  have hop := hnil change hchange
  cases hop' : change.op <;> simp_all

/-- The lines stand where they are found. -/
theorem eq_append_of_matchStart {expected lines : List String} {start : ℕ}
    (h : matchStart expected lines = some start) :
    lines = lines.take start ++ (expected ++ lines.drop (start + expected.length)) := by
  have hfound := find?_some h
  rw [decide_eq_true_eq] at hfound
  calc lines = lines.take start ++ lines.drop start := (take_append_drop start lines).symm
    _ = _ := by
      rw [← drop_drop]
      nth_rewrite 1 [← take_append_drop expected.length (lines.drop start)]
      rw [hfound]

/-- Where its lines are found, a hunk puts others in their place. -/
theorem applyHunkToLines_found {hunk : Hunk} {lines : List String} {start : ℕ}
    (hne : hunk.expected ≠ []) (h : matchStart hunk.expected lines = some start) :
    applyHunkToLines lines hunk =
      some (lines.take start ++ (hunk.written ++ lines.drop (start + hunk.expected.length))) := by
  have hbehind : lines.drop start = hunk.expected ++ lines.drop (start + hunk.expected.length) := by
    have hsplit := eq_append_of_matchStart h
    exact append_cancel_left ((take_append_drop start lines).trans hsplit)
  unfold applyHunkToLines
  rw [if_neg (mt length_eq_zero_iff.mp hne), h, Option.map_some, hbehind, applyChanges_expected]

theorem applyHunkToLines_atEnd {hunk : Hunk} (hnil : hunk.expected = []) (lines : List String) :
    applyHunkToLines lines hunk = some (lines ++ hunk.written) := by
  unfold applyHunkToLines
  rw [if_pos (length_eq_zero_iff.mpr hnil), added_of_expected_eq_nil hnil]

/-! ## Updates -/

section Update

variable {host : FileHost} {absPath raw : String} {hunks : List Hunk} {disk after : Disk}
  {paths : List String}

/-- What an update that is carried out leaves in the file. -/
theorem updateFile_ok (hread : host.readFileSync absPath disk = .ok raw)
    (h : updateFile host absPath hunks disk = (after, .ok paths)) :
    ∃ lines, applyHunks (splitLines raw) hunks = .ok lines ∧
      after.text? (host.locate absPath) = some ("\n".intercalate lines) := by
  unfold updateFile at h
  split_ifs at h
  · rw [hread] at h
    dsimp only at h
    split at h
    · cases h
    · next lines hlines =>
      refine ⟨lines, hlines, ?_⟩
      unfold replaceFile at h
      split at h
      · cases h
      · next between hwrite =>
        split at h
        · cases h
        · next hrename =>
          cases h
          obtain rfl := FileHost.writeFileSync_ok hwrite
          exact FileHost.text?_renamed hrename
  · cases h

theorem updateOperation_ok {policy : PathPolicy} {workDir filePath : String}
    (hread : host.readFileSync (resolveFilePath workDir filePath) disk = .ok raw)
    (h : applyOperation host policy workDir (.update filePath hunks) disk = (after, .ok paths)) :
    ∃ lines, applyHunks (splitLines raw) hunks = .ok lines ∧
      after.text? (host.locate (resolveFilePath workDir filePath)) =
        some ("\n".intercalate lines) := by
  unfold applyOperation at h
  dsimp only at h
  split at h
  · cases h
  · exact updateFile_ok hread h

end Update

/-! ## Line diffs -/

/-- The lines of a file in front of a range of it, and the hunk that was made for the range. -/
structure DiffPart where
  gap : List String
  hunk : Hunk

/-- The lines a diff was made from. -/
def sourceLines (parts : List DiffPart) (tail : List String) : List String :=
  (parts.flatMap fun part => part.gap ++ part.hunk.expected) ++ tail

/-- The lines a diff was made to. -/
def targetLines (parts : List DiffPart) (tail : List String) : List String :=
  (parts.flatMap fun part => part.gap ++ part.hunk.written) ++ tail

@[simp] theorem sourceLines_cons (part : DiffPart) (rest : List DiffPart) (tail : List String) :
    sourceLines (part :: rest) tail =
      part.gap ++ (part.hunk.expected ++ sourceLines rest tail) := by
  simp [sourceLines]

@[simp] theorem targetLines_cons (part : DiffPart) (rest : List DiffPart) (tail : List String) :
    targetLines (part :: rest) tail = part.gap ++ (part.hunk.written ++ targetLines rest tail) := by
  simp [targetLines]

/-- A hunk's lines stand at a place. -/
def StandsAt (hunk : Hunk) (lines : List String) (start : ℕ) : Prop :=
  (lines.drop start).take hunk.expected.length = hunk.expected

instance (hunk : Hunk) (lines : List String) (start : ℕ) : Decidable (StandsAt hunk lines start) :=
  inferInstanceAs (Decidable (_ = _))

/-- The first place at which a hunk's lines stand is its range, or the new lines may as well be
put there; if it has no such lines, the new lines may as well be put at the end. -/
def FirstInRange (hunk : Hunk) (before behind : List String) : Prop :=
  if hunk.expected = [] then behind ++ hunk.written = hunk.written ++ behind
  else
    let lines := before ++ (hunk.expected ++ behind)
    ∀ start ≤ before.length, StandsAt hunk lines start →
      (∀ earlier < start, ¬ StandsAt hunk lines earlier) →
      lines.take start ++ (hunk.written ++ lines.drop (start + hunk.expected.length)) =
        before ++ (hunk.written ++ behind)

theorem standsAt_range (hunk : Hunk) (before behind : List String) :
    StandsAt hunk (before ++ (hunk.expected ++ behind)) before.length := by
  simp [StandsAt]

/-- A hunk applies in its range if its lines stand there first. -/
theorem applyHunkToLines_range {hunk : Hunk} {before behind : List String}
    (h : FirstInRange hunk before behind) :
    applyHunkToLines (before ++ (hunk.expected ++ behind)) hunk =
      some (before ++ (hunk.written ++ behind)) := by
  unfold FirstInRange at h
  split_ifs at h with hnil
  · rw [applyHunkToLines_atEnd hnil, hnil, nil_append, append_assoc, h]
  · cases hstart : matchStart hunk.expected (before ++ (hunk.expected ++ behind)) with
    | none =>
      unfold matchStart at hstart
      rw [find?_eq_none] at hstart
      have hrange := hstart before.length (mem_range.mpr (by
        simp only [length_append]
        omega))
      exact absurd (decide_eq_true (standsAt_range hunk before behind)) hrange
    | some start =>
      rw [applyHunkToLines_found hnil hstart]
      obtain ⟨hstands, -, hearlier⟩ := find?_range_eq_some.mp hstart
      have hfirst : ∀ earlier < start,
          ¬ StandsAt hunk (before ++ (hunk.expected ++ behind)) earlier := by
        intro earlier hlt
        simpa [StandsAt] using hearlier earlier hlt
      have hle : start ≤ before.length := by
        by_contra hlt
        exact hfirst _ (not_le.mp hlt) (standsAt_range hunk before behind)
      rw [h start hle (of_decide_eq_true hstands) hfirst]

/-- Each hunk stands first in its range when its turn comes. -/
def EachFirstInRange (tail : List String) : List String → List DiffPart → Prop
  | _, [] => True
  | done, ⟨gap, hunk⟩ :: rest =>
    FirstInRange hunk (done ++ gap) (sourceLines rest tail) ∧
      EachFirstInRange tail (done ++ gap ++ hunk.written) rest

theorem applyHunks_ranges {tail : List String} (parts : List DiffPart) (done : List String)
    (h : EachFirstInRange tail done parts) :
    applyHunks (done ++ sourceLines parts tail) (parts.map (·.hunk)) =
      .ok (done ++ targetLines parts tail) := by
  induction parts generalizing done with
  | nil => rfl
  | cons part rest ih =>
    obtain ⟨gap, hunk⟩ := part
    have happlied := applyHunkToLines_range h.1
    have hlines := ih _ h.2
    rw [sourceLines_cons, targetLines_cons, map_cons, applyHunks, ← append_assoc, happlied]
    simpa using hlines

/-- An update whose hunks stand first in their ranges leaves what the diff was made to. -/
theorem update_writes_target (host : FileHost) (policy : PathPolicy)
    (workDir filePath raw : String) (parts : List DiffPart) (tail : List String)
    (disk after : Disk) (paths : List String)
    (hread : host.readFileSync (resolveFilePath workDir filePath) disk = .ok raw)
    (hsource : splitLines raw = sourceLines parts tail) (hfirst : EachFirstInRange tail [] parts)
    (h : applyOperation host policy workDir (.update filePath (parts.map (·.hunk))) disk =
      (after, .ok paths)) :
    after.text? (host.locate (resolveFilePath workDir filePath)) =
      some ("\n".intercalate (targetLines parts tail)) := by
  obtain ⟨lines, hlines, htext⟩ := updateOperation_ok hread h
  have htarget := applyHunks_ranges parts [] hfirst
  rw [nil_append, ← hsource, hlines] at htarget
  cases htarget
  exact htext

/-- A folder with one file. -/
def oneFile (text : String) : Disk :=
  ⟨fun location =>
    if location = ["work"] then some .directory
    else if location = ["work", "f"] then some (.file text)
    else none⟩

/-- Puts a line between the third line and the fourth. -/
def insertBelowThird : DiffPart := ⟨["x", "y"], ⟨[⟨.context, "a"⟩, ⟨.add, "new"⟩]⟩⟩

theorem update_writes_target_insertBelowThird :
    (applyOperation plainHost plainPolicy "/work" (.update "f" [insertBelowThird.hunk])
      (oneFile "x\ny\na\nb")).1.text? ["work", "f"] = some "x\ny\na\nnew\nb" :=
  update_writes_target plainHost plainPolicy "/work" "f" "x\ny\na\nb" [insertBelowThird] ["b"]
    (oneFile "x\ny\na\nb") _ ["/work/f"] (by decide +kernel) (by decide +kernel)
    ⟨by
      rw [FirstInRange, if_neg (by decide)]
      decide +kernel, trivial⟩ (Prod.ext rfl (by decide +kernel))

/-- A diff that changes the second of two equal blocks changes the first. -/
theorem update_edits_first_block :
    ¬ ∀ (host : FileHost) (policy : PathPolicy) (workDir filePath raw : String)
      (parts : List DiffPart) (tail : List String) (disk after : Disk) (paths : List String),
      host.readFileSync (resolveFilePath workDir filePath) disk = .ok raw →
      splitLines raw = sourceLines parts tail →
      applyOperation host policy workDir (.update filePath (parts.map (·.hunk))) disk =
        (after, .ok paths) →
      after.text? (host.locate (resolveFilePath workDir filePath)) =
        some ("\n".intercalate (targetLines parts tail)) := by
  intro h
  have hsecond := h plainHost plainPolicy "/work" "f" "a\nb\na\nb"
    [⟨["a", "b"], ⟨[⟨.context, "a"⟩, ⟨.remove, "b"⟩, ⟨.add, "c"⟩]⟩⟩] []
    (oneFile "a\nb\na\nb") _ ["/work/f"] (by decide +kernel) (by decide +kernel)
    (Prod.ext rfl (by decide +kernel))
  exact absurd hsecond (by decide +kernel)

/-! ## Line ends -/

/-- How a line ends in the file: at the file's end, at a line feed, or at a carriage return and a
line feed. A line that a hunk puts in does not end there. -/
inductive LineEnd
  | put | fileEnd | lineFeed | carriageReturn
  deriving DecidableEq

structure EditedLine where
  text : String
  ending : LineEnd
  deriving DecidableEq

/-- The pieces between line feeds as lines of the file. -/
def pieceLines : List (List Char) → List EditedLine
  | [] => []
  | [last] => [⟨String.ofList last, .fileEnd⟩]
  | piece :: rest =>
    (if piece.getLast? = some '\r' then ⟨String.ofList piece.dropLast, .carriageReturn⟩
      else ⟨String.ofList piece, .lineFeed⟩) :: pieceLines rest

/-- The lines of a file with their ends. -/
def fileLines (raw : String) : List EditedLine := pieceLines (raw.toList.splitOn '\n')

/-- A hunk applied to lines that keep their ends outside the range. -/
def applyHunkKeeping (lines : List EditedLine) (hunk : Hunk) : Option (List EditedLine) :=
  let put := hunk.written.map (EditedLine.mk · .put)
  if hunk.expected.length = 0 then some (lines ++ put)
  else
    (matchStart hunk.expected (lines.map (·.text))).map fun start =>
      lines.take start ++ (put ++ lines.drop (start + hunk.expected.length))

def applyHunksKeeping (lines : List EditedLine) : List Hunk → Option (List EditedLine)
  | [] => some lines
  | hunk :: rest => (applyHunkKeeping lines hunk).bind fun lines => applyHunksKeeping lines rest

/-- How a line ends in front of others: a line of the file as it did there, unless it was the last
line there and has lines behind it now. -/
def EditedLine.endingBefore (line : EditedLine) (behind : List EditedLine) : String :=
  match line.ending with
  | .lineFeed => "\n"
  | .carriageReturn => "\r\n"
  | .put | .fileEnd => if behind = [] then "" else "\n"

/-- The edited file with the lines outside the ranges unchanged. -/
def keptText : List EditedLine → String
  | [] => ""
  | line :: behind => line.text ++ (line.endingBefore behind ++ keptText behind)

theorem fileLines_text (raw : String) : (fileLines raw).map (·.text) = splitLines raw := by
  unfold fileLines splitLines
  dsimp only
  induction raw.toList.splitOn '\n' using pieceLines.induct with
  | case1 => rfl
  | case2 last => simp [pieceLines]
  | case3 piece rest hne ih =>
    have hrest : rest ≠ [] := fun h => hne h
    rw [pieceLines.eq_3 _ _ hne, map_cons, ih, dropLast_cons_of_ne_nil hrest,
      getLast?_cons_of_ne_nil hrest, map_cons, cons_append]
    split_ifs <;> rfl

theorem applyHunkKeeping_text (lines : List EditedLine) (hunk : Hunk) :
    (applyHunkKeeping lines hunk).map (List.map (·.text)) =
      applyHunkToLines (lines.map (·.text)) hunk := by
  have hput : (hunk.written.map (EditedLine.mk · .put)).map (·.text) = hunk.written := by
    rw [map_map]
    exact map_id _
  unfold applyHunkKeeping
  split_ifs with hnil
  · rw [applyHunkToLines_atEnd (length_eq_zero_iff.mp hnil), Option.map_some, map_append, hput]
  · cases hstart : matchStart hunk.expected (lines.map (·.text)) with
    | none => simp [applyHunkToLines, hnil, hstart]
    | some start =>
      rw [applyHunkToLines_found (mt length_eq_zero_iff.mpr hnil) hstart, Option.map_some,
        Option.map_some, map_append, map_append, hput, map_take, map_drop]

theorem applyHunksKeeping_text {hunks : List Hunk} {lines : List EditedLine}
    {texts : List String} (h : applyHunks (lines.map (·.text)) hunks = .ok texts) :
    ∃ kept, applyHunksKeeping lines hunks = some kept ∧ kept.map (·.text) = texts := by
  induction hunks generalizing lines with
  | nil =>
    cases h
    exact ⟨lines, rfl, rfl⟩
  | cons hunk rest ih =>
    rw [applyHunks, ← applyHunkKeeping_text] at h
    cases hkept : applyHunkKeeping lines hunk with
    | none =>
      rw [hkept] at h
      cases h
    | some between =>
      rw [hkept] at h
      obtain ⟨kept, hrest, htext⟩ := ih h
      exact ⟨kept, by rw [applyHunksKeeping, hkept, Option.bind_some, hrest], htext⟩

/-- No line of the file that is kept ends in a carriage return, and none that ended in a line feed
is the last one now. -/
def LineFeedsBetween (kept : List EditedLine) : Prop :=
  (∀ line ∈ kept, line.ending ≠ .carriageReturn) ∧ ∀ line ∈ kept.getLast?, line.ending ≠ .lineFeed

/-- Lines put together with line feeds are unchanged if they were apart by line feeds. -/
theorem intercalate_eq_keptText_iff (kept : List EditedLine) :
    "\n".intercalate (kept.map (·.text)) = keptText kept ↔ LineFeedsBetween kept := by
  unfold LineFeedsBetween
  induction kept with
  | nil => simp [keptText]
  | cons line behind ih =>
    obtain ⟨text, ending⟩ := line
    cases behind with
    | nil =>
      have hself (ending : String) : text = text ++ ending ↔ ending = "" := by
        rw [← String.toList_inj, String.toList_append, self_eq_append_right,
          String.toList_eq_nil_iff]
      cases ending <;> simp [keptText, EditedLine.endingBefore, hself]
    | cons next rest =>
      rw [map_cons, String.intercalate_cons_of_ne_nil (by simp), String.append_assoc,
        keptText, String.append_right_inj, forall_mem_cons, getLast?_cons_cons,
        and_assoc, ← ih]
      have hfeed (front behind : String) : "\n" ++ front ≠ "\r\n" ++ behind := by
        intro hjoined
        have hchars := congrArg String.toList hjoined
        simp at hchars
      cases ending <;> simp [EditedLine.endingBefore, hfeed]

end Nobie.Tools
