/-
# Files and paths of a host

A disk maps locations to files and directories. A path is a text; the location it
leads to is found from its components alone, as there are no links. Every call can
be stopped by the host, for want of space or of a permission: what the host does then
is a parameter, and a write that is stopped may leave anything at its location.
-/

import Mathlib.Data.List.Infix

namespace Nobie.Foundation

/-- The components of an absolute path. -/
abbrev Location : Type := List String

inductive FileEntry
  | file (text : String)
  | directory
  deriving DecidableEq

structure Disk where
  entries : Location → Option FileEntry

variable {location : Location} {message source target : String}

variable (disk : Disk) (path : String)

namespace Disk

/-- The text of the file at a location. -/
def text? (location : Location) : Option String :=
  match disk.entries location with
  | some (.file text) => some text
  | _ => none

def isDirectory (location : Location) : Bool :=
  location = [] || disk.entries location = some .directory

def put (location : Location) (entry : Option FileEntry) : Disk :=
  ⟨fun other => if other = location then entry else disk.entries other⟩

theorem text?_put_of_ne {other : Location} (entry : Option FileEntry) (h : other ≠ location) :
    (disk.put location entry).text? other = disk.text? other := by
  simp [text?, put, h]

@[simp]
theorem entries_put_self (location : Location) (entry : Option FileEntry) :
    (disk.put location entry).entries location = entry := by
  simp [put]

end Disk

/-! ## Paths -/

def isAbsolute : Bool := path.toList.head? = some '/'

/-- The components of a path; empty ones do not count. -/
def pathComponents : List String := ((path.toList.splitOn '/').filter (· ≠ [])).map String.ofList

/-- One component further. -/
def descend (location : Location) (component : String) : Location :=
  if component = "." then location
  else if component = ".." then location.dropLast
  else location ++ [component]

/-- One component further in a path that may leave its start. -/
def descendRelative (components : List String) (component : String) : List String :=
  if component = "." then components
  else if component = ".." ∧ components ≠ [] ∧ components.getLast? ≠ some ".." then
    components.dropLast
  else components ++ [component]

/-- `path.normalize`. -/
def normalizePath : String :=
  let trailing := if path.toList.getLast? = some '/' then "/" else ""
  if isAbsolute path then
    match (pathComponents path).foldl descend [] with
    | [] => "/"
    | location => "/" ++ "/".intercalate location ++ trailing
  else
    match (pathComponents path).foldl descendRelative [] with
    | [] => "." ++ trailing
    | components => "/".intercalate components ++ trailing

/-- `path.join` of two paths. -/
def joinPaths (first second : String) : String :=
  match [first, second].filter (· ≠ "") with
  | [] => "."
  | segments => normalizePath ("/".intercalate segments)

/-- `path.dirname`. -/
def dirname : String :=
  -- From the end: the trailing slashes, the last component, the slash before it.
  match (path.toList.reverse.dropWhile (· = '/')).dropWhile (· ≠ '/') with
  | [] => if isAbsolute path then "/" else "."
  | [_] => "/"
  | [_, '/'] => "//"
  | _ :: rest => String.ofList rest.reverse

/-! ## Calls -/

inductive FileCall
  | mkdir (path : String)
  | write (path : String)
  | read (path : String)
  | unlink (path : String)
  | rename (source target : String)

inductive FileError
  | notFound | isDirectory | notDirectory

/-- What differs from host to host. -/
structure FileHost where
  /-- The working directory of the process. -/
  cwd : Location
  message : FileError → FileCall → String
  /-- The message of a call that the host stops. -/
  fault : FileCall → Disk → Option String
  /-- What a write that was stopped leaves behind. -/
  leftover : FileCall → Disk → Option FileEntry

namespace FileHost

variable (host : FileHost)

/-- No call is stopped. -/
def NoFaults : Prop := ∀ call disk, host.fault call disk = none

/-- The location a path leads to. -/
def locate (path : String) : Location :=
  (pathComponents path).foldl descend (if isAbsolute path then [] else host.cwd)

/-- `path.resolve`. -/
def resolve (path : String) : String := "/" ++ "/".intercalate (host.locate path)

def existsSync (path : String) (disk : Disk) : Bool :=
  host.locate path = [] || (disk.entries (host.locate path)).isSome

/-- `mkdirSync` with `recursive`. -/
def mkdirSync (path : String) (disk : Disk) : Disk × Except String Unit :=
  let location := host.locate path
  match host.fault (.mkdir path) disk with
  | some message => (disk, .error message)
  | none =>
    if location.inits.any fun above => (disk.text? above).isSome then
      (disk, .error (host.message .notDirectory (.mkdir path)))
    else
      (⟨fun other =>
          if other <+: location ∧ disk.entries other = none then some .directory
          else disk.entries other⟩, .ok ())

def writeFileSync (path text : String) (disk : Disk) : Disk × Except String Unit :=
  let location := host.locate path
  if disk.isDirectory location then (disk, .error (host.message .isDirectory (.write path)))
  else if disk.entries location = none ∧ ¬ disk.isDirectory location.dropLast then
    (disk, .error (host.message .notFound (.write path)))
  else
    match host.fault (.write path) disk with
    | some message => (disk.put location (host.leftover (.write path) disk), .error message)
    | none => (disk.put location (some (.file text)), .ok ())

def readFileSync (path : String) (disk : Disk) : Except String String :=
  let location := host.locate path
  match host.fault (.read path) disk with
  | some message => .error message
  | none =>
    if disk.isDirectory location then .error (host.message .isDirectory (.read path))
    else
      match disk.text? location with
      | some text => .ok text
      | none => .error (host.message .notFound (.read path))

def unlinkSync (path : String) (disk : Disk) : Disk × Except String Unit :=
  let location := host.locate path
  match host.fault (.unlink path) disk with
  | some message => (disk, .error message)
  | none =>
    if disk.isDirectory location then
      (disk, .error (host.message .isDirectory (.unlink path)))
    else if disk.entries location = none then
      (disk, .error (host.message .notFound (.unlink path)))
    else (disk.put location none, .ok ())

/-- `renameSync` of a file. -/
def renameSync (source target : String) (disk : Disk) : Disk × Except String Unit :=
  match host.fault (.rename source target) disk with
  | some message => (disk, .error message)
  | none =>
    if disk.entries (host.locate source) = none then
      (disk, .error (host.message .notFound (.rename source target)))
    else if disk.isDirectory (host.locate target) then
      (disk, .error (host.message .isDirectory (.rename source target)))
    else
      ((disk.put (host.locate source) none).put (host.locate target)
        (disk.entries (host.locate source)), .ok ())

/-! ### What the calls leave alone -/

variable {host} {path text : String} {disk after : Disk} {result : Except String Unit}

theorem text?_mkdirSync (h : host.mkdirSync path disk = (after, result)) (location : Location) :
    after.text? location = disk.text? location := by
  unfold mkdirSync at h
  dsimp only at h
  split at h
  · cases h
    rfl
  · split at h
    · cases h
      rfl
    · cases h
      unfold Disk.text?
      dsimp only
      split_ifs with hnew
      · rw [hnew.2]
      · rfl

theorem text?_writeFileSync (h : host.writeFileSync path text disk = (after, result))
    (hne : location ≠ host.locate path) : after.text? location = disk.text? location := by
  unfold writeFileSync at h
  dsimp only at h
  split_ifs at h
  · cases h
    rfl
  · cases h
    rfl
  · split at h
    · cases h
      exact disk.text?_put_of_ne _ hne
    · cases h
      exact disk.text?_put_of_ne _ hne

/-- A write that the host does not stop fails only where there is no file, and changes
nothing. -/
theorem writeFileSync_error (hfaults : host.NoFaults)
    (h : host.writeFileSync path text disk = (after, .error message)) :
    after = disk ∧ (disk.entries (host.locate path) = none ∨
      disk.isDirectory (host.locate path)) := by
  unfold writeFileSync at h
  dsimp only at h
  rw [hfaults] at h
  split_ifs at h with hdirectory hmissing
  · exact ⟨(Prod.mk.inj h).1.symm, Or.inr hdirectory⟩
  · exact ⟨(Prod.mk.inj h).1.symm, Or.inl hmissing.1⟩
  · cases h

theorem writeFileSync_ok (h : host.writeFileSync path text disk = (after, .ok ())) :
    after = disk.put (host.locate path) (some (.file text)) := by
  unfold writeFileSync at h
  dsimp only at h
  split_ifs at h
  · cases h
  · cases h
  · split at h
    · cases h
    · exact (Prod.mk.inj h).1.symm

theorem readFileSync_ok {found : String} (h : host.readFileSync path disk = .ok found) :
    disk.isDirectory (host.locate path) = false := by
  unfold readFileSync at h
  dsimp only at h
  split at h
  · cases h
  · split_ifs at h with hdirectory
    exact Bool.eq_false_iff.mpr hdirectory

theorem text?_unlinkSync (host : FileHost) (path : String) (disk : Disk)
    (hne : location ≠ host.locate path) :
    (host.unlinkSync path disk).1.text? location = disk.text? location := by
  unfold unlinkSync
  dsimp only
  split
  · rfl
  · split_ifs
    · rfl
    · rfl
    · exact disk.text?_put_of_ne _ hne

/-- Only a file can be removed. -/
theorem unlinkSync_of_not_file (host : FileHost) {path : String} {disk : Disk}
    (hplace : disk.entries (host.locate path) = none ∨ disk.isDirectory (host.locate path)) :
    (host.unlinkSync path disk).1 = disk := by
  unfold unlinkSync
  dsimp only
  split
  · rfl
  · split_ifs with hdirectory hmissing
    · rfl
    · rfl
    · exact absurd hplace (not_or.mpr ⟨hmissing, hdirectory⟩)

theorem unlinkSync_error (h : host.unlinkSync path disk = (after, .error message)) :
    after = disk := by
  unfold unlinkSync at h
  dsimp only at h
  split at h
  · exact (Prod.mk.inj h).1.symm
  · split_ifs at h
    · exact (Prod.mk.inj h).1.symm
    · exact (Prod.mk.inj h).1.symm
    · cases h

theorem renameSync_error (h : host.renameSync source target disk = (after, .error message)) :
    after = disk := by
  unfold renameSync at h
  split at h
  · exact (Prod.mk.inj h).1.symm
  · split_ifs at h
    · exact (Prod.mk.inj h).1.symm
    · exact (Prod.mk.inj h).1.symm
    · cases h

theorem text?_renameSync (h : host.renameSync source target disk = (after, result))
    (hsource : location ≠ host.locate source) (htarget : location ≠ host.locate target) :
    after.text? location = disk.text? location := by
  unfold renameSync at h
  split at h
  · cases h
    rfl
  · split_ifs at h
    · cases h
      rfl
    · cases h
      rfl
    · cases h
      rw [Disk.text?_put_of_ne _ _ htarget, Disk.text?_put_of_ne _ _ hsource]

/-- A file that was just written can be moved over a file. -/
theorem renameSync_written (text source : String) (hfaults : host.NoFaults)
    (htarget : disk.isDirectory (host.locate target) = false) :
    (host.renameSync source target
      (disk.put (host.locate source) (some (.file text)))).2 = .ok () := by
  unfold renameSync
  rw [hfaults]
  rw [if_neg (by simp), if_neg ?_]
  simp only [Disk.isDirectory, Bool.or_eq_true, Bool.or_eq_false_iff, decide_eq_true_eq,
    decide_eq_false_iff_not] at htarget ⊢
  rintro (hroot | hdirectory)
  · exact htarget.1 hroot
  · unfold Disk.put at hdirectory
    dsimp only at hdirectory
    split_ifs at hdirectory
    · cases Option.some.inj hdirectory
    · exact htarget.2 hdirectory

/-- A file that was just written stands where it is moved to. -/
theorem text?_renamed (h : host.renameSync source target
      (disk.put (host.locate source) (some (.file text))) = (after, .ok ())) :
    after.text? (host.locate target) = some text := by
  unfold renameSync at h
  split at h
  · cases h
  · split_ifs at h
    · cases h
    · cases h
    · cases h
      simp [Disk.text?]

end FileHost

end Nobie.Foundation
