/-
# The gates before the file tools

The tool policy checks the path of a call, and the file tools check it again, each with its
own reading of the allowed entries. The two agree with the subtree test exactly if the
entries keep away from the root and the protected directories and mean the same in both
readings. What a call touches has then passed the test, except what it touches unchecked.
-/

import Nobie.Foundation.PathText
import Nobie.Tools.PatchApplier

namespace Nobie.Tools

open Foundation List

/-! ## The gates -/

/-- A host whose working directory has proper components. -/
structure PosixHost extends FileHost where
  proper : ProperLocation cwd

instance : Coe PosixHost FileHost := ⟨PosixHost.toFileHost⟩

/-- `path.replace(/^~/, home)`. -/
def expandHome (home path : String) : String :=
  match path.toList with
  | [] => path
  | first :: after =>
    if first = '~' then String.ofList (replacementText [first] [] after home.toList ++ after)
    else path

structure PathDecision where
  allowed : Bool
  scope : String
  allowedRoots : List String

/-- `isPathAllowed` of the tool policy. -/
def isPathAllowed (host : FileHost) (policy : PathPolicy) (filePath : String) : PathDecision :=
  let resolved := host.resolve (expandHome policy.home filePath)
  let roots :=
    if policy.allowedPaths.length > 0 then
      policy.allowedPaths.map fun item => host.resolve (expandHome policy.home item)
    else [policy.home]
  let allowedRoot := roots.find? fun root => resolved == root || startsWith resolved (root ++ "/")
  { allowed := allowedRoot.any fun root => root ≠ ""
    scope := allowedRoot.getD "none"
    allowedRoots := roots }

/-! ## The subtree test -/

section Test

variable (host : FileHost) (policy : PathPolicy)

/-- The allowed entries with the home directory in the place of a leading tilde. -/
def allowedEntries : List String :=
  if policy.allowedPaths.length > 0 then policy.allowedPaths.map (expandHome policy.home)
  else [policy.home]

/-- The allowed entries as the file tools read them: the first tilde counts, wherever it
stands. -/
def fileEntries : List String :=
  if policy.allowedPaths.length > 0 then
    policy.allowedPaths.map fun path => String.ofList (replaceTilde policy.home path.toList)
  else [policy.home]

/-- The path leads to one of the entries or below it. -/
def Below (entries : List String) (path : String) : Prop :=
  ∃ entry ∈ entries, host.locate entry <+: host.locate path

/-- The denied entries that are paths of this host. -/
def protectedDirectories : List String := deniedPaths.filter isAbsolute

/-- Equal to or below an allowed entry, and not equal to or below a protected directory. -/
def SubtreeTest (path : String) : Prop :=
  Below host (allowedEntries policy) path ∧ ¬ Below host protectedDirectories path

/-- The text of the resolved path begins with that of a denied entry. -/
def BeginsDenied (path : String) : Prop :=
  ∃ denied ∈ deniedPaths, startsWith (host.resolve path) denied

/-- Both gates accept exactly the paths that pass the test. -/
structure GatesAgree : Prop where
  toolPolicy : ∀ path, (isPathAllowed host policy path).allowed ↔
    SubtreeTest host policy (expandHome policy.home path)
  fileTools : ∀ path, assertAllowedPath host policy path = .ok () ↔ SubtreeTest host policy path

/-- No entry is the root or begins like a protected directory, and each entry that counts in
one reading lies below one of the other. -/
structure EntriesKeepAway : Prop where
  plainHome : policy.allowedPaths = [] → policy.home = host.resolve policy.home
  apart : ∀ entry ∈ allowedEntries policy, host.locate entry ≠ [] ∧ ¬ BeginsDenied host entry
  covered : ∀ entry ∈ allowedEntries policy, Below host (fileEntries policy) entry
  covering : ∀ entry ∈ fileEntries policy,
    Below host (allowedEntries policy) entry ∨ BeginsDenied host entry

/-- The home directory is the only entry, it is not written as a resolved path, and it lies
in a protected directory: nothing is allowed. -/
structure NothingAllowed : Prop where
  onlyHome : policy.allowedPaths = []
  unresolved : policy.home ≠ host.resolve policy.home
  named : policy.home ≠ ""
  protectedHome : Below host protectedDirectories policy.home

end Test

/-! ## Comparing texts -/

theorem startsWith_iff {text start : String} :
    startsWith text start ↔ start.toList <+: text.toList :=
  isPrefixOf_iff_prefix

/-- The comparison that both gates make. -/
def covers (resolved root : String) : Bool := resolved == root || startsWith resolved (root ++ "/")

theorem toList_slash (root : String) : (root ++ "/").toList = root.toList ++ ['/'] := by
  rw [String.toList_append]
  rfl

variable {location : Location} (path : String) {entries : List String}

/-- A text that stands above a location, with the slash behind it. -/
theorem startsWith_slash (hproper : ProperLocation location) {root : String} (hroot : root ≠ "")
    (h : startsWith (locationText location) (root ++ "/")) :
    ∃ above, above ≠ [] ∧ above <+: location ∧ above ≠ location ∧ root = locationText above := by
  rw [startsWith_iff, toList_slash] at h
  cases location with
  | nil =>
    rw [toList_locationText_nil] at h
    have hlength := h.length_le
    rw [length_append, length_singleton] at hlength
    have hempty : root.toList.length = 0 := by omega
    exact absurd (String.toList_eq_nil_iff.mp (length_eq_zero_iff.mp hempty)) hroot
  | cons component rest =>
    rw [toList_locationText (cons_ne_nil _ _)] at h
    obtain ⟨above, habove, hne, htext⟩ := prefix_spell hproper h
    have hnil : above ≠ [] := by
      rintro rfl
      exact hroot (String.toList_eq_nil_iff.mp htext)
    refine ⟨above, hnil, habove, hne, String.toList_inj.mp ?_⟩
    rw [htext, toList_locationText hnil]

theorem locationText_ne_empty (location : Location) : locationText location ≠ "" := by
  intro hempty
  have hstarts := isAbsolute_locationText location
  rw [hempty] at hstarts
  cases hstarts

theorem locationText_injective {first second : Location} (hfirst : ProperLocation first)
    (hsecond : ProperLocation second) (h : locationText first = locationText second) :
    first = second := by
  rw [← pathComponents_locationText fun component hmem => (hfirst component hmem).plain, h,
    pathComponents_locationText fun component hmem => (hsecond component hmem).plain]

/-- Comparing the texts of resolved paths, with a separator, compares their locations; only
the root covers nothing but itself. -/
theorem covers_locationText {root : Location} (hlocation : ProperLocation location)
    (hroot : ProperLocation root) :
    covers (locationText location) (locationText root) ↔
      root <+: location ∧ (root ≠ [] ∨ location = []) := by
  unfold covers
  rw [Bool.or_eq_true, beq_iff_eq]
  constructor
  · rintro (hsame | hstarts)
    · obtain rfl := locationText_injective hlocation hroot hsame
      refine ⟨prefix_rfl, ?_⟩
      cases location with
      | nil => exact .inr rfl
      | cons component rest => exact .inl (cons_ne_nil _ _)
    · obtain ⟨above, hnil, habove, -, htext⟩ :=
        startsWith_slash hlocation (locationText_ne_empty root) hstarts
      obtain rfl := locationText_injective hroot
        (fun component hmem => hlocation component (habove.subset hmem)) htext
      exact ⟨habove, .inl hnil⟩
  · rintro ⟨habove, hroots⟩
    by_cases hsame : root = location
    · exact .inl (congrArg locationText hsame.symm)
    · have hnil : root ≠ [] := by
        rintro rfl
        exact hsame (hroots.resolve_left (not_not_intro rfl)).symm
      have hlocationNil : location ≠ [] := by
        rintro rfl
        exact hnil (prefix_nil.mp habove)
      refine .inr ?_
      rw [startsWith_iff, toList_slash, toList_locationText hnil, toList_locationText hlocationNil]
      exact spell_prefix habove hsame

/-! ## Denied entries -/

theorem startsWith_denied_cons {component name : String} (hname : '/' ∉ name.toList)
    (rest : Location) :
    startsWith (locationText (component :: rest)) ("/" ++ name) ↔
      name.toList <+: component.toList := by
  rw [startsWith_iff, toList_locationText (cons_ne_nil _ _), spell_cons, String.toList_append]
  change '/' :: name.toList <+: '/' :: _ ↔ _
  rw [cons_prefix_cons]
  refine ⟨fun h => ?_, fun h => ⟨rfl, h.trans (prefix_append _ _)⟩⟩
  obtain hshort | hlong := Nat.le_total name.toList.length component.toList.length
  · exact prefix_of_prefix_length_le h.2 (prefix_append _ _) hshort
  · -- A longer name would go past a slash.
    obtain ⟨past, hpast⟩ := prefix_of_prefix_length_le
      (prefix_append component.toList (spell rest)) h.2 hlong
    cases past with
    | nil =>
      rw [append_nil] at hpast
      exact hpast ▸ prefix_rfl
    | cons unit past =>
      have htail : unit :: past <+: spell rest := by
        have hwhole := h.2
        rw [← hpast] at hwhole
        exact (prefix_append_right_inj _).mp hwhole
      cases rest with
      | nil => cases prefix_nil.mp htail
      | cons next rest =>
        obtain ⟨rfl, -⟩ := cons_prefix_cons.mp htail
        exact absurd (hpast ▸ mem_append_cons_self) hname

/-- A denied entry has one component, or it is no path of this host. -/
theorem deniedPaths_shape : ∀ denied ∈ deniedPaths,
    (∃ name : String, denied = "/" ++ name ∧ '/' ∉ name.toList) ∨
      denied.toList.head? = some 'C' := by
  intro denied hdenied
  have hshape : ∀ denied ∈ deniedPaths, (denied = "/" ++ String.ofList (denied.toList.drop 1) ∧
        '/' ∉ (String.ofList (denied.toList.drop 1)).toList) ∨
      denied.toList.head? = some 'C' := by
    decide
  exact (hshape denied hdenied).imp (fun h => ⟨_, h⟩) id

section Denied

variable {host : FileHost}

/-- Whether a path begins like a denied entry shows at its first component. -/
theorem beginsDenied_iff_of_below {entry path : String} (hentry : host.locate entry ≠ [])
    (hbelow : host.locate entry <+: host.locate path) :
    BeginsDenied host path ↔ BeginsDenied host entry := by
  refine exists_congr fun denied => and_congr_right fun hdenied => ?_
  rw [FileHost.resolve_eq, FileHost.resolve_eq]
  obtain ⟨component, rest, hcomponents⟩ := exists_cons_of_ne_nil hentry
  obtain ⟨after, hafter⟩ := hbelow
  rw [← hafter, hcomponents, cons_append]
  obtain ⟨name, rfl, hname⟩ | hdrive := deniedPaths_shape denied hdenied
  · rw [startsWith_denied_cons hname, startsWith_denied_cons hname]
  · -- A resolved path starts with a slash.
    have hnone : ∀ location, startsWith (locationText location) denied = false := by
      intro location
      rw [Bool.eq_false_iff]
      intro hstarts
      rw [startsWith_iff] at hstarts
      obtain ⟨units, hunits⟩ : ∃ units, denied.toList = 'C' :: units := head?_eq_some_iff.mp hdrive
      have hslash := isAbsolute_locationText location
      unfold isAbsolute at hslash
      obtain ⟨rest, hrest⟩ := hstarts
      rw [← hrest, hunits] at hslash
      cases hslash
    rw [hnone, hnone]

theorem not_beginsDenied_of_root {path : String} (hroot : host.locate path = []) :
    ¬ BeginsDenied host path := by
  rintro ⟨denied, hdenied, hstarts⟩
  rw [FileHost.resolve_eq, hroot] at hstarts
  have hnone : ∀ denied ∈ deniedPaths, startsWith (locationText []) denied = false := by decide
  cases (hnone denied hdenied).symm.trans hstarts

theorem locate_of_isAbsolute (host : FileHost) {path : String} (h : isAbsolute path) :
    host.locate path = (pathComponents path).foldl descend [] := by
  unfold FileHost.locate
  rw [if_pos h]

/-- What lies in a protected directory begins like a denied entry. -/
theorem beginsDenied_of_protected {path : String} (h : Below host protectedDirectories path) :
    BeginsDenied host path := by
  obtain ⟨entry, hentry, hbelow⟩ := h
  have hplain : ∀ entry ∈ protectedDirectories, isAbsolute entry ∧
      (pathComponents entry).foldl descend [] ≠ [] ∧ ∃ denied ∈ deniedPaths,
        startsWith (locationText ((pathComponents entry).foldl descend [])) denied := by
    decide
  obtain ⟨habsolute, hne, hdenied⟩ := hplain entry hentry
  rw [← locate_of_isAbsolute host habsolute] at hne hdenied
  exact (beginsDenied_iff_of_below hne hbelow).mpr hdenied

end Denied

/-! ## What the gates accept -/

/-- The path leads to an entry or below it; the root has nothing below it. -/
def Admits (host : FileHost) (entries : List String) (path : String) : Prop :=
  ∃ entry ∈ entries, host.locate entry <+: host.locate path ∧
    (host.locate entry ≠ [] ∨ host.locate path = [])

section Gates

variable {host : PosixHost} {policy : PathPolicy}

/-- The entries are compared as resolved paths. -/
def ComparesResolved (host : FileHost) (policy : PathPolicy) : Prop :=
  policy.allowedPaths = [] → policy.home = host.resolve policy.home

theorem covers_resolve (host : PosixHost) (path entry : String) :
    covers (host.resolve path) (host.resolve entry) ↔
      host.locate entry <+: host.locate path ∧ (host.locate entry ≠ [] ∨ host.locate path = []) :=
  covers_locationText (FileHost.properLocation_locate host.proper path)
    (FileHost.properLocation_locate host.proper entry)

/-- A home directory that is not written as a resolved path covers nothing. -/
theorem not_covers_home (hhome : policy.home ≠ host.resolve policy.home) (hnamed : policy.home ≠ "")
    (path : String) : covers (host.resolve path) policy.home = false := by
  have hlocate : ∀ location, ProperLocation location → policy.home ≠ locationText location := by
    intro location hproper hsame
    refine hhome ?_
    rw [FileHost.resolve_eq, hsame, host.locate_locationText hproper]
  have hproper := FileHost.properLocation_locate host.proper path
  rw [Bool.eq_false_iff]
  intro hcovers
  unfold covers at hcovers
  rw [Bool.or_eq_true, beq_iff_eq] at hcovers
  obtain hsame | hstarts := hcovers
  · exact hlocate _ hproper hsame.symm
  · obtain ⟨above, -, habove, -, htext⟩ := startsWith_slash hproper hnamed hstarts
    exact hlocate above (fun component hmem => hproper component (habove.subset hmem)) htext

/-- The paths that pass, by the list that is compared with. -/
theorem assertAllowedPath_eq_ok_iff {allowed : List String} {path : String}
    (hallowed : (if policy.allowedPaths.length > 0 then
      policy.allowedPaths.map fun path =>
        host.resolve (String.ofList (replaceTilde policy.home path.toList))
      else [policy.home]) = allowed) :
    assertAllowedPath host policy path = .ok () ↔
      (∃ root ∈ allowed, covers (host.resolve path) root) ∧ ¬ BeginsDenied host path := by
  have hcovers : (allowed.any fun root => startsWith (host.resolve path) (root ++ "/") ||
      host.resolve path == root) ↔ ∃ root ∈ allowed, covers (host.resolve path) root := by
    simp only [any_eq_true, covers, Bool.or_comm]
  have hdenied : (deniedPaths.any (startsWith (host.resolve path))) ↔
      BeginsDenied host path := any_eq_true
  unfold assertAllowedPath
  rw [hallowed, ← hcovers, ← hdenied]
  dsimp only
  split_ifs with hin hprotected
  · exact iff_of_false nofun fun h => h.2 hprotected
  · exact iff_of_true rfl ⟨hin, hprotected⟩
  · exact iff_of_false nofun fun h => hin h.1

section

variable (hresolved : ComparesResolved host policy)
include hresolved

/-- The roots of the tool policy, compared as resolved paths, are the allowed entries. -/
theorem allowedRoots_eq (path : String) :
    (isPathAllowed host policy path).allowedRoots = (allowedEntries policy).map host.resolve := by
  unfold isPathAllowed allowedEntries
  split_ifs with hconfigured
  · rw [map_map]
    rfl
  · have hnil : policy.allowedPaths = [] :=
      length_eq_zero_iff.mp (Nat.eq_zero_of_not_pos hconfigured)
    rw [map_singleton, ← hresolved hnil]

theorem isPathAllowed_iff (path : String) :
    (isPathAllowed host policy path).allowed ↔
      Admits host (allowedEntries policy) (expandHome policy.home path) := by
  have hroots := allowedRoots_eq hresolved path
  have hallowed : (isPathAllowed host policy path).allowed =
      (((isPathAllowed host policy path).allowedRoots.find? fun root =>
        covers (host.resolve (expandHome policy.home path)) root).any fun root => root ≠ "") := rfl
  rw [hallowed, hroots, Option.any_eq_true]
  constructor
  · rintro ⟨root, hfound, -⟩
    obtain ⟨entry, hentry, rfl⟩ := mem_map.mp (mem_of_find?_eq_some hfound)
    exact ⟨entry, hentry, (covers_resolve host _ _).mp (find?_some hfound)⟩
  · rintro ⟨entry, hentry, hcovers⟩
    have hsome := find?_isSome.mpr
      ⟨host.resolve entry, mem_map_of_mem hentry, (covers_resolve host _ _).mpr hcovers⟩
    obtain ⟨root, hroot⟩ := Option.isSome_iff_exists.mp hsome
    refine ⟨root, hroot, ?_⟩
    obtain ⟨other, -, rfl⟩ := mem_map.mp (mem_of_find?_eq_some hroot)
    exact decide_eq_true (locationText_ne_empty _)

theorem assertAllowedPath_iff
    (path : String) :
    assertAllowedPath host policy path = .ok () ↔
      Admits host (fileEntries policy) path ∧ ¬ BeginsDenied host path := by
  have hroots : (if policy.allowedPaths.length > 0 then
      policy.allowedPaths.map fun path =>
        host.resolve (String.ofList (replaceTilde policy.home path.toList))
      else [policy.home]) = (fileEntries policy).map host.resolve := by
    unfold fileEntries
    split_ifs with hconfigured
    · rw [map_map]
      rfl
    · have hnil : policy.allowedPaths = [] :=
        length_eq_zero_iff.mp (Nat.eq_zero_of_not_pos hconfigured)
      rw [map_singleton, ← hresolved hnil]
  rw [assertAllowedPath_eq_ok_iff hroots]
  refine and_congr_left fun _ => ?_
  constructor
  · rintro ⟨root, hroot, hcovers⟩
    obtain ⟨entry, hentry, rfl⟩ := mem_map.mp hroot
    exact ⟨entry, hentry, (covers_resolve host _ _).mp hcovers⟩
  · rintro ⟨entry, hentry, hcovers⟩
    exact ⟨_, mem_map_of_mem hentry, (covers_resolve host _ _).mpr hcovers⟩

end

/-! ## When the gates agree -/

/-- A path for every location. -/
theorem locate_resolve (host : PosixHost) (path : String) :
    host.locate (host.resolve path) = host.locate path := by
  rw [FileHost.resolve_eq]
  exact host.locate_locationText (FileHost.properLocation_locate host.proper path)

/-- A resolved path has no tilde in front. -/
theorem expandHome_locationText (home : String) (location : Location) :
    expandHome home (locationText location) = locationText location := by
  obtain ⟨units, hunits⟩ : ∃ units, (locationText location).toList = '/' :: units := by
    have hstarts := of_decide_eq_true (isAbsolute_locationText location)
    exact head?_eq_some_iff.mp hstarts
  unfold expandHome
  rw [hunits]
  exact if_neg (by decide)

theorem Admits.below {host : FileHost} {path : String} (h : Admits host entries path) :
    Below host entries path := by
  obtain ⟨entry, hentry, hbelow, -⟩ := h
  exact ⟨entry, hentry, hbelow⟩

/-- An entry admits its own path. -/
theorem admits_self {host : FileHost} {entry path : String} (hentry : entry ∈ entries)
    (hpath : host.locate path = host.locate entry) : Admits host entries path := by
  refine ⟨entry, hentry, by rw [hpath], ?_⟩
  rw [hpath]
  exact (em (host.locate entry = [])).symm

theorem Below.trans {host : FileHost} {above path : String} (h : Below host entries above)
    (hbelow : host.locate above <+: host.locate path) : Below host entries path := by
  obtain ⟨entry, hentry, hstarts⟩ := h
  exact ⟨entry, hentry, hstarts.trans hbelow⟩

theorem Below.congr {host : FileHost} {first second : String}
    (hsame : host.locate first = host.locate second) :
    Below host entries first ↔ Below host entries second := by
  unfold Below
  rw [hsame]

/-- Entries that keep away: the gates agree. -/
theorem EntriesKeepAway.gatesAgree (h : EntriesKeepAway host policy) : GatesAgree host policy := by
  -- An entry is not the root, and what lies below it does not begin like a denied one.
  have hopen : ∀ path, Below host (allowedEntries policy) path →
      Admits host (allowedEntries policy) path ∧ ¬ BeginsDenied host path := by
    rintro path ⟨entry, hentry, hbelow⟩
    obtain ⟨hroot, hdenied⟩ := h.apart entry hentry
    exact ⟨⟨entry, hentry, hbelow, .inl hroot⟩,
      fun hbegins => hdenied ((beginsDenied_iff_of_below hroot hbelow).mp hbegins)⟩
  refine ⟨fun path => ?_, fun path => ?_⟩
  · rw [isPathAllowed_iff h.plainHome]
    refine ⟨fun hadmits => ?_, fun htest => (hopen _ htest.1).1⟩
    exact ⟨hadmits.below,
      fun hprotected => (hopen _ hadmits.below).2 (beginsDenied_of_protected hprotected)⟩
  · rw [assertAllowedPath_iff h.plainHome]
    constructor
    · rintro ⟨⟨entry, hentry, hbelow, hroot⟩, hdenied⟩
      refine ⟨?_, fun hprotected => hdenied (beginsDenied_of_protected hprotected)⟩
      obtain hcovered | hbegins := h.covering entry hentry
      · exact hcovered.trans hbelow
      · obtain hne | hpath := hroot
        · exact absurd ((beginsDenied_iff_of_below hne hbelow).mpr hbegins) hdenied
        · have hnil : host.locate entry = [] := prefix_nil.mp (hpath ▸ hbelow)
          exact absurd hbegins (not_beginsDenied_of_root hnil)
    · rintro ⟨⟨entry, hentry, hbelow⟩, -⟩
      refine ⟨?_, (hopen path ⟨entry, hentry, hbelow⟩).2⟩
      obtain ⟨other, hother, habove⟩ := h.covered entry hentry
      refine ⟨other, hother, habove.trans hbelow, .inl fun hnil => ?_⟩
      -- The root would have to lie below an entry.
      obtain hcovered | hbegins := h.covering other hother
      · obtain ⟨third, hthird, hstarts⟩ := hcovered
        rw [hnil] at hstarts
        exact (h.apart third hthird).1 (prefix_nil.mp hstarts)
      · exact not_beginsDenied_of_root hnil hbegins

/-- A name that begins like a protected directory and is none. -/
def neighbour : String := "/usrlocal"

theorem locate_neighbour (host : FileHost) : host.locate neighbour = ["usrlocal"] :=
  (locate_of_isAbsolute host (by decide)).trans (by decide)

theorem beginsDenied_neighbour (host : FileHost) : BeginsDenied host neighbour := by
  refine ⟨"/usr", by decide, ?_⟩
  rw [FileHost.resolve_eq, locate_neighbour]
  decide

theorem not_protected_neighbour (host : FileHost) :
    ¬ Below host protectedDirectories neighbour := by
  rintro ⟨entry, hentry, hbelow⟩
  have hplain : ∀ entry ∈ protectedDirectories, isAbsolute entry ∧
      ¬ (pathComponents entry).foldl descend [] <+: ["usrlocal"] := by
    decide
  obtain ⟨habsolute, hnot⟩ := hplain entry hentry
  rw [locate_neighbour, locate_of_isAbsolute host habsolute] at hbelow
  exact hnot hbelow

/-- Gates that agree: the entries keep away. -/
theorem GatesAgree.entriesKeepAway (hresolved : ComparesResolved host policy)
    (h : GatesAgree host policy) : EntriesKeepAway host policy := by
  have hfile := fun path => (assertAllowedPath_iff hresolved path).symm.trans (h.fileTools path)
  have hpolicy := fun path => (isPathAllowed_iff hresolved path).symm.trans (h.toolPolicy path)
  -- An entry passes the test, as the tool policy accepts it.
  have hentries : ∀ entry ∈ allowedEntries policy, SubtreeTest host policy entry := by
    intro entry hentry
    have hlocate : host.locate (expandHome policy.home (host.resolve entry)) =
        host.locate entry := by
      rw [FileHost.resolve_eq, expandHome_locationText]
      exact locate_resolve host entry
    have htest := (hpolicy (host.resolve entry)).mp (admits_self hentry hlocate)
    exact ⟨(Below.congr hlocate).mp htest.1, fun hprotected => htest.2
      ((Below.congr hlocate).mpr hprotected)⟩
  refine ⟨hresolved, fun entry hentry => ⟨fun hroot => ?_, ?_⟩, fun entry hentry => ?_,
    fun entry hentry => ?_⟩
  · -- Everything lies below the root, and the file tools refuse the neighbour.
    have hbelow : Below host (allowedEntries policy) neighbour :=
      ⟨entry, hentry, by rw [hroot]; exact nil_prefix⟩
    have haccepted := (hfile neighbour).mpr ⟨hbelow, not_protected_neighbour _⟩
    exact haccepted.2 (beginsDenied_neighbour _)
  · exact ((hfile entry).mpr (hentries entry hentry)).2
  · exact ((hfile entry).mpr (hentries entry hentry)).1.below
  · by_cases hdenied : BeginsDenied host entry
    · exact .inr hdenied
    · exact .inl ((hfile entry).mp ⟨admits_self hentry rfl, hdenied⟩).1

/-- What a location has to pass, as a statement about the location itself. -/
def LocationTest (host : FileHost) (policy : PathPolicy) (location : Location) : Prop :=
  (∃ entry ∈ allowedEntries policy, host.locate entry <+: location) ∧
    ¬ ∃ entry ∈ protectedDirectories, host.locate entry <+: location

theorem subtreeTest_iff {host : FileHost} {path : String} :
    SubtreeTest host policy path ↔ LocationTest host policy (host.locate path) := Iff.rfl

/-- What passes the test has all below it pass. -/
theorem EntriesKeepAway.locationTest_below (h : EntriesKeepAway host policy)
    {path : String} (htest : SubtreeTest host policy path)
    (hbelow : host.locate path <+: location) (hproper : ProperLocation location) :
    LocationTest host policy location := by
  obtain ⟨⟨entry, hentry, habove⟩, -⟩ := htest
  have hlocate : host.locate (locationText location) = location := host.locate_locationText hproper
  have hinside : host.locate entry <+: host.locate (locationText location) := by
    rw [hlocate]
    exact habove.trans hbelow
  obtain ⟨hroot, hdenied⟩ := h.apart entry hentry
  refine ⟨⟨entry, hentry, habove.trans hbelow⟩, fun hprotected => hdenied ?_⟩
  rw [← beginsDenied_iff_of_below hroot hinside]
  refine beginsDenied_of_protected ?_
  rw [← hlocate] at hprotected
  exact hprotected

section

variable (h : policy.allowedPaths = [])
include h

/-- The home directory is the only entry where none is configured. -/
theorem allowedEntries_of_nil :
    allowedEntries policy = [policy.home] := by
  unfold allowedEntries
  rw [h]
  rfl

/-- Without configured entries, both gates compare with the home directory as it is
written. -/
theorem isPathAllowed_of_nil (path : String) :
    (isPathAllowed host policy path).allowed =
      (covers (host.resolve (expandHome policy.home path)) policy.home &&
        decide (policy.home ≠ "")) := by
  unfold isPathAllowed
  rw [h]
  change (List.find? (covers (host.resolve (expandHome policy.home path))) [policy.home]).any _ = _
  by_cases hcovers : covers (host.resolve (expandHome policy.home path)) policy.home
  · rw [find?_cons_of_pos hcovers, hcovers]
    rfl
  · rw [find?_cons_of_neg hcovers, Bool.eq_false_iff.mpr hcovers]
    rfl

theorem assertAllowedPath_of_nil (path : String) :
    assertAllowedPath host policy path = .ok () ↔
      covers (host.resolve path) policy.home ∧ ¬ BeginsDenied host path := by
  rw [assertAllowedPath_eq_ok_iff (if_neg (by simp [h]))]
  simp

end

/-- Where nothing is allowed, no path passes the test, and the gates refuse all. -/
theorem NothingAllowed.refuses (h : NothingAllowed host policy) (path : String) :
    ¬ SubtreeTest host policy path ∧ assertAllowedPath host policy path ≠ .ok () := by
  constructor
  · rintro ⟨⟨entry, hentry, hbelow⟩, hprotected⟩
    rw [allowedEntries_of_nil h.onlyHome, mem_singleton] at hentry
    subst hentry
    exact hprotected (h.protectedHome.trans hbelow)
  · intro haccepted
    have hcovers := ((assertAllowedPath_of_nil h.onlyHome path).mp haccepted).1
    cases (not_covers_home h.unresolved h.named path).symm.trans hcovers

theorem NothingAllowed.gatesAgree (h : NothingAllowed host policy) : GatesAgree host policy := by
  refine ⟨fun path => ?_, fun path => ?_⟩
  · rw [isPathAllowed_of_nil h.onlyHome, not_covers_home h.unresolved h.named, Bool.false_and]
    exact iff_of_false Bool.false_ne_true (h.refuses _).1
  · exact iff_of_false (h.refuses path).2 (h.refuses path).1

/-- Gates that agree on a home directory that is not written as a resolved path. -/
theorem GatesAgree.nothingAllowed (h : GatesAgree host policy)
    (hresolved : ¬ ComparesResolved host policy) :
    NothingAllowed host policy := by
  obtain ⟨honly, hhome⟩ := Classical.not_imp.mp hresolved
  -- The tool policy refuses every path.
  have hrefused (path : String) : ¬ SubtreeTest host policy (expandHome policy.home path) := by
    rw [← h.toolPolicy path, isPathAllowed_of_nil honly]
    by_cases hnamed : policy.home = ""
    · rw [decide_eq_false (not_not_intro hnamed), Bool.and_false]
      exact Bool.false_ne_true
    · rw [not_covers_home hhome hnamed, Bool.false_and]
      exact Bool.false_ne_true
  have hlocation (path : String) : ¬ SubtreeTest host policy path := by
    intro htest
    refine hrefused (host.resolve path) ?_
    rw [FileHost.resolve_eq, expandHome_locationText, subtreeTest_iff, ← FileHost.resolve_eq]
    have hsame : host.locate (host.resolve path) = host.locate path := locate_resolve host path
    rw [hsame]
    exact htest
  refine ⟨honly, hhome, fun hnamed => ?_, ?_⟩
  · -- The empty home directory would let the file tools accept the root.
    have hroot : host.locate "/" = [] := by
      rw [locate_of_isAbsolute _ (by decide)]
      decide
    refine hlocation "/" ((h.fileTools "/").mp ((assertAllowedPath_of_nil honly "/").mpr
      ⟨?_, not_beginsDenied_of_root hroot⟩))
    rw [FileHost.resolve_eq, hroot, hnamed]
    decide
  · by_contra hopen
    refine hlocation policy.home ⟨⟨policy.home, ?_, prefix_rfl⟩, hopen⟩
    rw [allowedEntries_of_nil honly]
    exact mem_cons_self

/-- When both gates are the subtree test. -/
theorem gatesAgree_iff : GatesAgree host policy ↔
    EntriesKeepAway host policy ∨ NothingAllowed host policy := by
  refine ⟨fun h => ?_, fun h => h.elim (·.gatesAgree) (·.gatesAgree)⟩
  by_cases hresolved : ComparesResolved host policy
  · exact .inl (h.entriesKeepAway hresolved)
  · exact .inr (h.nothingAllowed hresolved)

end Gates

end Nobie.Tools
