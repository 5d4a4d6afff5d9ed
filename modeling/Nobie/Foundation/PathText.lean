/-
# Texts of locations

A location whose components are proper is spelled with a slash before each. A text with a
slash after it stands at the start of such a spelling exactly if it spells the components
above, so comparing texts with a separator compares locations. Resolving a spelled location
gives it back.
-/

import Nobie.Foundation.FileSystem
import Nobie.Foundation.JsString

namespace Nobie.Foundation

open List

/-- A component that a resolved path can have. -/
structure ProperComponent (component : String) : Prop where
  nonempty : component.toList ≠ []
  noSlash : '/' ∉ component.toList
  notDot : component ≠ "."
  notDotDot : component ≠ ".."

variable (location : Location)

def ProperLocation : Prop := ∀ component ∈ location, ProperComponent component

/-- A slash before each component. -/
def spell : List Char := location.flatMap fun component => '/' :: component.toList

@[simp]
theorem spell_nil : spell [] = [] := rfl

@[simp]
theorem spell_cons (component : String) (location : Location) :
    spell (component :: location) = '/' :: component.toList ++ spell location := rfl

/-- The text that a resolved path has. -/
def locationText : String := "/" ++ "/".intercalate location

theorem toList_locationText_nil : (locationText []).toList = ['/'] := by decide

variable {location : Location} {text : List Char} {component : String} {components : List String}
  (path : String) (host : FileHost) {reduced : List String}

theorem toList_locationText (h : location ≠ []) :
    (locationText location).toList = spell location := by
  unfold locationText
  rw [String.toList_append, String.toList_intercalate]
  induction location with
  | nil => exact absurd rfl h
  | cons component rest ih =>
    cases rest with
    | nil => simp
    | cons next rest =>
      rw [map_cons, map_cons, intercalate_cons_cons, spell_cons, append_assoc,
        ← ih (cons_ne_nil _ _)]
      rfl

/-! ## Comparing spellings -/

/-- What stands before a slash of a spelling spells the components above. -/
theorem prefix_spell (hproper : ProperLocation location) (h : text ++ ['/'] <+: spell location) :
    ∃ above, above <+: location ∧ above ≠ location ∧ text = spell above := by
  induction location generalizing text with
  | nil =>
    have hnil := prefix_nil.mp h
    exact absurd hnil (append_ne_nil_of_right_ne_nil _ (cons_ne_nil _ _))
  | cons component rest ih =>
    cases text with
    | nil => exact ⟨[], nil_prefix, (cons_ne_nil _ _).symm, rfl⟩
    | cons unit text =>
      rw [spell_cons, cons_append, cons_append] at h
      obtain ⟨rfl, hbody⟩ := cons_prefix_cons.mp h
      have hslash := (hproper component mem_cons_self).noSlash
      -- The component has no slash, so the text goes past it.
      obtain hshort | ⟨after, rfl⟩ : component.toList.length > text.length ∨
          component.toList <+: text := by
        obtain hle | hlt := Nat.lt_or_ge text.length component.toList.length
        · exact .inl hle
        · refine .inr (prefix_of_prefix_length_le (prefix_append _ (spell rest))
            ((prefix_append _ _).trans hbody) hlt)
      · have hmem : '/' ∈ component.toList := by
          have hcut : text ++ ['/'] <+: component.toList :=
            prefix_of_prefix_length_le hbody (prefix_append _ _)
              (by rw [length_append, length_singleton]; omega)
          exact hcut.subset (mem_append_cons_self)
        exact absurd hmem hslash
      · rw [append_assoc] at hbody
        obtain ⟨above, habove, hne, rfl⟩ := ih
          (fun other hother => hproper other (mem_cons_of_mem _ hother))
          ((prefix_append_right_inj _).mp hbody)
        exact ⟨component :: above, cons_prefix_cons.mpr ⟨rfl, habove⟩,
          fun heq => hne (List.cons.inj heq).2, rfl⟩

theorem spell_append (first second : Location) :
    spell (first ++ second) = spell first ++ spell second :=
  flatMap_append

/-- The spelling of what is above, with a slash, stands at the start. -/
theorem spell_prefix {above : Location} (habove : above <+: location) (hne : above ≠ location) :
    spell above ++ ['/'] <+: spell location := by
  obtain ⟨rest, rfl⟩ := habove
  cases rest with
  | nil => exact absurd (append_nil _).symm hne
  | cons component rest =>
    rw [spell_append, spell_cons, cons_append]
    exact prefix_append_right_inj _ |>.mpr (cons_prefix_cons.mpr ⟨rfl, nil_prefix⟩)

/-! ## Resolved paths -/

theorem properLocation_nil : ProperLocation [] := by simp [ProperLocation]

theorem mem_pathComponents {path : String} (h : component ∈ pathComponents path) :
    component.toList ≠ [] ∧ '/' ∉ component.toList := by
  obtain ⟨piece, hpiece, rfl⟩ := mem_map.mp h
  obtain ⟨hmem, hnonempty⟩ := mem_filter.mp hpiece
  rw [String.toList_ofList]
  exact ⟨of_decide_eq_true hnonempty, not_mem_of_mem_splitOn hmem⟩

theorem properLocation_descend (hlocation : ProperLocation location)
    (hnonempty : component.toList ≠ []) (hslash : '/' ∉ component.toList) :
    ProperLocation (descend location component) := by
  unfold descend
  split_ifs with hdot hdotdot
  · exact hlocation
  · exact fun other hother => hlocation other (mem_of_mem_dropLast hother)
  · intro other hother
    obtain hold | hnew := mem_append.mp hother
    · exact hlocation other hold
    · obtain rfl := mem_singleton.mp hnew
      exact ⟨hnonempty, hslash, hdot, hdotdot⟩

theorem properLocation_foldl (hlocation : ProperLocation location)
    (hcomponents : ∀ component ∈ components, component.toList ≠ [] ∧ '/' ∉ component.toList) :
    ProperLocation (components.foldl descend location) := by
  induction components generalizing location with
  | nil => exact hlocation
  | cons component rest ih =>
    obtain ⟨hnonempty, hslash⟩ := hcomponents component mem_cons_self
    exact ih (properLocation_descend hlocation hnonempty hslash)
      fun other hother => hcomponents other (mem_cons_of_mem _ hother)

/-- What a path leads to is proper. -/
theorem FileHost.properLocation_locate {host : FileHost} (hcwd : ProperLocation host.cwd)
    (path : String) : ProperLocation (host.locate path) := by
  refine properLocation_foldl ?_ fun component hcomponent => mem_pathComponents hcomponent
  split_ifs
  · exact properLocation_nil
  · exact hcwd

theorem foldl_descend {components : Location} (hcomponents : ProperLocation components) :
    components.foldl descend location = location ++ components := by
  induction components generalizing location with
  | nil => rw [foldl_nil, append_nil]
  | cons component rest ih =>
    have hproper := hcomponents component mem_cons_self
    rw [foldl_cons, ih fun other hother => hcomponents other (mem_cons_of_mem _ hother)]
    unfold descend
    rw [if_neg hproper.notDot, if_neg hproper.notDotDot, append_assoc, singleton_append]

/-! ## Reading spellings -/

/-- A component that a path can have: not empty and without a slash. -/
def PlainComponent (component : String) : Prop := component.toList ≠ [] ∧ '/' ∉ component.toList

theorem ProperComponent.plain (h : ProperComponent component) : PlainComponent component :=
  ⟨h.nonempty, h.noSlash⟩

/-- The components of a text. -/
def textComponents (text : List Char) : List String :=
  ((text.splitOn '/').filter (· ≠ [])).map String.ofList

theorem pathComponents_eq : pathComponents path = textComponents path.toList := rfl

@[simp]
theorem textComponents_nil : textComponents [] = [] := by decide

theorem textComponents_append_slash (first second : List Char) :
    textComponents (first ++ '/' :: second) = textComponents first ++ textComponents second := by
  unfold textComponents
  rw [splitOn_append_cons_self, filter_append, map_append]

theorem textComponents_of_plain (h : PlainComponent component) :
    textComponents component.toList = [component] := by
  unfold textComponents
  rw [splitOn_eq_singleton h.2, filter_singleton, decide_eq_true h.1, cond_true,
    map_singleton, String.ofList_toList]

theorem textComponents_append_spell (first : List Char)
    (hplain : ∀ component ∈ location, PlainComponent component) :
    textComponents (first ++ spell location) = textComponents first ++ location := by
  induction location generalizing first with
  | nil => rw [spell_nil, append_nil, append_nil]
  | cons component rest ih =>
    rw [spell_cons, cons_append, textComponents_append_slash,
      ih _ fun other hother => hplain other (mem_cons_of_mem _ hother),
      textComponents_of_plain (hplain component mem_cons_self), singleton_append]

theorem pathComponents_locationText (hplain : ∀ component ∈ location, PlainComponent component) :
    pathComponents (locationText location) = location := by
  rw [pathComponents_eq]
  cases location with
  | nil => decide
  | cons component rest =>
    rw [toList_locationText (cons_ne_nil _ _), ← nil_append (spell _),
      textComponents_append_spell [] hplain, textComponents_nil, nil_append]

theorem isAbsolute_locationText (location : Location) : isAbsolute (locationText location) := by
  unfold isAbsolute locationText
  rw [String.toList_append]
  rfl

/-- A location is what its text leads to. -/
theorem FileHost.locate_locationText (hproper : ProperLocation location) :
    host.locate (locationText location) = location := by
  unfold FileHost.locate
  rw [if_pos (isAbsolute_locationText location),
    pathComponents_locationText fun component hmem => (hproper component hmem).plain,
    foldl_descend hproper, nil_append]

theorem FileHost.resolve_eq (path : String) :
    host.resolve path = locationText (host.locate path) := rfl

/-! ## Joined paths -/

/-- Going along the components that a relative path is reduced to leads to the same place. -/
theorem foldl_descendRelative (components : List String) (start : Location)
    (hreduced : "." ∉ reduced) :
    (components.foldl descendRelative reduced).foldl descend start =
      components.foldl descend (reduced.foldl descend start) := by
  induction components generalizing reduced with
  | nil => rfl
  | cons component rest ih =>
    rw [foldl_cons, foldl_cons]
    by_cases hdot : component = "."
    · rw [show descendRelative reduced component = reduced from if_pos hdot, ih hreduced]
      unfold descend
      rw [if_pos hdot]
    by_cases hup : component = ".." ∧ reduced ≠ [] ∧ reduced.getLast? ≠ some ".."
    · obtain ⟨rfl, hne, hlast⟩ := hup
      have hdescend : descendRelative reduced ".." = reduced.dropLast := by
        unfold descendRelative
        rw [if_neg hdot, if_pos ⟨rfl, hne, hlast⟩]
      obtain ⟨front, last, rfl⟩ : ∃ front last, reduced = front ++ [last] :=
        ⟨_, _, (dropLast_append_getLast hne).symm⟩
      rw [getLast?_concat] at hlast
      rw [hdescend, dropLast_concat, ih fun hmem => hreduced (mem_append_left _ hmem), foldl_append]
      have hlastDot : last ≠ "." := by
        rintro rfl
        exact hreduced (mem_append_cons_self)
      have hproper : descend (front.foldl descend start) last =
          front.foldl descend start ++ [last] := by
        unfold descend
        rw [if_neg hlastDot, if_neg fun heq : last = ".." => hlast (congrArg some heq)]
      rw [foldl_cons, foldl_nil, hproper]
      unfold descend
      rw [if_neg hdot, if_pos rfl, dropLast_concat]
    · have hdescend : descendRelative reduced component = reduced ++ [component] := by
        unfold descendRelative
        rw [if_neg hdot, if_neg hup]
      rw [hdescend, ih ?_, foldl_append, foldl_cons, foldl_nil]
      intro hmem
      obtain hold | hnew := mem_append.mp hmem
      · exact hreduced hold
      · exact hdot (mem_singleton.mp hnew).symm

theorem mem_foldl_descendRelative (h : component ∈ components.foldl descendRelative reduced) :
    component ∈ reduced ∨ component ∈ components := by
  induction components generalizing reduced with
  | nil => exact .inl h
  | cons first rest ih =>
    obtain hreduced | hrest := ih h
    · unfold descendRelative at hreduced
      split_ifs at hreduced
      · exact .inl hreduced
      · exact .inl (mem_of_mem_dropLast hreduced)
      · obtain hold | hnew := mem_append.mp hreduced
        · exact .inl hold
        · exact .inr (mem_singleton.mp hnew ▸ mem_cons_self)
    · exact .inr (mem_cons_of_mem _ hrest)

/-- The text of components that are joined, and a slash behind it or not. -/
theorem textComponents_joined (hplain : ∀ component ∈ components, PlainComponent component)
    {trailing : String} (htrailing : trailing = "/" ∨ trailing = "") :
    textComponents ("/".intercalate components ++ trailing).toList = components := by
  have hjoined : textComponents ("/".intercalate components).toList = components := by
    cases components with
    | nil => decide
    | cons component rest =>
      have hspelled : ("/".intercalate (component :: rest)).toList =
          component.toList ++ spell rest := by
        have htext := toList_locationText (cons_ne_nil component rest)
        unfold locationText at htext
        rw [String.toList_append, spell_cons] at htext
        exact (List.cons.inj htext).2
      rw [hspelled, textComponents_append_spell _
        fun other hother => hplain other (mem_cons_of_mem _ hother),
        textComponents_of_plain (hplain component mem_cons_self), singleton_append]
  rw [String.toList_append]
  obtain rfl | rfl := htrailing
  · change textComponents (_ ++ '/' :: []) = _
    rw [textComponents_append_slash, hjoined, textComponents_nil, append_nil]
  · simpa using hjoined

theorem isAbsolute_joined (hplain : PlainComponent component) (rest : List String)
    (trailing : String) : isAbsolute ("/".intercalate (component :: rest) ++ trailing) = false := by
  unfold isAbsolute
  obtain ⟨unit, units, hunits⟩ := exists_cons_of_ne_nil hplain.1
  have htext := toList_locationText (cons_ne_nil component rest)
  unfold locationText at htext
  rw [String.toList_append, spell_cons] at htext
  have hjoined : ("/".intercalate (component :: rest)).toList =
      component.toList ++ spell rest := (List.cons.inj htext).2
  rw [String.toList_append, hjoined, hunits, cons_append, cons_append, head?_cons,
    decide_eq_false_iff_not]
  intro hslash
  exact hplain.2 (hunits ▸ Option.some.inj hslash ▸ mem_cons_self)

/-- `path.normalize` leads to the same place. -/
theorem FileHost.locate_normalizePath (path : String) :
    host.locate (normalizePath path) = host.locate path := by
  have hplain : ∀ component ∈ pathComponents path, PlainComponent component :=
    fun component hmem => mem_pathComponents hmem
  have htrailing := ite_eq_or_eq (path.toList.getLast? = some '/') "/" ""
  unfold normalizePath
  generalize (if path.toList.getLast? = some '/' then "/" else "") = trailing at htrailing ⊢
  by_cases habsolute : isAbsolute path
  · have hproper : ProperLocation ((pathComponents path).foldl descend []) :=
      properLocation_foldl properLocation_nil hplain
    rw [if_pos habsolute]
    unfold FileHost.locate
    rw [if_pos habsolute]
    generalize (pathComponents path).foldl descend [] = location at hproper ⊢
    cases location with
    | nil =>
      have hcomponents : pathComponents "/" = [] := by decide
      have hstarts : isAbsolute "/" := by decide
      rw [hcomponents, if_pos hstarts, foldl_nil]
    | cons component rest =>
      have htext : ("/" ++ "/".intercalate (component :: rest) ++ trailing).toList =
          [] ++ '/' :: ("/".intercalate (component :: rest) ++ trailing).toList := by
        rw [String.append_assoc, String.toList_append]
        rfl
      have hcomponents : pathComponents ("/" ++ "/".intercalate (component :: rest) ++
          trailing) = component :: rest := by
        rw [pathComponents_eq, htext, textComponents_append_slash, textComponents_nil, nil_append,
          textComponents_joined (fun other hother => (hproper other hother).plain) htrailing]
      have hstarts : isAbsolute ("/" ++ "/".intercalate (component :: rest) ++ trailing) =
          true := by
        unfold isAbsolute
        rw [htext]
        rfl
      rw [hcomponents, if_pos hstarts, foldl_descend hproper, nil_append]
  · rw [if_neg habsolute]
    have hsame := foldl_descendRelative (pathComponents path) host.cwd (not_mem_nil (a := "."))
    have hreduced : ∀ component ∈ (pathComponents path).foldl descendRelative [],
        PlainComponent component := fun component hmem =>
      hplain component ((mem_foldl_descendRelative hmem).resolve_left not_mem_nil)
    unfold FileHost.locate
    rw [if_neg habsolute]
    rw [foldl_nil] at hsame
    generalize (pathComponents path).foldl descendRelative [] = components at hsame hreduced ⊢
    cases components with
    | nil =>
      have hcomponents : pathComponents ("." ++ trailing) = ["."] := by
        obtain rfl | rfl := htrailing <;> decide
      have hstarts : isAbsolute ("." ++ trailing) = false := by
        obtain rfl | rfl := htrailing <;> decide
      rw [hcomponents, hstarts, if_neg Bool.false_ne_true, ← hsame]
      rfl
    | cons component rest =>
      rw [pathComponents_eq, textComponents_joined hreduced htrailing,
        isAbsolute_joined (hreduced component mem_cons_self), if_neg Bool.false_ne_true, hsame]

/-- A name joined to a path leads one component further. -/
theorem FileHost.locate_joinPaths (path : String) {name : String} (hname : ProperComponent name) :
    host.locate (joinPaths path name) = host.locate path ++ [name] := by
  have hdescend (location : Location) : descend location name = location ++ [name] := by
    unfold descend
    rw [if_neg hname.notDot, if_neg hname.notDotDot]
  have hnonempty : name ≠ "" := by
    rintro rfl
    exact hname.nonempty rfl
  unfold joinPaths
  by_cases hpath : path = ""
  · subst hpath
    have hsegments : (["", name].filter fun segment => segment ≠ "") = [name] := by simp [hnonempty]
    rw [hsegments]
    dsimp only
    rw [String.intercalate_singleton, host.locate_normalizePath]
    have habsolute : isAbsolute name = false := by
      have hjoined := isAbsolute_joined hname.plain [] ""
      rwa [String.intercalate_singleton, String.append_empty] at hjoined
    unfold FileHost.locate
    rw [habsolute, pathComponents_eq, textComponents_of_plain hname.plain,
      if_neg Bool.false_ne_true, foldl_cons, foldl_nil, hdescend]
    rfl
  · have hsegments : ([path, name].filter fun segment => segment ≠ "") = [path, name] := by
      simp [hpath, hnonempty]
    rw [hsegments]
    dsimp only
    rw [String.intercalate_cons_cons, String.intercalate_singleton, host.locate_normalizePath]
    have htext : (path ++ "/" ++ name).toList = path.toList ++ '/' :: name.toList := by
      rw [String.toList_append, String.toList_append, append_assoc]
      rfl
    have habsolute : isAbsolute (path ++ "/" ++ name) = isAbsolute path := by
      obtain ⟨unit, units, hunits⟩ := exists_cons_of_ne_nil
        (fun hnil => hpath (String.toList_eq_nil_iff.mp hnil) : path.toList ≠ [])
      unfold isAbsolute
      rw [htext, hunits, cons_append, head?_cons, head?_cons]
    unfold FileHost.locate
    rw [habsolute, pathComponents_eq, htext, textComponents_append_slash,
      textComponents_of_plain hname.plain, foldl_append, foldl_cons, foldl_nil,
      hdescend]
    rfl

end Nobie.Foundation
