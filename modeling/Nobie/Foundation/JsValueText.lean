/-
# The text of a JSON value

`JSON.stringify` lists the members of an object in the order of its own keys, the array
indices first. Two values whose keys are sorted at every depth have the same text only if
they are equal: the first character of a text tells what kind of value it is, an item or
member ends where a delimiter stands, and the order of own keys loses no member.
-/

import Nobie.Foundation.JsValue

namespace Nobie.Foundation

open List JsString

variable {rest : List Char} (value : JsonValue) {first second : JsonValue} (items : List JsonValue)
  (members : List (JsString × JsonValue))

namespace Json

/-- The exponent the way the host spells it, always with a sign. -/
def spellExponent : Option ℤ → List Char
  | none => []
  | some (.ofNat n) => 'e' :: '+' :: Nat.toDigits 10 n
  | some (.negSucc n) => 'e' :: '-' :: Nat.toDigits 10 (n + 1)

/-- `Number::toString`. -/
def spellNumber (number : Number) : List Char :=
  (if number.negative then ['-'] else []) ++ Nat.toDigits 10 number.whole ++
    printFraction number.fraction ++ spellExponent number.exponent

theorem parseExponent_spell (exponent : Option ℤ) (hrest : EndsNumber rest) :
    parseExponent (spellExponent exponent ++ rest) = some (exponent, rest) := by
  rcases exponent with _ | (n | n)
  · exact parseExponent_print none hrest
  · have hread := parseDigits_append Nat.toDigits_ne_nil (isDigit_of_mem_toDigits (n := n))
      hrest.endsDigits
    simp only [spellExponent, cons_append, parseExponent, parseExponentValue, hread]
    simp
  · exact parseExponent_print (some (.negSucc n)) hrest

theorem spellExponent_endsDigits (exponent : Option ℤ) (hrest : EndsNumber rest) :
    EndsDigits (spellExponent exponent ++ rest) ∧
      ∀ tail, spellExponent exponent ++ rest ≠ '.' :: tail := by
  rcases exponent with _ | (n | n)
  · exact printExponent_endsDigits none hrest
  · exact ⟨endsDigits_cons (by decide), fun tail heq => absurd (List.cons.inj heq).1 (by decide)⟩
  · exact printExponent_endsDigits (some (.negSucc n)) hrest

theorem parseNumber_spell (number : Number) (hrest : EndsNumber rest) :
    parseNumber (spellNumber number ++ rest) = some (number, rest) := by
  obtain ⟨hdigits, hpoint⟩ := spellExponent_endsDigits number.exponent hrest
  exact parseNumber_text number hdigits hpoint (parseExponent_spell _ hrest)

theorem spellNumber_head (number : Number) :
    ∃ c tail, spellNumber number = c :: tail ∧ (c = '-' ∨ c.isDigit) := by
  cases hnegative : number.negative with
  | true => exact ⟨'-', _, by simp [spellNumber, hnegative]; rfl, Or.inl rfl⟩
  | false =>
    obtain ⟨c, tail, hdigits, hc⟩ := toDigits_head number.whole
    exact ⟨c, _, by simp [spellNumber, hnegative, hdigits]; rfl, Or.inr hc⟩

end Json

namespace JsonValue

open Json (EndsNumber spellNumber parseNumber_spell)

/-! ## Texts -/

/-- The text of a list after its first element. -/
def tailText (close : Char) : List (List Char) → List Char
  | [] => [close]
  | text :: rest => ',' :: (text ++ tailText close rest)

/-- The texts of a list with commas between them, up to the closing bracket. -/
def listText (close : Char) : List (List Char) → List Char
  | [] => [close]
  | text :: rest => text ++ tailText close rest

def memberText (member : JsString × List Char) : List Char :=
  quote member.1 ++ ':' :: member.2

mutual

def text : JsonValue → List Char
  | .null => ['n', 'u', 'l', 'l']
  | .bool true => ['t', 'r', 'u', 'e']
  | .bool false => ['f', 'a', 'l', 's', 'e']
  | .number value => spellNumber value
  | .string value => quote value
  | .array items => '[' :: listText ']' (itemTexts items)
  | .object members =>
    '{' :: listText '}' ((ownKeyOrder arrayIndex? (memberTexts members)).map memberText)

def itemTexts : List JsonValue → List (List Char)
  | [] => []
  | item :: rest => text item :: itemTexts rest

def memberTexts : List (JsString × JsonValue) → List (JsString × List Char)
  | [] => []
  | (key, value) :: rest => (key, text value) :: memberTexts rest

end

/-- `JSON.stringify`. -/
def stringify (value : JsonValue) : String := String.ofList (text value)

theorem itemTexts_eq : itemTexts items = items.map text := by
  induction items with
  | nil => rfl
  | cons item rest ih => rw [itemTexts, ih, map_cons]

theorem memberTexts_eq :
    memberTexts members = members.map fun member => (member.1, text member.2) := by
  induction members with
  | nil => rfl
  | cons member rest ih =>
    obtain ⟨key, value⟩ := member
    rw [memberTexts, ih, map_cons]

theorem text_array : text (.array items) = '[' :: listText ']' (items.map text) := by
  rw [text, itemTexts_eq]

/-- The text of an object, member by member in the order of its own keys. -/
theorem text_object :
    text (.object members) =
      '{' :: listText '}' ((ownKeyOrder arrayIndex? members).map fun member =>
        memberText (member.1, text member.2)) := by
  rw [text, memberTexts_eq, ownKeyOrder_map arrayIndex? fun _ => text, map_map]
  rfl

/-! ## What a text begins with -/

inductive Kind
  | null | bool | number | string | array | object

def kind : JsonValue → Kind
  | .null => .null
  | .bool _ => .bool
  | .number _ => .number
  | .string _ => .string
  | .array _ => .array
  | .object _ => .object

/-- The kind of value a text begins with. -/
def headKind (c : Char) : Kind :=
  if c = 'n' then .null
  else if c = 't' ∨ c = 'f' then .bool
  else if c = '"' then .string
  else if c = '[' then .array
  else if c = '{' then .object
  else .number

theorem text_head :
    ∃ c tail, text value = c :: tail ∧ headKind c = value.kind ∧ c ≠ ']' ∧ c ≠ '}' := by
  cases value with
  | null => exact ⟨'n', _, by rw [text], rfl, by decide, by decide⟩
  | bool value =>
    cases value with
    | true => exact ⟨'t', _, by rw [text], rfl, by decide, by decide⟩
    | false => exact ⟨'f', _, by rw [text], rfl, by decide, by decide⟩
  | number value =>
    obtain ⟨c, tail, htext, hc⟩ := Json.spellNumber_head value
    have hne (d : Char) := @Json.numberHead_ne c d hc
    refine ⟨c, tail, by rw [text, htext], ?_, hne _ (by decide), hne _ (by decide)⟩
    simp [headKind, kind, hne 'n' (by decide), hne 't' (by decide), hne 'f' (by decide),
      hne '"' (by decide), hne '[' (by decide), hne '{' (by decide)]
  | string value => exact ⟨'"', _, by rw [text, quote], rfl, by decide, by decide⟩
  | array items => exact ⟨'[', _, by rw [text], rfl, by decide, by decide⟩
  | object members => exact ⟨'{', _, by rw [text], rfl, by decide, by decide⟩

/-! ## Lists -/

/-- The text of an element can be told from that of another, whatever delimiter ends it. -/
def ToldApart {Element : Type} (render : Element → List Char) (first second : Element) : Prop :=
  ∀ rest others, EndsNumber rest → EndsNumber others →
    render first ++ rest = render second ++ others → first = second ∧ rest = others

section Lists

variable {Element : Type} {render : Element → List Char} {close : Char}

theorem endsNumber_tailText (hclose : close = ']' ∨ close = '}') (texts : List (List Char))
    (rest : List Char) : EndsNumber (tailText close texts ++ rest) := by
  cases texts with
  | nil => exact Json.endsNumber_delimiter (.inr hclose)
  | cons text texts => exact Json.endsNumber_delimiter (.inl rfl)

theorem tailText_append (hclose : close = ']' ∨ close = '}') {first second : List Element}
    (hapart : ∀ element ∈ first, ∀ other ∈ second, ToldApart render element other)
    {rest others : List Char} (hsame : tailText close (first.map render) ++ rest =
      tailText close (second.map render) ++ others) : first = second ∧ rest = others := by
  have hcomma : close ≠ ',' := by obtain rfl | rfl := hclose <;> decide
  induction first generalizing second with
  | nil =>
    cases second with
    | nil => exact ⟨rfl, (List.cons.inj hsame).2⟩
    | cons other second => exact absurd (List.cons.inj hsame).1 hcomma
  | cons element first ih =>
    cases second with
    | nil => exact absurd (List.cons.inj hsame).1.symm hcomma
    | cons other second =>
      rw [map_cons, map_cons, tailText, tailText, cons_append,
        cons_append, append_assoc, append_assoc] at hsame
      have htail := (List.cons.inj hsame).2
      obtain ⟨rfl, hrest⟩ := hapart element mem_cons_self other mem_cons_self _ _
        (endsNumber_tailText hclose _ _) (endsNumber_tailText hclose _ _) htail
      obtain ⟨rfl, hothers⟩ := ih (fun element helement other hother => hapart element
        (mem_cons_of_mem _ helement) other (mem_cons_of_mem _ hother)) hrest
      exact ⟨rfl, hothers⟩

theorem listText_append (hclose : close = ']' ∨ close = '}') {first second : List Element}
    (hopen : ∀ element ∈ first ++ second, ∃ c tail, render element = c :: tail ∧ c ≠ close)
    (hapart : ∀ element ∈ first, ∀ other ∈ second, ToldApart render element other)
    {rest others : List Char} (hsame : listText close (first.map render) ++ rest =
      listText close (second.map render) ++ others) : first = second ∧ rest = others := by
  cases first with
  | nil =>
    cases second with
    | nil => exact ⟨rfl, (List.cons.inj hsame).2⟩
    | cons other second =>
      obtain ⟨c, tail, hother, hc⟩ := hopen other mem_cons_self
      rw [map_cons, listText, hother] at hsame
      exact absurd (List.cons.inj hsame).1.symm hc
  | cons element first =>
    cases second with
    | nil =>
      obtain ⟨c, tail, helement, hc⟩ := hopen element mem_cons_self
      rw [map_cons, listText, helement] at hsame
      exact absurd (List.cons.inj hsame).1 hc
    | cons other second =>
      rw [map_cons, map_cons, listText, listText, append_assoc, append_assoc] at hsame
      obtain ⟨rfl, hrest⟩ := hapart element mem_cons_self other mem_cons_self _ _
        (endsNumber_tailText hclose _ _) (endsNumber_tailText hclose _ _) hsame
      obtain ⟨rfl, hothers⟩ := tailText_append hclose (fun element helement other hother =>
        hapart element (mem_cons_of_mem _ helement) other (mem_cons_of_mem _ hother)) hrest
      exact ⟨rfl, hothers⟩

end Lists

/-! ## Listings -/

mutual

/-- The text that lists members where they stand. -/
def listing : JsonValue → List Char
  | .null => ['n', 'u', 'l', 'l']
  | .bool true => ['t', 'r', 'u', 'e']
  | .bool false => ['f', 'a', 'l', 's', 'e']
  | .number value => spellNumber value
  | .string value => quote value
  | .array items => '[' :: listText ']' (itemListings items)
  | .object members => '{' :: listText '}' (memberListings members)

def itemListings : List JsonValue → List (List Char)
  | [] => []
  | item :: rest => listing item :: itemListings rest

def memberListings : List (JsString × JsonValue) → List (List Char)
  | [] => []
  | (key, value) :: rest => memberText (key, listing value) :: memberListings rest

/-- The value with the members of its objects put in an order, at every depth. -/
def arranged (order : List (JsString × JsonValue) → List (JsString × JsonValue)) :
    JsonValue → JsonValue
  | .null => .null
  | .bool value => .bool value
  | .number value => .number value
  | .string value => .string value
  | .array items => .array (arrangedItems order items)
  | .object members => .object (order (arrangedMembers order members))

def arrangedItems (order : List (JsString × JsonValue) → List (JsString × JsonValue)) :
    List JsonValue → List JsonValue
  | [] => []
  | item :: rest => arranged order item :: arrangedItems order rest

def arrangedMembers (order : List (JsString × JsonValue) → List (JsString × JsonValue)) :
    List (JsString × JsonValue) → List (JsString × JsonValue)
  | [] => []
  | (key, value) :: rest => (key, arranged order value) :: arrangedMembers order rest

end

theorem listing_array : listing (.array items) = '[' :: listText ']' (items.map listing) := by
  have hitems : itemListings items = items.map listing := by
    induction items with
    | nil => rfl
    | cons item rest ih => rw [itemListings, ih, map_cons]
  rw [listing, hitems]

theorem listing_object :
    listing (.object members) =
      '{' :: listText '}' (members.map fun member => memberText (member.1, listing member.2)) := by
  have hmembers : memberListings members =
      members.map fun member => memberText (member.1, listing member.2) := by
    induction members with
    | nil => rfl
    | cons member rest ih =>
      obtain ⟨key, value⟩ := member
      rw [memberListings, ih, map_cons]
  rw [listing, hmembers]

section Arranged

variable {order : List (JsString × JsonValue) → List (JsString × JsonValue)}

theorem arranged_array : arranged order (.array items) = .array (items.map (arranged order)) := by
  have hitems : arrangedItems order items = items.map (arranged order) := by
    induction items with
    | nil => rfl
    | cons item rest ih => rw [arrangedItems, ih, map_cons]
  rw [arranged, hitems]

theorem arranged_object :
    arranged order (.object members) =
      .object (order (members.map fun member => (member.1, arranged order member.2))) := by
  have hmembers : arrangedMembers order members =
      members.map fun member => (member.1, arranged order member.2) := by
    induction members with
    | nil => rfl
    | cons member rest ih =>
      obtain ⟨key, value⟩ := member
      rw [arrangedMembers, ih, map_cons]
  rw [arranged, hmembers]

/-- An order that keeps the members changes a value only up to the order of keys. -/
theorem arranged_same (horder : ∀ members, (order members).Perm members) {value : JsonValue}
    (hproper : SameUpToKeyOrder value value) : SameUpToKeyOrder (arranged order value) value := by
  induction value using JsonValue.inductionOn with
  | null => rw [arranged]; exact .null
  | bool value => rw [arranged]; exact .bool value
  | number value => rw [arranged]; exact .number value
  | string value => rw [arranged]; exact .string value
  | array items ih =>
    cases hproper with
    | array _ hitems =>
      rw [arranged_array]
      refine .array (length_map _) fun index item other hitem hother => ?_
      rw [getElem?_map, hother] at hitem
      cases hitem
      exact ih other (mem_of_getElem? hother) (hitems index other other hother hother)
  | object members ih =>
    cases hproper with
    | object hdistinct _ hvalues =>
      have hperm := horder (members.map fun member => (member.1, arranged order member.2))
      have hkeys : ((order (members.map fun member =>
          (member.1, arranged order member.2))).map Prod.fst).Perm (members.map Prod.fst) := by
        refine (hperm.map Prod.fst).trans ?_
        rw [map_map]
        exact .refl _
      rw [arranged_object]
      refine .object (hkeys.nodup_iff.mpr hdistinct) hkeys fun key value other hvalue hother => ?_
      obtain ⟨⟨_, found⟩, hfound, hpair⟩ := mem_map.mp (hperm.subset hvalue)
      cases hpair
      obtain rfl : found = other :=
        congrArg Prod.snd (inj_on_of_nodup_map hdistinct hfound hother rfl)
      exact ih _ hfound (hvalues _ found found hfound hfound)

end Arranged

/-- A text lists the members in the order of own keys. -/
theorem text_eq_listing :
    text value = listing (arranged (ownKeyOrder arrayIndex?) value) := by
  induction value using JsonValue.inductionOn with
  | null | number | string => rw [text, arranged, listing]
  | bool value => cases value <;> rw [text, arranged, listing]
  | array items ih =>
    rw [text_array, arranged_array, listing_array, map_map]
    refine congrArg (fun texts => '[' :: listText ']' texts) (map_congr_left ?_)
    exact fun item hitem => ih item hitem
  | object members ih =>
    rw [text_object, arranged_object, listing_object,
      ownKeyOrder_map arrayIndex? fun _ => arranged (ownKeyOrder arrayIndex?),
      map_map]
    refine congrArg (fun texts => '{' :: listText '}' texts) (map_congr_left ?_)
    intro member hmember
    exact congrArg (fun value => memberText (member.1, value))
      (ih member ((ownKeyOrder_perm _ members).subset hmember))

/-! ## Listings can be told apart -/

theorem listing_head :
    ∃ c tail, listing value = c :: tail ∧ headKind c = value.kind ∧ c ≠ ']' ∧ c ≠ '}' := by
  have hhead := text_head value
  cases value with
  | array items => exact ⟨'[', _, by rw [listing], rfl, by decide, by decide⟩
  | object members => exact ⟨'{', _, by rw [listing], rfl, by decide, by decide⟩
  | bool value => cases value <;> simpa only [listing, text] using hhead
  | _ => simpa only [listing, text] using hhead

theorem kind_eq_of_listing {others : List Char}
    (hsame : listing first ++ rest = listing second ++ others) : first.kind = second.kind := by
  obtain ⟨c, tail, hfirst, hc, -⟩ := listing_head first
  obtain ⟨d, tail', hsecond, hd, -⟩ := listing_head second
  rw [hfirst, hsecond, cons_append, cons_append] at hsame
  rw [← hc, ← hd, (List.cons.inj hsame).1]

theorem toldApart_member {member other : JsString × JsonValue}
    (hvalues : ToldApart listing member.2 other.2) :
    ToldApart (fun member => memberText (member.1, listing member.2)) member other := by
  intro rest others hrest hothers hsame
  dsimp only [memberText] at hsame
  rw [append_assoc, append_assoc] at hsame
  obtain ⟨hkey, htail⟩ := quote_append hsame
  obtain ⟨hvalue, hends⟩ := hvalues rest others hrest hothers (List.cons.inj htail).2
  exact ⟨Prod.ext hkey hvalue, hends⟩

/-- A value is determined by its listing. -/
theorem toldApart_listing (first second : JsonValue) : ToldApart listing first second := by
  intro rest others hrest hothers hsame
  have hkind := kind_eq_of_listing hsame
  induction first using JsonValue.inductionOn generalizing second rest others with
  | null =>
    cases second <;> cases hkind
    exact ⟨rfl, append_cancel_left hsame⟩
  | bool value =>
    cases second <;> cases hkind
    case refl other =>
      cases value <;> cases other
      · exact ⟨rfl, append_cancel_left hsame⟩
      · exact absurd (List.cons.inj hsame).1 (by decide)
      · exact absurd (List.cons.inj hsame).1 (by decide)
      · exact ⟨rfl, append_cancel_left hsame⟩
  | number value =>
    cases second <;> cases hkind
    case refl other =>
      have hread := congrArg Json.parseNumber hsame
      rw [listing, listing, parseNumber_spell value hrest, parseNumber_spell other hothers] at hread
      cases Option.some.inj hread
      exact ⟨rfl, rfl⟩
  | string value =>
    cases second <;> cases hkind
    case refl other =>
      rw [listing, listing] at hsame
      obtain ⟨rfl, hends⟩ := quote_append hsame
      exact ⟨rfl, hends⟩
  | array items ih =>
    cases second <;> cases hkind
    case refl listed =>
      rw [listing_array, listing_array, cons_append, cons_append] at hsame
      have hopen : ∀ item ∈ items ++ listed, ∃ c tail, listing item = c :: tail ∧ c ≠ ']' := by
        intro item _
        obtain ⟨c, tail, htext, -, hc, -⟩ := listing_head item
        exact ⟨c, tail, htext, hc⟩
      have hapart : ∀ item ∈ items, ∀ other ∈ listed, ToldApart listing item other :=
        fun item hitem other _ rest others hrest hothers hsame =>
          ih item hitem other rest others hrest hothers hsame (kind_eq_of_listing hsame)
      obtain ⟨rfl, hends⟩ := listText_append (.inl rfl) hopen hapart (List.cons.inj hsame).2
      exact ⟨rfl, hends⟩
  | object members ih =>
    cases second <;> cases hkind
    case refl listed =>
      rw [listing_object, listing_object, cons_append, cons_append] at hsame
      have hopen : ∀ member ∈ members ++ listed,
          ∃ c tail, memberText (member.1, listing member.2) = c :: tail ∧ c ≠ '}' :=
        fun member _ => ⟨'"', _, rfl, by decide⟩
      have hapart : ∀ member ∈ members, ∀ other ∈ listed,
          ToldApart (fun member => memberText (member.1, listing member.2)) member other :=
        fun member hmember other _ => toldApart_member fun rest others hrest hothers hsame =>
          ih member hmember other.2 rest others hrest hothers hsame (kind_eq_of_listing hsame)
      obtain ⟨rfl, hends⟩ := listText_append (.inr rfl) hopen hapart (List.cons.inj hsame).2
      exact ⟨rfl, hends⟩

theorem listing_injective : Function.Injective listing := by
  intro first second hsame
  exact (toldApart_listing first second [] [] Json.endsNumber_nil Json.endsNumber_nil
    (by rw [hsame])).1

/-! ## Texts of sorted values -/

theorem KeySorted.proper {value : JsonValue} (hsorted : KeySorted value) :
    SameUpToKeyOrder value value := by
  induction hsorted with
  | null => exact .null
  | bool value => exact .bool value
  | number value => exact .number value
  | string value => exact .string value
  | array _ ih =>
    exact .array rfl fun index item other hitem hother => by
      cases hitem.symm.trans hother
      exact ih item (mem_of_getElem? hitem)
  | object hkeys _ ih =>
    have hdistinct := hkeys.imp fun hlt => ne_of_lt hlt
    refine .object hdistinct .rfl fun key value other hvalue hother => ?_
    obtain rfl : value = other :=
      congrArg Prod.snd (inj_on_of_nodup_map hdistinct hvalue hother rfl)
    exact ih (key, value) hvalue

/-- Values whose keys are sorted at every depth are determined by their texts. -/
theorem eq_of_stringify_eq (hfirst : KeySorted first) (hsecond : KeySorted second)
    (hsame : stringify first = stringify second) : first = second := by
  have htexts : text first = text second := String.ofList_injective hsame
  rw [text_eq_listing, text_eq_listing] at htexts
  have horder := ownKeyOrder_perm (V := JsonValue) arrayIndex?
  have hkept := arranged_same horder hfirst.proper
  rw [listing_injective htexts] at hkept
  exact (hkept.symm.trans (arranged_same horder hsecond.proper)).eq_of_keySorted hfirst hsecond

end JsonValue

end Nobie.Foundation
