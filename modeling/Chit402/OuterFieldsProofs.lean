import Chit402.ReceiptClaimProofs
import Mathlib.Data.List.Lex

/-! # Every field of the outer document is accounted for

    A receipt shows more than its signature covers.  Two walks sort the fields
    out: `diffOuterClaims` goes down the signed claims and reports the outer
    copies that differ, `unsignedOuterFields` goes down the document and lists
    the paths no claim covers.  A path that neither of them names, and whose
    value the claims do not hold, would be read as signed. -/

namespace OuterFields

open JsonValue ReceiptClaim
open JsText (lowered)

/-! ## The second walk -/

/-- The parts of an object in the order of its sorted keys. -/
def byKey (parts : List (String × List String)) : List String :=
  (parts.mergeSort fun a b => codeUnits a.1 ≤ codeUnits b.1).flatMap Prod.snd

mutual

/-- `pushUnsignedLeaves` -/
def pushUnsignedLeaves (value : Json) (path : String) : List String :=
  match value with
  | .obj [] => [path]
  | .obj (field :: fields) => byKey (pushUnsignedFields (field :: fields) path)
  | _ => [path]

def pushUnsignedFields (fields : List (String × Json)) (path : String) : List (String × List String) :=
  match fields with
  | [] => []
  | (key, value) :: rest =>
    (key, pushUnsignedLeaves value (path ++ "." ++ key)) :: pushUnsignedFields rest path

end

/-- The path of `key` below `above`. -/
def joinPath (above key : String) : String := if above = "" then key else above ++ "." ++ key

mutual

/-- `collectUnsigned`, the call on an outer value: two objects are walked,
    anything else is left to the comparison of the claims. -/
def collectUnsigned (outer signed : Json) (above : String) : List String :=
  match outer, signed with
  | .obj fields, .obj claims => byKey (collectUnsignedFields fields (some claims) above)
  | _, _ => []

/-- The loop over the outer keys.  The signature container is the credential
    that was checked, not an unsigned claim. -/
def collectUnsignedFields (fields : List (String × Json)) (signed : Option Obj) (above : String) :
    List (String × List String) :=
  match fields with
  | [] => []
  | (key, value) :: rest =>
    let path := joinPath above key
    let here :=
      if above = "" && key = "issuer_signature" then []
      else match signed.bind fun claims => get? claims key with
        | none => pushUnsignedLeaves value path
        | some claim =>
          if path = "schema" then pushUnsignedLeaves value path
          else collectUnsigned value claim path
    (key, here) :: collectUnsignedFields rest signed above

end

/-- `unsignedOuterFields` -/
def unsignedOuterFields (receipt : Obj) (claims : Option Obj) : List String :=
  byKey (collectUnsignedFields receipt claims "")

/-! ## Paths of a document -/

/-- The value at a path of keys. -/
def valueAt : Json → List String → Option Json
  | value, [] => some value
  | .obj fields, key :: rest => (get? fields key).bind fun value => valueAt value rest
  | _, _ :: _ => none

/-- A scalar, an array or an empty object. -/
def isLeaf : Json → Bool
  | .obj fields => fields.isEmpty
  | _ => true

/-- The text both walks build for a path of keys. -/
def pathFrom (above : String) (keys : List String) : String := keys.foldl joinPath above

mutual

/-- `p` holds of every object the walks can reach. -/
def everyObject (p : Obj → Bool) : Json → Bool
  | .obj fields => p fields && everyField p fields
  | _ => true

def everyField (p : Obj → Bool) : List (String × Json) → Bool
  | [] => true
  | (_, value) :: rest => everyObject p value && everyField p rest

end

/-- `JSON.parse` keeps one value a key. -/
def uniqueKeys : Json → Bool := everyObject fun fields => decide (fields.map Prod.fst).Nodup

/-- A key that a path text shows as itself: not empty, and without a dot. -/
def plainKey (key : String) : Bool := key ≠ "" && !key.toList.contains '.'

def plainKeys : Json → Bool := everyObject fun fields => fields.all fun field => plainKey field.1

/-- Equal up to the letter case of 0x hex; two arrays are equal when their
    JSON texts are. -/
def SameValue (signed outer : Json) : Prop :=
  match signed, outer with
  | .null, .null => True
  | .bool s, .bool o => s = o
  | .num s, .num o => s = o
  | .str s, .str o => s = o ∨ (isHexText s ∧ isHexText o ∧ lowered s = lowered o)
  | .arr s, .arr o => stringify (.arr s) = stringify (.arr o)
  | .obj s, .obj o => s = [] ∧ o = []
  | _, _ => False

def LeafAt (receipt : Obj) (path : List String) (value : Json) : Prop :=
  valueAt (.obj receipt) path = some value ∧ isLeaf value ∧ path ≠ []

/-- `signed` has an equal value at the path. -/
def Held (signed : Json) (path : List String) (value : Json) : Prop :=
  ∃ s, valueAt signed path = some s ∧ SameValue s value

/-- The claims hold an equal value at the same path. -/
def Covered (claims : Obj) (path : List String) (value : Json) : Prop := Held (.obj claims) path value

/-- A mismatch is reported at the path or above it. -/
def Reported (receipt claims : Obj) (path : List String) : Prop :=
  ∃ mismatch ∈ diffOuterClaims receipt (some claims),
    ∃ above, above ≠ [] ∧ above <+: path ∧ mismatch.field = pathFrom "" above

/-- The path is named as one the signature does not cover. -/
def Listed (receipt claims : Obj) (path : List String) : Prop :=
  pathFrom "" path ∈ unsignedOuterFields receipt (some claims)

/-! ## Objects and their keys -/

variable {m : ClaimMismatch} {found leaf outer signed : Json} {fields : List (String × Json)}
  {keys rest : List String} {copies : Obj} {p : Obj → Bool} {above key s x : String}

theorem mem_of_get? {fields : Obj} {value : Json} (h : get? fields key = some value) : (key, value) ∈ fields := by
  obtain ⟨before, after, heq, -⟩ := List.lookup_eq_some_iff.mp h
  simp [heq]

theorem get?_of_mem {fields : Obj} (hunique : (fields.map Prod.fst).Nodup) {value : Json} (h : (key, value) ∈ fields) :
    get? fields key = some value := by
  obtain ⟨before, after, rfl⟩ := List.append_of_mem h
  refine List.lookup_eq_some_iff.mpr ⟨before, after, rfl, ?_⟩
  intro field hfield
  simp only [List.map_append, List.map_cons, List.nodup_append, List.mem_map] at hunique
  exact bne_iff_ne.mpr fun heq => hunique.2.2 field.1 ⟨field, hfield, rfl⟩ key (by simp) heq.symm

theorem everyField_iff : everyField p fields = true ↔ ∀ field ∈ fields, everyObject p field.2 = true := by
  induction fields with
  | nil => simp [everyField]
  | cons field rest ih => simp [everyField, ih]

theorem everyObject_obj {fields : Obj} : everyObject p (.obj fields) = true ↔
      p fields = true ∧ ∀ field ∈ fields, everyObject p field.2 = true := by
  rw [everyObject, Bool.and_eq_true, everyField_iff]

theorem everyObject_get? {fields : Obj} {value : Json} (h : everyObject p (.obj fields) = true)
    (hget : get? fields key = some value) : everyObject p value = true :=
  (everyObject_obj.mp h).2 (key, value) (mem_of_get? hget)

theorem uniqueKeys_nodup {fields : Obj} (h : uniqueKeys (.obj fields) = true) : (fields.map Prod.fst).Nodup := by
  simpa using (everyObject_obj.mp h).1

theorem plainKeys_key {fields : Obj} {value : Json} (h : plainKeys (.obj fields) = true)
    (hget : get? fields key = some value) : plainKey key = true := by
  have hall := (everyObject_obj.mp h).1
  exact List.all_eq_true.mp hall (key, value) (mem_of_get? hget)

theorem mem_iff_get? {fields : Obj} (h : uniqueKeys (.obj fields) = true) {value : Json} :
    (key, value) ∈ fields ↔ get? fields key = some value := by
  constructor
  case mp => exact get?_of_mem (uniqueKeys_nodup h)
  case mpr => exact mem_of_get?

/-! ## Path texts -/

theorem plainKey_ne (h : plainKey key = true) : key ≠ "" := by
  intro heq
  simp [plainKey, heq] at h

@[simp] theorem pathFrom_nil (above : String) : pathFrom above [] = above := rfl

@[simp] theorem pathFrom_cons (above key : String) (keys : List String) :
    pathFrom above (key :: keys) = pathFrom (joinPath above key) keys := rfl

@[simp] theorem joinPath_empty (key : String) : joinPath "" key = key := rfl

theorem joinPath_of_ne (h : above ≠ "") (key : String) : joinPath above key = above ++ "." ++ key := if_neg h

theorem joinPath_ne (h : above ≠ "" ∨ key ≠ "") : joinPath above key ≠ "" := by
  unfold joinPath
  split
  case isTrue habove => exact h.resolve_left (not_not.mpr habove)
  case isFalse habove => simp [habove]

theorem pathFrom_eq_intercalate (habove : above ≠ "") (keys : List String) :
    pathFrom above keys = ".".intercalate (above :: keys) := by
  induction keys generalizing above with
  | nil => simp
  | cons key rest ih =>
    rw [pathFrom_cons, ih (joinPath_ne (Or.inl habove)), joinPath_of_ne habove]
    cases rest with
    | nil => simp [String.intercalate_cons_cons]
    | cons next rest => simp [String.intercalate_cons_cons, String.append_assoc]

theorem pathFrom_top (hkeys : ∀ key ∈ keys, plainKey key = true) : pathFrom "" keys = ".".intercalate keys := by
  cases keys with
  | nil => rfl
  | cons key rest =>
    rw [pathFrom_cons, joinPath_empty]
    exact pathFrom_eq_intercalate (plainKey_ne (hkeys key (by simp))) rest

/-- Two paths of plain keys with one text are one path. -/
theorem pathFrom_inj {others : List String} (hkeys : ∀ key ∈ keys, plainKey key = true)
    (hothers : ∀ key ∈ others, plainKey key = true) (hne : keys ≠ []) (hne' : others ≠ [])
    (h : pathFrom "" keys = pathFrom "" others) : keys = others := by
  have hdots : ∀ l : List String, (∀ key ∈ l, plainKey key = true) → ∀ key ∈ l, '.' ∉ key.toList := by
    intro l hl key hkey
    have hplain := hl key hkey
    simp only [plainKey, Bool.and_eq_true, Bool.not_eq_true', List.contains_eq_mem, decide_eq_false_iff_not] at hplain
    exact hplain.2
  rw [pathFrom_top hkeys, pathFrom_top hothers] at h
  have hleft := String.toList_split_intercalate (hdots keys hkeys)
  have hright := String.toList_split_intercalate (hdots others hothers)
  rw [if_neg hne] at hleft
  rw [if_neg hne'] at hright
  have hdot : String.singleton '.' = "." := rfl
  rw [hdot] at hleft hright
  rw [← hleft, ← hright, h]

/-! ## The value at a path -/

@[simp] theorem valueAt_nil (value : Json) : valueAt value [] = some value := by
  cases value <;> rfl

theorem valueAt_cons {value : Json} : valueAt value (key :: rest) = some found ↔
      ∃ fields child, value = .obj fields ∧ get? fields key = some child ∧ valueAt child rest = some found := by
  constructor
  case mp =>
    intro h
    match value, h with
    | .obj fields, h =>
      obtain ⟨child, hget, hrest⟩ := Option.bind_eq_some_iff.mp h
      exact ⟨fields, child, rfl, hget, hrest⟩
  case mpr =>
    rintro ⟨fields, child, rfl, hget, hrest⟩
    exact Option.bind_eq_some_iff.mpr ⟨child, hget, hrest⟩

def bothObjects : Json → Json → Bool
  | .obj _, .obj _ => true
  | _, _ => false

/-- The comparison reports the pair: not two objects, and not the same leaf. -/
def differs (signed outer : Json) : Bool := !bothObjects signed outer && !sameLeaf signed outer

/-- Both documents have the path, and the comparison stops there with a report. -/
def Differs (signed outer : Json) (path : List String) : Prop :=
  ∃ s o, valueAt signed path = some s ∧ valueAt outer path = some o ∧ differs s o = true

/-- The path runs out of the claims: some object on it has no such key. -/
def Missing (signed : Json) : List String → Prop
  | [] => False
  | key :: rest => ∃ claims, signed = .obj claims ∧
      (get? claims key = none ∨ ∃ claim, get? claims key = some claim ∧ Missing claim rest)

theorem differs_nil : Differs signed outer [] ↔ differs signed outer = true := by
  simp [Differs]

theorem differs_cons : Differs signed outer (key :: rest) ↔
      ∃ claims copies claim copy, signed = .obj claims ∧ outer = .obj copies ∧
        get? claims key = some claim ∧ get? copies key = some copy ∧ Differs claim copy rest := by
  constructor
  case mp =>
    rintro ⟨s, o, hs, ho, hdiff⟩
    obtain ⟨claims, claim, rfl, hclaim, hs⟩ := valueAt_cons.mp hs
    obtain ⟨copies, copy, rfl, hcopy, ho⟩ := valueAt_cons.mp ho
    exact ⟨claims, copies, claim, copy, rfl, rfl, hclaim, hcopy, s, o, hs, ho, hdiff⟩
  case mpr =>
    rintro ⟨claims, copies, claim, copy, rfl, rfl, hclaim, hcopy, s, o, hs, ho, hdiff⟩
    exact ⟨s, o, valueAt_cons.mpr ⟨_, _, rfl, hclaim, hs⟩, valueAt_cons.mpr ⟨_, _, rfl, hcopy, ho⟩, hdiff⟩

/-! ## What the comparison reports -/

theorem mem_compareSignedFields {outer : Obj} : m ∈ compareSignedFields fields outer above ↔
      ∃ key claim copy, (key, claim) ∈ fields ∧ get? outer key = some copy ∧
        joinPath above key ≠ "schema" ∧ m ∈ compareSignedNode claim copy (joinPath above key) := by
  induction fields with
  | nil => simp [compareSignedFields]
  | cons field rest ih =>
    obtain ⟨key, claim⟩ := field
    rw [compareSignedFields, List.mem_append, ih]
    constructor
    case mp =>
      rintro (h | ⟨key', claim', copy, hmem, h⟩)
      · change m ∈ (if joinPath above key = "schema" then [] else _) at h
        split at h
        · exact absurd h (List.not_mem_nil)
        · split at h
          · exact absurd h (List.not_mem_nil)
          · exact ⟨key, claim, _, by simp, by assumption, by assumption, h⟩
      · exact ⟨key', claim', copy, List.mem_cons_of_mem _ hmem, h⟩
    case mpr =>
      rintro ⟨key', claim', copy, hmem, hcopy, hschema, h⟩
      rcases List.mem_cons.mp hmem with heq | hmem
      · obtain ⟨rfl, rfl⟩ := Prod.mk.injEq _ _ _ _ ▸ heq
        left
        change m ∈ (if joinPath above key' = "schema" then [] else _)
        rw [if_neg hschema, hcopy]
        exact h
      · exact Or.inr ⟨key', claim', copy, hmem, hcopy, hschema, h⟩

theorem bothObjects_iff :
    bothObjects signed outer = true ↔ ∃ claims copies, signed = .obj claims ∧ outer = .obj copies := by
  constructor
  case mp =>
    intro h
    match signed, outer, h with
    | .obj claims, .obj copies, _ => exact ⟨claims, copies, rfl, rfl⟩
  case mpr =>
    rintro ⟨claims, copies, rfl, rfl⟩
    rfl

theorem compareSignedNode_leaf (h : bothObjects signed outer = false) (path : String) :
    compareSignedNode signed outer path =
      if differs signed outer then [⟨path, formatClaim (some outer), formatClaim (some signed)⟩] else [] := by
  unfold compareSignedNode
  split
  · exact absurd h (by simp [bothObjects])
  · cases hsame : sameLeaf signed outer <;> simp [differs, h, hsame]

theorem joinPath_ne_schema (h : above ≠ "") (key : String) : joinPath above key ≠ "schema" := by
  intro heq
  have hdot : '.' ∈ (joinPath above key).toList := by simp [joinPath_of_ne h]
  rw [heq] at hdot
  exact absurd hdot (by decide)

/-- The fields reported below a pair are the paths at which the two differ. -/
theorem field_mem_compareSignedNode (signed outer : Json) {path x : String}
    (hunique : uniqueKeys signed = true) (hpath : path ≠ "") :
    (∃ m ∈ compareSignedNode signed outer path, m.field = x) ↔ ∃ q, Differs signed outer q ∧ x = pathFrom path q := by
  cases hboth : bothObjects signed outer with
  | false =>
    rw [compareSignedNode_leaf hboth]
    constructor
    case mp =>
      rintro ⟨m, hm, rfl⟩
      split at hm
      case isTrue hdiff => exact ⟨[], differs_nil.mpr hdiff, by simp [List.mem_singleton.mp hm]⟩
      case isFalse => exact absurd hm List.not_mem_nil
    case mpr =>
      rintro ⟨q, hq, rfl⟩
      cases q with
      | nil => simp [differs_nil.mp hq]
      | cons key rest =>
        obtain ⟨claims, copies, -, -, hs, ho, -⟩ := differs_cons.mp hq
        rw [bothObjects_iff.mpr ⟨claims, copies, hs, ho⟩] at hboth
        exact absurd hboth Bool.true_eq_false_eq_False
  | true =>
    obtain ⟨fields, copies, hs, ho⟩ := bothObjects_iff.mp hboth
    have below : ∀ {key : String} {claim copy : Json}, get? fields key = some claim →
        ((∃ m ∈ compareSignedNode claim copy (joinPath path key), m.field = x) ↔
          ∃ q, Differs claim copy q ∧ x = pathFrom (joinPath path key) q) := by
      intro key claim copy hclaim
      have hmem := mem_of_get? hclaim
      exact field_mem_compareSignedNode claim copy (everyObject_get? (hs ▸ hunique) hclaim)
        (joinPath_ne (Or.inl hpath))
    rw [hs] at hunique ⊢
    rw [ho, compareSignedNode]
    constructor
    case mp =>
      rintro ⟨m, hm, rfl⟩
      obtain ⟨key, claim, copy, hclaim, hcopy, -, hm⟩ := mem_compareSignedFields.mp hm
      rw [mem_iff_get? hunique] at hclaim
      obtain ⟨q, hq, hx⟩ := (below hclaim).mp ⟨m, hm, rfl⟩
      exact ⟨key :: q, differs_cons.mpr ⟨_, _, claim, copy, rfl, rfl, hclaim, hcopy, hq⟩, hx⟩
    case mpr =>
      rintro ⟨q, hq, rfl⟩
      cases q with
      | nil => exact absurd (differs_nil.mp hq) Bool.false_ne_true
      | cons key rest =>
        obtain ⟨_, _, claim, copy, heq, heq', hclaim, hcopy, hq⟩ := differs_cons.mp hq
        cases heq
        cases heq'
        obtain ⟨m, hm, hfield⟩ := (below hclaim).mpr ⟨rest, hq, rfl⟩
        exact ⟨m, mem_compareSignedFields.mpr
          ⟨key, claim, copy, mem_of_get? hclaim, hcopy, joinPath_ne_schema hpath key, hm⟩, hfield⟩
  termination_by sizeOf signed
  decreasing_by
    have hsize := List.sizeOf_lt_of_mem hmem
    simp [hs] at hsize ⊢
    omega

/-! ## What is listed as unsigned -/

theorem mem_byKey {parts : List (String × List String)} : x ∈ byKey parts ↔ ∃ part ∈ parts, x ∈ part.2 := by
  simp [byKey, List.mem_flatMap, List.mem_mergeSort]

theorem mem_pushUnsignedFields {path : String} {part : String × List String} : part ∈ pushUnsignedFields fields path ↔
      ∃ key value, (key, value) ∈ fields ∧ part = (key, pushUnsignedLeaves value (path ++ "." ++ key)) := by
  induction fields with
  | nil => simp [pushUnsignedFields]
  | cons field rest ih =>
    obtain ⟨key, value⟩ := field
    rw [pushUnsignedFields, List.mem_cons, ih]
    constructor
    case mp =>
      rintro (rfl | ⟨key', value', hmem, rfl⟩)
      · exact ⟨key, value, by simp, rfl⟩
      · exact ⟨key', value', List.mem_cons_of_mem _ hmem, rfl⟩
    case mpr =>
      rintro ⟨key', value', hmem, rfl⟩
      rcases List.mem_cons.mp hmem with heq | hmem
      · cases heq
        exact Or.inl rfl
      · exact Or.inr ⟨key', value', hmem, rfl⟩

theorem pushUnsignedLeaves_leaf {value : Json} (h : isLeaf value = true) (path : String) :
    pushUnsignedLeaves value path = [path] := by
  unfold pushUnsignedLeaves
  split
  · rfl
  · cases h
  · rfl

theorem obj_of_not_leaf {value : Json} (h : isLeaf value = false) : ∃ field fields, value = .obj (field :: fields) := by
  match value, h with
  | .obj (field :: fields), _ => exact ⟨field, fields, rfl⟩

/-- A leaf has no path below it. -/
theorem valueAt_leaf {value : Json} (h : isLeaf value = true) {path : List String} :
    valueAt value path = some found ↔ path = [] ∧ value = found := by
  cases path with
  | nil => simp
  | cons key rest =>
    constructor
    case mp =>
      intro hfound
      obtain ⟨fields, child, rfl, hget, -⟩ := valueAt_cons.mp hfound
      rw [isLeaf, List.isEmpty_iff] at h
      subst h
      exact absurd hget (by simp [get?])
    case mpr => exact fun hnil => absurd hnil.1 (List.cons_ne_nil _ _)

theorem mem_pushUnsignedLeaves (value : Json) {path x : String} (hunique : uniqueKeys value = true)
    (hpath : path ≠ "") : x ∈ pushUnsignedLeaves value path ↔
      ∃ q leaf, valueAt value q = some leaf ∧ isLeaf leaf = true ∧ x = pathFrom path q := by
  cases hleaf : isLeaf value with
  | true =>
    rw [pushUnsignedLeaves_leaf hleaf, List.mem_singleton]
    constructor
    case mp =>
      rintro rfl
      exact ⟨[], value, valueAt_nil value, hleaf, rfl⟩
    case mpr =>
      rintro ⟨q, leaf, hfound, -, rfl⟩
      obtain ⟨rfl, -⟩ := (valueAt_leaf hleaf).mp hfound
      rfl
  | false =>
    obtain ⟨field, fields, hobj⟩ := obj_of_not_leaf hleaf
    have below : ∀ {key : String} {child : Json}, get? (field :: fields) key = some child →
        (x ∈ pushUnsignedLeaves child (joinPath path key) ↔
          ∃ q leaf, valueAt child q = some leaf ∧ isLeaf leaf = true ∧ x = pathFrom (joinPath path key) q) := by
      intro key child hchild
      have hmem := mem_of_get? hchild
      exact mem_pushUnsignedLeaves child (everyObject_get? (hobj ▸ hunique) hchild) (joinPath_ne (Or.inl hpath))
    rw [hobj] at hunique ⊢
    rw [pushUnsignedLeaves, mem_byKey]
    constructor
    case mp =>
      rintro ⟨part, hpart, hx⟩
      obtain ⟨key, child, hchild, rfl⟩ := mem_pushUnsignedFields.mp hpart
      rw [mem_iff_get? hunique] at hchild
      rw [← joinPath_of_ne hpath] at hx
      obtain ⟨q, leaf, hfound, hleaf', rfl⟩ := (below hchild).mp hx
      exact ⟨key :: q, leaf, valueAt_cons.mpr ⟨_, child, rfl, hchild, hfound⟩, hleaf', rfl⟩
    case mpr =>
      rintro ⟨q, leaf, hfound, hleaf', rfl⟩
      cases q with
      | nil =>
        rw [valueAt_nil, Option.some.injEq] at hfound
        rw [← hfound] at hleaf'
        cases hleaf'
      | cons key rest =>
        obtain ⟨_, child, heq, hchild, hfound⟩ := valueAt_cons.mp hfound
        cases heq
        refine ⟨(key, pushUnsignedLeaves child (path ++ "." ++ key)), ?_, ?_⟩
        · exact mem_pushUnsignedFields.mpr ⟨key, child, mem_of_get? hchild, rfl⟩
        · rw [← joinPath_of_ne hpath]
          exact (below hchild).mpr ⟨rest, leaf, hfound, hleaf', rfl⟩
  termination_by sizeOf value
  decreasing_by
    have hsize := List.sizeOf_lt_of_mem hmem
    simp [hobj] at hsize ⊢
    omega

/-- One outer key: skipped, pushed whole, or walked against its claim. -/
theorem mem_collectUnsignedFields {claims : Obj} :
    (∃ part ∈ collectUnsignedFields fields (some claims) above, x ∈ part.2) ↔
      ∃ key value, (key, value) ∈ fields ∧ ¬(above = "" ∧ key = "issuer_signature") ∧
        ((get? claims key = none ∨ joinPath above key = "schema") ∧ x ∈ pushUnsignedLeaves value (joinPath above key) ∨
          ∃ claim, get? claims key = some claim ∧ joinPath above key ≠ "schema" ∧
            x ∈ collectUnsigned value claim (joinPath above key)) := by
  induction fields with
  | nil => simp [collectUnsignedFields]
  | cons field rest ih =>
    obtain ⟨key, value⟩ := field
    rw [collectUnsignedFields]
    simp only [List.mem_cons, exists_eq_or_imp, ih, Option.bind_some, Prod.mk.injEq]
    have here : x ∈ (if (decide (above = "") && decide (key = "issuer_signature")) = true then []
          else match get? claims key with
            | none => pushUnsignedLeaves value (joinPath above key)
            | some claim =>
              if joinPath above key = "schema" then pushUnsignedLeaves value (joinPath above key)
              else collectUnsigned value claim (joinPath above key)) ↔
        ¬(above = "" ∧ key = "issuer_signature") ∧
        ((get? claims key = none ∨ joinPath above key = "schema") ∧
            x ∈ pushUnsignedLeaves value (joinPath above key) ∨
          ∃ claim, get? claims key = some claim ∧ joinPath above key ≠ "schema" ∧
            x ∈ collectUnsigned value claim (joinPath above key)) := by
      by_cases hskip : above = "" ∧ key = "issuer_signature"
      · simp [hskip]
      · rw [if_neg (by simpa using hskip)]
        cases hclaim : get? claims key with
        | none => simp [hskip]
        | some claim => by_cases hschema : joinPath above key = "schema" <;> simp [hskip, hschema]
    rw [here]
    constructor
    case mp =>
      rintro (h | ⟨key', value', hmem, h⟩)
      · exact ⟨key, value, Or.inl ⟨rfl, rfl⟩, h⟩
      · exact ⟨key', value', Or.inr hmem, h⟩
    case mpr =>
      rintro ⟨key', value', ⟨rfl, rfl⟩ | hmem, h⟩
      · exact Or.inl h
      · exact Or.inr ⟨key', value', hmem, h⟩

theorem missing_cons {claims : Obj} : Missing (.obj claims) (key :: rest) ↔
      get? claims key = none ∨ ∃ claim, get? claims key = some claim ∧ Missing claim rest := by
  simp [Missing]

/-- Below the top, the walk lists the leaves whose path runs out of the claims. -/
theorem mem_collectUnsigned (outer signed : Json) {above x : String} (hunique : uniqueKeys outer = true)
    (habove : above ≠ "") : x ∈ collectUnsigned outer signed above ↔
      ∃ q leaf, valueAt outer q = some leaf ∧ isLeaf leaf = true ∧ Missing signed q ∧ x = pathFrom above q := by
  cases hboth : bothObjects outer signed with
  | false =>
    have hempty : collectUnsigned outer signed above = [] := by
      unfold collectUnsigned
      split
      · exact absurd hboth (by simp [bothObjects])
      · rfl
    rw [hempty]
    constructor
    case mp => exact fun h => absurd h List.not_mem_nil
    case mpr =>
      rintro ⟨q, leaf, hfound, -, hmissing, -⟩
      cases q with
      | nil => exact hmissing.elim
      | cons key rest =>
        obtain ⟨fields, -, ho, -⟩ := valueAt_cons.mp hfound
        obtain ⟨claims, hs, -⟩ := hmissing
        rw [bothObjects_iff.mpr ⟨fields, claims, ho, hs⟩] at hboth
        exact absurd hboth (by decide)
  | true =>
    obtain ⟨fields, claims, ho, hs⟩ := bothObjects_iff.mp hboth
    have below : ∀ {key : String} {child : Json} (claim : Json), get? fields key = some child →
        (x ∈ collectUnsigned child claim (joinPath above key) ↔ ∃ q leaf, valueAt child q = some leaf ∧
          isLeaf leaf = true ∧ Missing claim q ∧ x = pathFrom (joinPath above key) q) := by
      intro key child claim hchild
      have hmem := mem_of_get? hchild
      exact mem_collectUnsigned child claim (everyObject_get? (ho ▸ hunique) hchild) (joinPath_ne (Or.inl habove))
    rw [ho] at hunique ⊢
    rw [hs, collectUnsigned, mem_byKey, mem_collectUnsignedFields]
    constructor
    case mp =>
      rintro ⟨key, child, hchild, -, h⟩
      rw [mem_iff_get? hunique] at hchild
      rcases h with ⟨hnone, hx⟩ | ⟨claim, hclaim, -, hx⟩
      · have hnone := hnone.resolve_right (joinPath_ne_schema habove key)
        obtain ⟨q, leaf, hfound, hleaf, rfl⟩ := (mem_pushUnsignedLeaves child
          (everyObject_get? hunique hchild) (joinPath_ne (Or.inl habove))).mp hx
        exact ⟨key :: q, leaf, valueAt_cons.mpr ⟨_, child, rfl, hchild, hfound⟩, hleaf,
          missing_cons.mpr (Or.inl hnone), rfl⟩
      · obtain ⟨q, leaf, hfound, hleaf, hmissing, rfl⟩ := (below claim hchild).mp hx
        exact ⟨key :: q, leaf, valueAt_cons.mpr ⟨_, child, rfl, hchild, hfound⟩, hleaf,
          missing_cons.mpr (Or.inr ⟨claim, hclaim, hmissing⟩), rfl⟩
    case mpr =>
      rintro ⟨q, leaf, hfound, hleaf, hmissing, rfl⟩
      cases q with
      | nil => exact hmissing.elim
      | cons key rest =>
        obtain ⟨_, child, heq, hchild, hfound⟩ := valueAt_cons.mp hfound
        cases heq
        refine ⟨key, child, mem_of_get? hchild, fun h => habove h.1, ?_⟩
        rcases missing_cons.mp hmissing with hnone | ⟨claim, hclaim, hmissing⟩
        · refine Or.inl ⟨Or.inl hnone, ?_⟩
          exact (mem_pushUnsignedLeaves child (everyObject_get? hunique hchild) (joinPath_ne (Or.inl habove))).mpr
            ⟨rest, leaf, hfound, hleaf, rfl⟩
        · exact Or.inr ⟨claim, hclaim, joinPath_ne_schema habove key,
            (below claim hchild).mpr ⟨rest, leaf, hfound, hleaf, hmissing, rfl⟩⟩
  termination_by sizeOf outer
  decreasing_by
    have hsize := List.sizeOf_lt_of_mem hmem
    simp [ho] at hsize ⊢
    omega

/-! ## Two leaves are the same when their values are -/

theorem bracket_not_mem_num (n : JsonValue.Num) : '[' ∉ n.text.toList := by
  have hdigits : ∀ k : ℕ, '[' ∉ Nat.toDigits 10 k := fun k h =>
    absurd (Nat.isDigit_of_mem_toDigits (by decide) (by decide) h) (by decide)
  cases n with
  | negZero => decide
  | infinity neg => cases neg <;> decide
  | finite neg digits exp =>
    have hs := hdigits digits
    have htake : ∀ k, '[' ∉ (Nat.toDigits 10 digits).take k := fun k h => hs (List.mem_of_mem_take h)
    have hdrop : ∀ k, '[' ∉ (Nat.toDigits 10 digits).drop k := fun k h => hs (List.mem_of_mem_drop h)
    simp only [Num.text, String.toList_ofList, List.mem_append, not_or]
    constructor
    · cases neg <;> simp
    · split_ifs
      · simp
      · simp [hs]
      · simp [htake, hdrop]
      · simp [hs]
      -- the two forms with an exponent, for one digit and for several
      · split <;> simp_all
      · split <;> simp_all

theorem isArray_of_text {value : Json} (h : (stringify value).toList.head? = some '[') : isArray value = true := by
  cases value with
  | arr items => rfl
  | null => exact absurd h (by decide)
  | bool b => cases b <;> exact absurd h (by decide)
  | str s => simp [stringify, quoteWith] at h
  | obj fields => simp [stringify] at h
  | num n =>
    rw [stringify] at h
    split at h
    · exact absurd (List.mem_of_mem_head? h) (bracket_not_mem_num n)
    · exact absurd h (by decide)

theorem text_of_isArray {value : Json} (h : isArray value = true) : (stringify value).toList.head? = some '[' := by
  match value, h with
  | .arr items, _ => simp [stringify]

theorem sameLeaf_of_array (h : (isArray signed || isArray outer) = true) :
    sameLeaf signed outer = true ↔ stringify signed = stringify outer := by
  unfold sameLeaf
  rw [if_pos h, decide_eq_true_eq]

theorem sameLeaf_str {o : String} :
    sameLeaf (.str s) (.str o) = true ↔ s = o ∨ (isHexText s ∧ isHexText o ∧ lowered s = lowered o) := by
  simp only [sameLeaf, isArray, Bool.or_self, Bool.false_eq_true, if_false]
  split
  case isTrue h =>
    rw [Bool.and_eq_true] at h
    simp only [decide_eq_true_eq, h.1, h.2, true_and]
    constructor
    case mp => exact Or.inr
    case mpr =>
      rintro (rfl | hlower)
      · rfl
      · exact hlower
  case isFalse h =>
    rw [Bool.and_eq_true] at h
    simp only [decide_eq_true_eq]
    constructor
    case mp => exact Or.inl
    case mpr => exact fun hsame => hsame.resolve_right fun hhex => h ⟨hhex.1, hhex.2.1⟩

/-- The comparison of a pair that is not two objects is equality of values. -/
theorem sameLeaf_iff (h : bothObjects signed outer = false) :
    sameLeaf signed outer = true ↔ SameValue signed outer := by
  cases harray : isArray signed || isArray outer with
  | true =>
    rw [sameLeaf_of_array harray]
    constructor
    case mp =>
      intro htext
      have hboth : isArray signed = true ∧ isArray outer = true := by
        rcases Bool.or_eq_true_iff.mp harray with hs | ho
        · exact ⟨hs, isArray_of_text (htext ▸ text_of_isArray hs)⟩
        · exact ⟨isArray_of_text (htext ▸ text_of_isArray ho), ho⟩
      match signed, outer, hboth with
      | .arr s, .arr o, _ => exact htext
    case mpr =>
      intro hsame
      cases signed with
      | arr items => cases outer <;> first | exact hsame | exact hsame.elim
      | _ => cases outer <;> first | exact hsame.elim | cases harray
  | false =>
    cases signed with
    | str s =>
      cases outer with
      | str o => exact sameLeaf_str
      | arr items => cases harray
      | _ => simp [sameLeaf, SameValue, isArray]
    | arr items => cases harray
    | obj fields =>
      cases outer with
      | obj copies => cases h
      | arr items => cases harray
      | _ => simp [sameLeaf, SameValue, isArray]
    | _ => cases outer <;> first | cases harray; done | simp [sameLeaf, SameValue, isArray]

/-! ## The classes of a leaf -/

/-- The comparison stops with a report at the path or above it. -/
def DiffersAbove (signed outer : Json) (path : List String) : Prop :=
  ∃ q, q <+: path ∧ Differs signed outer q

/-- The document has an empty object where the claims have one with fields. -/
def FacesFields (signed : Json) (path : List String) (value : Json) : Prop :=
  ∃ field fields, valueAt signed path = some (.obj (field :: fields)) ∧ value = .obj []

def ExactlyOne (a b c : Prop) : Prop := (a ∧ ¬b ∧ ¬c) ∨ (¬a ∧ b ∧ ¬c) ∨ (¬a ∧ ¬b ∧ c)

theorem differsAbove_nil : DiffersAbove signed outer [] ↔ differs signed outer = true := by
  simp [DiffersAbove, differs_nil]

theorem differsAbove_cons {claims : Obj} : DiffersAbove (.obj claims) (.obj copies) (key :: rest) ↔
      ∃ claim copy, get? claims key = some claim ∧ get? copies key = some copy ∧ DiffersAbove claim copy rest := by
  constructor
  case mp =>
    rintro ⟨q, hupto, hdiff⟩
    cases q with
    | nil => exact absurd (differs_nil.mp hdiff) Bool.false_ne_true
    | cons key' q =>
      obtain ⟨rfl, hbelow⟩ := List.cons_prefix_cons.mp hupto
      obtain ⟨_, _, claim, copy, heq, heq', hclaim, hcopy, hdiff⟩ := differs_cons.mp hdiff
      cases heq
      cases heq'
      exact ⟨claim, copy, hclaim, hcopy, q, hbelow, hdiff⟩
  case mpr =>
    rintro ⟨claim, copy, hclaim, hcopy, q, hupto, hdiff⟩
    exact ⟨key :: q, List.cons_prefix_cons.mpr ⟨rfl, hupto⟩,
      differs_cons.mpr ⟨_, _, claim, copy, rfl, rfl, hclaim, hcopy, hdiff⟩⟩

/-- A claim that is no object differs from every object it is compared with. -/
theorem differs_of_obj (h : ∀ claims, signed ≠ .obj claims) : differs signed (.obj copies) = true := by
  have hboth : bothObjects signed (.obj copies) = false := by
    rw [Bool.eq_false_iff]
    intro hboth
    obtain ⟨claims, -, hs, -⟩ := bothObjects_iff.mp hboth
    exact h claims hs
  have hnot : ¬SameValue signed (.obj copies) := by
    intro hsame
    cases signed with
    | obj claims => exact h claims rfl
    | _ => exact hsame
  rw [← sameLeaf_iff hboth, Bool.not_eq_true] at hnot
  simp [differs, hboth, hnot]

/-- At the end of the path, the claim there is the leaf's, differs from it, or
    has fields where the leaf is an empty object. -/
theorem leaf_class_nil (signed : Json) (hleaf : isLeaf leaf = true) : FacesFields signed [] leaf ∨
      ExactlyOne (Held signed [] leaf) (DiffersAbove signed leaf []) (Missing signed []) := by
  have hheld : Held signed [] leaf ↔ SameValue signed leaf := by simp [Held]
  rw [hheld, differsAbove_nil]
  cases hboth : bothObjects signed leaf with
  | false =>
    right
    have hmissing : ¬Missing signed [] := id
    by_cases hsame : SameValue signed leaf
    · have hdiff : differs signed leaf = false := by simp [differs, (sameLeaf_iff hboth).mpr hsame]
      exact Or.inl ⟨hsame, by simp [hdiff], hmissing⟩
    · have hdiff : differs signed leaf = true := by
        rw [← sameLeaf_iff hboth, Bool.not_eq_true] at hsame
        simp [differs, hboth, hsame]
      exact Or.inr (Or.inl ⟨hsame, hdiff, hmissing⟩)
  | true =>
    obtain ⟨claims, copies, rfl, rfl⟩ := bothObjects_iff.mp hboth
    rw [isLeaf, List.isEmpty_iff] at hleaf
    subst hleaf
    cases claims with
    | nil => exact Or.inr (Or.inl ⟨⟨rfl, rfl⟩, Bool.false_ne_true, id⟩)
    | cons field fields => exact Or.inl ⟨field, fields, rfl, rfl⟩

/-- A leaf is held by the claims, reported, or out of their reach: one of the
    three, unless it is an empty object facing fields. -/
theorem leaf_class (signed outer : Json) {path : List String} (hfound : valueAt outer path = some leaf)
    (hleaf : isLeaf leaf = true) : FacesFields signed path leaf ∨
      ExactlyOne (Held signed path leaf) (DiffersAbove signed outer path) (Missing signed path) := by
  induction path generalizing signed outer with
  | nil =>
    rw [valueAt_nil, Option.some.injEq] at hfound
    subst hfound
    exact leaf_class_nil signed hleaf
  | cons key rest ih =>
    obtain ⟨copies, copy, rfl, hcopy, hfound⟩ := valueAt_cons.mp hfound
    by_cases hobj : ∃ claims, signed = .obj claims
    · obtain ⟨claims, rfl⟩ := hobj
      have hvalue : ∀ {s}, valueAt (.obj claims) (key :: rest) = some s ↔
          ∃ claim, get? claims key = some claim ∧ valueAt claim rest = some s := by
        simp [valueAt_cons]
      cases hclaim : get? claims key with
      | none =>
        refine Or.inr (Or.inr (Or.inr ⟨?_, ?_, missing_cons.mpr (Or.inl hclaim)⟩))
        · rintro ⟨s, hs, -⟩
          obtain ⟨claim, hsome, -⟩ := hvalue.mp hs
          exact absurd (hclaim.symm.trans hsome) (by simp)
        · intro hdiff
          obtain ⟨claim, -, hsome, -⟩ := differsAbove_cons.mp hdiff
          exact absurd (hclaim.symm.trans hsome) (by simp)
      | some claim =>
        have hvalue' : valueAt (.obj claims) (key :: rest) = valueAt claim rest := by simp [valueAt, hclaim]
        have hheld : Held (.obj claims) (key :: rest) leaf ↔ Held claim rest leaf := by rw [Held, hvalue', Held]
        have hdiff : DiffersAbove (.obj claims) (.obj copies) (key :: rest) ↔ DiffersAbove claim copy rest := by
          simp [differsAbove_cons, hclaim, hcopy]
        have hmissing : Missing (.obj claims) (key :: rest) ↔ Missing claim rest := by
          simp [missing_cons, hclaim]
        rw [hheld, hdiff, hmissing, FacesFields, hvalue']
        exact ih claim copy hfound
    · -- the report stands at this object, above the leaf
      have hno : ∀ claims, signed ≠ .obj claims := fun claims heq => hobj ⟨claims, heq⟩
      refine Or.inr (Or.inr (Or.inl ⟨?_, ⟨[], List.nil_prefix, differs_nil.mpr (differs_of_obj hno)⟩, ?_⟩))
      · rintro ⟨s, hs, -⟩
        obtain ⟨claims, -, heq, -⟩ := valueAt_cons.mp hs
        exact hno claims heq
      · rintro ⟨claims, heq, -⟩
        exact hno claims heq

/-! ## Both walks from the top -/

theorem plain_of_valueAt {value : Json} {path : List String} (h : plainKeys value = true)
    (hfound : valueAt value path = some found) : ∀ key ∈ path, plainKey key = true := by
  induction path generalizing value with
  | nil => simp
  | cons key rest ih =>
    obtain ⟨fields, child, rfl, hget, hfound⟩ := valueAt_cons.mp hfound
    intro key' hmem
    rcases List.mem_cons.mp hmem with rfl | hmem
    · exact plainKeys_key h hget
    · exact ih (everyObject_get? h hget) hfound key' hmem

section Top

variable {receipt claims : Obj} {path : List String} {value : Json}
  (hplain : plainKeys (.obj receipt) = true) (hreceipt : uniqueKeys (.obj receipt) = true)
  (hclaims : uniqueKeys (.obj claims) = true)

/-- The claims sign no receipt id, and the document's is not the signed task's. -/
def MisnamesReceipt (receipt claims : Obj) : Prop :=
  hasOwn claims "receipt_id" = false ∧ hasOwn receipt "receipt_id" = true ∧
    ∃ id, signedReceiptId claims = some id ∧ get? receipt "receipt_id" ≠ some (.str id)

theorem asString_eq_some {found : Option Json} : asString found = some s ↔ found = some (.str s) := by
  cases found with
  | none => simp [asString]
  | some value => cases value <;> simp [asString]

theorem mem_diffOuterClaims : m ∈ diffOuterClaims receipt (some claims) ↔ m ∈ compareSignedFields claims receipt "" ∨
      hasOwn claims "receipt_id" = false ∧ hasOwn receipt "receipt_id" = true ∧
        ∃ id, signedReceiptId claims = some id ∧ get? receipt "receipt_id" ≠ some (.str id) ∧
          m = ⟨"receipt_id", formatClaim (get? receipt "receipt_id"), some id⟩ := by
  rw [diffOuterClaims, List.mem_append]
  refine or_congr Iff.rfl ?_
  cases hown : hasOwn claims "receipt_id" with
  | true => simp
  | false =>
    cases hnamed : hasOwn receipt "receipt_id" with
    | false => simp
    | true =>
      cases hid : signedReceiptId claims with
      | none => simp
      | some id =>
        by_cases hsame : asString (get? receipt "receipt_id") = some id
        · simp [asString_eq_some.mp hsame, asString]
        · have hne : get? receipt "receipt_id" ≠ some (.str id) := fun heq => hsame (asString_eq_some.mpr heq)
          simp [hsame, hne]

include hplain hclaims in
/-- What is reported above a leaf. -/
theorem reported_iff (hfound : valueAt (.obj receipt) (key :: rest) = some value) :
    Reported receipt claims (key :: rest) ↔ key ≠ "schema" ∧ DiffersAbove (.obj claims) (.obj receipt) (key :: rest) ∨
        key = "receipt_id" ∧ MisnamesReceipt receipt claims := by
  have hkeys := plain_of_valueAt hplain hfound
  constructor
  case mp =>
    rintro ⟨m, hm, q, hne, hupto, hfield⟩
    have hq : ∀ k ∈ q, plainKey k = true := fun k hk => hkeys k (hupto.subset hk)
    rcases mem_diffOuterClaims.mp hm with hm | ⟨hown, hnamed, id, hid, hdiff, rfl⟩
    · obtain ⟨top, claim, copy, hclaim, hcopy, hschema, hm⟩ := mem_compareSignedFields.mp hm
      rw [mem_iff_get? hclaims] at hclaim
      have htop := plainKeys_key hplain hcopy
      obtain ⟨below, hbelow, hx⟩ := (field_mem_compareSignedNode claim copy
        (everyObject_get? hclaims hclaim) (plainKey_ne htop)).mp ⟨m, hm, rfl⟩
      obtain ⟨s, o, hs, ho, hdiffers⟩ := hbelow
      have hplain' : ∀ k ∈ top :: below, plainKey k = true :=
        plain_of_valueAt hplain (valueAt_cons.mpr ⟨_, copy, rfl, hcopy, ho⟩)
      obtain rfl : top :: below = q := pathFrom_inj hplain' hq (by simp) hne (hx.symm.trans hfield)
      obtain ⟨rfl, -⟩ := List.cons_prefix_cons.mp hupto
      exact Or.inl ⟨hschema, top :: below, hupto,
        differs_cons.mpr ⟨_, _, claim, copy, rfl, rfl, hclaim, hcopy, s, o, hs, ho, hdiffers⟩⟩
    · obtain rfl : ["receipt_id"] = q := pathFrom_inj (by simp; decide) hq (by simp) hne hfield
      obtain ⟨rfl, -⟩ := List.cons_prefix_cons.mp hupto
      exact Or.inr ⟨rfl, hown, hnamed, id, hid, hdiff⟩
  case mpr =>
    rintro (⟨hschema, q, hupto, hdiff⟩ | ⟨rfl, hown, hnamed, id, hid, hdiff⟩)
    · cases q with
      | nil => exact absurd (differs_nil.mp hdiff) Bool.false_ne_true
      | cons top below =>
        obtain ⟨rfl, -⟩ := List.cons_prefix_cons.mp hupto
        obtain ⟨_, _, claim, copy, heq, heq', hclaim, hcopy, hbelow⟩ := differs_cons.mp hdiff
        cases heq
        cases heq'
        obtain ⟨m, hm, hfield⟩ := (field_mem_compareSignedNode claim copy (everyObject_get? hclaims hclaim)
          (plainKey_ne (plainKeys_key hplain hcopy))).mpr ⟨below, hbelow, rfl⟩
        refine ⟨m, mem_diffOuterClaims.mpr (Or.inl ?_), top :: below, by simp, hupto, hfield⟩
        exact mem_compareSignedFields.mpr ⟨top, claim, copy, mem_of_get? hclaim, hcopy, hschema, hm⟩
    · exact ⟨_, mem_diffOuterClaims.mpr (Or.inr ⟨hown, hnamed, id, hid, hdiff, rfl⟩), ["receipt_id"], by simp,
        List.cons_prefix_cons.mpr ⟨rfl, List.nil_prefix⟩, rfl⟩

include hplain hreceipt in
theorem listed_iff (hfound : valueAt (.obj receipt) (key :: rest) = some value) (hleaf : isLeaf value = true)
    (hsig : key ≠ "issuer_signature") :
    Listed receipt claims (key :: rest) ↔ key = "schema" ∨ Missing (.obj claims) (key :: rest) := by
  have hkeys := plain_of_valueAt hplain hfound
  rw [Listed, unsignedOuterFields, mem_byKey, mem_collectUnsignedFields, missing_cons]
  constructor
  case mp =>
    rintro ⟨top, child, hchild, -, h⟩
    rw [mem_iff_get? hreceipt] at hchild
    have htop := plainKey_ne (plainKeys_key hplain hchild)
    have hunique := everyObject_get? hreceipt hchild
    have same : ∀ {q leaf}, valueAt child q = some leaf →
        pathFrom "" (key :: rest) = pathFrom (joinPath "" top) q → key :: rest = top :: q := by
      intro q leaf hq htext
      refine pathFrom_inj hkeys ?_ (by simp) (by simp) htext
      exact plain_of_valueAt hplain (valueAt_cons.mpr ⟨_, child, rfl, hchild, hq⟩)
    rcases h with ⟨hnone, hx⟩ | ⟨claim, hclaim, -, hx⟩
    · obtain ⟨q, leaf, hq, -, htext⟩ := (mem_pushUnsignedLeaves child hunique htop).mp hx
      cases same hq htext
      exact hnone.symm.imp_right Or.inl
    · obtain ⟨q, leaf, hq, -, hmissing, htext⟩ := (mem_collectUnsigned child claim hunique htop).mp hx
      cases same hq htext
      exact Or.inr (Or.inr ⟨claim, hclaim, hmissing⟩)
  case mpr =>
    intro h
    obtain ⟨_, child, heq, hchild, hfound⟩ := valueAt_cons.mp hfound
    cases heq
    have htop := plainKey_ne (plainKeys_key hplain hchild)
    have hunique := everyObject_get? hreceipt hchild
    have pushed : pathFrom "" (key :: rest) ∈ pushUnsignedLeaves child (joinPath "" key) :=
      (mem_pushUnsignedLeaves child hunique htop).mpr ⟨rest, value, hfound, hleaf, rfl⟩
    refine ⟨key, child, mem_of_get? hchild, fun hskip => hsig hskip.2, ?_⟩
    rcases h with hschema | hnone | ⟨claim, hclaim, hmissing⟩
    · exact Or.inl ⟨Or.inr hschema, pushed⟩
    · exact Or.inl ⟨Or.inl hnone, pushed⟩
    · by_cases hschema : joinPath "" key = "schema"
      · exact Or.inl ⟨Or.inr hschema, pushed⟩
      · refine Or.inr ⟨claim, hclaim, hschema, ?_⟩
        exact (mem_collectUnsigned child claim hunique htop).mpr ⟨rest, value, hfound, hleaf, hmissing, rfl⟩

end Top

/-! ## The classes of the outer leaves -/

/-- Every leaf outside the signature container is covered, reported or listed,
    and only one of the three, where the document's keys show in their path
    texts.  The document's own `schema` is always listed.  A receipt id the
    claims do not sign is listed too, and reported as well when it is not the
    signed task's. -/
theorem outer_leaf_classes {receipt claims : Obj} {path : List String} {value : Json}
    (hplain : plainKeys (.obj receipt) = true) (hreceipt : uniqueKeys (.obj receipt) = true)
    (hclaims : uniqueKeys (.obj claims) = true) (hleaf : LeafAt receipt path value)
    (hsig : path.head? ≠ some "issuer_signature") :
    (path.head? = some "schema" → Listed receipt claims path ∧ ¬Reported receipt claims path) ∧
    (path.head? = some "receipt_id" → hasOwn claims "receipt_id" = false →
      Listed receipt claims path ∧ ¬Covered claims path value ∧ (Reported receipt claims path ↔
          ∃ id, signedReceiptId claims = some id ∧ get? receipt "receipt_id" ≠ some (.str id))) ∧
    (path.head? ≠ some "schema" → (path.head? = some "receipt_id" → hasOwn claims "receipt_id" = true) →
      ¬FacesFields (.obj claims) path value →
      ExactlyOne (Covered claims path value) (Reported receipt claims path) (Listed receipt claims path)) := by
  obtain ⟨hfound, hisLeaf, hne⟩ := hleaf
  cases path with
  | nil => exact absurd rfl hne
  | cons key rest =>
    simp only [List.head?_cons, ne_eq, Option.some.injEq] at hsig ⊢
    rw [reported_iff hplain hclaims hfound, listed_iff hplain hreceipt hfound hisLeaf hsig]
    have htop : ∃ copy, get? receipt key = some copy := by
      obtain ⟨_, copy, heq, hcopy, -⟩ := valueAt_cons.mp hfound
      cases heq
      exact ⟨copy, hcopy⟩
    refine ⟨?_, ?_, ?_⟩
    · rintro rfl
      refine ⟨Or.inl rfl, ?_⟩
      rintro (⟨hschema, -⟩ | ⟨hid, -⟩)
      · exact hschema rfl
      · exact absurd hid (by decide)
    · rintro rfl hown
      have hnone : get? claims "receipt_id" = none := by simpa [hasOwn] using hown
      have hnamed : hasOwn receipt "receipt_id" = true := by simpa [hasOwn, Option.isSome_iff_exists] using htop
      refine ⟨Or.inr (missing_cons.mpr (Or.inl hnone)), ?_, ?_, ?_⟩
      · rintro ⟨s, hs, -⟩
        obtain ⟨_, claim, heq, hclaim, -⟩ := valueAt_cons.mp hs
        cases heq
        exact absurd (hnone.symm.trans hclaim) (by simp)
      · rintro (⟨-, hdiff⟩ | ⟨-, hmisnamed⟩)
        · obtain ⟨claim, -, hclaim, -⟩ := differsAbove_cons.mp hdiff
          exact absurd (hnone.symm.trans hclaim) (by simp)
        · exact hmisnamed.2.2
      · exact fun hid => Or.inr ⟨rfl, hown, hnamed, hid⟩
    · intro hschema hown hfaces
      have hreported : key ≠ "schema" ∧ DiffersAbove (.obj claims) (.obj receipt) (key :: rest) ∨
          key = "receipt_id" ∧ MisnamesReceipt receipt claims ↔
            DiffersAbove (.obj claims) (.obj receipt) (key :: rest) := by
        constructor
        · rintro (⟨-, hdiff⟩ | ⟨hid, hnot, -⟩)
          · exact hdiff
          · exact absurd (hown hid) (by simp [hnot])
        · exact fun hdiff => Or.inl ⟨hschema, hdiff⟩
      have hlisted : key = "schema" ∨ Missing (.obj claims) (key :: rest) ↔ Missing (.obj claims) (key :: rest) :=
        or_iff_right hschema
      rw [hreported, hlisted]
      exact (leaf_class (.obj claims) (.obj receipt) hfound hisLeaf).resolve_left hfaces

/-- A signed payee against a document that shows it in the other letter case. -/
theorem outer_leaf_classes_payee :
    ExactlyOne (Covered [("payment", .obj [("payee", .str "0xab")])] ["payment", "payee"] (.str "0xAB"))
      (Reported [("payment", .obj [("payee", .str "0xAB")])] [("payment", .obj [("payee", .str "0xab")])]
        ["payment", "payee"])
      (Listed [("payment", .obj [("payee", .str "0xAB")])] [("payment", .obj [("payee", .str "0xab")])]
        ["payment", "payee"]) := by
  refine (outer_leaf_classes (by decide) (by decide) (by decide) ⟨rfl, rfl, by decide⟩ (by decide)).2.2
    (by decide) (by decide) ?_
  rintro ⟨field, fields, -, hvalue⟩
  cases hvalue

/-- The receipt id is the one field both walks name: the claims do not sign it,
    and it has to be the signed task's. -/
theorem receipt_id_in_two_classes : ¬∀ (receipt claims : Obj) (path : List String) (value : Json),
      LeafAt receipt path value → path.head? ≠ some "issuer_signature" →
      ExactlyOne (Covered claims path value) (Reported receipt claims path) (Listed receipt claims path) ∧
        (path.head? = some "schema" → Listed receipt claims path) := by
  intro h
  let receipt : Obj := [("receipt_id", .str "task-1")]
  let claims : Obj := [("task_id", .str "task-2")]
  have hfound : valueAt (.obj receipt) ["receipt_id"] = some (.str "task-1") := rfl
  have hlisted : Listed receipt claims ["receipt_id"] :=
    (listed_iff (by decide) (by decide) hfound rfl (by decide)).mpr (Or.inr (missing_cons.mpr (Or.inl rfl)))
  have hreported : Reported receipt claims ["receipt_id"] := by
    refine (reported_iff (by decide) (by decide) hfound).mpr (Or.inr ⟨rfl, rfl, rfl, "task-2", by decide, ?_⟩)
    intro heq
    simp [receipt, get?] at heq
  rcases (h receipt claims ["receipt_id"] (.str "task-1") ⟨hfound, rfl, by decide⟩ (by decide)).1 with
    ⟨-, hnot, -⟩ | ⟨-, -, hnot⟩ | ⟨-, hnot, -⟩
  · exact hnot hreported
  · exact hnot hlisted
  · exact hnot hreported

end OuterFields
