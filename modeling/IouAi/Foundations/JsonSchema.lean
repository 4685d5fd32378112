import IouAi.Foundations.Checks
import IouAi.Foundations.Json
import Mathlib.Logic.Relation

/-!
# Validity under a JSON schema

A schema that is an object asserts something of a value with each of its keywords. Keywords with
subschemas have a fixed meaning; the other ones are given by a vocabulary. A reference asserts what
the definition of its name asserts. References can make a schema infinite, so validity goes to a
depth, and a value is valid that is from some depth on (`Valid`).
-/

namespace IouAi

namespace Json

/-! ## Fields over fields -/

/-- The fields of `fields`, and those of `base` under the other keys. -/
def override (base fields : List (String × Json)) : List (String × Json) :=
  base.map (fun field => (field.1, (lookup fields field.1).getD field.2))
    ++ fields.filter fun field => (lookup base field.1).isNone

theorem lookup_append {α : Type} (fields others : List (String × α)) (key : String) :
    lookup (fields ++ others) key = (lookup fields key).or (lookup others key) := by
  rw [lookup, List.find?_append, Option.map_or]
  rfl

theorem lookup_filter {α : Type} (fields : List (String × α)) (p : String → Bool) (key : String) :
    lookup (fields.filter fun field => p field.1) key
      = if p key = true then lookup fields key else none := by
  rw [lookup, List.find?_filter]
  split_ifs with hkey
  · congr 2
    funext field
    by_cases hfield : field.1 = key
    · simp [hfield, hkey]
    · simp [hfield]
  · rw [Option.map_eq_none_iff, List.find?_eq_none]
    rintro field - hfield
    simp only [decide_eq_true_eq] at hfield
    exact hkey (hfield.2 ▸ hfield.1)

theorem lookup_mapKey {α β : Type} (fields : List (String × α)) (f : String → α → β)
    (key : String) : lookup (fields.map fun field => (field.1, f field.1 field.2)) key
      = (lookup fields key).map (f key) := by
  induction fields with
  | nil => rfl
  | cons field fields ih =>
    simp only [lookup, List.map_cons, List.find?_cons] at ih ⊢
    by_cases hfield : field.1 = key
    · simp [hfield]
    · simpa [hfield] using ih

theorem rel_none_left {α β : Type} {R : α → β → Prop} {b : Option β} :
    Option.Rel R none b ↔ b = none := by
  constructor
  · rintro ⟨⟩
    rfl
  · rintro rfl
    exact .none

theorem rel_some_left {α β : Type} {R : α → β → Prop} {x : α} {b : Option β} :
    Option.Rel R (some x) b ↔ ∃ y, b = some y ∧ R x y := by
  constructor
  · rintro ⟨h⟩
    exact ⟨_, rfl, h⟩
  · rintro ⟨y, rfl, h⟩
    exact .some h

theorem rel_bind {α β γ δ : Type} {R : α → β → Prop} {S : γ → δ → Prop} {a : Option α}
    {b : Option β} {f : α → Option γ} {g : β → Option δ} (h : Option.Rel R a b)
    (hfg : ∀ x y, a = some x → R x y → Option.Rel S (f x) (g y)) :
    Option.Rel S (a.bind f) (b.bind g) := by
  cases h with
  | some h => exact hfg _ _ rfl h
  | none => exact .none

theorem rel_map {α β γ δ : Type} {R : α → β → Prop} {S : γ → δ → Prop} {a : Option α}
    {b : Option β} {f : α → γ} {g : β → δ} (h : Option.Rel R a b)
    (hfg : ∀ x y, a = some x → R x y → S (f x) (g y)) : Option.Rel S (a.map f) (b.map g) := by
  cases h with
  | some h => exact .some (hfg _ _ rfl h)
  | none => exact .none

theorem rel_imp {α β : Type} {R S : α → β → Prop} {a : Option α} {b : Option β}
    (h : Option.Rel R a b) (himp : ∀ x y, a = some x → R x y → S x y) : Option.Rel S a b := by
  cases h with
  | some h => exact .some (himp _ _ rfl h)
  | none => exact .none

/-- Fields under the same keys have related values under a key. -/
theorem lookup_forall₂ {P : String → Json → Json → Prop} {fields others : List (String × Json)}
    (h : List.Forall₂ (fun field other => other.1 = field.1 ∧ P field.1 field.2 other.2) fields others)
    (key : String) : Option.Rel (P key) (lookup fields key) (lookup others key) := by
  induction h with
  | nil => exact .none
  | @cons field other fields others hfield _ ih =>
    obtain ⟨hkey, hvalue⟩ := hfield
    simp only [lookup, List.find?_cons, hkey] at ih ⊢
    by_cases heq : field.1 = key
    · simp only [heq, decide_true]
      exact .some (heq ▸ hvalue)
    · simpa only [heq, decide_false] using ih

theorem lookup_override (base fields : List (String × Json)) (key : String) :
    lookup (override base fields) key = (lookup fields key).or (lookup base key) := by
  have hbase := lookup_mapKey base (fun name value => (lookup fields name).getD value) key
  have hrest := lookup_filter fields (fun name => (lookup base name).isNone) key
  rw [override, lookup_append, hbase, hrest]
  cases lookup fields key <;> cases lookup base key <;> simp

theorem mem_or_mem_of_mem_override {base fields : List (String × Json)} {field : String × Json}
    (h : field ∈ override base fields) : field ∈ fields ∨ field ∈ base := by
  rcases List.mem_append.mp h with hbase | hfields
  · obtain ⟨field', hmem, rfl⟩ := List.mem_map.mp hbase
    cases hfound : lookup fields field'.1 with
    | none => exact .inr hmem
    | some value => exact .inl (mem_of_lookup hfound)
  · exact .inl (List.mem_filter.mp hfields).1

/-! ## Depth -/

mutual

def depth : Json → ℕ
  | .arr items => depthItems items + 1
  | .obj fields => depthFields fields + 1
  | _ => 0

def depthItems : List Json → ℕ
  | [] => 0
  | item :: items => max (depth item) (depthItems items)

def depthFields : List (String × Json) → ℕ
  | [] => 0
  | field :: fields => max (depth field.2) (depthFields fields)

end

theorem depth_le_depthItems {items : List Json} {item : Json} (h : item ∈ items) :
    depth item ≤ depthItems items := by
  induction items with
  | nil => cases h
  | cons other items ih =>
    rw [depthItems]
    rcases List.mem_cons.mp h with rfl | h
    · exact le_max_left _ _
    · exact (ih h).trans (le_max_right _ _)

theorem depth_le_depthFields {fields : List (String × Json)} {field : String × Json}
    (h : field ∈ fields) : depth field.2 ≤ depthFields fields := by
  induction fields with
  | nil => cases h
  | cons other fields ih =>
    rw [depthFields]
    rcases List.mem_cons.mp h with rfl | h
    · exact le_max_left _ _
    · exact (ih h).trans (le_max_right _ _)

theorem depthFields_le {fields : List (String × Json)} {n : ℕ}
    (h : ∀ field ∈ fields, depth field.2 ≤ n) : depthFields fields ≤ n := by
  induction fields with
  | nil => exact Nat.zero_le n
  | cons field fields ih =>
    obtain ⟨hfield, hfields⟩ := List.forall_mem_cons.mp h
    exact max_le hfield (ih hfields)

theorem depthFields_override {base fields : List (String × Json)} {n : ℕ}
    (hbase : depthFields base ≤ n) (hfields : depthFields fields ≤ n) :
    depthFields (override base fields) ≤ n := by
  refine depthFields_le fun field hfield => ?_
  rcases mem_or_mem_of_mem_override hfield with h | h
  · exact (depth_le_depthFields h).trans hfields
  · exact (depth_le_depthFields h).trans hbase

end Json

namespace JsonSchema

open Checks

/-! ## Keywords -/

/-- What literals are the same, and what the keywords without subschemas assert. -/
structure Vocabulary where
  same : Json → Json → Prop
  meets : (key : String) → (keyword value : Json) → Prop

def combinators : List String := ["allOf", "anyOf", "oneOf"]

/-- The keywords with a meaning that is not the vocabulary's. -/
def structuralKeys : List String :=
  ["$ref", "properties", "items", "additionalProperties", "allOf", "anyOf", "oneOf", "const",
    "enum", "description"]

/-- The elements of an array. -/
def elements : Json → List Json
  | .arr items => items
  | _ => []

/-- The schema of a property. -/
def property (fields : List (String × Json)) (name : String) : Option Json :=
  (Json.lookup fields "properties").bind fun children => children.field? name

/-- The branches of a combinator. -/
def branches (fields : List (String × Json)) (key : String) : Option (List Json) :=
  (Json.lookup fields key).map elements

/-- One value of a list has a property, and no other one. -/
def ExactlyOne (p : Json → Prop) (items : List Json) : Prop :=
  ∃ (i : ℕ) (item : Json), items[i]? = some item ∧ p item
    ∧ ∀ (j : ℕ) (other : Json), items[j]? = some other → p other → j = i

/-- What the keywords of an object assert that have no subschemas. -/
structure Asserts (vocabulary : Vocabulary) (fields : List (String × Json)) (value : Json) :
    Prop where
  leaf : ∀ key keyword, key ∉ structuralKeys → Json.lookup fields key = some keyword →
    vocabulary.meets key keyword value
  literal : ∀ literal, Json.lookup fields "const" = some literal → vocabulary.same literal value
  enum : ∀ literals, Json.lookup fields "enum" = some literals →
    ∃ literal ∈ elements literals, vocabulary.same literal value

/-- What the other keywords assert, from what the subschemas do. -/
structure Applies (sub : Json → Json → Prop) (fields : List (String × Json)) (value : Json) :
    Prop where
  properties : ∀ name child, property fields name = some child →
    ∀ member, value.field? name = some member → sub child member
  additionalProperties : ∀ schema, Json.lookup fields "additionalProperties" = some schema →
    ∀ name member, value.field? name = some member → property fields name = none →
      sub schema member
  items : ∀ schema, Json.lookup fields "items" = some schema →
    ∀ element ∈ elements value, sub schema element
  allOf : ∀ schemas, branches fields "allOf" = some schemas → ∀ schema ∈ schemas, sub schema value
  anyOf : ∀ schemas, branches fields "anyOf" = some schemas → ∃ schema ∈ schemas, sub schema value
  oneOf : ∀ schemas, branches fields "oneOf" = some schemas →
    ExactlyOne (fun schema => sub schema value) schemas

/-! ## References -/

/-- What stands under `$ref`, if it is not null. -/
def reference (fields : List (String × Json)) : Option Json :=
  (Json.lookup fields "$ref").filter fun ref => match ref with
    | .null => false
    | _ => true

def referencePrefix : List Char := "#/$defs/".toList

/-- The name in a local reference. -/
def referenceName : Json → Option String
  | .str text => if referencePrefix <+: text.toList then
      some (String.ofList (text.toList.drop referencePrefix.length)) else none
  | _ => none

/-- The definition that an object refers to. -/
def RefersTo (definitions : List (String × Json)) (fields target : List (String × Json)) : Prop :=
  ∃ ref name, reference fields = some ref ∧ referenceName ref = some name
    ∧ Json.lookup definitions name = some (.obj target)

/-! ## Validity -/

section Valid

variable (vocabulary : Vocabulary) (definitions : List (String × Json))

/-- Validity to a depth. -/
def ValidAt : ℕ → (schema value : Json) → Prop
  | 0, _, _ => False
  | _ + 1, .bool accepts, _ => accepts = true
  | depth + 1, .obj fields, value =>
    Asserts vocabulary fields value ∧ Applies (ValidAt depth) fields value
      ∧ ((reference fields).isSome → ∃ target, RefersTo definitions fields target
        ∧ ValidAt depth (.obj target) value)
  | _ + 1, _, _ => False

def Valid (schema value : Json) : Prop :=
  ∃ least, ∀ depth, least ≤ depth → ValidAt vocabulary definitions depth schema value

end Valid

/-! ## Rewriting -/

/-- Objects with the same subschemas up to a relation. -/
structure SameShape (R : Json → Json → Prop) (fields others : List (String × Json)) : Prop where
  property : ∀ name, Option.Rel R (property fields name) (property others name)
  schema : ∀ key ∈ ["items", "additionalProperties"],
    Option.Rel R (Json.lookup fields key) (Json.lookup others key)
  branches : ∀ key ∈ combinators,
    Option.Rel (List.Forall₂ R) (branches fields key) (branches others key)

section Rewriting

variable {R : Json → Json → Prop} {fields others : List (String × Json)}
  {sub sub' : Json → Json → Prop} {value : Json}

theorem rel_flip {α β : Type} {R : α → β → Prop} {a : Option α} {b : Option β}
    (h : Option.Rel R a b) : Option.Rel (flip R) b a := by
  cases h with
  | some h => exact .some h
  | none => exact .none

theorem rel_forall₂_flip {α β : Type} {R : α → β → Prop} {a : Option (List α)}
    {b : Option (List β)} (h : Option.Rel (List.Forall₂ R) a b) :
    Option.Rel (List.Forall₂ (flip R)) b a := by
  cases h with
  | some h => exact .some h.flip
  | none => exact .none

theorem SameShape.flip (h : SameShape R fields others) : SameShape (flip R) others fields where
  property name := rel_flip (h.property name)
  schema key hkey := rel_flip (h.schema key hkey)
  branches key hkey := rel_forall₂_flip (h.branches key hkey)

theorem exists_of_rel {α β : Type} {R : α → β → Prop} {a : Option α} {b : Option β}
    (h : Option.Rel R a b) {y : β} (hy : b = some y) : ∃ x, a = some x ∧ R x y := by
  subst hy
  cases h with
  | some h => exact ⟨_, rfl, h⟩

/-- Along a relation, one element and no other one. -/
theorem ExactlyOne.of_forall₂ {p q : Json → Prop} {items items' : List Json}
    (hitems : List.Forall₂ R items items') (hpq : ∀ x y, R x y → p x → q y)
    (hqp : 2 ≤ items.length → ∀ x ∈ items, ∀ y, R x y → q y → p x) (h : ExactlyOne p items) :
    ExactlyOne q items' := by
  obtain ⟨i, item, hi, hitem, hothers⟩ := h
  obtain ⟨item', hi', hR⟩ := exists_getElem?_of_forall₂ hitems.flip hi
  refine ⟨i, item', hi', hpq _ _ hR hitem, fun j other' hj' hq => ?_⟩
  by_contra hne
  obtain ⟨other, hj, hR'⟩ := exists_getElem?_of_forall₂ hitems hj'
  have hlength : 2 ≤ items.length := by
    have hilt := (List.getElem?_eq_some_iff.mp hi).1
    have hjlt := (List.getElem?_eq_some_iff.mp hj).1
    omega
  exact hne (hothers j other hj (hqp hlength other (List.mem_of_getElem? hj) other' hR' hq))

/-- **Weaker subschemas assert less**; those of `oneOf` must assert the same. -/
theorem SameShape.applies (h : SameShape R fields others)
    (hsub : ∀ child child', R child child' → ∀ v, sub child v → sub' child' v)
    (honeOf : ∀ schemas, JsonSchema.branches fields "oneOf" = some schemas → 2 ≤ schemas.length →
      ∀ child ∈ schemas, ∀ child', R child child' → ∀ v, sub' child' v → sub child v)
    (happlies : Applies sub fields value) : Applies sub' others value where
  properties name child' hchild' member hmember := by
    obtain ⟨child, hchild, hR⟩ := exists_of_rel (h.property name) hchild'
    exact hsub child child' hR member (happlies.properties name child hchild member hmember)
  additionalProperties schema' hschema' name member hmember hproperty := by
    obtain ⟨schema, hschema, hR⟩ := exists_of_rel (h.schema _ (by simp)) hschema'
    have hnone : JsonSchema.property fields name = none := by
      have hrel := h.property name
      rw [hproperty] at hrel
      cases hfields : JsonSchema.property fields name with
      | none => rfl
      | some child =>
        rw [hfields] at hrel
        cases hrel
    exact hsub schema schema' hR member
      (happlies.additionalProperties schema hschema name member hmember hnone)
  items schema' hschema' element helement := by
    obtain ⟨schema, hschema, hR⟩ := exists_of_rel (h.schema _ (by simp)) hschema'
    exact hsub schema schema' hR element (happlies.items schema hschema element helement)
  allOf schemas' hschemas' schema' hschema' := by
    obtain ⟨schemas, hschemas, hR⟩ := exists_of_rel (h.branches _ (by simp [combinators])) hschemas'
    obtain ⟨schema, hschema, hrel⟩ := exists_of_mem_right hR hschema'
    exact hsub schema schema' hrel value (happlies.allOf schemas hschemas schema hschema)
  anyOf schemas' hschemas' := by
    obtain ⟨schemas, hschemas, hR⟩ := exists_of_rel (h.branches _ (by simp [combinators])) hschemas'
    obtain ⟨schema, hschema, hvalid⟩ := happlies.anyOf schemas hschemas
    obtain ⟨schema', hschema', hrel⟩ := exists_of_mem_right hR.flip hschema
    exact ⟨schema', hschema', hsub schema schema' hrel value hvalid⟩
  oneOf schemas' hschemas' := by
    obtain ⟨schemas, hschemas, hR⟩ := exists_of_rel (h.branches _ (by simp [combinators])) hschemas'
    exact (happlies.oneOf schemas hschemas).of_forall₂ hR (fun x y hrel => hsub x y hrel value)
      fun hlength x hx y hrel => honeOf schemas hschemas hlength x hx y hrel value

theorem SameShape.applies_iff (h : SameShape R fields others)
    (hsub : ∀ child child', R child child' → ∀ v, sub child v ↔ sub' child' v) :
    Applies sub fields value ↔ Applies sub' others value := by
  constructor
  · exact h.applies (fun child child' hR v => (hsub child child' hR v).mp)
      fun _ _ _ child _ child' hR v => (hsub child child' hR v).mpr
  · exact h.flip.applies (fun child child' hR v => (hsub child' child hR v).mpr)
      fun _ _ _ child _ child' hR v => (hsub child' child hR v).mp

/-- An object that keeps some keywords of another one, and states a literal as an enumeration of one
element. -/
structure Restates (kept : List String) (fields others : List (String × Json)) : Prop where
  leaf : ∀ key, key ∉ structuralKeys →
    Json.lookup others key = if key ∈ kept then Json.lookup fields key else none
  literal : Json.lookup others "const" = none
  enum : Json.lookup others "enum" = (Json.lookup fields "enum").or
    ((Json.lookup fields "const").map fun literal => .arr [literal])

theorem Restates.asserts {kept : List String} (h : Restates kept fields others)
    {vocabulary : Vocabulary} (hasserts : Asserts vocabulary fields value) :
    Asserts vocabulary others value where
  leaf key keyword hkey hlookup := by
    rw [h.leaf key hkey, Option.ite_none_right_eq_some] at hlookup
    exact hasserts.leaf key keyword hkey hlookup.2
  literal literal hliteral := by
    rw [h.literal] at hliteral
    cases hliteral
  enum literals hliterals := by
    rw [h.enum, Option.or_eq_some_iff, Option.map_eq_some_iff] at hliterals
    rcases hliterals with hliterals | ⟨-, literal, hliteral, rfl⟩
    · exact hasserts.enum literals hliterals
    · exact ⟨literal, List.mem_singleton_self literal, hasserts.literal literal hliteral⟩

/-- Nothing is lost when the keywords that are not kept assert nothing and a literal does not stand
beside an enumeration. -/
theorem Restates.asserts_iff {kept : List String} (h : Restates kept fields others)
    {vocabulary : Vocabulary}
    (hdropped : ∀ key keyword, key ∉ structuralKeys → key ∉ kept →
      Json.lookup fields key = some keyword → vocabulary.meets key keyword value)
    (hliteral : Json.lookup fields "const" = none ∨ Json.lookup fields "enum" = none) :
    Asserts vocabulary fields value ↔ Asserts vocabulary others value := by
  refine ⟨h.asserts, fun hasserts => ⟨fun key keyword hkey hlookup => ?_, fun literal hlookup => ?_,
    fun literals hlookup => ?_⟩⟩
  · by_cases hkept : key ∈ kept
    · exact hasserts.leaf key keyword hkey (by rw [h.leaf key hkey, if_pos hkept, hlookup])
    · exact hdropped key keyword hkey hkept hlookup
  · have henum := hliteral.resolve_left (by simp [hlookup])
    obtain ⟨literal', hmem, hsame⟩ := hasserts.enum (.arr [literal]) (by
      rw [h.enum, henum, hlookup]
      rfl)
    exact List.mem_singleton.mp hmem ▸ hsame
  · exact hasserts.enum literals (by rw [h.enum, hlookup, Option.some_or])

end Rewriting

end JsonSchema

end IouAi
