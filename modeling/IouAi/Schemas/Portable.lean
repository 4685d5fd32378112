import IouAi.Budget.Pricing
import IouAi.Foundations.JsonSchema

/-!
# Portable schemas

`anthropic_portable_schema` inlines the local references of a schema and keeps the keywords that
every provider takes; what the other ones assert goes into the description. An object without a
reference keeps the shape of its subschemas (`sameShape_inlineFields`) and restates its other
keywords (`restates_inlineFields`).
-/

namespace IouAi.PortableSchema

open Checks JsonSchema

/-! ## The transformation -/

/-- `_ANTHROPIC_PORTABLE_KEYS`. -/
def portableKeys : List String :=
  ["additionalProperties", "allOf", "anyOf", "description", "enum", "items", "oneOf", "properties",
    "required", "type"]

/-- What the transformation raises; the last is no error of the source. -/
inductive SchemaError
  | definitions
  | root
  | unsupported
  | unresolved
  | definition
  | properties
  | array (key : String)
  | recursion
  deriving DecidableEq

/-! ### Descriptions -/

/-- The text of an `int`, as which a truth value counts. -/
def integerText : Option Json → Option String
  | some (.num n) => some (toString n)
  | some (.bool value) => some (if value then "True" else "False")
  | _ => none

/-- The text of a number. -/
def numberText : Option Json → Option String
  | some (.num n) => some (toString n)
  | some (.real text) => some text
  | _ => none

/-- The sentence about the bounds of a length. -/
def lengthConstraint (subject unit : String) : (minimum maximum : Option String) → List String
  | some minimum, some maximum =>
    [subject ++ " length must be between " ++ minimum ++ " and " ++ maximum ++ " " ++ unit ++ "."]
  | some minimum, none => [subject ++ " length must be at least " ++ minimum ++ " " ++ unit ++ "."]
  | none, some maximum => [subject ++ " length must be at most " ++ maximum ++ " " ++ unit ++ "."]
  | none, none => []

def numericConstraint (relation : String) (bound : Option String) : List String :=
  bound.toList.map fun text => "Numeric value must be " ++ relation ++ " " ++ text ++ "."

def patternConstraint : Option Json → List String
  | some (.str pattern) =>
    if pattern = "" then []
    else ["String must match this regular expression exactly: " ++ pattern ++ "."]
  | _ => []

def uniqueConstraint : Option Json → List String
  | some (.bool true) => ["Array items must be unique."]
  | _ => []

/-- `_anthropic_constraint_description`. -/
def constraintDescription (fields : List (String × Json)) : Option String :=
  let value := Json.lookup fields
  let constraints :=
    lengthConstraint "String" "characters" (integerText (value "minLength"))
      (integerText (value "maxLength"))
    ++ (patternConstraint (value "pattern")
    ++ (lengthConstraint "Array" "items" (integerText (value "minItems"))
      (integerText (value "maxItems"))
    ++ (numericConstraint "at least" (numberText (value "minimum"))
    ++ (numericConstraint "at most" (numberText (value "maximum"))
    ++ (numericConstraint "greater than" (numberText (value "exclusiveMinimum"))
    ++ (numericConstraint "less than" (numberText (value "exclusiveMaximum"))
    ++ uniqueConstraint (value "uniqueItems")))))))
  if constraints = [] then none else some (" ".intercalate constraints)

/-- `rstrip`. -/
def trimRight (text : String) : String :=
  String.ofList (text.toList.reverse.dropWhile Budget.isSpace).reverse

/-- The result with the constraints of the node in its description. -/
def describe (fields result : List (String × Json)) : List (String × Json) :=
  match constraintDescription fields with
  | none => result
  | some text =>
    let description := match Json.lookup result "description" with
      | some (.str existing) => if existing = "" then text else trimRight existing ++ " " ++ text
      | _ => text
    Json.override result [("description", .str description)]

/-! ### Inlining -/

section Inline

variable (inline : Json → Except SchemaError Json)

/-- The value of a keyword that is kept. -/
def inlineKeyword (key : String) (value : Json) : Except SchemaError Json :=
  if key = "properties" then
    match value with
    | .obj children => do
      return .obj (← children.mapM fun child => do return (child.1, ← inline child.2))
    | _ => throw .properties
  else if key ∈ ["items", "additionalProperties"] then inline value
  else if key ∈ combinators then
    match value with
    | .arr schemas => do return .arr (← schemas.mapM inline)
    | _ => throw (.array key)
  else return value

/-- An object without a reference: its literal as an enumeration, and the portable keywords. -/
def inlineFields (fields : List (String × Json)) : Except SchemaError (List (String × Json)) := do
  let literal ← (Json.lookup fields "const").toList.mapM fun literal => do
    return ("enum", .arr [← inline literal])
  let kept ← (fields.filter fun field => field.1 ∈ portableKeys).mapM fun field => do
    return (field.1, ← inlineKeyword inline field.1 field.2)
  return describe fields (Json.override literal kept)

end Inline

/-- The fields of a definition, and over them what stands beside the reference. -/
def merge (target fields : List (String × Json)) : List (String × Json) :=
  Json.override target (fields.filter fun field => field.1 ≠ "$ref")

/-- `inline`, under the names that are being expanded. -/
def inline (definitions : List (String × Json)) :
    (fuel : ℕ) → (activeRefs : List String) → Json → Except SchemaError Json
  | 0, _, _ => .error .recursion
  | fuel + 1, activeRefs, .arr items => do
    return .arr (← items.mapM (inline definitions fuel activeRefs))
  | fuel + 1, activeRefs, .obj fields =>
    match reference fields with
    | some ref =>
      match referenceName ref with
      | none => .error .unsupported
      | some name =>
        match Json.lookup definitions name with
        | none => .error .unresolved
        | some target =>
          if name ∈ activeRefs then .error .unresolved
          else match target with
            | .obj target =>
              inline definitions fuel (name :: activeRefs) (.obj (merge target fields))
            | _ => .error .definition
    | none => do return .obj (← inlineFields (inline definitions fuel activeRefs) fields)
  | _ + 1, _, node => .ok node

/-- The definitions of a schema, and the rest of it. -/
def definitionsOf (schema : List (String × Json)) : Option (List (String × Json)) :=
  match (Json.lookup schema "$defs").getD (.obj []) with
  | .obj definitions => some definitions
  | _ => none

def sourceOf (schema : List (String × Json)) : List (String × Json) :=
  schema.filter fun field => field.1 ≠ "$defs"

/-- A depth that no expansion exceeds. -/
def fuelOf (schema definitions : List (String × Json)) : ℕ :=
  (definitions.length + 1) * (Json.depth (.obj schema) + 1)

/-- `anthropic_portable_schema`. -/
def anthropicPortableSchema (schema : List (String × Json)) :
    Except SchemaError (List (String × Json)) :=
  match definitionsOf schema with
  | none => .error .definitions
  | some definitions => do
    match ← inline definitions (fuelOf schema definitions) [] (.obj (sourceOf schema)) with
    | .obj result => return result
    | _ => throw .root

/-! ## An object without a reference -/

/-- A subschema under a keyword that is kept. -/
inductive Child (fields : List (String × Json)) : Json → Prop
  | property {children : List (String × Json)} {child : String × Json} :
    ("properties", .obj children) ∈ fields → child ∈ children → Child fields child.2
  | schema {key : String} {child : Json} :
    key ∈ ["items", "additionalProperties"] → (key, child) ∈ fields → Child fields child
  | branch {key : String} {schemas : List Json} {child : Json} :
    key ∈ combinators → (key, .arr schemas) ∈ fields → child ∈ schemas → Child fields child

section Fields

variable {run : Json → Except SchemaError Json} {fields result : List (String × Json)}

theorem lookup_describe {key : String} (h : key ≠ "description") :
    Json.lookup (describe fields result) key = Json.lookup result key := by
  unfold describe
  cases constraintDescription fields with
  | none => rfl
  | some text =>
    simp only
    rw [Json.lookup_override]
    simp [Json.lookup, h.symm]

theorem mapM_pair {f : String × Json → Except SchemaError Json} {others : List (String × Json)}
    (h : (fields.mapM fun field => do return (field.1, ← f field)) = .ok others) :
    List.Forall₂ (fun field other => other.1 = field.1 ∧ f field = .ok other.2) fields others := by
  refine (mapM_eq_ok_iff_forall₂.mp h).imp fun field other hother => ?_
  obtain ⟨value, hvalue, hpure⟩ := bind_eq_ok.mp hother
  cases pure_eq_ok.mp hpure
  exact ⟨rfl, hvalue⟩

/-- The parts of a result. -/
theorem inlineFields_eq_ok (h : inlineFields run fields = .ok result) :
    ∃ literal kept, result = describe fields (Json.override literal kept)
      ∧ List.Forall₂ (fun value field => ∃ value', run value = .ok value'
          ∧ field = ("enum", .arr [value'])) (Json.lookup fields "const").toList literal
      ∧ List.Forall₂ (fun field other => other.1 = field.1
          ∧ inlineKeyword run field.1 field.2 = .ok other.2)
          (fields.filter fun field => field.1 ∈ portableKeys) kept := by
  obtain ⟨literal, hliteral, h⟩ := bind_eq_ok.mp h
  obtain ⟨kept, hkept, h⟩ := bind_eq_ok.mp h
  refine ⟨literal, kept, (pure_eq_ok.mp h).symm, ?_, mapM_pair hkept⟩
  refine (mapM_eq_ok_iff_forall₂.mp hliteral).imp fun value field hfield => ?_
  obtain ⟨value', hvalue', hpure⟩ := bind_eq_ok.mp hfield
  exact ⟨value', hvalue', (pure_eq_ok.mp hpure).symm⟩

/-- The values under the keywords of a result. -/
theorem lookup_inlineFields (h : inlineFields run fields = .ok result) :
    (∀ key ∈ portableKeys, key ≠ "description" → key ≠ "enum" →
      Option.Rel (fun value value' => inlineKeyword run key value = .ok value')
        (Json.lookup fields key) (Json.lookup result key))
      ∧ (∀ key ∉ portableKeys, Json.lookup result key = none)
      ∧ ∃ literal, Option.Rel (fun value value' => run value = .ok value')
          (Json.lookup fields "const") literal
        ∧ Json.lookup result "enum" = (Json.lookup fields "enum").or
          (literal.map fun value => .arr [value]) := by
  obtain ⟨literal, kept, rfl, hliteral, hkept⟩ := inlineFields_eq_ok h
  have hvalue := Json.lookup_forall₂ (P := fun name value value' =>
    inlineKeyword run name value = .ok value') hkept
  have hfilter := Json.lookup_filter fields (fun name => name ∈ portableKeys)
  have henum : ∃ found, Option.Rel (fun value value' => run value = .ok value')
      (Json.lookup fields "const") found
      ∧ ∀ key, Json.lookup literal key
        = if key = "enum" then found.map fun value => .arr [value] else none := by
    cases hconst : Json.lookup fields "const" with
    | none =>
      rw [hconst] at hliteral
      cases hliteral
      exact ⟨none, .none, fun key => by simp [Json.lookup]⟩
    | some value =>
      rw [hconst] at hliteral
      obtain ⟨field, rest, ⟨value', hvalue', rfl⟩, hrest, rfl⟩ :=
        List.forall₂_cons_left_iff.mp hliteral
      cases hrest
      refine ⟨some value', .some hvalue', fun key => ?_⟩
      by_cases hkey : key = "enum"
      · simp [Json.lookup, hkey]
      · simp [Json.lookup, hkey, Ne.symm hkey]
  obtain ⟨found, hfound, hlookup⟩ := henum
  refine ⟨fun key hkey hdescription hne => ?_, fun key hkey => ?_, found, hfound, ?_⟩
  · have hrel := hvalue key
    rw [hfilter, if_pos (by simpa using hkey)] at hrel
    rw [lookup_describe hdescription, Json.lookup_override, hlookup, if_neg hne, Option.or_none]
    exact hrel
  · have hrel := hvalue key
    rw [hfilter, if_neg (by simpa using hkey)] at hrel
    have hnone : Json.lookup kept key = none := Json.rel_none_left.mp hrel
    have hdescription : key ≠ "description" := fun heq => hkey (by simp [heq, portableKeys])
    have hne : key ≠ "enum" := fun heq => hkey (by simp [heq, portableKeys])
    rw [lookup_describe hdescription, Json.lookup_override, hnone, hlookup, if_neg hne]
    rfl
  · have hrel := hvalue "enum"
    rw [hfilter, if_pos (by decide)] at hrel
    have heq : Json.lookup kept "enum" = Json.lookup fields "enum" := by
      cases hfields : Json.lookup fields "enum" with
      | none => exact Json.rel_none_left.mp (hfields ▸ hrel)
      | some value =>
        obtain ⟨value', hvalue', hkeyword⟩ := Json.rel_some_left.mp (hfields ▸ hrel)
        rw [hvalue', Except.ok.inj hkeyword]
    rw [lookup_describe (by decide), Json.lookup_override, hlookup, if_pos rfl, heq]

/-- A subschema and what it is inlined to. -/
def Inlines (run : Json → Except SchemaError Json) (fields : List (String × Json))
    (child child' : Json) : Prop :=
  Child fields child ∧ run child = .ok child'

theorem inlineKeyword_schema {key : String} (h : key ∈ ["items", "additionalProperties"])
    (value : Json) : inlineKeyword run key value = run value := by
  simp only [List.mem_cons, List.not_mem_nil, or_false] at h
  rcases h with rfl | rfl <;> rfl

theorem inlineKeyword_branches {key : String} (h : key ∈ combinators) (value : Json) :
    inlineKeyword run key value = match value with
      | .arr schemas => do return .arr (← schemas.mapM run)
      | _ => throw (.array key) := by
  simp only [combinators, List.mem_cons, List.not_mem_nil, or_false] at h
  rcases h with rfl | rfl | rfl <;> rfl

theorem inlineKeyword_leaf {key : String} (hproperties : key ≠ "properties")
    (hschema : key ∉ ["items", "additionalProperties"]) (hbranches : key ∉ combinators)
    (value : Json) : inlineKeyword run key value = .ok value := by
  unfold inlineKeyword
  rw [if_neg hproperties, if_neg hschema, if_neg hbranches]
  rfl

theorem sameShape_inlineFields (h : inlineFields run fields = .ok result) :
    SameShape (Inlines run fields) fields result where
  property name := by
    refine Json.rel_bind ((lookup_inlineFields h).1 "properties" (by decide) (by decide)
      (by decide)) fun value value' hfields hkeyword => ?_
    cases value with
    | obj children =>
      obtain ⟨children', hchildren, hpure⟩ := bind_eq_ok.mp hkeyword
      obtain rfl := pure_eq_ok.mp hpure
      have hchild := Json.lookup_forall₂ (P := fun _ child child' => run child = .ok child')
        (mapM_pair hchildren) name
      exact Json.rel_imp hchild fun child child' hname hrun =>
        ⟨.property (Json.mem_of_lookup hfields) (Json.mem_of_lookup hname), hrun⟩
    | _ => cases hkeyword
  schema key hkey := by
    have hportable : key ∈ portableKeys ∧ key ≠ "description" ∧ key ≠ "enum" := by
      simp only [List.mem_cons, List.not_mem_nil, or_false] at hkey
      rcases hkey with rfl | rfl <;> decide
    refine Json.rel_imp ((lookup_inlineFields h).1 key hportable.1 hportable.2.1 hportable.2.2)
      fun value value' hfields hkeyword => ?_
    rw [inlineKeyword_schema hkey] at hkeyword
    exact ⟨.schema hkey (Json.mem_of_lookup hfields), hkeyword⟩
  branches key hkey := by
    have hportable : key ∈ portableKeys ∧ key ≠ "description" ∧ key ≠ "enum" := by
      simp only [combinators, List.mem_cons, List.not_mem_nil, or_false] at hkey
      rcases hkey with rfl | rfl | rfl <;> decide
    refine Json.rel_map ((lookup_inlineFields h).1 key hportable.1 hportable.2.1 hportable.2.2)
      fun value value' hfields hkeyword => ?_
    rw [inlineKeyword_branches hkey] at hkeyword
    cases value with
    | arr schemas =>
      obtain ⟨schemas', hschemas, hpure⟩ := bind_eq_ok.mp hkeyword
      obtain rfl := pure_eq_ok.mp hpure
      have hall : ∀ schema ∈ schemas, Child fields schema := fun schema hschema =>
        .branch hkey (Json.mem_of_lookup hfields) hschema
      exact (List.forall₂_and_left _ _).mpr ⟨hall, mapM_eq_ok_iff_forall₂.mp hschemas⟩
    | _ => cases hkeyword

/-- The other keywords of a result, where inlining leaves the literal alone. -/
theorem restates_inlineFields (h : inlineFields run fields = .ok result)
    (hliteral : ∀ literal value, ("const", literal) ∈ fields → run literal = .ok value →
      value = literal) :
    Restates portableKeys fields result where
  leaf key hkey := by
    obtain ⟨hportable, hother, -⟩ := lookup_inlineFields h
    split_ifs with hmem
    · have hdescription : key ≠ "description" := by rintro rfl; simp [structuralKeys] at hkey
      have henum : key ≠ "enum" := by rintro rfl; simp [structuralKeys] at hkey
      have hrel := hportable key hmem hdescription henum
      have hstructural : key ≠ "properties" ∧ key ∉ ["items", "additionalProperties"]
          ∧ key ∉ combinators := by
        refine ⟨?_, fun hmem => ?_, fun hmem => ?_⟩
        · rintro rfl
          simp [structuralKeys] at hkey
        · simp only [List.mem_cons, List.not_mem_nil, or_false] at hmem
          rcases hmem with rfl | rfl <;> simp [structuralKeys] at hkey
        · simp only [combinators, List.mem_cons, List.not_mem_nil, or_false] at hmem
          rcases hmem with rfl | rfl | rfl <;> simp [structuralKeys] at hkey
      cases hfields : Json.lookup fields key with
      | none => rwa [hfields, Json.rel_none_left] at hrel
      | some value =>
        rw [hfields, Json.rel_some_left] at hrel
        obtain ⟨value', hvalue', hrun⟩ := hrel
        rw [inlineKeyword_leaf hstructural.1 hstructural.2.1 hstructural.2.2] at hrun
        rw [hvalue', Except.ok.inj hrun]
    · exact hother key hmem
  literal := (lookup_inlineFields h).2.1 "const" (by decide)
  enum := by
    obtain ⟨-, -, literal, hrel, henum⟩ := lookup_inlineFields h
    rw [henum]
    cases hfields : Json.lookup fields "const" with
    | none => rw [hfields, Json.rel_none_left] at hrel; rw [hrel]
    | some value =>
      rw [hfields, Json.rel_some_left] at hrel
      obtain ⟨value', rfl, hrun⟩ := hrel
      rw [hliteral value value' (Json.mem_of_lookup hfields) hrun]

end Fields

end IouAi.PortableSchema
