import IouAi.Schemas.Portable

/-!
# What a portable schema accepts

The objects that a schema reaches are plain when no literal has an object in it, no keyword with
subschemas stands beside a reference, and no branch of a `oneOf` loses a keyword that asserts
something. A plain schema accepts no more than its portable form (`validAt_inline`), which has
portable keywords only (`portable_inline`).
-/

namespace IouAi.PortableSchema

open Checks JsonSchema

/-! ## What is reached -/

/-- The keywords with subschemas, and the literal. -/
def subschemaKeys : List String :=
  ["properties", "items", "additionalProperties", "allOf", "anyOf", "oneOf", "const"]

/-- From a node to a subschema, or to the definition that it refers to. -/
inductive Step (definitions : List (String × Json)) : Json → Json → Prop
  | element {items : List Json} {item : Json} : item ∈ items → Step definitions (.arr items) item
  | child {fields : List (String × Json)} {child : Json} :
    Child fields child → Step definitions (.obj fields) child
  | reference {fields target : List (String × Json)} :
    RefersTo definitions fields target → Step definitions (.obj fields) (.obj target)

def Reaches (definitions : List (String × Json)) : Json → Json → Prop :=
  Relation.ReflTransGen (Step definitions)

/-- Objects with the same reference, subschemas and literal. -/
structure Alike (fields others : List (String × Json)) : Prop where
  reference : reference fields = reference others
  mem : ∀ field : String × Json, field.1 ∈ subschemaKeys → (field ∈ fields ↔ field ∈ others)
  literal : Json.lookup fields "const" = Json.lookup others "const"

theorem mem_subschemaKeys_of_mem {key : String} (h : key ∈ ["items", "additionalProperties"]) :
    key ∈ subschemaKeys := by
  simp only [List.mem_cons, List.not_mem_nil, or_false] at h
  rcases h with rfl | rfl <;> decide

theorem mem_subschemaKeys_of_mem_combinators {key : String} (h : key ∈ combinators) :
    key ∈ subschemaKeys := by
  simp only [combinators, List.mem_cons, List.not_mem_nil, or_false] at h
  rcases h with rfl | rfl | rfl <;> decide

theorem Child.exists_mem {fields : List (String × Json)} {child : Json} (h : Child fields child) :
    ∃ field ∈ fields, field.1 ∈ subschemaKeys := by
  cases h with
  | property hmem => exact ⟨_, hmem, show "properties" ∈ subschemaKeys by decide⟩
  | schema hkey hmem => exact ⟨_, hmem, mem_subschemaKeys_of_mem hkey⟩
  | branch hkey hmem => exact ⟨_, hmem, mem_subschemaKeys_of_mem_combinators hkey⟩

section Alike

variable {definitions fields others target : List (String × Json)}

theorem Alike.symm (h : Alike fields others) : Alike others fields where
  reference := h.reference.symm
  mem field hfield := (h.mem field hfield).symm
  literal := h.literal.symm

theorem Alike.child (h : Alike fields others) {child : Json} (hchild : Child fields child) :
    Child others child := by
  cases hchild with
  | property hproperty hmem =>
    have hkey : "properties" ∈ subschemaKeys := by decide
    exact .property ((h.mem _ hkey).mp hproperty) hmem
  | schema hkey hschema =>
    exact .schema hkey ((h.mem _ (mem_subschemaKeys_of_mem hkey)).mp hschema)
  | branch hkey hschemas hmem =>
    exact .branch hkey ((h.mem _ (mem_subschemaKeys_of_mem_combinators hkey)).mp hschemas) hmem

theorem Alike.refersTo (h : Alike fields others) (hrefers : RefersTo definitions fields target) :
    RefersTo definitions others target := by
  obtain ⟨ref, name, href, hrest⟩ := hrefers
  exact ⟨ref, name, h.reference ▸ href, hrest⟩

theorem Alike.step (h : Alike fields others) {node : Json}
    (hstep : Step definitions (.obj fields) node) : Step definitions (.obj others) node := by
  cases hstep with
  | child hchild => exact .child (h.child hchild)
  | reference hrefers => exact .reference (h.refersTo hrefers)

/-- What an object reaches, one like it reaches, itself taken for the other one. -/
theorem Alike.reaches (h : Alike fields others) {ends : List (String × Json)}
    (hreaches : Reaches definitions (.obj fields) (.obj ends)) :
    ∃ ends', Alike ends ends' ∧ Reaches definitions (.obj others) (.obj ends') := by
  rcases Relation.ReflTransGen.cases_head hreaches with heq | ⟨node, hstep, hrest⟩
  · obtain rfl := Json.obj.inj heq
    exact ⟨others, h, .refl⟩
  · exact ⟨ends, ⟨rfl, fun _ _ => Iff.rfl, rfl⟩, .head (h.step hstep) hrest⟩

theorem lookup_siblings (key : String) :
    Json.lookup (fields.filter fun field => field.1 ≠ "$ref") key
      = if key = "$ref" then none else Json.lookup fields key := by
  have hfilter := Json.lookup_filter fields (fun name => decide (name ≠ "$ref")) key
  rw [hfilter]
  by_cases hkey : key = "$ref"
  · rw [if_neg (by simp [hkey]), if_pos hkey]
  · rw [if_pos (by simp [hkey]), if_neg hkey]

theorem lookup_merge (key : String) : Json.lookup (merge target fields) key
    = if key = "$ref" then Json.lookup target key
      else (Json.lookup fields key).or (Json.lookup target key) := by
  rw [merge, Json.lookup_override, lookup_siblings]
  split_ifs with hkey
  · rw [Option.none_or]
  · rfl

theorem reference_merge : reference (merge target fields) = reference target := by
  rw [reference, lookup_merge, if_pos rfl]
  rfl

theorem lookup_eq_none {key : String} (h : ∀ field ∈ fields, field.1 ≠ key) :
    Json.lookup fields key = none := by
  cases hlookup : Json.lookup fields key with
  | none => rfl
  | some value => exact absurd rfl (h _ (Json.mem_of_lookup hlookup))

theorem lookup_merge_of_leaves (h : ∀ field ∈ fields, field.1 ∉ subschemaKeys) {key : String}
    (hkey : key ∈ subschemaKeys) : Json.lookup (merge target fields) key
      = Json.lookup target key := by
  have hnone : Json.lookup fields key = none :=
    lookup_eq_none fun field hfield heq => h field hfield (heq ▸ hkey)
  have hne : key ≠ "$ref" := by rintro rfl; simp [subschemaKeys] at hkey
  rw [lookup_merge, if_neg hne, hnone, Option.none_or]

/-- A definition is like itself with other keywords beside it. -/
theorem alike_merge (h : ∀ field ∈ fields, field.1 ∉ subschemaKeys) :
    Alike (merge target fields) target where
  reference := reference_merge
  mem field hfield := by
    have hnone : Json.lookup (fields.filter fun field => field.1 ≠ "$ref") field.1 = none :=
      lookup_eq_none fun other hother heq =>
        h other (List.mem_filter.mp hother).1 (heq ▸ hfield)
    constructor
    · intro hmem
      rcases Json.mem_or_mem_of_mem_override hmem with hmem | hmem
      · exact absurd hfield (h field (List.mem_filter.mp hmem).1)
      · exact hmem
    · intro hmem
      refine List.mem_append_left _ (List.mem_map.mpr ⟨field, hmem, ?_⟩)
      rw [hnone]
      rfl
  literal := lookup_merge_of_leaves h (by decide)

end Alike

/-! ## Plain schemas -/

/-- A literal without an object. -/
inductive Flat : Json → Prop
  | null : Flat .null
  | bool (value : Bool) : Flat (.bool value)
  | num (value : ℤ) : Flat (.num value)
  | real (text : String) : Flat (.real text)
  | str (value : String) : Flat (.str value)
  | arr {items : List Json} : (∀ item ∈ items, Flat item) → Flat (.arr items)

section Plain

variable (vocabulary : Vocabulary) (definitions : List (String × Json))

/-- An object that loses no keyword that asserts something. -/
structure Lossless (fields : List (String × Json)) : Prop where
  dropped : ∀ key keyword, key ∉ structuralKeys → key ∉ portableKeys → (key, keyword) ∈ fields →
    ∀ value, vocabulary.meets key keyword value
  literal : Json.lookup fields "const" = none ∨ Json.lookup fields "enum" = none
  beside : ∀ target, Relation.TransGen (RefersTo definitions) fields target →
    (∀ key ∈ ["enum", "required", "type"],
      Json.lookup fields key = none ∨ Json.lookup target key = none)
      ∧ (Json.lookup fields "enum" = none ∨ Json.lookup target "const" = none)

/-- An object that the transformation takes as it is meant. -/
structure Plain (fields : List (String × Json)) : Prop where
  reference : (reference fields).isSome → ∀ field ∈ fields, field.1 ∉ subschemaKeys
  literal : ∀ literal, ("const", literal) ∈ fields → Flat literal
  oneOf : ∀ schemas, ("oneOf", .arr schemas) ∈ fields → 2 ≤ schemas.length →
    ∀ schema ∈ schemas, ∀ others, Reaches definitions schema (.obj others) →
      Lossless vocabulary definitions others

/-- Every object that a node reaches is plain. -/
def PlainFrom (node : Json) : Prop :=
  ∀ fields, Reaches definitions node (.obj fields) → Plain vocabulary definitions fields

/-- Every object that a node reaches is lossless. -/
def LosslessFrom (node : Json) : Prop :=
  ∀ fields, Reaches definitions node (.obj fields) → Lossless vocabulary definitions fields

end Plain

section Closure

variable {vocabulary : Vocabulary} {definitions fields target : List (String × Json)}

theorem PlainFrom.step {node node' : Json} (h : PlainFrom vocabulary definitions node)
    (hstep : Step definitions node node') : PlainFrom vocabulary definitions node' :=
  fun fields hreaches => h fields (.head hstep hreaches)

theorem LosslessFrom.step {node node' : Json} (h : LosslessFrom vocabulary definitions node)
    (hstep : Step definitions node node') : LosslessFrom vocabulary definitions node' :=
  fun fields hreaches => h fields (.head hstep hreaches)

theorem Plain.leaves (h : Plain vocabulary definitions fields)
    (hrefers : RefersTo definitions fields target) : ∀ field ∈ fields, field.1 ∉ subschemaKeys := by
  obtain ⟨ref, -, href, -⟩ := hrefers
  exact h.reference (by rw [href]; rfl)

/-- Beside a reference there are no subschemas, so the definition gives all of them. -/
theorem Plain.alike_merge (h : Plain vocabulary definitions fields)
    (hrefers : RefersTo definitions fields target) : Alike (merge target fields) target :=
  PortableSchema.alike_merge (h.leaves hrefers)

/-- What an object reaches that is like another one, past the object itself. -/
theorem Alike.reaches_cases {others node : List (String × Json)} (h : Alike fields others)
    (hreaches : Reaches definitions (.obj fields) (.obj node)) :
    node = fields ∨ Reaches definitions (.obj others) (.obj node) := by
  rcases Relation.ReflTransGen.cases_head hreaches with heq | ⟨mid, hstep, hrest⟩
  · exact .inl (Json.obj.inj heq).symm
  · exact .inr (.head (h.step hstep) hrest)

theorem PlainFrom.merge (h : PlainFrom vocabulary definitions (.obj fields))
    (hrefers : RefersTo definitions fields target) :
    PlainFrom vocabulary definitions (.obj (merge target fields)) := by
  have hfields : Plain vocabulary definitions fields := h fields .refl
  have htarget : PlainFrom vocabulary definitions (.obj target) := h.step (.reference hrefers)
  have halike : Alike (PortableSchema.merge target fields) target := hfields.alike_merge hrefers
  have hplain : Plain vocabulary definitions target := htarget target .refl
  have hconst : "const" ∈ subschemaKeys := by decide
  have honeOf : "oneOf" ∈ subschemaKeys := by decide
  intro node hreaches
  rcases halike.reaches_cases hreaches with rfl | hreaches
  · refine ⟨fun href field hfield hkey => ?_, fun literal hliteral => ?_,
      fun schemas hschemas => ?_⟩
    · have hmem : field ∈ target := (halike.mem field hkey).mp hfield
      exact hplain.reference (halike.reference ▸ href) field hmem hkey
    · exact hplain.literal literal ((halike.mem ("const", literal) hconst).mp hliteral)
    · exact hplain.oneOf schemas ((halike.mem ("oneOf", .arr schemas) honeOf).mp hschemas)
  · exact htarget node hreaches

theorem LosslessFrom.merge (h : LosslessFrom vocabulary definitions (.obj fields))
    (hplain : Plain vocabulary definitions fields) (hrefers : RefersTo definitions fields target) :
    LosslessFrom vocabulary definitions (.obj (merge target fields)) := by
  have hfields : Lossless vocabulary definitions fields := h fields .refl
  have hfrom : LosslessFrom vocabulary definitions (.obj target) := h.step (.reference hrefers)
  have htarget : Lossless vocabulary definitions target := hfrom target .refl
  have halike : Alike (PortableSchema.merge target fields) target := hplain.alike_merge hrefers
  obtain ⟨hbeside, hconst⟩ := hfields.beside target (.single hrefers)
  intro node hreaches
  rcases halike.reaches_cases hreaches with rfl | hreaches
  · refine ⟨fun key keyword hkey hportable hmem => ?_, ?_, fun other hother => ?_⟩
    · rcases Json.mem_or_mem_of_mem_override hmem with hmem | hmem
      · exact hfields.dropped key keyword hkey hportable (List.mem_filter.mp hmem).1
      · exact htarget.dropped key keyword hkey hportable hmem
    · rw [halike.literal, lookup_merge, if_neg (by decide)]
      rcases htarget.literal with hnone | hnone
      · exact .inl hnone
      · rcases hconst with henum | hnone'
        · exact .inr (by rw [henum, hnone]; rfl)
        · exact .inl hnone'
    · have hother' : Relation.TransGen (RefersTo definitions) target other := by
        rcases Relation.TransGen.head'_iff.mp hother with ⟨next, hnext, hrest⟩
        exact Relation.TransGen.head' (halike.refersTo hnext) hrest
      obtain ⟨hbeside', hconst'⟩ := hfields.beside other (.head hrefers hother')
      obtain ⟨hbeside'', hconst''⟩ := htarget.beside other hother'
      refine ⟨fun key hkey => ?_, ?_⟩
      · have hne : key ≠ "$ref" := by rintro rfl; simp at hkey
        rw [lookup_merge, if_neg hne]
        rcases hbeside' key hkey with hnone | hnone
        · rcases hbeside'' key hkey with hnone' | hnone'
          · exact .inl (by rw [hnone, hnone']; rfl)
          · exact .inr hnone'
        · exact .inr hnone
      · rw [lookup_merge, if_neg (by decide)]
        rcases hconst' with hnone | hnone
        · rcases hconst'' with hnone' | hnone'
          · exact .inl (by rw [hnone, hnone']; rfl)
          · exact .inr hnone'
        · exact .inr hnone
  · exact hfrom node hreaches

end Closure

/-! ## Relaxation -/

section Relaxation

variable {vocabulary : Vocabulary} {definitions fields target : List (String × Json)}
  {value : Json}

theorem asserts_merge (hfields : Asserts vocabulary fields value)
    (htarget : Asserts vocabulary target value) :
    Asserts vocabulary (merge target fields) value := by
  have hcases : ∀ {key keyword}, Json.lookup (merge target fields) key = some keyword →
      Json.lookup fields key = some keyword ∨ Json.lookup target key = some keyword := by
    intro key keyword hlookup
    rw [lookup_merge] at hlookup
    split_ifs at hlookup with hkey
    · exact .inr hlookup
    · exact (Option.or_eq_some_iff.mp hlookup).imp id And.right
  refine ⟨fun key keyword hkey hlookup => ?_, fun literal hlookup => ?_, fun literals hlookup => ?_⟩
  · exact (hcases hlookup).elim (hfields.leaf key keyword hkey) (htarget.leaf key keyword hkey)
  · exact (hcases hlookup).elim (hfields.literal literal) (htarget.literal literal)
  · exact (hcases hlookup).elim (hfields.enum literals) (htarget.enum literals)

theorem asserts_of_asserts_merge (hlossless : Lossless vocabulary definitions fields)
    (htarget : Lossless vocabulary definitions target)
    (hplain : Plain vocabulary definitions fields) (hrefers : RefersTo definitions fields target)
    (h : Asserts vocabulary (merge target fields) value) :
    Asserts vocabulary fields value ∧ Asserts vocabulary target value := by
  obtain ⟨hbeside, -⟩ := hlossless.beside target (.single hrefers)
  have halike : Alike (merge target fields) target := hplain.alike_merge hrefers
  have hconst : Json.lookup fields "const" = none :=
    lookup_eq_none fun field hfield heq => hplain.leaves hrefers field hfield (heq ▸ by decide)
  have hfields : ∀ {key keyword}, key ≠ "$ref" → Json.lookup fields key = some keyword →
      Json.lookup (merge target fields) key = some keyword := by
    intro key keyword hkey hlookup
    rw [lookup_merge, if_neg hkey, hlookup, Option.some_or]
  have hother : ∀ {key keyword}, key ∈ ["enum", "required", "type"] →
      Json.lookup target key = some keyword →
      Json.lookup (merge target fields) key = some keyword := by
    intro key keyword hkey hlookup
    have hne : key ≠ "$ref" := by rintro rfl; simp at hkey
    have hnone := (hbeside key hkey).resolve_right (by simp [hlookup])
    rw [lookup_merge, if_neg hne, hnone, hlookup, Option.none_or]
  refine ⟨⟨fun key keyword hkey hlookup => ?_, fun literal hlookup => ?_,
    fun literals hlookup => ?_⟩, ⟨fun key keyword hkey hlookup => ?_,
    fun literal hlookup => ?_, fun literals hlookup => ?_⟩⟩
  · have hne : key ≠ "$ref" := by rintro rfl; simp [structuralKeys] at hkey
    exact h.leaf key keyword hkey (hfields hne hlookup)
  · rw [hconst] at hlookup
    cases hlookup
  · exact h.enum literals (hfields (by decide) hlookup)
  · by_cases hportable : key ∈ portableKeys
    · have hcases : key ∈ ["enum", "required", "type"] := by
        simp only [portableKeys, structuralKeys, List.mem_cons, List.not_mem_nil, or_false,
          not_or] at hportable hkey ⊢
        tauto
      exact h.leaf key keyword hkey (hother hcases hlookup)
    · exact htarget.dropped key keyword hkey hportable (Json.mem_of_lookup hlookup) value
  · exact h.literal literal (halike.literal.trans hlookup)
  · exact h.enum literals (hother (by decide) hlookup)

theorem refersTo_unique {target' : List (String × Json)} (h : RefersTo definitions fields target)
    (h' : RefersTo definitions fields target') : target = target' := by
  obtain ⟨ref, name, href, hname, htarget⟩ := h
  obtain ⟨ref', name', href', hname', htarget'⟩ := h'
  obtain rfl := Option.some.inj (href.symm.trans href')
  obtain rfl := Option.some.inj (hname.symm.trans hname')
  exact Json.obj.inj (Option.some.inj (htarget.symm.trans htarget'))

theorem applies_iff_of_lookup {others : List (String × Json)} {sub : Json → Json → Prop}
    (h : ∀ key ∈ subschemaKeys, Json.lookup fields key = Json.lookup others key) :
    Applies sub fields value ↔ Applies sub others value := by
  have hrefl : ∀ {α : Type} (R : α → α → Prop), (∀ x, R x x) →
      ∀ a : Option α, Option.Rel R a a := by
    rintro α R hR (- | x)
    · exact .none
    · exact .some (hR x)
  have hshape : SameShape (· = ·) fields others := by
    refine ⟨fun name => ?_, fun key hkey => ?_, fun key hkey => ?_⟩
    · rw [property, property, h _ (by decide)]
      exact hrefl _ (fun _ => rfl) _
    · rw [h key (mem_subschemaKeys_of_mem hkey)]
      exact hrefl _ (fun _ => rfl) _
    · rw [branches, branches, h key (mem_subschemaKeys_of_mem_combinators hkey)]
      exact hrefl _ (fun items => List.forall₂_refl items) _
  exact hshape.applies_iff fun child child' heq v => by rw [heq]

/-- Nothing is said of the values in a value. -/
theorem applies_of_leaves {sub : Json → Json → Prop}
    (h : ∀ field ∈ fields, field.1 ∉ subschemaKeys) : Applies sub fields value := by
  have hempty : ∀ key ∈ subschemaKeys, Json.lookup fields key = Json.lookup ([] : List _) key :=
    fun key hkey => lookup_eq_none fun field hfield heq => h field hfield (heq ▸ hkey)
  refine (applies_iff_of_lookup hempty).mpr ?_
  constructor <;> intros <;> simp_all [property, branches, Json.lookup]

theorem isSome_reference (h : RefersTo definitions fields target) :
    (reference fields).isSome := by
  obtain ⟨ref, -, href, -⟩ := h
  rw [href]
  rfl

/-- What a reference and the keywords beside it assert, the merged object asserts. -/
theorem validAt_merge (hplain : Plain vocabulary definitions fields)
    (hrefers : RefersTo definitions fields target) {depth : ℕ}
    (h : ValidAt vocabulary definitions (depth + 1) (.obj fields) value) :
    ValidAt vocabulary definitions depth (.obj (merge target fields)) value := by
  obtain ⟨hasserts, -, href⟩ := h
  obtain ⟨target', hrefers', htarget⟩ := href (isSome_reference hrefers)
  obtain rfl := refersTo_unique hrefers hrefers'
  have halike := hplain.alike_merge hrefers
  cases depth with
  | zero => exact htarget
  | succ depth =>
    obtain ⟨hasserts', happlies', href'⟩ := htarget
    refine ⟨asserts_merge hasserts hasserts', (applies_iff_of_lookup fun key hkey =>
      lookup_merge_of_leaves (hplain.leaves hrefers) hkey).mpr happlies', fun hsome => ?_⟩
    obtain ⟨next, hnext, hvalid⟩ := href' (halike.reference ▸ hsome)
    exact ⟨next, halike.symm.refersTo hnext, hvalid⟩

/-- And conversely, where nothing is lost. -/
theorem validAt_of_merge (hplain : Plain vocabulary definitions fields)
    (hlossless : Lossless vocabulary definitions fields)
    (htarget : Lossless vocabulary definitions target)
    (hrefers : RefersTo definitions fields target) {depth : ℕ}
    (h : ValidAt vocabulary definitions depth (.obj (merge target fields)) value) :
    ValidAt vocabulary definitions (depth + 1) (.obj fields) value := by
  have halike := hplain.alike_merge hrefers
  cases depth with
  | zero => exact h.elim
  | succ depth =>
    obtain ⟨hasserts, happlies, href⟩ := h
    obtain ⟨hfields, hasserts'⟩ :=
      asserts_of_asserts_merge hlossless htarget hplain hrefers hasserts
    refine ⟨hfields, applies_of_leaves (hplain.leaves hrefers), fun _ => ⟨target, hrefers,
      hasserts', (applies_iff_of_lookup fun key hkey =>
        lookup_merge_of_leaves (hplain.leaves hrefers) hkey).mp happlies, fun hsome => ?_⟩⟩
    obtain ⟨next, hnext, hvalid⟩ := href (halike.reference ▸ hsome)
    exact ⟨next, halike.refersTo hnext, hvalid⟩

/-- How an object is inlined. -/
theorem inline_obj_eq_ok {fuel : ℕ} {activeRefs : List String} {result : Json}
    (h : inline definitions (fuel + 1) activeRefs (.obj fields) = .ok result) :
    (∃ ref name target, reference fields = some ref ∧ referenceName ref = some name
        ∧ Json.lookup definitions name = some (.obj target) ∧ name ∉ activeRefs
        ∧ inline definitions fuel (name :: activeRefs) (.obj (merge target fields)) = .ok result)
      ∨ (reference fields = none ∧ ∃ others,
        inlineFields (inline definitions fuel activeRefs) fields = .ok others
          ∧ result = .obj others) := by
  rw [inline] at h
  split at h
  · rename_i ref href
    split at h
    · cases h
    · rename_i name hname
      split at h
      · cases h
      · rename_i target htarget
        split_ifs at h with hactive
        cases target with
        | obj target => exact .inl ⟨ref, name, target, href, hname, htarget, hactive, h⟩
        | _ => cases h
  · rename_i href
    obtain ⟨others, hothers, hpure⟩ := bind_eq_ok.mp h
    exact .inr ⟨href, others, hothers, (pure_eq_ok.mp hpure).symm⟩

/-- A literal without an object is inlined to itself. -/
theorem inline_of_flat {literal : Json} (hflat : Flat literal) {fuel : ℕ}
    {activeRefs : List String} {result : Json}
    (h : inline definitions fuel activeRefs literal = .ok result) : result = literal := by
  induction hflat generalizing fuel result with
  | @arr items _ ih =>
    cases fuel with
    | zero => cases h
    | succ fuel =>
      obtain ⟨items', hitems, hpure⟩ := bind_eq_ok.mp h
      obtain rfl := pure_eq_ok.mp hpure
      have heq : List.Forall₂ (· = ·) items' items := by
        refine List.Forall₂.flip ((List.forall₂_and_left _ _).mpr
          ⟨fun item hitem => hitem, mapM_eq_ok_iff_forall₂.mp hitems⟩ |>.imp ?_)
        exact fun item item' hitem => ih item hitem.1 hitem.2
      rw [List.forall₂_eq_eq_eq] at heq
      rw [heq]
  | _ =>
    cases fuel with
    | zero => cases h
    | succ fuel => exact (Except.ok.inj h).symm

theorem reference_inlineFields {run : Json → Except SchemaError Json}
    {result : List (String × Json)} (h : inlineFields run fields = .ok result) :
    reference result = none := by
  rw [reference, (lookup_inlineFields h).2.1 "$ref" (by decide)]
  rfl

/-- An object without a reference, to a depth. -/
theorem validAt_obj_iff {depth : ℕ} (h : reference fields = none) :
    ValidAt vocabulary definitions (depth + 1) (.obj fields) value
      ↔ Asserts vocabulary fields value
        ∧ Applies (ValidAt vocabulary definitions depth) fields value := by
  rw [ValidAt, h]
  exact and_congr_right fun _ => and_iff_left fun hsome => by cases hsome

/-- What is no object is inlined to a value that accepts the same. -/
theorem validAt_scalar_iff {fuel : ℕ} {activeRefs : List String} {node result : Json}
    (h : inline definitions (fuel + 1) activeRefs node = .ok result)
    (hnode : ∀ fields, node ≠ .obj fields) {depth depth' : ℕ} :
    ValidAt vocabulary definitions (depth + 1) node value
      ↔ ValidAt vocabulary [] (depth' + 1) result value := by
  cases node with
  | obj fields => exact absurd rfl (hnode fields)
  | arr items =>
    obtain ⟨items', -, hpure⟩ := bind_eq_ok.mp h
    obtain rfl := pure_eq_ok.mp hpure
    exact Iff.rfl
  | _ =>
    obtain rfl := Except.ok.inj h
    exact Iff.rfl

theorem restates_of_plain {fuel : ℕ} {activeRefs : List String} {result : List (String × Json)}
    (hplain : Plain vocabulary definitions fields)
    (h : inlineFields (inline definitions fuel activeRefs) fields = .ok result) :
    Restates portableKeys fields result :=
  restates_inlineFields h fun literal _ hliteral hrun =>
    inline_of_flat (hplain.literal literal hliteral) hrun

/-- **Where nothing is lost, the result accepts the same values.** -/
theorem validAt_inline_iff {fuel : ℕ} {activeRefs : List String} {node result : Json}
    (h : inline definitions fuel activeRefs node = .ok result)
    (hplain : PlainFrom vocabulary definitions node)
    (hlossless : LosslessFrom vocabulary definitions node) {depth depth' : ℕ}
    (hdepth : fuel ≤ depth) (hdepth' : fuel ≤ depth') {value : Json} :
    ValidAt vocabulary definitions depth node value
      ↔ ValidAt vocabulary [] depth' result value := by
  induction fuel generalizing activeRefs node result depth depth' value with
  | zero => cases h
  | succ fuel ih =>
    obtain ⟨depth, rfl⟩ : ∃ d, depth = d + 1 := ⟨depth - 1, by omega⟩
    obtain ⟨depth', rfl⟩ : ∃ d, depth' = d + 1 := ⟨depth' - 1, by omega⟩
    by_cases hobj : ∃ fields, node = .obj fields
    · obtain ⟨fields, rfl⟩ := hobj
      have hfields : Plain vocabulary definitions fields := hplain fields .refl
      rcases inline_obj_eq_ok h with ⟨ref, name, target, href, hname, htarget, -, hrun⟩ |
        ⟨hnone, others, hothers, rfl⟩
      · have hrefers : RefersTo definitions fields target := ⟨ref, name, href, hname, htarget⟩
        rw [← ih hrun (hplain.merge hrefers) (hlossless.merge hfields hrefers)
          (Nat.le_of_succ_le_succ hdepth) (Nat.le_of_succ_le hdepth')]
        exact ⟨validAt_merge hfields hrefers, validAt_of_merge hfields (hlossless fields .refl)
          (hlossless.step (.reference hrefers) target .refl) hrefers⟩
      · have hloss : Lossless vocabulary definitions fields := hlossless fields .refl
        rw [validAt_obj_iff hnone, validAt_obj_iff (reference_inlineFields hothers)]
        refine and_congr ?_ ?_
        · exact (restates_of_plain hfields hothers).asserts_iff
            (fun key keyword hkey hkept hlookup =>
              hloss.dropped key keyword hkey hkept (Json.mem_of_lookup hlookup) value)
            hloss.literal
        · exact (sameShape_inlineFields hothers).applies_iff fun child child' hchild v =>
            ih hchild.2 (hplain.step (.child hchild.1)) (hlossless.step (.child hchild.1))
              (Nat.le_of_succ_le_succ hdepth) (Nat.le_of_succ_le_succ hdepth')
    · exact validAt_scalar_iff h fun fields heq => hobj ⟨fields, heq⟩

/-- **The result accepts what the schema accepts.** -/
theorem validAt_inline {fuel : ℕ} {activeRefs : List String} {node result : Json}
    (h : inline definitions fuel activeRefs node = .ok result)
    (hplain : PlainFrom vocabulary definitions node) {depth depth' : ℕ} (hdepth : fuel ≤ depth)
    (hdepth' : fuel ≤ depth') {value : Json}
    (hvalid : ValidAt vocabulary definitions depth node value) :
    ValidAt vocabulary [] depth' result value := by
  induction fuel generalizing activeRefs node result depth depth' value with
  | zero => cases h
  | succ fuel ih =>
    obtain ⟨depth, rfl⟩ : ∃ d, depth = d + 1 := ⟨depth - 1, by omega⟩
    obtain ⟨depth', rfl⟩ : ∃ d, depth' = d + 1 := ⟨depth' - 1, by omega⟩
    by_cases hobj : ∃ fields, node = .obj fields
    · obtain ⟨fields, rfl⟩ := hobj
      have hfields : Plain vocabulary definitions fields := hplain fields .refl
      rcases inline_obj_eq_ok h with ⟨ref, name, target, href, hname, htarget, -, hrun⟩ |
        ⟨hnone, others, hothers, rfl⟩
      · have hrefers : RefersTo definitions fields target := ⟨ref, name, href, hname, htarget⟩
        exact ih hrun (hplain.merge hrefers) (Nat.le_of_succ_le_succ hdepth)
          (Nat.le_of_succ_le hdepth') (validAt_merge hfields hrefers hvalid)
      · rw [validAt_obj_iff hnone] at hvalid
        rw [validAt_obj_iff (reference_inlineFields hothers)]
        refine ⟨(restates_of_plain hfields hothers).asserts hvalid.1,
          (sameShape_inlineFields hothers).applies (fun child child' hchild v =>
            ih hchild.2 (hplain.step (.child hchild.1)) (Nat.le_of_succ_le_succ hdepth)
              (Nat.le_of_succ_le_succ hdepth')) ?_ hvalid.2⟩
        -- The branches of `oneOf` must not accept more, so there the equivalence is needed.
        intro schemas hschemas hlength child hmem child' hchild v
        obtain ⟨keyword, hkeyword, rfl⟩ := Option.map_eq_some_iff.mp hschemas
        have hbranch : ("oneOf", .arr (elements keyword)) ∈ fields := by
          cases keyword with
          | arr items => exact Json.mem_of_lookup hkeyword
          | _ => cases hmem
        exact (validAt_inline_iff hchild.2 (hplain.step (.child hchild.1))
          (hfields.oneOf _ hbranch hlength child hmem) (Nat.le_of_succ_le_succ hdepth)
          (Nat.le_of_succ_le_succ hdepth')).mpr
    · exact (validAt_scalar_iff h fun fields heq => hobj ⟨fields, heq⟩).mp hvalid

end Relaxation

/-! ## Portable keywords -/

/-- A schema with portable keywords only: no reference, no definitions. -/
inductive Portable : Json → Prop
  | scalar {node : Json} : (∀ items, node ≠ .arr items) → (∀ fields, node ≠ .obj fields) →
    Portable node
  | arr {items : List Json} : (∀ item ∈ items, Portable item) → Portable (.arr items)
  | obj {fields : List (String × Json)} : (∀ field ∈ fields, field.1 ∈ portableKeys) →
    (∀ child, Child fields child → Portable child) → Portable (.obj fields)

section Keywords

variable {definitions : List (String × Json)} {run : Json → Except SchemaError Json}
  {fields result : List (String × Json)}

theorem mem_describe {field : String × Json} (h : field ∈ describe fields result) :
    field ∈ result ∨ field.1 = "description" := by
  unfold describe at h
  cases hconstraint : constraintDescription fields with
  | none =>
    rw [hconstraint] at h
    exact .inl h
  | some text =>
    rw [hconstraint] at h
    rcases Json.mem_or_mem_of_mem_override h with h | h
    · exact .inr (by rw [List.mem_singleton.mp h])
    · exact .inl h

/-- The fields of a result. -/
theorem mem_inlineFields (h : inlineFields run fields = .ok result) {field : String × Json}
    (hfield : field ∈ result) : field.1 ∈ portableKeys
      ∧ (field.1 ∈ subschemaKeys → ∃ value, (field.1, value) ∈ fields
        ∧ inlineKeyword run field.1 value = .ok field.2) := by
  obtain ⟨literal, kept, rfl, hliteral, hkept⟩ := inlineFields_eq_ok h
  rcases mem_describe hfield with hfield | hkey
  · rcases Json.mem_or_mem_of_mem_override hfield with hfield | hfield
    · obtain ⟨original, horiginal, hkey, hvalue⟩ := exists_of_mem_right hkept hfield
      obtain ⟨hmem, hportable⟩ := List.mem_filter.mp horiginal
      rw [hkey]
      exact ⟨by simpa using hportable, fun _ => ⟨original.2, hmem, hvalue⟩⟩
    · obtain ⟨value, -, value', -, rfl⟩ := exists_of_mem_right hliteral hfield
      exact ⟨show "enum" ∈ portableKeys by decide,
        fun hkey => absurd hkey (show "enum" ∉ subschemaKeys by decide)⟩
  · rw [hkey]
    exact ⟨by decide, fun hkey => absurd hkey (by decide)⟩

/-- A subschema of a result is an inlined subschema. -/
theorem child_inlineFields (h : inlineFields run fields = .ok result) {child' : Json}
    (hchild : Child result child') : ∃ child, Child fields child ∧ run child = .ok child' := by
  cases hchild with
  | property hproperty hmem =>
    obtain ⟨value, hvalue, hkeyword⟩ := (mem_inlineFields h hproperty).2
      (show "properties" ∈ subschemaKeys by decide)
    cases value with
    | obj children =>
      obtain ⟨children', hchildren, hpure⟩ := bind_eq_ok.mp hkeyword
      obtain rfl := Json.obj.inj (pure_eq_ok.mp hpure)
      obtain ⟨child, hchild, -, hrun⟩ := exists_of_mem_right (mapM_pair hchildren) hmem
      exact ⟨child.2, .property hvalue hchild, hrun⟩
    | _ => cases hkeyword
  | schema hkey hschema =>
    obtain ⟨value, hvalue, hkeyword⟩ :=
      (mem_inlineFields h hschema).2 (mem_subschemaKeys_of_mem hkey)
    rw [inlineKeyword_schema hkey] at hkeyword
    exact ⟨value, .schema hkey hvalue, hkeyword⟩
  | branch hkey hschemas hmem =>
    obtain ⟨value, hvalue, hkeyword⟩ :=
      (mem_inlineFields h hschemas).2 (mem_subschemaKeys_of_mem_combinators hkey)
    rw [inlineKeyword_branches hkey] at hkeyword
    cases value with
    | arr schemas =>
      obtain ⟨schemas', hschemas', hpure⟩ := bind_eq_ok.mp hkeyword
      obtain rfl := Json.arr.inj (pure_eq_ok.mp hpure)
      obtain ⟨child, hchild, hrun⟩ := exists_of_mem_right (mapM_eq_ok_iff_forall₂.mp hschemas') hmem
      exact ⟨child, .branch hkey hvalue hchild, hrun⟩
    | _ => cases hkeyword

theorem portable_inline {fuel : ℕ} {activeRefs : List String} {node result : Json}
    (h : inline definitions fuel activeRefs node = .ok result) : Portable result := by
  induction fuel generalizing activeRefs node result with
  | zero => cases h
  | succ fuel ih =>
    cases node with
    | obj fields =>
      rcases inline_obj_eq_ok h with ⟨_, _, _, -, -, -, -, hrun⟩ | ⟨-, others, hothers, rfl⟩
      · exact ih hrun
      · refine .obj (fun field hfield => (mem_inlineFields hothers hfield).1)
          fun child' hchild' => ?_
        obtain ⟨child, -, hrun⟩ := child_inlineFields hothers hchild'
        exact ih hrun
    | arr items =>
      obtain ⟨items', hitems, hpure⟩ := bind_eq_ok.mp h
      obtain rfl := pure_eq_ok.mp hpure
      refine .arr fun item' hitem' => ?_
      obtain ⟨item, -, hrun⟩ := exists_of_mem_right (mapM_eq_ok_iff_forall₂.mp hitems) hitem'
      exact ih hrun
    | _ =>
      obtain rfl := Except.ok.inj h
      exact .scalar (by simp) (by simp)

end Keywords

end IouAi.PortableSchema
