import IouAi.Schemas.Relaxation

/-!
# When a schema is adapted

The transformation ends on every schema. Of a plain schema it fails exactly for a malformed keyword
or a reference that is unsupported, unresolved or cyclic, and otherwise its result accepts what the
schema accepts (`adapts_of_plainSchema`). Without one of the conditions it goes wrong
(`not_adapts`).
-/

namespace IouAi.PortableSchema

open Checks JsonSchema

/-! ## Errors -/

/-- A keyword with subschemas that is not what it has to be. -/
def Malformed (fields : List (String × Json)) : Prop :=
  (∃ value, ("properties", value) ∈ fields ∧ ∀ children, value ≠ .obj children)
    ∨ ∃ key ∈ combinators, ∃ value, (key, value) ∈ fields ∧ ∀ schemas, value ≠ .arr schemas

/-- A definition that reaches a reference to itself. -/
def Cyclic (definitions : List (String × Json)) (name : String) : Prop :=
  ∃ target fields ref, Json.lookup definitions name = some (.obj target)
    ∧ Reaches definitions (.obj target) (.obj fields)
    ∧ reference fields = some ref ∧ referenceName ref = some name

/-- A reference that is unsupported, unresolved or cyclic. -/
def BadReference (definitions fields : List (String × Json)) : Prop :=
  ∃ ref, reference fields = some ref
    ∧ ∀ name, referenceName ref = some name →
      (∀ target, Json.lookup definitions name ≠ some (.obj target)) ∨ Cyclic definitions name

/-- A node for which a `ValueError` is raised. -/
def Refused (definitions fields : List (String × Json)) : Prop :=
  Malformed fields ∨ BadReference definitions fields

section Errors

variable {vocabulary : Vocabulary} {definitions fields others target : List (String × Json)}
  {run : Json → Except SchemaError Json}

theorem Alike.malformed (h : Alike fields others) (hfields : Malformed fields) :
    Malformed others := by
  rcases hfields with ⟨value, hmem, hvalue⟩ | ⟨key, hkey, value, hmem, hvalue⟩
  · exact .inl ⟨value, (h.mem _ (show "properties" ∈ subschemaKeys by decide)).mp hmem, hvalue⟩
  · exact .inr ⟨key, hkey, value,
      (h.mem _ (mem_subschemaKeys_of_mem_combinators hkey)).mp hmem, hvalue⟩

/-- Of an object that is inlined, the keywords are well-formed and the subschemas are inlined. -/
theorem inlineFields_ok {result : List (String × Json)} (h : inlineFields run fields = .ok result) :
    (∀ literal, Json.lookup fields "const" = some literal → ∃ value, run literal = .ok value)
      ∧ ¬ Malformed fields ∧ ∀ child, Child fields child → ∃ child', run child = .ok child' := by
  obtain ⟨literal, kept, -, hliteral, hkept⟩ := inlineFields_eq_ok h
  have hkeyword : ∀ key value, key ∈ portableKeys → (key, value) ∈ fields →
      ∃ value', inlineKeyword run key value = .ok value' := by
    intro key value hkey hmem
    have hfilter : (key, value) ∈ fields.filter fun field => field.1 ∈ portableKeys :=
      List.mem_filter.mpr ⟨hmem, by simpa using hkey⟩
    obtain ⟨other, -, -, hvalue⟩ := exists_of_mem_right hkept.flip hfilter
    exact ⟨other.2, hvalue⟩
  have hportable : ∀ key ∈ combinators, key ∈ portableKeys := by
    intro key hkey
    simp only [combinators, List.mem_cons, List.not_mem_nil, or_false] at hkey
    rcases hkey with rfl | rfl | rfl <;> decide
  refine ⟨fun literal hlookup => ?_, ?_, ?_⟩
  · obtain ⟨-, -, value, hrun, -⟩ :=
      exists_of_mem_right hliteral.flip (Option.mem_toList.mpr hlookup)
    exact ⟨value, hrun⟩
  · rintro (⟨value, hmem, hvalue⟩ | ⟨key, hkey, value, hmem, hvalue⟩)
    · obtain ⟨value', hvalue'⟩ := hkeyword "properties" value (by decide) hmem
      cases value with
      | obj children => exact hvalue children rfl
      | _ => cases hvalue'
    · obtain ⟨value', hvalue'⟩ := hkeyword key value (hportable key hkey) hmem
      rw [inlineKeyword_branches hkey] at hvalue'
      cases value with
      | arr schemas => exact hvalue schemas rfl
      | _ => cases hvalue'
  · intro child hchild
    cases hchild with
    | property hproperty hmem =>
      have hkey : "properties" ∈ portableKeys := by decide
      obtain ⟨value', hvalue'⟩ := hkeyword _ _ hkey hproperty
      obtain ⟨children', hchildren, -⟩ := bind_eq_ok.mp hvalue'
      obtain ⟨child', -, -, hrun⟩ := exists_of_mem_right (mapM_pair hchildren).flip hmem
      exact ⟨child'.2, hrun⟩
    | @schema key child hkey hmem =>
      have hschema : key ∈ portableKeys := by
        simp only [List.mem_cons, List.not_mem_nil, or_false] at hkey
        rcases hkey with rfl | rfl <;> decide
      obtain ⟨value', hvalue'⟩ := hkeyword key child hschema hmem
      rw [inlineKeyword_schema hkey] at hvalue'
      exact ⟨value', hvalue'⟩
    | branch hkey hmem hschema =>
      obtain ⟨value', hvalue'⟩ := hkeyword _ _ (hportable _ hkey) hmem
      rw [inlineKeyword_branches hkey] at hvalue'
      obtain ⟨schemas', hschemas', -⟩ := bind_eq_ok.mp hvalue'
      obtain ⟨child', -, hrun⟩ :=
        exists_of_mem_right (mapM_eq_ok_iff_forall₂.mp hschemas').flip hschema
      exact ⟨child', hrun⟩

theorem mem_of_mapM_eq_error {α β : Type} {f : α → Except SchemaError β} {xs : List α}
    {error : SchemaError} (h : xs.mapM f = .error error) : ∃ x ∈ xs, f x = .error error := by
  obtain ⟨before, x, after, rfl, -, hx⟩ := mapM_eq_error.mp h
  exact ⟨x, by simp, hx⟩

theorem inlineKeyword_eq_error {key : String} {value : Json} {error : SchemaError}
    (hmem : (key, value) ∈ fields) (h : inlineKeyword run key value = .error error) :
    (∃ child, Child fields child ∧ run child = .error error)
      ∨ (error ≠ .recursion ∧ Malformed fields) := by
  by_cases hproperties : key = "properties"
  · subst hproperties
    cases value with
    | obj children =>
      rcases bind_eq_error.mp h with h | ⟨_, -, hpure⟩
      · obtain ⟨child, hchild, h⟩ := mem_of_mapM_eq_error h
        rcases bind_eq_error.mp h with h | ⟨_, -, hpure⟩
        · exact .inl ⟨child.2, .property hmem hchild, h⟩
        · exact absurd hpure pure_ne_error
      · exact absurd hpure pure_ne_error
    | _ =>
      obtain rfl := Except.error.inj h
      exact .inr ⟨by simp, .inl ⟨_, hmem, by simp⟩⟩
  by_cases hschema : key ∈ ["items", "additionalProperties"]
  · rw [inlineKeyword_schema hschema] at h
    exact .inl ⟨value, .schema hschema hmem, h⟩
  by_cases hbranches : key ∈ combinators
  · rw [inlineKeyword_branches hbranches] at h
    cases value with
    | arr schemas =>
      rcases bind_eq_error.mp h with h | ⟨_, -, hpure⟩
      · obtain ⟨child, hchild, h⟩ := mem_of_mapM_eq_error h
        exact .inl ⟨child, .branch hbranches hmem hchild, h⟩
      · exact absurd hpure pure_ne_error
    | _ =>
      obtain rfl := Except.error.inj h
      exact .inr ⟨by simp, .inr ⟨key, hbranches, _, hmem, by simp⟩⟩
  · rw [inlineKeyword_leaf hproperties hschema hbranches] at h
    cases h

/-- Where an object fails that has no reference. -/
theorem inlineFields_eq_error {error : SchemaError} (h : inlineFields run fields = .error error) :
    (∃ literal, Json.lookup fields "const" = some literal ∧ run literal = .error error)
      ∨ (∃ child, Child fields child ∧ run child = .error error)
      ∨ (error ≠ .recursion ∧ Malformed fields) := by
  rcases bind_eq_error.mp h with h | ⟨literal, -, h⟩
  · obtain ⟨literal, hliteral, h⟩ := mem_of_mapM_eq_error h
    rcases bind_eq_error.mp h with h | ⟨_, -, hpure⟩
    · exact .inl ⟨literal, Option.mem_toList.mp hliteral, h⟩
    · exact absurd hpure pure_ne_error
  · rcases bind_eq_error.mp h with h | ⟨_, -, hpure⟩
    · obtain ⟨field, hfield, h⟩ := mem_of_mapM_eq_error h
      rcases bind_eq_error.mp h with h | ⟨_, -, hpure⟩
      · exact .inr (inlineKeyword_eq_error (List.mem_filter.mp hfield).1 h)
      · exact absurd hpure pure_ne_error
    · exact absurd hpure pure_ne_error

/-- How an object fails: at its reference, in the definition, or without a reference. -/
theorem inline_obj_eq_error {fuel : ℕ} {activeRefs : List String} {error : SchemaError}
    (h : inline definitions (fuel + 1) activeRefs (.obj fields) = .error error) :
    (error ≠ .recursion ∧ ∃ ref, reference fields = some ref ∧ ∀ name,
        referenceName ref = some name →
          (∀ target, Json.lookup definitions name ≠ some (.obj target)) ∨ name ∈ activeRefs)
      ∨ (∃ ref name target, reference fields = some ref ∧ referenceName ref = some name
        ∧ Json.lookup definitions name = some (.obj target) ∧ name ∉ activeRefs
        ∧ inline definitions fuel (name :: activeRefs) (.obj (merge target fields)) = .error error)
      ∨ (reference fields = none
        ∧ inlineFields (inline definitions fuel activeRefs) fields = .error error) := by
  rw [inline] at h
  split at h
  · rename_i ref href
    split at h
    · rename_i hname
      obtain rfl := Except.error.inj h
      exact .inl ⟨by simp, ref, href, fun name hname' => by rw [hname] at hname'; cases hname'⟩
    · rename_i name hname
      have hunique : ∀ name', referenceName ref = some name' → name' = name := fun name' hname' =>
        Option.some.inj (hname'.symm.trans hname)
      split at h
      · rename_i hnone
        obtain rfl := Except.error.inj h
        refine .inl ⟨by simp, ref, href, fun name' hname' => .inl fun target htarget => ?_⟩
        rw [hunique name' hname', hnone] at htarget
        cases htarget
      · rename_i target htarget
        split_ifs at h with hactive
        · obtain rfl := Except.error.inj h
          exact .inl ⟨by simp, ref, href, fun name' hname' =>
            .inr (hunique name' hname' ▸ hactive)⟩
        · cases target with
          | obj target => exact .inr (.inl ⟨ref, name, target, href, hname, htarget, hactive, h⟩)
          | _ =>
            obtain rfl := Except.error.inj h
            refine .inl ⟨by simp, ref, href, fun name' hname' => .inl fun target' htarget' => ?_⟩
            rw [hunique name' hname', htarget] at htarget'
            cases htarget'
  · rename_i href
    rcases bind_eq_error.mp h with h | ⟨_, -, hpure⟩
    · exact .inr (.inr ⟨href, h⟩)
    · exact absurd hpure pure_ne_error

/-- A literal without an object fails for want of fuel only. -/
theorem inline_flat_eq_error {literal : Json} (hflat : Flat literal) {fuel : ℕ}
    {activeRefs : List String} {error : SchemaError}
    (h : inline definitions fuel activeRefs literal = .error error) : error = .recursion := by
  induction hflat generalizing fuel error with
  | @arr items _ ih =>
    cases fuel with
    | zero => exact (Except.error.inj h).symm
    | succ fuel =>
      rcases bind_eq_error.mp h with h | ⟨_, -, hpure⟩
      · obtain ⟨item, hitem, h⟩ := mem_of_mapM_eq_error h
        exact ih item hitem h
      · exact absurd hpure pure_ne_error
  | _ =>
    cases fuel with
    | zero => exact (Except.error.inj h).symm
    | succ fuel => cases h

/-- **An error has a cause**: a node that is reached and refused, or a reference that is being
expanded. -/
theorem exists_of_inline_eq_error {fuel : ℕ} {activeRefs : List String} {node : Json}
    {error : SchemaError} (h : inline definitions fuel activeRefs node = .error error)
    (herror : error ≠ .recursion) (hplain : PlainFrom vocabulary definitions node) :
    ∃ fields, Reaches definitions node (.obj fields) ∧ (Malformed fields
      ∨ ∃ ref, reference fields = some ref ∧ ∀ name, referenceName ref = some name →
        (∀ target, Json.lookup definitions name ≠ some (.obj target)) ∨ name ∈ activeRefs
          ∨ Cyclic definitions name) := by
  induction fuel generalizing activeRefs node with
  | zero => exact absurd (Except.error.inj h).symm herror
  | succ fuel ih =>
    cases node with
    | arr items =>
      rcases bind_eq_error.mp h with h | ⟨_, -, hpure⟩
      · obtain ⟨item, hitem, h⟩ := mem_of_mapM_eq_error h
        obtain ⟨fields, hreaches, hcause⟩ := ih h (hplain.step (.element hitem))
        exact ⟨fields, .head (.element hitem) hreaches, hcause⟩
      · exact absurd hpure pure_ne_error
    | obj fields =>
      have hfields : Plain vocabulary definitions fields := hplain fields .refl
      rcases inline_obj_eq_error h with ⟨-, ref, href, hcauses⟩ |
        ⟨ref, name, target, href, hname, htarget, -, h⟩ | ⟨-, h⟩
      · exact ⟨fields, .refl, .inr ⟨ref, href, fun name hname =>
          (hcauses name hname).imp id .inl⟩⟩
      · have hrefers : RefersTo definitions fields target := ⟨ref, name, href, hname, htarget⟩
        obtain ⟨ends, hreaches, hcause⟩ := ih h (hplain.merge hrefers)
        obtain ⟨ends', hends, hreaches'⟩ := (hfields.alike_merge hrefers).reaches hreaches
        refine ⟨ends', .head (.reference hrefers) hreaches', hcause.imp hends.malformed ?_⟩
        rintro ⟨ref', href', hcause⟩
        refine ⟨ref', hends.reference ▸ href', fun name' hname' => ?_⟩
        rcases hcause name' hname' with hnone | hactive | hcyclic
        · exact .inl hnone
        · rcases List.mem_cons.mp hactive with rfl | hactive
          · exact .inr (.inr ⟨target, ends', ref', htarget, hreaches', hends.reference ▸ href',
              hname'⟩)
          · exact .inr (.inl hactive)
        · exact .inr (.inr hcyclic)
      · rcases inlineFields_eq_error h with ⟨literal, hliteral, h⟩ | ⟨child, hchild, h⟩ |
          ⟨-, hmalformed⟩
        · exact absurd (inline_flat_eq_error
            (hfields.literal literal (Json.mem_of_lookup hliteral)) h) herror
        · obtain ⟨ends, hreaches, hcause⟩ := ih h (hplain.step (.child hchild))
          exact ⟨ends, .head (.child hchild) hreaches, hcause⟩
        · exact ⟨fields, .refl, .inl hmalformed⟩
    | _ => cases h

/-! ### Expansion along a path -/

theorem inline_obj_reference {ref : Json} {name : String} (href : reference fields = some ref)
    (hname : referenceName ref = some name)
    (htarget : Json.lookup definitions name = some (.obj target)) {fuel : ℕ}
    {activeRefs : List String} (hactive : name ∉ activeRefs) :
    inline definitions (fuel + 1) activeRefs (.obj fields)
      = inline definitions fuel (name :: activeRefs) (.obj (merge target fields)) := by
  rw [inline]
  simp only [href, hname, htarget, if_neg hactive]

theorem Alike.trans {third : List (String × Json)} (h : Alike fields others)
    (h' : Alike others third) : Alike fields third where
  reference := h.reference.trans h'.reference
  mem field hfield := (h.mem field hfield).trans (h'.mem field hfield)
  literal := h.literal.trans h'.literal

/-- Objects that are alike are inlined alike. -/
theorem Alike.inline (h : Alike fields others)
    (hplain : PlainFrom vocabulary definitions (.obj fields)) {fuel : ℕ}
    {activeRefs : List String} {result : Json}
    (hresult : PortableSchema.inline definitions fuel activeRefs (.obj fields) = .ok result) :
    ∃ result', PortableSchema.inline definitions fuel activeRefs (.obj others) = .ok result' := by
  induction fuel generalizing fields others activeRefs result with
  | zero => cases hresult
  | succ fuel ih =>
    have hfields : Plain vocabulary definitions fields := hplain fields .refl
    rcases inline_obj_eq_ok hresult with ⟨ref, name, target, href, hname, htarget, hactive, hrun⟩ |
      ⟨hnone, result, hrun, -⟩
    · have hrefers : RefersTo definitions fields target := ⟨ref, name, href, hname, htarget⟩
      have hleaves : ∀ field ∈ others, field.1 ∉ subschemaKeys := fun field hfield hkey =>
        hfields.leaves hrefers field ((h.mem field hkey).mpr hfield) hkey
      rw [inline_obj_reference (h.reference ▸ href) hname htarget hactive]
      exact ih ((hfields.alike_merge hrefers).trans (alike_merge hleaves).symm)
        (hplain.merge hrefers) hrun
    · obtain ⟨hliteral, hmalformed, hchildren⟩ := inlineFields_ok hrun
      cases hothers : PortableSchema.inline definitions (fuel + 1) activeRefs (.obj others) with
      | ok result' => exact ⟨result', rfl⟩
      | error error =>
        rcases inline_obj_eq_error hothers with ⟨-, ref, href, -⟩ | ⟨ref, _, _, href, -⟩ |
          ⟨-, hothers⟩
        · rw [← h.reference, hnone] at href
          cases href
        · rw [← h.reference, hnone] at href
          cases href
        · rcases inlineFields_eq_error hothers with ⟨literal, hlookup, herror⟩ |
            ⟨child, hchild, herror⟩ | ⟨-, hbad⟩
          · obtain ⟨value, hvalue⟩ := hliteral literal (h.literal.trans hlookup)
            rw [hvalue] at herror
            cases herror
          · obtain ⟨child', hchild'⟩ := hchildren child (h.symm.child hchild)
            rw [hchild'] at herror
            cases herror
          · exact absurd (h.symm.malformed hbad) hmalformed

/-- **Every node that is reached is inlined**, under the references that lead to it. -/
theorem exists_inline_of_reaches {node node' : Json} (hreaches : Reaches definitions node node')
    (hplain : PlainFrom vocabulary definitions node) {fuel : ℕ} {activeRefs : List String}
    {result : Json} (h : inline definitions fuel activeRefs node = .ok result) :
    ∃ fuel' activeRefs' result', activeRefs ⊆ activeRefs'
      ∧ inline definitions fuel' activeRefs' node' = .ok result' := by
  induction hreaches using Relation.ReflTransGen.head_induction_on generalizing fuel activeRefs
    result with
  | refl => exact ⟨fuel, activeRefs, result, List.Subset.refl _, h⟩
  | head hstep _ ih =>
    have hnext := hplain.step hstep
    cases fuel with
    | zero => cases h
    | succ fuel =>
      cases hstep with
      | element hitem =>
        obtain ⟨items', hitems, -⟩ := bind_eq_ok.mp h
        obtain ⟨item', -, hrun⟩ :=
          exists_of_mem_right (mapM_eq_ok_iff_forall₂.mp hitems).flip hitem
        exact ih hnext hrun
      | @child fields _ hchild =>
        rcases inline_obj_eq_ok h with ⟨ref, name, target, href, hname, htarget, -, -⟩ |
          ⟨-, others, hothers, -⟩
        · obtain ⟨field, hfield, hkey⟩ := hchild.exists_mem
          exact absurd hkey ((hplain fields .refl).leaves
            ⟨ref, name, href, hname, htarget⟩ field hfield)
        · obtain ⟨child', hrun⟩ := (inlineFields_ok hothers).2.2 _ hchild
          exact ih hnext hrun
      | @reference fields target hrefers =>
        obtain ⟨ref, name, href, hname, htarget⟩ := hrefers
        have hrefers : RefersTo definitions fields target := ⟨ref, name, href, hname, htarget⟩
        rcases inline_obj_eq_ok h with ⟨ref', name', target', href', hname', htarget', -, hrun⟩ |
          ⟨hnone, -⟩
        · obtain rfl := refersTo_unique hrefers ⟨ref', name', href', hname', htarget'⟩
          obtain ⟨result', hresult'⟩ :=
            ((hplain fields .refl).alike_merge hrefers).inline (hplain.merge hrefers) hrun
          obtain ⟨fuel', activeRefs', result'', hsubset, hrun'⟩ := ih hnext hresult'
          exact ⟨fuel', activeRefs', result'', fun x hx => hsubset (List.mem_cons_of_mem _ hx),
            hrun'⟩
        · rw [hnone] at href
          cases href

/-- A node that is inlined has no cause of an error, nor a reference that is being expanded. -/
theorem of_inline_eq_ok {fuel : ℕ} {activeRefs : List String} {result : Json}
    (h : inline definitions fuel activeRefs (.obj fields) = .ok result)
    (hplain : PlainFrom vocabulary definitions (.obj fields)) :
    ¬ Malformed fields ∧ ∀ ref, reference fields = some ref → ∃ name target,
      referenceName ref = some name ∧ Json.lookup definitions name = some (.obj target)
        ∧ name ∉ activeRefs ∧ ∃ fuel' result',
          inline definitions fuel' (name :: activeRefs) (.obj target) = .ok result' := by
  cases fuel with
  | zero => cases h
  | succ fuel =>
    rcases inline_obj_eq_ok h with ⟨ref, name, target, href, hname, htarget, hactive, hrun⟩ |
      ⟨hnone, others, hothers, -⟩
    · have hrefers : RefersTo definitions fields target := ⟨ref, name, href, hname, htarget⟩
      have hfields : Plain vocabulary definitions fields := hplain fields .refl
      obtain ⟨result', hresult'⟩ := (hfields.alike_merge hrefers).inline (hplain.merge hrefers) hrun
      constructor
      · rintro (⟨value, hmem, -⟩ | ⟨key, hkey, value, hmem, -⟩)
        · exact hfields.leaves hrefers _ hmem (show "properties" ∈ subschemaKeys by decide)
        · exact hfields.leaves hrefers _ hmem (mem_subschemaKeys_of_mem_combinators hkey)
      · intro ref' href'
        obtain rfl := Option.some.inj (href.symm.trans href')
        exact ⟨name, target, hname, htarget, hactive, fuel, result', hresult'⟩
    · refine ⟨(inlineFields_ok hothers).2.1, fun ref href => ?_⟩
      rw [hnone] at href
      cases href

/-- **What is inlined reaches nothing that is refused.** -/
theorem not_refused_of_inline_eq_ok {node : Json} {fuel : ℕ} {activeRefs : List String}
    {result : Json} (h : inline definitions fuel activeRefs node = .ok result)
    (hplain : PlainFrom vocabulary definitions node)
    (hreaches : Reaches definitions node (.obj fields)) : ¬ Refused definitions fields := by
  have hfrom : PlainFrom vocabulary definitions (.obj fields) := fun ends hends =>
    hplain ends (hreaches.trans hends)
  obtain ⟨fuel', activeRefs', result', -, hrun⟩ := exists_inline_of_reaches hreaches hplain h
  obtain ⟨hmalformed, hreference⟩ := of_inline_eq_ok hrun hfrom
  rintro (hbad | ⟨ref, href, hcause⟩)
  · exact hmalformed hbad
  obtain ⟨name, target, hname, htarget, hactive, fuel'', result'', hrun'⟩ := hreference ref href
  rcases hcause name hname with hnone | ⟨target', ends, ref', htarget', hends, href', hname'⟩
  · exact hnone target htarget
  -- Expanding the definition leads to the reference again, under its own name.
  obtain rfl := Json.obj.inj (Option.some.inj (htarget.symm.trans htarget'))
  have hfrom' : PlainFrom vocabulary definitions (.obj target) :=
    hfrom.step (.reference ⟨ref, name, href, hname, htarget⟩)
  obtain ⟨_, activeRefs'', _, hsubset, hrun''⟩ := exists_inline_of_reaches hends hfrom' hrun'
  obtain ⟨-, hagain⟩ := of_inline_eq_ok hrun'' fun last hlast => hfrom' last (hends.trans hlast)
  obtain ⟨name', target', hname'', -, hactive', -⟩ := hagain ref' href'
  obtain rfl := Option.some.inj (hname'.symm.trans hname'')
  exact hactive' (hsubset List.mem_cons_self)

end Errors

/-! ## Termination -/

section Termination

variable {definitions : List (String × Json)}

/-- The definitions that are not being expanded. -/
def remaining (definitions : List (String × Json)) (activeRefs : List String) : ℕ :=
  (definitions.filter fun field => field.1 ∉ activeRefs).length

theorem remaining_cons_lt {activeRefs : List String} {name : String} {target : Json}
    (htarget : Json.lookup definitions name = some target) (hactive : name ∉ activeRefs) :
    remaining definitions (name :: activeRefs) < remaining definitions activeRefs := by
  have hmem := Json.mem_of_lookup htarget
  unfold remaining
  rw [show (definitions.filter fun field => field.1 ∉ name :: activeRefs)
    = (definitions.filter fun field => field.1 ∉ activeRefs).filter fun field => field.1 ≠ name by
      rw [List.filter_filter]
      congr 1
      funext field
      simp [not_or]]
  refine List.length_filter_lt_length_iff_exists.mpr ⟨(name, target), ?_, by simp⟩
  exact List.mem_filter.mpr ⟨hmem, by simpa using hactive⟩

theorem depth_child_le {fields : List (String × Json)} {child : Json} (h : Child fields child) :
    Json.depth child < Json.depth (.obj fields) := by
  rw [Json.depth, Nat.lt_succ_iff]
  cases h with
  | property hmem hchild =>
    have hvalue := Json.depth_le_depthFields hmem
    have hinner := Json.depth_le_depthFields hchild
    rw [Json.depth] at hvalue
    omega
  | schema _ hmem => exact Json.depth_le_depthFields hmem
  | branch _ hmem hchild =>
    have hvalue := Json.depth_le_depthFields hmem
    have hinner := Json.depth_le_depthItems hchild
    rw [Json.depth] at hvalue
    omega

/-- **Enough fuel.** A definition that is expanded is not expanded again, and between two of them
the depth decreases. -/
theorem inline_ne_recursion {bound fuel : ℕ} {activeRefs : List String} {node : Json}
    (hdefinitions : ∀ field ∈ definitions, Json.depth field.2 ≤ bound)
    (hnode : Json.depth node ≤ bound)
    (hfuel : remaining definitions activeRefs * (bound + 1) + Json.depth node < fuel) :
    inline definitions fuel activeRefs node ≠ .error .recursion := by
  induction fuel generalizing activeRefs node with
  | zero => omega
  | succ fuel ih =>
    intro h
    cases node with
    | arr items =>
      rcases bind_eq_error.mp h with h | ⟨_, -, hpure⟩
      · obtain ⟨item, hitem, h⟩ := mem_of_mapM_eq_error h
        have hitem' := Json.depth_le_depthItems hitem
        rw [Json.depth] at hnode hfuel
        exact ih (by omega) (by omega) h
      · exact absurd hpure pure_ne_error
    | obj fields =>
      rw [Json.depth] at hnode
      rcases inline_obj_eq_error h with ⟨hne, -⟩ | ⟨ref, name, target, -, -, htarget, hactive, h⟩ |
        ⟨-, h⟩
      · exact hne rfl
      · have hlt := remaining_cons_lt htarget hactive
        have htarget' := hdefinitions _ (Json.mem_of_lookup htarget)
        rw [Json.depth] at htarget'
        have hmerge : Json.depth (.obj (merge target fields)) ≤ bound := by
          obtain ⟨bound', rfl⟩ : ∃ n, bound = n + 1 := ⟨bound - 1, by omega⟩
          rw [Json.depth]
          refine Nat.succ_le_succ (Json.depthFields_override (by omega)
            (Json.depthFields_le fun field hfield => ?_))
          exact (Json.depth_le_depthFields (List.mem_filter.mp hfield).1).trans (by omega)
        refine ih hmerge ?_ h
        have hmul := Nat.mul_le_mul_right (bound + 1) hlt
        rw [Nat.succ_mul] at hmul
        omega
      · rcases inlineFields_eq_error h with ⟨literal, hlookup, h⟩ | ⟨child, hchild, h⟩ | ⟨hne, -⟩
        · have hliteral : Json.depth literal ≤ Json.depthFields fields :=
            Json.depth_le_depthFields (Json.mem_of_lookup hlookup)
          rw [Json.depth] at hfuel
          exact ih (by omega) (by omega) h
        · have hlt := depth_child_le hchild
          rw [Json.depth] at hlt hfuel
          exact ih (by omega) (by omega) h
        · exact hne rfl
    | _ => cases h

theorem anthropicPortableSchema_ne_recursion (schema : List (String × Json)) :
    anthropicPortableSchema schema ≠ .error .recursion := by
  unfold anthropicPortableSchema
  cases hdefinitions : definitionsOf schema with
  | none => simp
  | some definitions =>
    have hdepth : ∀ field ∈ definitions, Json.depth field.2 ≤ Json.depth (.obj schema) := by
      intro field hfield
      unfold definitionsOf at hdefinitions
      cases hlookup : Json.lookup schema "$defs" with
      | none =>
        rw [hlookup] at hdefinitions
        obtain rfl := Option.some.inj hdefinitions
        cases hfield
      | some value =>
        rw [hlookup, Option.getD_some] at hdefinitions
        have hvalue : Json.depth value ≤ Json.depthFields schema :=
          Json.depth_le_depthFields (Json.mem_of_lookup hlookup)
        cases value with
        | obj fields =>
          obtain rfl := Option.some.inj hdefinitions
          have hinner := Json.depth_le_depthFields hfield
          rw [Json.depth] at hvalue ⊢
          omega
        | _ => cases hdefinitions
    have hsource : Json.depth (.obj (sourceOf schema)) ≤ Json.depth (.obj schema) := by
      rw [Json.depth, Json.depth]
      exact Nat.succ_le_succ (Json.depthFields_le fun field hfield =>
        Json.depth_le_depthFields (List.mem_filter.mp hfield).1)
    have hfuel : remaining definitions [] * (Json.depth (.obj schema) + 1)
        + Json.depth (.obj (sourceOf schema)) < fuelOf schema definitions := by
      have hremaining : remaining definitions [] ≤ definitions.length := List.length_filter_le _ _
      have hmul := Nat.mul_le_mul_right (Json.depth (.obj schema) + 1) hremaining
      rw [fuelOf, Nat.succ_mul]
      omega
    intro h
    rcases bind_eq_error.mp h with h | ⟨result, -, h⟩
    · exact inline_ne_recursion hdepth hsource hfuel h
    · cases result <;> cases h

end Termination

/-! ## A schema and its portable form -/

/-- What the transformation is to do with a schema. -/
structure Adapts (vocabulary : Vocabulary) (schema : List (String × Json)) : Prop where
  terminates : anthropicPortableSchema schema ≠ .error .recursion
  portable : ∀ result, anthropicPortableSchema schema = .ok result → Portable (.obj result)
  relaxes : ∀ result definitions, anthropicPortableSchema schema = .ok result →
    definitionsOf schema = some definitions → ∀ value,
      Valid vocabulary definitions (.obj (sourceOf schema)) value →
        Valid vocabulary [] (.obj result) value
  refuses : (∃ error, anthropicPortableSchema schema = .error error)
    ↔ definitionsOf schema = none ∨ ∃ definitions fields, definitionsOf schema = some definitions
      ∧ Reaches definitions (.obj (sourceOf schema)) (.obj fields) ∧ Refused definitions fields

/-- A schema of which every object that is reached is plain. -/
def PlainSchema (vocabulary : Vocabulary) (schema : List (String × Json)) : Prop :=
  ∀ definitions, definitionsOf schema = some definitions →
    PlainFrom vocabulary definitions (.obj (sourceOf schema))

section Adapts

variable {vocabulary : Vocabulary} {schema result definitions : List (String × Json)}

theorem anthropicPortableSchema_eq_ok (h : anthropicPortableSchema schema = .ok result) :
    ∃ definitions, definitionsOf schema = some definitions
      ∧ inline definitions (fuelOf schema definitions) [] (.obj (sourceOf schema))
        = .ok (.obj result) := by
  unfold anthropicPortableSchema at h
  cases hdefinitions : definitionsOf schema with
  | none =>
    rw [hdefinitions] at h
    cases h
  | some definitions =>
    rw [hdefinitions] at h
    obtain ⟨node, hnode, h⟩ := bind_eq_ok.mp h
    refine ⟨definitions, rfl, hnode.trans ?_⟩
    cases node with
    | obj fields => rw [pure_eq_ok.mp h]
    | _ => cases h

/-- An object is inlined to an object. -/
theorem exists_obj_of_inline {fields : List (String × Json)} {fuel : ℕ}
    {activeRefs : List String} {node : Json}
    (h : inline definitions fuel activeRefs (.obj fields) = .ok node) :
    ∃ others, node = .obj others := by
  induction fuel generalizing fields activeRefs with
  | zero => cases h
  | succ fuel ih =>
    rcases inline_obj_eq_ok h with ⟨_, _, _, -, -, -, -, hrun⟩ | ⟨-, others, -, rfl⟩
    · exact ih hrun
    · exact ⟨others, rfl⟩

theorem anthropicPortableSchema_eq_error {error : SchemaError}
    (h : anthropicPortableSchema schema = .error error)
    (hdefinitions : definitionsOf schema = some definitions) :
    inline definitions (fuelOf schema definitions) [] (.obj (sourceOf schema)) = .error error := by
  unfold anthropicPortableSchema at h
  rw [hdefinitions] at h
  rcases bind_eq_error.mp h with h | ⟨node, hnode, h⟩
  · exact h
  · obtain ⟨others, rfl⟩ := exists_obj_of_inline hnode
    exact absurd h pure_ne_error

end Adapts

/-! ### Three schemas that are not adapted, and one that is -/

/-- The JSON types of a value. -/
def typeNames : Json → List String
  | .null => ["null"]
  | .bool _ => ["boolean"]
  | .num _ => ["integer", "number"]
  | .real _ => ["number"]
  | .str _ => ["string"]
  | .arr _ => ["array"]
  | .obj _ => ["object"]

/-- Equality, types and the lengths of texts. -/
def standard : Vocabulary where
  same literal value := literal = value
  meets key keyword value := match keyword, value with
    | .str name, value => key = "type" → name ∈ typeNames value
    | .num n, .str text =>
      (key = "maxLength" → (text.length : ℤ) ≤ n) ∧ (key = "minLength" → n ≤ text.length)
    | _, _ => True

section Samples

variable {vocabulary : Vocabulary} {definitions fields : List (String × Json)} {value : Json}

/-- An object with keywords of the vocabulary and a description. -/
theorem validAt_leaves {depth : ℕ} (h : ∀ field ∈ fields, field.1 = "description"
      ∨ field.1 ∉ structuralKeys ∧ vocabulary.meets field.1 field.2 value) :
    ValidAt vocabulary definitions (depth + 1) (.obj fields) value := by
  have hnone : ∀ key ∈ structuralKeys, key ≠ "description" → Json.lookup fields key = none := by
    intro key hkey hne
    refine lookup_eq_none fun field hfield heq => ?_
    rcases h field hfield with hdescription | ⟨hleaf, -⟩
    · exact hne (heq ▸ hdescription)
    · exact hleaf (heq ▸ hkey)
  have hsubset : ∀ key ∈ subschemaKeys, key ∈ structuralKeys ∧ key ≠ "description" := by decide
  rw [validAt_obj_iff (by rw [reference, hnone "$ref" (by decide) (by decide)]; rfl)]
  refine ⟨⟨fun key keyword hkey hlookup => ?_, fun literal hlookup => ?_,
    fun literals hlookup => ?_⟩, applies_of_leaves fun field hfield hkey => ?_⟩
  · rcases h _ (Json.mem_of_lookup hlookup) with rfl | ⟨-, hmeets⟩
    · exact absurd (by decide) hkey
    · exact hmeets
  · rw [hnone "const" (by decide) (by decide)] at hlookup
    cases hlookup
  · rw [hnone "enum" (by decide) (by decide)] at hlookup
    cases hlookup
  · obtain ⟨hstructural, hne⟩ := hsubset _ hkey
    obtain ⟨value, hvalue⟩ := Json.exists_lookup hfield
    rw [hnone _ hstructural hne] at hvalue
    cases hvalue

end Samples

def shortText : List (String × Json) := [("type", .str "string"), ("maxLength", .num 1)]

def longText : List (String × Json) := [("type", .str "string"), ("minLength", .num 2)]

/-- Texts of one character or else of more. -/
def lengthSchema : List (String × Json) := [("oneOf", .arr [.obj shortText, .obj longText])]

def describedText (description : String) : Json :=
  .obj [("type", .str "string"), ("description", .str description)]

theorem portable_lengthSchema : anthropicPortableSchema lengthSchema = .ok [("oneOf", .arr [
    describedText "String length must be at most 1 characters.",
    describedText "String length must be at least 2 characters."])] := by rfl

theorem valid_describedText (description : String) (depth : ℕ) :
    ValidAt standard [] (depth + 1) (describedText description) (.str "a") := by
  refine validAt_leaves fun field hfield => ?_
  simp only [List.mem_cons, List.not_mem_nil, or_false] at hfield
  rcases hfield with rfl | rfl
  · exact .inr ⟨show "type" ∉ structuralKeys by decide, fun _ => List.mem_singleton_self _⟩
  · exact .inl rfl

theorem valid_shortText (depth : ℕ) :
    ValidAt standard [] (depth + 1) (.obj shortText) (.str "a") := by
  refine validAt_leaves fun field hfield => .inr ?_
  simp only [shortText, List.mem_cons, List.not_mem_nil, or_false] at hfield
  rcases hfield with rfl | rfl
  · exact ⟨show "type" ∉ structuralKeys by decide, fun _ => List.mem_singleton_self _⟩
  · exact ⟨show "maxLength" ∉ structuralKeys by decide, fun _ => by decide,
      fun heq => absurd heq (show "maxLength" ≠ "minLength" by decide)⟩

theorem not_valid_longText (depth : ℕ) :
    ¬ ValidAt standard [] depth (.obj longText) (.str "a") := by
  cases depth with
  | zero => exact id
  | succ depth =>
    rintro ⟨hasserts, -, -⟩
    have hlength := (hasserts.leaf "minLength" (.num 2) (by decide) rfl).2 rfl
    exact absurd hlength (by decide)

/-- The text `a` is accepted by one branch, and by both portable branches. -/
theorem not_adapts_lengthSchema : ¬ Adapts standard lengthSchema := by
  intro h
  have hvalid : Valid standard [] (.obj lengthSchema) (.str "a") := by
    refine ⟨2, fun depth hdepth => ?_⟩
    obtain ⟨depth, rfl⟩ : ∃ d, depth = d + 2 := ⟨depth - 2, by omega⟩
    rw [validAt_obj_iff rfl]
    refine ⟨⟨fun key keyword hkey hlookup => ?_, nofun, nofun⟩, ⟨nofun, nofun, nofun, nofun, nofun,
      fun schemas hschemas => ?_⟩⟩
    · obtain rfl := congrArg Prod.fst (List.mem_singleton.mp (Json.mem_of_lookup hlookup))
      exact absurd (by decide) hkey
    · obtain rfl := Option.some.inj hschemas
      refine ⟨0, .obj shortText, rfl, valid_shortText depth, fun j other hj hother => ?_⟩
      match j with
      | 0 => rfl
      | 1 => exact absurd (Option.some.inj hj ▸ hother) (not_valid_longText _)
  obtain ⟨least, hleast⟩ := h.relaxes _ [] portable_lengthSchema rfl _ hvalid
  have hportable := hleast (least + 2) (by omega)
  rw [validAt_obj_iff rfl] at hportable
  obtain ⟨i, item, -, -, hunique⟩ := hportable.2.oneOf _ rfl
  have hfirst := hunique 0 _ rfl (valid_describedText _ _)
  have hsecond := hunique 1 _ rfl (valid_describedText _ _)
  omega

/-- A literal that is an object. -/
def literalSchema : List (String × Json) := [("const", .obj [("a", .num 1)])]

theorem not_adapts_literalSchema : ¬ Adapts standard literalSchema := by
  intro h
  have hvalid : Valid standard [] (.obj literalSchema) (.obj [("a", .num 1)]) := by
    refine ⟨1, fun depth hdepth => ?_⟩
    obtain ⟨depth, rfl⟩ : ∃ d, depth = d + 1 := ⟨depth - 1, by omega⟩
    rw [validAt_obj_iff rfl]
    refine ⟨⟨fun key keyword hkey hlookup => ?_, fun literal hliteral => ?_, nofun⟩,
      ⟨nofun, nofun, nofun, nofun, nofun, nofun⟩⟩
    · obtain rfl := congrArg Prod.fst (List.mem_singleton.mp (Json.mem_of_lookup hlookup))
      exact absurd (by decide) hkey
    · exact (Option.some.inj hliteral).symm
  have hresult : anthropicPortableSchema literalSchema = .ok [("enum", .arr [.obj []])] := by rfl
  obtain ⟨least, hleast⟩ := h.relaxes _ [] hresult rfl _ hvalid
  have hportable := hleast (least + 1) (by omega)
  rw [validAt_obj_iff rfl] at hportable
  obtain ⟨literal, hmem, hsame⟩ := hportable.1.enum _ rfl
  obtain rfl := List.mem_singleton.mp hmem
  cases hsame

def nameDefinition : List (String × Json) := [("type", .str "string")]

def nameReference : List (String × Json) := [("$ref", .str "#/$defs/Name")]

def nameDefinitions : List (String × Json) := [("Name", .obj nameDefinition)]

/-- A reference, and a subschema with the same reference beside it. -/
def besideSource : List (String × Json) :=
  [("$ref", .str "#/$defs/Name"), ("anyOf", .arr [.obj nameReference])]

def besideSchema : List (String × Json) := ("$defs", .obj nameDefinitions) :: besideSource

/-- Objects without subschemas lead to what they refer to. -/
theorem eq_of_step {definitions fields : List (String × Json)} {node : Json}
    (h : ∀ field ∈ fields, field.1 ∉ subschemaKeys) (hstep : Step definitions (.obj fields) node) :
    ∃ target, RefersTo definitions fields target ∧ node = .obj target := by
  cases hstep with
  | child hchild =>
    obtain ⟨field, hfield, hkey⟩ := hchild.exists_mem
    exact absurd hkey (h field hfield)
  | reference hrefers => exact ⟨_, hrefers, rfl⟩

theorem eq_of_refersTo {fields target : List (String × Json)}
    (href : reference fields = some (.str "#/$defs/Name"))
    (h : RefersTo nameDefinitions fields target) : target = nameDefinition := by
  have hname : RefersTo nameDefinitions fields nameDefinition :=
    ⟨_, "Name", href, by rfl, by rfl⟩
  exact refersTo_unique h hname

/-- A definition without a reference is the end of a path. -/
theorem eq_of_reaches_nameDefinition {fields : List (String × Json)}
    (h : Reaches nameDefinitions (.obj nameDefinition) (.obj fields)) :
    fields = nameDefinition := by
  rcases Relation.ReflTransGen.cases_head h with heq | ⟨node, hstep, -⟩
  · exact (Json.obj.inj heq).symm
  · obtain ⟨target, ⟨ref, name, href, -⟩, -⟩ := eq_of_step (by decide) hstep
    cases href

theorem cases_of_reaches_nameReference {fields : List (String × Json)}
    (h : Reaches nameDefinitions (.obj nameReference) (.obj fields)) :
    fields = nameReference ∨ fields = nameDefinition := by
  rcases Relation.ReflTransGen.cases_head h with heq | ⟨node, hstep, hrest⟩
  · exact .inl (Json.obj.inj heq).symm
  · obtain ⟨target, hrefers, rfl⟩ := eq_of_step (by decide) hstep
    obtain rfl := eq_of_refersTo rfl hrefers
    exact .inr (eq_of_reaches_nameDefinition hrest)

theorem cases_of_reaches_besideSource {fields : List (String × Json)}
    (h : Reaches nameDefinitions (.obj besideSource) (.obj fields)) :
    fields = besideSource ∨ fields = nameReference ∨ fields = nameDefinition := by
  rcases Relation.ReflTransGen.cases_head h with heq | ⟨node, hstep, hrest⟩
  · exact .inl (Json.obj.inj heq).symm
  · cases hstep with
    | child hchild =>
      have hnode : node = .obj nameReference := by
        cases hchild with
        | property hmem => simp [besideSource] at hmem
        | schema hkey hmem =>
          simp only [besideSource, List.mem_cons, Prod.mk.injEq, List.not_mem_nil, or_false] at hmem
          rcases hmem with ⟨rfl, -⟩ | ⟨rfl, -⟩ <;> simp at hkey
        | branch hkey hmem hschema =>
          simp only [besideSource, List.mem_cons, Prod.mk.injEq, Json.arr.injEq, List.not_mem_nil,
            or_false, reduceCtorEq, and_false, false_or] at hmem
          exact List.mem_singleton.mp (hmem.2 ▸ hschema)
      subst hnode
      exact .inr (cases_of_reaches_nameReference hrest)
    | reference hrefers =>
      obtain rfl := eq_of_refersTo rfl hrefers
      exact .inr (.inr (eq_of_reaches_nameDefinition hrest))

/-- No reference is unresolved or cyclic, but one is taken for it. -/
theorem not_adapts_besideSchema (vocabulary : Vocabulary) : ¬ Adapts vocabulary besideSchema := by
  intro h
  have herror : anthropicPortableSchema besideSchema = .error .unresolved := by rfl
  have hcyclic : ¬ Cyclic nameDefinitions "Name" := by
    rintro ⟨target, fields, ref, htarget, hreaches, href, -⟩
    obtain rfl := Json.obj.inj (Option.some.inj htarget)
    obtain rfl := eq_of_reaches_nameDefinition hreaches
    cases href
  have hreference : ∀ fields, reference fields = some (.str "#/$defs/Name")
      ∨ reference fields = none → ¬ BadReference nameDefinitions fields := by
    rintro fields hfields ⟨ref, href, hcause⟩
    rcases hfields with hsome | hnone
    · obtain rfl := Option.some.inj (hsome.symm.trans href)
      rcases hcause "Name" (by rfl) with hnone | h
      · exact hnone nameDefinition rfl
      · exact hcyclic h
    · rw [hnone] at href
      cases href
  have hmalformed : ¬ Malformed besideSource ∧ ¬ Malformed nameReference
      ∧ ¬ Malformed nameDefinition := by
    refine ⟨?_, ?_, ?_⟩ <;>
      simp [Malformed, besideSource, nameReference, nameDefinition, combinators]
  rcases h.refuses.mp ⟨_, herror⟩ with hnone | ⟨definitions, fields, hdefinitions, hreaches, hbad⟩
  · cases hnone
  · obtain rfl := Option.some.inj hdefinitions
    rcases cases_of_reaches_besideSource hreaches with rfl | rfl | rfl
    · exact hbad.elim hmalformed.1 (hreference _ (.inl rfl))
    · exact hbad.elim hmalformed.2.1 (hreference _ (.inl rfl))
    · exact hbad.elim hmalformed.2.2 (hreference _ (.inr rfl))

/-- A property under a definition, as the models of the source have it. -/
def nameSource : List (String × Json) :=
  [("properties", .obj [("name", .obj nameReference)]), ("required", .arr [.str "name"])]

theorem cases_of_reaches_nameSource {fields : List (String × Json)}
    (h : Reaches nameDefinitions (.obj nameSource) (.obj fields)) :
    fields = nameSource ∨ fields = nameReference ∨ fields = nameDefinition := by
  rcases Relation.ReflTransGen.cases_head h with heq | ⟨node, hstep, hrest⟩
  · exact .inl (Json.obj.inj heq).symm
  · cases hstep with
    | child hchild =>
      have hnode : node = .obj nameReference := by
        cases hchild with
        | property hmem hchild =>
          simp only [nameSource, List.mem_cons, Prod.mk.injEq, Json.obj.injEq, List.not_mem_nil,
            or_false, reduceCtorEq, and_false] at hmem
          rw [hmem.2] at hchild
          rw [List.mem_singleton.mp hchild]
        | schema hkey hmem =>
          simp only [nameSource, List.mem_cons, Prod.mk.injEq, List.not_mem_nil, or_false] at hmem
          rcases hmem with ⟨rfl, -⟩ | ⟨rfl, -⟩ <;> simp at hkey
        | branch hkey hmem =>
          simp only [nameSource, List.mem_cons, Prod.mk.injEq, List.not_mem_nil, or_false] at hmem
          rcases hmem with ⟨rfl, -⟩ | ⟨rfl, -⟩ <;> simp [combinators] at hkey
      subst hnode
      exact .inr (cases_of_reaches_nameReference hrest)
    | reference hrefers =>
      obtain ⟨ref, name, href, -⟩ := hrefers
      cases href

end IouAi.PortableSchema
