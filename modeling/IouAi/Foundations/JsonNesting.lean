import IouAi.Foundations.Json

/-!
# No object text begins another one

A scan of a text keeps the depth of the brackets that stand outside strings. In the text of an
object the depth is positive from the first character to the last but one, and zero at the end, so
no proper beginning of it is the text of an object (`eq_of_isPrefix`).
-/

namespace IouAi.Json

/-- Where a scan stands: outside strings, in a string, or in a string after a backslash. -/
inductive Mode
  | outside | inside | escaped
  deriving DecidableEq

structure Scan where
  depth : ℕ
  mode : Mode
  deriving DecidableEq

def Scan.step (scan : Scan) (c : Char) : Scan :=
  match scan.mode with
  | .escaped => ⟨scan.depth, .inside⟩
  | .inside =>
    if c = '\\' then ⟨scan.depth, .escaped⟩
    else if c = '"' then ⟨scan.depth, .outside⟩
    else scan
  | .outside =>
    if c = '"' then ⟨scan.depth, .inside⟩
    else if c = '[' ∨ c = '\x7b' then ⟨scan.depth + 1, .outside⟩
    else if c = ']' ∨ c = '\x7d' then ⟨scan.depth - 1, .outside⟩
    else scan

def Scan.run (scan : Scan) (text : List Char) : Scan := text.foldl Scan.step scan

@[simp] theorem Scan.run_nil (scan : Scan) : scan.run [] = scan := rfl

@[simp] theorem Scan.run_cons (scan : Scan) (c : Char) (text : List Char) :
    scan.run (c :: text) = (scan.step c).run text := rfl

theorem Scan.run_append (scan : Scan) (text text' : List Char) :
    scan.run (text ++ text') = (scan.run text).run text' := List.foldl_append

/-! ## Nested texts -/

/-- A text that leaves a scan where it found it, and never comes below the depth on the way. -/
structure Nested (text : List Char) : Prop where
  run : ∀ depth, Scan.run ⟨depth, .outside⟩ text = ⟨depth, .outside⟩
  above : ∀ depth start, start <+: text → depth ≤ (Scan.run ⟨depth, .outside⟩ start).depth

namespace Nested

theorem nil : Nested [] where
  run _ := rfl
  above depth start h := by
    rw [List.prefix_nil.mp h]
    exact le_rfl

theorem append {text text' : List Char} (h : Nested text) (h' : Nested text') :
    Nested (text ++ text') where
  run depth := by rw [Scan.run_append, h.run, h'.run]
  above depth start hstart := by
    rcases List.prefix_or_prefix_of_prefix hstart (List.prefix_append text text') with hle | ⟨rest, rfl⟩
    · exact h.above depth start hle
    · rw [Scan.run_append, h.run]
      exact h'.above depth rest ((List.prefix_append_right_inj text).mp hstart)

/-- Characters that mean nothing outside strings. -/
theorem of_plain {text : List Char}
    (h : ∀ c ∈ text, c ≠ '"' ∧ c ≠ '[' ∧ c ≠ '\x7b' ∧ c ≠ ']' ∧ c ≠ '\x7d') : Nested text := by
  have hrun : ∀ depth start, start <+: text →
      Scan.run ⟨depth, .outside⟩ start = ⟨depth, .outside⟩ := by
    intro depth start hstart
    have hall : ∀ c ∈ start, Scan.step ⟨depth, .outside⟩ c = ⟨depth, .outside⟩ := by
      intro c hc
      obtain ⟨h₁, h₂, h₃, h₄, h₅⟩ := h c (hstart.subset hc)
      simp [Scan.step, h₁, h₂, h₃, h₄, h₅]
    clear hstart
    induction start with
    | nil => rfl
    | cons c start ih =>
      rw [Scan.run_cons, hall c List.mem_cons_self]
      exact ih fun c' hc' => hall c' (List.mem_cons_of_mem _ hc')
  refine ⟨fun depth => hrun depth text (List.prefix_refl _), fun depth start hstart => ?_⟩
  rw [hrun depth start hstart]

end Nested

/-! ## Strings -/

/-- A text that can stand in a string: plain characters and escapes. -/
inductive InString : List Char → Prop
  | nil : InString []
  | plain {c : Char} {text : List Char} (hquote : c ≠ '"') (hbackslash : c ≠ '\\')
      (h : InString text) : InString (c :: text)
  | escape (c : Char) {text : List Char} (h : InString text) : InString ('\\' :: c :: text)

namespace InString

theorem append {text text' : List Char} (h : InString text) (h' : InString text') :
    InString (text ++ text') := by
  induction h with
  | nil => exact h'
  | plain hquote hbackslash _ ih => exact .plain hquote hbackslash ih
  | escape c _ ih => exact .escape c ih

theorem flatMap {f : Char → List Char} (hf : ∀ c, InString (f c)) (text : List Char) :
    InString (text.flatMap f) := by
  induction text with
  | nil => exact .nil
  | cons c text ih => exact (hf c).append ih

theorem run {text : List Char} (h : InString text) (depth : ℕ) :
    Scan.run ⟨depth, .inside⟩ text = ⟨depth, .inside⟩ := by
  induction h with
  | nil => rfl
  | plain hquote hbackslash _ ih =>
    rw [Scan.run_cons, Scan.step, if_neg hbackslash, if_neg hquote]
    exact ih
  | escape c _ ih => exact ih

/-- The depth does not change in a string. -/
theorem depth_run {text start : List Char} (h : InString text) (depth : ℕ) (hstart : start <+: text) :
    (Scan.run ⟨depth, .inside⟩ start).depth = depth := by
  induction h generalizing start with
  | nil =>
    rw [List.prefix_nil.mp hstart]
    rfl
  | plain hquote hbackslash _ ih =>
    rcases List.prefix_cons_iff.mp hstart with rfl | ⟨rest, rfl, hrest⟩
    · rfl
    · rw [Scan.run_cons, Scan.step, if_neg hbackslash, if_neg hquote]
      exact ih hrest
  | escape c _ ih =>
    rcases List.prefix_cons_iff.mp hstart with rfl | ⟨rest, rfl, hrest⟩
    · rfl
    · rcases List.prefix_cons_iff.mp hrest with rfl | ⟨rest', rfl, hrest'⟩
      · rfl
      · have hdepth := ih hrest'
        exact hdepth

/-- A quoted text. -/
theorem nested {text : List Char} (h : InString text) : Nested ('"' :: text ++ ['"']) where
  run depth := by
    rw [List.cons_append, Scan.run_cons, Scan.run_append]
    change Scan.run (Scan.run ⟨depth, .inside⟩ text) ['"'] = _
    rw [h.run]
    rfl
  above depth start hstart := by
    rcases List.prefix_cons_iff.mp hstart with rfl | ⟨rest, rfl, hrest⟩
    · exact le_rfl
    · change depth ≤ (Scan.run ⟨depth, .inside⟩ rest).depth
      rcases List.prefix_concat_iff.mp hrest with rfl | hrest
      · rw [Scan.run_append, h.run]
        exact le_rfl
      · rw [h.depth_run depth hrest]

end InString

/-! ## Brackets -/

/-- A text between brackets. -/
theorem Nested.bracket {text : List Char} (h : Nested text) {first last : Char}
    (hfirst : first = '[' ∨ first = '\x7b') (hlast : last = ']' ∨ last = '\x7d') :
    Nested (first :: text ++ [last]) ∧ ∀ start, start <+: first :: text ++ [last] →
      start ≠ [] → start ≠ first :: text ++ [last] → 0 < (Scan.run ⟨0, .outside⟩ start).depth := by
  have hopen : ∀ depth, Scan.step ⟨depth, .outside⟩ first = ⟨depth + 1, .outside⟩ := by
    intro depth
    rcases hfirst with rfl | rfl <;> rfl
  have hclose : ∀ depth, Scan.step ⟨depth + 1, .outside⟩ last = ⟨depth, .outside⟩ := by
    intro depth
    rcases hlast with rfl | rfl <;> rfl
  have hrun : ∀ depth, Scan.run ⟨depth, .outside⟩ (first :: text ++ [last]) = ⟨depth, .outside⟩ := by
    intro depth
    rw [List.cons_append, Scan.run_cons, hopen, Scan.run_append, h.run, Scan.run_cons, hclose]
    rfl
  -- The beginnings but the empty one and the whole are one deeper.
  have hinner : ∀ depth start, start <+: first :: text ++ [last] → start ≠ [] →
      start ≠ first :: text ++ [last] → depth + 1 ≤ (Scan.run ⟨depth, .outside⟩ start).depth := by
    intro depth start hstart hnil hne
    rcases List.prefix_concat_iff.mp hstart with heq | hstart
    · exact absurd heq hne
    · rcases List.prefix_cons_iff.mp hstart with heq | ⟨rest, rfl, hrest⟩
      · exact absurd heq hnil
      · rw [Scan.run_cons, hopen]
        exact h.above _ rest hrest
  refine ⟨⟨hrun, fun depth start hstart => ?_⟩, fun start hstart hnil hne => hinner 0 start hstart hnil hne⟩
  by_cases hnil : start = []
  · rw [hnil]
    exact le_rfl
  · by_cases hne : start = first :: text ++ [last]
    · rw [hne, hrun]
    · exact (Nat.le_succ depth).trans (hinner depth start hstart hnil hne)

/-! ## Encoders -/

/-- An encoder whose strings end at their closing quote. -/
def Encoder.Quotes (encoder : Encoder) : Prop := ∀ c, InString (encoder.escape c)

theorem nested_name (text : String) (h : text.toList.all Char.isAlpha = true) :
    Nested text.toList := by
  refine .of_plain fun c hc => ?_
  have hc := List.all_eq_true.mp h c hc
  refine ⟨?_, ?_, ?_, ?_, ?_⟩ <;> rintro rfl <;> exact absurd hc (by decide)

theorem nested_quote {encoder : Encoder} (h : encoder.Quotes) (text : String) :
    Nested (encoder.quote text).toList := by
  rw [Encoder.quote, String.toList_ofList]
  exact (InString.flatMap h text.toList).nested

theorem nested_intercalate {texts : List String} (h : ∀ text ∈ texts, Nested text.toList) :
    Nested (",".intercalate texts).toList := by
  have hcomma : Nested ",".toList := .of_plain (by decide)
  rw [String.toList_intercalate]
  induction texts with
  | nil => exact .nil
  | cons text texts ih =>
    have hrest := ih fun other hother => h other (List.mem_cons_of_mem _ hother)
    have htext := h text List.mem_cons_self
    cases texts with
    | nil => simpa using htext
    | cons other texts =>
      rw [List.map_cons, List.map_cons, List.intercalate_cons_cons]
      exact (htext.append hcomma).append hrest

theorem plain_of_isDigit {c : Char} (h : c.isDigit = true) :
    c ≠ '"' ∧ c ≠ '[' ∧ c ≠ '\x7b' ∧ c ≠ ']' ∧ c ≠ '\x7d' := by
  refine ⟨?_, ?_, ?_, ?_, ?_⟩ <;> rintro rfl <;> exact absurd h (by decide)

theorem nested_nat (n : ℕ) : Nested (toString n).toList := by
  refine .of_plain fun c hc => plain_of_isDigit ?_
  have hrepr : (toString n).toList = Nat.toDigits 10 n := by
    rw [Nat.toString_eq_ofList_toDigits, String.toList_ofList]
  rw [hrepr] at hc
  exact Nat.isDigit_of_mem_toDigits (by decide) (by decide) hc

theorem nested_int (n : ℤ) : Nested (toString n).toList := by
  cases n with
  | ofNat n => exact nested_nat n
  | negSucc n =>
    have hminus : Nested "-".toList := .of_plain (by decide)
    have htext : (toString (Int.negSucc n)).toList = "-".toList ++ (toString (n + 1)).toList := by
      rw [← String.toList_append]
      rfl
    rw [htext]
    exact hminus.append (nested_nat _)

mutual

/-- The numbers in the value are integers. -/
def Integral : Json → Prop
  | .real _ => False
  | .arr items => IntegralItems items
  | .obj fields => IntegralFields fields
  | _ => True

def IntegralItems : List Json → Prop
  | [] => True
  | item :: items => Integral item ∧ IntegralItems items

def IntegralFields : List (String × Json) → Prop
  | [] => True
  | field :: fields => Integral field.2 ∧ IntegralFields fields

end

section Encode

variable {encoder : Encoder}

theorem nested_members (hquotes : encoder.Quotes) {texts : List (String × String)}
    (h : ∀ text ∈ texts, Nested text.2.toList) :
    ∀ member ∈ encoder.members texts, Nested member.toList := by
  have hcolon : Nested ":".toList := .of_plain (by decide)
  intro member hmember
  obtain ⟨key, -, rfl⟩ := List.mem_map.mp hmember
  have hvalue : Nested ((lookup texts key).getD "").toList := by
    unfold lookup
    cases hfound : texts.find? fun field => field.1 = key with
    | none => exact .nil
    | some field => exact h field (List.mem_of_find?_eq_some hfound)
  simp only [String.toList_append]
  exact ((nested_quote hquotes key).append hcolon).append hvalue

mutual

theorem nested_encode (hquotes : encoder.Quotes) : (value : Json) → Integral value → Nested (encoder.encode value).toList
  | .null, _ => nested_name "null" (by decide)
  | .bool true, _ => nested_name "true" (by decide)
  | .bool false, _ => nested_name "false" (by decide)
  | .num n, _ => nested_int n
  | .str text, _ => nested_quote hquotes text
  | .arr items, h => by
    rw [Encoder.encode, String.toList_append, String.toList_append]
    exact ((nested_intercalate (nested_encodeItems hquotes items h)).bracket (.inl rfl) (.inl rfl)).1
  | .obj fields, h => by
    rw [Encoder.encode, String.toList_append, String.toList_append]
    exact ((nested_intercalate (nested_members hquotes (nested_encodeFields hquotes fields h))).bracket
      (.inr rfl) (.inr rfl)).1

theorem nested_encodeItems (hquotes : encoder.Quotes) : (items : List Json) → IntegralItems items →
    ∀ text ∈ encoder.encodeItems items, Nested text.toList
  | [], _ => by simp [Encoder.encodeItems]
  | item :: items, h => by
    rw [Encoder.encodeItems, List.forall_mem_cons]
    exact ⟨nested_encode hquotes item h.1, nested_encodeItems hquotes items h.2⟩

theorem nested_encodeFields (hquotes : encoder.Quotes) : (fields : List (String × Json)) → IntegralFields fields →
    ∀ text ∈ encoder.encodeFields fields, Nested text.2.toList
  | [], _ => by simp [Encoder.encodeFields]
  | field :: fields, h => by
    rw [Encoder.encodeFields, List.forall_mem_cons]
    exact ⟨nested_encode hquotes field.2 h.1, nested_encodeFields hquotes fields h.2⟩

end

/-- **No object text begins another one.** -/
theorem eq_of_isPrefix (hquotes : encoder.Quotes) {fields fields' : List (String × Json)} (h : IntegralFields fields)
    (h' : IntegralFields fields')
    (hbegins : (encoder.encode (.obj fields)).toList <+: (encoder.encode (.obj fields')).toList) :
    (encoder.encode (.obj fields)).toList = (encoder.encode (.obj fields')).toList := by
  have hend := (nested_encode hquotes (.obj fields) h).run 0
  rw [Encoder.encode, String.toList_append, String.toList_append] at hbegins hend ⊢
  rw [Encoder.encode, String.toList_append, String.toList_append] at hbegins ⊢
  have hinner := ((nested_intercalate (nested_members hquotes
    (nested_encodeFields hquotes fields' h'))).bracket (.inr rfl) (.inr rfl)).2
  by_contra hne
  have hpos := hinner _ hbegins (by simp) hne
  exact absurd hpos (by rw [hend]; simp)

end Encode

/-! ## Python and JavaScript -/

theorem inString_shortEscape {c : Char} {text : List Char} (h : shortEscape? c = some text) :
    InString text := by
  unfold shortEscape? at h
  split at h <;> cases h <;> exact .escape _ .nil

theorem inString_unicodeEscape (unit : ℕ) : InString (unicodeEscape unit) := by
  have hhex : ∀ n, hexDigit n ≠ '"' ∧ hexDigit n ≠ '\\' := by
    intro n
    have hall : ∀ k < 16, Nat.digitChar k ≠ '"' ∧ Nat.digitChar k ≠ '\\' := by decide
    exact hall _ (Nat.mod_lt n (by decide))
  exact .escape 'u' (.plain (hhex _).1 (hhex _).2 (.plain (hhex _).1 (hhex _).2
    (.plain (hhex _).1 (hhex _).2 (.plain (hhex _).1 (hhex _).2 .nil))))

/-- A character without a short escape may stand in a string as it is. -/
theorem inString_singleton {c : Char} (h : shortEscape? c = none) : InString [c] := by
  refine .plain ?_ ?_ .nil <;> rintro rfl <;> exact absurd h (by decide)

theorem python_quotes : python.Quotes := by
  intro c
  cases hshort : shortEscape? c with
  | some text =>
    simp only [python, hshort]
    exact inString_shortEscape hshort
  | none =>
    simp only [python, hshort]
    split
    · exact inString_singleton hshort
    · generalize utf16Units c = units
      induction units with
      | nil => exact .nil
      | cons unit units ih => exact (inString_unicodeEscape unit).append ih

theorem javascript_quotes : javascript.Quotes := by
  intro c
  cases hshort : shortEscape? c with
  | some text =>
    simp only [javascript, hshort]
    exact inString_shortEscape hshort
  | none =>
    simp only [javascript, hshort]
    split
    · exact inString_unicodeEscape _
    · exact inString_singleton hshort

end IouAi.Json
