import IouAi.Foundations.Characters
import Mathlib.Data.List.Sort
import Mathlib.Data.List.Lex

/-!
# JSON values and canonical texts

Values as a parser leaves them: the keys of an object are distinct and stand in any order. A
canonical text sorts the keys and writes no space; encoders differ in the order of the keys and in
the characters that they escape. The encoders of Python (`json.dumps` with `ensure_ascii`) and of
JavaScript (`JSON.stringify`) agree on printable ASCII (`encode_python_eq_javascript`).
-/

namespace IouAi

/-- A JSON value. A number is an integer or, as its text, a number that is none. -/
inductive Json
  | null
  | bool (value : Bool)
  | num (value : ℤ)
  | real (text : String)
  | str (value : String)
  | arr (items : List Json)
  | obj (fields : List (String × Json))

namespace Json

/-- The value under a key. -/
def lookup {α : Type} (fields : List (String × α)) (key : String) : Option α :=
  (fields.find? fun field => field.1 = key).map Prod.snd

theorem mem_of_lookup {α : Type} {fields : List (String × α)} {key : String} {value : α}
    (h : lookup fields key = some value) : (key, value) ∈ fields := by
  obtain ⟨field, hfound, rfl⟩ := Option.map_eq_some_iff.mp h
  have hkey : field.1 = key := by simpa using List.find?_some hfound
  rw [← hkey]
  exact List.mem_of_find?_eq_some hfound

theorem exists_lookup {α : Type} {fields : List (String × α)} {key : String} {value : α}
    (h : (key, value) ∈ fields) : ∃ value', lookup fields key = some value' := by
  cases hfound : fields.find? fun field => field.1 = key with
  | none => simpa using List.find?_eq_none.mp hfound _ h
  | some field => exact ⟨field.2, by rw [lookup, hfound]; rfl⟩

/-- Where the keys are distinct, the value under a key is the one of its field. -/
theorem lookup_eq_some_iff {α : Type} {fields : List (String × α)}
    (hnodup : (fields.map Prod.fst).Nodup) {key : String} {value : α} :
    lookup fields key = some value ↔ (key, value) ∈ fields := by
  refine ⟨mem_of_lookup, fun hmem => ?_⟩
  obtain ⟨value', hvalue'⟩ := exists_lookup hmem
  have hfield := List.inj_on_of_nodup_map hnodup (mem_of_lookup hvalue') hmem rfl
  rw [hvalue', (Prod.mk.inj hfield).2]

/-- An object is read by its keys, in whatever order they are. -/
theorem lookup_of_perm {α : Type} {fields others : List (String × α)} (h : fields.Perm others)
    (hnodup : (others.map Prod.fst).Nodup) (key : String) :
    lookup fields key = lookup others key := by
  have hfields : (fields.map Prod.fst).Nodup := ((h.map Prod.fst).nodup_iff).mpr hnodup
  refine Option.ext fun value => ?_
  rw [lookup_eq_some_iff hfields, lookup_eq_some_iff hnodup, h.mem_iff]

/-- The value of a field; none of a value that is no object. -/
def field? : Json → String → Option Json
  | .obj fields, key => lookup fields key
  | _, _ => none

/-! ## Encoders -/

/-- How an encoder writes a character of a string, and how it compares keys. -/
structure Encoder where
  escape : Char → List Char
  keyLe : String → String → Bool

namespace Encoder

variable (encoder encoder' : Encoder)

def quote (text : String) : String :=
  String.ofList ('"' :: text.toList.flatMap encoder.escape ++ ['"'])

def sortKeys (keys : List String) : List String :=
  keys.insertionSort fun key other => encoder.keyLe key other

/-- The members of an object in the order of their keys, from the texts of their values. -/
def members (texts : List (String × String)) : List String :=
  (encoder.sortKeys (texts.map Prod.fst)).map fun key =>
    encoder.quote key ++ ":" ++ (lookup texts key).getD ""

mutual

def encode : Json → String
  | .null => "null"
  | .bool value => if value then "true" else "false"
  | .num value => toString value
  | .real text => text
  | .str value => encoder.quote value
  | .arr items => "[" ++ ",".intercalate (encodeItems items) ++ "]"
  | .obj fields => "\x7b" ++ ",".intercalate (encoder.members (encodeFields fields)) ++ "\x7d"

def encodeItems : List Json → List String
  | [] => []
  | item :: items => encode item :: encodeItems items

def encodeFields : List (String × Json) → List (String × String)
  | [] => []
  | field :: fields => (field.1, encode field.2) :: encodeFields fields

end

theorem encodeFields_eq_map (fields : List (String × Json)) :
    encoder.encodeFields fields = fields.map fun field => (field.1, encoder.encode field.2) := by
  induction fields with
  | nil => rfl
  | cons field fields ih => rw [encodeFields, ih, List.map_cons]

theorem lookup_map {α β : Type} (fields : List (String × α)) (f : α → β) (key : String) :
    lookup (fields.map fun field => (field.1, f field.2)) key = (lookup fields key).map f := by
  rw [lookup, lookup, List.find?_map, Option.map_map, Option.map_map]
  rfl

/-- The text of an object depends only on its keys and on the values under them. -/
theorem encode_obj_congr {fields fields' : List (String × Json)}
    (hkeys : encoder.sortKeys (fields.map Prod.fst) = encoder.sortKeys (fields'.map Prod.fst))
    (hvalues : ∀ key ∈ fields.map Prod.fst, (lookup fields key).map encoder.encode
      = (lookup fields' key).map encoder.encode) :
    encoder.encode (.obj fields) = encoder.encode (.obj fields') := by
  have hfst : ∀ fields : List (String × Json),
      (fields.map fun field => (field.1, encoder.encode field.2)).map Prod.fst
        = fields.map Prod.fst := fun fields => by simp
  rw [encode, encode, members, members, encodeFields_eq_map, encodeFields_eq_map, hfst, hfst,
    ← hkeys]
  congr 3
  apply List.map_congr_left
  intro key hkey
  rw [lookup_map, lookup_map, hvalues key ((List.perm_insertionSort _ _).mem_iff.mp hkey)]

end Encoder

/-! ## Python and JavaScript -/

def hexDigit (n : ℕ) : Char := Nat.digitChar (n % 16)

/-- A UTF-16 code unit as an escape. -/
def unicodeEscape (unit : ℕ) : List Char :=
  ['\\', 'u', hexDigit (unit / 4096), hexDigit (unit / 256), hexDigit (unit / 16), hexDigit unit]

/-- The escapes of one letter. -/
def shortEscape? (c : Char) : Option (List Char) :=
  match c.toNat with
  | 0x22 => some ['\\', '"']
  | 0x5c => some ['\\', '\\']
  | 0x08 => some ['\\', 'b']
  | 0x0c => some ['\\', 'f']
  | 0x0a => some ['\\', 'n']
  | 0x0d => some ['\\', 'r']
  | 0x09 => some ['\\', 't']
  | _ => none

/-- The UTF-16 code units of a character. -/
def utf16Units (c : Char) : List ℕ :=
  let n := c.toNat
  if n < 0x10000 then [n]
  else [0xd800 + (n - 0x10000) / 0x400, 0xdc00 + (n - 0x10000) % 0x400]

def isPrintableAscii (c : Char) : Bool := 0x20 ≤ c.toNat && c.toNat ≤ 0x7e

/-- `json.dumps(value, sort_keys=True, separators=(",", ":"), ensure_ascii=True)`. -/
def python : Encoder where
  escape c :=
    match shortEscape? c with
    | some text => text
    | none => if isPrintableAscii c then [c] else (utf16Units c).flatMap unicodeEscape
  keyLe key other := key.toList.map Char.toNat ≤ other.toList.map Char.toNat

/-- `JSON.stringify` of the values, under keys in the order of their UTF-16 code units. -/
def javascript : Encoder where
  escape c :=
    match shortEscape? c with
    | some text => text
    | none => if c.toNat < 0x20 then unicodeEscape c.toNat else [c]
  keyLe key other := key.toList.flatMap utf16Units ≤ other.toList.flatMap utf16Units

/-! ## Agreement on printable ASCII -/

def isPrintable (text : String) : Bool := text.toList.all isPrintableAscii

mutual

/-- Every string and every key in the value is printable ASCII. -/
def Printable : Json → Prop
  | .str value => isPrintable value
  | .arr items => PrintableItems items
  | .obj fields => PrintableFields fields
  | _ => True

def PrintableItems : List Json → Prop
  | [] => True
  | item :: items => Printable item ∧ PrintableItems items

def PrintableFields : List (String × Json) → Prop
  | [] => True
  | field :: fields => isPrintable field.1 ∧ Printable field.2 ∧ PrintableFields fields

end

theorem printableFields_iff (fields : List (String × Json)) :
    PrintableFields fields ↔ ∀ field ∈ fields, isPrintable field.1 ∧ Printable field.2 := by
  induction fields with
  | nil => simp [PrintableFields]
  | cons field fields ih => simp [PrintableFields, ih, and_assoc]

theorem escape_eq {c : Char} (h : isPrintableAscii c = true) :
    python.escape c = javascript.escape c := by
  have hnot : ¬ c.toNat < 0x20 := by
    simp only [isPrintableAscii, Bool.and_eq_true, decide_eq_true_eq] at h
    omega
  simp only [python, javascript, h, if_neg hnot, if_true]

theorem quote_eq {text : String} (h : isPrintable text = true) :
    python.quote text = javascript.quote text := by
  have hflat : text.toList.flatMap python.escape = text.toList.flatMap javascript.escape := by
    rw [List.flatMap_def, List.flatMap_def]
    congr 1
    apply List.map_congr_left
    intro c hc
    exact escape_eq (List.all_eq_true.mp h c hc)
  rw [Encoder.quote, Encoder.quote, hflat]

theorem flatMap_utf16Units {text : String} (h : isPrintable text = true) :
    text.toList.flatMap utf16Units = text.toList.map Char.toNat := by
  rw [List.map_eq_flatMap, List.flatMap_def, List.flatMap_def]
  congr 1
  apply List.map_congr_left
  intro c hc
  have hc := List.all_eq_true.mp h c hc
  simp only [isPrintableAscii, Bool.and_eq_true, decide_eq_true_eq] at hc
  rw [utf16Units, if_pos (by omega)]

theorem keyLe_eq {key other : String} (hkey : isPrintable key = true)
    (hother : isPrintable other = true) : python.keyLe key other = javascript.keyLe key other := by
  simp only [python, javascript, flatMap_utf16Units hkey, flatMap_utf16Units hother]

theorem insertionSort_congr {α : Type} {r r' : α → α → Prop} [DecidableRel r] [DecidableRel r']
    {items : List α} (h : ∀ x ∈ items, ∀ y ∈ items, r x y ↔ r' x y) :
    items.insertionSort r = items.insertionSort r' := by
  induction items with
  | nil => rfl
  | cons item items ih =>
    have hrest := ih fun x hx y hy => h x (by simp [hx]) y (by simp [hy])
    rw [List.insertionSort_cons, List.insertionSort_cons, hrest]
    have hinsert : ∀ sorted : List α, (∀ y ∈ sorted, y ∈ items) →
        sorted.orderedInsert r item = sorted.orderedInsert r' item := by
      intro sorted hsorted
      induction sorted with
      | nil => rfl
      | cons y sorted ih' =>
        have hiff := h item (by simp) y (by simp [hsorted y (by simp)])
        rw [List.orderedInsert_cons, List.orderedInsert_cons,
          ih' fun z hz => hsorted z (by simp [hz])]
        simp only [hiff]
    exact hinsert _ fun y hy => (List.perm_insertionSort r' items).mem_iff.mp hy

theorem sortKeys_eq {keys : List String} (h : ∀ key ∈ keys, isPrintable key = true) :
    python.sortKeys keys = javascript.sortKeys keys := by
  apply insertionSort_congr
  intro key hkey other hother
  rw [keyLe_eq (h key hkey) (h other hother)]

theorem members_eq {texts : List (String × String)}
    (h : ∀ text ∈ texts, isPrintable text.1 = true) :
    python.members texts = javascript.members texts := by
  have hkeys : ∀ key ∈ texts.map Prod.fst, isPrintable key = true := by
    simpa using fun key text hmem => h (key, text) hmem
  rw [Encoder.members, Encoder.members, sortKeys_eq hkeys]
  apply List.map_congr_left
  intro key hkey
  rw [quote_eq (hkeys key ((List.perm_insertionSort _ _).mem_iff.mp hkey))]

mutual

/-- On printable ASCII the two encoders write the same text. -/
theorem encode_python_eq_javascript : (value : Json) → Printable value →
    python.encode value = javascript.encode value
  | .null, _ => rfl
  | .bool _, _ => rfl
  | .num _, _ => rfl
  | .real _, _ => rfl
  | .str value, h => quote_eq h
  | .arr items, h => by
    rw [Encoder.encode, Encoder.encode, encodeItems_eq items h]
  | .obj fields, h => by
    have hkeys : ∀ text ∈ javascript.encodeFields fields, isPrintable text.1 = true := by
      rw [Encoder.encodeFields_eq_map]
      intro text htext
      obtain ⟨field, hfield, rfl⟩ := List.mem_map.mp htext
      exact ((printableFields_iff fields).mp h field hfield).1
    rw [Encoder.encode, Encoder.encode, encodeFields_eq fields h, members_eq hkeys]

theorem encodeItems_eq : (items : List Json) → PrintableItems items →
    python.encodeItems items = javascript.encodeItems items
  | [], _ => rfl
  | item :: items, h => by
    rw [Encoder.encodeItems, Encoder.encodeItems, encode_python_eq_javascript item h.1,
      encodeItems_eq items h.2]

theorem encodeFields_eq : (fields : List (String × Json)) → PrintableFields fields →
    python.encodeFields fields = javascript.encodeFields fields
  | [], _ => rfl
  | field :: fields, h => by
    rw [Encoder.encodeFields, Encoder.encodeFields, encode_python_eq_javascript field.2 h.2.1,
      encodeFields_eq fields h.2.2]

end

/-- Python escapes DEL, JavaScript does not. -/
example : python.quote "\x7f" = "\"\\u007f\"" ∧ javascript.quote "\x7f" = "\"\x7f\"" := by decide

end Json

end IouAi
