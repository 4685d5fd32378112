import IouAi.Foundations.Json

/-!
# The canonical texts of values

A canonical text determines the value that it was written for, up to the order of the keys: strings
are read back by undoing the escapes, a value ends where a comma or a closing bracket follows it, and
objects of one text have the same texts under the same keys (`Json.lookup_encode_eq`).
-/

namespace IouAi

namespace Json

/-! ## Reading a text back -/

/-- A text ends where it is read to: two renderings that go on in an allowed way and are the same
text are of one value, and go on in the same way. -/
def ReadsBack {α : Type} (Follows : List Char → Prop) (render : α → List Char) (Valid : α → Prop)
    (x : α) : Prop :=
  ∀ y s t, Valid y → Follows s → Follows t → render x ++ s = render y ++ t → x = y ∧ s = t

section Sequences

variable {α : Type} {Follows : List Char → Prop} {render : α → List Char} {Valid : α → Prop}
  {closing : Char}

/-- Renderings one after the other are read back up to a closing character, which begins none of
them. -/
theorem readsBack_flatMap {xs ys : List α} {s t : List Char}
    (hread : ∀ x ∈ xs, ReadsBack Follows render Valid x) (hvalid : ∀ y ∈ ys, Valid y)
    (hopen : ∀ x rest, render x ≠ [] ∧ render x ≠ closing :: rest)
    (hfollows : ∀ (zs : List α) rest, Follows (zs.flatMap render ++ closing :: rest))
    (h : xs.flatMap render ++ closing :: s = ys.flatMap render ++ closing :: t) :
    xs = ys ∧ s = t := by
  have hclosing : ∀ x rest rest', closing :: rest ≠ render x ++ rest' := by
    intro x rest rest' heq
    cases hx : render x with
    | nil => exact (hopen x []).1 hx
    | cons c text =>
      rw [hx] at heq
      injection heq with hc
      exact (hopen x text).2 (hx.trans (congrArg (· :: text) hc.symm))
  induction xs generalizing ys with
  | nil =>
    cases ys with
    | nil => exact ⟨rfl, by simpa using h⟩
    | cons y ys =>
      rw [List.flatMap_nil, List.nil_append, List.flatMap_cons, List.append_assoc] at h
      exact absurd h (hclosing _ _ _)
  | cons x xs ih =>
    cases ys with
    | nil =>
      rw [List.flatMap_nil, List.nil_append, List.flatMap_cons, List.append_assoc] at h
      exact absurd h.symm (hclosing _ _ _)
    | cons y ys =>
      rw [List.flatMap_cons, List.flatMap_cons, List.append_assoc, List.append_assoc] at h
      obtain ⟨rfl, hrest⟩ := hread x (by simp) y _ _ (hvalid y (by simp)) (hfollows _ _)
        (hfollows _ _) h
      obtain ⟨rfl, hst⟩ := ih (fun x hx => hread x (by simp [hx]))
        (fun y hy => hvalid y (by simp [hy])) hrest
      exact ⟨rfl, hst⟩

end Sequences

/-! ## Strings -/

def hexValue (c : Char) : ℕ := if c.isDigit then c.toNat - 48 else c.toNat - 87

theorem hexValue_hexDigit (n : ℕ) : hexValue (hexDigit n) = n % 16 := by
  have hdigit : ∀ k < 16, hexValue (Nat.digitChar k) = k := by decide
  exact hdigit _ (Nat.mod_lt n (by decide))

/-- The code unit of an escape, and what follows the escape. -/
def readUnit : List Char → Option (ℕ × List Char)
  | _ :: _ :: a :: b :: c :: d :: rest =>
    some (hexValue a * 4096 + hexValue b * 256 + hexValue c * 16 + hexValue d, rest)
  | _ => none

theorem readUnit_unicodeEscape {unit : ℕ} (h : unit < 0x10000) (rest : List Char) :
    readUnit (unicodeEscape unit ++ rest) = some (unit, rest) := by
  simp only [unicodeEscape, List.cons_append, List.nil_append, readUnit, hexValue_hexDigit,
    Option.some.injEq, Prod.mk.injEq, and_true]
  omega

/-- The character of an escape of one letter. -/
def letterEscape (letter : Char) : Char :=
  match letter with
  | 'b' => '\x08'
  | 'f' => '\x0c'
  | 'n' => '\n'
  | 'r' => '\r'
  | 't' => '\t'
  | letter => letter

/-- The character of one or two escaped code units, and what follows. -/
def readUnits (text : List Char) : Option (Char × List Char) := do
  let (unit, rest) ← readUnit text
  if 0xd800 ≤ unit ∧ unit < 0xdc00 then
    let (low, rest) ← readUnit rest
    return (Char.ofNat (0x10000 + (unit - 0xd800) * 0x400 + (low - 0xdc00)), rest)
  else return (Char.ofNat unit, rest)

/-- The first character of a string as Python writes it, and what follows. -/
def readChar (text : List Char) : Option (Char × List Char) :=
  match text with
  | [] => none
  | c :: rest =>
    if c = '\\' then
      if rest.head? = some 'u' then readUnits text
      else rest.head?.map fun letter => (letterEscape letter, rest.tail)
    else some (c, rest)

theorem readUnits_pair {high low : ℕ} (hhigh : 0xd800 ≤ high ∧ high < 0xdc00)
    (hlow : low < 0x10000) (rest : List Char) :
    readUnits (unicodeEscape high ++ (unicodeEscape low ++ rest))
      = some (Char.ofNat (0x10000 + (high - 0xd800) * 0x400 + (low - 0xdc00)), rest) := by
  have hunit : high < 0x10000 := by omega
  simp only [readUnits, readUnit_unicodeEscape hunit, readUnit_unicodeEscape hlow, if_pos hhigh,
    Option.bind_eq_bind, Option.bind_some, Option.pure_def]

theorem readUnits_utf16Units (c : Char) (rest : List Char) :
    readUnits ((utf16Units c).flatMap unicodeEscape ++ rest) = some (c, rest) := by
  have hvalid := c.valid
  simp only [UInt32.isValidChar, Nat.isValidChar, Char.toNat_val] at hvalid
  rw [utf16Units]
  by_cases hbmp : c.toNat < 0x10000
  · have hsurrogate : ¬(0xd800 ≤ c.toNat ∧ c.toNat < 0xdc00) := by omega
    rw [if_pos hbmp, List.flatMap_singleton, readUnits, readUnit_unicodeEscape hbmp]
    simp only [Option.bind_eq_bind, Option.bind_some, if_neg hsurrogate, Char.ofNat_toNat,
      Option.pure_def]
  · have hsum : 0x10000 + (0xd800 + (c.toNat - 0x10000) / 0x400 - 0xd800) * 0x400
        + (0xdc00 + (c.toNat - 0x10000) % 0x400 - 0xdc00) = c.toNat := by omega
    rw [if_neg hbmp, List.flatMap_cons, List.flatMap_singleton, List.append_assoc,
      readUnits_pair (by omega) (by omega), hsum, Char.ofNat_toNat]

theorem readChar_escape (c : Char) (rest : List Char) :
    readChar (python.escape c ++ rest) = some (c, rest) := by
  simp only [python]
  cases hshort : shortEscape? c with
  | some text =>
    unfold shortEscape? at hshort
    split at hshort <;> rename_i hc <;> cases hshort
    all_goals
      rw [← Char.ofNat_toNat c, hc]
      rfl
  | none =>
    simp only
    by_cases hprintable : isPrintableAscii c = true
    · have hc : c ≠ '\\' := by
        rintro rfl
        exact absurd hshort (by decide)
      rw [if_pos hprintable, List.singleton_append, readChar.eq_def]
      exact if_neg hc
    · rw [if_neg hprintable]
      have hunits : ∃ units unit, utf16Units c = unit :: units := by
        rw [utf16Units]
        split
        · exact ⟨_, _, rfl⟩
        · exact ⟨_, _, rfl⟩
      obtain ⟨units, unit, hunits⟩ := hunits
      rw [← readUnits_utf16Units c rest, hunits]
      rfl

theorem escape_readsBack (c : Char) :
    ReadsBack (fun _ => True) python.escape (fun _ => True) c := by
  intro c' s t _ _ _ h
  have hread := readChar_escape c s
  rw [h, readChar_escape c' t] at hread
  cases hread
  exact ⟨rfl, rfl⟩

theorem escape_ne (c : Char) (rest : List Char) :
    python.escape c ≠ [] ∧ python.escape c ≠ '"' :: rest := by
  have hread := readChar_escape c []
  rw [List.append_nil] at hread
  constructor
  · intro h
    rw [h] at hread
    cases hread
  · intro h
    rw [h] at hread
    have hquote : some ('"', rest) = some (c, []) := hread
    cases hquote
    cases h

theorem toList_quote (text : String) :
    (python.quote text).toList = '"' :: (text.toList.flatMap python.escape ++ ['"']) := by
  rw [Encoder.quote, String.toList_ofList, List.cons_append]

/-- A string in quotes is read back whatever follows it. -/
theorem quote_readsBack (text : String) :
    ReadsBack (fun _ => True) (fun text => (python.quote text).toList) (fun _ => True) text := by
  intro text' s t _ _ _ h
  simp only [toList_quote, List.cons_append, List.append_assoc, List.nil_append, List.cons.injEq,
    true_and] at h
  obtain ⟨htext, hst⟩ := readsBack_flatMap (fun c _ => escape_readsBack c) (fun _ _ => trivial)
    escape_ne (fun _ _ => trivial) h
  exact ⟨String.toList_inj.mp htext, hst⟩

theorem quote_injective : Function.Injective python.quote := by
  intro text text' h
  exact (quote_readsBack text text' [] [] trivial trivial trivial
    (congrArg (fun text : String => text.toList ++ []) h)).1

/-! ## Values -/

/-- What may stand after a value: nothing, or a comma or a closing bracket. -/
def Ends (rest : List Char) : Prop := ∀ c ∈ rest.head?, c = ',' ∨ c = ']' ∨ c = '\x7d'

mutual

/-- No number in the value is kept as its text. -/
def Plain : Json → Prop
  | .real _ => False
  | .arr items => PlainItems items
  | .obj fields => PlainFields fields
  | _ => True

def PlainItems : List Json → Prop
  | [] => True
  | item :: items => Plain item ∧ PlainItems items

def PlainFields : List (String × Json) → Prop
  | [] => True
  | field :: fields => Plain field.2 ∧ PlainFields fields

end

/-- A text that Python writes for a value. -/
def IsText (text : String) : Prop := ∃ value, Plain value ∧ python.encode value = text

/-- A value begins with a character that tells its kind. -/
def kind : Json → ℕ
  | .null => 0
  | .bool true => 1
  | .bool false => 2
  | .str _ => 3
  | .arr _ => 4
  | .obj _ => 5
  | .num _ => 6
  | .real _ => 6

def charKind (c : Char) : ℕ :=
  match c with
  | 'n' => 0
  | 't' => 1
  | 'f' => 2
  | '"' => 3
  | '[' => 4
  | '\x7b' => 5
  | ']' | '\x7d' => 7
  | _ => 6

def isNumberChar (c : Char) : Bool := c.isDigit || c = '-'

theorem toString_negSucc (m : ℕ) :
    (toString (Int.negSucc m)).toList = '-' :: (Nat.repr (m + 1)).toList :=
  String.toList_append

theorem isNumberChar_of_mem_toString {n : ℤ} {c : Char} (h : c ∈ (toString n).toList) :
    isNumberChar c = true := by
  have hnat : ∀ m : ℕ, c ∈ (Nat.repr m).toList → isNumberChar c = true := by
    intro m hc
    rw [Nat.toList_repr] at hc
    rw [isNumberChar, Nat.isDigit_of_mem_toDigits (by decide) (by decide) hc, Bool.true_or]
  cases n with
  | ofNat m => exact hnat m h
  | negSucc m =>
    rw [toString_negSucc, List.mem_cons] at h
    rcases h with rfl | h
    · rfl
    · exact hnat _ h

theorem charKind_of_isNumberChar {c : Char} (h : isNumberChar c = true) : charKind c = 6 := by
  unfold charKind
  split
  case h_9 => rfl
  all_goals exact absurd h (by decide)

theorem exists_cons_toString (n : ℤ) : ∃ c rest, (toString n).toList = c :: rest := by
  cases n with
  | ofNat m =>
    have hrepr : (toString (Int.ofNat m)).toList = Nat.toDigits 10 m := Nat.toList_repr
    rw [hrepr]
    exact List.exists_cons_of_ne_nil Nat.toDigits_ne_nil
  | negSucc m => exact ⟨'-', _, toString_negSucc m⟩

theorem exists_cons_encode {value : Json} (h : Plain value) :
    ∃ c rest, (python.encode value).toList = c :: rest ∧ charKind c = value.kind := by
  cases value with
  | null => exact ⟨'n', _, rfl, rfl⟩
  | bool value =>
    cases value with
    | true => exact ⟨'t', _, rfl, rfl⟩
    | false => exact ⟨'f', _, rfl, rfl⟩
  | num value =>
    obtain ⟨c, rest, hc⟩ := exists_cons_toString value
    exact ⟨c, rest, hc, charKind_of_isNumberChar (isNumberChar_of_mem_toString
      (hc ▸ List.mem_cons_self))⟩
  | real text => exact h.elim
  | str value => exact ⟨'"', _, toList_quote value, rfl⟩
  | arr items =>
    refine ⟨'[', (",".intercalate (python.encodeItems items)).toList ++ [']'], ?_, rfl⟩
    rw [Encoder.encode, String.toList_append, String.toList_append]
    rfl
  | obj fields =>
    refine ⟨'\x7b', (",".intercalate (python.members (python.encodeFields fields))).toList
      ++ ['\x7d'], ?_, rfl⟩
    rw [Encoder.encode, String.toList_append, String.toList_append]
    rfl

/-- A number is read back: what may follow it is no character of a number. -/
theorem number_readsBack {m n : ℤ} {s t : List Char} (hs : Ends s) (ht : Ends t)
    (h : (toString m).toList ++ s = (toString n).toList ++ t) : toString m = toString n ∧ s = t := by
  have hend : ∀ rest, Ends rest → rest.takeWhile isNumberChar = [] := by
    intro rest hrest
    cases rest with
    | nil => rfl
    | cons c rest =>
      have hc : isNumberChar c = false := by
        rcases hrest c rfl with rfl | rfl | rfl <;> decide
      rw [List.takeWhile_cons_of_neg (by simp [hc])]
  have htake : ∀ (n : ℤ) rest, Ends rest →
      ((toString n).toList ++ rest).takeWhile isNumberChar = (toString n).toList := by
    intro n rest hrest
    rw [List.takeWhile_append_of_pos fun c hc => isNumberChar_of_mem_toString hc,
      hend rest hrest, List.append_nil]
  have heq := congrArg (List.takeWhile isNumberChar) h
  rw [htake m s hs, htake n t ht] at heq
  exact ⟨String.toList_inj.mp heq, List.append_cancel_left (heq ▸ h)⟩

theorem toList_intercalate (text : String) (texts : List String) :
    (",".intercalate (text :: texts)).toList
      = text.toList ++ texts.flatMap fun text => ',' :: text.toList := by
  induction texts generalizing text with
  | nil => simp
  | cons text' texts ih =>
    rw [String.intercalate_cons_cons, String.toList_append, String.toList_append, ih,
      List.append_assoc, List.flatMap_cons]
    rfl

section Sequences

variable {α : Type} {render : α → String} {Valid : α → Prop} {closing : Char}

/-- Renderings with commas between them are read back up to the closing bracket. -/
theorem readsBack_intercalate {xs ys : List α} {s t : List Char}
    (hclosing : closing = ']' ∨ closing = '\x7d')
    (hread : ∀ x ∈ xs, ReadsBack Ends (fun x => (render x).toList) Valid x)
    (hopen : ∀ x ∈ xs ++ ys, Valid x ∧ (render x).toList.head? ≠ none
      ∧ (render x).toList.head? ≠ some closing)
    (h : (",".intercalate (xs.map render)).toList ++ closing :: s
      = (",".intercalate (ys.map render)).toList ++ closing :: t) : xs = ys ∧ s = t := by
  have hempty : ∀ x ∈ xs ++ ys, ∀ texts rest rest', closing :: rest
      ≠ (",".intercalate (render x :: texts)).toList ++ rest' := by
    intro x hx texts rest rest' heq
    obtain ⟨-, hne, hclose⟩ := hopen x hx
    rw [toList_intercalate, List.append_assoc] at heq
    cases hrender : (render x).toList with
    | nil => exact hne (by rw [hrender]; rfl)
    | cons c text =>
      rw [hrender] at heq hclose
      injection heq with hc
      exact hclose (congrArg some hc.symm)
  have hfollows : ∀ (zs : List α) rest,
      Ends (zs.flatMap (fun x => ',' :: (render x).toList) ++ closing :: rest) := by
    intro zs rest c hc
    cases zs with
    | nil =>
      cases hc
      rcases hclosing with rfl | rfl <;> simp
    | cons z zs =>
      cases hc
      exact .inl rfl
  cases xs with
  | nil =>
    cases ys with
    | nil => exact ⟨rfl, by simpa using h⟩
    | cons y ys => exact absurd h (hempty y (by simp) _ _ _)
  | cons x xs =>
    cases ys with
    | nil => exact absurd h.symm (hempty x (by simp) _ _ _)
    | cons y ys =>
      simp only [List.map_cons, toList_intercalate, List.append_assoc, List.flatMap_map] at h
      obtain ⟨rfl, hrest⟩ := hread x (by simp) y _ _ (hopen y (by simp)).1 (hfollows _ _)
        (hfollows _ _) h
      have hcomma : closing ≠ ',' := by rcases hclosing with rfl | rfl <;> decide
      have hreadTail : ∀ z ∈ xs, ReadsBack Ends (fun x => ',' :: (render x).toList) Valid z :=
        fun z hz y s t hy hs ht heq =>
          hread z (by simp [hz]) y s t hy hs ht (List.cons_injective heq)
      obtain ⟨rfl, hst⟩ := readsBack_flatMap hreadTail (fun y hy => (hopen y (by simp [hy])).1)
        (fun z rest => ⟨List.cons_ne_nil _ _, fun heq => hcomma (List.cons.inj heq).1.symm⟩)
        hfollows hrest
      exact ⟨rfl, hst⟩

end Sequences

/-! ## Objects -/

/-- The keys of an object in order, each with the text of its value. -/
def memberPairs (texts : List (String × String)) : List (String × String) :=
  (python.sortKeys (texts.map Prod.fst)).map fun key => (key, (lookup texts key).getD "")

def renderMember (pair : String × String) : String := python.quote pair.1 ++ ":" ++ pair.2

theorem members_eq_map (texts : List (String × String)) :
    python.members texts = (memberPairs texts).map renderMember := by
  rw [Encoder.members, memberPairs, List.map_map]
  rfl

theorem lookup_of_mem_sortKeys {texts : List (String × String)} {key : String}
    (h : key ∈ python.sortKeys (texts.map Prod.fst)) :
    lookup texts key = some ((lookup texts key).getD "")
      ∧ (key, (lookup texts key).getD "") ∈ texts := by
  have hkey : key ∈ texts.map Prod.fst := (List.perm_insertionSort _ _).mem_iff.mp h
  obtain ⟨text, htext, rfl⟩ := List.mem_map.mp hkey
  have hsome : (texts.find? fun other => other.1 = text.1).isSome := by
    rw [List.find?_isSome]
    exact ⟨text, htext, by simp⟩
  obtain ⟨found, hfound⟩ := Option.isSome_iff_exists.mp hsome
  have hfst : found.1 = text.1 := by simpa using List.find?_some hfound
  rw [lookup, hfound, ← hfst]
  exact ⟨rfl, List.mem_of_find?_eq_some hfound⟩

theorem lookup_eq_none {texts : List (String × String)} {key : String}
    (h : key ∉ python.sortKeys (texts.map Prod.fst)) : lookup texts key = none := by
  have hkey : key ∉ texts.map Prod.fst :=
    fun hkey => h ((List.perm_insertionSort _ _).mem_iff.mpr hkey)
  rw [lookup, List.find?_eq_none.mpr, Option.map_none]
  intro text htext
  simpa using fun heq => hkey (List.mem_map.mpr ⟨text, htext, heq⟩)

theorem mem_of_mem_memberPairs {texts : List (String × String)} {pair : String × String}
    (h : pair ∈ memberPairs texts) : pair ∈ texts := by
  obtain ⟨key, hkey, rfl⟩ := List.mem_map.mp h
  exact (lookup_of_mem_sortKeys hkey).2

/-- The members of an object determine the text under each key. -/
theorem lookup_eq_of_memberPairs_eq {texts texts' : List (String × String)}
    (h : memberPairs texts = memberPairs texts') (key : String) :
    lookup texts key = lookup texts' key := by
  have hkeys : python.sortKeys (texts.map Prod.fst) = python.sortKeys (texts'.map Prod.fst) := by
    simpa [memberPairs, Function.comp_def] using congrArg (List.map Prod.fst) h
  by_cases hkey : key ∈ python.sortKeys (texts.map Prod.fst)
  · rw [memberPairs, memberPairs, ← hkeys] at h
    have hpair := List.map_inj_left.mp h key hkey
    have hlookup := (lookup_of_mem_sortKeys hkey).1
    exact hlookup.trans ((congrArg (fun pair : String × String => some pair.2) hpair).trans
      (lookup_of_mem_sortKeys (hkeys ▸ hkey)).1.symm)
  · rw [lookup_eq_none hkey, lookup_eq_none (hkeys ▸ hkey)]

theorem member_readsBack {key text : String} (h : ReadsBack Ends String.toList IsText text) :
    ReadsBack Ends (fun pair => (renderMember pair).toList) (fun pair => IsText pair.2)
      (key, text) := by
  rintro ⟨key', text'⟩ s t hvalid hs ht heq
  simp only [renderMember, String.toList_append, List.append_assoc] at heq
  obtain ⟨rfl, hrest⟩ := quote_readsBack key key' _ _ trivial trivial trivial heq
  obtain ⟨rfl, hst⟩ := h text' s t hvalid hs ht (List.append_cancel_left hrest)
  exact ⟨rfl, hst⟩

/-! ## The texts of values -/

theorem kind_eq {value value' : Json} {s t : List Char} (hvalue : Plain value)
    (hvalue' : Plain value')
    (h : (python.encode value).toList ++ s = (python.encode value').toList ++ t) :
    value.kind = value'.kind := by
  obtain ⟨c, rest, hc, hkind⟩ := exists_cons_encode hvalue
  obtain ⟨c', rest', hc', hkind'⟩ := exists_cons_encode hvalue'
  rw [hc, hc'] at h
  rw [← hkind, ← hkind', (List.cons.inj h).1]

theorem plainItems_iff (items : List Json) : PlainItems items ↔ ∀ item ∈ items, Plain item := by
  induction items with
  | nil => simp [PlainItems]
  | cons item items ih => simp [PlainItems, ih]

theorem plainFields_iff (fields : List (String × Json)) :
    PlainFields fields ↔ ∀ field ∈ fields, Plain field.2 := by
  induction fields with
  | nil => simp [PlainFields]
  | cons field fields ih => simp [PlainFields, ih]

theorem encodeItems_eq_map (items : List Json) :
    python.encodeItems items = items.map python.encode := by
  induction items with
  | nil => rfl
  | cons item items ih => rw [Encoder.encodeItems, ih, List.map_cons]

theorem isText_of_mem_encodeItems {items : List Json} (h : PlainItems items) {text : String}
    (htext : text ∈ python.encodeItems items) : IsText text := by
  rw [encodeItems_eq_map] at htext
  obtain ⟨item, hitem, rfl⟩ := List.mem_map.mp htext
  exact ⟨item, (plainItems_iff items).mp h item hitem, rfl⟩

theorem isText_of_mem_encodeFields {fields : List (String × Json)} (h : PlainFields fields)
    {pair : String × String} (hpair : pair ∈ python.encodeFields fields) : IsText pair.2 := by
  rw [Encoder.encodeFields_eq_map] at hpair
  obtain ⟨field, hfield, rfl⟩ := List.mem_map.mp hpair
  exact ⟨field.2, (plainFields_iff fields).mp h field hfield, rfl⟩

/-- A value begins with no closing bracket. -/
theorem head?_of_isText {text : String} (h : IsText text) {closing : Char}
    (hclosing : closing = ']' ∨ closing = '\x7d') :
    text.toList.head? ≠ none ∧ text.toList.head? ≠ some closing := by
  obtain ⟨value, hvalue, rfl⟩ := h
  obtain ⟨c, rest, hc, hkind⟩ := exists_cons_encode hvalue
  have hlt : value.kind ≤ 6 := by
    unfold kind
    split <;> decide
  have hclosed : charKind closing = 7 := by rcases hclosing with rfl | rfl <;> rfl
  rw [hc]
  refine ⟨nofun, fun heq => ?_⟩
  rw [← Option.some.inj heq, hkind] at hclosed
  omega

theorem items_readsBack {items items' : List Json} {s t : List Char} (hitems : PlainItems items)
    (hitems' : PlainItems items')
    (hread : ∀ text ∈ python.encodeItems items, ReadsBack Ends String.toList IsText text)
    (h : (python.encode (.arr items)).toList ++ s = (python.encode (.arr items')).toList ++ t) :
    python.encodeItems items = python.encodeItems items' ∧ s = t := by
  simp only [Encoder.encode, String.toList_append, List.append_assoc] at h
  have hopen : ∀ text ∈ python.encodeItems items ++ python.encodeItems items',
      IsText text ∧ text.toList.head? ≠ none ∧ text.toList.head? ≠ some ']' := by
    intro text htext
    have hvalid : IsText text := by
      rcases List.mem_append.mp htext with htext | htext
      · exact isText_of_mem_encodeItems hitems htext
      · exact isText_of_mem_encodeItems hitems' htext
    exact ⟨hvalid, head?_of_isText hvalid (.inl rfl)⟩
  have hcancel := List.append_cancel_left h
  rw [← List.map_id (python.encodeItems items), ← List.map_id (python.encodeItems items')] at hcancel
  exact readsBack_intercalate (.inl rfl) hread hopen hcancel

theorem members_readsBack {fields fields' : List (String × Json)} {s t : List Char}
    (hfields : PlainFields fields) (hfields' : PlainFields fields')
    (hread : ∀ pair ∈ python.encodeFields fields, ReadsBack Ends String.toList IsText pair.2)
    (h : (python.encode (.obj fields)).toList ++ s = (python.encode (.obj fields')).toList ++ t) :
    memberPairs (python.encodeFields fields) = memberPairs (python.encodeFields fields')
      ∧ s = t := by
  simp only [Encoder.encode, members_eq_map, String.toList_append, List.append_assoc] at h
  refine readsBack_intercalate (.inr rfl)
    (fun pair hpair => member_readsBack (hread pair (mem_of_mem_memberPairs hpair))) ?_
    (List.append_cancel_left h)
  intro pair hpair
  refine ⟨?_, ?_⟩
  · rcases List.mem_append.mp hpair with hpair | hpair
    · exact isText_of_mem_encodeFields hfields (mem_of_mem_memberPairs hpair)
    · exact isText_of_mem_encodeFields hfields' (mem_of_mem_memberPairs hpair)
  · rw [renderMember, String.toList_append, String.toList_append, toList_quote]
    exact ⟨nofun, by simp⟩

mutual

theorem encode_readsBack : (value : Json) → Plain value →
    ReadsBack Ends String.toList IsText (python.encode value)
  | .null, h => by
    rintro _ s t ⟨value, hvalue, rfl⟩ hs ht heq
    match value, kind_eq h hvalue heq with
    | .null, _ => exact ⟨rfl, List.append_cancel_left heq⟩
  | .bool b, h => by
    rintro _ s t ⟨value, hvalue, rfl⟩ hs ht heq
    match b, value, kind_eq h hvalue heq with
    | true, .bool true, _ => exact ⟨rfl, List.append_cancel_left heq⟩
    | false, .bool false, _ => exact ⟨rfl, List.append_cancel_left heq⟩
  | .num n, h => by
    rintro _ s t ⟨value, hvalue, rfl⟩ hs ht heq
    match value, kind_eq h hvalue heq with
    | .num m, _ => exact number_readsBack hs ht heq
    | .real _, _ => exact hvalue.elim
  | .real _, h => h.elim
  | .str text, h => by
    rintro _ s t ⟨value, hvalue, rfl⟩ hs ht heq
    match value, kind_eq h hvalue heq with
    | .str text', _ =>
      obtain ⟨rfl, hst⟩ := quote_readsBack text text' s t trivial trivial trivial heq
      exact ⟨rfl, hst⟩
  | .arr items, h => by
    rintro _ s t ⟨value, hvalue, rfl⟩ hs ht heq
    match value, kind_eq h hvalue heq with
    | .arr items', _ =>
      obtain ⟨hitems, hst⟩ := items_readsBack h hvalue (encodeItems_readsBack items h) heq
      refine ⟨?_, hst⟩
      rw [Encoder.encode, Encoder.encode, hitems]
  | .obj fields, h => by
    rintro _ s t ⟨value, hvalue, rfl⟩ hs ht heq
    match value, kind_eq h hvalue heq with
    | .obj fields', _ =>
      obtain ⟨hpairs, hst⟩ := members_readsBack h hvalue (encodeFields_readsBack fields h) heq
      refine ⟨?_, hst⟩
      rw [Encoder.encode, Encoder.encode, members_eq_map, members_eq_map, hpairs]

theorem encodeItems_readsBack : (items : List Json) → PlainItems items →
    ∀ text ∈ python.encodeItems items, ReadsBack Ends String.toList IsText text
  | [], _ => nofun
  | item :: items, h => by
    rw [Encoder.encodeItems]
    exact List.forall_mem_cons.mpr
      ⟨encode_readsBack item h.1, encodeItems_readsBack items h.2⟩

theorem encodeFields_readsBack : (fields : List (String × Json)) → PlainFields fields →
    ∀ pair ∈ python.encodeFields fields, ReadsBack Ends String.toList IsText pair.2
  | [], _ => nofun
  | field :: fields, h => by
    rw [Encoder.encodeFields]
    exact List.forall_mem_cons.mpr
      ⟨encode_readsBack field.2 h.1, encodeFields_readsBack fields h.2⟩

end

/-- Objects of one text have values of one text under each key. -/
theorem lookup_encode_eq {fields fields' : List (String × Json)} (hfields : PlainFields fields)
    (hfields' : PlainFields fields')
    (h : python.encode (.obj fields) = python.encode (.obj fields')) (key : String) :
    (lookup fields key).map python.encode = (lookup fields' key).map python.encode := by
  have heq : (python.encode (.obj fields)).toList ++ []
      = (python.encode (.obj fields')).toList ++ [] := by rw [h]
  have hpairs :=
    (members_readsBack hfields hfields' (encodeFields_readsBack fields hfields) heq).1
  have hlookup := lookup_eq_of_memberPairs_eq hpairs key
  rwa [Encoder.encodeFields_eq_map, Encoder.encodeFields_eq_map, Encoder.lookup_map,
    Encoder.lookup_map] at hlookup

/-- Arrays of one text have items of one text, in their order. -/
theorem items_encode_eq {items items' : List Json} (hitems : PlainItems items)
    (hitems' : PlainItems items') (h : python.encode (.arr items) = python.encode (.arr items')) :
    items.map python.encode = items'.map python.encode := by
  have heq : (python.encode (.arr items)).toList ++ [] = (python.encode (.arr items')).toList ++ [] := by
    rw [h]
  have htexts := (items_readsBack hitems hitems' (encodeItems_readsBack items hitems) heq).1
  rwa [encodeItems_eq_map, encodeItems_eq_map] at htexts

/-- Objects of one text have the same string under a key that is a string in both. -/
theorem lookup_str_eq {fields fields' : List (String × Json)} (hfields : PlainFields fields)
    (hfields' : PlainFields fields')
    (h : python.encode (.obj fields) = python.encode (.obj fields')) {key text text' : String}
    (htext : lookup fields key = some (.str text)) (htext' : lookup fields' key = some (.str text')) :
    text = text' := by
  have heq := lookup_encode_eq hfields hfields' h key
  rw [htext, htext', Option.map_some, Option.map_some] at heq
  exact quote_injective (Option.some.inj heq)

theorem repr_injective {m n : ℕ} (h : Nat.repr m = Nat.repr n) : m = n := by
  have hdigits : Nat.toDigits 10 m = Nat.toDigits 10 n := by
    rw [← Nat.toList_repr, h, Nat.toList_repr]
  rw [← Nat.ofDigitChars_toDigits (b := 10) (n := m) (by decide) (by decide), hdigits,
    Nat.ofDigitChars_toDigits (by decide) (by decide)]

/-- Numbers of one text are one number. -/
theorem num_injective {m n : ℤ} (h : python.encode (.num m) = python.encode (.num n)) : m = n := by
  have hsign : ∀ m n : ℕ, Nat.repr m ≠ "-" ++ Nat.repr n := by
    intro m n heq
    have hmem : '-' ∈ Nat.toDigits 10 m := by
      rw [← Nat.toList_repr, heq, String.toList_append]
      exact List.mem_cons_self
    have hdigit := Nat.isDigit_of_mem_toDigits (by decide) (by decide) hmem
    exact absurd hdigit (by decide)
  cases m with
  | ofNat m =>
    cases n with
    | ofNat n => exact congrArg Int.ofNat (repr_injective h)
    | negSucc n => exact absurd h (hsign m (n + 1))
  | negSucc m =>
    cases n with
    | ofNat n => exact absurd h.symm (hsign n (m + 1))
    | negSucc n =>
      have hrepr : "-" ++ Nat.repr (m + 1) = "-" ++ Nat.repr (n + 1) := h
      have hlist := congrArg String.toList hrepr
      rw [String.toList_append, String.toList_append] at hlist
      have hsucc := repr_injective (String.toList_inj.mp (List.append_cancel_left hlist))
      exact congrArg Int.negSucc (Nat.succ_injective hsucc)

/-- Objects of one text have the same number under a key that is a number in both. -/
theorem lookup_num_eq {fields fields' : List (String × Json)} (hfields : PlainFields fields)
    (hfields' : PlainFields fields')
    (h : python.encode (.obj fields) = python.encode (.obj fields')) {key : String} {n n' : ℤ}
    (hn : lookup fields key = some (.num n)) (hn' : lookup fields' key = some (.num n')) :
    n = n' := by
  have heq := lookup_encode_eq hfields hfields' h key
  rw [hn, hn', Option.map_some, Option.map_some] at heq
  exact num_injective (Option.some.inj heq)

end Json

end IouAi
