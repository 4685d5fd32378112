import IouAi.Foundations.JsonNesting
import IouAi.Wire.Patterns
import Mathlib.Algebra.BigOperators.Group.List.Basic
import Mathlib.Algebra.Order.BigOperators.Group.List
import Mathlib.Data.Nat.Digits.Defs

/-!
# Canonical texts

The canonical text of an object is not the beginning of that of another one, as bytes. What a writer
has put down of a text when it stops early is no text of an object. An object is about as long as its
keys and its values together (`length_canonicalJson_obj`).
-/

namespace IouAi.Wire

/-! ## UTF-8 -/

theorem toList_eq (bytes : ByteArray) : bytes.toList = bytes.data.toList := by
  have hloop : ∀ i r, ByteArray.toList.loop bytes i r = r.reverse ++ bytes.data.toList.drop i := by
    intro i r
    fun_induction ByteArray.toList.loop bytes i r with
    | case1 i r h ih =>
      have hi : i < bytes.data.toList.length := h
      have hget : bytes.get! i = bytes.data.toList[i] := by
        have hsize : i < bytes.data.size := h
        change bytes.data[i]! = _
        rw [getElem!_pos bytes.data i hsize, Array.getElem_toList]
      rw [ih, hget, List.reverse_cons, List.append_assoc, List.singleton_append,
        ← List.drop_eq_getElem_cons hi]
    | case2 i r h =>
      have hi : bytes.data.toList.length ≤ i := Nat.le_of_not_lt h
      rw [List.drop_eq_nil_of_le hi, List.append_nil]
  exact hloop 0 []

theorem utf8_eq (text : String) : utf8 text = text.toList.utf8Encode.data.toList := by
  rw [utf8, toList_eq, String.utf8Encode_toList]
  rfl

/-- Characters begin others when their encodings do. -/
theorem isPrefix_of_utf8Encode {text text' : List Char} (rest : ByteArray)
    (h : text'.utf8Encode = text.utf8Encode ++ rest) : text <+: text' := by
  induction text generalizing text' with
  | nil => exact List.nil_prefix
  | cons c text ih =>
    have hdecode : text'.utf8Encode.utf8DecodeChar? 0 = some c := by
      rw [h, List.utf8Encode_cons, ByteArray.append_assoc]
      exact List.utf8DecodeChar?_utf8Encode_singleton_append
    cases text' with
    | nil =>
      have hsize := ByteArray.le_size_of_utf8DecodeChar?_eq_some hdecode
      have hpos := c.utf8Size_pos
      rw [List.utf8Encode_nil, ByteArray.size_empty] at hsize
      omega
    | cons c' text' =>
      rw [List.utf8DecodeChar?_utf8Encode_cons, Option.some.injEq] at hdecode
      subst hdecode
      rw [List.utf8Encode_cons, List.utf8Encode_cons (l := text), ByteArray.append_assoc,
        ByteArray.append_right_inj] at h
      exact List.prefix_cons_inj _ |>.mpr (ih h)

theorem isPrefix_of_utf8 {text text' : String} (h : utf8 text <+: utf8 text') :
    text.toList <+: text'.toList := by
  obtain ⟨rest, hrest⟩ := h
  refine isPrefix_of_utf8Encode rest.toByteArray ?_
  rw [utf8_eq, utf8_eq] at hrest
  refine ByteArray.ext (Array.toList_inj.mp ?_)
  rw [ByteArray.data_append, Array.toList_append, List.toList_data_toByteArray, hrest]

/-- The bytes of ASCII text are its characters. -/
theorem utf8_eq_map {text : String} (h : ∀ c ∈ text.toList, c.toNat < 128) :
    utf8 text = text.toList.map fun c => UInt8.ofNat c.toNat := by
  have hencode : ∀ c : Char, c.toNat < 128 → String.utf8EncodeChar c = [UInt8.ofNat c.toNat] := by
    intro c hc
    rw [String.utf8EncodeChar]
    exact if_pos (Nat.le_of_lt_succ hc)
  rw [utf8_eq, List.utf8Encode, List.toList_data_toByteArray]
  generalize text.toList = chars at h ⊢
  induction chars with
  | nil => rfl
  | cons c rest ih =>
    rw [List.flatMap_cons, List.map_cons, hencode c (h c List.mem_cons_self),
      ih fun other hother => h other (List.mem_cons_of_mem _ hother)]
    rfl

/-! ## Objects -/

/-- No canonical text of an object begins another one. -/
theorem canonicalJson_eq_of_isPrefix {fields fields' : List (String × Json)}
    (h : Json.IntegralFields fields) (h' : Json.IntegralFields fields')
    (hbegins : canonicalJson (.obj fields) <+: canonicalJson (.obj fields')) :
    canonicalJson (.obj fields) = canonicalJson (.obj fields') := by
  have htext := Json.eq_of_isPrefix Json.python_quotes h h' (isPrefix_of_utf8 hbegins)
  rw [canonicalJson, canonicalJson, String.toList_inj.mp htext]

/-! ## How texts begin -/

theorem utf8_append (text text' : String) : utf8 (text ++ text') = utf8 text ++ utf8 text' := by
  rw [utf8_eq, utf8_eq, utf8_eq, String.toList_append, List.utf8Encode_append,
    ByteArray.data_append, Array.toList_append]

theorem utf8_isPrefix {text text' : String} (h : text.toList <+: text'.toList) :
    utf8 text <+: utf8 text' := by
  obtain ⟨rest, hrest⟩ := h
  have heq : text' = text ++ String.ofList rest := by
    rw [← String.toList_inj, String.toList_append, String.toList_ofList, hrest]
  rw [heq, utf8_append]
  exact List.prefix_append _ _

/-- The text of an object begins with its first key and the value under it. -/
theorem isPrefix_encode_obj {encoder : Json.Encoder} {fields : List (String × Json)} {key : String}
    {keys : List String} (hsort : encoder.sortKeys (fields.map Prod.fst) = key :: keys) {value : Json}
    (hlookup : Json.lookup fields key = some value) {start : List Char}
    (hstart : start <+: (encoder.encode value).toList) :
    "\x7b".toList ++ ((encoder.quote key).toList ++ (":".toList ++ start))
      <+: (encoder.encode (.obj fields)).toList := by
  have hvalue : (Json.lookup (encoder.encodeFields fields) key).getD "" = encoder.encode value := by
    rw [Json.Encoder.encodeFields_eq_map, Json.Encoder.lookup_map, hlookup]
    rfl
  have hkeys : (encoder.encodeFields fields).map Prod.fst = fields.map Prod.fst := by
    rw [Json.Encoder.encodeFields_eq_map, List.map_map]
    rfl
  rw [Json.Encoder.encode, Json.Encoder.members, hkeys, hsort, List.map_cons, hvalue]
  have hmember : ∀ (first : String) (rest : List String),
      first.toList <+: (",".intercalate (first :: rest)).toList := by
    intro first rest
    rw [String.toList_intercalate]
    cases rest with
    | nil => simp
    | cons other rest =>
      rw [List.map_cons, List.map_cons, List.intercalate_cons_cons, List.append_assoc]
      exact List.prefix_append _ _
  rw [String.toList_append, String.toList_append, List.append_assoc]
  refine (List.prefix_append_right_inj _).mpr ?_
  refine .trans ?_ ((hmember _ _).trans (List.prefix_append _ _))
  rw [String.toList_append, String.toList_append, List.append_assoc]
  exact (List.prefix_append_right_inj _).mpr ((List.prefix_append_right_inj _).mpr hstart)

/-! ## How long texts are -/

theorem utf16Units_length_le (c : Char) : (Json.utf16Units c).length ≤ 2 := by
  unfold Json.utf16Units
  simp only
  split <;> simp

theorem lt_of_isHexDigit {c : Char} (h : isHexDigit c = true) : c.toNat < 128 := by
  simp only [isHexDigit, Bool.or_eq_true, Bool.and_eq_true, decide_eq_true_eq] at h
  have hle : ∀ d : Char, c ≤ d → c.toNat ≤ d.toNat := fun d hd => hd
  rcases h with ⟨-, h⟩ | ⟨-, h⟩
  · exact (hle _ h).trans_lt (by decide)
  · exact (hle _ h).trans_lt (by decide)

/-- An escape is at most twelve ASCII characters. -/
theorem python_escape (c : Char) :
    (Json.python.escape c).length ≤ 12 ∧ ∀ d ∈ Json.python.escape c, d.toNat < 128 := by
  have hshort : ∀ text, Json.shortEscape? c = some text →
      text.length ≤ 12 ∧ ∀ d ∈ text, d.toNat < 128 := by
    intro text h
    unfold Json.shortEscape? at h
    split at h
    all_goals first
      | cases h
        exact ⟨by decide, by decide⟩
      | cases h
  have hunit : ∀ unit, (Json.unicodeEscape unit).length = 6
      ∧ ∀ d ∈ Json.unicodeEscape unit, d.toNat < 128 := by
    intro unit
    refine ⟨rfl, ?_⟩
    simp only [Json.unicodeEscape, List.mem_cons, List.not_mem_nil, or_false]
    rintro d (rfl | rfl | rfl | rfl | rfl | rfl)
    · decide
    · decide
    all_goals exact lt_of_isHexDigit (isHexDigit_hexDigit _)
  dsimp only [Json.python]
  split
  · rename_i text h
    exact hshort text h
  · split
    · rename_i hprintable
      simp only [Json.isPrintableAscii, Bool.and_eq_true, decide_eq_true_eq] at hprintable
      refine ⟨by simp, ?_⟩
      simp only [List.mem_singleton, forall_eq]
      omega
    · constructor
      · rw [List.length_flatMap]
        simp only [(hunit _).1, List.map_const', List.sum_replicate, Nat.nsmul_eq_mul]
        have := utf16Units_length_le c
        omega
      · intro d hd
        obtain ⟨unit, -, hd⟩ := List.mem_flatMap.mp hd
        exact (hunit unit).2 d hd

theorem length_quote_le (text : String) :
    (utf8 (Json.python.quote text)).length ≤ 12 * text.toList.length + 2 := by
  have hascii : ∀ c ∈ (Json.python.quote text).toList, c.toNat < 128 := by
    intro c hc
    simp only [Json.Encoder.quote, String.toList_ofList, List.mem_cons, List.mem_append,
      List.mem_flatMap, List.not_mem_nil, or_false] at hc
    rcases hc with (rfl | ⟨d, -, hd⟩) | rfl
    · decide
    · exact (python_escape d).2 c hd
    · decide
  rw [utf8_eq_map hascii, List.length_map, Json.Encoder.quote, String.toList_ofList,
    List.length_append, List.length_cons, List.length_singleton, List.length_flatMap]
  have hsum : (text.toList.map fun c => (Json.python.escape c).length).sum
      ≤ text.toList.length * 12 := by
    refine (List.sum_le_card_nsmul _ 12 ?_).trans (by simp)
    intro n hn
    obtain ⟨c, -, rfl⟩ := List.mem_map.mp hn
    exact (python_escape c).1
  omega

theorem length_utf8_intercalate (texts : List String) :
    (utf8 (",".intercalate texts)).length ≤ (texts.map fun text => (utf8 text).length + 1).sum := by
  induction texts with
  | nil =>
    have hnone : utf8 "" = [] := by
      rw [utf8_eq]
      rfl
    simp [hnone]
  | cons text texts ih =>
    cases texts with
    | nil =>
      have hone : ",".intercalate [text] = text := by
        rw [← String.toList_inj, String.toList_intercalate]
        simp
      rw [hone]
      simp
    | cons other texts =>
      have hcons : ",".intercalate (text :: other :: texts)
          = text ++ "," ++ ",".intercalate (other :: texts) := by
        rw [← String.toList_inj]
        simp only [String.toList_intercalate, List.map_cons, List.intercalate_cons_cons,
          String.toList_append]
      have hcomma : (utf8 ",").length = 1 := by
        rw [utf8_eq_map (by decide)]
        rfl
      rw [hcons, utf8_append, utf8_append, List.length_append, List.length_append, hcomma,
        List.map_cons, List.sum_cons]
      omega

/-- The text of an object whose keys have at most `n` characters is about as long as its values
together. -/
theorem length_canonicalJson_obj {fields : List (String × Json)} {keys : List String} {n : ℕ}
    (hkeys : keys.Nodup) (hshort : ∀ key ∈ keys, key.toList.length ≤ n)
    (hfields : fields.map Prod.fst = keys) {B : List ℕ}
    (hbounds : List.Forall₂ (fun field bound => (canonicalJson field.2).length ≤ bound) fields B) :
    (canonicalJson (.obj fields)).length ≤ 2 + (12 * n + 4) * keys.length + B.sum := by
  subst hfields
  have hbrace : (utf8 "\x7b").length = 1 ∧ (utf8 "\x7d").length = 1 ∧ (utf8 ":").length = 1 := by
    rw [utf8_eq_map (by decide), utf8_eq_map (by decide), utf8_eq_map (by decide)]
    exact ⟨rfl, rfl, rfl⟩
  have hfst : (Json.python.encodeFields fields).map Prod.fst = fields.map Prod.fst := by
    rw [Json.Encoder.encodeFields_eq_map, List.map_map]
    rfl
  have hmembers : ((Json.python.members (Json.python.encodeFields fields)).map fun text =>
      (utf8 text).length + 1).Perm ((fields.map Prod.fst).map fun key =>
        (utf8 (Json.python.quote key ++ ":"
          ++ (Json.lookup (Json.python.encodeFields fields) key).getD "")).length + 1) := by
    rw [Json.Encoder.members, List.map_map, hfst]
    exact (List.perm_insertionSort _ _).map _
  have hsum : ∀ sub : List (String × Json), (∀ field ∈ sub, field ∈ fields) → ∀ bounds : List ℕ,
      List.Forall₂ (fun field bound => (canonicalJson field.2).length ≤ bound) sub bounds →
      ((sub.map Prod.fst).map fun key => (utf8 (Json.python.quote key ++ ":"
        ++ (Json.lookup (Json.python.encodeFields fields) key).getD "")).length + 1).sum
          ≤ (12 * n + 4) * sub.length + bounds.sum := by
    intro sub hsub bounds hforall
    induction hforall with
    | nil => simp
    | @cons field bound sub bounds hbound _ ih =>
      have hlookup : Json.lookup fields field.1 = some field.2 := by
        have hmem := hsub field List.mem_cons_self
        cases hfound : fields.find? fun other => other.1 = field.1 with
        | none => simpa using List.find?_eq_none.mp hfound field hmem
        | some other =>
          have heq : other = field := List.inj_on_of_nodup_map hkeys
            (List.mem_of_find?_eq_some hfound) hmem
            (by simpa using List.find?_some hfound)
          rw [Json.lookup, hfound, heq]
          rfl
      have hquote := length_quote_le field.1
      have hkey := hshort field.1 (List.mem_map_of_mem (hsub field List.mem_cons_self))
      have hrest := ih fun other hother => hsub other (List.mem_cons_of_mem _ hother)
      rw [List.map_cons, List.map_cons, List.sum_cons, List.sum_cons, List.length_cons,
        Json.Encoder.encodeFields_eq_map, Json.Encoder.lookup_map, hlookup]
      rw [Json.Encoder.encodeFields_eq_map] at hrest
      simp only [Option.map_some, Option.getD_some, utf8_append, List.length_append, hbrace.2.2]
        at hrest ⊢
      change (utf8 (Json.python.encode field.2)).length ≤ bound at hbound
      rw [Nat.mul_add, Nat.mul_one]
      omega
  have htotal := hsum fields (fun _ h => h) B hbounds
  have hjoin := length_utf8_intercalate (Json.python.members (Json.python.encodeFields fields))
  rw [hmembers.sum_eq] at hjoin
  rw [canonicalJson, Json.Encoder.encode, utf8_append, utf8_append, List.length_append,
    List.length_append, hbrace.1, hbrace.2.1, List.length_map]
  omega

/-- Values of one canonical text have one text. -/
theorem encode_eq_of_canonicalJson_eq {value value' : Json}
    (h : canonicalJson value = canonicalJson value') :
    Json.python.encode value = Json.python.encode value' := by
  rw [canonicalJson, canonicalJson, utf8, utf8, toList_eq, toList_eq] at h
  exact String.toByteArray_inj.mp (ByteArray.ext (Array.toList_inj.mp h))

theorem length_canonicalJson_str (text : String) :
    (canonicalJson (.str text)).length ≤ 12 * text.toList.length + 2 := length_quote_le text

/-- The text of a number of at most `k` digits. -/
theorem length_canonicalJson_num_le {n k : ℕ} (hk : 0 < k) (h : n < 10 ^ k) :
    (canonicalJson (.num n)).length ≤ 4 * k := by
  have hrepr : (Json.python.encode (.num n)) = Nat.repr n := rfl
  have hfour : ∀ text : String, (utf8 text).length ≤ 4 * text.toList.length := by
    intro text
    rw [utf8_eq, List.utf8Encode, List.toList_data_toByteArray, List.length_flatMap]
    refine (List.sum_le_card_nsmul _ 4 ?_).trans (by simp [Nat.mul_comm])
    intro k hk
    obtain ⟨c, -, rfl⟩ := List.mem_map.mp hk
    exact (String.length_utf8EncodeChar c).trans_le c.utf8Size_le_four
  have hlength : (Nat.repr n).toList.length ≤ k := Nat.repr_length n k hk h
  rw [canonicalJson, hrepr]
  exact (hfour _).trans (by omega)

/-- The text of a list of short texts. -/
theorem length_canonicalJson_arr {items : List Json} {n : ℕ}
    (h : ∀ item ∈ items, (canonicalJson item).length ≤ n) :
    (canonicalJson (.arr items)).length ≤ 2 + items.length * (n + 1) := by
  have hbracket : (utf8 "[").length = 1 ∧ (utf8 "]").length = 1 := by
    rw [utf8_eq_map (by decide), utf8_eq_map (by decide)]
    exact ⟨rfl, rfl⟩
  have hitems : ∀ items : List Json, (∀ item ∈ items, (canonicalJson item).length ≤ n) →
      ((Json.python.encodeItems items).map fun text => (utf8 text).length + 1).sum
        ≤ items.length * (n + 1) := by
    intro items
    induction items with
    | nil => intro _; exact Nat.zero_le _
    | cons item items ih =>
      intro h
      obtain ⟨hitem, hrest⟩ := List.forall_mem_cons.mp h
      have hsum := ih hrest
      change (utf8 (Json.python.encode item)).length ≤ n at hitem
      rw [Json.Encoder.encodeItems, List.map_cons, List.sum_cons, List.length_cons, Nat.succ_mul]
      omega
  have hjoin := length_utf8_intercalate (Json.python.encodeItems items)
  have hsum := hitems items h
  rw [canonicalJson, Json.Encoder.encode, utf8_append, utf8_append, List.length_append,
    List.length_append, hbracket.1, hbracket.2]
  omega

/-- A number below ten thousand. -/
theorem length_canonicalJson_num {n : ℕ} (h : n < 10000) : (canonicalJson (.num n)).length ≤ 16 :=
  length_canonicalJson_num_le (by decide : 0 < 4) h

end IouAi.Wire
