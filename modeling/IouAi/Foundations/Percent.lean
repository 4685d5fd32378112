import IouAi.Foundations.Characters
import Mathlib.Data.List.Basic
import Mathlib.Data.List.Induction

/-!
# Paths with percent escapes

The segments of a path between its slashes, and the text a path stands for when its percent escapes
are decoded. Decoding goes through the slashes (`percentDecode_append_slash`), so a path has no dot
segment when what it decodes to has none (`noDotSegments_of_percentDecode`).
-/

namespace IouAi.PercentPath

/-! ## Segments -/

/-- Neither `.` nor `..` is a segment of the path. -/
def NoDotSegments (path : List Char) : Prop :=
  ∀ segment ∈ path.splitOn '/', segment ≠ ['.'] ∧ segment ≠ ['.', '.']

instance : DecidablePred NoDotSegments := fun path =>
  inferInstanceAs (Decidable (∀ segment ∈ path.splitOn '/', segment ≠ ['.'] ∧ segment ≠ ['.', '.']))

/-- Induction on the segments of a path. -/
@[elab_as_elim]
theorem slash_induction {P : List Char → Prop} (last : ∀ xs, '/' ∉ xs → P xs)
    (slash : ∀ xs ys, '/' ∉ xs → P ys → P (xs ++ '/' :: ys)) (xs : List Char) : P xs := by
  induction hn : xs.length using Nat.strongRecOn generalizing xs with
  | ind n ih =>
    by_cases hmem : '/' ∈ xs
    · obtain ⟨ys, zs, rfl, hys⟩ := List.eq_append_cons_of_mem hmem
      have hlt : zs.length < n := by
        rw [← hn, List.length_append, List.length_cons]
        omega
      exact slash ys zs hys (ih _ hlt zs rfl)
    · exact last xs hmem

theorem noDotSegments_append_slash {xs ys : List Char} :
    NoDotSegments (xs ++ '/' :: ys) ↔ NoDotSegments xs ∧ NoDotSegments ys := by
  simp only [NoDotSegments, List.splitOn_append_cons_self, List.forall_mem_append]

theorem noDotSegments_of_not_mem {xs : List Char} (h : '/' ∉ xs) :
    NoDotSegments xs ↔ xs ≠ ['.'] ∧ xs ≠ ['.', '.'] := by
  rw [NoDotSegments, List.splitOn_eq_singleton h, List.forall_mem_singleton]

section

variable {c : Char} (hslash : c ≠ '/') (hdot : c ≠ '.')
include hslash hdot

theorem NoDotSegments.cons {xs : List Char} (h : NoDotSegments xs) : NoDotSegments (c :: xs) := by
  have hlast : ∀ xs, '/' ∉ xs → NoDotSegments (c :: xs) := by
    intro xs hxs
    rw [noDotSegments_of_not_mem (by simp [hslash.symm, hxs])]
    simp [hdot]
  induction xs using slash_induction with
  | last xs hxs => exact hlast xs hxs
  | slash xs ys hxs _ =>
    rw [← List.cons_append, noDotSegments_append_slash]
    exact ⟨hlast xs hxs, (noDotSegments_append_slash.mp h).2⟩

theorem NoDotSegments.concat {xs : List Char} (h : NoDotSegments xs) :
    NoDotSegments (xs ++ [c]) := by
  induction xs using slash_induction with
  | last xs hxs =>
    rw [noDotSegments_of_not_mem (by simp [hslash.symm, hxs])]
    constructor
    · intro heq
      have := congrArg List.getLast? heq
      simp [hdot] at this
    · intro heq
      have := congrArg List.getLast? heq
      simp [hdot] at this
  | slash xs ys hxs ih =>
    obtain ⟨hfirst, hrest⟩ := noDotSegments_append_slash.mp h
    rw [List.append_assoc, List.cons_append, noDotSegments_append_slash]
    exact ⟨hfirst, ih hrest⟩

end

/-- A path without dot segments may be put between characters other than slashes and dots. -/
theorem NoDotSegments.wrap {xs pre post : List Char} (h : NoDotSegments xs)
    (hpre : ∀ c ∈ pre, c ≠ '/' ∧ c ≠ '.') (hpost : ∀ c ∈ post, c ≠ '/' ∧ c ≠ '.') :
    NoDotSegments (pre ++ xs ++ post) := by
  have hleft : NoDotSegments (pre ++ xs) := by
    induction pre with
    | nil => exact h
    | cons c pre ih =>
      obtain ⟨hc, hpre⟩ := List.forall_mem_cons.mp hpre
      exact (ih hpre).cons hc.1 hc.2
  induction post using List.reverseRecOn with
  | nil => rwa [List.append_nil]
  | append_singleton post c ih =>
    have hc := hpost c (by simp)
    rw [← List.append_assoc]
    exact (ih fun d hd => hpost d (by simp [hd])).concat hc.1 hc.2

/-! ## Escapes -/

/-- The value of a hexadecimal digit of either case. -/
def hexDigitValue (b : UInt8) : Option UInt8 :=
  if 48 ≤ b ∧ b ≤ 57 then some (b - 48)
  else if 65 ≤ b ∧ b ≤ 70 then some (b - 55)
  else if 97 ≤ b ∧ b ≤ 102 then some (b - 87)
  else none

/-- The byte of the escape `%ab`. -/
def escapedByte (c a b : UInt8) : Option UInt8 :=
  if c = 37 then
    match hexDigitValue a, hexDigitValue b with
    | some x, some y => some (16 * x + y)
    | _, _ => none
  else none

/-- Every escape becomes its byte. -/
def unquoteBytes : List UInt8 → List UInt8
  | c :: a :: b :: bytes =>
    match escapedByte c a b with
    | some byte => byte :: unquoteBytes bytes
    | none => c :: unquoteBytes (a :: b :: bytes)
  | bytes => bytes

/-- `unquote_to_bytes`. -/
def unquoteToBytes (text : List Char) : List UInt8 :=
  unquoteBytes (text.flatMap String.utf8EncodeChar)

/-- `bytes.decode("ascii")`. -/
def decodeAscii (bytes : List UInt8) : Option (List Char) :=
  if bytes.all (· < 128) then some (bytes.map fun b => Char.ofNat b.toNat) else none

/-- The text of a path. -/
def percentDecode (text : List Char) : Option (List Char) := decodeAscii (unquoteToBytes text)

theorem escapedByte_slash_left (b : UInt8) (c : UInt8) : escapedByte c 47 b = none := by
  unfold escapedByte
  split_ifs <;> rfl

theorem escapedByte_slash_right (a : UInt8) (c : UInt8) : escapedByte c a 47 = none := by
  unfold escapedByte
  split_ifs
  · cases hexDigitValue a <;> rfl
  · rfl

theorem unquoteBytes_cons_slash (bytes : List UInt8) :
    unquoteBytes (47 :: bytes) = 47 :: unquoteBytes bytes := by
  match bytes with
  | [] => rfl
  | [_] => rfl
  | a :: b :: bytes => rw [unquoteBytes]; rfl

/-- No escape goes over a slash. -/
theorem unquoteBytes_append_slash (xs ys : List UInt8) :
    unquoteBytes (xs ++ 47 :: ys) = unquoteBytes xs ++ 47 :: unquoteBytes ys := by
  fun_induction unquoteBytes xs with
  | case1 c a b xs byte hbyte ih => simp [unquoteBytes, hbyte, ih]
  | case2 c a b xs hnone ih =>
    rw [List.cons_append, List.cons_append, List.cons_append, unquoteBytes, hnone]
    simpa using ih
  | case3 xs hshort =>
    have hone : ∀ c, unquoteBytes (c :: 47 :: ys) = c :: 47 :: unquoteBytes ys := by
      intro c
      cases ys with
      | nil => rfl
      | cons d ys => rw [unquoteBytes, escapedByte_slash_left, unquoteBytes_cons_slash]
    match xs, hshort with
    | [], _ => exact unquoteBytes_cons_slash ys
    | [c], _ => exact hone c
    | [c, d], _ =>
      rw [List.cons_append, List.cons_append, List.nil_append, unquoteBytes,
        escapedByte_slash_right, hone]
      rfl
    | c :: d :: e :: xs, hshort => exact absurd rfl (hshort c d e xs)

theorem decodeAscii_append {xs ys : List UInt8} {text : List Char} :
    decodeAscii (xs ++ 47 :: ys) = some text ↔
      ∃ left right, decodeAscii xs = some left ∧ decodeAscii ys = some right
        ∧ text = left ++ '/' :: right := by
  have hslash : decide ((47 : UInt8) < 128) = true ∧ Char.ofNat (47 : UInt8).toNat = '/' := by
    decide
  simp only [decodeAscii, List.all_append, List.all_cons, Bool.and_eq_true, hslash.1, true_and,
    Option.ite_none_right_eq_some, Option.some.injEq, List.map_append, List.map_cons, hslash.2]
  constructor
  · rintro ⟨⟨hxs, hys⟩, rfl⟩
    exact ⟨_, _, ⟨hxs, rfl⟩, ⟨hys, rfl⟩, rfl⟩
  · rintro ⟨_, _, ⟨hxs, rfl⟩, ⟨hys, rfl⟩, rfl⟩
    exact ⟨⟨hxs, hys⟩, rfl⟩

/-- Decoding goes through the slashes. -/
theorem percentDecode_append_slash {xs ys text : List Char} :
    percentDecode (xs ++ '/' :: ys) = some text ↔
      ∃ left right, percentDecode xs = some left ∧ percentDecode ys = some right
        ∧ text = left ++ '/' :: right := by
  have hslash : String.utf8EncodeChar '/' = [47] := by decide
  rw [percentDecode, unquoteToBytes, List.flatMap_append, List.flatMap_cons, hslash,
    List.singleton_append, unquoteBytes_append_slash, decodeAscii_append]
  rfl

/-- A dot segment is a dot segment of the decoded path. -/
theorem noDotSegments_of_percentDecode {xs text : List Char} (h : percentDecode xs = some text)
    (htext : NoDotSegments text) : NoDotSegments xs := by
  have hlast : ∀ xs text, '/' ∉ xs → percentDecode xs = some text → NoDotSegments text →
      NoDotSegments xs := by
    intro xs text hxs h htext
    rw [noDotSegments_of_not_mem hxs]
    constructor
    · rintro rfl
      obtain rfl : ['.'] = text := Option.some.inj h
      exact absurd htext (by decide)
    · rintro rfl
      obtain rfl : ['.', '.'] = text := Option.some.inj h
      exact absurd htext (by decide)
  induction xs using slash_induction generalizing text with
  | last xs hxs => exact hlast xs text hxs h htext
  | slash xs ys hxs ih =>
    obtain ⟨left, right, hleft, hright, rfl⟩ := percentDecode_append_slash.mp h
    obtain ⟨hnoLeft, hnoRight⟩ := noDotSegments_append_slash.mp htext
    exact noDotSegments_append_slash.mpr ⟨hlast xs left hxs hleft hnoLeft, ih hright hnoRight⟩

end IouAi.PercentPath
