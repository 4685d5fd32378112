import IouAi.Foundations.IsoTime
import IouAi.Foundations.Json

/-!
# Patterns of the wire contract

The regular expressions that the host models and the relay both state, and the texts that the host
makes to match them: hexadecimal digests, human codes and timestamps.
-/

namespace IouAi.Wire

open Calendar

/-! ## Patterns -/

def isHexDigit (c : Char) : Bool := ('0' ≤ c && c ≤ '9') || ('a' ≤ c && c ≤ 'f')

/-- `^[0-9a-f]{64}$`. -/
def isHex64 (text : String) : Bool := text.toList.length = 64 && text.toList.all isHexDigit

/-- `^sha256:[0-9a-f]{64}$`. -/
def isDigest (text : String) : Bool :=
  text.toList.take 7 = "sha256:".toList && (text.toList.drop 7).length = 64
    && (text.toList.drop 7).all isHexDigit

def isBase32Char (c : Char) : Bool := ('A' ≤ c && c ≤ 'Z') || ('2' ≤ c && c ≤ '7')

/-- `^[A-Z2-7]{8}$`. -/
def isHumanCode (text : String) : Bool := text.toList.length = 8 && text.toList.all isBase32Char

def isIdentifierHead (c : Char) : Bool := ('a' ≤ c && c ≤ 'z') || ('0' ≤ c && c ≤ '9')
def isIdentifierChar (c : Char) : Bool := isIdentifierHead c || c ∈ ['.', '_', ':', '-']

/-- `^[a-z0-9][a-z0-9._:-]{0,95}$`. -/
def isIdentifier (text : String) : Bool :=
  match text.toList with
  | [] => false
  | c :: cs => isIdentifierHead c && cs.length ≤ 95 && cs.all isIdentifierChar

def isSymbolHead (c : Char) : Bool := 'a' ≤ c && c ≤ 'z'
def isSymbolChar (c : Char) : Bool := isIdentifierHead c || c = '_'

/-- `^[a-z][a-z0-9_]{0,79}$`. -/
def isSymbol (text : String) : Bool :=
  match text.toList with
  | [] => false
  | c :: cs => isSymbolHead c && cs.length ≤ 79 && cs.all isSymbolChar

theorem length_of_isSymbol {text : String} (h : isSymbol text = true) : text.toList.length ≤ 80 := by
  unfold isSymbol at h
  split at h
  · cases h
  · rename_i c cs hcs
    simp only [Bool.and_eq_true, decide_eq_true_eq] at h
    rw [hcs, List.length_cons]
    omega

/-- The texts that remain after one character of each class. -/
def consume : List (Char → Bool) → List Char → Option (List Char)
  | [], cs => some cs
  | _ :: _, [] => none
  | p :: ps, c :: cs => if p c then consume ps cs else none

def isChar (c d : Char) : Bool := c = d

/-- `^\d{4}-(?:0[1-9]|1[0-2])$` over a class of digits. -/
def isMonthOver (digit : Char → Bool) (text : String) : Bool :=
  match consume [digit, digit, digit, digit, isChar '-'] text.toList with
  | some ['0', c] => '1' ≤ c && c ≤ '9'
  | some ['1', c] => '0' ≤ c && c ≤ '2'
  | _ => false

/-- `\d` of the relay. -/
def isAsciiDigit (c : Char) : Bool := c.isDigit

/-- The zeros of the decimal digits of Unicode, which `\d` of the host matches. -/
def decimalZeros : List ℕ :=
  [0x30, 0x660, 0x6f0, 0x7c0, 0x966, 0x9e6, 0xa66, 0xae6, 0xb66, 0xbe6, 0xc66, 0xce6, 0xd66,
    0xde6, 0xe50, 0xed0, 0xf20, 0x1040, 0x1090, 0x17e0, 0x1810, 0x1946, 0x19d0, 0x1a80, 0x1a90,
    0x1b50, 0x1bb0, 0x1c40, 0x1c50, 0xa620, 0xa8d0, 0xa900, 0xa9d0, 0xa9f0, 0xaa50, 0xabf0,
    0xff10, 0x104a0, 0x10d30, 0x11066, 0x110f0, 0x11136, 0x111d0, 0x112f0, 0x11450, 0x114d0,
    0x11650, 0x116c0, 0x11730, 0x118e0, 0x11950, 0x11c50, 0x11d50, 0x11da0, 0x16a60, 0x16ac0,
    0x16b50, 0x1d7ce, 0x1d7d8, 0x1d7e2, 0x1d7ec, 0x1d7f6, 0x1e140, 0x1e2f0, 0x1e950, 0x1fbf0]

def isDecimalDigit (c : Char) : Bool :=
  decimalZeros.any fun first => first ≤ c.toNat && c.toNat ≤ first + 9

/-- `(?:Z|[+-]\d{2}:\d{2})$`. -/
def isZone (digit : Char → Bool) (cs : List Char) : Bool :=
  cs = ['Z'] || consume [fun c => c = '+' || c = '-', digit, digit, isChar ':', digit, digit] cs
    = some []

/-- `(?:\.\d{1,6})?` before a zone. -/
def isFractionZone (digit : Char → Bool) (cs : List Char) : Bool :=
  isZone digit cs || (List.range' 1 6).any fun n =>
    match consume (isChar '.' :: List.replicate n digit) cs with
    | some rest => isZone digit rest
    | none => false

/-- The pattern of a timestamp of the host, with its bounds on the length. -/
def isTimestamp (text : String) : Bool :=
  let d := isDecimalDigit
  20 ≤ text.toList.length && text.toList.length ≤ 35
    && match consume [d, d, d, d, isChar '-', d, d, isChar '-', d, d, isChar 'T', d, d,
        isChar ':', d, d, isChar ':', d, d] text.toList with
      | some rest => isFractionZone d rest
      | none => false

/-! ## Typed texts -/

abbrev Digest := {text : String // isDigest text = true}

instance : LawfulBEq Digest := inferInstance
abbrev Nonce256 := {text : String // isHex64 text = true}
abbrev HumanCode := {text : String // isHumanCode text = true}
abbrev Identifier := {text : String // isIdentifier text = true}
abbrev Timestamp := {text : String // isTimestamp text = true}
abbrev Month := {text : String // isMonthOver isDecimalDigit text = true}

/-! ## Texts that the host makes -/

abbrev Bytes := List UInt8

/-- The hash of a payload: thirty-two bytes. -/
abbrev Sha256 := Bytes → Vector UInt8 32

/-- The UTF-8 bytes of a text. -/
def utf8 (text : String) : Bytes := text.toUTF8.toList

/-- `bytes.hex()`. -/
def hexText (bytes : Bytes) : String :=
  String.ofList (bytes.flatMap fun byte => [Json.hexDigit (byte.toNat / 16), Json.hexDigit byte.toNat])

theorem isHexDigit_hexDigit (n : ℕ) : isHexDigit (Json.hexDigit n) = true := by
  have hall : ∀ k < 16, isHexDigit (Nat.digitChar k) = true := by decide
  exact hall (n % 16) (Nat.mod_lt _ (by decide))

theorem all_isHexDigit_hexText (bytes : Bytes) : (hexText bytes).toList.all isHexDigit = true := by
  rw [hexText, String.toList_ofList, List.all_flatMap, List.all_eq_true]
  intro byte _
  simp [isHexDigit_hexDigit]

theorem length_hexText (bytes : Bytes) : (hexText bytes).toList.length = 2 * bytes.length := by
  rw [hexText, String.toList_ofList, List.length_flatMap]
  simp [Nat.mul_comm]

theorem isHex64_hexText {bytes : Bytes} (h : bytes.length = 32) : isHex64 (hexText bytes) = true := by
  rw [isHex64, all_isHexDigit_hexText, length_hexText, h]
  rfl

theorem hexDigit_inj {m n : ℕ} (h : Json.hexDigit m = Json.hexDigit n) : m % 16 = n % 16 := by
  have hall : ∀ i < 16, ∀ j < 16, Nat.digitChar i = Nat.digitChar j → i = j := by decide
  exact hall _ (Nat.mod_lt _ (by decide)) _ (Nat.mod_lt _ (by decide)) h

/-- Bytes are read back from their hexadecimal text. -/
theorem hexText_injective : Function.Injective hexText := by
  intro bytes others h
  have hlists := String.ofList_injective h
  induction bytes generalizing others with
  | nil =>
    cases others with
    | nil => rfl
    | cons other others => simp at hlists
  | cons byte bytes ih =>
    cases others with
    | nil => simp at hlists
    | cons other others =>
      simp only [List.flatMap_cons, List.cons_append, List.nil_append, List.cons.injEq] at hlists
      obtain ⟨hhigh, hlow, hrest⟩ := hlists
      have hbytes := byte.toNat_lt
      have hothers := other.toNat_lt
      have hhigh' := hexDigit_inj hhigh
      have hlow' := hexDigit_inj hlow
      rw [ih (congrArg String.ofList hrest) hrest, UInt8.toNat.inj (a := byte) (b := other) (by omega)]

/-- A digest is the hexadecimal text of thirty-two bytes behind the name of the hash. -/
theorem isDigest_append {text : String} (h : isHex64 text = true) :
    isDigest ("sha256:" ++ text) = true := by
  have hsplit : ("sha256:" ++ text).toList = "sha256:".toList ++ text.toList := by simp
  simp only [isHex64, Bool.and_eq_true, decide_eq_true_eq] at h
  have hlength : "sha256:".toList.length = 7 := rfl
  rw [isDigest, hsplit, List.take_left' hlength, List.drop_left' hlength, h.1, h.2]
  rfl

def nonceOf (raw : Vector UInt8 32) : Nonce256 := ⟨hexText raw.toList, isHex64_hexText (by simp)⟩

/-- `"sha256:" + hashlib.sha256(payload).hexdigest()`. -/
def contentDigest (sha256 : Sha256) (payload : Bytes) : Digest :=
  ⟨"sha256:" ++ hexText (sha256 payload).toList, isDigest_append (isHex64_hexText (by simp))⟩

theorem sha256_eq_of_contentDigest_eq {sha256 sha256' : Sha256} {payload payload' : Bytes}
    (h : contentDigest sha256 payload = contentDigest sha256' payload') :
    sha256 payload = sha256' payload' := by
  have htext := congrArg Subtype.val h
  exact Vector.toList_inj.mp (hexText_injective ((String.append_right_inj _).mp htext))

/-- The bytes of the canonical text of a value. -/
def canonicalJson (value : Json) : Bytes := utf8 (Json.python.encode value)

def base32Alphabet : List Char := "ABCDEFGHIJKLMNOPQRSTUVWXYZ234567".toList

/-- `base64.b32encode` of five bytes: eight characters of five bits. -/
def base32 (bytes : Bytes) : String :=
  let bits := bytes.foldl (fun value byte => value * 256 + byte.toNat) 0
  String.ofList ((List.range 8).map fun i =>
    base32Alphabet.getD (bits / 32 ^ (7 - i) % 32) 'A')

theorem isHumanCode_base32 (bytes : Bytes) : isHumanCode (base32 bytes) = true := by
  have hall : ∀ k < 32, isBase32Char (base32Alphabet.getD k 'A') = true := by decide
  rw [isHumanCode, base32, String.toList_ofList, List.length_map, List.length_range,
    Bool.and_eq_true, List.all_map, List.all_eq_true]
  exact ⟨rfl, fun i _ => hall _ (Nat.mod_lt _ (by decide))⟩

/-- `_human_code`: five bytes of the hash of the nonce and the digest that it is bound to. -/
def humanCode (sha256 : Sha256) (envelopeDigest : Digest) (raw : Vector UInt8 32) : HumanCode :=
  ⟨base32 ((sha256 (raw.toList ++ utf8 envelopeDigest.val)).toList.take 5), isHumanCode_base32 _⟩

theorem isDecimalDigit_digit (n : ℕ) : isDecimalDigit (digit n) = true := by
  have hall : ∀ k < 10, isDecimalDigit (Char.ofNat (48 + k)) = true := by decide
  exact hall (n % 10) (Nat.mod_lt _ (by decide))

theorem isTimestamp_timestampText (instant : Datetime) :
    isTimestamp (timestampText instant) = true := by
  simp [isTimestamp, timestampText, Date.text, Date.monthText, Datetime.timeText, fourDigits,
    twoDigits, consume, isDecimalDigit_digit, isChar, isFractionZone, isZone]

/-- `_timestamp`: the text of an instant, to the second. -/
def timestamp (instant : Datetime) : Timestamp :=
  ⟨timestampText instant, isTimestamp_timestampText instant⟩

end IouAi.Wire
