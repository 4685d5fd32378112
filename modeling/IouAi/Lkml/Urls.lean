import IouAi.Foundations.Checks
import IouAi.Foundations.Percent
import IouAi.Budget.Pricing
import Mathlib.Data.List.TakeWhile

/-!
# Allowed archive URLs

The collector reads nothing but the feed of the archive and the messages under it. Before each use a
URL is split, its authority compared with the archive host, and its path read as the feed, a message
or the raw form of a message. What comes back is the origin of the archive with the path as it was
read (`loreEndpoint_eq_ok`), so validating it once more changes nothing.
-/

namespace IouAi.Lkml

open Checks PercentPath

inductive LkmlError
  /-- `LkmlUrlError` -/
  | url (message : String)
  /-- `LkmlFetchError` -/
  | fetch (message : String)
  /-- `LkmlParseError` -/
  | parse (message : String)
  /-- `LkmlStateError` -/
  | state (message : String)
  /-- An exception of another class. -/
  | other (message : String)
  deriving DecidableEq

inductive UrlKind
  | any
  | feed
  | message
  | raw
  deriving DecidableEq

def loreHost : List Char := "lore.kernel.org".toList
def loreOrigin : List Char := "https://lore.kernel.org".toList
def archiveRoot : List Char := "/io-uring/".toList
def feedPath : List Char := "/io-uring/new.atom".toList
def rawSuffix : List Char := "/raw".toList

/-! ## `urlsplit` -/

/-- What comes before the first `sep`. -/
def before (sep : Char) (text : List Char) : List Char := text.takeWhile (· ≠ sep)

/-- What comes after the first `sep`. -/
def after (sep : Char) (text : List Char) : List Char := (text.dropWhile (· ≠ sep)).drop 1

/-- What comes before the last `sep`, when there is one. -/
def beforeLast (sep : Char) (text : List Char) : List Char := (after sep text.reverse).reverse

/-- What comes after the last `sep`, or the whole text. -/
def afterLast (sep : Char) (text : List Char) : List Char := (before sep text.reverse).reverse

/-- The checks of an authority that rest on the Unicode and address tables of the library. -/
structure NetlocChecks where
  /-- `unicodedata.normalize("NFKC", text)` -/
  nfkc : List Char → List Char
  /-- `_check_bracketed_netloc` raises nothing. -/
  bracketedNetloc : List Char → Bool

structure SplitResult where
  scheme : List Char
  netloc : List Char
  path : List Char
  query : List Char
  fragment : List Char
  deriving DecidableEq

/-- `str.lower`, as far as the result is ASCII: besides the capital letters only the Kelvin sign has
a lower case there. -/
def lowerChar (c : Char) : Char := if c.toNat = 0x212a then 'k' else c.toLower

def isSchemeChar (c : Char) : Bool := c.isAlphanum || c ∈ ['+', '-', '.']

def splitScheme (url : List Char) : List Char × List Char :=
  match before ':' url with
  | c :: cs =>
    if ':' ∈ url ∧ c.isAlpha ∧ (c :: cs).all isSchemeChar then
      ((c :: cs).map lowerChar, after ':' url)
    else ([], url)
  | [] => ([], url)

/-- The authority, and what follows it. -/
def splitNetloc (url : List Char) : List Char × List Char :=
  match url with
  | '/' :: '/' :: rest =>
    (rest.takeWhile (· ∉ ['/', '?', '#']), rest.dropWhile (· ∉ ['/', '?', '#']))
  | _ => ([], url)

/-- `_checknetloc` raises nothing. -/
def checkNetloc (lib : NetlocChecks) (netloc : List Char) : Bool :=
  let n := netloc.filter (· ∉ ['@', ':', '#', '?'])
  netloc.all (·.toNat < 128) || n = lib.nfkc n || (lib.nfkc n).all (· ∉ ['/', '?', '#', '@', ':'])

/-- `urlsplit`; `none` stands for a `ValueError`. -/
def urlsplit (lib : NetlocChecks) (url : List Char) : Option SplitResult :=
  let url := (url.dropWhile (·.toNat ≤ 32)).filter (· ∉ ['\t', '\r', '\n'])
  let (scheme, rest) := splitScheme url
  let (netloc, rest) := splitNetloc rest
  if ('[' ∈ netloc ↔ ']' ∈ netloc) ∧ ('[' ∈ netloc → lib.bracketedNetloc netloc)
      ∧ checkNetloc lib netloc then
    some {
      scheme
      netloc
      path := before '?' (before '#' rest)
      query := after '?' (before '#' rest)
      fragment := after '#' rest }
  else none

namespace SplitResult

variable (split : SplitResult)

def hostinfo : List Char := afterLast '@' split.netloc

def username : Option (List Char) :=
  if '@' ∈ split.netloc then some (before ':' (beforeLast '@' split.netloc)) else none

def password : Option (List Char) :=
  if '@' ∈ split.netloc ∧ ':' ∈ beforeLast '@' split.netloc then
    some (after ':' (beforeLast '@' split.netloc))
  else none

def hostname : Option (List Char) :=
  let host := if '[' ∈ split.hostinfo then before ']' (after '[' split.hostinfo)
    else before ':' split.hostinfo
  if host = [] then none
  else some ((before '%' host).map lowerChar ++ host.dropWhile (· ≠ '%'))

def portText : List Char :=
  if '[' ∈ split.hostinfo then after ':' (after ']' (after '[' split.hostinfo))
  else after ':' split.hostinfo

/-- The limit of `int` on the digits of a text. -/
def maxStrDigits : ℕ := 4300

/-- `port`; the outer `none` stands for a `ValueError`. -/
def port : Option (Option ℕ) :=
  if split.portText = [] then some none
  else if split.portText.all Char.isDigit ∧ split.portText.length ≤ maxStrDigits then
    let port := split.portText.foldl (fun n c => 10 * n + (c.toNat - 48)) 0
    if port ≤ 65535 then some (some port) else none
  else none

end SplitResult

/-! ## Message identifiers -/

/-- `str.strip`. -/
def strip (text : List Char) : List Char :=
  ((text.dropWhile Budget.isSpace).reverse.dropWhile Budget.isSpace).reverse

/-- The text between angle brackets. -/
def stripBrackets (value : List Char) : List Char :=
  if ['<'] <+: value ∧ ['>'] <:+ value then (value.drop 1).dropLast else value

/-- `normalize_message_id`. -/
def normalizeMessageId (value : List Char) : Except LkmlError (List Char) := do
  let value := stripBrackets (strip value)
  raiseIf (value = [] ∨ value.length > 998) (.parse "Message-ID length is invalid")
  raiseIf ((∃ ch ∈ value, ch.toNat < 33 ∨ ch.toNat > 126) ∨ '@' ∉ value)
    (.parse "Message-ID contains forbidden characters")
  raiseIf (∃ component ∈ value.splitOn '/', component = [] ∨ component = ['.']
      ∨ component = ['.', '.'])
    (.parse "Message-ID contains a forbidden path component")
  return value

/-- `_decode_url_message_id`. -/
def decodeUrlMessageId (encoded : List Char) : Except LkmlError (List Char) :=
  match percentDecode encoded with
  | some text => .ok text
  | none => .error (.url "archive Message-ID encoding is invalid")

/-! ## `validate_lore_url` -/

def isHexDigitChar (c : Char) : Bool :=
  c.isDigit || ('a' ≤ c && c ≤ 'f') || ('A' ≤ c && c ≤ 'F')

/-- The search for `BAD_PERCENT_RE`. -/
def hasBadPercent : List Char → Bool
  | [] => false
  | c :: cs => (c = '%' && !(2 ≤ cs.length && (cs.take 2).all isHexDigitChar)) || hasBadPercent cs

/-- The identifier in the path of a message. -/
def messageTail (path : List Char) : List Char := (path.drop archiveRoot.length).dropLast

/-- The identifier in the path of a raw message. -/
def rawTail (path : List Char) : List Char :=
  let tail := path.drop archiveRoot.length
  tail.take (tail.length - rawSuffix.length)

/-- The part of `validate_lore_url` after the checks of the authority. -/
def loreEndpoint (kind : UrlKind) (path : List Char) : Except LkmlError String := do
  raiseIf (hasBadPercent path ∨ '\\' ∈ path) (.url "archive URL path is invalid")
  if path = feedPath then
    raiseIf (kind ≠ .any ∧ kind ≠ .feed) (.url "feed URL used where a message was required")
    return String.ofList (loreOrigin ++ feedPath)
  else
    raiseIf (¬ archiveRoot <+: path) (.url "archive URL is outside the io-uring archive")
    let isRaw := rawSuffix.isSuffixOf path
    let isMessage := ['/'].isSuffixOf path && !isRaw
    raiseIf (¬ (isRaw ∨ isMessage)) (.url "archive URL is not a message endpoint")
    raiseIf (kind = .raw ∧ ¬ isRaw) (.url "raw message URL required")
    raiseIf (kind = .message ∧ ¬ isMessage) (.url "public message URL required")
    raiseIf (kind = .feed) (.url "message URL used where feed was required")
    let tail := if isRaw then rawTail path else messageTail path
    raiseIf (tail = [] ∨ tail = "new.atom".toList ∨ tail = ['_'])
      (.url "archive message identifier is empty")
    let messageId ← decodeUrlMessageId tail
    match normalizeMessageId messageId with
    | .error _ => throw (.url "archive Message-ID is invalid")
    | .ok _ =>
      return String.ofList
        (loreOrigin ++ archiveRoot ++ tail ++ (if isRaw then rawSuffix else ['/']))

/-- `validate_lore_url`. -/
def validateLoreUrl (lib : NetlocChecks) (url : String) (kind : UrlKind) :
    Except LkmlError String := do
  raiseIf (url = "" ∨ ∃ ch ∈ url.toList, ch.toNat < 32) (.url "archive URL is invalid")
  match urlsplit lib url.toList with
  | none => throw (.url "archive URL authority is invalid")
  | some split =>
    match split.port with
    | none => throw (.url "archive URL authority is invalid")
    | some port =>
      raiseIf (split.scheme ≠ "https".toList ∨ split.hostname ≠ some loreHost
          ∨ (port ≠ none ∧ port ≠ some 443) ∨ split.username ≠ none ∨ split.password ≠ none
          ∨ split.query ≠ [] ∨ split.fragment ≠ [])
        (.url "archive URL is outside the HTTPS allowlist")
      loreEndpoint kind split.path

/-- `raw_url_for_entry`. -/
def rawUrlForEntry (lib : NetlocChecks) (publicUrl : String) : Except LkmlError String := do
  let canonical ← validateLoreUrl lib publicUrl .message
  validateLoreUrl lib (canonical ++ "raw") .raw

/-! ## Message identifiers without dot segments -/

theorem exists_strip (text : List Char) : ∃ pre post, text = pre ++ strip text ++ post
    ∧ (∀ c ∈ pre, Budget.isSpace c = true) ∧ ∀ c ∈ post, Budget.isSpace c = true := by
  set rest := text.dropWhile Budget.isSpace with hrest
  refine ⟨text.takeWhile Budget.isSpace, (rest.reverse.takeWhile Budget.isSpace).reverse, ?_,
    fun c hc => List.mem_takeWhile_imp hc,
    fun c hc => List.mem_takeWhile_imp (List.mem_reverse.mp hc)⟩
  have hback : strip text ++ (rest.reverse.takeWhile Budget.isSpace).reverse = rest := by
    rw [strip, ← List.reverse_append, List.takeWhile_append_dropWhile, List.reverse_reverse]
  rw [List.append_assoc, hback, hrest, List.takeWhile_append_dropWhile]

theorem exists_stripBrackets (value : List Char) :
    ∃ pre post, value = pre ++ stripBrackets value ++ post
      ∧ (∀ c ∈ pre, c = '<') ∧ ∀ c ∈ post, c = '>' := by
  unfold stripBrackets
  split_ifs with h
  · obtain ⟨⟨rest, rfl⟩, hsuffix⟩ := h
    have hrest : ['>'] <:+ rest := by
      obtain ⟨init, hinit⟩ := hsuffix
      cases init with
      | nil => simp at hinit
      | cons c init => exact ⟨init, (List.cons.inj hinit).2⟩
    obtain ⟨init, rfl⟩ := hrest
    exact ⟨['<'], ['>'], by simp, by simp, by simp⟩
  · exact ⟨[], [], by simp, by simp, by simp⟩

theorem ne_of_isSpace {c : Char} (h : Budget.isSpace c = true) : c ≠ '/' ∧ c ≠ '.' :=
  ⟨by rintro rfl; exact absurd h (by decide), by rintro rfl; exact absurd h (by decide)⟩

theorem noDotSegments_of_normalizeMessageId {messageId value : List Char}
    (h : normalizeMessageId messageId = .ok value) : NoDotSegments messageId := by
  rw [normalizeMessageId, raiseIf_bind_eq_ok, raiseIf_bind_eq_ok, raiseIf_bind_eq_ok] at h
  obtain ⟨-, -, hcomponents, -⟩ := h
  have hvalue : NoDotSegments (stripBrackets (strip messageId)) := by
    intro component hmem
    constructor
    · rintro rfl
      exact hcomponents ⟨_, hmem, .inr (.inl rfl)⟩
    · rintro rfl
      exact hcomponents ⟨_, hmem, .inr (.inr rfl)⟩
  obtain ⟨pre, post, hstrip, hpre, hpost⟩ := exists_strip messageId
  obtain ⟨pre', post', hbrackets, hpre', hpost'⟩ := exists_stripBrackets (strip messageId)
  rw [hstrip, hbrackets]
  refine (hvalue.wrap (fun c hc => ?_) (fun c hc => ?_)).wrap
    (fun c hc => ne_of_isSpace (hpre c hc)) (fun c hc => ne_of_isSpace (hpost c hc))
  · rw [hpre' c hc]
    decide
  · rw [hpost' c hc]
    decide

/-! ## What is accepted -/

/-- A tail of a path that can be read as a message identifier. -/
def IsIdentifier (tail : List Char) : Prop :=
  ¬ (tail = [] ∨ tail = "new.atom".toList ∨ tail = ['_'])
    ∧ ∃ messageId value, decodeUrlMessageId tail = .ok messageId
      ∧ normalizeMessageId messageId = .ok value

/-- What is left between a prefix and a suffix that do not meet. -/
theorem eq_append_of_prefix_of_suffix {pre suf path : List Char} (hpre : pre <+: path)
    (hsuf : suf <:+ path)
    (hne : (path.drop pre.length).take ((path.drop pre.length).length - suf.length) ≠ []) :
    path = pre ++ (path.drop pre.length).take ((path.drop pre.length).length - suf.length)
      ++ suf := by
  obtain ⟨rest, rfl⟩ := hpre
  rw [List.drop_left] at hne ⊢
  have hlt : suf.length < rest.length := by
    by_contra hle
    rw [Nat.sub_eq_zero_of_le (by omega), List.take_zero] at hne
    exact hne rfl
  obtain ⟨mid, rfl⟩ := List.suffix_of_suffix_length_le hsuf (List.suffix_append pre rest) hlt.le
  simp

theorem eq_rawTail {path : List Char} (hpre : archiveRoot <+: path)
    (hsuf : rawSuffix <:+ path) (hne : rawTail path ≠ []) :
    path = archiveRoot ++ rawTail path ++ rawSuffix :=
  eq_append_of_prefix_of_suffix hpre hsuf hne

theorem eq_messageTail {path : List Char} (hpre : archiveRoot <+: path)
    (hsuf : ['/'] <:+ path) (hne : messageTail path ≠ []) :
    path = archiveRoot ++ messageTail path ++ ['/'] := by
  rw [messageTail, List.dropLast_eq_take] at hne ⊢
  exact eq_append_of_prefix_of_suffix hpre hsuf hne

/-- An accepted path comes back as it was, behind the origin. -/
theorem loreEndpoint_eq_ok {kind : UrlKind} {path : List Char} {r : String}
    (h : loreEndpoint kind path = .ok r) :
    r = String.ofList (loreOrigin ++ path) ∧ hasBadPercent path = false ∧ '\\' ∉ path
      ∧ (path = feedPath ∧ kind ≠ .message
        ∨ ∃ tail, IsIdentifier tail ∧ (path = archiveRoot ++ tail ++ rawSuffix
            ∧ kind ≠ .message ∨ path = archiveRoot ++ tail ++ ['/'])) := by
  rw [loreEndpoint, raiseIf_bind_eq_ok, not_or, Bool.not_eq_true] at h
  obtain ⟨⟨hpercent, hslash⟩, h⟩ := h
  split_ifs at h with hfeed
  · rw [raiseIf_bind_eq_ok, pure_eq_ok] at h
    obtain ⟨hkind, rfl⟩ := h
    refine ⟨by rw [hfeed], hpercent, hslash, .inl ⟨hfeed, ?_⟩⟩
    rintro rfl
    exact hkind ⟨by decide, by decide⟩
  · simp only [raiseIf_bind_eq_ok, not_not] at h
    obtain ⟨hroot, hendpoint, -, hmessage, -, htail, h⟩ := h
    obtain ⟨messageId, hdecode, h⟩ := bind_eq_ok.mp h
    cases hvalue : normalizeMessageId messageId with
    | error _ =>
      rw [hvalue] at h
      exact absurd h throw_ne_ok
    | ok value =>
      rw [hvalue] at h
      obtain rfl := pure_eq_ok.mp h
      by_cases hraw : rawSuffix.isSuffixOf path = true
      · simp only [if_pos hraw] at htail hdecode ⊢
        have hpath := eq_rawTail hroot (List.isSuffixOf_iff_suffix.mp hraw) (mt .inl htail)
        refine ⟨by rw [List.append_assoc, List.append_assoc, ← List.append_assoc archiveRoot,
          ← hpath], hpercent, hslash, .inr ⟨_, ⟨htail, messageId, value, hdecode, hvalue⟩,
          .inl ⟨hpath, ?_⟩⟩⟩
        rintro rfl
        simp only [hraw, Bool.not_true, Bool.and_false, true_and] at hmessage
        exact hmessage Bool.false_ne_true
      · simp only [if_neg hraw] at htail hdecode ⊢
        have hsuffix : ['/'] <:+ path := by
          rcases hendpoint with h | h
          · exact absurd h hraw
          · exact List.isSuffixOf_iff_suffix.mp ((Bool.and_eq_true _ _).mp h).1
        have hpath := eq_messageTail hroot hsuffix (mt .inl htail)
        exact ⟨by rw [List.append_assoc, List.append_assoc, ← List.append_assoc archiveRoot,
          ← hpath], hpercent, hslash, .inr ⟨_, ⟨htail, messageId, value, hdecode, hvalue⟩,
          .inr hpath⟩⟩

theorem hasBadPercent_append_slash (xs ys : List Char) :
    hasBadPercent (xs ++ '/' :: ys) = (hasBadPercent xs || hasBadPercent ys) := by
  induction xs with
  | nil => rfl
  | cons c xs ih =>
    have hescape : (2 ≤ (xs ++ '/' :: ys).length
          && ((xs ++ '/' :: ys).take 2).all isHexDigitChar)
        = (2 ≤ xs.length && (xs.take 2).all isHexDigitChar) := by
      match xs with
      | [] => cases ys <;> simp [isHexDigitChar]
      | [d] => simp [isHexDigitChar]
      | d :: e :: xs => simp
    rw [List.cons_append, hasBadPercent, hasBadPercent, hescape, ih, Bool.or_assoc]

theorem rawTail_append (tail : List Char) :
    rawTail (archiveRoot ++ tail ++ rawSuffix) = tail := by
  rw [rawTail, List.append_assoc, List.drop_left, List.length_append, Nat.add_sub_cancel,
    List.take_left]

theorem messageTail_append (tail : List Char) :
    messageTail (archiveRoot ++ tail ++ ['/']) = tail := by
  rw [messageTail, List.append_assoc, List.drop_left, List.dropLast_concat]

theorem loreEndpoint_raw {tail : List Char} (htail : IsIdentifier tail)
    (hpercent : hasBadPercent (archiveRoot ++ tail) = false)
    (hslash : '\\' ∉ archiveRoot ++ tail) :
    loreEndpoint .raw (archiveRoot ++ tail ++ rawSuffix)
      = .ok (String.ofList (loreOrigin ++ (archiveRoot ++ tail ++ rawSuffix))) := by
  obtain ⟨hreserved, messageId, value, hdecode, hvalue⟩ := htail
  have hraw : rawSuffix.isSuffixOf (archiveRoot ++ tail ++ rawSuffix) = true :=
    List.isSuffixOf_iff_suffix.mpr (List.suffix_append _ _)
  have hfeed : archiveRoot ++ tail ++ rawSuffix ≠ feedPath := by
    intro heq
    have hlast := congrArg List.getLast? heq
    rw [List.getLast?_append, show rawSuffix.getLast? = some 'w' by decide, Option.some_or] at hlast
    exact absurd hlast (by decide)
  have hpath : ¬ (hasBadPercent (archiveRoot ++ tail ++ rawSuffix) = true
      ∨ '\\' ∈ archiveRoot ++ tail ++ rawSuffix) := by
    rintro (h | h)
    · rw [show rawSuffix = '/' :: "raw".toList from rfl, hasBadPercent_append_slash, hpercent] at h
      exact absurd h (by decide)
    · rcases List.mem_append.mp h with h | h
      · exact hslash h
      · exact absurd h (by decide)
  have hroot : archiveRoot <+: archiveRoot ++ tail ++ rawSuffix := by
    rw [List.append_assoc]
    exact List.prefix_append _ _
  rw [loreEndpoint, raiseIf_bind_of_not hpath, if_neg hfeed,
    raiseIf_bind_of_not (not_not.mpr hroot)]
  simp only [hraw, rawTail_append, if_true]
  rw [raiseIf_bind_of_not (by simp), raiseIf_bind_of_not (by simp), raiseIf_bind_of_not (by simp),
    raiseIf_bind_of_not (by simp), raiseIf_bind_of_not hreserved, hdecode, ok_bind, hvalue]
  simp only [List.append_assoc]
  rfl

/-! ## The URL that comes back -/

theorem not_mem_before (sep : Char) (text : List Char) : sep ∉ before sep text := by
  intro hmem
  simpa using List.mem_takeWhile_imp hmem

theorem mem_of_mem_before {sep c : Char} {text : List Char} (h : c ∈ before sep text) :
    c ∈ text :=
  (List.takeWhile_prefix _).subset h

theorem mem_of_mem_after {sep c : Char} {text : List Char} (h : c ∈ after sep text) : c ∈ text :=
  (List.dropWhile_suffix _).subset (List.mem_of_mem_drop h)

theorem before_of_not_mem {sep : Char} {text : List Char} (h : sep ∉ text) :
    before sep text = text :=
  List.takeWhile_eq_self_iff.mpr fun c hc => by
    have : c ≠ sep := fun heq => h (heq ▸ hc)
    simpa using this

theorem after_of_not_mem {sep : Char} {text : List Char} (h : sep ∉ text) :
    after sep text = [] := by
  rw [after, List.dropWhile_eq_nil_iff.mpr, List.drop_nil]
  intro c hc
  have : c ≠ sep := fun heq => h (heq ▸ hc)
  simpa using this

theorem mem_of_mem_splitScheme {url : List Char} {c : Char} (h : c ∈ (splitScheme url).2) :
    c ∈ url := by
  unfold splitScheme at h
  split at h
  · split_ifs at h
    · exact mem_of_mem_after h
    · exact h
  · exact h

theorem mem_of_mem_splitNetloc {url : List Char} {c : Char} (h : c ∈ (splitNetloc url).2) :
    c ∈ url := by
  unfold splitNetloc at h
  split at h
  · exact List.mem_cons_of_mem _ (List.mem_cons_of_mem _ ((List.dropWhile_suffix _).subset h))
  · exact h

/-- The characters of a path are characters of the URL, without those that end a path. -/
theorem mem_path_of_urlsplit {lib : NetlocChecks} {url : List Char} {split : SplitResult}
    (h : urlsplit lib url = some split) {c : Char} (hc : c ∈ split.path) :
    c ∈ url ∧ c ≠ '?' ∧ c ≠ '#' ∧ c ∉ ['\t', '\r', '\n'] := by
  simp only [urlsplit, Option.ite_none_right_eq_some, Option.some.injEq] at h
  obtain ⟨-, rfl⟩ := h
  have hrest := mem_of_mem_before hc
  have hurl := mem_of_mem_splitScheme (mem_of_mem_splitNetloc (mem_of_mem_before hrest))
  obtain ⟨hdrop, hplain⟩ := List.mem_filter.mp hurl
  refine ⟨(List.dropWhile_suffix _).subset hdrop, ?_, ?_, of_decide_eq_true hplain⟩
  · rintro rfl
    exact not_mem_before _ _ hc
  · rintro rfl
    exact not_mem_before _ _ hrest

/-- A path behind the origin. -/
def loreSplit (path : List Char) : SplitResult := ⟨"https".toList, loreHost, path, [], []⟩

theorem loreSplit_fields (path : List Char) :
    (loreSplit path).scheme = "https".toList ∧ (loreSplit path).hostname = some loreHost
      ∧ (loreSplit path).port = some none ∧ (loreSplit path).username = none
      ∧ (loreSplit path).password = none ∧ (loreSplit path).query = []
      ∧ (loreSplit path).fragment = [] :=
  ⟨rfl, rfl, rfl, rfl, rfl, rfl, rfl⟩

/-- The origin with a path is split into just these. -/
theorem urlsplit_loreOrigin (lib : NetlocChecks) (path : List Char)
    (hpath : ∀ c ∈ path, c ≠ '?' ∧ c ≠ '#' ∧ c ∉ ['\t', '\r', '\n']) :
    urlsplit lib (loreOrigin ++ '/' :: path)
      = some (loreSplit ('/' :: path)) := by
  have hquery : '?' ∉ '/' :: path := by
    rw [List.mem_cons, not_or]
    exact ⟨by decide, fun h => (hpath _ h).1 rfl⟩
  have hfragment : '#' ∉ '/' :: path := by
    rw [List.mem_cons, not_or]
    exact ⟨by decide, fun h => (hpath _ h).2.1 rfl⟩
  have hfilter : (loreOrigin ++ '/' :: path).filter (· ∉ ['\t', '\r', '\n'])
      = loreOrigin ++ '/' :: path := by
    rw [List.filter_eq_self]
    intro c hc
    refine decide_eq_true ?_
    rcases List.mem_append.mp hc with hc | hc
    · exact (show ∀ c ∈ loreOrigin, c ∉ ['\t', '\r', '\n'] by decide) c hc
    · rcases List.mem_cons.mp hc with rfl | hc
      · decide
      · exact (hpath c hc).2.2
  have hdrop : (loreOrigin ++ '/' :: path).dropWhile (·.toNat ≤ 32) = loreOrigin ++ '/' :: path :=
    rfl
  have hscheme : splitScheme (loreOrigin ++ '/' :: path)
      = ("https".toList, "//lore.kernel.org".toList ++ '/' :: path) := by
    rfl
  have hnetloc : splitNetloc ("//lore.kernel.org".toList ++ '/' :: path)
      = (loreHost, '/' :: path) :=
    rfl
  have hchecks : ('[' ∈ loreHost ↔ ']' ∈ loreHost)
      ∧ ('[' ∈ loreHost → lib.bracketedNetloc loreHost = true) ∧ checkNetloc lib loreHost = true :=
    ⟨by decide, fun h => absurd h (by decide), rfl⟩
  simp only [urlsplit, hdrop, hfilter, hscheme, hnetloc, if_pos hchecks,
    before_of_not_mem hfragment, after_of_not_mem hfragment, before_of_not_mem hquery,
    after_of_not_mem hquery]
  rfl

theorem not_mem_blank {c : Char} (h : 32 ≤ c.toNat) : c ∉ ['\t', '\r', '\n'] := by
  intro hblank
  exact (show ∀ c ∈ ['\t', '\r', '\n'], ¬ 32 ≤ c.toNat by decide) c hblank h

/-- Behind the origin only the path is checked. -/
theorem validateLoreUrl_loreOrigin (lib : NetlocChecks) (kind : UrlKind) {path : List Char}
    (hpath : ∀ c ∈ path, 32 ≤ c.toNat ∧ c ≠ '?' ∧ c ≠ '#') :
    validateLoreUrl lib (String.ofList (loreOrigin ++ '/' :: path)) kind
      = loreEndpoint kind ('/' :: path) := by
  have hchars : ¬ (String.ofList (loreOrigin ++ '/' :: path) = ""
      ∨ ∃ ch ∈ (String.ofList (loreOrigin ++ '/' :: path)).toList, ch.toNat < 32) := by
    rw [String.toList_ofList]
    rintro (h | ⟨c, hc, hlt⟩)
    · have := congrArg String.toList h
      rw [String.toList_ofList] at this
      exact absurd this (by simp)
    · rcases List.mem_append.mp hc with hc | hc
      · exact absurd hlt ((show ∀ c ∈ loreOrigin, ¬ c.toNat < 32 by decide) c hc)
      · rcases List.mem_cons.mp hc with rfl | hc
        · exact absurd hlt (by decide)
        · exact absurd hlt (hpath c hc).1.not_gt
  have hsplit := urlsplit_loreOrigin lib path fun c hc =>
    ⟨(hpath c hc).2.1, (hpath c hc).2.2, not_mem_blank (hpath c hc).1⟩
  rw [validateLoreUrl, raiseIf_bind_of_not hchars, String.toList_ofList, hsplit]
  obtain ⟨hscheme, hhost, hport, huser, hpassword, hquery, hfragment⟩ :=
    loreSplit_fields ('/' :: path)
  simp only [hport]
  exact raiseIf_bind_of_not (by simp [hscheme, hhost, huser, hpassword, hquery, hfragment])

theorem validateLoreUrl_eq_ok {lib : NetlocChecks} {url r : String} {kind : UrlKind}
    (h : validateLoreUrl lib url kind = .ok r) :
    ∃ split, urlsplit lib url.toList = some split ∧ loreEndpoint kind split.path = .ok r
      ∧ ∀ c ∈ split.path, 32 ≤ c.toNat ∧ c ≠ '?' ∧ c ≠ '#' := by
  rw [validateLoreUrl, raiseIf_bind_eq_ok, not_or] at h
  obtain ⟨⟨-, hchars⟩, h⟩ := h
  cases hsplit : urlsplit lib url.toList with
  | none =>
    rw [hsplit] at h
    exact absurd h throw_ne_ok
  | some split =>
    rw [hsplit] at h
    cases hport : split.port with
    | none =>
      simp only [hport] at h
      exact absurd h throw_ne_ok
    | some port =>
      simp only [hport, raiseIf_bind_eq_ok] at h
      refine ⟨split, rfl, h.2, fun c hc => ?_⟩
      obtain ⟨hurl, hquery, hfragment, -⟩ := mem_path_of_urlsplit hsplit hc
      exact ⟨not_lt.mp fun hlt => hchars ⟨c, hurl, hlt⟩, hquery, hfragment⟩

theorem archiveRoot_eq : archiveRoot = '/' :: ("io-uring".toList ++ ['/']) := rfl

theorem decodeUrlMessageId_eq_ok {encoded text : List Char} :
    decodeUrlMessageId encoded = .ok text ↔ percentDecode encoded = some text := by
  unfold decodeUrlMessageId
  cases percentDecode encoded <;> simp

/-- The path of a message has no dot segments, before or after decoding. -/
theorem noDotSegments_of_isIdentifier {tail : List Char} (htail : IsIdentifier tail)
    (suffix : List Char) (hsuffix : percentDecode suffix = some suffix)
    (hplain : NoDotSegments suffix) :
    NoDotSegments (archiveRoot ++ tail ++ '/' :: suffix)
      ∧ ∃ text, percentDecode (archiveRoot ++ tail ++ '/' :: suffix) = some text
        ∧ NoDotSegments text := by
  obtain ⟨-, messageId, value, hdecode, hvalue⟩ := htail
  have hmessage := decodeUrlMessageId_eq_ok.mp hdecode
  have htext := noDotSegments_of_normalizeMessageId hvalue
  have hroot : archiveRoot ++ tail ++ '/' :: suffix
      = "/io-uring".toList ++ '/' :: (tail ++ '/' :: suffix) := by
    rw [List.append_assoc]
    rfl
  have hdecoded : percentDecode (archiveRoot ++ tail ++ '/' :: suffix)
      = some ("/io-uring".toList ++ '/' :: (messageId ++ '/' :: suffix)) := by
    rw [hroot]
    exact percentDecode_append_slash.mpr ⟨_, _, by decide,
      percentDecode_append_slash.mpr ⟨_, _, hmessage, hsuffix, rfl⟩, rfl⟩
  have hplainText : NoDotSegments ("/io-uring".toList ++ '/' :: (messageId ++ '/' :: suffix)) :=
    noDotSegments_append_slash.mpr ⟨by decide, noDotSegments_append_slash.mpr ⟨htext, hplain⟩⟩
  exact ⟨noDotSegments_of_percentDecode hdecoded hplainText, _, hdecoded, hplainText⟩

/-- An `https` URL of the archive host under `/io-uring/` and nothing else, without dot segments
before or after its escapes are decoded. -/
def IsArchiveUrl (lib : NetlocChecks) (url : String) : Prop :=
  ∃ split, urlsplit lib url.toList = some split ∧ split.scheme = "https".toList
    ∧ split.hostname = some loreHost ∧ split.port = some none ∧ split.username = none
    ∧ split.password = none ∧ split.query = [] ∧ split.fragment = []
    ∧ archiveRoot <+: split.path ∧ NoDotSegments split.path
    ∧ ∃ text, percentDecode split.path = some text ∧ NoDotSegments text

/-- What is accepted, with its path. -/
theorem exists_path_of_validateLoreUrl {lib : NetlocChecks} {url r : String} {kind : UrlKind}
    (h : validateLoreUrl lib url kind = .ok r) :
    ∃ path, r = String.ofList (loreOrigin ++ '/' :: path)
      ∧ (∃ split, urlsplit lib url.toList = some split ∧ split.path = '/' :: path)
      ∧ loreEndpoint kind ('/' :: path) = .ok r ∧ ∀ c ∈ path, 32 ≤ c.toNat ∧ c ≠ '?' ∧ c ≠ '#' := by
  obtain ⟨split, hsplit, hendpoint, hchars⟩ := validateLoreUrl_eq_ok h
  obtain ⟨hr, -, -, hpath⟩ := loreEndpoint_eq_ok hendpoint
  obtain ⟨path, hslash⟩ : ∃ path, split.path = '/' :: path := by
    rcases hpath with ⟨hfeed, -⟩ | ⟨tail, -, ⟨hraw, -⟩ | hmessage⟩
    · exact ⟨_, hfeed⟩
    · exact ⟨_, hraw⟩
    · exact ⟨_, hmessage⟩
  rw [hslash] at hr hendpoint hchars
  exact ⟨path, hr, ⟨split, hsplit, hslash⟩, hendpoint,
    fun c hc => hchars c (List.mem_cons_of_mem _ hc)⟩

/-- What is accepted is accepted again as it comes back. -/
theorem validateLoreUrl_idem {lib : NetlocChecks} {url r : String} {kind : UrlKind}
    (h : validateLoreUrl lib url kind = .ok r) : validateLoreUrl lib r kind = .ok r := by
  obtain ⟨path, rfl, -, hendpoint, hchars⟩ := exists_path_of_validateLoreUrl h
  rw [validateLoreUrl_loreOrigin lib kind hchars, hendpoint]

theorem isArchiveUrl_of_validateLoreUrl {lib : NetlocChecks} {url r : String} {kind : UrlKind}
    (h : validateLoreUrl lib url kind = .ok r) : IsArchiveUrl lib r := by
  obtain ⟨path, rfl, -, hendpoint, hchars⟩ := exists_path_of_validateLoreUrl h
  obtain ⟨-, -, -, hpath⟩ := loreEndpoint_eq_ok hendpoint
  obtain ⟨hscheme, hhost, hport, huser, hpassword, hquery, hfragment⟩ :=
    loreSplit_fields ('/' :: path)
  have hsplit := urlsplit_loreOrigin lib path fun c hc =>
    ⟨(hchars c hc).2.1, (hchars c hc).2.2, not_mem_blank (hchars c hc).1⟩
  rw [← String.toList_ofList (l := loreOrigin ++ '/' :: path)] at hsplit
  refine ⟨_, hsplit, hscheme, hhost, hport, huser, hpassword, hquery, hfragment, ?_⟩
  show archiveRoot <+: '/' :: path ∧ NoDotSegments ('/' :: path)
    ∧ ∃ text, percentDecode ('/' :: path) = some text ∧ NoDotSegments text
  rcases hpath with ⟨hfeed, -⟩ | ⟨tail, htail, ⟨hraw, -⟩ | hmessage⟩
  · rw [hfeed]
    exact ⟨by decide, by decide, feedPath, by decide, by decide⟩
  · rw [hraw]
    exact ⟨by rw [List.append_assoc]; exact List.prefix_append _ _,
      noDotSegments_of_isIdentifier htail "raw".toList (by decide) (by decide)⟩
  · rw [hmessage]
    exact ⟨by rw [List.append_assoc]; exact List.prefix_append _ _,
      noDotSegments_of_isIdentifier htail [] (by decide) (by decide)⟩

/-- An accepted message, its identifier and its raw URL. -/
theorem exists_rawUrlForEntry {lib : NetlocChecks} {url r : String}
    (h : validateLoreUrl lib url .message = .ok r) :
    ∃ tail path, IsIdentifier tail ∧ (∃ split, urlsplit lib url.toList = some split
        ∧ split.path = archiveRoot ++ tail ++ ['/'])
      ∧ '/' :: path = archiveRoot ++ tail ++ rawSuffix
      ∧ (∀ c ∈ path, 32 ≤ c.toNat ∧ c ≠ '?' ∧ c ≠ '#')
      ∧ rawUrlForEntry lib url = .ok (String.ofList (loreOrigin ++ '/' :: path)) := by
  obtain ⟨path, hr, ⟨split, hsplit, hslash⟩, hendpoint, hchars⟩ := exists_path_of_validateLoreUrl h
  obtain ⟨-, hpercent, hbackslash, ⟨-, hkind⟩ | ⟨tail, htail, ⟨-, hkind⟩ | hmessage⟩⟩ :=
    loreEndpoint_eq_ok hendpoint
  · exact absurd rfl hkind
  · exact absurd rfl hkind
  have hraw : '/' :: (path ++ "raw".toList) = archiveRoot ++ tail ++ rawSuffix := by
    rw [← List.cons_append, hmessage, List.append_assoc]
    rfl
  have hrawChars : ∀ c ∈ path ++ "raw".toList, 32 ≤ c.toNat ∧ c ≠ '?' ∧ c ≠ '#' := by
    intro c hc
    rcases List.mem_append.mp hc with hc | hc
    · exact hchars c hc
    · exact (show ∀ c ∈ "raw".toList, 32 ≤ c.toNat ∧ c ≠ '?' ∧ c ≠ '#' by decide) c hc
  have hcanonical : r ++ "raw" = String.ofList (loreOrigin ++ '/' :: (path ++ "raw".toList)) := by
    apply String.toList_injective
    rw [hr, String.toList_append]
    simp only [String.toList_ofList, List.append_assoc, List.cons_append]
  rw [hmessage, hasBadPercent_append_slash, Bool.or_eq_false_iff] at hpercent
  rw [hmessage, List.mem_append, not_or] at hbackslash
  refine ⟨tail, path ++ "raw".toList, htail, ⟨split, hsplit, hslash.trans hmessage⟩, hraw,
    hrawChars, ?_⟩
  rw [rawUrlForEntry, h, ok_bind, hcanonical, validateLoreUrl_loreOrigin lib .raw hrawChars, hraw,
    loreEndpoint_raw htail hpercent.1 hbackslash.1]

/-- A URL comes back in a form that is accepted as it is and stays in the archive, and the raw URL
of a message is one of the same identifier. -/
theorem validateLoreUrl_spec (lib : NetlocChecks) (url r : String) (kind : UrlKind)
    (h : validateLoreUrl lib url kind = .ok r) :
    validateLoreUrl lib r kind = .ok r ∧ IsArchiveUrl lib r
      ∧ (kind = .message → ∃ raw split rawSplit messageId value,
          rawUrlForEntry lib url = .ok raw ∧ validateLoreUrl lib raw .raw = .ok raw
          ∧ urlsplit lib url.toList = some split ∧ urlsplit lib raw.toList = some rawSplit
          ∧ decodeUrlMessageId (messageTail split.path) = .ok messageId
          ∧ decodeUrlMessageId (rawTail rawSplit.path) = .ok messageId
          ∧ normalizeMessageId messageId = .ok value) := by
  refine ⟨validateLoreUrl_idem h, isArchiveUrl_of_validateLoreUrl h, ?_⟩
  rintro rfl
  obtain ⟨tail, path, ⟨-, messageId, value, hdecode, hvalue⟩, ⟨split, hsplit, hmessage⟩, hraw,
    hchars, hentry⟩ := exists_rawUrlForEntry h
  have hrawSplit := urlsplit_loreOrigin lib path fun c hc =>
    ⟨(hchars c hc).2.1, (hchars c hc).2.2, not_mem_blank (hchars c hc).1⟩
  rw [← String.toList_ofList (l := loreOrigin ++ '/' :: path)] at hrawSplit
  have haccepted : validateLoreUrl lib (String.ofList (loreOrigin ++ '/' :: path)) .raw
      = .ok (String.ofList (loreOrigin ++ '/' :: path)) := by
    obtain ⟨canonical, -, hcanonical⟩ := bind_eq_ok.mp (rawUrlForEntry.eq_1 lib url ▸ hentry)
    exact validateLoreUrl_idem hcanonical
  refine ⟨_, split, _, messageId, value, hentry, haccepted, hsplit, hrawSplit, ?_, ?_, hvalue⟩
  · rwa [hmessage, messageTail_append]
  · rwa [show (loreSplit ('/' :: path)).path = '/' :: path from rfl, hraw, rawTail_append]

/-- The library, for authorities without compatibility characters. -/
def asciiChecks : NetlocChecks where
  nfkc := id
  bracketedNetloc _ := false

/-- The identifier `a@b/raw` ends as the raw form of another one. -/
theorem validateLoreUrl_spec_rawIdentifier :
    validateLoreUrl asciiChecks "https://lore.kernel.org/io-uring/a@b/raw/" .message
        = .ok "https://lore.kernel.org/io-uring/a@b/raw/"
      ∧ IsArchiveUrl asciiChecks "https://lore.kernel.org/io-uring/a@b/raw/"
      ∧ ∃ raw, rawUrlForEntry asciiChecks "https://lore.kernel.org/io-uring/a@b/raw/"
        = .ok raw := by
  have haccepted : validateLoreUrl asciiChecks "https://lore.kernel.org/io-uring/a@b/raw/" .message
      = .ok "https://lore.kernel.org/io-uring/a@b/raw/" := by rfl
  obtain ⟨hidem, harchive, hmessage⟩ := validateLoreUrl_spec asciiChecks
    "https://lore.kernel.org/io-uring/a@b/raw/" "https://lore.kernel.org/io-uring/a@b/raw/" .message
    haccepted
  obtain ⟨raw, -, -, -, -, hraw, -⟩ := hmessage rfl
  exact ⟨hidem, harchive, raw, hraw⟩

end IouAi.Lkml
