import IouAi.Foundations.Characters
import Mathlib.Algebra.BigOperators.Group.List.Basic
import Mathlib.Data.Finset.Card
import Mathlib.Data.Finset.Insert
import Mathlib.Data.List.TakeWhile
import Mathlib.Algebra.GroupWithZero.Nat

/-!
# Counting the lines of a patch

The archive intake reads the diffs of a mail line by line. A line is an addition or a deletion by its
first characters, without regard to the length of the hunk, so it takes the signature of the mail for
a deletion, and an added line whose text begins with `++` for a file header.
-/

namespace IouAi.Lkml

/-! ## Lines -/

/-- The characters at which `str.splitlines` ends a line. -/
def isLineBoundary (c : Char) : Bool :=
  c.toNat ∈ [0x0a, 0x0b, 0x0c, 0x0d, 0x1c, 0x1d, 0x1e, 0x85, 0x2028, 0x2029]

def splitLines (line : List Char) : List Char → List String
  | [] => if line = [] then [] else [String.ofList line]
  | '\r' :: '\n' :: cs => String.ofList line :: splitLines [] cs
  | c :: cs =>
    if isLineBoundary c then String.ofList line :: splitLines [] cs else splitLines (line ++ [c]) cs

/-- `str.splitlines`. -/
def splitlines (text : String) : List String := splitLines [] text.toList

/-- The text of some lines. -/
def unlines (lines : List String) : String := String.join (lines.map (· ++ "\n"))

theorem splitLines_append {cs : List Char} (hcs : ∀ c ∈ cs, isLineBoundary c = false)
    (line rest : List Char) :
    splitLines line (cs ++ '\n' :: rest) = String.ofList (line ++ cs) :: splitLines [] rest := by
  induction cs generalizing line with
  | nil => rw [List.nil_append, List.append_nil, splitLines, if_pos (by decide)]; simp
  | cons c cs ih =>
    obtain ⟨hc, hcs⟩ := List.forall_mem_cons.mp hcs
    have hreturn : c ≠ '\r' := by
      rintro rfl
      exact absurd hc (by decide)
    rw [List.cons_append, splitLines, if_neg (by simp [hc]), ih hcs, List.append_assoc]
    · rfl
    · intro cs' h
      exact absurd h hreturn

/-- Lines are read back from their text. -/
theorem splitlines_unlines {lines : List String}
    (h : ∀ line ∈ lines, ∀ c ∈ line.toList, isLineBoundary c = false) :
    splitlines (unlines lines) = lines := by
  rw [splitlines, unlines]
  induction lines with
  | nil => rfl
  | cons line lines ih =>
    obtain ⟨hline, hlines⟩ := List.forall_mem_cons.mp h
    have hsplit : (String.join ((line :: lines).map (· ++ "\n"))).toList
        = line.toList ++ '\n' :: (String.join (lines.map (· ++ "\n"))).toList := by
      rw [List.map_cons, String.join_cons, String.toList_append, String.toList_append,
        List.append_assoc]
      rfl
    rw [hsplit, splitLines_append hline, List.nil_append, String.ofList_toList, ih hlines]

/-- `line.startswith(text)`. -/
def startsWith (line text : String) : Bool := text.toList.isPrefixOf line.toList

/-! ## Paths -/

/-- A letter, a digit, or one of `_`, `.`, `+`, `-` and `/`. -/
def isPathChar (c : Char) : Bool := c.isAlphanum || c ∈ ['_', '.', '+', '-', '/']

/-- The match of `SIMPLE_GIT_DIFF_RE`. -/
def simpleGitDiff (line : String) : Option (String × String) := do
  let rest ← line.toList.dropPrefix? "diff --git a/".toList
  let left := rest.takeWhile isPathChar
  let right ← (rest.dropWhile isPathChar).dropPrefix? " b/".toList
  if left ≠ [] ∧ right ≠ [] ∧ right.all isPathChar then
    some (String.ofList left, String.ofList right)
  else none

/-- `is_scoped_kernel_path`. -/
def isScopedKernelPath (path : String) : Bool :=
  path ≠ "" && path.toList.length ≤ 240 && !startsWith path "/" && '\\' ∉ path.toList
    && (path.toList.splitOn '/').all (fun part => part ∉ ["".toList, ".".toList, "..".toList])
    && (startsWith path "io_uring/" || startsWith path "fs/io_uring/" || path = "fs/io_uring.c")

/-! ## The scanner -/

structure DiffCounts where
  files : ℕ
  hunks : ℕ
  additions : ℕ
  deletions : ℕ
  deriving DecidableEq

structure ParsedDiff where
  hasAnyDiff : Bool
  paths : List String
  hunks : List String
  counts : DiffCounts
  truncated : Bool

def maxDiffLines : ℕ := 50000
def maxEvidencePaths : ℕ := 32
def maxEvidenceHunks : ℕ := 32

/-- The variables of the loop of `_parse_scoped_diff`. -/
structure Scan where
  pathsSeen : Finset String
  displayedPaths : List String
  displayedHunks : List String
  hasAnyDiff : Bool
  currentScoped : Bool
  inHunk : Bool
  hunkCount : ℕ
  additions : ℕ
  deletions : ℕ

def Scan.start : Scan := ⟨∅, [], [], false, false, false, 0, 0, 0⟩

/-- The path of a header is in scope. -/
def Scan.enter (scan : Scan) (path : String) : Scan :=
  if path ∈ scan.pathsSeen then { scan with currentScoped := true }
  else { scan with
    currentScoped := true
    pathsSeen := insert path scan.pathsSeen
    displayedPaths :=
      if scan.displayedPaths.length < maxEvidencePaths then scan.displayedPaths ++ [path]
      else scan.displayedPaths }

section

variable (sanitizeText : String → ℕ → String)

/-- The body of the loop. -/
def Scan.step (scan : Scan) (line : String) : Scan :=
  if startsWith line "diff --git " then
    let opened := { scan with
      hasAnyDiff := true
      inHunk := false
      currentScoped := false }
    match simpleGitDiff line with
    | none => opened
    | some (left, right) =>
      if left = right ∧ isScopedKernelPath right = true then opened.enter right else opened
  else if startsWith line "@@" then
    if scan.currentScoped then { scan with
      inHunk := true
      hunkCount := scan.hunkCount + 1
      displayedHunks :=
        if scan.displayedHunks.length < maxEvidenceHunks then
          scan.displayedHunks ++ [sanitizeText line 200]
        else scan.displayedHunks }
    else { scan with inHunk := false }
  else if ¬ (scan.currentScoped = true ∧ scan.inHunk = true) then scan
  else if startsWith line "+" && !startsWith line "+++" then
    { scan with additions := scan.additions + 1 }
  else if startsWith line "-" && !startsWith line "---" then
    { scan with deletions := scan.deletions + 1 }
  else scan

/-- `_parse_scoped_diff`. -/
def parseScopedDiff (body : String) : ParsedDiff :=
  let lines := (splitlines body).take maxDiffLines
  let scan := lines.foldl (Scan.step sanitizeText) .start
  { hasAnyDiff := scan.hasAnyDiff
    paths := scan.displayedPaths
    hunks := scan.displayedHunks
    counts := ⟨scan.pathsSeen.card, scan.hunkCount, scan.additions, scan.deletions⟩
    truncated := decide (maxDiffLines < (splitlines body).length) }

end

/-! ## Patches -/

/-- A line of a hunk; an empty context line may have lost its blank. -/
inductive HunkLine
  | context (text : String)
  | blank
  | added (text : String)
  | removed (text : String)
  | noNewline (text : String)

namespace HunkLine

def render : HunkLine → String
  | .context text => " " ++ text
  | .blank => ""
  | .added text => "+" ++ text
  | .removed text => "-" ++ text
  | .noNewline text => "\\" ++ text

def isContext : HunkLine → Bool
  | .context _ | .blank => true
  | _ => false

def isAddition : HunkLine → Bool
  | .added _ => true
  | _ => false

def isDeletion : HunkLine → Bool
  | .removed _ => true
  | _ => false

/-- An added line that looks like the header of a file. -/
def isHiddenAddition : HunkLine → Bool
  | .added text => startsWith text "++"
  | _ => false

/-- A removed line that looks like the header of a file. -/
def isHiddenDeletion : HunkLine → Bool
  | .removed text => startsWith text "--"
  | _ => false

end HunkLine

/-- The range of a hunk: its first line and how many lines it has. -/
def rangeText (first count : ℕ) : String :=
  if count = 1 then toString first else toString first ++ "," ++ toString count

/-- A hunk whose header counts its lines. -/
structure Hunk where
  oldStart : ℕ
  oldCount : ℕ
  newStart : ℕ
  newCount : ℕ
  heading : String
  body : List HunkLine
  oldCount_eq : oldCount = body.countP fun line => line.isContext || line.isDeletion
  newCount_eq : newCount = body.countP fun line => line.isContext || line.isAddition

namespace Hunk

def header (hunk : Hunk) : String :=
  "@@ -" ++ (rangeText hunk.oldStart hunk.oldCount ++ " +" ++ rangeText hunk.newStart hunk.newCount
    ++ " @@" ++ hunk.heading)

def lines (hunk : Hunk) : List String := hunk.header :: hunk.body.map HunkLine.render

end Hunk

/-- The diff of one file: its header line, more header lines, and its hunks. -/
structure FileSection where
  oldPath : String
  newPath : String
  extended : List String
  hunks : List Hunk
  extended_no_header : ∀ line ∈ extended,
    startsWith line "diff --git " = false ∧ startsWith line "@@" = false

namespace FileSection

variable (file : FileSection)

def header : String := "diff --git a/" ++ file.oldPath ++ " b/" ++ file.newPath

def lines : List String := file.header :: (file.extended ++ file.hunks.flatMap Hunk.lines)

/-- The path of the section is in scope; a section that renames a file has two paths. -/
def inScope : Bool := file.oldPath = file.newPath && isScopedKernelPath file.newPath

def hunkLines : List HunkLine := file.hunks.flatMap Hunk.body

end FileSection

/-- The lines of a mail with a patch: what is before it, its sections, and the signature. -/
structure Patch where
  preamble : List String
  sections : List FileSection
  signature : List String
  preamble_no_header : ∀ line ∈ preamble, startsWith line "diff --git " = false
  signature_no_header : ∀ line ∈ signature, startsWith line "diff --git " = false

namespace Patch

variable (patch : Patch)

/-- The signature behind its separator. -/
def trailer : List String := "-- " :: patch.signature

def lines : List String :=
  patch.preamble ++ (patch.sections.flatMap FileSection.lines ++ patch.trailer)

def sectionsInScope : List FileSection := patch.sections.filter FileSection.inScope

/-- What the patch does to the files in scope. -/
def totals : DiffCounts where
  files := (patch.sectionsInScope.map FileSection.newPath).toFinset.card
  hunks := (patch.sectionsInScope.map fun file => file.hunks.length).sum
  additions := (patch.sectionsInScope.map fun file => file.hunkLines.countP HunkLine.isAddition).sum
  deletions := (patch.sectionsInScope.map fun file => file.hunkLines.countP HunkLine.isDeletion).sum

end Patch

/-! ## Headers -/

/-- A path that the pattern of a header can match. -/
def isSimplePath (path : String) : Bool := path.toList ≠ [] && path.toList.all isPathChar

/-- The path in scope that a header names. -/
def headerPath (line : String) : Option String :=
  match simpleGitDiff line with
  | none => none
  | some (left, right) => if left = right ∧ isScopedKernelPath right = true then some right else none

/-- The second path of a header begins where the pattern finds it. -/
theorem rest_of_match {left right rest : List Char}
    (hdrop : ((left ++ (" b/".toList ++ right)).dropWhile isPathChar).dropPrefix? " b/".toList
      = some rest) (hrest : rest.all isPathChar = true) : left.all isPathChar = true := by
  obtain ⟨blank, hsplit, hblank⟩ := List.dropPrefix?_eq_some_iff.mp hdrop
  obtain rfl : blank = " b/".toList := beq_iff_eq.mp hblank
  -- behind the first blank there is no other one
  have hcount : ∀ {cs : List Char}, cs.all isPathChar = true → cs.count ' ' = 0 := by
    intro cs hcs
    refine List.count_eq_zero.mpr fun hmem => ?_
    exact absurd (List.all_eq_true.mp hcs _ hmem) (by decide)
  by_contra hleft
  have hne : left.dropWhile isPathChar ≠ [] := by
    intro hnil
    exact hleft (List.all_eq_true.mpr (List.dropWhile_eq_nil_iff.mp hnil))
  have happend : (left ++ (" b/".toList ++ right)).dropWhile isPathChar
      = left.dropWhile isPathChar ++ (" b/".toList ++ right) := by
    rw [List.dropWhile_append, if_neg (by simpa using hne)]
  rw [happend] at hsplit
  obtain ⟨c, cs, hcs⟩ := List.exists_cons_of_ne_nil hne
  rw [hcs] at hsplit
  have hc : c = ' ' := (List.cons.inj hsplit).1
  have htimes := congrArg (List.count ' ') hsplit
  rw [hc, List.cons_append, List.count_cons_self, List.count_append, List.count_append,
    List.count_append, hcount hrest] at htimes
  have hone : " b/".toList.count ' ' = 1 := by decide
  omega

theorem simpleGitDiff_header (left right : String) :
    simpleGitDiff ("diff --git a/" ++ left ++ " b/" ++ right)
      = if isSimplePath left = true ∧ isSimplePath right = true then some (left, right) else none := by
  have hprefix : ("diff --git a/" ++ left ++ " b/" ++ right).toList.dropPrefix? "diff --git a/".toList
      = some (left.toList ++ (" b/".toList ++ right.toList)) := by
    rw [String.toList_append, String.toList_append, String.toList_append, List.append_assoc,
      List.append_assoc]
    exact List.dropPrefix?_append_of_beq _ (beq_self_eq_true _)
  rw [simpleGitDiff, hprefix, Option.bind_eq_bind, Option.bind_some]
  by_cases hleft : left.toList.all isPathChar = true
  · have hall := List.all_eq_true.mp hleft
    have htake : (left.toList ++ (" b/".toList ++ right.toList)).takeWhile isPathChar
        = left.toList := by
      rw [List.takeWhile_append_of_pos hall]
      exact (congrArg _ (List.takeWhile_cons_of_neg (by decide))).trans (List.append_nil _)
    have hdrop : (left.toList ++ (" b/".toList ++ right.toList)).dropWhile isPathChar
        = " b/".toList ++ right.toList := by
      rw [List.dropWhile_append_of_pos hall]
      exact List.dropWhile_cons_of_neg (by decide)
    rw [htake, hdrop, List.dropPrefix?_append_of_beq _ (beq_self_eq_true _), Option.bind_some,
      String.ofList_toList, String.ofList_toList]
    simp only [isSimplePath, hleft, Bool.and_true, Bool.and_eq_true, decide_eq_true_eq]
  · rw [if_neg fun h => hleft (Bool.and_eq_true_iff.mp h.1).2]
    cases hdrop : ((left.toList ++ (" b/".toList ++ right.toList)).dropWhile isPathChar).dropPrefix?
        " b/".toList with
    | none => rfl
    | some rest =>
      rw [Option.bind_some, if_neg fun h => hleft (rest_of_match hdrop h.2.2)]

theorem headerPath_header (file : FileSection) :
    headerPath file.header
      = if file.inScope && isSimplePath file.newPath then some file.newPath else none := by
  delta FileSection.header
  rw [headerPath, simpleGitDiff_header, FileSection.inScope]
  by_cases heq : file.oldPath = file.newPath
  · rw [heq]
    by_cases hsimple : isSimplePath file.newPath = true
    · simp [hsimple]
    · simp [hsimple]
  · split
    · simp [heq]
    · rename_i left right hsome
      split at hsome
      · cases hsome
        simp [heq]
      · cases hsome

/-! ## What the scanner counts -/

/-- The counts of the scanner, and where it is in the patch. -/
structure Tally where
  paths : Finset String
  currentScoped : Bool
  inHunk : Bool
  hunks : ℕ
  additions : ℕ
  deletions : ℕ

def Tally.counts (tally : Tally) : DiffCounts :=
  ⟨tally.paths.card, tally.hunks, tally.additions, tally.deletions⟩

def Scan.tally (scan : Scan) : Tally :=
  ⟨scan.pathsSeen, scan.currentScoped, scan.inHunk, scan.hunkCount, scan.additions, scan.deletions⟩

def looksAdded (line : String) : Bool := startsWith line "+" && !startsWith line "+++"

def looksRemoved (line : String) : Bool := startsWith line "-" && !startsWith line "---"

namespace Tally

variable (tally : Tally)

/-- Go to the section of a file. -/
def enter (path : Option String) : Tally := { tally with
  paths := path.elim tally.paths fun path => insert path tally.paths
  currentScoped := path.isSome
  inHunk := false }

/-- Count a line of a hunk. -/
def count (line : String) : Tally := { tally with
  additions := tally.additions + (looksAdded line).toNat
  deletions := tally.deletions + (looksRemoved line).toNat }

/-- One line. -/
def step (line : String) : Tally :=
  if startsWith line "diff --git " then tally.enter (headerPath line)
  else if startsWith line "@@" then { tally with
    inHunk := tally.currentScoped
    hunks := tally.hunks + tally.currentScoped.toNat }
  else if tally.currentScoped && tally.inHunk then tally.count line
  else tally

end Tally

/-- No line looks added and removed. -/
theorem looksRemoved_of_looksAdded {line : String} (h : looksAdded line = true) :
    looksRemoved line = false := by
  have hplus := (Bool.and_eq_true_iff.mp h).1
  have hminus : startsWith line "-" = false := by
    unfold startsWith at *
    cases hline : line.toList with
    | nil => rfl
    | cons c cs =>
      rw [hline] at hplus
      have hc : '+' = c := by simpa [List.isPrefixOf] using hplus
      subst hc
      simp [List.isPrefixOf]
  rw [looksRemoved, hminus, Bool.false_and]

theorem tally_enter (scan : Scan) (path : String) :
    (scan.enter path).tally
      = { scan.tally with
          paths := insert path scan.pathsSeen
          currentScoped := true } := by
  unfold Scan.enter
  by_cases hseen : path ∈ scan.pathsSeen
  · rw [if_pos hseen, Finset.insert_eq_of_mem hseen]
    rfl
  · rw [if_neg hseen]
    rfl

/-- What the scanner displays does not change its counts. -/
theorem tally_step (sanitizeText : String → ℕ → String) (scan : Scan) (line : String) :
    (scan.step sanitizeText line).tally = scan.tally.step line := by
  unfold Scan.step Tally.step
  by_cases hdiff : startsWith line "diff --git " = true
  · rw [if_pos hdiff, if_pos hdiff, headerPath]
    cases simpleGitDiff line with
    | none => rfl
    | some paths =>
      obtain ⟨left, right⟩ := paths
      dsimp only
      by_cases hpath : left = right ∧ isScopedKernelPath right = true
      · rw [if_pos hpath, if_pos hpath, tally_enter]
        rfl
      · rw [if_neg hpath, if_neg hpath]
        rfl
  rw [if_neg hdiff, if_neg hdiff]
  by_cases hhunk : startsWith line "@@" = true
  · rw [if_pos hhunk, if_pos hhunk]
    cases hscoped : scan.currentScoped <;> simp [Scan.tally, hscoped]
  rw [if_neg hhunk, if_neg hhunk]
  by_cases hin : scan.currentScoped = true ∧ scan.inHunk = true
  · have hcounts : (scan.tally.currentScoped && scan.tally.inHunk) = true :=
      Bool.and_eq_true_iff.mpr hin
    rw [if_neg (not_not.mpr hin), if_pos hcounts]
    change Scan.tally (if looksAdded line = true then _ else if looksRemoved line = true then _ else _)
      = _
    cases hadded : looksAdded line with
    | true =>
      simp [Scan.tally, Tally.count, hadded, looksRemoved_of_looksAdded hadded]
    | false =>
      cases hremoved : looksRemoved line <;> simp [Scan.tally, Tally.count, hadded, hremoved]
  · have hskips : ¬ (scan.tally.currentScoped && scan.tally.inHunk) = true :=
      fun h => hin (Bool.and_eq_true_iff.mp h)
    rw [if_pos hin, if_neg hskips]

theorem tally_foldl (sanitizeText : String → ℕ → String) (lines : List String) (scan : Scan) :
    (lines.foldl (Scan.step sanitizeText) scan).tally = lines.foldl Tally.step scan.tally := by
  induction lines generalizing scan with
  | nil => rfl
  | cons line lines ih => rw [List.foldl_cons, List.foldl_cons, ih, tally_step]

/-! ## Sections -/

namespace HunkLine

def isCountedAddition (line : HunkLine) : Bool := line.isAddition && !line.isHiddenAddition

def isCountedDeletion (line : HunkLine) : Bool := line.isDeletion && !line.isHiddenDeletion

theorem startsWith_render (line : HunkLine) :
    startsWith line.render "diff --git " = false ∧ startsWith line.render "@@" = false := by
  cases line <;> simp [startsWith, render, String.toList_append, List.isPrefixOf]

theorem looksAdded_render (line : HunkLine) : looksAdded line.render = line.isCountedAddition := by
  cases line <;> simp [looksAdded, isCountedAddition, isAddition, isHiddenAddition, startsWith, render,
    String.toList_append, List.isPrefixOf]

theorem looksRemoved_render (line : HunkLine) :
    looksRemoved line.render = line.isCountedDeletion := by
  cases line <;> simp [looksRemoved, isCountedDeletion, isDeletion, isHiddenDeletion, startsWith,
    render, String.toList_append, List.isPrefixOf]

end HunkLine

/-! ## The scanner on a patch -/

namespace Tally

variable {tally : Tally}

theorem step_of_not_header {line : String}
    (h : startsWith line "diff --git " = false ∧ startsWith line "@@" = false) :
    tally.step line = if tally.currentScoped && tally.inHunk then tally.count line else tally := by
  rw [step, if_neg (Bool.eq_false_iff.mp h.1), if_neg (Bool.eq_false_iff.mp h.2)]

/-- Outside the hunks in scope, lines that are no headers are not counted. -/
theorem foldl_skip {lines : List String} (hskip : (tally.currentScoped && tally.inHunk) = false)
    (h : ∀ line ∈ lines, startsWith line "diff --git " = false ∧ startsWith line "@@" = false) :
    lines.foldl step tally = tally := by
  induction lines with
  | nil => rfl
  | cons line lines ih =>
    obtain ⟨hline, hlines⟩ := List.forall_mem_cons.mp h
    rw [List.foldl_cons, step_of_not_header hline, hskip, if_neg Bool.false_ne_true]
    exact ih hlines

/-- Inside a hunk in scope, every such line is counted. -/
theorem foldl_count {lines : List String} (hin : (tally.currentScoped && tally.inHunk) = true)
    (h : ∀ line ∈ lines, startsWith line "diff --git " = false ∧ startsWith line "@@" = false) :
    lines.foldl step tally = { tally with
      additions := tally.additions + lines.countP looksAdded
      deletions := tally.deletions + lines.countP looksRemoved } := by
  induction lines generalizing tally with
  | nil => rfl
  | cons line lines ih =>
    obtain ⟨hline, hlines⟩ := List.forall_mem_cons.mp h
    rw [List.foldl_cons, step_of_not_header hline, if_pos hin, ih (by exact hin) hlines]
    simp only [count, List.countP_cons, Nat.add_assoc, mk.injEq, true_and]
    constructor
    · cases looksAdded line <;> simp [Nat.add_comm]
    · cases looksRemoved line <;> simp [Nat.add_comm]

theorem foldl_body (body : List HunkLine) (hin : (tally.currentScoped && tally.inHunk) = true) :
    (body.map HunkLine.render).foldl step tally = { tally with
      additions := tally.additions + body.countP HunkLine.isCountedAddition
      deletions := tally.deletions + body.countP HunkLine.isCountedDeletion } := by
  have hrender : ∀ line ∈ body.map HunkLine.render,
      startsWith line "diff --git " = false ∧ startsWith line "@@" = false := by
    intro line hline
    obtain ⟨hunkLine, -, rfl⟩ := List.mem_map.mp hline
    exact hunkLine.startsWith_render
  rw [foldl_count hin hrender, List.countP_map, List.countP_map]
  congr 2
  · exact List.countP_congr fun line _ => by simp [HunkLine.looksAdded_render]
  · exact List.countP_congr fun line _ => by simp [HunkLine.looksRemoved_render]

theorem startsWith_header (hunk : Hunk) :
    startsWith hunk.header "diff --git " = false ∧ startsWith hunk.header "@@" = true := by
  delta Hunk.header
  simp [startsWith, String.toList_append, List.isPrefixOf]

/-- The hunks of a section in scope. -/
theorem foldl_hunks (hunks : List Hunk) (hscoped : tally.currentScoped = true) :
    (hunks.flatMap Hunk.lines).foldl step tally = { tally with
      inHunk := tally.inHunk || !hunks.isEmpty
      hunks := tally.hunks + hunks.length
      additions := tally.additions + (hunks.flatMap Hunk.body).countP HunkLine.isCountedAddition
      deletions := tally.deletions + (hunks.flatMap Hunk.body).countP HunkLine.isCountedDeletion } := by
  induction hunks generalizing tally with
  | nil => simp
  | cons hunk hunks ih =>
    obtain ⟨hdiff, hhunk⟩ := startsWith_header hunk
    have hheader : tally.step hunk.header = { tally with
        inHunk := true
        hunks := tally.hunks + 1 } := by
      rw [step, if_neg (Bool.eq_false_iff.mp hdiff), if_pos hhunk, hscoped]
      rfl
    have hin : (tally.currentScoped && true) = true := by rw [hscoped]; rfl
    rw [List.flatMap_cons, List.foldl_append, Hunk.lines, List.foldl_cons, hheader,
      foldl_body hunk.body hin, List.flatMap_cons, List.countP_append, List.countP_append]
    refine (ih ?_).trans ?_
    · exact hscoped
    simp only [Bool.true_or, List.isEmpty_cons, Bool.not_false, Bool.or_true, List.length_cons,
      Nat.add_assoc, Nat.add_comm 1]

/-- The hunks of a section that is not in scope. -/
theorem foldl_hunks_skip (hunks : List Hunk) (hscoped : tally.currentScoped = false)
    (hin : tally.inHunk = false) : (hunks.flatMap Hunk.lines).foldl step tally = tally := by
  induction hunks with
  | nil => rfl
  | cons hunk hunks ih =>
    obtain ⟨hdiff, hhunk⟩ := startsWith_header hunk
    have hheader : tally.step hunk.header = tally := by
      obtain ⟨paths, currentScoped, inHunk, _, _, _⟩ := tally
      obtain rfl : currentScoped = false := hscoped
      obtain rfl : inHunk = false := hin
      rw [step, if_neg (Bool.eq_false_iff.mp hdiff), if_pos hhunk]
      rfl
    have hrender : ∀ line ∈ hunk.body.map HunkLine.render,
        startsWith line "diff --git " = false ∧ startsWith line "@@" = false := by
      intro line hline
      obtain ⟨hunkLine, -, rfl⟩ := List.mem_map.mp hline
      exact hunkLine.startsWith_render
    rw [List.flatMap_cons, List.foldl_append, Hunk.lines, List.foldl_cons, hheader,
      foldl_skip (by rw [hscoped]; rfl) hrender, ih]

/-- The section of a file, as the scanner counts it. -/
def countSection (tally : Tally) (file : FileSection) : Tally :=
  let path := headerPath file.header
  { paths := path.elim tally.paths fun path => insert path tally.paths
    currentScoped := path.isSome
    inHunk := path.isSome && !file.hunks.isEmpty
    hunks := tally.hunks + if path.isSome then file.hunks.length else 0
    additions := tally.additions
      + if path.isSome then file.hunkLines.countP HunkLine.isCountedAddition else 0
    deletions := tally.deletions
      + if path.isSome then file.hunkLines.countP HunkLine.isCountedDeletion else 0 }

theorem foldl_section (file : FileSection) : file.lines.foldl step tally = tally.countSection file := by
  have hdiff : startsWith file.header "diff --git " = true := by
    delta FileSection.header
    simp [startsWith, String.toList_append, List.isPrefixOf]
  have hextended : file.extended.foldl step (tally.enter (headerPath file.header))
      = tally.enter (headerPath file.header) :=
    foldl_skip (by rw [enter, Bool.and_false]) file.extended_no_header
  rw [FileSection.lines, List.foldl_cons, step, if_pos hdiff, List.foldl_append, hextended]
  cases hpath : headerPath file.header with
  | none =>
    refine (foldl_hunks_skip file.hunks rfl rfl).trans ?_
    simp [countSection, enter, hpath]
  | some path =>
    refine (foldl_hunks file.hunks rfl).trans ?_
    simp [countSection, enter, hpath, FileSection.hunkLines]

theorem foldl_sections (sections : List FileSection) :
    (sections.flatMap FileSection.lines).foldl step tally = sections.foldl countSection tally := by
  induction sections generalizing tally with
  | nil => rfl
  | cons file sections ih =>
    rw [List.flatMap_cons, List.foldl_append, foldl_section, List.foldl_cons, ih]

theorem foldl_preamble {lines : List String} (hscoped : tally.currentScoped = false)
    (hin : tally.inHunk = false) (h : ∀ line ∈ lines, startsWith line "diff --git " = false) :
    lines.foldl step tally = tally := by
  induction lines with
  | nil => rfl
  | cons line lines ih =>
    obtain ⟨hline, hlines⟩ := List.forall_mem_cons.mp h
    have hstep : tally.step line = tally := by
      obtain ⟨paths, currentScoped, inHunk, _, _, _⟩ := tally
      obtain rfl : currentScoped = false := hscoped
      obtain rfl : inHunk = false := hin
      rw [step, if_neg (Bool.eq_false_iff.mp hline)]
      exact ite_self _
    rw [List.foldl_cons, hstep, ih hlines]

/-- Every line behind the last section that begins as a hunk does is counted as one. -/
theorem hunks_foldl {lines : List String}
    (h : ∀ line ∈ lines, startsWith line "diff --git " = false) :
    (lines.foldl step tally).paths = tally.paths ∧ (lines.foldl step tally).hunks
      = tally.hunks + if tally.currentScoped then lines.countP (startsWith · "@@") else 0 := by
  induction lines generalizing tally with
  | nil => simp
  | cons line lines ih =>
    obtain ⟨hline, hlines⟩ := List.forall_mem_cons.mp h
    have hstep : (tally.step line).paths = tally.paths ∧
        (tally.step line).currentScoped = tally.currentScoped ∧ (tally.step line).hunks
          = tally.hunks + if tally.currentScoped then (startsWith line "@@").toNat else 0 := by
      rw [step, if_neg (Bool.eq_false_iff.mp hline)]
      cases hhunk : startsWith line "@@" <;> cases hscoped : tally.currentScoped <;>
        cases hin : tally.inHunk <;> simp [count, hscoped]
    obtain ⟨hpaths, hscoped, hhunks⟩ := hstep
    obtain ⟨hpaths', hhunks'⟩ := @ih (tally.step line) hlines
    rw [List.foldl_cons, hpaths', hhunks', hpaths, hscoped, hhunks, List.countP_cons]
    refine ⟨rfl, ?_⟩
    cases tally.currentScoped <;> cases startsWith line "@@" <;> simp [Nat.add_assoc, Nat.add_comm]

end Tally

/-! ## The totals -/

namespace FileSection

/-- The scanner counts the section. -/
def isSeen (file : FileSection) : Bool := file.inScope && isSimplePath file.newPath

theorem headerPath_eq (file : FileSection) :
    headerPath file.header = if file.isSeen then some file.newPath else none := headerPath_header file

end FileSection

namespace Tally

variable {tally : Tally}

theorem foldl_countSection (sections : List FileSection) :
    (sections.foldl countSection tally).paths
        = tally.paths ∪ ((sections.filter FileSection.isSeen).map FileSection.newPath).toFinset ∧
      (sections.foldl countSection tally).hunks
        = tally.hunks + ((sections.filter FileSection.isSeen).map (·.hunks.length)).sum ∧
      (sections.foldl countSection tally).additions
        = tally.additions + ((sections.filter FileSection.isSeen).map
          (·.hunkLines.countP HunkLine.isCountedAddition)).sum ∧
      (sections.foldl countSection tally).deletions
        = tally.deletions + ((sections.filter FileSection.isSeen).map
          (·.hunkLines.countP HunkLine.isCountedDeletion)).sum := by
  induction sections generalizing tally with
  | nil => simp
  | cons file sections ih =>
    obtain ⟨hpaths, hhunks, hadditions, hdeletions⟩ := @ih (tally.countSection file)
    rw [List.foldl_cons, hpaths, hhunks, hadditions, hdeletions]
    cases hseen : file.isSeen with
    | true =>
      simp [countSection, FileSection.headerPath_eq, hseen, Finset.insert_union, Nat.add_assoc]
    | false => simp [countSection, FileSection.headerPath_eq, hseen]

/-- Where the scanner is behind the last section. -/
theorem foldl_countSection_last (sections : List FileSection) :
    (sections.foldl countSection tally).currentScoped
        = sections.getLast?.elim tally.currentScoped FileSection.isSeen ∧
      (sections.foldl countSection tally).inHunk
        = sections.getLast?.elim tally.inHunk fun file => file.isSeen && !file.hunks.isEmpty := by
  rcases List.eq_nil_or_concat sections with rfl | ⟨init, file, rfl⟩
  · exact ⟨rfl, rfl⟩
  · rw [List.concat_eq_append, List.foldl_append, List.getLast?_concat]
    simp only [List.foldl_cons, List.foldl_nil, countSection, FileSection.headerPath_eq,
      Option.elim_some]
    cases file.isSeen <;> simp

end Tally

namespace Patch

variable (patch : Patch)

/-- The last section is in scope. -/
def EndsInScope : Prop := ∃ file ∈ patch.sections.getLast?, file.inScope = true

/-- The scanner takes the signature for lines of a hunk: the last section is in scope and has one. -/
def EndsInHunk : Prop := ∃ file ∈ patch.sections.getLast?, file.inScope = true ∧ file.hunks ≠ []

instance : Decidable patch.EndsInHunk :=
  match h : patch.sections.getLast? with
  | none => isFalse fun ⟨_, hfile, _⟩ => by simp [h] at hfile
  | some file => decidable_of_iff (file.inScope = true ∧ file.hunks.isEmpty = false) (by
      simp [EndsInHunk, h])

/-- The lines behind the patch that are taken for lines of its last hunk. -/
def exposed : List String := if patch.EndsInHunk then patch.trailer else []

/-- When the counts are right. -/
structure CountedRight : Prop where
  simple : ∀ file ∈ patch.sectionsInScope, isSimplePath file.newPath = true
  no_hunk : patch.EndsInScope → ∀ line ∈ patch.trailer, startsWith line "@@" = false
  additions : (patch.sectionsInScope.map (·.hunkLines.countP HunkLine.isHiddenAddition)).sum
    = patch.exposed.countP looksAdded
  deletions : (patch.sectionsInScope.map (·.hunkLines.countP HunkLine.isHiddenDeletion)).sum
    = patch.exposed.countP looksRemoved

variable {patch}

theorem trailer_no_header :
    ∀ line ∈ patch.trailer, startsWith line "diff --git " = false :=
  List.forall_mem_cons.mpr ⟨by decide, patch.signature_no_header⟩

/-- Some of the elements that are counted are hidden. -/
theorem sum_countP {visible hidden all : HunkLine → Bool}
    (h : ∀ line, (all line).toNat = (visible line).toNat + (hidden line).toNat)
    (sections : List FileSection) :
    (sections.map (·.hunkLines.countP all)).sum
      = (sections.map (·.hunkLines.countP visible)).sum
        + (sections.map (·.hunkLines.countP hidden)).sum := by
  rw [← List.sum_map_add]
  refine congrArg List.sum (List.map_congr_left fun file _ => ?_)
  induction file.hunkLines with
  | nil => rfl
  | cons line lines ih =>
    have hline := h line
    rw [List.countP_cons, List.countP_cons, List.countP_cons, ih]
    cases hall : all line <;> cases hvisible : visible line <;> cases hhidden : hidden line <;>
      simp [hall, hvisible, hhidden] at hline ⊢ <;> omega

theorem toNat_isAddition (line : HunkLine) : line.isAddition.toNat
    = line.isCountedAddition.toNat + line.isHiddenAddition.toNat := by
  cases line with
  | added text => cases h : startsWith text "++" <;>
      simp [HunkLine.isAddition, HunkLine.isCountedAddition, HunkLine.isHiddenAddition, h]
  | _ => rfl

theorem toNat_isDeletion (line : HunkLine) : line.isDeletion.toNat
    = line.isCountedDeletion.toNat + line.isHiddenDeletion.toNat := by
  cases line with
  | removed text => cases h : startsWith text "--" <;>
      simp [HunkLine.isDeletion, HunkLine.isCountedDeletion, HunkLine.isHiddenDeletion, h]
  | _ => rfl

/-- The scanner sees every section in scope when their paths are simple. -/
theorem filter_isSeen (h : ∀ file ∈ patch.sectionsInScope, isSimplePath file.newPath = true) :
    patch.sections.filter FileSection.isSeen = patch.sectionsInScope := by
  refine List.filter_congr fun file hfile => ?_
  rw [FileSection.isSeen]
  cases hscope : file.inScope with
  | false => rfl
  | true => rw [h file (List.mem_filter.mpr ⟨hfile, hscope⟩)]; rfl

/-- The number of files is right when it sees all of them. -/
theorem card_isSeen_iff :
    ((patch.sections.filter FileSection.isSeen).map FileSection.newPath).toFinset.card
        = patch.totals.files
      ↔ ∀ file ∈ patch.sectionsInScope, isSimplePath file.newPath = true := by
  constructor
  · intro hcard file hfile
    have hsub : ((patch.sections.filter FileSection.isSeen).map FileSection.newPath).toFinset
        ⊆ (patch.sectionsInScope.map FileSection.newPath).toFinset := by
      intro path hpath
      obtain ⟨file, hfile, rfl⟩ := List.mem_map.mp (List.mem_toFinset.mp hpath)
      obtain ⟨hmem, hseen⟩ := List.mem_filter.mp hfile
      exact List.mem_toFinset.mpr (List.mem_map_of_mem
        (List.mem_filter.mpr ⟨hmem, (Bool.and_eq_true_iff.mp hseen).1⟩))
    have heq := Finset.eq_of_subset_of_card_le hsub hcard.ge
    have hpath : file.newPath ∈ (patch.sectionsInScope.map FileSection.newPath).toFinset :=
      List.mem_toFinset.mpr (List.mem_map_of_mem hfile)
    rw [← heq] at hpath
    obtain ⟨other, hother, hnewPath⟩ := List.mem_map.mp (List.mem_toFinset.mp hpath)
    rw [← hnewPath]
    exact (Bool.and_eq_true_iff.mp (List.mem_filter.mp hother).2).2
  · intro hsimple
    rw [filter_isSeen hsimple]
    rfl

/-- What the scanner has counted behind the last section. -/
def sectionTally (patch : Patch) : Tally := patch.sections.foldl Tally.countSection Scan.start.tally

theorem foldl_lines : patch.lines.foldl Tally.step Scan.start.tally
    = patch.trailer.foldl Tally.step patch.sectionTally := by
  rw [lines, List.foldl_append, Tally.foldl_preamble rfl rfl patch.preamble_no_header,
    List.foldl_append, Tally.foldl_sections]
  rfl

section Simple

variable (hsimple : ∀ file ∈ patch.sectionsInScope, isSimplePath file.newPath = true)
include hsimple

theorem isSeen_eq {file : FileSection} (hfile : file ∈ patch.sections) :
    file.isSeen = file.inScope := by
  rw [FileSection.isSeen]
  cases hscope : file.inScope with
  | false => rfl
  | true => rw [hsimple file (List.mem_filter.mpr ⟨hfile, hscope⟩)]; rfl

theorem endsInScope_iff : patch.sectionTally.currentScoped = true ↔ patch.EndsInScope := by
  rw [sectionTally, (Tally.foldl_countSection_last _).1, EndsInScope]
  cases hlast : patch.sections.getLast? with
  | none => simp [Scan.start, Scan.tally]
  | some file => simp [isSeen_eq hsimple (List.mem_of_getLast? hlast)]

theorem endsInHunk_iff : (patch.sectionTally.currentScoped && patch.sectionTally.inHunk) = true
    ↔ patch.EndsInHunk := by
  rw [sectionTally, (Tally.foldl_countSection_last _).1, (Tally.foldl_countSection_last _).2,
    EndsInHunk]
  cases hlast : patch.sections.getLast? with
  | none => simp [Scan.start, Scan.tally]
  | some file => simp [isSeen_eq hsimple (List.mem_of_getLast? hlast)]

/-- The signature, when no line of it begins as a hunk does. -/
theorem foldl_trailer
    (hhunk : patch.EndsInScope → ∀ line ∈ patch.trailer, startsWith line "@@" = false) :
    patch.trailer.foldl Tally.step patch.sectionTally = { patch.sectionTally with
      additions := patch.sectionTally.additions + patch.exposed.countP looksAdded
      deletions := patch.sectionTally.deletions + patch.exposed.countP looksRemoved } := by
  by_cases hends : patch.EndsInHunk
  · have hheader : ∀ line ∈ patch.trailer,
        startsWith line "diff --git " = false ∧ startsWith line "@@" = false := by
      obtain ⟨file, hfile, hscope, -⟩ := hends
      exact fun line hline => ⟨trailer_no_header line hline, hhunk ⟨file, hfile, hscope⟩ line hline⟩
    rw [Tally.foldl_count ((endsInHunk_iff hsimple).mpr hends) hheader, exposed, if_pos hends]
  · have hskip : (patch.sectionTally.currentScoped && patch.sectionTally.inHunk) = false :=
      Bool.eq_false_iff.mpr fun h => hends ((endsInHunk_iff hsimple).mp h)
    rw [exposed, if_neg hends]
    by_cases hscope : patch.EndsInScope
    · exact Tally.foldl_skip hskip fun line hline =>
        ⟨trailer_no_header line hline, hhunk hscope line hline⟩
    · have hscoped : patch.sectionTally.currentScoped = false :=
        Bool.eq_false_iff.mpr fun h => hscope ((endsInScope_iff hsimple).mp h)
      have hin : patch.sectionTally.inHunk = false := by
        rw [sectionTally, (Tally.foldl_countSection_last _).1] at hscoped
        rw [sectionTally, (Tally.foldl_countSection_last _).2]
        cases hlast : patch.sections.getLast? with
        | none => rfl
        | some file =>
          rw [hlast] at hscoped
          rw [Option.elim_some] at hscoped ⊢
          rw [hscoped, Bool.false_and]
      exact Tally.foldl_preamble hscoped hin trailer_no_header

end Simple

end Patch

def cancelHunk : Hunk where
  oldStart := 10
  oldCount := 2
  newStart := 10
  newCount := 3
  heading := " static int cancel_one(struct req *req)"
  body := [.context "if (!req)", .removed "return 0;", .added "return -EINVAL;", .added "return 0;"]
  oldCount_eq := by decide
  newCount_eq := by decide

/-- A change to one file. -/
def changed (path : String) : FileSection where
  oldPath := path
  newPath := path
  extended := ["index 1..2 100644"]
  hunks := [cancelHunk]
  extended_no_header := by decide

def cancelPatch : Patch where
  preamble := ["Check the request."]
  sections := [changed "io_uring/cancel.c"]
  signature := ["2.43.0"]
  preamble_no_header := by decide
  signature_no_header := by decide

/-- The same change, with one to a test behind it. -/
def testedPatch : Patch where
  preamble := ["Check the request."]
  sections := [changed "io_uring/cancel.c", changed "test/cancel.c"]
  signature := ["2.43.0"]
  preamble_no_header := by decide
  signature_no_header := by decide

/-- `sanitize_text` on a text of printable characters. -/
def firstCharacters (text : String) (limit : ℕ) : String := String.ofList (text.toList.take limit)

end IouAi.Lkml
