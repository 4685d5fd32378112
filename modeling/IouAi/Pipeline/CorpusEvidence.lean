import IouAi.Contract.Build
import IouAi.Pipeline.CorpusProfile
import IouAi.Storage.Stores
import IouAi.Wire.Texts

/-!
# The operation profile as evidence

The telemetry builder reads the written profile as an untrusted file. Its bounds are its own: no
counter may be above a million, while the profiler may sample more than 32,000 seeds of up to 96
operations each.
-/

namespace IouAi.Corpus

open Checks Models Storage Wire

/-! ## The reader -/

inductive TelemetryError
  | telemetry (message : String)
  | typeError
  deriving DecidableEq

structure Evidence where
  evidenceRef : String
  kind : String
  summary : String
  observationCount : ℤ
  deriving DecidableEq

/-- What opening the file of the profile gives. -/
inductive ProfileFile
  | missing
  | unavailable
  | opened (regular : Bool) (size : ℕ) (content : Bytes)

def maxProfileBytes : ℕ := 32 * 1024

def maxCounter : ℤ := 1000000

def numericNames : List String :=
  ["sampled_files", "readable_files", "canonical_inputs", "decoded_operations", "skipped_files",
    "minimum_observations"]

def requiredNames : List String :=
  "schema_version" :: "status" :: "least_observed_operations" :: numericNames

/-- `[a-z][a-z0-9_]*`. -/
def isOperationName (text : String) : Bool :=
  match text.toList with
  | [] => false
  | c :: cs => isSymbolHead c && cs.all isSymbolChar

def textOf : Option Json → Option String
  | some (.str text) => some text
  | _ => none

def isUnhashable : Option Json → Bool
  | some (.arr _) | some (.obj _) => true
  | _ => false

def isCounter : Option Json → Bool
  | some (.num n) => 0 ≤ n && n ≤ maxCounter
  | _ => false

def numberOf : Option Json → ℤ
  | some (.num n) => n
  | _ => 0

/-- The names of the operations, of a list of at most twenty-four names. -/
def namesOf : Option Json → Option (List String)
  | some (.arr items) =>
    if items.length ≤ 24 then
      items.mapM fun item => (textOf (some item)).filter isOperationName
    else none
  | _ => none

/-- The checks on the fields of a profile, and the evidence. -/
def evidenceOf (contract : HarnessContract) (fields : List (String × Json)) :
    Except TelemetryError (Option Evidence) := do
  let value := Json.lookup fields
  let number := fun name => numberOf (value name)
  let invalid := TelemetryError.telemetry "corpus operation profile has invalid fields"
  raiseIf (textOf (value "schema_version") ≠ some "corpus-operation-profile.v1") invalid
  raiseIf (isUnhashable (value "status") = true) .typeError
  raiseIf (textOf (value "status") ∉ [some "available", some "unavailable"]) invalid
  raiseIf (¬ ∀ name ∈ numericNames, isCounter (value name) = true) invalid
  match namesOf (value "least_observed_operations") with
  | none => throw invalid
  | some names =>
    raiseIf (¬ names.Nodup) (.telemetry "corpus operation profile repeats an operation")
    raiseIf (¬ ∀ name ∈ names, name ∈ contract.operations.map HarnessOperation.symbol)
      (.telemetry "corpus operation profile names an unknown operation")
    if textOf (value "status") ≠ some "available" then
      raiseIf ((∃ name ∈ numericNames, number name ≠ 0) ∨ names ≠ [])
        (.telemetry "unavailable corpus profile contains measurements")
      return none
    if number "canonical_inputs" = 0 ∨ number "decoded_operations" = 0 ∨ names = [] then return none
    raiseIf (number "sampled_files" < number "readable_files" ∨
        number "readable_files" < number "canonical_inputs")
      (.telemetry "corpus operation profile counters are inconsistent")
    return some {
      evidenceRef := "evidence:fleet-corpus-operation-profile"
      kind := "corpus_shape"
      summary := "A bounded local sample decoded " ++ toString (number "canonical_inputs")
        ++ " canonical inputs and " ++ toString (number "decoded_operations")
        ++ " operations. Least-observed contract operations: " ++ ",".intercalate names
        ++ ". This is operation-frequency evidence, not edge coverage."
      observationCount := number "canonical_inputs" }

/-- `load_corpus_operation_evidence`. -/
def loadCorpusOperationEvidence (loads : Parse Json) (contract : HarnessContract) :
    ProfileFile → Except TelemetryError (Option Evidence)
  | .missing => .ok none
  | .unavailable => .error (.telemetry "corpus operation profile is unavailable")
  | .opened regular size content => do
    raiseIf (regular = false ∨ maxProfileBytes < size)
      (.telemetry "corpus operation profile has invalid file bounds")
    let raw := content.take (maxProfileBytes + 1)
    raiseIf (maxProfileBytes < raw.length)
      (.telemetry "corpus operation profile exceeds its size bound")
    match loads raw with
    | none => throw (.telemetry "corpus operation profile is not valid JSON")
    | some (.obj fields) =>
      raiseIf (¬ ((∀ name ∈ fields.map Prod.fst, name ∈ requiredNames) ∧
          ∀ name ∈ requiredNames, name ∈ fields.map Prod.fst))
        (.telemetry "corpus operation profile has the wrong schema")
      evidenceOf contract fields
    | some _ => throw (.telemetry "corpus operation profile has the wrong schema")

/-! ## What is written -/

namespace CorpusOperationProfile

def payload (profile : CorpusOperationProfile) : Bytes := canonicalJson (.obj profile.document)

/-- The file that the profiler writes. -/
def file (profile : CorpusOperationProfile) : ProfileFile :=
  .opened true profile.payload.length profile.payload

end CorpusOperationProfile

/-- `json.loads` reads back the object that was written, in whatever order. -/
def ReadsBack (loads : Parse Json) (profile : CorpusOperationProfile) : Prop :=
  ∃ fields, loads profile.payload = some (.obj fields) ∧ fields.Perm profile.document

/-- The names of a profile are names of the contract. -/
structure NamesKnown (contract : HarnessContract) (names : List String) : Prop where
  length_le : names.length ≤ 24
  symbols : ∀ name ∈ names, isSymbol name = true
  nodup : names.Nodup
  known : ∀ name ∈ names, name ∈ contract.operations.map HarnessOperation.symbol

/-- The counters of a profile are within the bound of the reader. -/
def Bounded (profile : CorpusOperationProfile) : Prop :=
  ∀ n ∈ [profile.sampledFiles, profile.readableFiles, profile.canonicalInputs,
    profile.decodedOperations, profile.skippedFiles, profile.minimumObservations], n ≤ 1000000

section Read

variable {contract : HarnessContract} {profile : CorpusOperationProfile}
  {fields : List (String × Json)}

theorem nodup_document : (profile.document.map Prod.fst).Nodup := by
  change ["schema_version", "status", "sampled_files", "readable_files", "canonical_inputs",
    "decoded_operations", "skipped_files", "least_observed_operations",
    "minimum_observations"].Nodup
  decide +kernel

theorem isOperationName_of_isSymbol {text : String} (h : isSymbol text = true) :
    isOperationName text = true := by
  unfold isSymbol at h
  unfold isOperationName
  cases hchars : text.toList with
  | nil => rw [hchars] at h; cases h
  | cons c cs =>
    rw [hchars] at h
    simp only [Bool.and_eq_true] at h ⊢
    exact ⟨h.1.1, h.2⟩

/-- The names of a profile are read back. -/
theorem namesOf_names {names : List String} (hnames : NamesKnown contract names) :
    namesOf (some (.arr (names.map .str))) = some names := by
  have hread : (names.map Json.str).mapM (fun item => (textOf (some item)).filter isOperationName)
      = some names := by
    have hsymbols := hnames.symbols
    clear hnames
    induction names with
    | nil => rfl
    | cons name names ih =>
      obtain ⟨hname, hrest⟩ := List.forall_mem_cons.mp hsymbols
      have hfilter : (textOf (some (.str name))).filter isOperationName = some name :=
        Option.filter_eq_some_iff.mpr ⟨rfl, isOperationName_of_isSymbol hname⟩
      rw [List.map_cons, List.mapM_cons, ih hrest, hfilter]
      rfl
  rw [namesOf, List.length_map, if_pos hnames.length_le, hread]

section Lookup

variable (profile)

/-- The fields of a written profile. -/
theorem lookup_document :
    Json.lookup profile.document "schema_version" = some (.str "corpus-operation-profile.v1") ∧
      Json.lookup profile.document "status" = some (.str profile.status) ∧
      Json.lookup profile.document "sampled_files" = some (.num profile.sampledFiles) ∧
      Json.lookup profile.document "readable_files" = some (.num profile.readableFiles) ∧
      Json.lookup profile.document "canonical_inputs" = some (.num profile.canonicalInputs) ∧
      Json.lookup profile.document "decoded_operations" = some (.num profile.decodedOperations) ∧
      Json.lookup profile.document "skipped_files" = some (.num profile.skippedFiles) ∧
      Json.lookup profile.document "least_observed_operations"
        = some (.arr (profile.leastObservedOperations.map .str)) ∧
      Json.lookup profile.document "minimum_observations"
        = some (.num profile.minimumObservations) := by
  simp [Json.lookup, CorpusOperationProfile.document]

end Lookup

theorem isCounter_num {n : ℕ} : isCounter (some (.num n)) = true ↔ n ≤ 1000000 := by
  rw [isCounter, Bool.and_eq_true, decide_eq_true_eq, decide_eq_true_eq, maxCounter]
  omega

theorem counters_iff :
    (∀ name ∈ numericNames, isCounter (Json.lookup profile.document name) = true)
      ↔ Bounded profile := by
  obtain ⟨-, -, hsampled, hreadable, hcanonical, hdecoded, hskipped, -, hminimum⟩ :=
    lookup_document profile
  simp only [numericNames, Bounded, List.forall_mem_cons, hsampled, hreadable, hcanonical, hdecoded,
    hskipped, hminimum, isCounter_num, List.not_mem_nil, false_imp_iff, implies_true]

theorem number_unavailable : ∀ name ∈ numericNames,
    numberOf (Json.lookup CorpusOperationProfile.unavailable.document name) = 0 := by
  decide +kernel

/-- **The reader accepts the fields of a profile exactly when its counters are bounded.** -/
theorem evidenceOf_isOk_iff (hfields : fields.Perm profile.document)
    (hnames : NamesKnown contract profile.leastObservedOperations)
    (hstatus : profile.status = "available" ∧ profile.canonicalInputs ≤ profile.readableFiles ∧
        profile.readableFiles ≤ profile.sampledFiles ∨ profile = .unavailable) :
    (∃ evidence, evidenceOf contract fields = .ok evidence) ↔ Bounded profile := by
  have hlookup : Json.lookup fields = Json.lookup profile.document :=
    funext fun key => Json.lookup_of_perm hfields nodup_document key
  obtain ⟨hversion, hstatusField, hsampled, hreadable, hcanonical, -, -, hleast, -⟩ :=
    lookup_document profile
  have hknown : textOf (some (.str profile.status)) ∈ [some "available", some "unavailable"] := by
    rcases hstatus with ⟨h, -, -⟩ | rfl
    · simp [textOf, h]
    · simp [textOf, CorpusOperationProfile.unavailable]
  rw [← counters_iff]
  unfold evidenceOf
  dsimp only
  rw [hlookup, hversion, hstatusField, hleast, namesOf_names hnames]
  by_cases hcounters : ∀ name ∈ numericNames, isCounter (Json.lookup profile.document name) = true
  · refine iff_of_true ?_ hcounters
    rw [raiseIf_bind_of_not (by simp [textOf]), raiseIf_bind_of_not (by simp [isUnhashable]),
      raiseIf_bind_of_not (not_not.mpr hknown), raiseIf_bind_of_not (not_not.mpr hcounters)]
    dsimp only
    rw [raiseIf_bind_of_not (not_not.mpr hnames.nodup),
      raiseIf_bind_of_not (not_not.mpr hnames.known)]
    rcases hstatus with ⟨havailable, hcanonicalLe, hreadableLe⟩ | rfl
    · rw [if_neg (by simp [textOf, havailable])]
      split_ifs with hempty
      · exact ⟨none, rfl⟩
      · rw [raiseIf_bind_of_not]
        · exact ⟨_, rfl⟩
        · rw [hsampled, hreadable, hcanonical]
          simp only [numberOf]
          omega
    · rw [if_pos (by simp [textOf, CorpusOperationProfile.unavailable]), raiseIf_bind_of_not]
      · exact ⟨none, rfl⟩
      · rintro (⟨name, hname, hne⟩ | hne)
        · exact hne (number_unavailable name hname)
        · exact hne rfl
  · refine iff_of_false ?_ hcounters
    rintro ⟨evidence, h⟩
    rw [raiseIf_bind_of_not (by simp [textOf]), raiseIf_bind_of_not (by simp [isUnhashable]),
      raiseIf_bind_of_not (not_not.mpr hknown), raiseIf_bind_eq_ok] at h
    exact h.1 hcounters

/-! ### The file is short -/

/-- A bounded profile fits into the file that the reader accepts. -/
theorem length_payload_le (hnames : NamesKnown contract profile.leastObservedOperations)
    (hstatus : profile.status.toList.length ≤ 11) (hbounded : Bounded profile) :
    profile.payload.length ≤ maxProfileBytes := by
  have hkeys : ["schema_version", "status", "sampled_files", "readable_files", "canonical_inputs",
      "decoded_operations", "skipped_files", "least_observed_operations",
      "minimum_observations"].Nodup ∧ ∀ key ∈ ["schema_version", "status", "sampled_files",
      "readable_files", "canonical_inputs", "decoded_operations", "skipped_files",
      "least_observed_operations", "minimum_observations"], key.toList.length ≤ 26 := by
    decide +kernel
  have hnum : ∀ {n : ℕ}, n ≤ 1000000 → (canonicalJson (.num n)).length ≤ 28 := fun h =>
    length_canonicalJson_num_le (by decide : 0 < 7) (Nat.lt_of_le_of_lt h (by decide))
  have hversion := length_canonicalJson_str "corpus-operation-profile.v1"
  have hlength : "corpus-operation-profile.v1".toList.length = 27 := by decide +kernel
  rw [hlength] at hversion
  have hstatusLength := (length_canonicalJson_str profile.status).trans
    (Nat.add_le_add_right (Nat.mul_le_mul_left 12 hstatus) 2)
  have hleast : (canonicalJson (.arr (profile.leastObservedOperations.map .str))).length
      ≤ 2 + 24 * 963 := by
    refine (length_canonicalJson_arr (n := 962) ?_).trans ?_
    · intro item hitem
      obtain ⟨name, hname, rfl⟩ := List.mem_map.mp hitem
      have hsymbol := length_of_isSymbol (hnames.symbols name hname)
      have htext := length_canonicalJson_str name
      omega
    · rw [List.length_map]
      have := hnames.length_le
      omega
  simp only [Bounded, List.forall_mem_cons] at hbounded
  obtain ⟨hsampled, hreadable, hcanonical, hdecoded, hskipped, hminimum, -⟩ := hbounded
  refine le_trans (length_canonicalJson_obj hkeys.1 hkeys.2 rfl
    (B := [326, 134, 28, 28, 28, 28, 28, 2 + 24 * 963, 28]) ?_) (by decide)
  exact .cons hversion (.cons hstatusLength (.cons (hnum hsampled) (.cons (hnum hreadable)
    (.cons (hnum hcanonical) (.cons (hnum hdecoded) (.cons (hnum hskipped) (.cons hleast
    (.cons (hnum hminimum) .nil))))))))

/-- **The reader accepts a written profile exactly when its counters are bounded.** -/
theorem loadCorpusOperationEvidence_isOk_iff {loads : Parse Json} (hreads : ReadsBack loads profile)
    (hnames : NamesKnown contract profile.leastObservedOperations)
    (hstatus : profile.status = "available" ∧ profile.canonicalInputs ≤ profile.readableFiles ∧
        profile.readableFiles ≤ profile.sampledFiles ∨ profile = .unavailable) :
    (∃ evidence, loadCorpusOperationEvidence loads contract profile.file = .ok evidence)
      ↔ Bounded profile := by
  obtain ⟨fields, hloads, hfields⟩ := hreads
  have hlength : profile.status.toList.length ≤ 11 := by
    rcases hstatus with ⟨h, -, -⟩ | rfl
    · rw [h]
      decide +kernel
    · decide +kernel
  have hkeys : (∀ name ∈ fields.map Prod.fst, name ∈ requiredNames) ∧
      ∀ name ∈ requiredNames, name ∈ fields.map Prod.fst := by
    have hperm : (fields.map Prod.fst).Perm (profile.document.map Prod.fst) := hfields.map _
    have hrequired : (∀ name ∈ profile.document.map Prod.fst, name ∈ requiredNames) ∧
        ∀ name ∈ requiredNames, name ∈ profile.document.map Prod.fst := by
      simp [CorpusOperationProfile.document, requiredNames, numericNames]
    exact ⟨fun name hname => hrequired.1 name (hperm.mem_iff.mp hname),
      fun name hname => hperm.mem_iff.mpr (hrequired.2 name hname)⟩
  rw [CorpusOperationProfile.file, loadCorpusOperationEvidence]
  constructor
  · rintro ⟨evidence, h⟩
    obtain ⟨hbounds, hrest⟩ := raiseIf_bind_eq_ok.mp h
    have htake : profile.payload.take (maxProfileBytes + 1) = profile.payload :=
      List.take_of_length_le (by omega)
    obtain ⟨-, hread⟩ := raiseIf_bind_eq_ok.mp hrest
    rw [htake, hloads] at hread
    exact (evidenceOf_isOk_iff hfields hnames hstatus).mp
      ⟨evidence, (raiseIf_bind_eq_ok.mp hread).2⟩
  · intro hbounded
    have hshort := length_payload_le hnames hlength hbounded
    obtain ⟨evidence, hevidence⟩ := (evidenceOf_isOk_iff hfields hnames hstatus).mpr hbounded
    have htake : profile.payload.take (maxProfileBytes + 1) = profile.payload :=
      List.take_of_length_le (by omega)
    refine ⟨evidence, ?_⟩
    rw [raiseIf_bind_of_not (by simpa using hshort)]
    dsimp only
    rw [htake, raiseIf_bind_of_not (by omega), hloads]
    exact (raiseIf_bind_of_not (not_not.mpr hkeys)).trans hevidence

end Read

/-! ## The profile of a sample -/

section Sample

variable {contract : HarnessContract} {files : List Candidate} {leastLimit : ℕ}

theorem length_queueFiles_le {root : CorpusRoot} {maxWorkers maxPerWorker : ℕ}
    (h : queueFiles root maxWorkers maxPerWorker = .ok files) :
    files.length ≤ maxWorkers * maxPerWorker := by
  have hworker : ∀ worker, (workerFiles maxPerWorker worker).length ≤ maxPerWorker := by
    intro worker
    unfold workerFiles
    split
    · split
      · exact Nat.zero_le _
      · exact (List.length_filter_le _ _).trans (List.length_take_le _ _)
    · exact Nat.zero_le _
  rw [queueFiles] at h
  have hrest := (raiseIf_bind_eq_ok.mp h).2
  cases hlisting : root.listing with
  | none =>
    rw [hlisting] at hrest
    cases hrest
  | some entries =>
    rw [hlisting] at hrest
    cases hrest
    rw [List.length_flatMap]
    refine (List.sum_le_card_nsmul _ maxPerWorker ?_).trans ?_
    · intro n hn
      obtain ⟨worker, -, rfl⟩ := List.mem_map.mp hn
      exact hworker worker
    · rw [List.length_map]
      change List.length _ * maxPerWorker ≤ _
      exact Nat.mul_le_mul_right _ (List.length_take_le _ _)

theorem namesKnown_profileOf (hleast : leastLimit ≤ 24)
    (hsymbols : ∀ operation ∈ contract.operations, isSymbol operation.symbol = true) :
    NamesKnown contract (profileOf contract files leastLimit).leastObservedOperations := by
  have hperm : ((byCount (symbolCounts contract files)).map Prod.fst).Perm
      (contract.operations.map HarnessOperation.symbol) := by
    have h := (List.perm_insertionSort (fun entry other : String × ℕ =>
      entry.2 < other.2 ∨ entry.2 = other.2 ∧ entry.1 ≤ other.1)
        (symbolCounts contract files)).map Prod.fst
    have hsymbols : (symbolCounts contract files).map Prod.fst
        = contract.operations.map HarnessOperation.symbol := by
      rw [symbolCounts, List.map_map]
      rfl
    rwa [hsymbols] at h
  have hsub : (((byCount (symbolCounts contract files)).take leastLimit).map Prod.fst).Sublist
      ((byCount (symbolCounts contract files)).map Prod.fst) := (List.take_sublist _ _).map _
  have hknown : ∀ name ∈ ((byCount (symbolCounts contract files)).take leastLimit).map Prod.fst,
      name ∈ contract.operations.map HarnessOperation.symbol :=
    fun name hname => hperm.mem_iff.mp (hsub.subset hname)
  refine ⟨?_, ?_, ?_, hknown⟩
  · change (((byCount (symbolCounts contract files)).take leastLimit).map Prod.fst).length ≤ 24
    rw [List.length_map]
    exact (List.length_take_le _ _).trans hleast
  · intro name hname
    obtain ⟨operation, hoperation, rfl⟩ := List.mem_map.mp (hknown name hname)
    exact hsymbols operation hoperation
  · exact hsub.nodup (hperm.nodup_iff.mpr contract.operationSymbols_nodup)

/-- The counters of the profile of a sample are bounded by the operations that were decoded. -/
theorem bounded_profileOf (havailable : isAvailable contract = true) (hnamed : Named contract files)
    (hfiles : files.length ≤ 64 * 512) :
    Bounded (profileOf contract files leastLimit)
      ↔ (decodedOperations contract files).length ≤ 1000000 := by
  have hprofile : IsProfileOf contract files leastLimit (profileOf contract files leastLimit) :=
    isProfileOf_profileOf havailable hnamed
  have hsampled : (profileOf contract files leastLimit).sampledFiles = files.length := rfl
  have hdecoded : (profileOf contract files leastLimit).decodedOperations
      = (decodedOperations contract files).length := rfl
  have hsplit := hprofile.sampled_eq
  have hcanonical := hprofile.canonical_le
  have hminimum : (profileOf contract files leastLimit).minimumObservations
      ≤ (decodedOperations contract files).length := by
    rw [hprofile.minimum, ← sum_symbolCounts havailable hnamed]
    cases hmin : ((symbolCounts contract files).map Prod.snd).min? with
    | none => exact Nat.zero_le _
    | some least => exact List.single_le_sum (fun _ _ => Nat.zero_le _) _ (List.min?_mem hmin)
  simp only [Bounded, List.forall_mem_cons, List.not_mem_nil, false_imp_iff, implies_true, and_true]
  constructor
  · exact fun h => hdecoded ▸ h.2.2.2.1
  · intro h
    refine ⟨?_, ?_, ?_, ?_, ?_, ?_⟩ <;> omega

end Sample

/-- What a profile says of a sample, when the contract can name it. -/
def Describes (contract : HarnessContract) (files : List Candidate) (leastLimit : ℕ)
    (profile : CorpusOperationProfile) : Prop :=
  if isAvailable contract = true then IsProfileOf contract files leastLimit profile
  else profile = .unavailable

/-- The profile of a sample can be built and read. -/
def Profilable (contract : HarnessContract) (files : List Candidate) : Prop :=
  isAvailable contract = true →
    Named contract files ∧ (decodedOperations contract files).length ≤ 1000000

/-- **The profile is built, says what was sampled, and is read back exactly when** every operation of
the sample has a name in the contract and there are at most a million of them. -/
theorem buildOperationProfile_iff {contract : HarnessContract}
    (hsymbols : ∀ operation ∈ contract.operations, isSymbol operation.symbol = true)
    {root : CorpusRoot} {files : List Candidate} {maxWorkers maxPerWorker leastLimit : ℕ}
    (hworkers : 1 ≤ maxWorkers ∧ maxWorkers ≤ 64) (hper : 1 ≤ maxPerWorker ∧ maxPerWorker ≤ 512)
    (hleast : 1 ≤ leastLimit ∧ leastLimit ≤ 24)
    (hroot : queueFiles root maxWorkers maxPerWorker = .ok files) {loads : Parse Json}
    (hloads : ∀ profile, buildOperationProfile contract root maxWorkers maxPerWorker leastLimit
      = .ok profile → ReadsBack loads profile) :
    (∃ profile, buildOperationProfile contract root maxWorkers maxPerWorker leastLimit = .ok profile ∧
        Describes contract files leastLimit profile ∧
        ∃ evidence, loadCorpusOperationEvidence loads contract profile.file = .ok evidence)
      ↔ Profilable contract files := by
  have hfiles : files.length ≤ 64 * 512 :=
    (length_queueFiles_le hroot).trans (Nat.mul_le_mul hworkers.2 hper.2)
  by_cases havailable : isAvailable contract = true
  · have hbuild := fun profile => @buildOperationProfile_eq_ok contract root files maxWorkers
      maxPerWorker leastLimit hworkers hper hleast hroot havailable profile
    have hread : Named contract files →
        ((∃ evidence, loadCorpusOperationEvidence loads contract
            (profileOf contract files leastLimit).file = .ok evidence)
          ↔ (decodedOperations contract files).length ≤ 1000000) := by
      intro hnamed
      have hprofile := @isProfileOf_profileOf contract files leastLimit havailable hnamed
      rw [← @bounded_profileOf contract files leastLimit havailable hnamed hfiles]
      exact loadCorpusOperationEvidence_isOk_iff (hloads _ ((hbuild _).mpr ⟨hnamed, rfl⟩))
        (namesKnown_profileOf hleast.2 hsymbols)
        (.inl ⟨rfl, hprofile.canonical_le, hprofile.sampled_eq ▸ Nat.le_add_right _ _⟩)
    constructor
    · rintro ⟨profile, hprofile, -, hevidence⟩ _
      obtain ⟨hnamed, rfl⟩ := (hbuild profile).mp hprofile
      exact ⟨hnamed, (hread hnamed).mp hevidence⟩
    · intro hprofilable
      obtain ⟨hnamed, hdecoded⟩ := hprofilable havailable
      refine ⟨_, (hbuild _).mpr ⟨hnamed, rfl⟩, ?_, (hread hnamed).mpr hdecoded⟩
      rw [Describes, if_pos havailable]
      exact isProfileOf_profileOf havailable hnamed
  · have hbuild : buildOperationProfile contract root maxWorkers maxPerWorker leastLimit
        = .ok .unavailable := by
      rw [buildOperationProfile, raiseIf_bind_of_not (by omega), raiseIf_bind_of_not (by omega),
        if_pos (Bool.eq_false_iff.mpr havailable)]
      rfl
    refine iff_of_true ⟨_, hbuild, ?_, ?_⟩ fun h => absurd h havailable
    · rw [Describes, if_neg havailable]
    · refine (loadCorpusOperationEvidence_isOk_iff (hloads _ hbuild) ?_ (.inr rfl)).mpr ?_
      · exact ⟨Nat.zero_le _, fun _ h => absurd h List.not_mem_nil, List.nodup_nil,
          fun _ h => absurd h List.not_mem_nil⟩
      · simp [Bounded, CorpusOperationProfile.unavailable]

/-! ### One seed under a contract with one operation -/

def nopOperation : HarnessOperation :=
  .of "nop" 0 [] [] ["plain"] [.stableCoverage] ["success"]

/-- The production contract with the first operation of the harness only. -/
def nopContract : HarnessContract :=
  (Contract.buildContract
    ⟨HarnessCodec.auditedHarnessHash, "sha256:compiler", "sha256:table", "sha256:fleet"⟩
    ).withOperations 1 [nopOperation]

/-- A seed in the queue of a worker. -/
def seedOf (payload : Bytes) : Candidate :=
  ⟨"id_000001", some .regular, some ⟨.regular, payload.length, payload⟩⟩

def rootOf (payload : Bytes) : CorpusRoot :=
  ⟨some .directory, some [⟨"0", some .directory, ⟨some .directory, some [seedOf payload]⟩⟩]⟩

/-- Two operations of the contract. -/
def nopSeed : Bytes := [0, 0, 0, 0, 0]

def nopProfile : CorpusOperationProfile := ⟨"available", 1, 1, 1, 2, 0, ["nop"], 2⟩

theorem buildOperationProfile_iff_nop :
    ∃ profile, buildOperationProfile nopContract (rootOf nopSeed) 10 64 12 = .ok profile ∧
      Describes nopContract [seedOf nopSeed] 12 profile ∧
      ∃ evidence, loadCorpusOperationEvidence (fun _ => some (.obj nopProfile.document)) nopContract
        profile.file = .ok evidence := by
  have hbuild : buildOperationProfile nopContract (rootOf nopSeed) 10 64 12 = .ok nopProfile := by
    decide +kernel
  refine (buildOperationProfile_iff (by decide +kernel) (by decide) (by decide) (by decide) ?_
    ?_).mpr ?_
  · rfl
  · intro profile hprofile
    cases hbuild.symm.trans hprofile
    exact ⟨_, rfl, .refl _⟩
  · exact fun _ => ⟨by unfold Named; decide +kernel, by decide +kernel⟩

/-- A canonical seed with the second operation of the harness. -/
def foreignSeed : Bytes := [0, 1, 7, 0]

/-- The profiler raises a `KeyError` on the seed. -/
theorem foreign_seed_raises :
    (∀ operation ∈ nopContract.operations, isSymbol operation.symbol = true) ∧
      queueFiles (rootOf foreignSeed) 10 64 = .ok [seedOf foreignSeed] ∧
      buildOperationProfile nopContract (rootOf foreignSeed) 10 64 12 = .error (.keyError 1) :=
  ⟨by decide +kernel, rfl, by decide +kernel⟩

end IouAi.Corpus
