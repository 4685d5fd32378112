import IouAi.Contract.Models
import IouAi.Foundations.Dict
import IouAi.Foundations.Json
import IouAi.Harness.RoundTrip
import Mathlib.Algebra.BigOperators.Group.List.Basic
import Mathlib.Data.Finset.Card
import Mathlib.Data.Finset.Range
import Mathlib.Algebra.GroupWithZero.Nat

/-!
# The operation profile of the corpus

The profiler samples the queues of the fuzzing workers, decodes the seeds that are canonical for the
harness, and counts their operations under the names that the contract has for the selectors. The
selectors of the contract are then `0, …, n - 1`, where `n` may be less than the number of
operations of the harness: a seed with an operation that has no name ends the run with a `KeyError`.
-/

namespace IouAi.Corpus

open Checks HarnessCodec Models

/-! ## The queues -/

inductive FileKind
  | regular
  | directory
  | other
  deriving DecidableEq

/-- What an open file says of itself, and the bytes that can be read from it. -/
structure Opened where
  kind : FileKind
  size : ℕ
  content : Bytes

/-- An entry of a queue: its `lstat`, and what opening it gives. The fuzzers are at work, so the two
need not agree. -/
structure Candidate where
  name : String
  lstat : Option FileKind
  opened : Option Opened

structure Queue where
  lstat : Option FileKind
  listing : Option (List Candidate)

/-- An entry of the corpus root. -/
structure Worker where
  name : String
  lstat : Option FileKind
  queue : Queue

structure CorpusRoot where
  lstat : Option FileKind
  listing : Option (List Worker)

inductive ProfileError
  | corpus (message : String)
  | keyError (selector : ℤ)
  deriving DecidableEq

/-- `_plain_directory`. -/
def plainDirectory (lstat : Option FileKind) : Bool := lstat = some .directory

/-- `_read_seed`. -/
def readSeed (maxBytes : ℕ) (candidate : Candidate) : Option Bytes :=
  match candidate.opened with
  | none => none
  | some opened =>
    if opened.kind ≠ .regular ∨ ¬ (1 ≤ opened.size ∧ opened.size ≤ maxBytes) then none
    else
      let payload := opened.content.take (maxBytes + 1)
      if payload.length ≤ maxBytes then some payload else none

/-- `^[0-9]{1,3}$`. -/
def isWorkerName (name : String) : Bool :=
  1 ≤ name.toList.length && name.toList.length ≤ 3 && name.toList.all Char.isDigit

/-- `int(name)`. -/
def workerNumber (name : String) : ℕ :=
  name.toList.foldl (fun n c => 10 * n + (c.toNat - '0'.toNat)) 0

/-- The sample of one worker: the regular files among the last names of its queue. -/
def workerFiles (maxPerWorker : ℕ) (worker : Worker) : List Candidate :=
  if plainDirectory worker.queue.lstat then
    match worker.queue.listing with
    | none => []
    | some files =>
      ((files.insertionSort fun file other => other.name ≤ file.name).take maxPerWorker).filter
        fun candidate => candidate.lstat = some .regular
  else []

/-- `_queue_files`, read to its end. -/
def queueFiles (root : CorpusRoot) (maxWorkers maxPerWorker : ℕ) :
    Except ProfileError (List Candidate) := do
  raiseIf (plainDirectory root.lstat = false) (.corpus "corpus root is unavailable")
  match root.listing with
  | none => throw (.corpus "corpus root cannot be listed")
  | some entries =>
    let workers := entries.filter fun worker =>
      isWorkerName worker.name && plainDirectory worker.lstat
    let sorted := workers.insertionSort fun worker other =>
      workerNumber worker.name ≤ workerNumber other.name
    return (sorted.take maxWorkers).flatMap (workerFiles maxPerWorker)

/-! ## The profile -/

structure CorpusOperationProfile where
  status : String
  sampledFiles : ℕ
  readableFiles : ℕ
  canonicalInputs : ℕ
  decodedOperations : ℕ
  skippedFiles : ℕ
  leastObservedOperations : List String
  minimumObservations : ℕ
  deriving DecidableEq

namespace CorpusOperationProfile

/-- `document`. -/
def document (profile : CorpusOperationProfile) : List (String × Json) :=
  [("schema_version", .str "corpus-operation-profile.v1"), ("status", .str profile.status),
    ("sampled_files", .num profile.sampledFiles), ("readable_files", .num profile.readableFiles),
    ("canonical_inputs", .num profile.canonicalInputs),
    ("decoded_operations", .num profile.decodedOperations),
    ("skipped_files", .num profile.skippedFiles),
    ("least_observed_operations", .arr (profile.leastObservedOperations.map .str)),
    ("minimum_observations", .num profile.minimumObservations)]

def unavailable : CorpusOperationProfile := ⟨"unavailable", 0, 0, 0, 0, 0, [], 0⟩

end CorpusOperationProfile

/-- The variables of the loop. -/
structure Tally where
  counts : List (String × ℕ)
  sampled : ℕ
  readable : ℕ
  canonical : ℕ
  decoded : ℕ
  skipped : ℕ

section Profile

variable (contract : HarnessContract)

/-- `symbols_by_selector[selector]`. -/
def symbolOf (selector : ℤ) : Option String :=
  (Dict.get? (fun operation : HarnessOperation => (operation.selectorModulusValue : ℤ))
    contract.operations selector).map HarnessOperation.symbol

/-- The contract and the codec agree on the selectors: those of the contract are the first ones. -/
def isAvailable : Bool :=
  contract.targetHashes.harnessHash = auditedHarnessHash &&
    (contract.operations.map HarnessOperation.selectorModulusValue).toFinset.card
      = contract.operations.length &&
    (contract.operations.map HarnessOperation.selectorModulusValue).toFinset
      = Finset.range contract.operations.length

/-- `min(contract.input_max_bytes, MAX_INPUT_BYTES)`. -/
def seedLimit : ℕ := min contract.inputMaxBytes maxInputBytes

/-- `counts[symbol] += 1`. -/
def increment (counts : List (String × ℕ)) (symbol : String) : List (String × ℕ) :=
  counts.map fun entry => if entry.1 = symbol then (entry.1, entry.2 + 1) else entry

/-- The body of the loop over the operations of a seed. -/
def observe (tally : Tally) (operation : NativeOperation) : Except ProfileError Tally :=
  match symbolOf contract operation.selector with
  | none => .error (.keyError operation.selector)
  | some symbol => .ok { tally with
      counts := increment tally.counts symbol
      decoded := tally.decoded + 1 }

/-- The body of the loop over the sample. -/
def sample (tally : Tally) (candidate : Candidate) : Except ProfileError Tally :=
  let tally := { tally with sampled := tally.sampled + 1 }
  match readSeed (seedLimit contract) candidate with
  | none => .ok { tally with skipped := tally.skipped + 1 }
  | some payload =>
    let tally := { tally with readable := tally.readable + 1 }
    match decodeProgram payload contract.targetHashes.harnessHash with
    | .error _ => .ok tally
    | .ok program =>
      program.operations.foldlM (observe contract)
        { tally with canonical := tally.canonical + 1 }

/-- The order of pairs of a count and a name. -/
def byCount (entries : List (String × ℕ)) : List (String × ℕ) :=
  entries.insertionSort fun entry other =>
    entry.2 < other.2 ∨ entry.2 = other.2 ∧ entry.1 ≤ other.1

/-- `build_operation_profile`. -/
def buildOperationProfile (root : CorpusRoot) (maxWorkers maxPerWorker leastLimit : ℕ) :
    Except ProfileError CorpusOperationProfile := do
  raiseIf (¬ (1 ≤ maxWorkers ∧ maxWorkers ≤ 64) ∨ ¬ (1 ≤ maxPerWorker ∧ maxPerWorker ≤ 512))
    (.corpus "corpus sampling bounds are invalid")
  raiseIf (¬ (1 ≤ leastLimit ∧ leastLimit ≤ 24)) (.corpus "least-operation limit is invalid")
  if isAvailable contract = false then return .unavailable
  let files ← queueFiles root maxWorkers maxPerWorker
  let tally ← files.foldlM (sample contract)
    ⟨contract.operations.map fun operation => (operation.symbol, 0), 0, 0, 0, 0, 0⟩
  return {
    status := "available"
    sampledFiles := tally.sampled
    readableFiles := tally.readable
    canonicalInputs := tally.canonical
    decodedOperations := tally.decoded
    skippedFiles := tally.skipped
    leastObservedOperations := ((byCount tally.counts).take leastLimit).map Prod.fst
    minimumObservations := (tally.counts.map Prod.snd).min?.getD 0 }

/-! ## What a profile says -/

/-- The programs of the canonical seeds. -/
def programs (files : List Candidate) : List NativeProgram :=
  files.filterMap fun candidate => (readSeed (seedLimit contract) candidate).bind fun payload =>
    (decodeProgram payload contract.targetHashes.harnessHash).toOption

/-- The operations of the canonical seeds. -/
def decodedOperations (files : List Candidate) : List NativeOperation :=
  (programs contract files).flatMap NativeProgram.operations

/-- How often each symbol of the contract was observed. -/
def symbolCounts (files : List Candidate) : List (String × ℕ) :=
  contract.operations.map fun operation => (operation.symbol,
    (decodedOperations contract files).countP (·.selector = operation.selectorModulusValue))

/-- The profile of a sample. -/
structure IsProfileOf (files : List Candidate) (leastLimit : ℕ) (profile : CorpusOperationProfile) :
    Prop where
  status : profile.status = "available"
  sampled : profile.sampledFiles = files.length
  readable : profile.readableFiles = files.countP fun file => (readSeed (seedLimit contract) file).isSome
  canonical : profile.canonicalInputs = (programs contract files).length
  sampled_eq : profile.sampledFiles = profile.readableFiles + profile.skippedFiles
  canonical_le : profile.canonicalInputs ≤ profile.readableFiles
  decoded_eq : profile.decodedOperations = ((symbolCounts contract files).map Prod.snd).sum
  least : profile.leastObservedOperations
    = ((byCount (symbolCounts contract files)).take leastLimit).map Prod.fst
  minimum : profile.minimumObservations = ((symbolCounts contract files).map Prod.snd).min?.getD 0

/-- Every operation of the sample has a name. -/
def Named (files : List Candidate) : Prop :=
  ∀ operation ∈ decodedOperations contract files, operation.selector < contract.operations.length

end Profile

section Run

variable {contract : HarnessContract}

/-- The counts after some operations. -/
def addCounts (contract : HarnessContract) (counts : List (String × ℕ))
    (operations : List NativeOperation) : List (String × ℕ) :=
  counts.map fun entry =>
    (entry.1, entry.2 + operations.countP fun op => symbolOf contract op.selector = some entry.1)

theorem addCounts_nil (counts : List (String × ℕ)) : addCounts contract counts [] = counts :=
  List.map_id' counts

theorem addCounts_append (counts : List (String × ℕ)) (before after : List NativeOperation) :
    addCounts contract (addCounts contract counts before) after
      = addCounts contract counts (before ++ after) := by
  rw [addCounts, addCounts, addCounts, List.map_map]
  refine List.map_congr_left fun entry _ => ?_
  simp only [Function.comp_apply, List.countP_append, Nat.add_assoc]

theorem increment_eq (counts : List (String × ℕ)) {op : NativeOperation} {symbol : String}
    (h : symbolOf contract op.selector = some symbol) :
    increment counts symbol = addCounts contract counts [op] := by
  refine List.map_congr_left fun entry _ => ?_
  by_cases heq : entry.1 = symbol
  · rw [if_pos heq, List.countP_singleton, if_pos (by rw [h, heq]; exact decide_eq_true rfl)]
  · have hne : ¬ some symbol = some entry.1 := fun hsome => heq (Option.some.inj hsome).symm
    rw [if_neg heq, List.countP_singleton, if_neg (by rw [h]; simpa using fun h => heq h.symm),
      Nat.add_zero]

/-- The loop over the operations of a seed. -/
theorem foldlM_observe {ops : List NativeOperation} {tally tally' : Tally} :
    ops.foldlM (observe contract) tally = .ok tally'
      ↔ (∀ op ∈ ops, (symbolOf contract op.selector).isSome) ∧ tally' = { tally with
          counts := addCounts contract tally.counts ops
          decoded := tally.decoded + ops.length } := by
  induction ops generalizing tally with
  | nil =>
    rw [List.foldlM_nil, pure_eq_ok, addCounts_nil]
    exact ⟨fun h => ⟨fun _ hop => absurd hop List.not_mem_nil, h.symm⟩, fun h => h.2.symm⟩
  | cons op ops ih =>
    rw [List.foldlM_cons, bind_eq_ok, List.forall_mem_cons]
    cases hsymbol : symbolOf contract op.selector with
    | none =>
      simp [observe, hsymbol]
    | some symbol =>
      have hobserve : observe contract tally op = .ok { tally with
          counts := addCounts contract tally.counts [op]
          decoded := tally.decoded + 1 } := by
        rw [observe, hsymbol, ← increment_eq tally.counts hsymbol]
      rw [hobserve]
      simp only [Except.ok.injEq, exists_eq_left', ih, addCounts_append, List.singleton_append,
        List.length_cons, Option.isSome_some, true_and, Nat.add_assoc, Nat.add_comm 1]

/-- What one candidate adds. -/
theorem sample_eq_ok {candidate : Candidate} {tally tally' : Tally} :
    sample contract tally candidate = .ok tally'
      ↔ (∀ op ∈ decodedOperations contract [candidate], (symbolOf contract op.selector).isSome) ∧
        tally' =
          { counts := addCounts contract tally.counts (decodedOperations contract [candidate])
            sampled := tally.sampled + 1
            readable := tally.readable + (readSeed (seedLimit contract) candidate).isSome.toNat
            canonical := tally.canonical + (programs contract [candidate]).length
            decoded := tally.decoded + (decodedOperations contract [candidate]).length
            skipped := tally.skipped + (readSeed (seedLimit contract) candidate).isNone.toNat } := by
  rw [sample, decodedOperations, programs]
  cases hread : readSeed (seedLimit contract) candidate with
  | none =>
    simp [hread, addCounts_nil]
    exact eq_comm
  | some payload =>
    cases hdecode : decodeProgram payload contract.targetHashes.harnessHash with
    | error error =>
      simp [hread, hdecode, addCounts_nil, Except.toOption]
      exact eq_comm
    | ok program => simp [hread, hdecode, foldlM_observe, Except.toOption]

/-- The whole loop. -/
theorem foldlM_sample {files : List Candidate} {tally tally' : Tally} :
    files.foldlM (sample contract) tally = .ok tally'
      ↔ (∀ op ∈ decodedOperations contract files, (symbolOf contract op.selector).isSome) ∧
        tally' =
          { counts := addCounts contract tally.counts (decodedOperations contract files)
            sampled := tally.sampled + files.length
            readable := tally.readable
              + files.countP fun file => (readSeed (seedLimit contract) file).isSome
            canonical := tally.canonical + (programs contract files).length
            decoded := tally.decoded + (decodedOperations contract files).length
            skipped := tally.skipped
              + files.countP fun file => (readSeed (seedLimit contract) file).isNone } := by
  induction files generalizing tally with
  | nil =>
    rw [List.foldlM_nil, pure_eq_ok]
    simp [decodedOperations, programs, addCounts_nil]
    exact eq_comm
  | cons file files ih =>
    have hprograms : programs contract (file :: files)
        = programs contract [file] ++ programs contract files :=
      List.filterMap_append (l := [file])
    have hops : decodedOperations contract (file :: files)
        = decodedOperations contract [file] ++ decodedOperations contract files := by
      rw [decodedOperations, hprograms, List.flatMap_append]
      rfl
    have hreadable : ∀ n, n + (readSeed (seedLimit contract) file).isSome.toNat
        + files.countP (fun file => (readSeed (seedLimit contract) file).isSome)
        = n + (file :: files).countP fun file => (readSeed (seedLimit contract) file).isSome := by
      intro n
      rw [List.countP_cons]
      cases (readSeed (seedLimit contract) file).isSome <;> simp [Nat.add_assoc, Nat.add_comm]
    have hskipped : ∀ n, n + (readSeed (seedLimit contract) file).isNone.toNat
        + files.countP (fun file => (readSeed (seedLimit contract) file).isNone)
        = n + (file :: files).countP fun file => (readSeed (seedLimit contract) file).isNone := by
      intro n
      rw [List.countP_cons]
      cases (readSeed (seedLimit contract) file).isNone <;> simp [Nat.add_assoc, Nat.add_comm]
    rw [List.foldlM_cons, bind_eq_ok]
    simp only [sample_eq_ok, ih, hops, List.forall_mem_append]
    rw [hprograms]
    constructor
    · rintro ⟨_, ⟨hfile, rfl⟩, hfiles, rfl⟩
      refine ⟨⟨hfile, hfiles⟩, ?_⟩
      simp only [addCounts_append, hreadable, hskipped, List.length_append, List.length_cons,
        Nat.add_assoc, Nat.add_comm 1]
    · rintro ⟨⟨hfile, hfiles⟩, rfl⟩
      refine ⟨_, ⟨hfile, rfl⟩, hfiles, ?_⟩
      simp only [addCounts_append, hreadable, hskipped, List.length_append, List.length_cons,
        Nat.add_assoc, Nat.add_comm 1]

/-! ### Names -/

theorem symbolOf_eq_some {selector : ℤ} {symbol : String} :
    symbolOf contract selector = some symbol ↔ ∃ operation ∈ contract.operations,
      (operation.selectorModulusValue : ℤ) = selector ∧ operation.symbol = symbol := by
  have hnodup : (contract.operations.map
      fun operation => (operation.selectorModulusValue : ℤ)).Nodup := by
    have h := contract.operationSelectors_nodup.map
      (fun _ _ h => Int.ofNat_inj.mp h : Function.Injective fun n : ℕ => (n : ℤ))
    rwa [List.map_map] at h
  rw [symbolOf, Option.map_eq_some_iff]
  constructor
  · rintro ⟨operation, hfound, rfl⟩
    obtain ⟨hmem, hselector⟩ := Dict.mem_of_get?_eq_some hfound
    exact ⟨operation, hmem, hselector, rfl⟩
  · rintro ⟨operation, hmem, rfl, rfl⟩
    exact ⟨operation, Dict.get?_key_of_mem hnodup hmem, rfl⟩

/-- The symbol of an operation is that of its selector only. -/
theorem symbolOf_eq_symbol {selector : ℤ} {operation : HarnessOperation}
    (hmem : operation ∈ contract.operations) :
    symbolOf contract selector = some operation.symbol
      ↔ selector = operation.selectorModulusValue := by
  rw [symbolOf_eq_some]
  constructor
  · rintro ⟨other, hother, hselector, hsymbol⟩
    rw [← hselector, List.inj_on_of_nodup_map contract.operationSymbols_nodup hother hmem hsymbol]
  · rintro rfl
    exact ⟨operation, hmem, rfl, rfl⟩

theorem symbolOf_isSome {selector : ℤ} (havailable : isAvailable contract = true)
    (hnonneg : 0 ≤ selector) :
    (symbolOf contract selector).isSome ↔ selector < contract.operations.length := by
  obtain ⟨-, hselectors⟩ := Bool.and_eq_true_iff.mp havailable
  have hmem : ∀ n, n ∈ contract.operations.map HarnessOperation.selectorModulusValue
      ↔ n < contract.operations.length := by
    intro n
    rw [← List.mem_toFinset, of_decide_eq_true hselectors, Finset.mem_range]
  rw [Option.isSome_iff_exists]
  simp only [symbolOf_eq_some]
  constructor
  · rintro ⟨symbol, operation, hoperation, rfl, -⟩
    exact_mod_cast (hmem _).mp (List.mem_map_of_mem hoperation)
  · intro hlt
    obtain ⟨operation, hoperation, hselector⟩ := List.mem_map.mp
      ((hmem selector.toNat).mpr (by omega))
    exact ⟨operation.symbol, operation, hoperation, by omega, rfl⟩

/-- What is decoded has no negative selector. -/
theorem selector_nonneg {files : List Candidate} {op : NativeOperation}
    (hop : op ∈ decodedOperations contract files) : 0 ≤ op.selector := by
  obtain ⟨program, hprogram, hop⟩ := List.mem_flatMap.mp hop
  obtain ⟨file, -, hfile⟩ := List.mem_filterMap.mp hprogram
  obtain ⟨payload, -, hpayload⟩ := Option.bind_eq_some_iff.mp hfile
  cases hdecode : decodeProgram payload contract.targetHashes.harnessHash with
  | error error =>
    rw [hdecode] at hpayload
    cases hpayload
  | ok decoded =>
    rw [hdecode] at hpayload
    cases hpayload
    exact ((decodeProgram_eq_ok.mp hdecode).2.1.operations op hop).selector_nonneg

theorem named_iff {files : List Candidate} (havailable : isAvailable contract = true) :
    Named contract files
      ↔ ∀ op ∈ decodedOperations contract files, (symbolOf contract op.selector).isSome :=
  forall₂_congr fun _ hop => (symbolOf_isSome havailable (selector_nonneg hop)).symm

theorem addCounts_start (files : List Candidate) :
    addCounts contract (contract.operations.map fun operation => (operation.symbol, 0))
      (decodedOperations contract files) = symbolCounts contract files := by
  rw [addCounts, symbolCounts, List.map_map]
  refine List.map_congr_left fun operation hoperation => ?_
  rw [Function.comp_apply, Nat.zero_add]
  refine congrArg (Prod.mk _) (List.countP_congr fun op _ => ?_)
  rw [decide_eq_true_eq, decide_eq_true_eq]
  exact symbolOf_eq_symbol hoperation

theorem sum_ite_eq_countP {α : Type} (p : α → Prop) [DecidablePred p] (xs : List α) :
    (xs.map fun x => if p x then 1 else 0).sum = xs.countP fun x => p x := by
  induction xs with
  | nil => rfl
  | cons x xs ih => simp only [List.map_cons, List.sum_cons, ih, List.countP_cons,
      decide_eq_true_eq, Nat.add_comm]

/-- Every operation that has a name is counted under one symbol. -/
theorem sum_symbolCounts {files : List Candidate} (havailable : isAvailable contract = true)
    (hnamed : Named contract files) :
    ((symbolCounts contract files).map Prod.snd).sum = (decodedOperations contract files).length := by
  have hone : ∀ op ∈ decodedOperations contract files, (contract.operations.map fun operation =>
      if op.selector = operation.selectorModulusValue then 1 else 0).sum = 1 := by
    intro op hop
    obtain ⟨symbol, hsymbol⟩ := Option.isSome_iff_exists.mp ((named_iff havailable).mp hnamed op hop)
    obtain ⟨operation, hoperation, hselector, -⟩ := symbolOf_eq_some.mp hsymbol
    have hcount := List.count_eq_one_of_mem contract.operationSelectors_nodup
      (List.mem_map_of_mem hoperation)
    rw [List.count, List.countP_map] at hcount
    refine (sum_ite_eq_countP _ _).trans (Eq.trans ?_ hcount)
    refine List.countP_congr fun other _ => ?_
    rw [Function.comp_apply, beq_iff_eq, decide_eq_true_eq, ← hselector]
    exact ⟨fun h => (Int.ofNat_inj.mp h).symm, fun h => congrArg _ h.symm⟩
  rw [symbolCounts, List.map_map]
  change (contract.operations.map fun operation => (decodedOperations contract files).countP
    (·.selector = operation.selectorModulusValue)).sum = _
  generalize decodedOperations contract files = ops at hone
  induction ops with
  | nil => simp
  | cons op ops ih =>
    obtain ⟨hop, hops⟩ := List.forall_mem_cons.mp hone
    simp only [List.countP_cons, List.sum_map_add, ih hops, decide_eq_true_eq, hop, List.length_cons]

/-! ### The profile -/

/-- The profile of a sample that has names for all its operations. -/
def profileOf (contract : HarnessContract) (files : List Candidate) (leastLimit : ℕ) :
    CorpusOperationProfile where
  status := "available"
  sampledFiles := files.length
  readableFiles := files.countP fun file => (readSeed (seedLimit contract) file).isSome
  canonicalInputs := (programs contract files).length
  decodedOperations := (decodedOperations contract files).length
  skippedFiles := files.countP fun file => (readSeed (seedLimit contract) file).isNone
  leastObservedOperations := ((byCount (symbolCounts contract files)).take leastLimit).map Prod.fst
  minimumObservations := ((symbolCounts contract files).map Prod.snd).min?.getD 0

theorem isProfileOf_profileOf {files : List Candidate} {leastLimit : ℕ}
    (havailable : isAvailable contract = true) (hnamed : Named contract files) :
    IsProfileOf contract files leastLimit (profileOf contract files leastLimit) where
  status := rfl
  sampled := rfl
  readable := rfl
  canonical := rfl
  sampled_eq := by
    have hsplit := List.length_eq_countP_add_countP
      (fun file => (readSeed (seedLimit contract) file).isSome) (l := files)
    refine hsplit.trans (congrArg _ (List.countP_congr fun file _ => ?_))
    cases readSeed (seedLimit contract) file <;> simp
  canonical_le := by
    change (programs contract files).length ≤ files.countP _
    rw [programs, List.length_filterMap_eq_countP]
    refine List.countP_mono_left fun file _ h => ?_
    cases hread : readSeed (seedLimit contract) file with
    | none => rw [hread] at h; cases h
    | some payload => rfl
  decoded_eq := (sum_symbolCounts havailable hnamed).symm
  least := rfl
  minimum := rfl

/-- A profile is built when every operation of the sample has a name. -/
theorem buildOperationProfile_eq_ok {root : CorpusRoot} {files : List Candidate}
    {maxWorkers maxPerWorker leastLimit : ℕ} (hworkers : 1 ≤ maxWorkers ∧ maxWorkers ≤ 64)
    (hper : 1 ≤ maxPerWorker ∧ maxPerWorker ≤ 512) (hleast : 1 ≤ leastLimit ∧ leastLimit ≤ 24)
    (hroot : queueFiles root maxWorkers maxPerWorker = .ok files)
    (havailable : isAvailable contract = true) {profile : CorpusOperationProfile} :
    buildOperationProfile contract root maxWorkers maxPerWorker leastLimit = .ok profile
      ↔ Named contract files ∧ profile = profileOf contract files leastLimit := by
  rw [buildOperationProfile, raiseIf_bind_of_not (by omega), raiseIf_bind_of_not (by omega), hroot,
    if_neg (by rw [havailable]; decide), named_iff havailable]
  simp only [bind_eq_ok, Except.ok.injEq, exists_eq_left', foldlM_sample, pure_eq_ok,
    addCounts_start, Nat.zero_add]
  constructor
  · rintro ⟨_, ⟨hnamed, rfl⟩, rfl⟩
    exact ⟨hnamed, rfl⟩
  · rintro ⟨hnamed, rfl⟩
    exact ⟨_, ⟨hnamed, rfl⟩, rfl⟩

end Run

end IouAi.Corpus
