import IouAi.Contract.Compiler
import IouAi.Foundations.Archive
import IouAi.Wire.Events

/-!
# Compiled artifacts

The store of compiled payloads. A payload is named by its hash and bound by a manifest to the
proposal, the program, the contract, the validator and the target; the manifest is named by the hash
of its canonical text. Both are stored once and for all.
-/

namespace IouAi.Authority

open Compiler Wire

/-! ## Identifiers made of digests -/

theorem isIdentifier_iff (text : String) : isIdentifier text = true ↔
    ∃ c cs, text.toList = c :: cs ∧ isIdentifierHead c = true ∧ cs.length ≤ 95
      ∧ cs.all isIdentifierChar = true := by
  unfold isIdentifier
  cases htext : text.toList with
  | nil => simp
  | cons c cs => simp [and_assoc]

/-- An identifier with more characters of its class behind it. -/
theorem isIdentifier_append {tag text : String} (htag : isIdentifier tag = true)
    (htext : text.toList.all isIdentifierChar = true)
    (hlength : tag.toList.length + text.toList.length ≤ 96) : isIdentifier (tag ++ text) = true := by
  obtain ⟨c, cs, hcs, hhead, -, hall⟩ := (isIdentifier_iff tag).mp htag
  rw [hcs, List.length_cons] at hlength
  refine (isIdentifier_iff _).mpr ⟨c, cs ++ text.toList, ?_, hhead, ?_, ?_⟩
  · rw [String.toList_append, hcs, List.cons_append]
  · rw [List.length_append]
    omega
  · rw [List.all_append, hall, htext]
    rfl

/-- The last twenty-four characters of a digest. -/
def digestTail (digest : Digest) : String := String.ofList (digest.val.toList.drop 47)

theorem digest_toList (digest : Digest) : ∃ hex : List Char,
    digest.val.toList = "sha256:".toList ++ hex ∧ hex.length = 64 ∧ hex.all isHexDigit = true := by
  have h := digest.2
  simp only [isDigest, Bool.and_eq_true, decide_eq_true_eq] at h
  obtain ⟨⟨htake, hlength⟩, hall⟩ := h
  refine ⟨digest.val.toList.drop 7, ?_, hlength, hall⟩
  rw [← htake, List.take_append_drop]

theorem isIdentifierChar_of_isHexDigit {c : Char} (h : isHexDigit c = true) :
    isIdentifierChar c = true := by
  have hletters : 'f' ≤ 'z' := by decide
  simp only [isHexDigit, isIdentifierChar, isIdentifierHead, Bool.or_eq_true, Bool.and_eq_true,
    decide_eq_true_eq] at h ⊢
  rcases h with h | ⟨hlow, hhigh⟩
  · exact .inl (.inr h)
  · exact .inl (.inl ⟨hlow, Char.le_trans hhigh hletters⟩)

/-- A tag and the end of a digest. -/
def taggedId (tag : String) (digest : Digest)
    (h : isIdentifier tag = true ∧ tag.toList.length ≤ 72) : Identifier :=
  ⟨tag ++ digestTail digest, by
    obtain ⟨hex, hdigest, hlength, hall⟩ := digest_toList digest
    have htail : (digestTail digest).toList = hex.drop 40 := by
      have hsplit : "sha256:".toList.length = 7 := rfl
      rw [digestTail, String.toList_ofList, hdigest, List.drop_append, hsplit]
      rfl
    refine isIdentifier_append h.1 ?_ ?_
    · rw [htail, List.all_eq_true]
      intro c hc
      exact isIdentifierChar_of_isHexDigit (List.all_eq_true.mp hall c (List.mem_of_mem_drop hc))
    · rw [htail, List.length_drop, hlength]
      omega⟩

/-! ## Manifests -/

/-- Between one operation and the harness's ninety-six. -/
abbrev OperationCount := {count : ℕ // 1 ≤ count ∧ count ≤ 96}

structure ArtifactManifest where
  artifactId : Identifier
  programId : Identifier
  proposalDigest : Digest
  programDigest : Digest
  harnessContractDigest : Digest
  payloadDigest : Digest
  payloadSizeBytes : ArtifactSize
  operationCount : OperationCount
  compilerHash : Digest
  validatorVersion : Identifier
  validatorHash : Digest
  targetHashes : TargetHashes
  deriving DecidableEq

def compilerVersion : Identifier := ⟨"native-ir-compiler.v1", by decide⟩

def ArtifactManifest.toJson (manifest : ArtifactManifest) : Json :=
  .obj [("schema_version", .str "compiled-artifact.v1"),
    ("artifact_id", .str manifest.artifactId), ("program_id", .str manifest.programId),
    ("proposal_digest", .str manifest.proposalDigest),
    ("program_digest", .str manifest.programDigest),
    ("harness_contract_digest", .str manifest.harnessContractDigest),
    ("payload_digest", .str manifest.payloadDigest),
    ("payload_size_bytes", .num manifest.payloadSizeBytes.val),
    ("operation_count", .num manifest.operationCount.val),
    ("compiler_version", .str compilerVersion), ("compiler_hash", .str manifest.compilerHash),
    ("validator_version", .str manifest.validatorVersion),
    ("validator_hash", .str manifest.validatorHash),
    ("target_hashes", manifest.targetHashes.toJson), ("isolated_canary_required", .bool true),
    ("live_promotion_authorized", .bool false)]

/-! ## The store -/

inductive ArtifactError
  | payloadDigestChanged
  | differentHarness
  | differentCompiler
  | payloadSize
  | operationCount
  | invalidManifest
  | digestCollision
  | unavailable
  | manifestDigestMismatch
  | payloadDigestMismatch
  | payloadSizeDiffers
  deriving DecidableEq

structure ArtifactStore where
  payloads : Archive Digest Bytes
  manifests : Archive Digest ArtifactManifest

/-- What a run of the pipeline binds an artifact to. -/
structure ArtifactBinding where
  proposalDigest : Digest
  harnessContractDigest : Digest
  validatorVersion : Identifier
  validatorHash : Digest
  targetHashes : TargetHashes

namespace ArtifactStore

variable (sha256 : Sha256)

/-- Create-only storage of a payload or of a manifest. -/
def createOnly {β : Type} [DecidableEq β] (files : Archive Digest β) (digest : Digest)
    (payload : β) : Except ArtifactError (Archive Digest β) :=
  match files.put digest payload with
  | some files' => .ok files'
  | none => .error .digestCollision

/-- The manifest of a compiled program, after the checks of `put`. -/
def manifestOf (compiled : CompiledProgram) (binding : ArtifactBinding) (programDigest : Digest) :
    Except ArtifactError ArtifactManifest :=
  if (contentDigest sha256 compiled.payload).val ≠ compiled.payloadHash then
    .error .payloadDigestChanged
  else if compiled.harnessHash ≠ binding.targetHashes.harnessHash.val then
    .error .differentHarness
  else if compiled.compilerHash ≠ binding.targetHashes.compilerHash.val then
    .error .differentCompiler
  else if hsize : 1 ≤ compiled.payload.length ∧ compiled.payload.length ≤ 2048 then
    if hcount : 1 ≤ compiled.operationCount ∧ compiled.operationCount ≤ 96 then
      if hprogram : isIdentifier compiled.programId = true then
        .ok {
          artifactId := taggedId "artifact-" (contentDigest sha256 compiled.payload) (by decide)
          programId := ⟨compiled.programId, hprogram⟩
          proposalDigest := binding.proposalDigest
          programDigest := programDigest
          harnessContractDigest := binding.harnessContractDigest
          payloadDigest := contentDigest sha256 compiled.payload
          payloadSizeBytes := ⟨compiled.payload.length, hsize⟩
          operationCount := ⟨compiled.operationCount, hcount⟩
          compilerHash := binding.targetHashes.compilerHash
          validatorVersion := binding.validatorVersion
          validatorHash := binding.validatorHash
          targetHashes := binding.targetHashes }
      else .error .invalidManifest
    else .error .operationCount
  else .error .payloadSize

def put (store : ArtifactStore) (compiled : CompiledProgram) (binding : ArtifactBinding)
    (programDigest : Digest) : Except ArtifactError (ArtifactStore × Digest) := do
  let manifest ← manifestOf sha256 compiled binding programDigest
  let digest := jsonDigest sha256 manifest.toJson
  let payloads ← createOnly store.payloads manifest.payloadDigest compiled.payload
  let manifests ← createOnly store.manifests digest manifest
  return (⟨payloads, manifests⟩, digest)

def getManifest (store : ArtifactStore) (digest : Digest) : Except ArtifactError ArtifactManifest :=
  match store.manifests.get? digest with
  | none => .error .unavailable
  | some manifest =>
    if jsonDigest sha256 manifest.toJson ≠ digest then .error .manifestDigestMismatch
    else .ok manifest

def getPayload (store : ArtifactStore) (manifest : ArtifactManifest) :
    Except ArtifactError Bytes :=
  match store.payloads.get? manifest.payloadDigest with
  | none => .error .unavailable
  | some payload =>
    if contentDigest sha256 payload ≠ manifest.payloadDigest then .error .payloadDigestMismatch
    else if payload.length ≠ manifest.payloadSizeBytes then .error .payloadSizeDiffers
    else .ok payload

end ArtifactStore

end IouAi.Authority
