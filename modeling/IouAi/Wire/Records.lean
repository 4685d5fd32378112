import IouAi.Wire.Events

/-!
# Authority records

The records between the canary and the live approval. A record is named by the hash of its canonical
text.
-/

namespace IouAi.Wire

/-- A canaried artifact that may be offered for a live approval. -/
structure ExecutionCandidate where
  candidateId : Identifier
  readyAt : Timestamp
  envelopeDigest : Digest
  artifactManifestDigest : Digest
  artifactDigest : Digest
  artifactSizeBytes : ArtifactSize
  validationReportDigest : Digest
  canaryReportDigest : Digest
  targetHashes : TargetHashes
  promotionScope : PromotionScope
  deriving DecidableEq

namespace ExecutionCandidate

variable (candidate : ExecutionCandidate)

def toJson : Json :=
  .obj [("schema_version", .str "execution-candidate.v1"),
    ("candidate_id", .str candidate.candidateId), ("ready_at", .str candidate.readyAt),
    ("envelope_digest", .str candidate.envelopeDigest),
    ("artifact_manifest_digest", .str candidate.artifactManifestDigest),
    ("artifact_digest", .str candidate.artifactDigest),
    ("artifact_size_bytes", .num candidate.artifactSizeBytes.val),
    ("validation_report_digest", .str candidate.validationReportDigest),
    ("canary_report_digest", .str candidate.canaryReportDigest),
    ("target_hashes", candidate.targetHashes.toJson),
    ("promotion_scope", candidate.promotionScope.toJson), ("canary_outcome", .str "passed"),
    ("human_execution_approval_required", .bool true),
    ("live_promotion_authorized", .bool false)]

/-- The material that a challenge for the candidate is bound to, under the digest of the
candidate. -/
def binding (candidateDigest : Digest) : ExecutionBinding where
  candidateDigest := candidateDigest
  envelopeDigest := candidate.envelopeDigest
  artifactManifestDigest := candidate.artifactManifestDigest
  artifactDigest := candidate.artifactDigest
  artifactSizeBytes := candidate.artifactSizeBytes
  validationReportDigest := candidate.validationReportDigest
  canaryReportDigest := candidate.canaryReportDigest
  targetHashes := candidate.targetHashes
  promotionScope := candidate.promotionScope

end ExecutionCandidate

end IouAi.Wire
