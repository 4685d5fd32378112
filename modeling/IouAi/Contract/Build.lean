import IouAi.Contract.Compiler
import Mathlib.Data.List.FinRange

/-!
# The tables of the production contract

The profiles, flags and operations that `build_contract` writes into the contract of the audited
harness, and `buildContract`, the contract it makes of them and of the hashes of an authority
snapshot.
-/

namespace IouAi.Contract

open HarnessCodec Models

def lanes : List LaneKind := [.stableCoverage, .probabilisticRace]

def profiles : List HarnessProfile := [
  { profileId := "single_issuer_defer_coop"
    selectorValue := 0
    setupFlags := ["ioring_setup_single_issuer", "ioring_setup_defer_taskrun",
      "ioring_setup_coop_taskrun"]
    allowedLanes := lanes },
  { profileId := "plain"
    selectorValue := 1
    setupFlags := []
    allowedLanes := lanes },
  { profileId := "single_issuer_defer_cqsize"
    selectorValue := 2
    setupFlags := ["ioring_setup_single_issuer", "ioring_setup_defer_taskrun",
      "ioring_setup_cqsize"]
    allowedLanes := lanes },
  { profileId := "iopoll"
    selectorValue := 3
    setupFlags := ["ioring_setup_iopoll"]
    allowedLanes := lanes },
  { profileId := "wide_sqe_cqe"
    selectorValue := 4
    setupFlags := ["ioring_setup_sqe128", "ioring_setup_cqe32"]
    allowedLanes := lanes },
  { profileId := "clamp_submit_all_taskrun"
    selectorValue := 5
    setupFlags := ["ioring_setup_clamp", "ioring_setup_submit_all", "ioring_setup_taskrun_flag"]
    allowedLanes := lanes },
  { profileId := "no_sqarray_coop"
    selectorValue := 6
    setupFlags := ["ioring_setup_no_sqarray", "ioring_setup_coop_taskrun"]
    allowedLanes := lanes },
  { profileId := "disabled_until_register"
    selectorValue := 7
    setupFlags := ["ioring_setup_r_disabled"]
    allowedLanes := lanes }]

def flags : List HarnessFlagSpec := [
  { symbol := "iosqe_fixed_file", bitValue := 1 },
  { symbol := "iosqe_io_drain", bitValue := 2 },
  { symbol := "iosqe_io_link", bitValue := 4 },
  { symbol := "iosqe_io_hardlink", bitValue := 8 },
  { symbol := "iosqe_async", bitValue := 16 },
  { symbol := "iosqe_buffer_select", bitValue := 32 }]

/-- The symbol of every selector. -/
def operationSymbols : List String := [
  "nop", "readv", "writev", "read", "write", "fsync", "poll_add", "poll_remove", "timeout",
  "timeout_remove", "recv", "send", "fadvise", "fallocate", "openat", "splice", "tee", "epoll_ctl",
  "provide_buffers", "remove_buffers", "sync_file_range", "statx", "accept", "multishot_accept",
  "connect", "bind", "listen", "socket", "shutdown", "sendmsg", "recvmsg", "recvmsg_multishot",
  "recv_multishot", "send_zc", "sendmsg_zc", "cancel", "cancel_fd", "link_timeout",
  "timeout_update", "poll_update", "poll_multishot", "read_fixed", "write_fixed", "files_update",
  "fixed_fd_install", "close_direct", "close", "msg_ring", "msg_ring_fd", "futex_wake",
  "futex_wait", "futex_waitv", "waitid", "renameat", "unlinkat", "mkdirat", "linkat", "fsetxattr",
  "ftruncate", "epoll_wait", "register_raw"]

def expectedResults : List String := [
  "success", "invalid", "retry", "short_io", "cancelled", "timeout", "not_supported",
  "resource_busy", "kernel_error"]

/-- A canonical one-byte operand. -/
def operandSpec (name : String) : HarnessArgumentSpec where
  name := name
  kind := .integer
  byteWidth := 1
  signed := false
  byteOrder := .little
  minimumValue := 0
  maximumValue := 255
  enumSymbols := []
  resourceKind := ""

def operation (selector : Fin 61) : HarnessOperation where
  symbol := operationSymbols.getD selector ""
  selectorModulusValue := selector
  arguments := (encoderOperandNames.getD selector []).map operandSpec
  allowedFlags := flags.map HarnessFlagSpec.symbol
  allowedProfiles := profiles.map HarnessProfile.profileId
  allowedLanes := lanes
  expectedResultClasses := expectedResults
  selectorModulusValue_le := by omega
  length_arguments := by
    have := operandCount_le selector
    rw [List.length_map, length_getD_encoderOperandNames]
    omega

def operations : List HarnessOperation := (List.finRange 61).map operation

theorem mem_operations {o : HarnessOperation} : o ∈ operations ↔ ∃ selector, operation selector = o := by
  simp [operations]

theorem operationSelectors_nodup :
    (operations.map HarnessOperation.selectorModulusValue).Nodup := by
  rw [operations, List.map_map]
  exact (List.nodup_finRange 61).map fun _ _ h => Fin.ext h

/-- The contract for one audited authority snapshot. -/
def buildContract (targetHashes : TargetHashes) : HarnessContract where
  environment := .production
  verified := true
  testOnly := false
  targetHashes := targetHashes
  inputMaxBytes := 2048
  operationMaxCount := 96
  operationSelectorModulus := 61
  deterministicCompiler := true
  decodeRoundTripVerified := true
  profiles := profiles
  resources := []
  flags := flags
  operations := operations
  forbiddenProfileIds := ["sqpoll"]
  operationSelectors_nodup := operationSelectors_nodup
  operationSelectors_lt := by
    intro o ho
    obtain ⟨selector, rfl⟩ := mem_operations.mp ho
    exact selector.isLt
  allowedProfiles_known := by
    intro o ho profile hprofile
    obtain ⟨selector, rfl⟩ := mem_operations.mp ho
    exact hprofile
  allowedFlags_known := by
    intro o ho flag hflag
    obtain ⟨selector, rfl⟩ := mem_operations.mp ho
    exact hflag
  argumentResources_known := by
    intro o ho argument hargument hkind
    obtain ⟨selector, rfl⟩ := mem_operations.mp ho
    obtain ⟨name, -, rfl⟩ := List.mem_map.mp hargument
    cases hkind

end IouAi.Contract
