import IouAi.Harness.Codec

/-!
# The native harness loop

The part of the guest harness between two payloads: `run` clips the input, reads the ring selector
and executes one iteration of the parse loop for every operation byte, as the C program does it. A
variable that a failed `rd8` leaves alone keeps its value, an operation is queued however many of
its reads failed, and `sqe->buf_group` is written after the prep call.

`liburing` is a parameter: the queue that hands out SQEs, the prep functions and the setters. So is
the order in which the compiler evaluates the operand reads of the four cases where C leaves it
open. What the loop logs about an iteration (`Queued`) is ghost state: the bytes that the case
read, how many reads failed, and the SQE as it is submitted.
-/

namespace IouAi.HarnessNative

open HarnessCodec (Bytes)

def MAX_OPS : ℕ := 96
def MAX_INPUT : ℕ := 2048
def NOPS : ℕ := 61
def NRINGS : ℕ := 8

/-- The variables that the cases of the switch read bytes into. -/
inductive Reg
  | a | b | c | ropc | rnr
  deriving DecidableEq, Repr

/-- The values of these variables. -/
structure Regs where
  a : ℕ
  b : ℕ
  c : ℕ
  ropc : ℕ
  rnr : ℕ
  deriving DecidableEq, Repr

def Regs.zero : Regs := ⟨0, 0, 0, 0, 0⟩

def Regs.set (regs : Regs) : Reg → ℕ → Regs
  | .a, v => { regs with a := v }
  | .b, v => { regs with b := v }
  | .c, v => { regs with c := v }
  | .ropc, v => { regs with ropc := v }
  | .rnr, v => { regs with rnr := v }

/-- The prep call of an iteration, with its numeric arguments; a file is given by its index in the
pool. The addresses of the harness's own buffers and structures are the same in every call and left
out. `registerNop` is the raw `io_uring_register` call of the default case and its `prep_nop`. -/
inductive Prep
  | nop
  | readv (fd : ℕ)
  | writev (fd : ℕ)
  | read (fd nbytes : ℕ)
  | write (fd nbytes : ℕ)
  | fsync (fd flags : ℕ)
  | pollAdd (fd mask : ℕ)
  | pollRemove (userData : ℕ)
  | timeout (count flags : ℕ)
  | timeoutRemove (userData flags : ℕ)
  | recv (fd len : ℕ)
  | send (fd len : ℕ)
  | fadvise (fd offset len : ℕ)
  | fallocate (fd offset len : ℕ)
  | openat
  | splice (fdIn fdOut nbytes : ℕ)
  | tee (fdIn fdOut nbytes : ℕ)
  | epollCtl (epfd fd : ℕ)
  | provideBuffers (len nr bgid bid : ℕ)
  | removeBuffers (nr bgid : ℕ)
  | syncFileRange (fd len : ℕ)
  | statx (fd : ℕ)
  | accept (fd flags : ℕ)
  | multishotAccept (fd : ℕ)
  | connect (fd : ℕ)
  | bind (fd : ℕ)
  | listen (fd backlog : ℕ)
  | socket (datagram : Bool)
  | shutdown (fd how : ℕ)
  | sendmsg (fd : ℕ)
  | recvmsg (fd : ℕ)
  | recvmsgMultishot (fd : ℕ)
  | recvMultishot (fd len : ℕ)
  | sendZc (fd len zcFlags : ℕ)
  | sendmsgZc (fd : ℕ)
  | cancel (userData : ℕ)
  | cancelFd (fd flags : ℕ)
  | linkTimeout (flags : ℕ)
  | timeoutUpdate (userData : ℕ)
  | pollUpdate (oldUserData newUserData flags : ℕ)
  | pollMultishot (fd : ℕ)
  | readFixed (fd bufIndex : ℕ)
  | writeFixed (fd bufIndex : ℕ)
  | filesUpdate (nrFds offset : ℕ)
  | fixedFdInstall (fd : ℕ)
  | closeDirect (fileIndex : ℕ)
  | close (fd : ℕ)
  | msgRing (len data : ℕ)
  | msgRingFd (sourceFd targetFd : ℕ)
  | futexWake
  | futexWait (val : ℕ)
  | futexWaitv
  | waitid
  | renameat
  | unlinkat (flags : ℕ)
  | mkdirat
  | linkat
  | fsetxattr (fd : ℕ)
  | ftruncate (fd len : ℕ)
  | epollWait (epfd : ℕ)
  | registerNop (opcode nrArgs : ℕ)
  deriving DecidableEq, Repr

/-- The evaluation order of the operand reads that stand in different arguments of one call. -/
structure ReadOrder where
  timeout : List Reg
  pollUpdate : List Reg
  filesUpdate : List Reg
  msgRing : List Reg
  timeout_perm : timeout.Perm [.a, .b]
  pollUpdate_perm : pollUpdate.Perm [.a, .b, .c]
  filesUpdate_perm : filesUpdate.Perm [.a, .b]
  msgRing_perm : msgRing.Perm [.a, .b]

/-- The arguments evaluated from left to right. -/
def ReadOrder.leftToRight : ReadOrder where
  timeout := [.a, .b]
  pollUpdate := [.a, .b, .c]
  filesUpdate := [.a, .b]
  msgRing := [.a, .b]
  timeout_perm := .refl _
  pollUpdate_perm := .refl _
  filesUpdate_perm := .refl _
  msgRing_perm := .refl _

/-- `FD(i)`: an index into the pool of sixteen files. -/
def FD (i : ℕ) : ℕ := i % 16

/-- `POLLIN | POLLOUT`. -/
def pollInOut : ℕ := 5

/-- The switch: the variables that a case reads, in order, and the prep call it makes of them. -/
def switch (order : ReadOrder) : ℕ → List Reg × (Regs → Prep)
  -- original core
  | 0 => ([], fun _ => .nop)
  | 1 => ([.a], fun r => .readv (FD r.a))
  | 2 => ([.a], fun r => .writev (FD r.a))
  | 3 => ([.a, .b], fun r => .read (FD r.a) ((if r.b ≠ 0 then r.b else 64) % 2048))
  | 4 => ([.a], fun r => .write (FD r.a) 64)
  | 5 => ([.a, .b], fun r => .fsync (FD r.a) (if r.b &&& 1 ≠ 0 then 1 else 0))
  | 6 => ([.a], fun r => .pollAdd (FD r.a) pollInOut)
  | 7 => ([.a], fun r => .pollRemove r.a)
  | 8 => (order.timeout, fun r => .timeout r.a r.b)
  | 9 => ([.a], fun r => .timeoutRemove r.a 0)
  | 10 => ([.a], fun r => .recv (FD r.a) 64)
  | 11 => ([.a], fun r => .send (FD r.a) 64)
  | 12 => ([.a], fun r => .fadvise (FD r.a) 0 4096)
  | 13 => ([.a], fun r => .fallocate (FD r.a) 0 4096)
  | 14 => ([], fun _ => .openat)
  | 15 => ([.a, .b], fun r => .splice (FD r.a) (FD r.b) 64)
  | 16 => ([.a, .b], fun r => .tee (FD r.a) (FD r.b) 64)
  | 17 => ([.a], fun r => .epollCtl (FD 10) (FD r.a))
  | 18 => ([.a], fun r => .provideBuffers 256 2 r.a 0)
  | 19 => ([.a], fun r => .removeBuffers 2 r.a)
  | 20 => ([.a], fun r => .syncFileRange (FD r.a) 4096)
  | 21 => ([.a], fun r => .statx (FD r.a))
  -- sockets
  | 22 => ([.a], fun r => .accept (FD 7) (r.a &&& 0x800))
  | 23 => ([], fun _ => .multishotAccept (FD 7))
  | 24 => ([.a], fun r => .connect (FD r.a))
  | 25 => ([.a], fun r => .bind (FD r.a))
  | 26 => ([.a, .b], fun r => .listen (FD r.a) r.b)
  | 27 => ([.a], fun r => .socket (r.a &&& 1 ≠ 0))
  | 28 => ([.a, .b], fun r => .shutdown (FD r.a) (r.b % 3))
  | 29 => ([.a], fun r => .sendmsg (FD r.a))
  | 30 => ([.a], fun r => .recvmsg (FD r.a))
  | 31 => ([.a], fun r => .recvmsgMultishot (FD r.a))
  | 32 => ([.a], fun r => .recvMultishot (FD r.a) 64)
  | 33 => ([.a, .b], fun r => .sendZc (FD r.a) 64 (r.b &&& 1))
  | 34 => ([.a], fun r => .sendmsgZc (FD r.a))
  -- cancellation and linking
  | 35 => ([.a], fun r => .cancel r.a)
  | 36 => ([.a, .b], fun r => .cancelFd (FD r.a) (r.b &&& 1))
  | 37 => ([.a], fun r => .linkTimeout (r.a &&& 1))
  | 38 => ([.a], fun r => .timeoutUpdate r.a)
  | 39 => (order.pollUpdate, fun r => .pollUpdate r.a r.b (r.c &&& 3))
  | 40 => ([.a], fun r => .pollMultishot (FD r.a))
  -- registered files and buffers
  | 41 => ([.a, .b], fun r => .readFixed (FD r.a) (r.b % 2))
  | 42 => ([.a, .b], fun r => .writeFixed (FD r.a) (r.b % 2))
  | 43 => (order.filesUpdate, fun r => .filesUpdate (r.a % 16 + 1) (r.b % 16))
  | 44 => ([.a], fun r => .fixedFdInstall (FD r.a))
  | 45 => ([.a], fun r => .closeDirect (r.a % 16))
  | 46 => ([.a], fun r => .close (FD r.a))
  -- msg_ring
  | 47 => (order.msgRing, fun r => .msgRing r.a r.b)
  | 48 => ([.a, .b], fun r => .msgRingFd (FD r.a) (r.b % 16))
  -- futex and waitid
  | 49 => ([], fun _ => .futexWake)
  | 50 => ([.a], fun r => .futexWait r.a)
  | 51 => ([], fun _ => .futexWaitv)
  | 52 => ([], fun _ => .waitid)
  -- paths, xattr and the rest
  | 53 => ([], fun _ => .renameat)
  | 54 => ([.a], fun r => .unlinkat (r.a &&& 0x200))
  | 55 => ([], fun _ => .mkdirat)
  | 56 => ([], fun _ => .linkat)
  | 57 => ([.a], fun r => .fsetxattr (FD r.a))
  | 58 => ([.a, .b], fun r => .ftruncate (FD r.a) (r.b * 64))
  | 59 => ([], fun _ => .epollWait (FD 10))
  | _ => ([.ropc, .rnr], fun r => .registerNop (r.ropc % 34) (r.rnr % 8))

/-- What the harness uses of `liburing`: the submission queue, which hands out an SQE or is full and
always hands one out after a submit, the prep functions, and the setters with what they do to the
three fields that the harness writes. -/
structure Liburing where
  Sqe : Type
  Queue : Type
  getSqe : Queue → Option (Sqe × Queue)
  submit : Queue → Queue
  getSqe_submit : ∀ queue, (getSqe (submit queue)).isSome
  prep : Prep → Sqe → Sqe
  setFlags : Sqe → UInt8 → Sqe
  setBufGroup : Sqe → UInt16 → Sqe
  setData : Sqe → UInt64 → Sqe
  flags : Sqe → UInt8
  bufGroup : Sqe → UInt16
  userData : Sqe → UInt64
  bufGroup_prep_provideBuffers : ∀ len nr bgid bid sqe,
    bufGroup (prep (.provideBuffers len nr bgid bid) sqe) = .ofNat bgid
  bufGroup_prep_removeBuffers : ∀ nr bgid sqe,
    bufGroup (prep (.removeBuffers nr bgid) sqe) = .ofNat bgid
  flags_setFlags : ∀ sqe v, flags (setFlags sqe v) = v
  bufGroup_setFlags : ∀ sqe v, bufGroup (setFlags sqe v) = bufGroup sqe
  flags_setBufGroup : ∀ sqe v, flags (setBufGroup sqe v) = flags sqe
  bufGroup_setBufGroup : ∀ sqe v, bufGroup (setBufGroup sqe v) = v
  flags_setData : ∀ sqe v, flags (setData sqe v) = flags sqe
  bufGroup_setData : ∀ sqe v, bufGroup (setData sqe v) = bufGroup sqe
  userData_setData : ∀ sqe v, userData (setData sqe v) = v

/-- The position in the input and the variables, with the bytes that were read and the number of
reads that failed. -/
structure Reader where
  POS : ℕ
  regs : Regs
  bytes : Bytes
  failures : ℕ

/-- `rd8(&r)`: at the end of the input it fails and leaves the variable as it is. -/
def rd8 (PL : Bytes) (reader : Reader) (r : Reg) : Reader :=
  if reader.POS < PL.length then
    { POS := reader.POS + 1
      regs := reader.regs.set r (PL.getD reader.POS 0).toNat
      bytes := reader.bytes ++ [PL.getD reader.POS 0]
      failures := reader.failures }
  else
    { reader with failures := reader.failures + 1 }

/-- `IOSQE_IO_LINK | IOSQE_IO_DRAIN | IOSQE_ASYNC | IOSQE_IO_HARDLINK | IOSQE_BUFFER_SELECT |
IOSQE_FIXED_FILE`. -/
def sqeFlagsMask : ℕ := 0x3F

section Loop

variable (L : Liburing) (order : ReadOrder) (PL : Bytes)

/-- One queued operation: the byte that selected it, the bytes that its case read, the control
value, the failed reads, the prep call and the SQE after every write to it. -/
structure Queued where
  op : ℕ
  operands : Bytes
  control : ℕ
  failures : ℕ
  prep : Prep
  sqe : L.Sqe

/-- The state of the loop. -/
structure State where
  POS : ℕ
  queue : L.Queue
  queued : ℕ
  nops : ℕ
  log : List (Queued L)

/-- How the loop ends. -/
inductive Exit
  | endOfInput
  | maxOps
  | noSqe
  deriving DecidableEq, Repr

variable {L}

/-- The SQE of an iteration: when the queue is full, everything in it is submitted first. -/
def acquireSqe (state : State L) : Option L.Sqe × State L :=
  match L.getSqe state.queue with
  | some (sqe, queue) => (some sqe, { state with queue := queue })
  | none =>
    match L.getSqe (L.submit state.queue) with
    | some (sqe, queue) => (some sqe, { state with queue := queue, queued := 0 })
    | none => (none, { state with queue := L.submit state.queue, queued := 0 })

/-- The reads of the case that an operation byte selects, from cleared variables. -/
def caseReads (POS op : ℕ) : Reader :=
  (switch order (op % NOPS)).1.foldl (rd8 PL) ⟨POS, .zero, [], 0⟩

/-- The body of the loop once it has an SQE: the case of the switch, the control byte, the writes to
the SQE and the submit of a full batch. -/
def execute (state : State L) (op : ℕ) (sqe : L.Sqe) : State L :=
  let operands := caseReads order PL state.POS op
  let prep := (switch order (op % NOPS)).2 operands.regs
  let reader := rd8 PL operands .c
  let c := reader.regs.c
  let sqe := L.prep prep sqe
  let sqe := L.setFlags sqe (.ofNat (c &&& sqeFlagsMask))
  let sqe := L.setBufGroup sqe (.ofNat (c >>> 4))
  let sqe := L.setData sqe (.ofNat op)
  let full := 64 ≤ state.queued + 1
  { POS := reader.POS
    queue := if full then L.submit state.queue else state.queue
    queued := if full then 0 else state.queued + 1
    nops := state.nops
    log := state.log ++ [{
      op := op
      operands := operands.bytes
      control := c
      failures := reader.failures
      prep := prep
      sqe := sqe }] }

/-- The parse loop. Every iteration reads a byte, so that more fuel than bytes is enough; with less
it has no result. -/
def loop : ℕ → State L → Option (State L × Exit)
  | 0, _ => none
  | fuel + 1, state =>
    if state.POS < PL.length then
      let op := (PL.getD state.POS 0).toNat
      let state := { state with POS := state.POS + 1, nops := state.nops + 1 }
      if MAX_OPS < state.nops then
        some (state, .maxOps)
      else
        match acquireSqe state with
        | (none, state) => some (state, .noSqe)
        | (some sqe, state) => loop fuel (execute order PL state op sqe)
    else
      some (state, .endOfInput)

/-- The ring that the iteration drives: the next one that works, after at most all of them. -/
def fallback (ringOk : ℕ → Bool) : ℕ → ℕ → ℕ
  | 0, ri => ri
  | k + 1, ri => if ringOk (ri % NRINGS) then ri else fallback ringOk k (ri + 1)

variable (L)

/-- What one payload does: the ring that it asks for and the one that is driven, the final state of
the loop and how it ended. -/
structure Run where
  ri : ℕ
  ring : ℕ
  state : State L
  exit : Exit

variable {L}

/-- One payload, from the clipped input to the end of the parse loop. -/
def run (ringOk : ℕ → Bool) (queue : L.Queue) (payload : Bytes) : Option (Run L) :=
  let PL := payload.take MAX_INPUT
  -- `rd8(&ri)`, which leaves the initial 0 when there is no byte
  let ri := (PL.getD 0 0).toNat
  let POS := min 1 PL.length
  (loop order PL (PL.length + 1) ⟨POS, queue, 0, 0, []⟩).map fun (state, exit) =>
    { ri := ri
      ring := fallback ringOk NRINGS ri % NRINGS
      state := state
      exit := exit }

end Loop

end IouAi.HarnessNative
