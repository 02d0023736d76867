import AutoSerialBridge.Wire.Frame
import Mathlib

/-!
# Auto Serial Bridge — `ReliableSender`

The handlers of `reliable_sender.hpp` as functions on the sender's members. All of them run on the
strand. `send_callback_` is called at the very end of `attempt_send`, so a handler returns the
request that is to be passed to it (`SendRequest`) and the caller passes it on. The timer of an
entry is known by the seq its armed wait carries.

Two things are not in the source: the number of an entry, which counts the messages of an id in the
order of `send`, and `acked`, which counts those that were removed by an Ack. Nothing depends on
them.
-/

namespace AutoSerialBridge

/-- The completion `attempt_send` passes to `send_callback_`, by what it captures. -/
structure SendCompletion where
  key : UInt8
  seq : UInt8
  generation : UInt64
deriving DecidableEq, Repr

/-- The arguments of a call of `send_callback_`, and the message it is about. -/
structure SendRequest where
  number : Nat
  bytes : List UInt8
  completion : SendCompletion
deriving DecidableEq, Repr

/-- `ReliableSender::PendingEntry`. -/
structure PendingEntry where
  number : Nat
  packedBytes : List UInt8
  expectedSeq : UInt8 := 0
  seqAssigned : Bool := false
  sendGeneration : UInt64 := 0
  retriesSinceWarning : Int := 0
  sendInProgress : Bool := false
  awaitingAck : Bool := false
  timer : Option UInt8 := none
deriving DecidableEq, Repr

/-- The members of `ReliableSender`. -/
structure ReliableSender where
  seqCounter : UInt8
  pending : UInt8 → List PendingEntry
  acked : UInt8 → Nat

namespace PendingEntry

variable (p : Protocol)

/-- The first attempt assigns the seq and injects it. -/
def assignSeq (entry : PendingEntry) (seq : UInt8) : PendingEntry :=
  { entry with
    expectedSeq := seq
    packedBytes := injectTrailingSeq p entry.packedBytes seq
    seqAssigned := true }

/-- Every attempt counts a generation and marks the send as in progress. -/
def startSend (entry : PendingEntry) : PendingEntry :=
  { entry with sendInProgress := true, sendGeneration := entry.sendGeneration + 1 }

def completion (entry : PendingEntry) (key : UInt8) : SendCompletion :=
  ⟨key, entry.expectedSeq, entry.sendGeneration⟩

def request (entry : PendingEntry) (key : UInt8) : SendRequest :=
  ⟨entry.number, entry.packedBytes, entry.completion key⟩

end PendingEntry

namespace ReliableSender

variable (p : Protocol)

def initial : ReliableSender where
  seqCounter := 0
  pending _ := []
  acked _ := 0

def setQueue (s : ReliableSender) (key : UInt8) (queue : List PendingEntry) : ReliableSender :=
  { s with pending := Function.update s.pending key queue }

/-- `attempt_send`. -/
def attemptSend (s : ReliableSender) (key : UInt8) : ReliableSender × Option SendRequest :=
  match s.pending key with
  | [] => (s, none)
  | entry :: rest =>
    if entry.sendInProgress then (s, none)
    else
      let (entry, seqCounter) :=
        if entry.seqAssigned then (entry, s.seqCounter)
        else (entry.assignSeq p s.seqCounter, s.seqCounter + 1)
      let entry := entry.startSend
      ({ s.setQueue key (entry :: rest) with seqCounter := seqCounter }, some (entry.request key))

/-- `send_impl`. -/
def sendImpl (s : ReliableSender) (id : UInt8) (packedBytes : List UInt8) :
    ReliableSender × Option SendRequest :=
  let queue := s.pending id
  let entry : PendingEntry :=
    { number := s.acked id + queue.length, packedBytes := packedBytes }
  let s := s.setQueue id (queue ++ [entry])
  if (queue ++ [entry]).length = 1 then attemptSend p s id else (s, none)

/-- `schedule_retry`: waiting again cancels a wait that is still armed. -/
def scheduleRetry (s : ReliableSender) (key : UInt8) : ReliableSender :=
  match s.pending key with
  | [] => s
  | entry :: rest => s.setQueue key ({ entry with timer := some entry.expectedSeq } :: rest)

/-- `handle_send_completion`. -/
def handleSendCompletion (s : ReliableSender) (c : SendCompletion) (success : Bool) :
    ReliableSender :=
  match s.pending c.key with
  | [] => s
  | entry :: rest =>
    if entry.expectedSeq ≠ c.seq ∨ entry.sendGeneration ≠ c.generation then s
    else
      scheduleRetry (s.setQueue c.key
        ({ entry with sendInProgress := false, awaitingAck := success } :: rest)) c.key

/-- The entry as `handle_retry_timeout` leaves it. What `retry_threshold_callback_` does with a
reached threshold is to log it. -/
def retriedEntry (entry : PendingEntry) : PendingEntry :=
  let retries := entry.retriesSinceWarning + 1
  { entry with
    awaitingAck := false
    retriesSinceWarning :=
      if 0 < p.reliableMaxRetries ∧ p.reliableMaxRetries ≤ retries then 0 else retries }

/-- `handle_retry_timeout`. -/
def handleRetryTimeout (s : ReliableSender) (key seq : UInt8) :
    ReliableSender × Option SendRequest :=
  match s.pending key with
  | [] => (s, none)
  | entry :: rest =>
    if entry.expectedSeq ≠ seq then (s, none)
    else attemptSend p (s.setQueue key (retriedEntry p entry :: rest)) key

/-- `on_ack_received_impl`. Destroying the entry cancels its timer. -/
def onAckReceivedImpl (s : ReliableSender) (ackedId ackSeq : UInt8) :
    ReliableSender × Option SendRequest :=
  match s.pending ackedId with
  | [] => (s, none)
  | entry :: rest =>
    if entry.expectedSeq ≠ ackSeq ∨ entry.awaitingAck = false then (s, none)
    else
      let s := s.setQueue ackedId rest
      let s := { s with acked := Function.update s.acked ackedId (s.acked ackedId + 1) }
      if rest = [] then (s, none) else attemptSend p s ackedId

/-- `clear_all_impl`. -/
def clearAllImpl (s : ReliableSender) : ReliableSender := { s with pending := fun _ => [] }

/-- The wait of an entry's timer expires: it is no longer armed, and its handler posts
`handle_retry_timeout` with the seq it carries. -/
def expire (s : ReliableSender) (key : UInt8) (index : Nat) : Option (ReliableSender × UInt8) :=
  match (s.pending key)[index]? with
  | some entry =>
    match entry.timer with
    | some seq =>
      some (s.setQueue key ((s.pending key).set index { entry with timer := none }), seq)
    | none => none
  | none => none

end ReliableSender

end AutoSerialBridge
