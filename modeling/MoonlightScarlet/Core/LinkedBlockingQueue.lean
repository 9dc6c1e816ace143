import MoonlightScarlet.Support.Monitor
import MoonlightScarlet.Support.Links
/-!
# The linked blocking queue

The queue between the threads of the streaming core.  Its entries belong to the callers and
are linked in place, and one mutex protects the links and the flags.  A failed assertion, or
a null pointer that is followed, is recorded in `violated`.
-/

namespace MoonlightScarlet.Core

open Support.Monitor

/-- The results `LBQ_SUCCESS` to `LBQ_USER_WAKE`. -/
inductive LbqCode
  | success
  | interrupted
  | boundExceeded
  | noElement
  | userWake
  deriving DecidableEq, Repr

namespace LinkedBlockingQueue

/-- `LINKED_BLOCKING_QUEUE_ENTRY`; `P` are the addresses of entries, `D` the pointers to
data. -/
structure Entry (P D : Type) where
  flink : Option P
  blink : Option P
  data : D

/-- `LINKED_BLOCKING_QUEUE` with the memory of the entries. -/
structure Queue (P D : Type) where
  head : Option P := none
  tail : Option P := none
  sizeBound : Nat
  currentSize : Nat := 0
  lifetimeSize : Nat := 0
  shutdown : Bool := false
  draining : Bool := false
  pendingUserWake : Bool := false
  memory : P → Entry P D
  violated : Bool := false

inductive Call (P D : Type)
  | offer (data : D) (entry : P)
  | peek
  | poll
  | wait
  | flush
  | signalShutdown
  | signalDrain
  | signalUserWake

/-- What a call returns: a code, `LBQ_SUCCESS` with an element in `*data`, the entries that
were flushed, or nothing. -/
inductive Result (P D : Type)
  | code (code : LbqCode)
  | element (data : D)
  | entries (head : Option P)
  | done

variable {P D : Type} [DecidableEq P]

def Queue.setEntry (queue : Queue P D) (entry : P) (change : Entry P D → Entry P D) :
    Queue P D :=
  { queue with
    memory := Function.update queue.memory entry (change (queue.memory entry)) }

/-- A write through a pointer. -/
def Queue.follow (queue : Queue P D) (pointer : Option P) (change : Entry P D → Entry P D) :
    Queue P D :=
  match pointer with
  | some entry => queue.setEntry entry change
  | none => { queue with violated := true }

abbrev QueueProgram (P D : Type) := Program (Queue P D) (Result P D)

def read {α : Type} (value : Queue P D → α) (next : α → QueueProgram P D) : QueueProgram P D :=
  .access id fun queue => next (value queue)

def write (change : Queue P D → Queue P D) (next : QueueProgram P D) : QueueProgram P D :=
  .access change fun _ => next

/-- `LC_ASSERT`. -/
def assert (condition : Queue P D → Bool) (next : QueueProgram P D) : QueueProgram P D :=
  write (fun queue => { queue with violated := queue.violated || !condition queue }) next

def returnCode (code : LbqCode) : QueueProgram P D := .ret (.code code) false

/-- The links that an empty queue gets, and the ones behind the last entry. -/
def linkEntry (entry : P) (wasEmpty : Bool) (next : QueueProgram P D) : QueueProgram P D :=
  if wasEmpty then
    assert (fun queue => queue.currentSize == 0) <|
    assert (fun queue => queue.tail.isNone) <|
    write (fun queue => { queue with head := some entry }) <|
    write (fun queue => { queue with tail := some entry }) <|
    write (fun queue => queue.setEntry entry fun e => { e with blink := none }) next
  else
    assert (fun queue => queue.currentSize ≥ 1) <|
    assert (fun queue => queue.head.isSome) <|
    write (fun queue => queue.follow queue.tail fun e => { e with flink := some entry }) <|
    write (fun queue => queue.setEntry entry fun e => { e with blink := queue.tail }) <|
    write (fun queue => { queue with tail := some entry }) next

/-- `LbqOfferQueueItem`.  The first two writes come before the mutex in the source and only
touch the entry of the caller. -/
def offerQueueItem (data : D) (entry : P) : QueueProgram P D :=
  write (fun queue => queue.setEntry entry fun e => { e with flink := none }) <|
  write (fun queue => queue.setEntry entry fun e => { e with data }) <|
  read (fun queue => queue.shutdown || queue.draining) fun stopped =>
  if stopped then returnCode .interrupted
  else
    read (fun queue => queue.currentSize == queue.sizeBound) fun full =>
    if full then returnCode .boundExceeded
    else
      read (fun queue => queue.head.isNone) fun wasEmpty =>
      linkEntry entry wasEmpty <|
      write (fun queue => { queue with currentSize := queue.currentSize + 1 }) <|
      write (fun queue => { queue with lifetimeSize := queue.lifetimeSize + 1 }) <|
      .ret (.code .success) wasEmpty

/-- The check that `LbqPeekQueueElement` and `LbqPollQueueElement` begin with. -/
def checkElement (next : QueueProgram P D) : QueueProgram P D :=
  read (fun queue => queue.shutdown) fun shutdown =>
  if shutdown then returnCode .interrupted
  else
    read (fun queue => queue.head.isNone) fun empty =>
    if empty then
      read (fun queue => queue.draining) fun draining =>
      if draining then returnCode .interrupted else returnCode .noElement
    else next

/-- `*data = entry->data`. -/
def returnData (pointer : Option P) : QueueProgram P D :=
  match pointer with
  | some entry => read (fun queue => (queue.memory entry).data) fun data =>
      .ret (.element data) false
  | none => write (fun queue => { queue with violated := true }) (.ret .done false)

/-- The first entry is taken off and its data returned. -/
def takeElement : QueueProgram P D :=
  read (fun queue => queue.head) fun entry =>
  write (fun queue =>
    match entry with
    | some entry => { queue with head := (queue.memory entry).flink }
    | none => { queue with violated := true }) <|
  write (fun queue => { queue with currentSize := queue.currentSize - 1 }) <|
  read (fun queue => queue.head) fun head =>
  if head.isNone then
    assert (fun queue => queue.currentSize == 0) <|
    write (fun queue => { queue with tail := none }) <|
    returnData entry
  else
    assert (fun queue => queue.currentSize != 0) <|
    write (fun queue => queue.follow queue.head fun e => { e with blink := none }) <|
    returnData entry

def peekQueueElement : QueueProgram P D :=
  checkElement <| read (fun queue => queue.head) returnData

def pollQueueElement : QueueProgram P D := checkElement takeElement

/-- `LbqWaitForQueueElement` after its loop. -/
def waitForQueueElement : QueueProgram P D :=
  read (fun queue => queue.shutdown) fun shutdown =>
  if shutdown then returnCode .interrupted
  else
    read (fun queue => queue.pendingUserWake) fun pendingUserWake =>
    if pendingUserWake then
      write (fun queue => { queue with pendingUserWake := false }) (returnCode .userWake)
    else
      read (fun queue => queue.draining && queue.head.isNone) fun drained =>
      if drained then returnCode .interrupted
      else assert (fun queue => queue.head.isSome) takeElement

/-- The loop of `LbqWaitForQueueElement` ends. -/
def waitGuard (queue : Queue P D) : Bool :=
  !(queue.head.isNone && !queue.draining && !queue.shutdown && !queue.pendingUserWake)

def flushQueueItems : QueueProgram P D :=
  read (fun queue => queue.head) fun head =>
  if head.isSome then
    write (fun queue => { queue with head := none }) <|
    write (fun queue => { queue with tail := none }) <|
    write (fun queue => { queue with currentSize := 0 }) <|
    .ret (.entries head) false
  else
    assert (fun queue => queue.tail.isNone) <|
    assert (fun queue => queue.currentSize == 0) <|
    .ret (.entries head) false

/-- `LbqSignalQueueShutdown`, `LbqSignalQueueDrain` and `LbqSignalQueueUserWake`. -/
def signalQueue (flag : Queue P D → Queue P D) : QueueProgram P D :=
  write flag (.ret .done true)

def method : Call P D → Method (Queue P D) (Result P D)
  | .offer data entry => { program := offerQueueItem data entry }
  | .peek => { program := peekQueueElement }
  | .poll => { program := pollQueueElement }
  | .wait => { guard := waitGuard, program := waitForQueueElement }
  | .flush => { program := flushQueueItems }
  | .signalShutdown => { program := signalQueue fun queue => { queue with shutdown := true } }
  | .signalDrain => { program := signalQueue fun queue => { queue with draining := true } }
  | .signalUserWake =>
      { program := signalQueue fun queue => { queue with pendingUserWake := true } }

/-- `LbqInitializeLinkedBlockingQueue`. -/
def initializeLinkedBlockingQueue (sizeBound : Nat) (memory : P → Entry P D) : Queue P D :=
  { sizeBound, memory }

end LinkedBlockingQueue

end MoonlightScarlet.Core
