import SiriusDrive.PacketIo

/-! # Buffered packet io

`PacketPayload`, the writing half of a `BasicPacketSocket` and the queues of
`BufferedPacketIo`, which start a write or a read when the one before it has completed.
-/

namespace SiriusDrive

/-- `PacketPayload`, with what its buffers point to. -/
structure PacketPayload where
  header : PacketHeader
  buffers : List (List UInt8) := []
  deriving Repr, DecidableEq

namespace PacketPayload

def empty : PacketPayload := { header := { size := 0, type := PacketType.undefined } }

def ofType (type : PacketType) : PacketPayload :=
  { header := { size := BitVec.ofNat 32 PacketHeader.sizeOf, type := type } }

/-- The payload around a packet; `none` if the packet says it is shorter than a header. -/
def ofPacket (packet : List UInt8) : Option PacketPayload :=
  let header := PacketHeader.ofBytes packet
  if header.size.toNat < PacketHeader.sizeOf then none
  else if header.size.toNat = PacketHeader.sizeOf then some { header := header }
  else some { header := header,
              buffers := [(packet.take header.size.toNat).drop PacketHeader.sizeOf] }

def unset (payload : PacketPayload) : Bool := payload.header.size = 0

/-- `Merge`: the packet envelops the payload. -/
def merge (packet : List UInt8) (payload : PacketPayload) : Option PacketPayload :=
  (ofPacket packet).map fun mergedPayload =>
    if payload.unset then mergedPayload
    else
      { header := { mergedPayload.header with
          size := mergedPayload.header.size + payload.header.size },
        buffers := mergedPayload.buffers ++ [payload.header.bytes] ++ payload.buffers }

def bytes (payload : PacketPayload) : List UInt8 := payload.header.bytes ++ payload.buffers.flatten

/-- The header says how long the payload is. -/
def IsWhole (payload : PacketPayload) : Prop := payload.bytes.length = payload.header.size.toNat

instance : DecidablePred IsWhole := fun _ => inferInstanceAs (Decidable (_ = _))

end PacketPayload

/-! ## The queue of operations -/

/-- What is posted to the strand: the push of a request, or the operation itself, which the
    socket posts when the request is invoked. -/
inductive Posted (α : Type*) where
  | push (request : α)
  | invoke (request : α)
  deriving Repr, DecidableEq

namespace Posted

variable {α : Type*}

def pushed? : Posted α → Option α
  | .push request => some request
  | .invoke _ => none

def invoked? : Posted α → Option α
  | .invoke request => some request
  | .push _ => none

end Posted

/-- `QueuedOperation` with its `RequestQueue`. A request stands for its callback too. -/
structure QueuedOperation (α : Type*) where
  strand : List (Posted α) := []
  requests : List α := []
  deriving Repr, DecidableEq

namespace QueuedOperation

variable {α : Type*} (operation : QueuedOperation α)

/-- `QueuedOperation::push`. -/
def push (request : α) : QueuedOperation α :=
  { operation with strand := operation.strand ++ [.push request] }

/-- `RequestQueue::next`. -/
def next : QueuedOperation α :=
  match operation.requests with
  | [] => operation
  | request :: _ => { operation with strand := operation.strand ++ [.invoke request] }

/-- `RequestQueue::push`. -/
def pushRequest (request : α) : QueuedOperation α :=
  let hasPendingWork := !operation.requests.isEmpty
  let operation := { operation with requests := operation.requests ++ [request] }
  if hasPendingWork then operation else operation.next

/-- What `WrappedWithRequests` does around the callback of a request. -/
def completed : QueuedOperation α :=
  let operation := { operation with requests := operation.requests.tail }
  if operation.requests.isEmpty then operation else operation.next

/-- The strand runs what was posted first; the operation that is to be started, if any. -/
def runPosted : Option (QueuedOperation α × Option α) :=
  match operation.strand with
  | [] => none
  | .push request :: strand => some (({ operation with strand := strand }).pushRequest request, none)
  | .invoke request :: strand => some ({ operation with strand := strand }, some request)

/-- The requests that have not completed, in the order in which they were made. -/
def pending : List α := operation.requests ++ operation.strand.filterMap Posted.pushed?

/-- The request in front of the queue is started, and no other one: it waits on the strand or is
    the one that is running. -/
def InTurn (running : List α) : Prop :=
  running ++ operation.strand.filterMap Posted.invoked? = operation.requests.head?.toList

variable {operation} {running : List α} {request : α}

@[simp] theorem pending_push (request : α) :
    (operation.push request).pending = operation.pending ++ [request] := by
  simp [pending, push, Posted.pushed?]

theorem InTurn.push (inTurn : operation.InTurn running) (request : α) :
    (operation.push request).InTurn running := by
  simpa [InTurn, QueuedOperation.push, Posted.invoked?, List.filterMap_cons] using inTurn

theorem InTurn.start : ({} : QueuedOperation α).InTurn [] := by simp [InTurn]

/-- A request that is pushed keeps its place, and is started if the queue was empty. -/
theorem InTurn.pushRequest (inTurn : operation.InTurn running) (request : α) :
    (operation.pushRequest request).InTurn running ∧
      (operation.pushRequest request).pending =
        operation.requests ++ request :: operation.strand.filterMap Posted.pushed? := by
  cases shape : operation.requests with
  | nil =>
      simp only [InTurn, shape, List.head?_nil, Option.toList_none, List.append_eq_nil_iff] at inTurn
      simp [QueuedOperation.pushRequest, next, InTurn, pending, shape, Posted.pushed?,
        Posted.invoked?, inTurn]
  | cons first others =>
      simp only [InTurn, shape] at inTurn
      simp [QueuedOperation.pushRequest, InTurn, pending, shape, inTurn]

/-- What the strand runs is either a push or the start of the request whose turn it is. -/
theorem InTurn.runPosted (inTurn : operation.InTurn running) {after : QueuedOperation α}
    {invoked : Option α} (runs : operation.runPosted = some (after, invoked)) :
    after.InTurn (running ++ invoked.toList) ∧ after.pending = operation.pending ∧
      (invoked.isSome → running = []) := by
  unfold QueuedOperation.runPosted at runs
  split at runs
  · simp at runs
  · rename_i request strand shape
    simp only [Option.some.injEq, Prod.mk.injEq] at runs
    obtain ⟨rfl, rfl⟩ := runs
    have shorter : ({ operation with strand := strand } : QueuedOperation α).InTurn running := by
      simpa [InTurn, shape, Posted.invoked?, List.filterMap_cons] using inTurn
    obtain ⟨turn, same⟩ := shorter.pushRequest request
    have before : operation.pending =
        operation.requests ++ request :: strand.filterMap Posted.pushed? := by
      simp [pending, shape, Posted.pushed?]
    exact ⟨by simpa using turn, by rw [before, same], by simp⟩
  · rename_i request strand shape
    simp only [Option.some.injEq, Prod.mk.injEq] at runs
    obtain ⟨rfl, rfl⟩ := runs
    simp only [InTurn, shape, List.filterMap_cons, Posted.invoked?] at inTurn
    have before : operation.pending = operation.requests ++ strand.filterMap Posted.pushed? := by
      simp [pending, shape, Posted.pushed?, List.filterMap_cons]
    refine ⟨by simpa [InTurn] using inTurn, by rw [before]; simp [pending], fun _ => ?_⟩
    have atMostOne := congrArg List.length inTurn
    cases found : operation.requests.head? <;> simp [found] at atMostOne
    exact List.eq_nil_of_length_eq_zero (by omega)

/-- The request that completes is the one in front, and the next one takes its turn. -/
theorem InTurn.completed (inTurn : operation.InTurn [request]) :
    operation.completed.InTurn [] ∧ operation.pending = request :: operation.completed.pending := by
  cases shape : operation.requests with
  | nil => simp [InTurn, shape] at inTurn
  | cons first others =>
      simp only [InTurn, shape, List.head?_cons, Option.toList_some, List.cons_append,
        List.nil_append, List.cons.injEq] at inTurn
      obtain ⟨rfl, quiet⟩ := inTurn
      cases others with
      | nil => simp [QueuedOperation.completed, InTurn, pending, shape, quiet]
      | cons second others =>
          simp [QueuedOperation.completed, next, InTurn, pending, shape, quiet, Posted.pushed?,
            Posted.invoked?]

end QueuedOperation

/-! ## Writing -/

/-- `WriteContext`, with the bytes that its `async_write` under way has still to write. -/
structure WriteContext where
  payload : PacketPayload
  nextBufferIndex : Nat
  remaining : List UInt8
  deriving Repr, DecidableEq

/-- The writing half of a buffered socket. -/
structure PacketWriter where
  maxPacketDataSize : Nat
  operation : QueuedOperation PacketPayload := {}
  writing : List WriteContext := []
  /-- A write has failed, and all later ones do. -/
  isBroken : Bool := false
  sent : List UInt8 := []
  /-- The callbacks that were called, each with the payload it was given for. -/
  completed : List (PacketPayload × SocketOperationCode) := []
  deriving Repr, DecidableEq

namespace PacketWriter

variable (writer : PacketWriter)

/-- The callback of a write, as `BufferedPacketIo` wraps it. -/
def callback (payload : PacketPayload) (code : SocketOperationCode) : PacketWriter :=
  { writer with operation := writer.operation.completed,
                completed := writer.completed ++ [(payload, code)] }

/-- `BasicPacketSocket::write`. -/
def write (payload : PacketPayload) : PacketWriter :=
  if ¬ payload.header.isPacketDataSizeValid writer.maxPacketDataSize then
    writer.callback payload .malformedData
  else
    { writer with writing := writer.writing ++
        [{ payload := payload, nextBufferIndex := 0, remaining := payload.header.bytes }] }

/-- `writeNext` of the context with this index, when its `async_write` ended with `lastCode`. -/
def writeNext (index : Nat) (context : WriteContext) (lastCode : SocketOperationCode) :
    PacketWriter :=
  let ended := { writer with writing := writer.writing.eraseIdx index }
  if lastCode ≠ .success then ended.callback context.payload lastCode
  else
    match context.payload.buffers[context.nextBufferIndex]? with
    | none => ended.callback context.payload lastCode
    | some buffer =>
        let context := { context with
          nextBufferIndex := context.nextBufferIndex + 1, remaining := buffer }
        { writer with writing := writer.writing.set index context }

inductive Event where
  /-- `BufferedPacketIo::write`. -/
  | write (payload : PacketPayload)
  | runPosted
  /-- The connection takes this many bytes of the operation with this index. -/
  | transmit (index count : Nat)
  | fail (index : Nat)
  deriving Repr, DecidableEq

def onEvent : Event → Option PacketWriter
  | .write payload => some { writer with operation := writer.operation.push payload }
  | .runPosted =>
      writer.operation.runPosted.map fun (operation, invoked) =>
        match invoked with
        | none => { writer with operation := operation }
        | some payload => { writer with operation := operation }.write payload
  | .transmit index count =>
      match writer.writing[index]? with
      | none => none
      | some context =>
          if writer.isBroken ∨ context.remaining.length < count ∨
              count = 0 ∧ context.remaining ≠ [] then none
          else
            let context' := { context with remaining := context.remaining.drop count }
            let writer' := { writer with sent := writer.sent ++ context.remaining.take count,
                                         writing := writer.writing.set index context' }
            some (if context'.remaining = [] then writer'.writeNext index context' .success
              else writer')
  | .fail index =>
      (writer.writing[index]?).map fun context =>
        { writer with isBroken := true }.writeNext index context .writeError

end PacketWriter

/-! ## Reading -/

/-- The reading half of a buffered socket; a request is the number of its callback. -/
structure PacketReader where
  socket : PacketSocket
  operation : QueuedOperation Nat := {}
  /-- The callbacks that the operations of the socket under way will call. -/
  callbacks : List Nat := []
  completed : List (Nat × ReadResult) := []
  deriving Repr, DecidableEq

namespace PacketReader

variable (reader : PacketReader)

/-- The callback of a read, as `BufferedPacketIo` wraps it. -/
def callback (id : Nat) (result : ReadResult) : PacketReader :=
  { reader with operation := reader.operation.completed,
                completed := reader.completed ++ [(id, result)] }

/-- What the socket has done for the callback: it called it, or it waits for more data. -/
def answered (id : Nat) (socket : PacketSocket) (results : List ReadResult) : PacketReader :=
  let reader := { reader with socket := socket }
  if results = [] then { reader with callbacks := reader.callbacks ++ [id] }
  else results.foldl (fun reader result => reader.callback id result) reader

inductive Event where
  /-- `BufferedPacketIo::read`. -/
  | read (id : Nat)
  | runPosted (capacity : Nat)
  | receive (received : List UInt8) (capacity : Nat)
  | fail (code : SocketOperationCode)
  deriving Repr, DecidableEq

def Event.received : Event → List UInt8
  | .receive received _ => received
  | .read _ | .runPosted _ | .fail _ => []

/-- The handler of the operation under way, for the callback it was started with. -/
def handled (step : Option (PacketSocket × List ReadResult)) : Option PacketReader :=
  match step, reader.callbacks with
  | some (socket, results), id :: callbacks =>
      some ({ reader with callbacks := callbacks }.answered id socket results)
  | _, _ => none

def onEvent : Event → Option PacketReader
  | .read id => some { reader with operation := reader.operation.push id }
  | .runPosted capacity =>
      reader.operation.runPosted.map fun (operation, invoked) =>
        match invoked with
        | none => { reader with operation := operation }
        | some id =>
            let (socket, results) := reader.socket.read false capacity
            { reader with operation := operation }.answered id socket results
  | .receive received capacity => reader.handled (reader.socket.readHandler received capacity)
  | .fail code =>
      if code = .closed ∨ code = .readError then reader.handled (reader.socket.readFailed code)
      else none

end PacketReader

end SiriusDrive
