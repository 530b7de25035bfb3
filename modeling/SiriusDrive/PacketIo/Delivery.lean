import SiriusDrive.PacketIo.BufferedPacketIo
import SiriusDrive.PacketIo.Reading

/-! # Delivery of packets

Two buffered sockets with a connection between them. Whatever the interleaving of the calls,
the strands and the pieces in which the connection moves the bytes, the packets that are read
are the payloads that were written, in their order, each of them once.
-/

namespace SiriusDrive

namespace PacketPayload

variable {payload : PacketPayload} {maxPacketDataSize : Nat}

theorem isRecord_bytes (isWhole : payload.IsWhole)
    (isValid : payload.header.isPacketDataSizeValid maxPacketDataSize = true) :
    (packetFraming maxPacketDataSize).IsRecord payload.bytes := by
  have header : PacketHeader.ofBytes (payload.bytes.take PacketHeader.sizeOf) = payload.header := by
    rw [PacketHeader.ofBytes_take]
    exact PacketHeader.ofBytes_bytes payload.header payload.buffers.flatten
  simp only [RecordFraming.IsRecord, packetFraming, packetSize?, header, isValid, if_true]
  simpa [IsWhole, eq_comm] using isWhole

end PacketPayload

namespace PacketWriter

/-- The bytes of the payloads that a socket does not reject, one after the other. -/
def stream (maxPacketDataSize : Nat) (payloads : List PacketPayload) : List UInt8 :=
  ((payloads.filter (·.header.isPacketDataSizeValid maxPacketDataSize)).map
    PacketPayload.bytes).flatten

def WriteContext.unsent (context : WriteContext) : List UInt8 :=
  context.remaining ++ (context.payload.buffers.drop context.nextBufferIndex).flatten

variable (writer : PacketWriter)

def answered : List PacketPayload := writer.completed.map (·.1)

/-- The payloads of all the writes, in the order in which they were made. -/
def submitted : List PacketPayload := writer.answered ++ writer.operation.pending

/-- The writer's invariant: one write at a time, in the order of the calls. -/
structure Stands : Prop where
  turn : writer.operation.InTurn (writer.writing.map (·.payload))
  isValid : ∀ context ∈ writer.writing,
    context.payload.header.isPacketDataSizeValid writer.maxPacketDataSize = true
  bytes : writer.isBroken = false →
    writer.sent ++ writer.writing.flatMap WriteContext.unsent =
      stream writer.maxPacketDataSize (writer.answered ++ writer.writing.map (·.payload))
  broken : writer.isBroken = true →
    writer.sent <+: stream writer.maxPacketDataSize writer.answered
  codes : ∀ entry ∈ writer.completed,
    (entry.2 = .malformedData ↔
      entry.1.header.isPacketDataSizeValid writer.maxPacketDataSize = false) ∧
    (writer.isBroken = false → entry.2 = .success ∨ entry.2 = .malformedData)

variable {writer} {maxPacketDataSize : Nat}

theorem stream_append (first second : List PacketPayload) :
    stream maxPacketDataSize (first ++ second) =
      stream maxPacketDataSize first ++ stream maxPacketDataSize second := by
  simp [stream]

theorem stream_valid {payload : PacketPayload}
    (isValid : payload.header.isPacketDataSizeValid maxPacketDataSize = true) :
    stream maxPacketDataSize [payload] = payload.bytes := by
  simp [stream, isValid]

theorem stream_invalid {payload : PacketPayload}
    (isInvalid : payload.header.isPacketDataSizeValid maxPacketDataSize = false) :
    stream maxPacketDataSize [payload] = [] := by
  simp [stream, isInvalid]

theorem Stands.start (maxPacketDataSize : Nat) :
    Stands { maxPacketDataSize := maxPacketDataSize } where
  turn := by simpa using QueuedOperation.InTurn.start
  isValid := by simp
  bytes := by simp [answered, stream]
  broken := by simp
  codes := by simp

theorem Stands.single (stands : writer.Stands) {index : Nat} {context : WriteContext}
    (found : writer.writing[index]? = some context) : index = 0 ∧ writer.writing = [context] := by
  have length := congrArg List.length stands.turn
  have atMostOne : writer.operation.requests.head?.toList.length ≤ 1 := by
    cases writer.operation.requests.head? <;> simp
  simp only [List.length_append, List.length_map] at length
  cases shape : writer.writing with
  | nil => simp [shape] at found
  | cons first others =>
      have alone : others = [] := by
        simp only [shape, List.length_cons] at length
        exact List.eq_nil_of_length_eq_zero (by omega)
      cases index with
      | zero => simp_all
      | succ index => simp [shape, alone] at found

/-- What is known of a writer whose running write is about to be answered with `code`. -/
theorem Stands.callback (writer : PacketWriter) {payload : PacketPayload} {code : SocketOperationCode}
    (idle : writer.writing = []) (turn : writer.operation.InTurn [payload])
    (bytes : writer.isBroken = false →
      writer.sent = stream writer.maxPacketDataSize (writer.answered ++ [payload]))
    (broken : writer.isBroken = true →
      writer.sent <+: stream writer.maxPacketDataSize (writer.answered ++ [payload]))
    (codes : ∀ entry ∈ writer.completed ++ [(payload, code)],
      (entry.2 = .malformedData ↔
        entry.1.header.isPacketDataSizeValid writer.maxPacketDataSize = false) ∧
      (writer.isBroken = false → entry.2 = .success ∨ entry.2 = .malformedData)) :
    (writer.callback payload code).Stands ∧
      (writer.callback payload code).submitted = writer.submitted := by
  obtain ⟨next, same⟩ := turn.completed
  refine ⟨⟨?_, ?_, ?_, ?_, codes⟩, ?_⟩
  · simpa [PacketWriter.callback, idle] using next
  · simp [PacketWriter.callback, idle]
  · simpa [PacketWriter.callback, idle, answered] using bytes
  · simpa [PacketWriter.callback, answered] using broken
  · simp [submitted, answered, PacketWriter.callback, same]

theorem Stands.write (stands : writer.Stands) (idle : writer.writing = [])
    {operation : QueuedOperation PacketPayload} {payload : PacketPayload}
    (turn : operation.InTurn [payload]) :
    (({ writer with operation := operation } : PacketWriter).write payload).Stands ∧
      (({ writer with operation := operation } : PacketWriter).write payload).submitted =
        writer.answered ++ operation.pending := by
  have bytes := stands.bytes
  simp only [idle, List.flatMap_nil, List.map_nil, List.append_nil] at bytes
  unfold PacketWriter.write
  split
  · rename_i invalid
    simp only [Bool.not_eq_true] at invalid
    have nothing := stream_invalid invalid
    refine Stands.callback { writer with operation := operation } idle turn ?_ ?_ ?_
    · simpa [answered, stream_append, nothing] using bytes
    · simpa [answered, stream_append, nothing] using stands.broken
    · intro entry member
      cases List.mem_append.mp member with
      | inl before => exact stands.codes entry before
      | inr here =>
          obtain rfl := List.mem_singleton.mp here
          simp [invalid]
  · rename_i valid
    simp only [Decidable.not_not] at valid
    have written := stream_valid valid
    refine ⟨⟨by simpa [idle] using turn, by simpa [idle] using valid, ?_, ?_, stands.codes⟩, ?_⟩
    · intro whole
      simp [idle, answered, stream_append, written, bytes whole, WriteContext.unsent,
        PacketPayload.bytes]
    · simpa [answered] using stands.broken
    · simp [submitted, answered]

/-- What a write of the last buffer or of a buffer before it leads to. -/
theorem Stands.writeNext (stands : writer.Stands) {context : WriteContext}
    (single : writer.writing = [context]) (whole : writer.isBroken = false)
    (written : context.remaining = []) :
    (writer.writeNext 0 context .success).Stands ∧
      (writer.writeNext 0 context .success).submitted = writer.submitted := by
  have turn := stands.turn
  have valid := stands.isValid context (by simp [single])
  have bytes := stands.bytes whole
  simp only [single, List.map_cons, List.map_nil, List.flatMap_cons, List.flatMap_nil,
    List.append_nil, WriteContext.unsent, written, List.nil_append] at turn bytes
  simp only [PacketWriter.writeNext, ne_eq, not_true_eq_false, if_false]
  cases next : context.payload.buffers[context.nextBufferIndex]? with
  | none =>
      have past := List.getElem?_eq_none_iff.mp next
      simp only [List.drop_of_length_le past, List.flatten_nil, List.append_nil] at bytes
      refine Stands.callback { writer with writing := writer.writing.eraseIdx 0 }
        (by simp [single]) turn ?_ (by simp [whole]) ?_
      · simpa [answered] using fun _ => bytes
      · intro entry member
        cases List.mem_append.mp member with
        | inl before => exact stands.codes entry before
        | inr here =>
            obtain rfl := List.mem_singleton.mp here
            simp [valid]
  | some buffer =>
      obtain ⟨inside, isBuffer⟩ := List.getElem?_eq_some_iff.mp next
      rw [List.drop_eq_getElem_cons inside, isBuffer] at bytes
      refine ⟨⟨by simpa [single] using turn, by simpa [single] using valid, ?_, ?_, stands.codes⟩, ?_⟩
      · simpa [single, WriteContext.unsent, answered] using fun _ => bytes
      · simp [whole]
      · simp [submitted, answered]

theorem Stands.fail (stands : writer.Stands) {context : WriteContext}
    (single : writer.writing = [context]) :
    ((({ writer with isBroken := true } : PacketWriter).writeNext 0 context .writeError).Stands) ∧
      (({ writer with isBroken := true } : PacketWriter).writeNext 0 context .writeError).submitted =
        writer.submitted := by
  have turn := stands.turn
  have valid := stands.isValid context (by simp [single])
  simp only [single, List.map_cons, List.map_nil] at turn
  simp only [PacketWriter.writeNext, ne_eq, reduceCtorEq, not_false_eq_true, if_true]
  refine Stands.callback
    { writer with isBroken := true, writing := writer.writing.eraseIdx 0 }
    (by simp [single]) turn (by simp) ?_ ?_
  · intro _
    cases whole : writer.isBroken with
    | true =>
        have before := stands.broken whole
        exact before.trans (by simp [answered, stream_append])
    | false =>
        have bytes := stands.bytes whole
        simp only [single, List.map_cons, List.map_nil] at bytes
        exact ⟨_, by simpa [answered] using bytes⟩
  · intro entry member
    cases List.mem_append.mp member with
    | inl before => exact ⟨(stands.codes entry before).1, by simp⟩
    | inr here =>
        obtain rfl := List.mem_singleton.mp here
        simp [valid]

theorem Stands.transmit (stands : writer.Stands) {context : WriteContext}
    (single : writer.writing = [context]) (whole : writer.isBroken = false) (count : Nat) :
    Stands { writer with
      sent := writer.sent ++ context.remaining.take count,
      writing := [{ context with remaining := context.remaining.drop count }] } := by
  have turn := stands.turn
  have valid := stands.isValid context (by simp [single])
  have bytes := stands.bytes whole
  simp only [single, List.map_cons, List.map_nil, List.flatMap_cons, List.flatMap_nil,
    List.append_nil, WriteContext.unsent] at turn bytes
  refine ⟨by simpa using turn, by simpa using valid, ?_, by simp [whole], stands.codes⟩
  simpa [WriteContext.unsent, answered, ← List.append_assoc (context.remaining.take count)]
    using fun _ => bytes

def Event.written : Event → List PacketPayload
  | .write payload => [payload]
  | .runPosted | .transmit _ _ | .fail _ => []

/-- One event keeps the invariant, and submits its payload behind the others. -/
theorem Stands.onEvent (stands : writer.Stands) {event : Event} {after : PacketWriter}
    (step : writer.onEvent event = some after) :
    after.Stands ∧ after.submitted = writer.submitted ++ event.written ∧
      after.maxPacketDataSize = writer.maxPacketDataSize := by
  cases event with
  | write payload =>
      simp only [PacketWriter.onEvent, Option.some.injEq] at step
      subst step
      exact ⟨⟨stands.turn.push payload, stands.isValid, stands.bytes, stands.broken, stands.codes⟩,
        by simp [submitted, answered, Event.written], rfl⟩
  | runPosted =>
      obtain ⟨⟨operation, invoked⟩, runs, rfl⟩ := Option.map_eq_some_iff.mp step
      obtain ⟨turn, same, alone⟩ := stands.turn.runPosted runs
      cases invoked with
      | none =>
          exact ⟨⟨by simpa using turn, stands.isValid, stands.bytes, stands.broken, stands.codes⟩,
            by simp [submitted, answered, same, Event.written], rfl⟩
      | some payload =>
          have idle := alone rfl
          simp only [idle, Option.toList_some, List.nil_append] at turn
          obtain ⟨kept, sameSubmitted⟩ := stands.write (by simpa using idle) turn
          have before : writer.submitted = writer.answered ++ operation.pending := by
            rw [submitted, same]
          refine ⟨kept, by simpa [before, Event.written] using sameSubmitted, ?_⟩
          simp only [PacketWriter.write]
          split <;> rfl
  | transmit index count =>
      simp only [PacketWriter.onEvent] at step
      split at step
      · simp at step
      · rename_i context found
        obtain ⟨rfl, single⟩ := stands.single found
        split at step
        · simp at step
        · rename_i allowed
          have whole : writer.isBroken = false := by simp_all
          have moved := stands.transmit single whole count
          simp only [single, List.set_cons_zero, Option.some.injEq] at step
          subst step
          split
          · rename_i written
            obtain ⟨kept, same⟩ := moved.writeNext rfl whole written
            refine ⟨kept, by rw [same]; simp [submitted, answered, Event.written], ?_⟩
            simp only [PacketWriter.writeNext, ne_eq, not_true_eq_false, if_false]
            split <;> rfl
          · exact ⟨moved, by simp [submitted, answered, Event.written], rfl⟩
  | fail index =>
      obtain ⟨context, found, rfl⟩ := Option.map_eq_some_iff.mp step
      obtain ⟨rfl, single⟩ := stands.single found
      obtain ⟨kept, same⟩ := stands.fail single
      exact ⟨kept, by simpa [Event.written] using same,
        by simp [PacketWriter.writeNext, PacketWriter.callback]⟩

theorem sent_callback (payload : PacketPayload) (code : SocketOperationCode) :
    (writer.callback payload code).sent = writer.sent := rfl

theorem sent_writeNext (index : Nat) (context : WriteContext) (code : SocketOperationCode) :
    (writer.writeNext index context code).sent = writer.sent := by
  unfold PacketWriter.writeNext
  split
  · simp [sent_callback]
  · split <;> simp [sent_callback]

theorem sent_onEvent {event : Event} {after : PacketWriter}
    (step : writer.onEvent event = some after) : writer.sent <+: after.sent := by
  cases event with
  | write payload =>
      simp only [PacketWriter.onEvent, Option.some.injEq] at step
      simp [← step]
  | runPosted =>
      obtain ⟨⟨operation, invoked⟩, -, rfl⟩ := Option.map_eq_some_iff.mp step
      cases invoked with
      | none => simp
      | some payload =>
          simp only [PacketWriter.write]
          split <;> simp [sent_callback]
  | transmit index count =>
      simp only [PacketWriter.onEvent] at step
      split at step
      · simp at step
      · split at step
        · simp at step
        · simp only [Option.some.injEq] at step
          subst step
          split <;> simp [sent_writeNext]
  | fail index =>
      obtain ⟨context, -, rfl⟩ := Option.map_eq_some_iff.mp step
      simp [sent_writeNext]

/-- What has gone out are the first bytes of the payloads that were submitted. -/
theorem Stands.sent_starts (stands : writer.Stands) :
    writer.sent <+: stream writer.maxPacketDataSize writer.submitted := by
  have front : writer.answered ++ writer.writing.map (·.payload) <+: writer.submitted := by
    have turn := stands.turn
    have isFirst : writer.writing.map (·.payload) <+: writer.operation.requests := by
      have first : writer.operation.requests.head?.toList <+: writer.operation.requests := by
        cases writer.operation.requests <;> simp
      exact (List.prefix_append _ _).trans (turn ▸ first)
    rw [submitted, QueuedOperation.pending]
    exact (List.prefix_append_right_inj _).mpr (isFirst.trans (List.prefix_append _ _))
  have grows : ∀ {first second : List PacketPayload}, first <+: second →
      stream writer.maxPacketDataSize first <+: stream writer.maxPacketDataSize second := by
    rintro first second ⟨more, rfl⟩
    simp [stream_append]
  cases whole : writer.isBroken with
  | true => exact (stands.broken whole).trans (grows ((List.prefix_append _ _).trans front))
  | false =>
      have bytes := stands.bytes whole
      exact (List.prefix_append _ _).trans (bytes ▸ grows front)

theorem Stands.sent_eq (stands : writer.Stands) (whole : writer.isBroken = false)
    (quiet : writer.operation.pending = []) :
    writer.sent = stream writer.maxPacketDataSize writer.submitted := by
  have turn := stands.turn
  simp only [QueuedOperation.pending, List.append_eq_nil_iff] at quiet
  simp only [QueuedOperation.InTurn, quiet.1, List.head?_nil, Option.toList_none,
    List.append_eq_nil_iff, List.map_eq_nil_iff] at turn
  have bytes := stands.bytes whole
  simpa [turn.1, submitted, QueuedOperation.pending, quiet] using bytes

end PacketWriter

namespace PacketReader

variable (reader : PacketReader)

/-- The callbacks of all the reads, in the order in which they were made. -/
def requested : List Nat := reader.completed.map (·.1) ++ reader.operation.pending

def results : List ReadResult := reader.completed.map (·.2)

/-- The reader's invariant: one read at a time, in the order of the calls, which cuts what has
    been received. -/
structure Stands (options : PacketSocketOptions) (received : List UInt8) : Prop where
  turn : reader.operation.InTurn reader.callbacks
  sameLength : reader.callbacks.length = reader.socket.reading.length
  single : ∀ operation ∈ reader.socket.reading, operation.2 = false
  readsInTurn : reader.socket.ReadsInTurn
  sameOptions : reader.socket.options = options
  cutsInto : CutsInto options.maxPacketDataSize received reader.socket.committed reader.results

variable {reader} {options : PacketSocketOptions} {received : List UInt8}

theorem Stands.start (options : PacketSocketOptions) :
    ({ socket := { options := options } } : PacketReader).Stands options [] where
  turn := QueuedOperation.InTurn.start
  sameLength := rfl
  single := by simp
  readsInTurn := PacketSocket.ReadsInTurn.start options
  sameOptions := rfl
  cutsInto := CutsInto.nothing []

/-- A callback that was started is answered once or waits. -/
structure Answers (socket : PacketSocket) (answer : List ReadResult) : Prop where
  readsInTurn : socket.ReadsInTurn
  single : ∀ operation ∈ socket.reading, operation.2 = false
  once : answer = [] ∧ socket.reading.length = 1 ∨ answer.length = 1 ∧ socket.reading = []

theorem answers_of_readSpec {socket : PacketSocket} {data : List UInt8} {answer : List ReadResult}
    (spec : PacketSocket.ReadSpec options data false socket answer) : Answers socket answer where
  readsInTurn := spec.readsInTurn
  single := spec.sameKind
  once := by
    have atMostOne := spec.atMostOne
    cases shape : socket.reading with
    | nil => simp [spec.answersOnce rfl shape]
    | cons first others =>
        have waits := (spec.waits (by simp [shape])).1
        simp only [shape, List.length_cons] at atMostOne
        have alone : others = [] := List.eq_nil_of_length_eq_zero (by omega)
        exact Or.inl ⟨waits, by simp [alone]⟩

theorem Stands.answered (reader : PacketReader) (socket : PacketSocket) {answer : List ReadResult}
    {id : Nat} {before : List UInt8} (more : List UInt8) (idle : reader.callbacks = [])
    (turn : reader.operation.InTurn [id]) (answers : Answers socket answer)
    (sameOptions : socket.options = options)
    (cutBefore : CutsInto options.maxPacketDataSize received before reader.results)
    (cutHere : CutsInto options.maxPacketDataSize (before ++ more) socket.committed answer) :
    (reader.answered id socket answer).Stands options (received ++ more) ∧
      (reader.answered id socket answer).requested = reader.requested := by
  have cut := cutBefore.trans cutHere
  cases answers.once with
  | inl waits =>
      obtain ⟨rfl, waiting⟩ := waits
      refine ⟨⟨by simpa [PacketReader.answered, idle] using turn,
        by simp [PacketReader.answered, idle, waiting], answers.single, answers.readsInTurn,
        sameOptions, by simpa [PacketReader.answered, results] using cut⟩, ?_⟩
      simp [PacketReader.answered, requested]
  | inr called =>
      obtain ⟨length, idleSocket⟩ := called
      obtain ⟨result, rfl⟩ := List.length_eq_one_iff.mp length
      obtain ⟨next, same⟩ := turn.completed
      refine ⟨⟨by simpa [PacketReader.answered, callback, idle] using next,
        by simp [PacketReader.answered, callback, idle, idleSocket], answers.single,
        answers.readsInTurn, sameOptions,
        by simpa [PacketReader.answered, callback, results] using cut⟩, ?_⟩
      simp [PacketReader.answered, callback, requested, same]

theorem Stands.callback_of_reading (stands : reader.Stands options received)
    {context : AppendContext} {allowMultiple : Bool}
    (reading : reader.socket.reading = [(context, allowMultiple)]) :
    allowMultiple = false ∧ ∃ id, reader.callbacks = [id] ∧ reader.operation.InTurn [id] := by
  have turn := stands.turn
  have length := stands.sameLength
  simp only [reading, List.length_singleton, List.length_eq_one_iff] at length
  obtain ⟨id, isId⟩ := length
  rw [isId] at turn
  exact ⟨stands.single (context, allowMultiple) (by simp [reading]), id, isId, turn⟩

def Event.asked : Event → List Nat
  | .read id => [id]
  | .runPosted _ | .receive _ _ | .fail _ => []

theorem Stands.onEvent (stands : reader.Stands options received) {event : Event}
    {after : PacketReader} (step : reader.onEvent event = some after) :
    after.Stands options (received ++ event.received) ∧
      after.requested = reader.requested ++ event.asked := by
  obtain ⟨turn, sameLength, single, readsInTurn, sameOptions, cutsInto⟩ := stands
  have whole : reader.Stands options received :=
    ⟨turn, sameLength, single, readsInTurn, sameOptions, cutsInto⟩
  cases event with
  | read id =>
      simp only [PacketReader.onEvent, Option.some.injEq] at step
      subst step
      exact ⟨⟨turn.push id, sameLength, single, readsInTurn, sameOptions,
        by simpa [Event.received, results] using cutsInto⟩, by simp [requested, Event.asked]⟩
  | runPosted capacity =>
      obtain ⟨⟨operation, invoked⟩, runs, rfl⟩ := Option.map_eq_some_iff.mp step
      obtain ⟨next, same, alone⟩ := turn.runPosted runs
      cases invoked with
      | none =>
          exact ⟨⟨by simpa using next, sameLength, single, readsInTurn, sameOptions,
            by simpa [Event.received, results] using cutsInto⟩, by simp [requested, same, Event.asked]⟩
      | some id =>
          have idle := alone rfl
          have quiet : reader.socket.reading = [] := by simpa [idle, eq_comm] using sameLength
          simp only [idle, Option.toList_some, List.nil_append] at next
          have spec := PacketSocket.read_spec reader.socket false capacity quiet
          have committed : reader.socket.committed = reader.socket.data := by
            simp [PacketSocket.committed, quiet]
          rw [sameOptions] at spec
          obtain ⟨kept, sameRequested⟩ := Stands.answered
            { reader with operation := operation } _ [] (by simpa using idle) next
            (answers_of_readSpec spec) spec.sameOptions cutsInto (by simpa [committed] using spec.cutsInto)
          refine ⟨by simpa [Event.received] using kept, ?_⟩
          simpa [requested, same, Event.asked] using sameRequested
  | receive bytes capacity =>
      simp only [PacketReader.onEvent, handled] at step
      split at step
      · rename_i socket answer id callbacks handler isCallback
        obtain ⟨context, allowMultiple, reading, spec⟩ :=
          PacketSocket.readHandler_spec readsInTurn handler
        obtain ⟨rfl, other, alone, turnHere⟩ := whole.callback_of_reading reading
        rw [isCallback] at alone
        obtain ⟨rfl, rfl⟩ := List.cons_eq_cons.mp alone
        rw [sameOptions] at spec
        obtain ⟨kept, sameRequested⟩ := Stands.answered { reader with callbacks := [] } socket bytes
          rfl turnHere (answers_of_readSpec spec) spec.sameOptions cutsInto spec.cutsInto
        simp only [Option.some.injEq] at step
        subst step
        exact ⟨kept, by simpa [requested, Event.asked] using sameRequested⟩
      · simp at step
  | fail code =>
      simp only [PacketReader.onEvent, Option.ite_none_right_eq_some, handled] at step
      obtain ⟨isError, step⟩ := step
      split at step
      · rename_i socket answer id callbacks handler isCallback
        obtain ⟨rfl, rfl⟩ := PacketSocket.readFailed_spec readsInTurn handler
        have length := readsInTurn.atMostOne
        rw [← sameLength, isCallback] at length
        obtain rfl : callbacks = [] := List.eq_nil_of_length_eq_zero (by simpa using length)
        have isError' : code ≠ .success ∧ code ≠ .malformedData := by
          cases isError <;> simp [*]
        have cutHere : CutsInto options.maxPacketDataSize (reader.socket.committed ++ [])
            (PacketSocket.committed { reader.socket with
              data := reader.socket.committed, reading := [] }) [{ code := code }] := by
          simpa [PacketSocket.committed] using CutsInto.error
            reader.socket.committed isError'.1 (by simp [isError'.2])
        obtain ⟨kept, sameRequested⟩ := Stands.answered { reader with callbacks := [] }
          { reader.socket with data := reader.socket.committed, reading := [] } [] rfl (isCallback ▸ turn) ⟨⟨by simp, by simp⟩, by simp, by simp⟩ sameOptions cutsInto cutHere
        simp only [Option.some.injEq] at step
        subst step
        exact ⟨by simpa [Event.received] using kept,
          by simpa [requested, Event.asked] using sameRequested⟩
      · simp at step

end PacketReader

/-! ## The connection -/

/-- A connection in one direction. The bytes under way are what was sent and is not received. -/
structure PacketLink where
  writer : PacketWriter
  reader : PacketReader
  receivedSize : Nat := 0
  deriving Repr, DecidableEq

namespace PacketLink

variable (link : PacketLink)

def wire : List UInt8 := link.writer.sent.drop link.receivedSize

inductive Event where
  | writer (event : PacketWriter.Event)
  | read (id : Nat)
  | runPosted (capacity : Nat)
  /-- So many of the bytes under way are received. -/
  | receive (count capacity : Nat)
  | failRead (code : SocketOperationCode)
  deriving Repr, DecidableEq

def step (event : Event) : Option PacketLink :=
  match event with
  | .writer event => (link.writer.onEvent event).map fun writer => { link with writer := writer }
  | .read id => (link.reader.onEvent (.read id)).map fun reader => { link with reader := reader }
  | .runPosted capacity =>
      (link.reader.onEvent (.runPosted capacity)).map fun reader => { link with reader := reader }
  | .receive count capacity =>
      if link.wire.length < count then none
      else (link.reader.onEvent (.receive (link.wire.take count) capacity)).map fun reader =>
        { link with reader := reader, receivedSize := link.receivedSize + count }
  | .failRead code =>
      (link.reader.onEvent (.fail code)).map fun reader => { link with reader := reader }

def links : Transition PacketLink Event := ⟨step⟩

def start (maxPacketDataSize : Nat) (options : PacketSocketOptions) : PacketLink where
  writer := { maxPacketDataSize := maxPacketDataSize }
  reader := { socket := { options := options } }

def Event.written : Event → List PacketPayload
  | .writer event => event.written
  | .read _ | .runPosted _ | .receive _ _ | .failRead _ => []

def Event.asked : Event → List Nat
  | .read id => [id]
  | .writer _ | .runPosted _ | .receive _ _ | .failRead _ => []

def delivered : List (List UInt8) := ReadResult.packets link.reader.results

/-- The packets of the payloads that the writer's socket does not reject. -/
def accepted (maxPacketDataSize : Nat) (payloads : List PacketPayload) : List (List UInt8) :=
  (payloads.filter (·.header.isPacketDataSizeValid maxPacketDataSize)).map PacketPayload.bytes

/-- Both ends keep their invariants, and the reader has received the first bytes sent. -/
structure Stands (maxPacketDataSize : Nat) (options : PacketSocketOptions)
    (written : List PacketPayload) (asked : List Nat) : Prop where
  writer : link.writer.Stands
  reader : link.reader.Stands options (link.writer.sent.take link.receivedSize)
  inside : link.receivedSize ≤ link.writer.sent.length
  sameMax : link.writer.maxPacketDataSize = maxPacketDataSize
  submitted : link.writer.submitted = written
  requested : link.reader.requested = asked

variable {link : PacketLink} {maxPacketDataSize : Nat} {options : PacketSocketOptions}
  {written : List PacketPayload} {asked : List Nat}

theorem Stands.start (maxPacketDataSize : Nat) (options : PacketSocketOptions) :
    (PacketLink.start maxPacketDataSize options).Stands maxPacketDataSize options [] [] where
  writer := PacketWriter.Stands.start maxPacketDataSize
  reader := PacketReader.Stands.start options
  inside := by simp [PacketLink.start]
  sameMax := rfl
  submitted := rfl
  requested := rfl

theorem Stands.read (stands : link.Stands maxPacketDataSize options written asked) (count : Nat)
    {event : PacketReader.Event} {reader : PacketReader} (inside : count ≤ link.wire.length)
    (received : event.received = link.wire.take count)
    (step : link.reader.onEvent event = some reader) :
    Stands { link with reader := reader, receivedSize := link.receivedSize + count }
      maxPacketDataSize options written (asked ++ event.asked) := by
  obtain ⟨kept, requested⟩ := stands.reader.onEvent step
  have more : link.writer.sent.take (link.receivedSize + count) =
      link.writer.sent.take link.receivedSize ++ event.received := by
    rw [received, wire, List.take_add]
  have bound : link.receivedSize + count ≤ link.writer.sent.length := by
    have within := stands.inside
    simp only [wire, List.length_drop] at inside
    omega
  exact ⟨stands.writer, more ▸ kept, bound, stands.sameMax, stands.submitted,
    by rw [requested, stands.requested]⟩

theorem Stands.step (stands : link.Stands maxPacketDataSize options written asked) {event : Event}
    {after : PacketLink} (step : link.step event = some after) :
    after.Stands maxPacketDataSize options (written ++ event.written) (asked ++ event.asked) := by
  cases event with
  | writer event =>
      obtain ⟨writer, happens, rfl⟩ := Option.map_eq_some_iff.mp step
      obtain ⟨kept, submitted, sameMax⟩ := stands.writer.onEvent happens
      obtain ⟨more, grown⟩ := PacketWriter.sent_onEvent happens
      have sameReceived : writer.sent.take link.receivedSize =
          link.writer.sent.take link.receivedSize := by
        rw [← grown, List.take_append_of_le_length stands.inside]
      refine ⟨kept, by simpa [sameReceived] using stands.reader, ?_, sameMax.trans stands.sameMax,
        by simp [submitted, stands.submitted, Event.written], by simpa [Event.asked] using
          stands.requested⟩
      have within := stands.inside
      simp only [← grown, List.length_append]
      omega
  | read id =>
      simp only [PacketLink.step, Option.map_eq_some_iff] at step
      obtain ⟨reader, happens, rfl⟩ := step
      simpa [Event.written, Event.asked, PacketReader.Event.asked] using
        stands.read 0 (by simp) (by simp [PacketReader.Event.received]) happens
  | runPosted capacity =>
      simp only [PacketLink.step, Option.map_eq_some_iff] at step
      obtain ⟨reader, happens, rfl⟩ := step
      simpa [Event.written, Event.asked, PacketReader.Event.asked] using
        stands.read 0 (by simp) (by simp [PacketReader.Event.received]) happens
  | receive count capacity =>
      simp only [PacketLink.step, Option.ite_none_left_eq_some, Nat.not_lt] at step
      obtain ⟨inside, step⟩ := step
      obtain ⟨reader, happens, rfl⟩ := Option.map_eq_some_iff.mp step
      simpa [Event.written, Event.asked, PacketReader.Event.asked] using
        stands.read count inside (by simp [PacketReader.Event.received]) happens
  | failRead code =>
      simp only [PacketLink.step, Option.map_eq_some_iff] at step
      obtain ⟨reader, happens, rfl⟩ := step
      simpa [Event.written, Event.asked, PacketReader.Event.asked] using
        stands.read 0 (by simp) (by simp [PacketReader.Event.received]) happens

theorem Stands.run (stands : link.Stands maxPacketDataSize options written asked)
    {events : List Event} {after : PacketLink} (run : links.exec link events = some after) :
    after.Stands maxPacketDataSize options (written ++ events.flatMap Event.written)
      (asked ++ events.flatMap Event.asked) := by
  induction events generalizing link written asked with
  | nil =>
      obtain rfl : link = after := by simpa using run
      simpa using stands
  | cons event events ih =>
      obtain ⟨middle, step, rest⟩ := (links.exec_cons_iff).mp run
      simpa using ih (stands.step step) rest

/-- No read and no write is left, no byte is under way and the next read waits. -/
structure Quiet (link : PacketLink) : Prop where
  whole : link.writer.isBroken = false
  allWritten : link.writer.operation.pending = []
  allReceived : link.receivedSize = link.writer.sent.length
  waiting : link.reader.socket.reading ≠ []

theorem accepted_flatten (maxPacketDataSize : Nat) (payloads : List PacketPayload) :
    (accepted maxPacketDataSize payloads).flatten =
      PacketWriter.stream maxPacketDataSize payloads := rfl

theorem areRecords_accepted (fits : maxPacketDataSize ≤ options.maxPacketDataSize)
    (areWhole : ∀ payload ∈ written,
      payload.header.isPacketDataSizeValid maxPacketDataSize = true → payload.IsWhole) :
    ∀ packet ∈ accepted maxPacketDataSize written,
      (packetFraming options.maxPacketDataSize).IsRecord packet := by
  intro packet member
  obtain ⟨payload, inFilter, rfl⟩ := List.mem_map.mp member
  obtain ⟨isWritten, isValid⟩ := List.mem_filter.mp inFilter
  have isWhole := areWhole payload isWritten isValid
  simp only [PacketHeader.isPacketDataSizeValid_iff] at isValid
  exact PacketPayload.isRecord_bytes isWhole (PacketHeader.isPacketDataSizeValid_iff.mpr
    ⟨isValid.1, isValid.2.trans fits⟩)

/-- What has been read and what is left of the bytes received make up, with the bytes to come,
    the packets that are accepted. -/
theorem Stands.stream_eq (stands : link.Stands maxPacketDataSize options written asked) :
    ∃ more, link.delivered.flatten ++ (link.reader.socket.committed ++ more) =
      (accepted maxPacketDataSize written).flatten ++ [] := by
  have sent := stands.writer.sent_starts
  rw [stands.sameMax, stands.submitted] at sent
  obtain ⟨more, isStream⟩ := (List.take_prefix link.receivedSize link.writer.sent).trans sent
  rw [stands.reader.cutsInto.bytes, List.append_assoc] at isStream
  exact ⟨more, by simpa [delivered, accepted_flatten] using isStream⟩

/-- The packets read are the first ones of those accepted, and all of them when it is quiet. -/
theorem Stands.delivered (stands : link.Stands maxPacketDataSize options written asked)
    (fits : maxPacketDataSize ≤ options.maxPacketDataSize)
    (areWhole : ∀ payload ∈ written,
      payload.header.isPacketDataSizeValid maxPacketDataSize = true → payload.IsWhole) :
    link.delivered <+: accepted maxPacketDataSize written ∧
      (link.Quiet → link.delivered = accepted maxPacketDataSize written) := by
  have cut := stands.reader.cutsInto
  have areRecords := areRecords_accepted fits areWhole
  obtain ⟨more, stream⟩ := stands.stream_eq
  refine ⟨RecordFraming.prefix_of_isCut cut.areRecords areRecords stream
    RecordFraming.isCut_nil, ?_⟩
  rintro ⟨whole, allWritten, allReceived, waiting⟩
  have all := stands.writer.sent_eq whole allWritten
  have bytes := cut.bytes
  rw [allReceived, List.take_length, all, stands.sameMax, stands.submitted] at bytes
  have isCut := stands.reader.readsInTurn.isCut waiting
  rw [stands.reader.sameOptions] at isCut
  have allBytes : link.delivered.flatten ++ link.reader.socket.committed =
      (accepted maxPacketDataSize written).flatten ++ [] := by
    simpa [PacketLink.delivered, accepted_flatten] using bytes.symm
  exact (RecordFraming.eq_of_isCut cut.areRecords areRecords allBytes isCut
    RecordFraming.isCut_nil).1

/-- A whole packet is never taken for malformed data, nor is a part of one. -/
theorem Stands.not_malformed (stands : link.Stands maxPacketDataSize options written asked)
    (fits : maxPacketDataSize ≤ options.maxPacketDataSize)
    (areWhole : ∀ payload ∈ written,
      payload.header.isPacketDataSizeValid maxPacketDataSize = true → payload.IsWhole) :
    ∀ result ∈ link.reader.results, result.code ≠ .malformedData := by
  intro result member malformed
  have areRecords := areRecords_accepted fits areWhole
  obtain ⟨more, stream⟩ := stands.stream_eq
  have isMalformed := (stands.reader.cutsInto.isMalformed result member malformed).append more
  obtain ⟨others, isRest⟩ := (stands.delivered fits areWhole).1
  rw [← isRest, List.flatten_append, List.append_assoc, List.append_nil] at stream
  rw [List.append_cancel_left stream] at isMalformed
  cases others with
  | nil => simp [RecordFraming.IsMalformed, packetFraming, packetSize?] at isMalformed
  | cons packet others =>
      have isRecord := areRecords packet (by simp [← isRest])
      have front := RecordFraming.front_append isRecord others.flatten
      rw [List.flatten_cons] at isMalformed
      simp [RecordFraming.front_eq_malformed_iff.mpr isMalformed] at front

/-- What is read are the packets that were written, in their order, none of them lost, doubled
    or cut; all of them when the connection is quiet. The reader sees no malformed data, and
    each write and each read is answered at most once, in the order of the calls; a write is
    answered with malformed data when its size is not valid. -/
theorem delivered_inOrder {events : List Event} {link : PacketLink}
    (fits : maxPacketDataSize ≤ options.maxPacketDataSize)
    (areWhole : ∀ payload ∈ events.flatMap Event.written,
      payload.header.isPacketDataSizeValid maxPacketDataSize = true → payload.IsWhole)
    (run : links.exec (start maxPacketDataSize options) events = some link) :
    link.delivered <+: accepted maxPacketDataSize (events.flatMap Event.written) ∧
      (link.Quiet →
        link.delivered = accepted maxPacketDataSize (events.flatMap Event.written)) ∧
      (∀ result ∈ link.reader.results, result.code ≠ .malformedData) ∧
      link.writer.answered <+: events.flatMap Event.written ∧
      (∀ entry ∈ link.writer.completed, entry.2 = .malformedData ↔
        entry.1.header.isPacketDataSizeValid maxPacketDataSize = false) ∧
      link.reader.completed.map (·.1) <+: events.flatMap Event.asked := by
  have stands := (Stands.start maxPacketDataSize options).run run
  simp only [List.nil_append] at stands
  obtain ⟨isPrefix, whenQuiet⟩ := stands.delivered fits areWhole
  refine ⟨isPrefix, whenQuiet, stands.not_malformed fits areWhole, ⟨_, stands.submitted⟩, ?_,
    ⟨_, stands.requested⟩⟩
  intro entry member
  exact stands.sameMax ▸ (stands.writer.codes entry member).1

/-- Two packets, the second of which comes in two pieces. -/
private def twoPackets : List Event :=
  [.writer (.write (.ofType 5)), .writer .runPosted, .writer (.write ⟨⟨9, 6⟩, [[7]]⟩),
    .writer .runPosted, .writer .runPosted, .writer (.transmit 0 8), .writer .runPosted,
    .writer (.transmit 0 8), .read 0, .read 1, .runPosted 16, .runPosted 16, .runPosted 16,
    .receive 12 16, .writer (.transmit 0 1), .runPosted 16, .receive 5 32, .read 2,
    .runPosted 32, .runPosted 32]

theorem delivered_of_quiet :
    (links.exec (start 10 ⟨16, 10⟩) twoPackets).map delivered =
      some [[8, 0, 0, 0, 5, 0, 0, 0], [9, 0, 0, 0, 6, 0, 0, 0, 7]] := by
  have run : links.exec (start 10 ⟨16, 10⟩) twoPackets =
      some ((links.exec (start 10 ⟨16, 10⟩) twoPackets).getD (start 10 ⟨16, 10⟩)) := by
    decide +kernel
  have all := (delivered_inOrder (by decide) (by decide +kernel) run).2.1
    ⟨by decide +kernel, by decide +kernel, by decide +kernel, by decide +kernel⟩
  rw [run, Option.map_some, all]
  decide +kernel

end PacketLink

end SiriusDrive
