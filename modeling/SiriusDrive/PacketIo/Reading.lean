import SiriusDrive.Lib.Transition
import SiriusDrive.PacketIo

/-! # The packets a socket hands out

A socket that is read once at a time cuts the bytes it has received into packets. What it
hands out depends on these bytes alone: not on the pieces in which they came, the size of the
working buffer or whether several packets are read at once.
-/

namespace SiriusDrive

open RecordFraming (Front)

/-- The size of the packet that a header stands for, if that is valid. -/
def packetSize? (maxPacketDataSize : Nat) (header : List UInt8) : Option Nat :=
  let packet := PacketHeader.ofBytes header
  if packet.isPacketDataSizeValid maxPacketDataSize then some packet.size.toNat else none

theorem sizeOf_le_packetSize {maxPacketDataSize : Nat} (header : List UInt8) (size : Nat)
    (isSize : packetSize? maxPacketDataSize header = some size) : PacketHeader.sizeOf ≤ size := by
  simp only [packetSize?, Option.ite_none_right_eq_some, Option.some.injEq,
    PacketHeader.isPacketDataSizeValid_iff] at isSize
  omega

/-- The framing of packets: a header with a valid size says how long the packet is. -/
def packetFraming (maxPacketDataSize : Nat) : RecordFraming UInt8 where
  headerSize := PacketHeader.sizeOf
  recordSize := packetSize? maxPacketDataSize
  header_pos := Nat.succ_pos 7
  header_le := sizeOf_le_packetSize

namespace PacketHeader

theorem ofBytes_take (data : List UInt8) : ofBytes (data.take sizeOf) = ofBytes data := by
  simp [ofBytes, FixedBytes.field, List.drop_take, List.take_take, PacketHeader.sizeOf]

end PacketHeader

namespace PacketExtractor

variable (extractor : PacketExtractor)

theorem tryExtractNextPacket_eq :
    extractor.tryExtractNextPacket =
      match (packetFraming extractor.maxPacketDataSize).front extractor.remainingData with
      | .record packet _ =>
          (.success, some packet,
            { extractor with consumedBytes := extractor.consumedBytes + packet.length })
      | .insufficient => (.insufficientData, none, extractor)
      | .malformed => (.packetError, none, extractor) := by
  have size : extractor.remainingData.length = extractor.data.length - extractor.consumedBytes := by
    simp [remainingData]
  have header := PacketHeader.ofBytes_take extractor.remainingData
  simp only [tryExtractNextPacket, RecordFraming.front, packetFraming, packetSize?, header, ← size]
  split
  · simp
  · by_cases valid : (PacketHeader.ofBytes extractor.remainingData).isPacketDataSizeValid
        extractor.maxPacketDataSize
    · simp only [valid, not_true_eq_false, if_false, if_true]
      split
      · simp
      · rename_i complete
        simp only [Prod.mk.injEq, true_and, PacketExtractor.mk.injEq, List.length_take]
        omega
    · simp [valid]

variable {extractor}

theorem remainingData_advance {packet rest : List UInt8}
    (split : extractor.remainingData = packet ++ rest) :
    ({ extractor with consumedBytes := extractor.consumedBytes + packet.length } :
      PacketExtractor).remainingData = rest := by
  have dropped : extractor.remainingData.drop packet.length = rest := by simp [split]
  simpa [remainingData, List.drop_drop] using dropped

end PacketExtractor

def ReadResult.packets (results : List ReadResult) : List (List UInt8) :=
  results.filterMap (·.packet)

open ReadResult (packets)

/-- The bytes `before` are cut into the packets of the results and the bytes `after`. A result
    that reports malformed data is the last one, and the bytes that are left are malformed. -/
structure CutsInto (maxPacketDataSize : Nat) (before after : List UInt8)
    (results : List ReadResult) : Prop where
  bytes : before = (packets results).flatten ++ after
  areRecords : ∀ packet ∈ packets results, (packetFraming maxPacketDataSize).IsRecord packet
  isSuccess : ∀ result ∈ results, result.packet.isSome ↔ result.code = .success
  isMalformed : ∀ result ∈ results, result.code = .malformedData →
    (packetFraming maxPacketDataSize).IsMalformed after

namespace CutsInto

variable {maxPacketDataSize : Nat} {before after packet rest : List UInt8}
  {results : List ReadResult}

theorem nothing (data : List UInt8) : CutsInto maxPacketDataSize data data [] where
  bytes := by simp [packets]
  areRecords := by simp [packets]
  isSuccess := by simp
  isMalformed := by simp

theorem error (before : List UInt8) {code : SocketOperationCode} (isError : code ≠ .success)
    (malformed : code = .malformedData → (packetFraming maxPacketDataSize).IsMalformed before) :
    CutsInto maxPacketDataSize before before [{ code := code }] where
  bytes := by simp [packets]
  areRecords := by simp [packets]
  isSuccess := by simp [isError]
  isMalformed := by simpa using malformed

theorem cons (isRecord : (packetFraming maxPacketDataSize).IsRecord packet)
    (later : CutsInto maxPacketDataSize rest after results) :
    CutsInto maxPacketDataSize (packet ++ rest) after
      ({ code := .success, packet := some packet } :: results) where
  bytes := by simp [packets, later.bytes]
  areRecords := by
    intro other member
    simp only [packets, List.filterMap_cons, List.mem_cons] at member
    cases member with
    | inl same => exact same ▸ isRecord
    | inr inLater => exact later.areRecords other inLater
  isSuccess := by
    intro result member
    cases List.mem_cons.mp member with
    | inl same => simp [same]
    | inr inLater => exact later.isSuccess result inLater
  isMalformed := by
    intro result member malformed
    cases List.mem_cons.mp member with
    | inl same => simp [same] at malformed
    | inr inLater => exact later.isMalformed result inLater malformed

theorem packets_append (first second : List ReadResult) :
    packets (first ++ second) = packets first ++ packets second := by
  simp [packets]

theorem trans {middle more : List UInt8} {later : List ReadResult}
    (first : CutsInto maxPacketDataSize before middle results)
    (second : CutsInto maxPacketDataSize (middle ++ more) after later) :
    CutsInto maxPacketDataSize (before ++ more) after (results ++ later) where
  bytes := by simp [packets_append, first.bytes, second.bytes]
  areRecords := by
    intro packet member
    simp only [packets_append, List.mem_append] at member
    cases member with
    | inl inFirst => exact first.areRecords packet inFirst
    | inr inSecond => exact second.areRecords packet inSecond
  isSuccess := by
    intro result member
    cases List.mem_append.mp member with
    | inl inFirst => exact first.isSuccess result inFirst
    | inr inSecond => exact second.isSuccess result inSecond
  isMalformed := by
    intro result member malformed
    cases List.mem_append.mp member with
    | inr inSecond => exact second.isMalformed result inSecond malformed
    | inl inFirst =>
        -- No packet can follow where the bytes are malformed, so all of them are left.
        have stuck := (first.isMalformed result inFirst malformed).append more
        have cut := RecordFraming.front_eq_malformed_iff.mpr stuck
        cases found : packets later with
        | nil =>
            have left := second.bytes
            simp only [found, List.flatten_nil, List.nil_append] at left
            exact left ▸ stuck
        | cons packet others =>
            have isRecord := second.areRecords packet (by simp [found])
            have split := second.bytes
            simp only [found, List.flatten_cons, List.append_assoc] at split
            rw [split, RecordFraming.front_append isRecord] at cut
            simp at cut

end CutsInto

namespace PacketSocket

/-- The bytes a socket has received and not handed out. -/
def committed (socket : PacketSocket) : List UInt8 :=
  match socket.reading with
  | [] => socket.data
  | (context, _) :: _ => socket.data.take context.originalSize

/-- The loop of `read` cuts packets off until none is left, when it may read several. -/
theorem readMore_cutsInto (extractor : PacketExtractor) (allowMultiple : Bool) (rounds : Nat) :
    CutsInto extractor.maxPacketDataSize extractor.remainingData
        (readMore extractor allowMultiple rounds).1.remainingData
        (readMore extractor allowMultiple rounds).2 := by
  induction rounds generalizing extractor with
  | zero => exact CutsInto.nothing _
  | succ rounds ih =>
      simp only [readMore, PacketExtractor.tryExtractNextPacket_eq]
      cases allowMultiple with
      | false => simpa using CutsInto.nothing _
      | true =>
          cases cut : (packetFraming extractor.maxPacketDataSize).front extractor.remainingData with
          | insufficient =>
              simpa [checkAndHandleError] using CutsInto.error _ (by simp) (by simp)
          | malformed =>
              have malformed := RecordFraming.front_eq_malformed_iff.mp cut
              simpa [checkAndHandleError] using CutsInto.error _ (by simp) (by simp [malformed])
          | record packet rest =>
              obtain ⟨split, isRecord⟩ := RecordFraming.front_eq_record cut
              have later := ih
                { extractor with consumedBytes := extractor.consumedBytes + packet.length }
              rw [PacketExtractor.remainingData_advance split] at later
              simpa [split] using later.cons isRecord

theorem isCut_readMore (extractor : PacketExtractor) (rounds : Nat)
    (enough : extractor.remainingData.length < rounds) :
    (packetFraming extractor.maxPacketDataSize).IsCut
      (readMore extractor true rounds).1.remainingData := by
  induction rounds generalizing extractor with
  | zero => omega
  | succ rounds ih =>
      simp only [readMore, PacketExtractor.tryExtractNextPacket_eq]
      cases cut : (packetFraming extractor.maxPacketDataSize).front extractor.remainingData with
      | insufficient => simp [RecordFraming.IsCut, cut]
      | malformed => simp [RecordFraming.IsCut, cut]
      | record packet rest =>
          obtain ⟨split, isRecord⟩ := RecordFraming.front_eq_record cut
          have advanced := PacketExtractor.remainingData_advance split
          have positive := isRecord.pos
          have shorter : rest.length < rounds := by
            simp only [split, List.length_append] at enough
            omega
          have later := ih
            { extractor with consumedBytes := extractor.consumedBytes + packet.length }
            (by simpa only [advanced] using shorter)
          simpa using later

/-- What a `read` of a socket with these data leaves and hands out. -/
structure ReadSpec (options : PacketSocketOptions) (data : List UInt8) (allowMultiple : Bool)
    (socket : PacketSocket) (results : List ReadResult) : Prop where
  sameOptions : socket.options = options
  cutsInto : CutsInto options.maxPacketDataSize data socket.committed results
  atMostOne : socket.reading.length ≤ 1
  sameKind : ∀ operation ∈ socket.reading, operation.2 = allowMultiple
  /-- A read that waits has handed out nothing, and nothing can be handed out. -/
  waits : socket.reading ≠ [] → results = [] ∧
    (packetFraming options.maxPacketDataSize).front socket.committed = .insufficient
  answersOnce : allowMultiple = false → socket.reading = [] → results.length = 1
  readsAll : allowMultiple = true → (packetFraming options.maxPacketDataSize).IsCut socket.committed

theorem read_spec (socket : PacketSocket) (allowMultiple : Bool) (capacity : Nat)
    (idle : socket.reading = []) :
    ReadSpec socket.options socket.data allowMultiple (socket.read allowMultiple capacity).1
      (socket.read allowMultiple capacity).2 := by
  have atStart : socket.preparePacketExtractor.remainingData = socket.data := by
    simp [PacketExtractor.remainingData, preparePacketExtractor]
  have sameMax : socket.preparePacketExtractor.maxPacketDataSize =
      socket.options.maxPacketDataSize := by simp [preparePacketExtractor]
  simp only [read, PacketExtractor.tryExtractNextPacket_eq, atStart, sameMax]
  cases cut : (packetFraming socket.options.maxPacketDataSize).front socket.data with
  | insufficient =>
      have sameCommitted : (socket.readSome allowMultiple capacity).committed = socket.data := by
        simp [readSome, committed, idle, AppendContext.prepare]
      refine ⟨by simp [readSome], ?_, by simp [readSome, idle], by simp [readSome, idle], ?_, ?_, ?_⟩
      · simpa [sameCommitted] using CutsInto.nothing _
      · simp [sameCommitted, cut]
      · simp [readSome]
      · simp [sameCommitted, RecordFraming.IsCut, cut]
  | malformed =>
      have malformed := RecordFraming.front_eq_malformed_iff.mp cut
      refine ⟨by simp, ?_, by simp [idle], by simp [idle], ?_, ?_, ?_⟩
      · simpa [committed, idle, checkAndHandleError] using CutsInto.error _ (by simp)
          (by simp [malformed])
      · simp [idle]
      · simp [checkAndHandleError]
      · simp [committed, idle, RecordFraming.IsCut, cut]
  | record packet rest =>
      obtain ⟨split, isRecord⟩ := RecordFraming.front_eq_record cut
      have advanced := @PacketExtractor.remainingData_advance socket.preparePacketExtractor packet
        rest (by simp [atStart, split])
      have more := readMore_cutsInto { socket.preparePacketExtractor with
        consumedBytes := socket.preparePacketExtractor.consumedBytes + packet.length }
        allowMultiple socket.data.length
      refine ⟨by simp, ?_, by simp [idle], by simp [idle], by simp [idle], ?_, ?_⟩
      · rw [advanced] at more
        simp only [sameMax] at more
        simpa [split, committed, idle, PacketExtractor.consume] using more.cons isRecord
      · intro single
        cases socket.data.length <;> simp [readMore, single]
      · intro several
        have positive := isRecord.pos
        have all := isCut_readMore { socket.preparePacketExtractor with
          consumedBytes := socket.preparePacketExtractor.consumedBytes + packet.length }
          socket.data.length (by simp only [advanced, split, List.length_append]; omega)
        simp only [sameMax] at all
        simpa [committed, idle, several, PacketExtractor.consume] using all

/-! ## Runs -/

/-- What happens to the reading half of a socket. -/
inductive ReadEvent where
  | read (allowMultiple : Bool) (capacity : Nat)
  | receive (received : List UInt8) (capacity : Nat)
  | fail (code : SocketOperationCode)
  deriving Repr, DecidableEq

def ReadEvent.received : ReadEvent → List UInt8
  | .receive received _ => received
  | .read .. | .fail _ => []

/-- A read is started when the one before it has completed. -/
def onReadEvent (socket : PacketSocket) : ReadEvent → Option (PacketSocket × List ReadResult)
  | .read allowMultiple capacity =>
      if socket.reading = [] then some (socket.read allowMultiple capacity) else none
  | .receive received capacity => socket.readHandler received capacity
  | .fail code => if code = .closed ∨ code = .readError then socket.readFailed code else none

def reads : Transition PacketSocket ReadEvent where
  step socket event := (socket.onReadEvent event).map (·.1)

def results (socket : PacketSocket) (event : ReadEvent) : List ReadResult :=
  ((socket.onReadEvent event).map (·.2)).getD []

/-- At most one operation is under way, and only while no packet can be handed out. -/
structure ReadsInTurn (socket : PacketSocket) : Prop where
  atMostOne : socket.reading.length ≤ 1
  waits : socket.reading ≠ [] →
    (packetFraming socket.options.maxPacketDataSize).front socket.committed = .insufficient

theorem ReadSpec.readsInTurn {options : PacketSocketOptions} {data : List UInt8}
    {allowMultiple : Bool} {socket : PacketSocket} {results : List ReadResult}
    (spec : ReadSpec options data allowMultiple socket results) : socket.ReadsInTurn where
  atMostOne := spec.atMostOne
  waits := by
    intro waiting
    rw [spec.sameOptions]
    exact (spec.waits waiting).2

theorem committed_start (options : PacketSocketOptions) :
    ({ options := options } : PacketSocket).committed = [] := rfl

theorem ReadsInTurn.start (options : PacketSocketOptions) :
    ReadsInTurn { options := options } := ⟨by simp, by simp⟩

/-- The read handler goes on with the bytes that were left and the ones that have come. -/
theorem readHandler_spec {socket after : PacketSocket} {received : List UInt8} {capacity : Nat}
    {results : List ReadResult} (inTurn : socket.ReadsInTurn)
    (step : socket.readHandler received capacity = some (after, results)) :
    ∃ context allowMultiple, socket.reading = [(context, allowMultiple)] ∧
      ReadSpec socket.options (socket.committed ++ received) allowMultiple after results := by
  unfold readHandler at step
  split at step
  · simp at step
  · rename_i context allowMultiple reading shape
    have none : reading = [] := by
      have atMostOne := inTurn.atMostOne
      simpa [shape] using atMostOne
    split at step
    · simp at step
    · have sameData : context.commit socket.data received = socket.committed ++ received := by
        simp [AppendContext.commit, committed, shape]
      simp only [none, sameData, Option.some.injEq] at step
      have spec := read_spec { socket with data := socket.committed ++ received, reading := [] }
        allowMultiple capacity (by simp)
      simp only [step] at spec
      exact ⟨context, allowMultiple, by simp [shape, none], spec⟩

theorem readFailed_spec {socket after : PacketSocket} {code : SocketOperationCode}
    {results : List ReadResult} (inTurn : socket.ReadsInTurn)
    (step : socket.readFailed code = some (after, results)) :
    after = { socket with data := socket.committed, reading := [] } ∧
      results = [{ code := code }] := by
  unfold readFailed at step
  split at step
  · simp at step
  · rename_i context allowMultiple reading shape
    have atMostOne := inTurn.atMostOne
    simp only [shape, List.length_cons, Nat.reduceLeDiff, Nat.le_zero_eq,
      List.length_eq_zero_iff] at atMostOne
    simp only [Option.some.injEq, Prod.mk.injEq] at step
    obtain ⟨rfl, rfl⟩ := step
    simp [committed, shape, AppendContext.abandon, atMostOne]

theorem onReadEvent_spec {socket after : PacketSocket} {event : ReadEvent}
    {results : List ReadResult} (inTurn : socket.ReadsInTurn)
    (step : socket.onReadEvent event = some (after, results)) :
    after.options = socket.options ∧ after.ReadsInTurn ∧
      CutsInto socket.options.maxPacketDataSize (socket.committed ++ event.received)
        after.committed results := by
  cases event with
  | read allowMultiple capacity =>
      simp only [onReadEvent, Option.ite_none_right_eq_some, Option.some.injEq] at step
      obtain ⟨idle, same⟩ := step
      have spec := read_spec socket allowMultiple capacity idle
      rw [same] at spec
      have sameData : socket.committed = socket.data := by simp [committed, idle]
      exact ⟨spec.sameOptions, spec.readsInTurn,
        by simpa [ReadEvent.received, sameData] using spec.cutsInto⟩
  | receive received capacity =>
      obtain ⟨context, allowMultiple, -, spec⟩ := readHandler_spec inTurn step
      exact ⟨spec.sameOptions, spec.readsInTurn, spec.cutsInto⟩
  | fail code =>
      simp only [onReadEvent, Option.ite_none_right_eq_some] at step
      obtain ⟨isError, step⟩ := step
      obtain ⟨rfl, rfl⟩ := readFailed_spec inTurn step
      have notSuccess : code ≠ .success := by cases isError <;> simp [*]
      have notMalformed : code ≠ .malformedData := by cases isError <;> simp [*]
      refine ⟨rfl, ⟨by simp, by simp⟩, ?_⟩
      simpa [ReadEvent.received, committed] using
        CutsInto.error socket.committed notSuccess (by simp [notMalformed])

theorem cutsInto_run {socket after : PacketSocket} {events : List ReadEvent}
    (inTurn : socket.ReadsInTurn) (run : reads.exec socket events = some after) :
    after.options = socket.options ∧ after.ReadsInTurn ∧
      CutsInto socket.options.maxPacketDataSize
        (socket.committed ++ events.flatMap ReadEvent.received) after.committed
        (reads.trace results socket events) := by
  induction events generalizing socket with
  | nil =>
      obtain rfl : socket = after := by simpa using run
      exact ⟨rfl, inTurn, by simpa [Transition.trace] using CutsInto.nothing _⟩
  | cons event events ih =>
      obtain ⟨middle, step, rest⟩ := (reads.exec_cons_iff).mp run
      obtain ⟨⟨middle', here⟩, happens, rfl⟩ := Option.map_eq_some_iff.mp step
      obtain ⟨sameHere, inTurnHere, cutHere⟩ := onReadEvent_spec inTurn happens
      obtain ⟨sameLater, inTurnLater, cutLater⟩ := ih inTurnHere rest
      simp only [sameHere] at sameLater cutLater
      have isHere : results socket event = here := by simp [results, happens]
      refine ⟨sameLater, inTurnLater, ?_⟩
      rw [Transition.trace_cons step, isHere, List.flatMap_cons, ← List.append_assoc]
      exact cutHere.trans cutLater

theorem cutsInto_of_run {options : PacketSocketOptions} {socket : PacketSocket}
    {events : List ReadEvent} (run : reads.exec { options := options } events = some socket) :
    socket.options = options ∧ socket.ReadsInTurn ∧
      CutsInto options.maxPacketDataSize (events.flatMap ReadEvent.received) socket.committed
        (reads.trace results { options := options } events) := by
  simpa [committed_start] using cutsInto_run (ReadsInTurn.start options) run

theorem ReadsInTurn.isCut {socket : PacketSocket} (inTurn : socket.ReadsInTurn)
    (waiting : socket.reading ≠ []) :
    (packetFraming socket.options.maxPacketDataSize).IsCut socket.committed := by
  simp [RecordFraming.IsCut, inTurn.waits waiting]

/-- What a socket has handed out while it waits depends on the received bytes alone: any other
    socket that has received them has handed out no other packets, all of them once it waits
    too, and none of the two reports malformed data. -/
theorem handedOut_of_received_eq {options others : PacketSocketOptions}
    {socket other : PacketSocket} {events otherEvents : List ReadEvent}
    (sameMax : options.maxPacketDataSize = others.maxPacketDataSize)
    (run : reads.exec { options := options } events = some socket)
    (otherRun : reads.exec { options := others } otherEvents = some other)
    (sameBytes : events.flatMap ReadEvent.received = otherEvents.flatMap ReadEvent.received)
    (waiting : socket.reading ≠ []) :
    packets (reads.trace results { options := others } otherEvents) <+:
        packets (reads.trace results { options := options } events) ∧
      (other.reading ≠ [] →
        packets (reads.trace results { options := others } otherEvents) =
          packets (reads.trace results { options := options } events) ∧
        other.committed = socket.committed) ∧
      ∀ result ∈ reads.trace results { options := options } events ++
          reads.trace results { options := others } otherEvents,
        result.code ≠ .malformedData := by
  obtain ⟨isOptions, inTurn, cut⟩ := cutsInto_of_run run
  obtain ⟨areOthers, otherInTurn, otherCut⟩ := cutsInto_of_run otherRun
  rw [← sameMax, ← sameBytes] at otherCut
  have isCut := inTurn.isCut waiting
  rw [isOptions] at isCut
  have same := otherCut.bytes.symm.trans cut.bytes
  refine ⟨RecordFraming.prefix_of_isCut otherCut.areRecords cut.areRecords same isCut, ?_, ?_⟩
  · intro otherWaiting
    have otherIsCut := otherInTurn.isCut otherWaiting
    rw [areOthers, ← sameMax] at otherIsCut
    exact RecordFraming.eq_of_isCut otherCut.areRecords cut.areRecords same otherIsCut isCut
  · intro result member malformed
    have notHere : ¬ (packetFraming options.maxPacketDataSize).IsMalformed socket.committed := by
      rw [← RecordFraming.front_eq_malformed_iff, ← isOptions, inTurn.waits waiting]
      simp
    cases List.mem_append.mp member with
    | inl inRun => exact notHere (cut.isMalformed result inRun malformed)
    | inr inOther =>
        have otherMalformed := otherCut.isMalformed result inOther malformed
        have otherIsCut : (packetFraming options.maxPacketDataSize).IsCut other.committed := by
          simp [RecordFraming.IsCut, RecordFraming.front_eq_malformed_iff.mpr otherMalformed]
        have equal := RecordFraming.eq_of_isCut otherCut.areRecords cut.areRecords same otherIsCut
          isCut
        exact notHere (equal.2 ▸ otherMalformed)

/-- A packet and the start of another one, received at once by one read after the other, or in
    three pieces by reads of several packets. -/
theorem handedOut_in_pieces :
    packets (reads.trace results { options := ⟨4, 100⟩ }
        [.read true 8, .receive [9, 0, 0] 8, .receive [0, 1, 0, 0] 8, .receive [0, 7, 8] 16,
          .read true 16]) =
      packets (reads.trace results { options := ⟨16, 100⟩ }
        [.read false 16, .receive [9, 0, 0, 0, 1, 0, 0, 0, 7, 8] 16, .read false 16]) :=
  ((@handedOut_of_received_eq ⟨16, 100⟩ ⟨4, 100⟩
    { options := ⟨16, 100⟩, data := 8 :: List.replicate 15 0, reading := [(⟨1, 15⟩, false)] }
    { options := ⟨4, 100⟩, data := 8 :: List.replicate 4 0, reading := [(⟨1, 4⟩, true)] } _ _
    (by decide) (by decide +kernel) (by decide +kernel) (by decide) (by decide)).2.1
    (by decide)).1

end PacketSocket

end SiriusDrive
