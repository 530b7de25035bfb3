import SiriusDrive.Lib.FixedBytes
import SiriusDrive.Lib.RecordFraming

/-! # Packets on a socket

`PacketExtractor`, `AppendContext`, `PacketPayload` and the socket of `PacketSocket.cpp`. A
packet is the bytes of its header and its data. The socket is the state of one
`BasicPacketSocket`; each of its functions returns the callbacks it makes, in order.
-/

namespace SiriusDrive

open FixedBytes

/-- `SocketOperationCode`. -/
inductive SocketOperationCode where
  | success
  | closed
  | readError
  | writeError
  | malformedData
  | securityError
  | insufficientData
  deriving Repr, DecidableEq

/-- The number of a `PacketType`. -/
abbrev PacketType := BitVec 32

namespace PacketType

def undefined : PacketType := 0
def serverChallenge : PacketType := 1
def clientChallenge : PacketType := 2
def secureSigned : PacketType := 11

end PacketType

/-- `PacketHeader`. -/
structure PacketHeader where
  size : BitVec 32
  type : PacketType
  deriving Repr, DecidableEq

namespace PacketHeader

/-- `sizeof(PacketHeader)`. -/
abbrev sizeOf : Nat := 8

def bytes (header : PacketHeader) : List UInt8 :=
  encode 4 header.size.toNat ++ encode 4 header.type.toNat

def ofBytes (data : List UInt8) : PacketHeader where
  size := BitVec.ofNat 32 (decode (field data 0 4))
  type := BitVec.ofNat 32 (decode (field data 4 4))

def isPacketDataSizeValid (header : PacketHeader) (maxPacketDataSize : Nat) : Bool :=
  sizeOf ≤ header.size.toNat && header.size.toNat - sizeOf ≤ maxPacketDataSize

@[simp] theorem sizeOf_eq : sizeOf = 8 := rfl

@[simp] theorem length_bytes (header : PacketHeader) : header.bytes.length = sizeOf := by
  simp [bytes]

@[simp] theorem ofBytes_bytes (header : PacketHeader) (data : List UInt8) :
    ofBytes (header.bytes ++ data) = header := by
  obtain ⟨size, type⟩ := header
  have isSize : decode (encode 4 size.toNat) = size.toNat := decode_encode (by simpa using size.isLt)
  have isType : decode (encode 4 type.toNat) = type.toNat := decode_encode (by simpa using type.isLt)
  have first := field_head (length_encode 4 size.toNat) (encode 4 type.toNat ++ data)
  have second := field_tail (length_encode 4 size.toNat) (encode 4 type.toNat ++ data) 0 4
  rw [field_head (length_encode 4 type.toNat)] at second
  simp [ofBytes, bytes, first, second, isSize, isType]

theorem isPacketDataSizeValid_iff {header : PacketHeader} {maxPacketDataSize : Nat} :
    header.isPacketDataSizeValid maxPacketDataSize = true ↔
      sizeOf ≤ header.size.toNat ∧ header.size.toNat - sizeOf ≤ maxPacketDataSize := by
  simp [isPacketDataSizeValid]

end PacketHeader

/-! ## The packets of a buffer -/

inductive PacketExtractResult where
  | success
  | insufficientData
  | packetError
  deriving Repr, DecidableEq

/-- `PacketExtractor`, with the buffer it refers to. -/
structure PacketExtractor where
  data : List UInt8
  maxPacketDataSize : Nat
  consumedBytes : Nat := 0
  deriving Repr, DecidableEq

namespace PacketExtractor

def remainingData (extractor : PacketExtractor) : List UInt8 :=
  extractor.data.drop extractor.consumedBytes

def tryExtractNextPacket (extractor : PacketExtractor) :
    PacketExtractResult × Option (List UInt8) × PacketExtractor :=
  let remainingDataSize := extractor.data.length - extractor.consumedBytes
  if remainingDataSize < PacketHeader.sizeOf then (.insufficientData, none, extractor)
  else
    let packet := PacketHeader.ofBytes extractor.remainingData
    if ¬ packet.isPacketDataSizeValid extractor.maxPacketDataSize then (.packetError, none, extractor)
    else if remainingDataSize < packet.size.toNat then (.insufficientData, none, extractor)
    else (.success, some (extractor.remainingData.take packet.size.toNat),
      { extractor with consumedBytes := extractor.consumedBytes + packet.size.toNat })

def consume (extractor : PacketExtractor) : PacketExtractor :=
  { extractor with data := extractor.remainingData, consumedBytes := 0 }

end PacketExtractor

/-! ## Reading -/

/-- `PacketSocketOptions`. -/
structure PacketSocketOptions where
  workingBufferSize : Nat
  maxPacketDataSize : Nat
  deriving Repr, DecidableEq

/-- `AppendContext`: the part of the working buffer that is written in place. -/
structure AppendContext where
  originalSize : Nat
  appendSize : Nat
  deriving Repr, DecidableEq

namespace AppendContext

/-- The size of the buffer while data are appended, for a buffer that has this capacity. -/
def grownSize (originalSize size capacity : Nat) : Nat :=
  if capacity - originalSize < size / 2 then originalSize + size
  else min (originalSize + size) capacity

/-- `prepareAppend` of a working buffer. -/
def prepare (data : List UInt8) (size capacity : Nat) : List UInt8 × AppendContext :=
  let grown := grownSize data.length size capacity
  (data ++ List.replicate (grown - data.length) 0,
    { originalSize := data.length, appendSize := grown - data.length })

/-- `commit` of the bytes that were written behind the original data. -/
def commit (context : AppendContext) (data received : List UInt8) : List UInt8 :=
  data.take context.originalSize ++ received

/-- The destructor of a context that was not committed. -/
def abandon (context : AppendContext) (data : List UInt8) : List UInt8 :=
  data.take context.originalSize

end AppendContext

/-- What a read callback is called with. -/
structure ReadResult where
  code : SocketOperationCode
  packet : Option (List UInt8) := none
  deriving Repr, DecidableEq

/-- The reading half of a `BasicPacketSocket`. -/
structure PacketSocket where
  options : PacketSocketOptions
  data : List UInt8 := []
  /-- The `async_read_some` operations under way, each with its `allowMultiple`. -/
  reading : List (AppendContext × Bool) := []
  deriving Repr, DecidableEq

namespace PacketSocket

def preparePacketExtractor (socket : PacketSocket) : PacketExtractor :=
  { data := socket.data, maxPacketDataSize := socket.options.maxPacketDataSize }

def checkAndHandleError (extractResult : PacketExtractResult) (allowMultiple : Bool) :
    List ReadResult :=
  match extractResult with
  | .success => []
  | .insufficientData => if allowMultiple then [{ code := .insufficientData }] else []
  | .packetError => [{ code := .malformedData }]

/-- The rest of the loop of `read` after a packet was extracted. Each round consumes a header at
    least, which `rounds` counts. -/
def readMore (extractor : PacketExtractor) (allowMultiple : Bool) :
    (rounds : Nat) → PacketExtractor × List ReadResult
  | 0 => (extractor, [])
  | rounds + 1 =>
      if ¬ allowMultiple then (extractor, [])
      else
        match extractor.tryExtractNextPacket with
        | (.success, packet, extractor) =>
            let (last, results) := readMore extractor allowMultiple rounds
            (last, { code := .success, packet := packet } :: results)
        | (extractResult, _, extractor) =>
            (extractor, checkAndHandleError extractResult allowMultiple)

/-- `readSome`; the capacity is what the working buffer has at this moment. -/
def readSome (socket : PacketSocket) (allowMultiple : Bool) (capacity : Nat) : PacketSocket :=
  let (data, context) :=
    AppendContext.prepare socket.data socket.options.workingBufferSize capacity
  { socket with data := data, reading := socket.reading ++ [(context, allowMultiple)] }

/-- `read`. -/
def read (socket : PacketSocket) (allowMultiple : Bool) (capacity : Nat) :
    PacketSocket × List ReadResult :=
  match socket.preparePacketExtractor.tryExtractNextPacket with
  | (.success, packet, extractor) =>
      let (last, results) := readMore extractor allowMultiple socket.data.length
      ({ socket with data := last.consume.data }, { code := .success, packet := packet } :: results)
  | (.insufficientData, _, _) => (socket.readSome allowMultiple capacity, [])
  | (extractResult, _, _) => (socket, checkAndHandleError extractResult allowMultiple)

/-- The read handler of the first operation under way, when bytes have come. `none` if there is
    no such operation or the bytes do not fit its buffer. -/
def readHandler (socket : PacketSocket) (received : List UInt8) (capacity : Nat) :
    Option (PacketSocket × List ReadResult) :=
  match socket.reading with
  | [] => none
  | (context, allowMultiple) :: reading =>
      if context.appendSize < received.length then none
      else some (({ socket with data := context.commit socket.data received,
                                reading := reading }).read allowMultiple capacity)

/-- The read handler of the first operation under way, when it has failed with `code`. -/
def readFailed (socket : PacketSocket) (code : SocketOperationCode) :
    Option (PacketSocket × List ReadResult) :=
  match socket.reading with
  | [] => none
  | (context, _) :: reading =>
      some ({ socket with data := context.abandon socket.data, reading := reading },
        [{ code := code }])

end PacketSocket

end SiriusDrive
