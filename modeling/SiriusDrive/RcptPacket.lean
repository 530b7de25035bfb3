import SiriusDrive.DownloadChannel
import SiriusDrive.Lib.FixedBytes

/-! # Receipt messages as bytes

`RcptMessage` is a vector of bytes, read through accessors at fixed offsets. It
is empty when default constructed, which is what `operator[]` of a map leaves
behind for a new key.
-/

namespace SiriusDrive

open FixedBytes

abbrev Signature := BitVec (8 * 64)

/-- `RcptMessage`. -/
structure RcptPacket where
  bytes : List UInt8 := []
  deriving Repr, DecidableEq

namespace RcptPacket

def ofFields (dnChannelId : ChannelId) (clientKey : ClientKey) (replicatorKey : ReplicatorKey)
    (downloadedSize : Nat) (signature : Signature) : RcptPacket :=
  { bytes := arrayBytes 32 dnChannelId ++ (arrayBytes 32 clientKey ++ (arrayBytes 32 replicatorKey ++
      (encode 8 downloadedSize ++ arrayBytes 64 signature))) }

variable (msg : RcptPacket)

def isValidSize : Bool := msg.bytes.length == 32 + 32 + 32 + 8 + 64

def channelId : ChannelId := arrayOfBytes 32 (field msg.bytes 0 32)

def clientKey : ClientKey := arrayOfBytes 32 (field msg.bytes 32 32)

def replicatorKey : ReplicatorKey := arrayOfBytes 32 (field msg.bytes 64 32)

def downloadedSize : Nat :=
  if msg.bytes.isEmpty then 0 else decode (field msg.bytes 96 8)

def signature : Signature := arrayOfBytes 64 (field msg.bytes 104 64)

/-- The buffers a client signs, one after the other. -/
def signedBytes : List UInt8 :=
  arrayBytes 32 msg.channelId ++ (arrayBytes 32 msg.clientKey ++ (arrayBytes 32 msg.replicatorKey ++
    encode 8 msg.downloadedSize))

/-- What `acceptUploadSize` reads of a message. -/
def receipt : RcptMessage where
  clientKey := msg.clientKey
  replicatorKey := msg.replicatorKey
  downloadedSize := msg.downloadedSize

@[simp] theorem downloadedSize_empty : ({} : RcptPacket).downloadedSize = 0 := rfl

@[simp] theorem isValidSize_empty : ({} : RcptPacket).isValidSize = false := rfl

theorem length_of_isValidSize {msg : RcptPacket} (valid : msg.isValidSize = true) :
    msg.bytes.length = 168 := by
  simpa [isValidSize] using valid

theorem not_isEmpty {msg : RcptPacket} (valid : msg.isValidSize = true) :
    msg.bytes.isEmpty = false := by
  have length := length_of_isValidSize valid
  cases shape : msg.bytes with
  | nil => simp [shape] at length
  | cons => rfl

section Fields

variable (dnChannelId : ChannelId) (clientKey : ClientKey) (replicatorKey : ReplicatorKey)
  (downloadedSize : Nat) (signature : Signature)

@[simp] theorem isValidSize_ofFields :
    (ofFields dnChannelId clientKey replicatorKey downloadedSize signature).isValidSize = true := by
  simp [isValidSize, ofFields]

@[simp] theorem channelId_ofFields :
    (ofFields dnChannelId clientKey replicatorKey downloadedSize signature).channelId =
      dnChannelId := by
  rw [channelId, ofFields, field_head (length_arrayBytes _), arrayOfBytes_arrayBytes]

@[simp] theorem clientKey_ofFields :
    (ofFields dnChannelId clientKey replicatorKey downloadedSize signature).clientKey =
      clientKey := by
  rw [RcptPacket.clientKey, ofFields, field_tail (length_arrayBytes _) _ 0,
    field_head (length_arrayBytes _), arrayOfBytes_arrayBytes]

@[simp] theorem replicatorKey_ofFields :
    (ofFields dnChannelId clientKey replicatorKey downloadedSize signature).replicatorKey =
      replicatorKey := by
  rw [RcptPacket.replicatorKey, ofFields, field_tail (length_arrayBytes _) _ 32,
    field_tail (length_arrayBytes _) _ 0, field_head (length_arrayBytes _),
    arrayOfBytes_arrayBytes]

@[simp] theorem signature_ofFields :
    (ofFields dnChannelId clientKey replicatorKey downloadedSize signature).signature =
      signature := by
  rw [RcptPacket.signature, ofFields, field_tail (length_arrayBytes _) _ 72,
    field_tail (length_arrayBytes _) _ 40, field_tail (length_arrayBytes _) _ 8,
    field_tail (length_encode 8 downloadedSize) _ 0,
    ← List.append_nil (arrayBytes 64 signature), field_head (length_arrayBytes _),
    arrayOfBytes_arrayBytes]

@[simp] theorem downloadedSize_ofFields (fits : downloadedSize < 2 ^ 64) :
    (ofFields dnChannelId clientKey replicatorKey downloadedSize signature).downloadedSize =
      downloadedSize := by
  have filled := not_isEmpty (isValidSize_ofFields dnChannelId clientKey replicatorKey
    downloadedSize signature)
  rw [RcptPacket.downloadedSize, filled, if_neg Bool.false_ne_true, ofFields,
    field_tail (length_arrayBytes _) _ 64, field_tail (length_arrayBytes _) _ 32,
    field_tail (length_arrayBytes _) _ 0, field_head (length_encode 8 downloadedSize),
    decode_encode fits]

end Fields

theorem ofFields_fields {msg : RcptPacket} (valid : msg.isValidSize = true) :
    ofFields msg.channelId msg.clientKey msg.replicatorKey msg.downloadedSize msg.signature =
      msg := by
  have length := length_of_isValidSize valid
  have filled := not_isEmpty valid
  have size : encode 8 (decode (field msg.bytes 96 8)) = field msg.bytes 96 8 := by
    have back := encode_decode (field msg.bytes 96 8)
    rw [length_field (by omega)] at back
    exact back
  have bytes : field msg.bytes 0 32 ++ (field msg.bytes 32 32 ++ (field msg.bytes 64 32 ++
      (field msg.bytes 96 8 ++ field msg.bytes 104 64))) = msg.bytes := by
    rw [field_append_field _ 96 8 64, field_append_field _ 64 32 72, field_append_field _ 32 32 104,
      field_append_field _ 0 32 136, field_all length]
  unfold ofFields channelId clientKey replicatorKey signature downloadedSize
  rw [filled, if_neg Bool.false_ne_true, arrayBytes_arrayOfBytes (length_field (by omega)),
    arrayBytes_arrayOfBytes (length_field (by omega)),
    arrayBytes_arrayOfBytes (length_field (by omega)),
    arrayBytes_arrayOfBytes (length_field (by omega)), size, bytes]

end RcptPacket

end SiriusDrive
