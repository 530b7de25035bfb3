import Mathlib.Algebra.Group.Int.Defs
import Mathlib.Data.Finset.Card
import Std.Data.TreeMap.Lemmas
import SiriusDrive.Lib.Transition
import SiriusDrive.TaskEvents

/-! # The streamer of a live stream

`StreamerSession` reads the m3u8 playlist of an encoder every second and makes a chunk of each
media segment it has not seen in the playlist before.
-/

namespace SiriusDrive

/-! ## Lines of a playlist -/

/-- The white space of `std::isspace`. -/
def isSpace (c : Char) : Bool := c = ' ' || ('\t'.toNat ≤ c.toNat && c.toNat ≤ '\r'.toNat)

def leadingDigits (text : List Char) : List Char := text.takeWhile Char.isDigit

def decimal (digits : List Char) : Nat :=
  digits.foldl (fun number digit => 10 * number + (digit.toNat - '0'.toNat)) 0

/-- A number that fits in an `int`. -/
def toInt32 (number : Int) : Option Int :=
  if -2 ^ 31 ≤ number ∧ number < 2 ^ 31 then some number else none

/-- `std::stoi`; what follows the digits is ignored. -/
def stoi (text : List Char) : Option Int :=
  match text.dropWhile isSpace with
  | '-' :: digits =>
      if leadingDigits digits = [] then none else toInt32 (-(decimal (leadingDigits digits) : Int))
  | '+' :: digits =>
      if leadingDigits digits = [] then none else toInt32 (decimal (leadingDigits digits))
  | digits =>
      if leadingDigits digits = [] then none else toInt32 (decimal (leadingDigits digits))

/-- What the comparisons of a line with the tags come to. -/
inductive PlaylistLine where
  | version (number : Option Int)
  | targetDuration
  | mediaSequence (number : Option Int)
  /-- The duration in microseconds. -/
  | extInf (durationMks : Option Nat)
  | other
  deriving Repr, DecidableEq

def tagValue? (tag line : String) : Option (List Char) :=
  if tag.toList.isPrefixOf line.toList then some (line.toList.drop tag.length) else none

/-- `stof` reads a duration in seconds and gives the microseconds. -/
def PlaylistLine.read (stof : List Char → Option Nat) (line : String) : PlaylistLine :=
  match tagValue? "#EXT-X-VERSION:" line with
  | some value => .version (stoi value)
  | none =>
      match tagValue? "#EXT-X-TARGETDURATION:" line with
      | some _ => .targetDuration
      | none =>
          match tagValue? "#EXT-X-MEDIA-SEQUENCE:" line with
          | some value => .mediaSequence (stoi value)
          | none =>
              match tagValue? "#EXTINF:" line with
              | some value => .extInf (stof value)
              | none => .other

/-! ## The session -/

/-- A media file of the encoder. -/
structure MediaFile where
  /-- The hash of its torrent. -/
  chunkHash : InfoHash
  size : Nat
  /-- `fs::copy` to the chunk folder would succeed. -/
  canBeCopied : Bool := true
  deriving Repr, DecidableEq

/-- A segment as a playlist lists it. -/
structure Segment where
  fileName : String
  durationMks : Nat
  deriving Repr, DecidableEq

structure StreamerSession where
  streamId : Option Hash256 := none
  chunkInfoMap : Std.TreeMap Nat ChunkInfo := ∅
  lastChunkIndex : Nat := 0
  totalChunkBytes : Nat := 0
  startSequenceNumber : Int := -1
  lastSequenceNumber : Int := -1
  /-- The files of the chunk folder. -/
  chunkFolder : Finset InfoHash := ∅
  /-- The segments that have become chunks of the stream, under their numbers in the playlist.
      The program does not keep them. -/
  addedSegments : List (Int × Segment) := []
  /-- An exception has left the timer handler, or an assertion has failed. -/
  isBroken : Bool := false

namespace StreamerSession

variable (stof : List Char → Option Nat) (session : StreamerSession)

def initStream (streamId : Hash256) : StreamerSession :=
  if session.streamId.isSome then { session with isBroken := true }
  else
    { session with
      streamId := some streamId
      chunkInfoMap := ∅
      addedSegments := []
      totalChunkBytes := 0 }

def cancelStream : StreamerSession := { session with streamId := none }

/-- The end of `addMediaToStream`, when the chunk is in the chunk folder. -/
def emplaceChunk (streamId : Hash256) (chunk : MediaFile) (number : Int) (segment : Segment) :
    StreamerSession :=
  if session.chunkInfoMap.contains session.lastChunkIndex then { session with isBroken := true }
  else
    { session with
      chunkInfoMap := session.chunkInfoMap.insert session.lastChunkIndex
        { streamId
          chunkIndex := session.lastChunkIndex
          chunkInfoHash := chunk.chunkHash
          durationMks := segment.durationMks
          sizeBytes := chunk.size }
      lastChunkIndex := (session.lastChunkIndex + 1) % 2 ^ 32
      addedSegments := session.addedSegments ++ [(number, segment)] }

def copyChunk (chunk : MediaFile) : StreamerSession :=
  { session with
    chunkFolder := insert chunk.chunkHash session.chunkFolder
    totalChunkBytes := u64 (session.totalChunkBytes + chunk.size) }

/-- `addMediaToStream`; `number` is the number of the segment in the playlist. -/
def addMediaToStream (streamId : Hash256) (files : String → Option MediaFile) (number : Int)
    (segment : Segment) : StreamerSession :=
  match files segment.fileName with
  -- `fs::file_size` throws
  | none => { session with isBroken := true }
  | some chunk =>
      if chunk.chunkHash ∈ session.chunkFolder then
        session.emplaceChunk streamId chunk number segment
      else if chunk.canBeCopied then
        (session.copyChunk chunk).emplaceChunk streamId chunk number segment
      else session

/-- The tag '#EXT-X-MEDIA-SEQUENCE'. -/
def onMediaSequence (sequenceNumber : Int) : StreamerSession :=
  if session.startSequenceNumber = -1 ∨ sequenceNumber < session.lastSequenceNumber then
    { session with startSequenceNumber := sequenceNumber }
  else session

/-- A segment of the playlist: it is added if there is no chunk with its number. -/
def onSegment (streamId : Hash256) (files : String → Option MediaFile) (sequenceNumber : Int)
    (mediaIndex : Nat) (segment : Segment) : StreamerSession :=
  let session :=
    if session.startSequenceNumber < 0 then { session with startSequenceNumber := sequenceNumber }
    else session
  let chunkIndex := ((sequenceNumber - session.startSequenceNumber + mediaIndex) % 2 ^ 32).toNat
  if session.chunkInfoMap.contains chunkIndex then session
  else session.addMediaToStream streamId files (sequenceNumber + mediaIndex) segment

/-- The loop of `parseM3u8Playlist`, and the text it returns. -/
def parseLines (streamId : Hash256) (files : String → Option MediaFile) (sequenceNumber : Int)
    (mediaIndex : Nat) (session : StreamerSession) : List String → StreamerSession × String
  | [] => (session, "")
  | line :: lines =>
      match PlaylistLine.read stof line with
      | .version none => (session, "invalid playlist format: " ++ line)
      | .version (some number) =>
          if number ≠ 3 ∧ number ≠ 4 then
            (session, "invalid version number: " ++ String.ofList (line.toList.drop 15))
          else session.parseLines streamId files sequenceNumber mediaIndex lines
      | .targetDuration | .other =>
          session.parseLines streamId files sequenceNumber mediaIndex lines
      | .mediaSequence none => (session, "cannot read sequence number: " ++ line)
      | .mediaSequence (some number) =>
          (session.onMediaSequence number).parseLines streamId files number mediaIndex lines
      | .extInf none => (session, "cannot read duration attribute: " ++ line)
      | .extInf (some durationMks) =>
          match lines with
          | [] => (session, "")
          | fileName :: lines =>
              let session :=
                session.onSegment streamId files sequenceNumber mediaIndex ⟨fileName, durationMks⟩
              if session.isBroken then (session, "")
              else session.parseLines streamId files sequenceNumber (mediaIndex + 1) lines

/-- `parseM3u8Playlist`. -/
def parseM3u8Playlist (streamId : Hash256) (files : String → Option MediaFile) :
    List String → StreamerSession × String
  | [] => (session, "1-st line of playlist must be '#EXTM3U'")
  | first :: lines =>
      if "#EXTM3U".toList.isPrefixOf first.toList then
        session.parseLines stof streamId files (-1) 0 lines
      else (session, "1-st line of playlist must be '#EXTM3U'")

/-- The timer: the playlist and the media files as they are found. -/
def onTick (lines : List String) (files : String → Option MediaFile) : StreamerSession :=
  match session.streamId with
  | none => session
  | some streamId => (session.parseM3u8Playlist stof streamId files lines).1

inductive StreamerEvent where
  | initStream (streamId : Hash256)
  | tick (lines : List String) (files : String → Option MediaFile)
  /-- `cancelStream`, or the end of `finishStream`. -/
  | cancelStream

/-- The streamer under what the encoder and the user do, until it has broken the program. -/
def streamerSystem : Transition StreamerSession StreamerEvent where
  step session event :=
    if session.isBroken then none
    else
      match event with
      | .initStream streamId => some (session.initStream streamId)
      | .tick lines files => some (session.onTick stof lines files)
      | .cancelStream => some session.cancelStream

end StreamerSession

end SiriusDrive
