import SiriusDrive.PacketIo.Delivery
import SiriusDrive.RcptPacket

/-! # Signed packets

`SecureSignedPacketIo`: each payload travels in an envelope with a signature on its hash. What
the remote end hands out is what was written, and on a connection that somebody else has
control of it is at least something that the owner of the remote key has written.
-/

namespace SiriusDrive

open FixedBytes

section Signing

variable (sha3_256 : List UInt8 → Hash256) (sign : List UInt8 → Signature)
  (verify : Key → List UInt8 → Signature → Bool)

/-- `sizeof(SecurePacketHeader)`. -/
def securePacketHeaderSize : Nat := PacketHeader.sizeOf + 64

/-- A `SecurePacketHeader` with its signature. -/
def securePacketHeader (signature : Signature) : List UInt8 :=
  PacketHeader.bytes
    { size := BitVec.ofNat 32 securePacketHeaderSize, type := PacketType.secureSigned } ++
    arrayBytes 64 signature

def calculatePayloadHash (payload : PacketPayload) : Hash256 :=
  sha3_256 (payload.header.bytes ++ payload.buffers.flatten)

/-- The envelope of a payload; the hash is what is signed. -/
def envelope (payload : PacketPayload) : Option PacketPayload :=
  PacketPayload.merge
    (securePacketHeader (sign (arrayBytes 32 (calculatePayloadHash sha3_256 payload)))) payload

/-- `SecureSignedPacketIo::write`: what the underlying io is given to write, or the code that
    the callback is called with. -/
def secureWrite (maxSignedPacketDataSize : Nat) (payload : PacketPayload) :
    Except SocketOperationCode (Option PacketPayload) :=
  if ¬ payload.header.isPacketDataSizeValid maxSignedPacketDataSize then .error .malformedData
  else .ok (envelope sha3_256 sign payload)

/-- What the underlying io is given to write when some payloads are written. -/
def passedOn (maxSignedPacketDataSize : Nat) (payloads : List PacketPayload) : List PacketPayload :=
  payloads.filterMap fun payload =>
    (secureWrite sha3_256 sign maxSignedPacketDataSize payload).toOption.join

/-- `VerifyingReadCallback`: what the callback of the user is called with. -/
def verifyingRead (remoteKey : Key) (result : ReadResult) : ReadResult :=
  match result.code, result.packet with
  | .success, some packet =>
      let header := PacketHeader.ofBytes packet
      if header.type ≠ PacketType.secureSigned ∨
          header.size.toNat < securePacketHeaderSize + PacketHeader.sizeOf then
        { code := .malformedData }
      else
        let child := packet.drop securePacketHeaderSize
        let childHeader := PacketHeader.ofBytes child
        if header.size.toNat - securePacketHeaderSize ≠ childHeader.size.toNat then
          { code := .malformedData }
        else
          let childPacket := child.take childHeader.size.toNat
          if ¬ verify remoteKey (arrayBytes 32 (sha3_256 childPacket))
              (arrayOfBytes 64 (field packet PacketHeader.sizeOf 64)) then
            { code := .securityError }
          else { code := .success, packet := some childPacket }
  | code, _ => { code := code }

end Signing

variable {sha3_256 : List UInt8 → Hash256} {sign : List UInt8 → Signature}
  {verify : Key → List UInt8 → Signature → Bool} {remoteKey : Key}

@[simp] theorem length_securePacketHeader (signature : Signature) :
    (securePacketHeader signature).length = 72 := by
  simp [securePacketHeader]

theorem ofBytes_securePacketHeader (signature : Signature) (data : List UInt8) :
    PacketHeader.ofBytes (securePacketHeader signature ++ data) =
      { size := 72, type := PacketType.secureSigned } := by
  rw [securePacketHeader, List.append_assoc, PacketHeader.ofBytes_bytes]
  simp [securePacketHeaderSize]

theorem ofPacket_securePacketHeader (signature : Signature) :
    PacketPayload.ofPacket (securePacketHeader signature) =
      some { header := { size := 72, type := PacketType.secureSigned },
             buffers := [arrayBytes 64 signature] } := by
  have header := ofBytes_securePacketHeader signature []
  rw [List.append_nil] at header
  have data : (securePacketHeader signature).drop 8 = arrayBytes 64 signature := by
    rw [securePacketHeader, List.drop_append_of_le_length (by simp)]
    simp
  have whole : (securePacketHeader signature).take 72 = securePacketHeader signature :=
    List.take_of_length_le (by simp)
  simp [PacketPayload.ofPacket, header, whole, data]

/-- The header with the signature, and then the payload. -/
def enveloped (sha3_256 : List UInt8 → Hash256) (sign : List UInt8 → Signature)
    (payload : PacketPayload) : PacketPayload where
  header := { size := 72 + payload.header.size, type := PacketType.secureSigned }
  buffers := [arrayBytes 64 (sign (arrayBytes 32 (sha3_256 payload.bytes))),
    payload.header.bytes] ++ payload.buffers

/-- A payload that can be sent in an envelope. -/
structure FitsEnvelope (payload : PacketPayload) : Prop where
  isWhole : payload.IsWhole
  small : payload.header.size.toNat + 72 < 2 ^ 32

theorem bytes_enveloped (sha3_256 : List UInt8 → Hash256) (sign : List UInt8 → Signature)
    (payload : PacketPayload) :
    (enveloped sha3_256 sign payload).bytes = (enveloped sha3_256 sign payload).header.bytes ++
      (arrayBytes 64 (sign (arrayBytes 32 (sha3_256 payload.bytes))) ++ payload.bytes) := by
  simp [enveloped, PacketPayload.bytes]

theorem FitsEnvelope.enveloped (sha3_256 : List UInt8 → Hash256) (sign : List UInt8 → Signature)
    {payload : PacketPayload} (fits : FitsEnvelope payload) :
    envelope sha3_256 sign payload = some (enveloped sha3_256 sign payload) ∧
      (enveloped sha3_256 sign payload).header.size.toNat = payload.header.size.toNat + 72 ∧
      (enveloped sha3_256 sign payload).IsWhole := by
  obtain ⟨isWhole, small⟩ := fits
  have length := isWhole
  simp only [PacketPayload.IsWhole, PacketPayload.bytes, List.length_append, List.length_flatten,
    PacketHeader.length_bytes, PacketHeader.sizeOf_eq] at length
  have isSet : payload.unset = false := by
    simp only [PacketPayload.unset, decide_eq_false_iff_not]
    intro isZero
    simp [isZero] at length
  have size : (72 + payload.header.size).toNat = payload.header.size.toNat + 72 := by
    rw [BitVec.toNat_add]
    simp
    omega
  refine ⟨?_, size, ?_⟩
  · simp [envelope, PacketPayload.merge, ofPacket_securePacketHeader, isSet, calculatePayloadHash,
      PacketPayload.bytes, SiriusDrive.enveloped]
  · simp only [PacketPayload.IsWhole, SiriusDrive.enveloped, size]
    simp [PacketPayload.bytes]
    omega

/-- The payloads whose size is valid are passed on in their envelopes. -/
theorem passedOn_eq {maxSignedPacketDataSize : Nat} {payloads : List PacketPayload}
    (fitEnvelopes : ∀ payload ∈ payloads,
      payload.header.isPacketDataSizeValid maxSignedPacketDataSize = true → FitsEnvelope payload) :
    passedOn sha3_256 sign maxSignedPacketDataSize payloads =
      (payloads.filter (·.header.isPacketDataSizeValid maxSignedPacketDataSize)).map
        (enveloped sha3_256 sign) := by
  induction payloads with
  | nil => rfl
  | cons payload payloads ih =>
      have later := ih fun other member => fitEnvelopes other (List.mem_cons_of_mem _ member)
      cases valid : payload.header.isPacketDataSizeValid maxSignedPacketDataSize with
      | true =>
          have isEnvelope := ((fitEnvelopes payload List.mem_cons_self valid).enveloped
            sha3_256 sign).1
          have written : secureWrite sha3_256 sign maxSignedPacketDataSize payload =
              .ok (some (enveloped sha3_256 sign payload)) := by
            rw [secureWrite, if_neg (by simp [valid]), isEnvelope]
          simp only [List.filter_cons, valid, if_pos, List.map_cons, ← later]
          exact List.filterMap_cons_some (by rw [written]; rfl)
      | false =>
          have refused : secureWrite sha3_256 sign maxSignedPacketDataSize payload =
              .error .malformedData := by
            rw [secureWrite, if_pos (by simp [valid])]
          simp only [List.filter_cons, valid, Bool.false_eq_true, if_false, ← later]
          exact List.filterMap_cons_none (by rw [refused]; rfl)

/-- A payload that was signed with the remote key comes out of its envelope. -/
theorem FitsEnvelope.verifyingRead {payload : PacketPayload} (fits : FitsEnvelope payload)
    (signs : verify remoteKey (arrayBytes 32 (sha3_256 payload.bytes))
      (sign (arrayBytes 32 (sha3_256 payload.bytes))) = true) :
    verifyingRead sha3_256 verify remoteKey
        { code := .success, packet := some (SiriusDrive.enveloped sha3_256 sign payload).bytes } =
      { code := .success, packet := some payload.bytes } := by
  obtain ⟨-, size, -⟩ := fits.enveloped sha3_256 sign
  have bytes := bytes_enveloped sha3_256 sign payload
  have length : payload.bytes.length = payload.header.size.toNat := fits.isWhole
  have atLeast : 8 ≤ payload.header.size.toNat := by
    rw [← length]
    simp [PacketPayload.bytes]
  have isHeader : PacketHeader.ofBytes (SiriusDrive.enveloped sha3_256 sign payload).bytes =
      (SiriusDrive.enveloped sha3_256 sign payload).header := by
    rw [bytes, PacketHeader.ofBytes_bytes]
  have child : (SiriusDrive.enveloped sha3_256 sign payload).bytes.drop 72 = payload.bytes := by
    rw [bytes, ← List.append_assoc]
    exact List.drop_left' (by simp)
  have childHeader : PacketHeader.ofBytes payload.bytes = payload.header :=
    PacketHeader.ofBytes_bytes payload.header payload.buffers.flatten
  have signature : field (SiriusDrive.enveloped sha3_256 sign payload).bytes 8 64 =
      arrayBytes 64 (sign (arrayBytes 32 (sha3_256 payload.bytes))) := by
    rw [bytes]
    exact (field_tail (by simp) _ 0 64).trans (field_head (by simp) _)
  have whole : payload.bytes.take payload.header.size.toNat = payload.bytes :=
    List.take_of_length_le (by omega)
  have isType : (SiriusDrive.enveloped sha3_256 sign payload).header.type =
      PacketType.secureSigned := rfl
  simp only [SiriusDrive.verifyingRead, isHeader, isType, size, securePacketHeaderSize,
    PacketHeader.sizeOf_eq, child, childHeader, signature, whole, arrayOfBytes_arrayBytes, signs]
  simp
  omega

/-- A packet that is handed out after the check has a signature that the remote key verifies. -/
theorem verified_of_verifyingRead {result : ReadResult}
    (success : (verifyingRead sha3_256 verify remoteKey result).code = .success) :
    (∃ packet, result = { code := .success, packet := some packet } ∧
      ∃ child signature, (verifyingRead sha3_256 verify remoteKey result).packet = some child ∧
        verify remoteKey (arrayBytes 32 (sha3_256 child)) signature = true) ∨
      result.code = .success ∧ result.packet = none := by
  obtain ⟨code, packet⟩ := result
  cases packet with
  | none =>
      cases code <;> simp [verifyingRead] at success ⊢
  | some packet =>
      left
      cases code <;> simp only [verifyingRead, reduceCtorEq] at success ⊢
      refine ⟨packet, rfl, ?_⟩
      split at success
      · simp at success
      · split at success
        · simp at success
        · split at success
          · simp at success
          · rename_i isType sameSize verified
            simp only [Decidable.not_not] at verified
            exact ⟨_, _, by simp [isType, sameSize, verified], verified⟩

/-! ## Signed connections -/

/-- The results of a reader after the check of the signatures. -/
def PacketReader.verifiedResults (reader : PacketReader) (sha3_256 : List UInt8 → Hash256)
    (verify : Key → List UInt8 → Signature → Bool) (remoteKey : Key) : List ReadResult :=
  reader.results.map (verifyingRead sha3_256 verify remoteKey)

/-- The check hands out the payloads of the envelopes that were read, and changes no code. -/
theorem packets_verifyingRead {results : List ReadResult} {payloads : List PacketPayload}
    (isSuccess : ∀ result ∈ results, result.packet.isSome ↔ result.code = .success)
    (fitEnvelopes : ∀ payload ∈ payloads, FitsEnvelope payload)
    (signs : ∀ payload ∈ payloads, verify remoteKey (arrayBytes 32 (sha3_256 payload.bytes))
      (sign (arrayBytes 32 (sha3_256 payload.bytes))) = true)
    (areEnvelopes : ReadResult.packets results =
      payloads.map fun payload => (enveloped sha3_256 sign payload).bytes) :
    ReadResult.packets (results.map (verifyingRead sha3_256 verify remoteKey)) =
        payloads.map PacketPayload.bytes ∧
      (results.map (verifyingRead sha3_256 verify remoteKey)).map (·.code) =
        results.map (·.code) := by
  induction results generalizing payloads with
  | nil =>
      simp only [ReadResult.packets, List.filterMap_nil, List.nil_eq, List.map_eq_nil_iff]
        at areEnvelopes
      simp [ReadResult.packets, areEnvelopes]
  | cons result results ih =>
      obtain ⟨code, packet⟩ := result
      have here := isSuccess _ List.mem_cons_self
      cases packet with
      | none =>
          have unchanged : verifyingRead sha3_256 verify remoteKey { code := code } =
              { code := code } := by
            cases code <;> simp [verifyingRead]
          have later := ih (fun r member => isSuccess r (List.mem_cons_of_mem _ member))
            fitEnvelopes signs (by simpa [ReadResult.packets] using areEnvelopes)
          simpa [ReadResult.packets, unchanged] using later
      | some packet =>
          obtain rfl : code = .success := by simpa using here
          cases payloads with
          | nil => simp [ReadResult.packets] at areEnvelopes
          | cons payload payloads =>
              simp only [ReadResult.packets, List.filterMap_cons, List.map_cons,
                List.cons.injEq] at areEnvelopes
              obtain ⟨rfl, others⟩ := areEnvelopes
              have opened := (fitEnvelopes payload (by simp)).verifyingRead (signs payload (by simp))
              have later := ih (fun r member => isSuccess r (List.mem_cons_of_mem _ member))
                (fun p member => fitEnvelopes p (List.mem_cons_of_mem _ member))
                (fun p member => signs p (List.mem_cons_of_mem _ member)) others
              simpa [ReadResult.packets, opened] using later

namespace PacketLink

/-- The payloads that `SecureSignedPacketIo` passes on and whose envelopes, which are 72 bytes
    larger, the socket accepts. -/
def acceptedPayloads (maxSignedPacketDataSize maxPacketDataSize : Nat)
    (payloads : List PacketPayload) : List PacketPayload :=
  (payloads.filter (·.header.isPacketDataSizeValid maxSignedPacketDataSize)).filter
    fun payload => payload.header.size.toNat + 64 ≤ maxPacketDataSize

theorem accepted_enveloped {maxPacketDataSize : Nat} {payloads : List PacketPayload}
    (fitEnvelopes : ∀ payload ∈ payloads, FitsEnvelope payload) :
    accepted maxPacketDataSize (payloads.map (enveloped sha3_256 sign)) =
      (payloads.filter fun payload =>
        payload.header.size.toNat + 64 ≤ maxPacketDataSize).map fun payload =>
          (enveloped sha3_256 sign payload).bytes := by
  have same : ∀ payload ∈ payloads,
      (enveloped sha3_256 sign payload).header.isPacketDataSizeValid maxPacketDataSize =
        decide (payload.header.size.toNat + 64 ≤ maxPacketDataSize) := by
    intro payload member
    obtain ⟨-, size, -⟩ := (fitEnvelopes payload member).enveloped sha3_256 sign
    simp [PacketHeader.isPacketDataSizeValid, size]
  simp only [accepted, List.filter_map, List.map_map, Function.comp_def]
  rw [List.filter_congr same]

/-- The payloads that come out of a signed connection are those that were accepted, in their
    order, none of them lost or doubled; all of them when the connection is quiet. The check of
    the signatures refuses none of them. -/
theorem verified_inOrder {maxSignedPacketDataSize maxPacketDataSize : Nat}
    {options : PacketSocketOptions} {events : List Event} {link : PacketLink}
    {payloads : List PacketPayload}
    (fits : maxPacketDataSize ≤ options.maxPacketDataSize)
    (fitEnvelopes : ∀ payload ∈ payloads,
      payload.header.isPacketDataSizeValid maxSignedPacketDataSize = true → FitsEnvelope payload)
    (signs : ∀ payload ∈ payloads,
      payload.header.isPacketDataSizeValid maxSignedPacketDataSize = true →
        verify remoteKey (arrayBytes 32 (sha3_256 payload.bytes))
          (sign (arrayBytes 32 (sha3_256 payload.bytes))) = true)
    (areWritten : events.flatMap Event.written =
      passedOn sha3_256 sign maxSignedPacketDataSize payloads)
    (run : links.exec (start maxPacketDataSize options) events = some link) :
    ReadResult.packets (link.reader.verifiedResults sha3_256 verify remoteKey) <+:
        (acceptedPayloads maxSignedPacketDataSize maxPacketDataSize payloads).map
          PacketPayload.bytes ∧
      (link.Quiet →
        ReadResult.packets (link.reader.verifiedResults sha3_256 verify remoteKey) =
          (acceptedPayloads maxSignedPacketDataSize maxPacketDataSize payloads).map
            PacketPayload.bytes) ∧
      (link.reader.verifiedResults sha3_256 verify remoteKey).map (·.code) =
        link.reader.results.map (·.code) ∧
      ∀ result ∈ link.reader.results, result.code ≠ .malformedData := by
  have stands := (Stands.start maxPacketDataSize options).run run
  simp only [List.nil_append] at stands
  rw [areWritten, passedOn_eq fitEnvelopes] at stands
  have fitEach : ∀ payload ∈ payloads.filter
      (·.header.isPacketDataSizeValid maxSignedPacketDataSize), FitsEnvelope payload :=
    fun payload member => fitEnvelopes payload (List.mem_filter.mp member).1
      (List.mem_filter.mp member).2
  have areWhole : ∀ payload ∈ (payloads.filter
      (·.header.isPacketDataSizeValid maxSignedPacketDataSize)).map (enveloped sha3_256 sign),
      payload.header.isPacketDataSizeValid maxPacketDataSize = true → payload.IsWhole := by
    intro payload member _
    obtain ⟨inner, isInner, rfl⟩ := List.mem_map.mp member
    exact ((fitEach inner isInner).enveloped _ _).2.2
  obtain ⟨isPrefix, whenQuiet⟩ := stands.delivered fits areWhole
  rw [accepted_enveloped fitEach] at isPrefix whenQuiet
  -- what has been read are the envelopes of the first of the payloads
  have isFirst := List.prefix_iff_eq_take.mp isPrefix
  rw [← List.map_take] at isFirst
  have inFirst : ∀ payload ∈ (acceptedPayloads maxSignedPacketDataSize maxPacketDataSize
      payloads).take link.delivered.length, payload ∈ payloads.filter
        (·.header.isPacketDataSizeValid maxSignedPacketDataSize) :=
    fun payload member => (List.mem_filter.mp (List.mem_of_mem_take member)).1
  obtain ⟨opened, sameCodes⟩ := packets_verifyingRead stands.reader.cutsInto.isSuccess
    (fun payload member => fitEach payload (inFirst payload member))
    (fun payload member => signs payload (List.mem_filter.mp (inFirst payload member)).1
      (List.mem_filter.mp (inFirst payload member)).2) isFirst
  refine ⟨?_, ?_, sameCodes, stands.not_malformed fits areWhole⟩
  · rw [PacketReader.verifiedResults, opened, List.map_take]
    exact List.take_prefix _ _
  · intro quiet
    have all := congrArg List.length (whenQuiet quiet)
    rw [List.length_map] at all
    rw [PacketReader.verifiedResults, opened, all]
    exact congrArg (List.map PacketPayload.bytes) List.take_length

private def plainHash (data : List UInt8) : Hash256 := BitVec.ofNat 256 (decode data)

private def plainSign (data : List UInt8) : Signature := arrayOfBytes 64 (1 :: data)

private def samplePayloads : List PacketPayload :=
  [.ofType 5, ⟨⟨48, 5⟩, [List.replicate 40 1]⟩, ⟨⟨9, 6⟩, [[7]]⟩]

private def plainVerify (key : Key) (data : List UInt8) (signature : Signature) : Bool :=
  key == 5 && samplePayloads.any (fun payload => data == arrayBytes 32 (plainHash payload.bytes)) &&
    signature == plainSign data

/-- The socket refuses the second envelope, which is too large for it. -/
private def threeEnvelopes : List Event :=
  (samplePayloads.map fun payload =>
      .writer (.write (enveloped plainHash plainSign payload))) ++
    List.replicate 4 (.writer .runPosted) ++
    [.writer (.transmit 0 8), .writer (.transmit 0 64), .writer (.transmit 0 8),
      .writer .runPosted, .writer .runPosted, .writer (.transmit 0 8), .writer (.transmit 0 64),
      .writer (.transmit 0 8), .writer (.transmit 0 1), .read 0, .runPosted 90, .runPosted 90,
      .receive 90 90, .read 1, .runPosted 90, .runPosted 90, .receive 71 90, .read 2,
      .runPosted 90, .runPosted 90]

theorem verified_of_quiet :
    (links.exec (start 100 ⟨90, 100⟩) threeEnvelopes).map (fun link =>
      ReadResult.packets (link.reader.verifiedResults plainHash plainVerify 5)) =
        some [[8, 0, 0, 0, 5, 0, 0, 0], [9, 0, 0, 0, 6, 0, 0, 0, 7]] := by
  have run : links.exec (start 100 ⟨90, 100⟩) threeEnvelopes =
      some ((links.exec (start 100 ⟨90, 100⟩) threeEnvelopes).getD (start 100 ⟨90, 100⟩)) := by
    decide +kernel
  have areWhole : ∀ payload ∈ samplePayloads, payload.bytes.length = payload.header.size.toNat := by
    decide +kernel
  have areSmall : ∀ payload ∈ samplePayloads, payload.header.size.toNat + 72 < 2 ^ 32 := by
    decide +kernel
  have all := (@verified_inOrder plainHash plainSign plainVerify 5 100 100 ⟨90, 100⟩ _ _
    samplePayloads (by decide)
    (fun payload member _ => ⟨areWhole payload member, areSmall payload member⟩)
    (by decide +kernel) (by decide +kernel) run).2.1
    ⟨by decide +kernel, by decide +kernel, by decide +kernel, by decide +kernel⟩
  rw [run, Option.map_some, all]
  decide +kernel

end PacketLink

namespace PacketReader

/-- A reader with somebody else at the other end of the connection. -/
def readers : Transition PacketReader Event := ⟨fun reader event => reader.onEvent event⟩

theorem stands_of_run {options : PacketSocketOptions} {received : List UInt8}
    {reader after : PacketReader} {events : List Event} (stands : reader.Stands options received)
    (run : readers.exec reader events = some after) :
    after.Stands options (received ++ events.flatMap Event.received) := by
  induction events generalizing reader received with
  | nil =>
      obtain rfl : reader = after := by simpa using run
      simpa using stands
  | cons event events ih =>
      obtain ⟨middle, step, rest⟩ := (readers.exec_cons_iff).mp run
      simpa using ih (stands.onEvent step).1 rest

/-- Whatever bytes come, the packets that are handed out after the check have the hash of a
    payload that the owner of the remote key has written. -/
theorem written_of_verified {options : PacketSocketOptions} {reader : PacketReader}
    {events : List Event} {written : List PacketPayload} {hasSigned : List UInt8 → Prop}
    (unforgeable : ∀ bytes signature, verify remoteKey bytes signature = true → hasSigned bytes)
    (onlyWritten : ∀ bytes, hasSigned bytes →
      ∃ payload ∈ written, bytes = arrayBytes 32 (sha3_256 payload.bytes))
    (run : readers.exec { socket := { options := options } } events = some reader) :
    ∀ result ∈ reader.verifiedResults sha3_256 verify remoteKey, result.code = .success →
      ∃ payload ∈ written, ∃ packet, result.packet = some packet ∧
        sha3_256 packet = sha3_256 payload.bytes := by
  have stands := stands_of_run (Stands.start options) run
  intro result member success
  obtain ⟨plain, isPlain, rfl⟩ := List.mem_map.mp member
  have isSuccess := stands.cutsInto.isSuccess plain isPlain
  cases verified_of_verifyingRead success with
  | inr noPacket => simp [noPacket] at isSuccess
  | inl verified =>
      obtain ⟨packet, -, child, signature, isChild, isVerified⟩ := verified
      obtain ⟨payload, isWritten, sameHash⟩ := onlyWritten _ (unforgeable _ _ isVerified)
      have hash := congrArg (arrayOfBytes 32) sameHash
      simp only [arrayOfBytes_arrayBytes] at hash
      exact ⟨payload, isWritten, child, isChild, hash⟩

private def envelopeReceived : List Event :=
  [.read 0, .runPosted 90, .runPosted 90,
    .receive (enveloped PacketLink.plainHash PacketLink.plainSign (.ofType 5)).bytes 90]

theorem written_of_envelope :
    ∃ payload ∈ PacketLink.samplePayloads, ∃ packet,
      some packet = some [8, 0, 0, 0, 5, 0, 0, 0] ∧
        PacketLink.plainHash packet = PacketLink.plainHash payload.bytes := by
  have run : readers.exec { socket := { options := ⟨90, 100⟩ } } envelopeReceived =
      some ((readers.exec { socket := { options := ⟨90, 100⟩ } } envelopeReceived).getD
        { socket := { options := ⟨90, 100⟩ } }) := by
    decide +kernel
  have result := @written_of_verified PacketLink.plainHash PacketLink.plainVerify 5 _ _ _
    PacketLink.samplePayloads
    (fun bytes => ∃ payload ∈ PacketLink.samplePayloads,
      bytes = arrayBytes 32 (PacketLink.plainHash payload.bytes))
    (by
      intro bytes signature verified
      simp only [PacketLink.plainVerify, Bool.and_eq_true, List.any_eq_true, beq_iff_eq]
        at verified
      exact verified.1.2)
    (fun bytes hasSigned => hasSigned)
    run { code := .success, packet := some [8, 0, 0, 0, 5, 0, 0, 0] } (by decide +kernel) rfl
  obtain ⟨payload, isWritten, packet, isPacket, sameHash⟩ := result
  exact ⟨payload, isWritten, packet, isPacket.symm, sameHash⟩

end PacketReader

end SiriusDrive
