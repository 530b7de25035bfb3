import SiriusDrive.Lib.Transition
import SiriusDrive.PacketIo
import SiriusDrive.RcptPacket

/-! # Verification of a server

`VerifyServer` of `VerifyPeer.cpp` with the packets of `Challenge.cpp`. The client answers the
challenge of the server and sends one of its own; it trusts the server when the server has
signed this challenge.
-/

namespace SiriusDrive

open FixedBytes

abbrev Challenge := BitVec (8 * 64)

/-- `ConnectionSecurityMode`. -/
inductive ConnectionSecurityMode where
  | none
  | signed
  deriving Repr, DecidableEq

def ConnectionSecurityMode.byte : ConnectionSecurityMode → UInt8
  | .none => 1
  | .signed => 2

/-- `VerifyResult`. -/
inductive VerifyResult where
  | ioErrorServerChallengeRequest
  | ioErrorServerChallengeResponse
  | ioErrorClientChallengeResponse
  | malformedData
  | failureChallenge
  | failureUnsupportedConnection
  | success
  deriving Repr, DecidableEq

/-- `VerifiedPeerInfo`. -/
structure VerifiedPeerInfo where
  publicKey : Key
  securityMode : ConnectionSecurityMode
  deriving Repr, DecidableEq

/-- A key pair, as what its private key signs. -/
structure KeyPair where
  publicKey : Key
  sign : List UInt8 → Signature

/-! ## The packets -/

def packetBytes (type : PacketType) (data : List UInt8) : List UInt8 :=
  PacketHeader.bytes { size := BitVec.ofNat 32 (PacketHeader.sizeOf + data.length), type := type } ++
    data

/-- `CoercePacket`: the data of a packet of the type and of the size with so many data. -/
def coercePacket (type : PacketType) (dataSize : Nat) (packet : List UInt8) :
    Option (List UInt8) :=
  let header := PacketHeader.ofBytes packet
  if header.type ≠ type ∨ header.size.toNat ≠ PacketHeader.sizeOf + dataSize then .none
  else some (packet.drop PacketHeader.sizeOf)

theorem coercePacket_packetBytes (type : PacketType) (data : List UInt8)
    (fits : PacketHeader.sizeOf + data.length < 2 ^ 32) :
    coercePacket type data.length (packetBytes type data) = some data := by
  have size : (BitVec.ofNat 32 (PacketHeader.sizeOf + data.length)).toNat =
      PacketHeader.sizeOf + data.length := by
    rw [BitVec.toNat_ofNat, Nat.mod_eq_of_lt fits]
  have rest : (packetBytes type data).drop PacketHeader.sizeOf = data :=
    List.drop_left' (PacketHeader.length_bytes _)
  simp only [coercePacket, packetBytes, PacketHeader.ofBytes_bytes, size] at rest ⊢
  simp [rest]

/-- `ServerChallengeRequest`. -/
structure ServerChallengeRequest where
  challenge : Challenge
  deriving Repr, DecidableEq

def ServerChallengeRequest.packet (request : ServerChallengeRequest) : List UInt8 :=
  packetBytes PacketType.serverChallenge (arrayBytes 64 request.challenge)

def ServerChallengeRequest.ofPacket (packet : List UInt8) : Option ServerChallengeRequest :=
  (coercePacket PacketType.serverChallenge 64 packet).map fun data =>
    { challenge := arrayOfBytes 64 (field data 0 64) }

/-- `ServerChallengeResponse`; the security mode is the byte that was sent. -/
structure ServerChallengeResponse where
  challenge : Challenge
  signature : Signature
  publicKey : Key
  securityMode : UInt8
  deriving Repr, DecidableEq

def ServerChallengeResponse.packet (response : ServerChallengeResponse) : List UInt8 :=
  packetBytes PacketType.serverChallenge (arrayBytes 64 response.challenge ++
    (arrayBytes 64 response.signature ++
      (arrayBytes 32 response.publicKey ++ [response.securityMode])))

def ServerChallengeResponse.ofPacket (packet : List UInt8) : Option ServerChallengeResponse :=
  (coercePacket PacketType.serverChallenge (64 + 64 + 32 + 1) packet).map fun data =>
    { challenge := arrayOfBytes 64 (field data 0 64)
      signature := arrayOfBytes 64 (field data 64 64)
      publicKey := arrayOfBytes 32 (field data 128 32)
      securityMode := (data.drop 160).headD 0 }

/-- `ClientChallengeResponse`. -/
structure ClientChallengeResponse where
  signature : Signature
  deriving Repr, DecidableEq

def ClientChallengeResponse.packet (response : ClientChallengeResponse) : List UInt8 :=
  packetBytes PacketType.clientChallenge (arrayBytes 64 response.signature)

def ClientChallengeResponse.ofPacket (packet : List UInt8) : Option ClientChallengeResponse :=
  (coercePacket PacketType.clientChallenge 64 packet).map fun data =>
    { signature := arrayOfBytes 64 (field data 0 64) }

@[simp] theorem ServerChallengeRequest.ofPacket_packet (request : ServerChallengeRequest) :
    ofPacket request.packet = some request := by
  have back := coercePacket_packetBytes PacketType.serverChallenge (arrayBytes 64 request.challenge)
    (by simp)
  simp only [length_arrayBytes] at back
  simp [ofPacket, packet, back, field_all]

@[simp] theorem ServerChallengeResponse.ofPacket_packet (response : ServerChallengeResponse) :
    ofPacket response.packet = some response := by
  obtain ⟨challenge, signature, publicKey, securityMode⟩ := response
  have back := coercePacket_packetBytes PacketType.serverChallenge
    (arrayBytes 64 challenge ++ (arrayBytes 64 signature ++
      (arrayBytes 32 publicKey ++ [securityMode]))) (by simp)
  simp only [List.length_append, length_arrayBytes, List.length_singleton] at back
  have first := field_head (length_arrayBytes challenge) (arrayBytes 64 signature ++
    (arrayBytes 32 publicKey ++ [securityMode]))
  have second : field (arrayBytes 64 challenge ++ (arrayBytes 64 signature ++
      (arrayBytes 32 publicKey ++ [securityMode]))) 64 64 = arrayBytes 64 signature := by
    rw [field_tail (length_arrayBytes challenge) _ 0, field_head (length_arrayBytes signature)]
  have third : field (arrayBytes 64 challenge ++ (arrayBytes 64 signature ++
      (arrayBytes 32 publicKey ++ [securityMode]))) 128 32 = arrayBytes 32 publicKey := by
    rw [field_tail (length_arrayBytes challenge) _ 64, field_tail (length_arrayBytes signature) _ 0,
      field_head (@length_arrayBytes 32 publicKey)]
  have last : (arrayBytes 64 challenge ++ (arrayBytes 64 signature ++
      (arrayBytes 32 publicKey ++ [securityMode]))).drop 160 = [securityMode] := by
    rw [← List.append_assoc, ← List.append_assoc]
    exact List.drop_left' (by simp)
  simp only [ofPacket, packet, back, Option.map_some, first, second, third, last,
    arrayOfBytes_arrayBytes, List.headD_cons]

@[simp] theorem ClientChallengeResponse.ofPacket_packet (response : ClientChallengeResponse) :
    ofPacket response.packet = some response := by
  have back := coercePacket_packetBytes PacketType.clientChallenge (arrayBytes 64 response.signature)
    (by simp)
  simp only [length_arrayBytes] at back
  simp [ofPacket, packet, back, field_all]

/-! ## The challenges -/

section Challenges

variable (verify : Key → List UInt8 → Signature → Bool)

/-- What the client signs. -/
def clientSignedBytes (challenge : Challenge) (securityMode : UInt8) : List UInt8 :=
  arrayBytes 64 challenge ++ [securityMode]

/-- What the server signs. -/
def serverSignedBytes (challenge : Challenge) : List UInt8 := arrayBytes 64 challenge

/-- The challenge of the response is drawn at random. -/
def generateServerChallengeResponse (request : ServerChallengeRequest) (keyPair : KeyPair)
    (securityMode : ConnectionSecurityMode) (random : Challenge) : ServerChallengeResponse where
  challenge := random
  signature := keyPair.sign (clientSignedBytes request.challenge securityMode.byte)
  publicKey := keyPair.publicKey
  securityMode := securityMode.byte

def verifyServerChallengeResponse (response : ServerChallengeResponse) (challenge : Challenge) :
    Bool :=
  verify response.publicKey (clientSignedBytes challenge response.securityMode) response.signature

def generateClientChallengeResponse (request : ServerChallengeResponse) (keyPair : KeyPair) :
    ClientChallengeResponse where
  signature := keyPair.sign (serverSignedBytes request.challenge)

def verifyClientChallengeResponse (response : ClientChallengeResponse) (serverPublicKey : Key)
    (challenge : Challenge) : Bool :=
  verify serverPublicKey (serverSignedBytes challenge) response.signature

end Challenges

/-! ## The handler -/

/-- The operation that is under way, with the response that was sent. -/
inductive VerifyStage where
  | readsRequest
  | writesResponse (response : ServerChallengeResponse)
  | readsResponse (response : ServerChallengeResponse)
  | completed
  deriving Repr, DecidableEq

/-- `VerifyServerHandler`. -/
structure VerifyServerHandler where
  serverPeerInfo : VerifiedPeerInfo
  keyPair : KeyPair
  stage : VerifyStage := .readsRequest
  /-- What the handler has signed and sent. -/
  signed : List (List UInt8) := []
  written : List (List UInt8) := []
  /-- The calls of the callback. -/
  called : List VerifyResult := []

namespace VerifyServerHandler

variable (verify : Key → List UInt8 → Signature → Bool) (handler : VerifyServerHandler)

def invokeCallback (result : VerifyResult) : VerifyServerHandler :=
  { handler with stage := .completed, called := handler.called ++ [result] }

def handleServerChallengeRequestRead (code : SocketOperationCode) (packet : List UInt8)
    (random : Challenge) : VerifyServerHandler :=
  if code ≠ .success then handler.invokeCallback .ioErrorServerChallengeRequest
  else
    match ServerChallengeRequest.ofPacket packet with
    | .none => handler.invokeCallback .malformedData
    | some request =>
        let response := generateServerChallengeResponse request handler.keyPair
          handler.serverPeerInfo.securityMode random
        { handler with
          stage := .writesResponse response
          signed := handler.signed ++
            [clientSignedBytes request.challenge handler.serverPeerInfo.securityMode.byte]
          written := handler.written ++ [response.packet] }

def handleServerChallengeResponseWrite (response : ServerChallengeResponse)
    (code : SocketOperationCode) : VerifyServerHandler :=
  if code ≠ .success then handler.invokeCallback .ioErrorServerChallengeResponse
  else { handler with stage := .readsResponse response }

def handleClientChallengeReponseRead (request : ServerChallengeResponse)
    (code : SocketOperationCode) (packet : List UInt8) : VerifyServerHandler :=
  if code ≠ .success then handler.invokeCallback .ioErrorClientChallengeResponse
  else
    match ClientChallengeResponse.ofPacket packet with
    | .none => handler.invokeCallback .malformedData
    | some response =>
        let isVerified := verifyClientChallengeResponse verify response
          handler.serverPeerInfo.publicKey request.challenge
        handler.invokeCallback (if isVerified then .success else .failureChallenge)

/-- The answer to the operation under way. A packet is read only on success. -/
inductive Event where
  | read (code : SocketOperationCode) (packet : List UInt8) (random : Challenge)
  | written (code : SocketOperationCode)
  deriving Repr, DecidableEq

def onEvent : Event → Option VerifyServerHandler
  | .read code packet random =>
      match handler.stage with
      | .readsRequest => some (handler.handleServerChallengeRequestRead code packet random)
      | .readsResponse response =>
          some (handler.handleClientChallengeReponseRead verify response code packet)
      | .writesResponse _ | .completed => none
  | .written code =>
      match handler.stage with
      | .writesResponse response => some (handler.handleServerChallengeResponseWrite response code)
      | .readsRequest | .readsResponse _ | .completed => none

def start (serverPeerInfo : VerifiedPeerInfo) (keyPair : KeyPair) : VerifyServerHandler where
  serverPeerInfo := serverPeerInfo
  keyPair := keyPair

/-- `VerifyServer` with whatever answers the peer gives. -/
def handlers : Transition VerifyServerHandler Event :=
  ⟨fun handler event => handler.onEvent verify event⟩

variable {verify} {handler} {serverPeerInfo : VerifiedPeerInfo} {keyPair : KeyPair}

theorem clientSignedBytes_ne (challenge other : Challenge) (securityMode : UInt8) :
    clientSignedBytes challenge securityMode ≠ serverSignedBytes other := by
  intro same
  have length := congrArg List.length same
  simp [clientSignedBytes, serverSignedBytes] at length

/-- The invariant of a handler: the callback is called when it completes, and says success only
    for a challenge that the key of the server has signed. -/
structure Stands (verify : Key → List UInt8 → Signature → Bool)
    (serverPeerInfo : VerifiedPeerInfo) (handler : VerifyServerHandler) : Prop where
  sameInfo : handler.serverPeerInfo = serverPeerInfo
  onlyChallenges : ∀ bytes ∈ handler.signed, ∀ challenge, bytes ≠ serverSignedBytes challenge
  hasWritten : ∀ response, handler.stage = .writesResponse response ∨
    handler.stage = .readsResponse response → handler.written = [response.packet]
  hasNotWritten : handler.stage = .readsRequest → handler.written = []
  calledOnce : handler.called.length = if handler.stage = .completed then 1 else 0
  trusted : .success ∈ handler.called → ∃ response signature,
    handler.written = [ServerChallengeResponse.packet response] ∧
      verify serverPeerInfo.publicKey (serverSignedBytes response.challenge) signature = true

theorem Stands.start (serverPeerInfo : VerifiedPeerInfo) (keyPair : KeyPair) :
    (start serverPeerInfo keyPair).Stands verify serverPeerInfo := by
  constructor <;> simp [VerifyServerHandler.start]

theorem Stands.invokeCallback (stands : handler.Stands verify serverPeerInfo)
    (runs : handler.stage ≠ .completed) {result : VerifyResult}
    (trusted : result = .success → ∃ response signature,
      handler.written = [ServerChallengeResponse.packet response] ∧
        verify serverPeerInfo.publicKey (serverSignedBytes response.challenge) signature = true) :
    (handler.invokeCallback result).Stands verify serverPeerInfo := by
  have notCalled : handler.called = [] := by simpa [runs] using stands.calledOnce
  refine ⟨stands.sameInfo, stands.onlyChallenges, ?_, ?_, ?_, ?_⟩
  · simp [VerifyServerHandler.invokeCallback]
  · simp [VerifyServerHandler.invokeCallback]
  · simp [VerifyServerHandler.invokeCallback, notCalled]
  · intro success
    simp only [VerifyServerHandler.invokeCallback, notCalled, List.nil_append,
      List.mem_singleton] at success
    exact trusted success.symm

theorem Stands.onEvent (stands : handler.Stands verify serverPeerInfo) {event : Event}
    {after : VerifyServerHandler} (step : handler.onEvent verify event = some after) :
    after.Stands verify serverPeerInfo := by
  cases event with
  | read code packet random =>
      simp only [VerifyServerHandler.onEvent] at step
      split at step
      · rename_i stage
        have runs : handler.stage ≠ .completed := by simp [stage]
        simp only [Option.some.injEq, handleServerChallengeRequestRead] at step
        subst step
        split
        · exact stands.invokeCallback runs (by simp)
        · split
          · exact stands.invokeCallback runs (by simp)
          · have notCalled : handler.called = [] := by simpa [stage] using stands.calledOnce
            have notWritten := stands.hasNotWritten stage
            refine ⟨stands.sameInfo, ?_, by simp [notWritten], by simp, by simp [notCalled],
              by simp [notCalled]⟩
            intro bytes member
            cases List.mem_append.mp member with
            | inl before => exact stands.onlyChallenges bytes before
            | inr here =>
                obtain rfl := List.mem_singleton.mp here
                exact fun challenge => clientSignedBytes_ne _ challenge _
      · rename_i response stage
        have runs : handler.stage ≠ .completed := by simp [stage]
        simp only [Option.some.injEq, handleClientChallengeReponseRead] at step
        subst step
        split
        · exact stands.invokeCallback runs (by simp)
        · split
          · exact stands.invokeCallback runs (by simp)
          · rename_i answer _
            apply stands.invokeCallback runs
            intro isSuccess
            simp only [verifyClientChallengeResponse, stands.sameInfo] at isSuccess
            split at isSuccess
            · rename_i verified
              exact ⟨response, answer.signature, stands.hasWritten response (Or.inr stage), verified⟩
            · simp at isSuccess
      · simp at step
      · simp at step
  | written code =>
      simp only [VerifyServerHandler.onEvent] at step
      split at step
      · rename_i response stage
        have runs : handler.stage ≠ .completed := by simp [stage]
        simp only [Option.some.injEq, handleServerChallengeResponseWrite] at step
        subst step
        split
        · exact stands.invokeCallback runs (by simp)
        · have notCalled : handler.called = [] := by simpa [stage] using stands.calledOnce
          refine ⟨stands.sameInfo, stands.onlyChallenges, ?_, by simp, by simp [notCalled],
            by simp [notCalled]⟩
          simpa using stands.hasWritten response (Or.inl stage)
      · simp at step
      · simp at step
      · simp at step

/-- Whatever the peer answers, the callback is called once when the handler completes. It says
    success only if the owner of the server's key has signed the challenge that this handler
    sent; no signature that a handler gives out can be taken for one of a server. -/
theorem signed_of_success {hasSigned : Key → List UInt8 → Prop}
    (unforgeable : ∀ key bytes signature, verify key bytes signature = true → hasSigned key bytes)
    {events : List Event} (run : (handlers verify).exec (start serverPeerInfo keyPair) events =
      some handler) :
    (handler.called.length = if handler.stage = .completed then 1 else 0) ∧
      (.success ∈ handler.called → ∃ response : ServerChallengeResponse,
        handler.written = [response.packet] ∧
          hasSigned serverPeerInfo.publicKey (serverSignedBytes response.challenge)) ∧
      ∀ bytes ∈ handler.signed, ∀ challenge, bytes ≠ serverSignedBytes challenge := by
  have stands := Transition.invariant_of_step
    (I := fun handler => handler.Stands verify serverPeerInfo)
    (fun _ _ _ kept step => kept.onEvent step) (Stands.start serverPeerInfo keyPair) run
  refine ⟨stands.calledOnce, ?_, stands.onlyChallenges⟩
  intro success
  obtain ⟨response, signature, hasWritten, verified⟩ := stands.trusted success
  exact ⟨response, hasWritten, unforgeable _ _ _ verified⟩

private def challengeVerify (key : Key) (bytes : List UInt8) (signature : Signature) : Bool :=
  key == 7 && bytes == serverSignedBytes 3 && signature == 9

private def trustedPeer : List Event :=
  [.read .success (ServerChallengeRequest.packet { challenge := 1 }) 3, .written .success,
    .read .success (ClientChallengeResponse.packet { signature := 9 }) 0]

theorem signed_of_trustedPeer :
    ∃ response : ServerChallengeResponse,
      ((handlers challengeVerify).exec (start ⟨7, .signed⟩ ⟨5, fun _ => 0⟩) trustedPeer).map
          (·.written) = some [response.packet] ∧
        serverSignedBytes response.challenge = serverSignedBytes 3 := by
  have run : (handlers challengeVerify).exec (start ⟨7, .signed⟩ ⟨5, fun _ => 0⟩) trustedPeer =
      some (((handlers challengeVerify).exec (start ⟨7, .signed⟩ ⟨5, fun _ => 0⟩) trustedPeer).get
        (by decide +kernel)) := (Option.some_get _).symm
  obtain ⟨response, written, hasSigned⟩ := (@signed_of_success challengeVerify _ _ _
    (fun key bytes => key = 7 ∧ bytes = serverSignedBytes 3)
    (by
      intro key bytes signature verified
      simp only [challengeVerify, Bool.and_eq_true, beq_iff_eq] at verified
      exact verified.1) _ run).2.1 (by decide +kernel)
  exact ⟨response, by rw [run, Option.map_some, written], hasSigned.2⟩

/-- The answers of a server that follows the protocol, to the response it gets. -/
def honestAnswers (server : KeyPair) (challenge : Challenge) (response : ServerChallengeResponse) :
    List Event :=
  [.read .success (ServerChallengeRequest.packet { challenge := challenge }) response.challenge,
    .written .success,
    .read .success (generateClientChallengeResponse response server).packet 0]

/-- A client and a server that both hold their keys accept each other, whatever the challenges
    and the security mode: what the one sends is read by the other as it was made. -/
theorem success_of_honest {client server : KeyPair} {response : ServerChallengeResponse}
    (securityMode : ConnectionSecurityMode) (challenge random : Challenge)
    (clientSigns : ∀ bytes, verify client.publicKey bytes (client.sign bytes) = true)
    (serverSigns : ∀ bytes, verify server.publicKey bytes (server.sign bytes) = true)
    (isResponse : response = generateServerChallengeResponse { challenge := challenge } client
      securityMode random) :
    ServerChallengeResponse.ofPacket response.packet = some response ∧
      verifyServerChallengeResponse verify response challenge = true ∧
      ∃ handler, (handlers verify).exec (start ⟨server.publicKey, securityMode⟩ client)
          (honestAnswers server challenge response) = some handler ∧
        handler.written = [response.packet] ∧ handler.called = [.success] := by
  have accepted : verifyServerChallengeResponse verify response challenge = true := by
    rw [isResponse]
    exact clientSigns _
  have verified : verifyClientChallengeResponse verify
      (generateClientChallengeResponse response server) server.publicKey response.challenge =
        true := serverSigns _
  have same : generateServerChallengeResponse { challenge := challenge } client securityMode
      response.challenge = response := by rw [isResponse]; rfl
  refine ⟨ServerChallengeResponse.ofPacket_packet response, accepted,
    { serverPeerInfo := ⟨server.publicKey, securityMode⟩
      keyPair := client
      stage := .completed
      signed := [clientSignedBytes challenge securityMode.byte]
      written := [response.packet]
      called := [.success] }, ?_, rfl, rfl⟩
  simp [Transition.exec, handlers, VerifyServerHandler.start, VerifyServerHandler.onEvent,
    honestAnswers, handleServerChallengeRequestRead, handleServerChallengeResponseWrite,
    handleClientChallengeReponseRead, VerifyServerHandler.invokeCallback, same, verified]

private def plainKeyPair (key : Key) : KeyPair :=
  { publicKey := key, sign := fun bytes => arrayOfBytes 64 (arrayBytes 32 key ++ bytes) }

private def plainResponse : ServerChallengeResponse :=
  generateServerChallengeResponse { challenge := 1 } (plainKeyPair 5) .signed 3

theorem success_of_plainKeyPair :
    ∃ handler, (handlers fun key bytes signature => signature == (plainKeyPair key).sign bytes).exec
        (start ⟨7, .signed⟩ (plainKeyPair 5)) (honestAnswers (plainKeyPair 7) 1 plainResponse) =
      some handler ∧ handler.written = [plainResponse.packet] ∧ handler.called = [.success] :=
  (@success_of_honest (fun key bytes signature => signature == (plainKeyPair key).sign bytes)
    (plainKeyPair 5) (plainKeyPair 7) plainResponse .signed 1 3 (by simp [plainKeyPair])
    (by simp [plainKeyPair]) rfl).2.2

end VerifyServerHandler

end SiriusDrive
