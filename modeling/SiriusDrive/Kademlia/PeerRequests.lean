import Mathlib.Data.List.Sort
import SiriusDrive.Kademlia.PeerSearch
import SiriusDrive.Lib.Transition

/-! # The requests of a search

`PeerSearchInfo` asks one candidate after the other, the last one of its list first. The
list is sorted by the distance from the own key, so the last one is the farthest from it,
wherever the target is.
-/

namespace SiriusDrive.Kademlia

/-- A candidate that is popped from the end comes behind those asked before. -/
theorem perm_pop {candidates : List Candidate} {candidate : Candidate}
    (requests : List Candidate) (isLast : candidates.getLast? = some candidate) :
    ((requests ++ [candidate]) ++ candidates.dropLast).Perm (requests ++ candidates) := by
  obtain ⟨front, rfl⟩ := List.getLast?_eq_some_iff.mp isLast
  rw [List.dropLast_concat, List.append_assoc]
  exact List.perm_append_comm.append_left requests

/-- The order of `std::sort`. -/
def Candidate.sort (candidates : List Candidate) : List Candidate :=
  candidates.insertionSort fun a b => a.xorValue ≤ b.xorValue

theorem SearchSetting.candidateOf_eq_some {setting : SearchSetting} {peerInfo : PeerInfo}
    {candidate : Candidate} (isCandidate : setting.candidateOf peerInfo = some candidate) :
    candidate.publicKey = peerInfo.publicKey ∧
      candidate.xorValue = candidate.publicKey ^^^ setting.myPeerKey := by
  obtain ⟨endpoint, _, rfl⟩ := Option.map_eq_some_iff.mp isCandidate
  exact ⟨rfl, rfl⟩

/-- `PeerSearchInfo`: the candidates have not been asked, and no key is there twice. -/
structure PeerSearchInfo where
  setting : SearchSetting
  /-- `PeerInfo::Verify`: the peer's signature on its key and address. The port and the time are
      read through pointers that are made of their values, so that any answer is possible. -/
  verify : PeerInfo → Bool
  targetPeerKey : PeerKey
  candidates : List Candidate
  /-- The candidates that were asked, in order; their keys are `m_triedPeers`. -/
  requests : List Candidate := []
  /-- `m_session` refers to a session. -/
  session : Bool
  timer : Timer := .unset
  /-- The last candidate of an empty list was asked for. -/
  popsEmpty : Bool := false
  distinct : ((requests ++ candidates).map (·.publicKey)).Nodup
  measured : ∀ candidate ∈ candidates,
    candidate.xorValue = candidate.publicKey ^^^ setting.myPeerKey

namespace PeerSearchInfo

variable (search : PeerSearchInfo)

def triedPeers : List PeerKey := search.requests.map (·.publicKey)

def sendNextRequest : PeerSearchInfo :=
  if search.session then
    match isLast : search.candidates.getLast? with
    | none => { search with popsEmpty := true }
    | some candidate =>
        { search with
          requests := search.requests ++ [candidate]
          candidates := search.candidates.dropLast
          timer := .pending
          distinct := ((perm_pop search.requests isLast).map _).nodup_iff.mpr search.distinct
          measured := fun other member =>
            search.measured other (List.dropLast_subset _ member) }
  else search

/-- The constructor after its loop, which finds nothing but the bootstrap node
    (`SearchSetting.found_eq_bootstrap`). -/
def start (setting : SearchSetting) (verify : PeerInfo → Bool) (targetPeerKey : PeerKey)
    (session : Bool) : PeerSearchInfo :=
  sendNextRequest
    { setting, verify, targetPeerKey, session
      candidates := [setting.bootstrapCandidate]
      distinct := by simp
      measured := by
        intro candidate member
        rw [List.mem_singleton.mp member]
        rfl }

def onTimer : PeerSearchInfo :=
  if search.candidates = [] then search else search.sendNextRequest

def addCandidate (candidate : Candidate) (untried : candidate.publicKey ∉ search.triedPeers)
    (isNew : candidate.publicKey ∉ search.candidates.map (·.publicKey))
    (isMeasured : candidate.xorValue = candidate.publicKey ^^^ search.setting.myPeerKey) :
    PeerSearchInfo :=
  { search with
    candidates := search.candidates ++ [candidate]
    distinct := by
      rw [← List.append_assoc, List.map_append, List.map_singleton]
      refine List.nodup_append.mpr ⟨search.distinct, List.nodup_singleton _, ?_⟩
      intro key isOld other isOther same
      rw [List.mem_singleton.mp isOther] at same
      rw [same, List.map_append, List.mem_append] at isOld
      exact isOld.elim untried isNew
    measured := by
      intro other member
      rcases List.mem_append.mp member with isOld | isLast
      · exact search.measured other isOld
      · rw [List.mem_singleton.mp isLast]
        exact isMeasured }

/-- The loop over a response. It ends early, with `false`, when an address is no address. -/
def addCandidates (search : PeerSearchInfo) : List PeerInfo → PeerSearchInfo × Bool
  | [] => (search, true)
  | peerInfo :: rest =>
      if !search.verify peerInfo then search.addCandidates rest
      else if tried : peerInfo.publicKey ∈ search.triedPeers then search.addCandidates rest
      else if known : peerInfo.publicKey ∈ search.candidates.map (·.publicKey) then
        search.addCandidates rest
      else
        match isCandidate : search.setting.candidateOf peerInfo with
        | none => (search, false)
        | some candidate =>
            have spec := SearchSetting.candidateOf_eq_some isCandidate
            (search.addCandidate candidate (spec.1 ▸ tried) (spec.1 ▸ known) spec.2).addCandidates
              rest

/-- The candidates after `std::sort`. -/
def sorted : PeerSearchInfo :=
  { search with
    candidates := Candidate.sort search.candidates
    distinct :=
      (((List.perm_insertionSort _ search.candidates).append_left
        search.requests).map _).nodup_iff.mpr search.distinct
    measured := fun candidate member =>
      search.measured candidate ((List.perm_insertionSort _ search.candidates).mem_iff.mp member) }

def foundTarget (response : List PeerInfo) : Option PeerInfo :=
  match response with
  | [peerInfo] => if peerInfo.publicKey = search.targetPeerKey then some peerInfo else none
  | _ => none

/-- `onGetPeerIpResponse`. -/
def onGetPeerIpResponse (response : List PeerInfo) : PeerSearchInfo :=
  match search.foundTarget response with
  | some peerInfo =>
      { search with
        setting := { search.setting with table := search.setting.table.addPeerInfo peerInfo } }
  | none =>
      if (search.addCandidates response).2 then
        (search.addCandidates response).1.sorted.sendNextRequest
      else (search.addCandidates response).1

/-- `onGetPeerIpResponse` of the catalogue, which hands a response on to the search for its key. -/
def receiveResponse (peerKey : PeerKey) (response : List PeerInfo) : PeerSearchInfo :=
  if response = [] then search
  else if response.any (!search.verify ·) then search
  else if peerKey ≠ search.targetPeerKey then search
  else search.onGetPeerIpResponse response

end PeerSearchInfo

inductive SearchEvent where
  | timerExpired
  | sessionExpired
  | peerIpResponse (peerKey : PeerKey) (response : List PeerInfo)

namespace PeerSearchInfo

/-- Nothing is known of a search after a pop from an empty list. -/
def searchSystem : Transition PeerSearchInfo SearchEvent where
  step search event :=
    if search.popsEmpty then none
    else
      match event with
      | .timerExpired =>
          if search.timer = .pending then some { search with timer := .expired }.onTimer else none
      | .sessionExpired => some { search with session := false }
      | .peerIpResponse peerKey response => some (search.receiveResponse peerKey response)

/-- The candidate has the smallest distance from the key. -/
def IsNearest (key : PeerKey) (candidates : List Candidate) (candidate : Candidate) : Prop :=
  ∀ other ∈ candidates, candidate.publicKey ^^^ key ≤ other.publicKey ^^^ key

/-- The candidate has the largest distance from the key. -/
def IsFarthest (key : PeerKey) (candidates : List Candidate) (candidate : Candidate) : Prop :=
  ∀ other ∈ candidates, other.publicKey ^^^ key ≤ candidate.publicKey ^^^ key

instance (key : PeerKey) (candidates : List Candidate) (candidate : Candidate) :
    Decidable (IsNearest key candidates candidate) :=
  inferInstanceAs (Decidable (∀ other ∈ candidates, _))

instance (key : PeerKey) (candidates : List Candidate) (candidate : Candidate) :
    Decidable (IsFarthest key candidates candidate) :=
  inferInstanceAs (Decidable (∀ other ∈ candidates, _))

variable (search : PeerSearchInfo)

def BringsCandidates (peerKey : PeerKey) (response : List PeerInfo) : Prop :=
  response ≠ [] ∧ (∀ peerInfo ∈ response, search.verify peerInfo = true) ∧
    peerKey = search.targetPeerKey ∧ search.foundTarget response = none

/-- The untried candidates when the next request is sent. -/
def untried : SearchEvent → List Candidate
  | .peerIpResponse _ response => (search.addCandidates response).1.candidates
  | _ => search.candidates

/-- A request goes to the untried candidate nearest to the target, if there is one, and never to
    one that was asked before. -/
def SendsToNearest (search : PeerSearchInfo) (event : SearchEvent) : Prop :=
  ∀ after, searchSystem.step search event = some after →
    after.popsEmpty = false ∧
      (after.requests = search.requests ∨
        ∃ candidate ∈ search.untried event,
          after.requests = search.requests ++ [candidate] ∧
            IsNearest search.targetPeerKey (search.untried event) candidate ∧
              candidate.publicKey ∉ search.triedPeers)

/-- When a response leads to a request there are candidates, and the one farthest from the own key
    is nearest to the target. When the timer does, the last candidate of the list is. -/
def FarthestIsNearest (search : PeerSearchInfo) : SearchEvent → Prop
  | .timerExpired =>
      search.session = true → search.timer = .pending →
        ∀ candidate, search.candidates.getLast? = some candidate →
          IsNearest search.targetPeerKey search.candidates candidate
  | .sessionExpired => True
  | .peerIpResponse peerKey response =>
      search.session = true → search.BringsCandidates peerKey response →
        (search.addCandidates response).2 = true →
          (search.addCandidates response).1.candidates ≠ [] ∧
            ∀ candidate ∈ (search.addCandidates response).1.candidates,
              IsFarthest search.setting.myPeerKey (search.addCandidates response).1.candidates
                candidate →
              IsNearest search.targetPeerKey (search.addCandidates response).1.candidates candidate

section Requests

variable {search}

/-- The last of the sorted candidates is the farthest from the own key. -/
theorem isFarthest_of_getLast? {candidate : Candidate}
    (isLast : search.sorted.candidates.getLast? = some candidate) :
    candidate ∈ search.candidates ∧
      IsFarthest search.setting.myPeerKey search.candidates candidate := by
  have isPerm : search.sorted.candidates.Perm search.candidates :=
    List.perm_insertionSort _ search.candidates
  have isSorted : search.sorted.candidates.Pairwise fun a b => a.xorValue ≤ b.xorValue :=
    List.pairwise_insertionSort (fun a b : Candidate => a.xorValue ≤ b.xorValue) search.candidates
  have member : candidate ∈ search.candidates :=
    isPerm.mem_iff.mp (List.mem_of_getLast? isLast)
  refine ⟨member, ?_⟩
  intro other isOther
  rw [← search.measured other isOther, ← search.measured candidate member]
  obtain ⟨front, isConcat⟩ := List.getLast?_eq_some_iff.mp isLast
  rw [isConcat] at isSorted isPerm
  rcases List.mem_append.mp (isPerm.mem_iff.mpr isOther) with isBefore | isEnd
  · exact (List.pairwise_append.mp isSorted).2.2 other isBefore candidate (List.mem_singleton_self _)
  · rw [List.mem_singleton.mp isEnd]
    exact BitVec.le_refl _

theorem sendNextRequest_of_getLast? {candidate : Candidate} (session : search.session = true)
    (isLast : search.candidates.getLast? = some candidate) :
    search.sendNextRequest.requests = search.requests ++ [candidate] ∧
      search.sendNextRequest.popsEmpty = search.popsEmpty := by
  rw [sendNextRequest, if_pos session]
  split
  · rename_i isNone
    rw [isLast] at isNone
    simp at isNone
  · rename_i other isOther
    rw [isLast] at isOther
    obtain rfl := Option.some.inj isOther
    exact ⟨rfl, rfl⟩

theorem sendNextRequest_of_empty (session : search.session = true)
    (isEmpty : search.candidates = []) : search.sendNextRequest.popsEmpty = true := by
  rw [sendNextRequest, if_pos session]
  split
  · rfl
  · rename_i other isOther
    rw [isEmpty] at isOther
    simp at isOther

theorem sendNextRequest_of_expired (expired : search.session = false) :
    search.sendNextRequest = search := by
  rw [sendNextRequest, if_neg (by simp [expired])]

theorem addCandidates_frame (response : List PeerInfo) :
    (search.addCandidates response).1.requests = search.requests ∧
      (search.addCandidates response).1.session = search.session ∧
        (search.addCandidates response).1.setting = search.setting ∧
          (search.addCandidates response).1.popsEmpty = search.popsEmpty := by
  induction response generalizing search with
  | nil => exact ⟨rfl, rfl, rfl, rfl⟩
  | cons peerInfo rest ih =>
      rw [addCandidates]
      split
      · exact ih
      · split
        · exact ih
        · split
          · exact ih
          · split
            · exact ⟨rfl, rfl, rfl, rfl⟩
            · exact ih

theorem not_mem_triedPeers {candidate : Candidate} (member : candidate ∈ search.candidates) :
    candidate.publicKey ∉ search.triedPeers := by
  intro tried
  have distinct := search.distinct
  rw [List.map_append] at distinct
  exact (List.nodup_append.mp distinct).2.2 _ tried _ (List.mem_map_of_mem member) rfl

theorem sendNextRequest_iff {candidates : List Candidate} (key : PeerKey)
    (session : search.session = true) (isDefined : search.popsEmpty = false)
    (isPerm : search.candidates.Perm candidates) :
    (search.sendNextRequest.popsEmpty = false ∧
        (search.sendNextRequest.requests = search.requests ∨
          ∃ candidate ∈ candidates,
            search.sendNextRequest.requests = search.requests ++ [candidate] ∧
              IsNearest key candidates candidate ∧
                candidate.publicKey ∉ search.triedPeers)) ↔
      ∃ candidate, search.candidates.getLast? = some candidate ∧
        IsNearest key candidates candidate := by
  cases isLast : search.candidates.getLast? with
  | none =>
      have isEmpty := List.getLast?_eq_none_iff.mp isLast
      simp [sendNextRequest_of_empty session isEmpty]
  | some last =>
      obtain ⟨isRequest, stillDefined⟩ := sendNextRequest_of_getLast? session isLast
      rw [isRequest, stillDefined]
      constructor
      · rintro ⟨_, same | ⟨candidate, _, isSame, nearest, _⟩⟩
        · simp at same
        · obtain rfl : last = candidate := by simpa using isSame
          exact ⟨last, rfl, nearest⟩
      · rintro ⟨candidate, isCandidate, nearest⟩
        obtain rfl := Option.some.inj isCandidate
        have member : last ∈ search.candidates := List.mem_of_getLast? isLast
        exact ⟨isDefined, .inr ⟨last, isPerm.mem_iff.mp member, rfl, nearest,
          not_mem_triedPeers member⟩⟩

theorem sendsToNearest_of_sameRequests {event : SearchEvent} {after : PeerSearchInfo}
    (step : searchSystem.step search event = some after)
    (isDefined : after.popsEmpty = false) (same : after.requests = search.requests) :
    search.SendsToNearest event := by
  intro other isOther
  obtain rfl := Option.some.inj (step.symm.trans isOther)
  exact ⟨isDefined, .inl same⟩

theorem timerExpired_iff (isDefined : search.popsEmpty = false) :
    search.SendsToNearest .timerExpired ↔ search.FarthestIsNearest .timerExpired := by
  have step : searchSystem.step search .timerExpired =
      if search.timer = .pending then some { search with timer := .expired }.onTimer else none := by
    simp only [searchSystem, isDefined, Bool.false_eq_true, if_false]
  by_cases pending : search.timer = .pending
  · rw [if_pos pending] at step
    by_cases isEmpty : search.candidates = []
    · refine iff_of_true ?_ ?_
      · refine sendsToNearest_of_sameRequests step ?_ ?_
        · rw [onTimer, if_pos isEmpty]
          exact isDefined
        · rw [onTimer, if_pos isEmpty]
      · intro _ _ candidate isLast
        rw [isEmpty] at isLast
        simp at isLast
    · rw [onTimer, if_neg isEmpty] at step
      cases session : search.session with
      | false =>
          rw [@sendNextRequest_of_expired { search with timer := .expired } session] at step
          refine iff_of_true (sendsToNearest_of_sameRequests step isDefined rfl) ?_
          intro alive
          simp [session] at alive
      | true =>
          have sent := @sendNextRequest_iff { search with timer := .expired } search.candidates
            search.targetPeerKey session isDefined (.refl search.candidates)
          constructor
          · intro sends _ _ candidate isLast
            obtain ⟨last, isAlso, nearest⟩ := sent.mp (sends _ step)
            obtain rfl := Option.some.inj (isLast.symm.trans isAlso)
            exact nearest
          · intro nearest after isAfter
            obtain rfl := Option.some.inj (step.symm.trans isAfter)
            obtain ⟨last, isLast⟩ := Option.isSome_iff_exists.mp
              (List.getLast?_isSome.mpr isEmpty)
            exact sent.mpr ⟨last, isLast, nearest session pending last isLast⟩
  · refine iff_of_true ?_ fun _ isPending => absurd isPending pending
    intro after isAfter
    rw [step, if_neg pending] at isAfter
    simp at isAfter

theorem receiveResponse_frame {peerKey : PeerKey} {response : List PeerInfo}
    (brings : ¬ search.BringsCandidates peerKey response) :
    (search.receiveResponse peerKey response).popsEmpty = search.popsEmpty ∧
      (search.receiveResponse peerKey response).requests = search.requests := by
  unfold receiveResponse
  split
  · exact ⟨rfl, rfl⟩
  · rename_i nonempty
    split
    · exact ⟨rfl, rfl⟩
    · rename_i signed
      split
      · exact ⟨rfl, rfl⟩
      · rename_i isTarget
        cases found : search.foundTarget response with
        | some peerInfo =>
            rw [onGetPeerIpResponse, found]
            exact ⟨rfl, rfl⟩
        | none =>
            exact absurd ⟨nonempty, by simpa using signed, by simpa using isTarget, found⟩ brings

theorem receiveResponse_of_brings {peerKey : PeerKey} {response : List PeerInfo}
    (brings : search.BringsCandidates peerKey response) :
    search.receiveResponse peerKey response =
      if (search.addCandidates response).2 then
        (search.addCandidates response).1.sorted.sendNextRequest
      else (search.addCandidates response).1 := by
  obtain ⟨nonempty, signed, isTarget, notFound⟩ := brings
  rw [receiveResponse, if_neg nonempty, if_neg (by simpa using signed),
    if_neg (not_not.mpr isTarget), onGetPeerIpResponse, notFound]

/-- The last of the sorted candidates is nearest to a key if all those farthest from the own
    key are: these have the same key. -/
theorem nearest_last_iff (key : PeerKey) :
    (∃ candidate, search.sorted.candidates.getLast? = some candidate ∧
        IsNearest key search.candidates candidate) ↔
      search.candidates ≠ [] ∧ ∀ candidate ∈ search.candidates,
        IsFarthest search.setting.myPeerKey search.candidates candidate →
          IsNearest key search.candidates candidate := by
  have isPerm : search.sorted.candidates.Perm search.candidates :=
    List.perm_insertionSort _ search.candidates
  constructor
  · rintro ⟨last, isLast, nearest⟩
    obtain ⟨member, farthest⟩ := isFarthest_of_getLast? isLast
    refine ⟨List.ne_nil_of_mem member, ?_⟩
    intro candidate isCandidate isFarthest
    have same : candidate.publicKey = last.publicKey := by
      have equal := BitVec.le_antisymm (farthest candidate isCandidate) (isFarthest last member)
      exact (BitVec.xor_left_inj _).mp equal
    intro other isOther
    rw [same]
    exact nearest other isOther
  · rintro ⟨nonempty, all⟩
    have sortedNonempty : search.sorted.candidates ≠ [] := by
      intro isEmpty
      rw [isEmpty] at isPerm
      exact nonempty isPerm.nil_eq.symm
    obtain ⟨last, isLast⟩ := Option.isSome_iff_exists.mp (List.getLast?_isSome.mpr sortedNonempty)
    obtain ⟨member, farthest⟩ := isFarthest_of_getLast? isLast
    exact ⟨last, isLast, all last member farthest⟩

theorem peerIpResponse_iff (isDefined : search.popsEmpty = false) (peerKey : PeerKey)
    (response : List PeerInfo) :
    search.SendsToNearest (.peerIpResponse peerKey response) ↔
      search.FarthestIsNearest (.peerIpResponse peerKey response) := by
  have step : searchSystem.step search (.peerIpResponse peerKey response) =
      some (search.receiveResponse peerKey response) := by
    simp only [searchSystem, isDefined, Bool.false_eq_true, if_false]
  by_cases brings : search.BringsCandidates peerKey response
  · obtain ⟨isRequests, isSession, isSetting, isPops⟩ :=
      @addCandidates_frame search response
    rw [receiveResponse_of_brings brings] at step
    cases finished : (search.addCandidates response).2 with
    | false =>
        rw [finished, if_neg (by simp)] at step
        refine iff_of_true ?_ ?_
        · exact sendsToNearest_of_sameRequests step (isPops.trans isDefined) isRequests
        · intro _ _ isFinished
          simp [finished] at isFinished
    | true =>
        rw [finished, if_pos rfl] at step
        cases session : search.session with
        | false =>
            have expired : (search.addCandidates response).1.sorted.session = false :=
              isSession.trans session
            rw [sendNextRequest_of_expired expired] at step
            refine iff_of_true ?_ ?_
            · exact sendsToNearest_of_sameRequests step (isPops.trans isDefined) isRequests
            · intro alive
              simp [session] at alive
        | true =>
            have sent := @sendNextRequest_iff (search.addCandidates response).1.sorted
              (search.addCandidates response).1.candidates search.targetPeerKey
              (isSession.trans session) (isPops.trans isDefined) (List.perm_insertionSort _ _)
            rw [nearest_last_iff, isSetting] at sent
            have sameRequests : (search.addCandidates response).1.sorted.requests =
                search.requests := isRequests
            have sameTried : (search.addCandidates response).1.sorted.triedPeers =
                search.triedPeers := congrArg (·.map (·.publicKey)) isRequests
            rw [sameRequests, sameTried] at sent
            constructor
            · intro sends _ _ _
              exact sent.mp (sends _ step)
            · intro nearest after isAfter
              obtain rfl := Option.some.inj (step.symm.trans isAfter)
              exact sent.mpr (nearest session brings finished)
  · obtain ⟨isPops, isRequests⟩ := receiveResponse_frame brings
    refine iff_of_true ?_ fun _ isBrought => absurd isBrought brings
    exact sendsToNearest_of_sameRequests step (isPops.trans isDefined) isRequests

theorem sendsToNearest_iff_farthestIsNearest (isDefined : search.popsEmpty = false)
    (event : SearchEvent) :
    search.SendsToNearest event ↔ search.FarthestIsNearest event := by
  cases event with
  | timerExpired => exact timerExpired_iff isDefined
  | sessionExpired =>
      have step : searchSystem.step search .sessionExpired =
          some { search with session := false } := by
        simp only [searchSystem, isDefined, Bool.false_eq_true, if_false]
      exact iff_of_true (sendsToNearest_of_sameRequests step isDefined rfl) trivial
  | peerIpResponse peerKey response => exact peerIpResponse_iff isDefined peerKey response

end Requests

theorem start_spec (setting : SearchSetting) (verify : PeerInfo → Bool) (targetPeerKey : PeerKey)
    (session : Bool) :
    (start setting verify targetPeerKey session).popsEmpty = false ∧
      (start setting verify targetPeerKey session).requests =
        if session then [setting.bootstrapCandidate] else [] := by
  cases session <;> exact ⟨rfl, rfl⟩

/-- All requests of a search go to the nearest untried candidate if and only if in each step that
    sends one this is the one farthest from the own key. -/
theorem sendsToNearest_iff (setting : SearchSetting) (verify : PeerInfo → Bool)
    (targetPeerKey : PeerKey) (session : Bool) (events : List SearchEvent) :
    searchSystem.Meets SendsToNearest (start setting verify targetPeerKey session) events ↔
      searchSystem.Meets FarthestIsNearest (start setting verify targetPeerKey session) events :=
  Transition.meets_iff_of_invariant (I := fun search => search.popsEmpty = false)
    (fun _ event isDefined => sendsToNearest_iff_farthestIsNearest isDefined event)
    (fun _ _ after _ sends step => (sends after step).1) events (start_spec ..).1

/-- A search that has asked the bootstrap node. -/
def sample : PeerSearchInfo := start SearchSetting.sample (fun _ => true) 5 true

theorem sample_of_response {response : List PeerInfo} (untried : List Candidate)
    (brings : sample.BringsCandidates 5 response) (adds : (sample.addCandidates response).2 = true)
    (isUntried : (sample.addCandidates response).1.candidates = untried)
    (sends : searchSystem.Meets SendsToNearest sample [.peerIpResponse 5 response]) :
    untried ≠ [] ∧ ∀ candidate ∈ untried, IsFarthest 0 untried candidate →
      IsNearest 5 untried candidate := by
  have isDefined : sample.popsEmpty = false := (start_spec ..).1
  have nearest := (sendsToNearest_iff_farthestIsNearest isDefined _).mp sends.1 rfl brings adds
  rw [isUntried] at nearest
  exact nearest

/-- The peer 2 is asked for the peer 5, although the peer 1 is nearer to it; and a response with no
    new peer makes the search ask for the last of no candidates. -/
theorem sample_asks_farthest_and_pops_empty :
    ¬ searchSystem.Meets SendsToNearest sample
        [.peerIpResponse 5 ([1, 2].map KademliaHashTable.samplePeer)] ∧
      ¬ searchSystem.Meets SendsToNearest sample
        [.peerIpResponse 5 [KademliaHashTable.samplePeer 9]] := by
  constructor
  · intro sends
    have nearest := sample_of_response
      [⟨⟨.v4 0x0a000001, 7904⟩, 1, 1⟩, ⟨⟨.v4 0x0a000001, 7904⟩, 2, 2⟩]
      ⟨by simp, fun _ _ => rfl, rfl, rfl⟩ (by decide +kernel) (by decide +kernel) sends
    have isNearest := nearest.2 ⟨⟨.v4 0x0a000001, 7904⟩, 2, 2⟩ (by decide) (by decide)
    exact absurd isNearest (by decide)
  · intro sends
    have nearest := sample_of_response [] ⟨by simp, fun _ _ => rfl, rfl, by decide +kernel⟩
      (by decide +kernel) (by decide +kernel) sends
    exact nearest.1 rfl

end PeerSearchInfo

end SiriusDrive.Kademlia
