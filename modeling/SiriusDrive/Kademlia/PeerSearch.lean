import SiriusDrive.Kademlia.AddedPeers
import SiriusDrive.Lib.WhileLoop

/-! # The first candidates of a search

The constructor of `PeerSearchInfo` looks for candidates in a bucket and is meant to go on
with lower buckets. It counts its member `m_bucketIndex` down and reads the bucket of its
parameter each time.
-/

namespace SiriusDrive.Kademlia

/-- `Candidate` of `PeerSearchInfo`. -/
structure Candidate where
  endpoint : UdpEndpoint
  publicKey : PeerKey
  xorValue : PeerKey
  deriving Repr, DecidableEq

/-- What the search of a peer refers to. `makeAddress` is `boost::asio::ip::make_address`, which
    throws on a text that is no address. -/
structure SearchSetting where
  makeAddress : String → Option IpAddress
  table : KademliaHashTable
  /-- The first bootstrap node; the others are not looked at. -/
  bootstrapNode : UdpEndpoint × Key
  myPeerKey : PeerKey

namespace SearchSetting

variable (setting : SearchSetting)

/-- `PeerInfo::endpoint`. -/
def endpoint (info : PeerInfo) : Option UdpEndpoint :=
  (setting.makeAddress info.address).map ({ address := ·, port := info.port })

def candidateOf (peerInfo : PeerInfo) : Option Candidate :=
  (setting.endpoint peerInfo).map
    ({ endpoint := ·
       publicKey := peerInfo.publicKey
       xorValue := peerInfo.publicKey ^^^ setting.myPeerKey })

def bootstrapCandidate : Candidate where
  endpoint := setting.bootstrapNode.1
  publicKey := setting.bootstrapNode.2
  xorValue := setting.bootstrapNode.2 ^^^ setting.myPeerKey

end SearchSetting

/-- The loop of the constructor. -/
inductive CandidateSearch where
  | searching (bucketIndex : Nat) (candidates : List Candidate)
  | found (candidates : List Candidate)
  | thrown
  deriving Repr, DecidableEq

namespace SearchSetting

variable (setting : SearchSetting) (bucketIndex : Fin BUCKET_NUMBER)

/-- An iteration. The index that is counted down is not the one of the bucket. -/
def searchNext : CandidateSearch → Option CandidateSearch
  | .searching memberIndex candidates =>
      match (setting.table.buckets bucketIndex).nodes.mapM setting.candidateOf with
      | none => some .thrown
      | some more =>
          if candidates ++ more = [] then
            if memberIndex = 0 then some (.found [setting.bootstrapCandidate])
            else some (.searching (memberIndex - 1) [])
          else some (.searching memberIndex (candidates ++ more))
  | .found _ => none
  | .thrown => none

def nodesAt (index : Nat) : List PeerInfo :=
  if inside : index < BUCKET_NUMBER then (setting.table.buckets ⟨index, inside⟩).nodes else []

/-- The peers of the first bucket with any, from an index down. -/
def nearestNodes : Nat → List PeerInfo
  | 0 => setting.nodesAt 0
  | index + 1 =>
      if setting.nodesAt (index + 1) = [] then nearestNodes index else setting.nodesAt (index + 1)

/-- The search comes to an end with candidates, no two of one key: those of the nearest bucket with
    peers, or else the bootstrap node. -/
def SearchesWell : Prop :=
  ∃ fuel candidates,
    WhileLoop.run (setting.searchNext bucketIndex) fuel (.searching bucketIndex.val []) =
      some (.found candidates) ∧
    candidates ≠ [] ∧ (candidates.map (·.publicKey)).Nodup ∧
      if setting.nearestNodes bucketIndex.val = [] then candidates = [setting.bootstrapCandidate]
      else (setting.nearestNodes bucketIndex.val).mapM setting.candidateOf = some candidates

variable {setting bucketIndex}

theorem mapM_candidateOf_ne_nil {nodes : List PeerInfo} {candidates : List Candidate}
    (nonempty : nodes ≠ []) (isMap : nodes.mapM setting.candidateOf = some candidates) :
    candidates ≠ [] := by
  cases nodes with
  | nil => exact absurd rfl nonempty
  | cons first rest =>
      simp only [List.mapM_cons, Option.bind_eq_bind, Option.bind_eq_some_iff, Option.pure_def,
        Option.some.injEq] at isMap
      obtain ⟨_, _, _, _, rfl⟩ := isMap
      exact List.cons_ne_nil _ _

theorem run_of_empty (isEmpty : (setting.table.buckets bucketIndex).nodes = []) (index : Nat) :
    WhileLoop.run (setting.searchNext bucketIndex) (index + 2) (.searching index []) =
      some (.found [setting.bootstrapCandidate]) := by
  induction index with
  | zero =>
      have step : setting.searchNext bucketIndex (.searching 0 []) =
          some (.found [setting.bootstrapCandidate]) := by
        simp [searchNext, isEmpty]
      rw [WhileLoop.run_of_next 1 step, WhileLoop.run_of_stop 0 rfl]
  | succ index ih =>
      have step : setting.searchNext bucketIndex (.searching (index + 1) []) =
          some (.searching index []) := by
        simp [searchNext, isEmpty]
      rw [WhileLoop.run_of_next (index + 2) step, ih]

theorem not_found_of_nonempty (nonempty : (setting.table.buckets bucketIndex).nodes ≠ [])
    {start : CandidateSearch} (searches : ∀ candidates, start ≠ .found candidates)
    (candidates : List Candidate) :
    ¬ WhileLoop.Ends (setting.searchNext bucketIndex) start (.found candidates) := by
  intro ends
  refine (ends.invariant (I := fun s => ∀ candidates, s ≠ .found candidates) ?_ searches).1
    candidates rfl
  intro s t _ step
  cases s with
  | found | thrown => simp [searchNext] at step
  | searching index candidates =>
      rw [searchNext] at step
      cases isMap : (setting.table.buckets bucketIndex).nodes.mapM setting.candidateOf with
      | none =>
          rw [isMap] at step
          obtain rfl := Option.some.inj step
          simp
      | some more =>
          have anyMore := mapM_candidateOf_ne_nil nonempty isMap
          rw [isMap] at step
          dsimp only at step
          rw [if_neg (by simp [anyMore])] at step
          obtain rfl := Option.some.inj step
          simp

/-- The loop does not end at all when the peers of the bucket have addresses. -/
theorem not_ends_of_nonempty (nonempty : (setting.table.buckets bucketIndex).nodes ≠ [])
    {more : List Candidate}
    (isMap : (setting.table.buckets bucketIndex).nodes.mapM setting.candidateOf = some more)
    (last : CandidateSearch) :
    ¬ WhileLoop.Ends (setting.searchNext bucketIndex) (.searching bucketIndex.val []) last := by
  have anyMore := mapM_candidateOf_ne_nil nonempty isMap
  have step : ∀ index candidates, setting.searchNext bucketIndex (.searching index candidates) =
      some (.searching index (candidates ++ more)) := by
    intro index candidates
    rw [searchNext, isMap]
    dsimp only
    rw [if_neg (by simp [anyMore])]
  refine WhileLoop.not_ends (I := fun s => ∃ index candidates, s = .searching index candidates)
    ?_ ?_ ⟨_, _, rfl⟩ last
  · rintro _ t ⟨index, candidates, rfl⟩ next
    rw [step] at next
    exact ⟨_, _, (Option.some.inj next).symm⟩
  · rintro _ ⟨index, candidates, rfl⟩
    rw [step]
    simp

theorem found_eq_bootstrap {fuel : Nat} {candidates : List Candidate}
    (isRun : WhileLoop.run (setting.searchNext bucketIndex) fuel (.searching bucketIndex.val []) =
      some (.found candidates)) :
    (setting.table.buckets bucketIndex).nodes = [] ∧
      candidates = [setting.bootstrapCandidate] := by
  by_cases isEmpty : (setting.table.buckets bucketIndex).nodes = []
  · refine ⟨isEmpty, ?_⟩
    have ends : WhileLoop.Ends (setting.searchNext bucketIndex) _ (.found candidates) :=
      ⟨fuel, isRun⟩
    have isBootstrap := ends.invariant (I := fun s => (∃ index, s = .searching index []) ∨
      s = .found [setting.bootstrapCandidate]) (by
        rintro s t (⟨index, rfl⟩ | rfl) step
        · simp only [searchNext, isEmpty, List.mapM_nil, Option.pure_def, List.append_nil,
            if_true] at step
          split at step
          · exact .inr (Option.some.inj step).symm
          · exact .inl ⟨_, (Option.some.inj step).symm⟩
        · simp [searchNext] at step) (.inl ⟨_, rfl⟩)
    rcases isBootstrap.1 with ⟨_, isSearching⟩ | isFound
    · simp at isSearching
    · exact CandidateSearch.found.inj isFound
  · exact absurd ⟨fuel, isRun⟩ (not_found_of_nonempty isEmpty (by simp) candidates)

/-- The search is right if and only if the bucket has no peer and the nearest bucket with peers, if
    there is one, has nothing but the bootstrap node. -/
theorem searchesWell_iff (setting : SearchSetting) (bucketIndex : Fin BUCKET_NUMBER) :
    setting.SearchesWell bucketIndex ↔
      (setting.table.buckets bucketIndex).nodes = [] ∧
        (setting.nearestNodes bucketIndex.val = [] ∨
          (setting.nearestNodes bucketIndex.val).mapM setting.candidateOf =
            some [setting.bootstrapCandidate]) := by
  constructor
  · rintro ⟨fuel, candidates, isRun, _, _, nearest⟩
    obtain ⟨isEmpty, rfl⟩ := found_eq_bootstrap isRun
    refine ⟨isEmpty, ?_⟩
    split at nearest
    · rename_i noPeers
      exact .inl noPeers
    · exact .inr nearest
  · rintro ⟨isEmpty, nearest⟩
    refine ⟨bucketIndex.val + 2, [setting.bootstrapCandidate],
      run_of_empty isEmpty bucketIndex.val, by simp, by simp, ?_⟩
    split
    · rfl
    · rename_i peers
      exact nearest.resolve_left peers

/-- A replicator that knows one peer. -/
def sample : SearchSetting where
  makeAddress text := if text = "10.0.0.1" then some (.v4 0x0a000001) else none
  table := (KademliaHashTable.create 0).addPeers [KademliaHashTable.samplePeer 1]
  bootstrapNode := (⟨.v4 0x0a000002, 7904⟩, 9)
  myPeerKey := 0

/-- The search for a peer whose bucket has another one does not end. -/
theorem sample_does_not_end :
    ¬ sample.SearchesWell (sample.table.calcBucketIndex 2) ∧
      ∀ last, ¬ WhileLoop.Ends (sample.searchNext (sample.table.calcBucketIndex 2))
        (.searching (sample.table.calcBucketIndex 2).val []) last := by
  have known : (sample.table.buckets (sample.table.calcBucketIndex 2)).nodes =
      [KademliaHashTable.samplePeer 1] := by
    decide +kernel
  have isMap : (sample.table.buckets (sample.table.calcBucketIndex 2)).nodes.mapM
      sample.candidateOf = some [⟨⟨.v4 0x0a000001, 7904⟩, 1, 1⟩] := by
    rw [known]
    decide +kernel
  have nonempty : (sample.table.buckets (sample.table.calcBucketIndex 2)).nodes ≠ [] := by
    rw [known]
    exact List.cons_ne_nil _ _
  constructor
  · rintro ⟨fuel, candidates, isRun, _⟩
    exact nonempty (found_eq_bootstrap isRun).1
  · exact not_ends_of_nonempty nonempty isMap

end SearchSetting

end SiriusDrive.Kademlia
