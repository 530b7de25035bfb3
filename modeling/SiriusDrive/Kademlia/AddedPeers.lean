import Mathlib.Data.List.Induction
import SiriusDrive.Kademlia

/-! # Peers that are added to the table

A peer is put into its bucket as long as there is room, and refreshed by an info with a
later time. Nothing takes it out again.
-/

namespace SiriusDrive.Kademlia

namespace Bucket

variable {bucket : Bucket} {info : PeerInfo} {key : PeerKey}

theorem getPeer_eq_some_iff {stored : PeerInfo} :
    bucket.getPeer key = some stored ↔ stored ∈ bucket.nodes ∧ stored.publicKey = key := by
  constructor
  · intro found
    exact ⟨List.mem_of_find?_eq_some found, by simpa using List.find?_some found⟩
  · rintro ⟨member, rfl⟩
    cases found : bucket.getPeer stored.publicKey with
    | none => exact absurd (List.mem_map_of_mem member) (bucket.not_mem_of_getPeer_none found)
    | some other =>
        have isOther : other ∈ bucket.nodes := List.mem_of_find?_eq_some found
        have same : other.publicKey = stored.publicKey := by simpa using List.find?_some found
        rw [List.inj_on_of_nodup_map bucket.distinct isOther member same]

theorem getPeer_addPeer_self :
    (bucket.addPeer info).getPeer info.publicKey =
      match bucket.getPeer info.publicKey with
      | some it => some (if info.timeInSeconds > it.timeInSeconds then info else it)
      | none => if bucket.nodes.length < BUCKET_SIZE then some info else none := by
  unfold addPeer
  split
  · rename_i it found
    rw [found]
    dsimp only
    split
    · obtain ⟨member, same⟩ := getPeer_eq_some_iff.mp found
      refine getPeer_eq_some_iff.mpr ⟨List.mem_map.mpr ⟨it, member, if_pos same⟩, rfl⟩
    · exact found
  · rename_i found
    simp only [found]
    split
    · exact getPeer_eq_some_iff.mpr ⟨List.mem_append_right _ (List.mem_singleton_self info), rfl⟩
    · exact found

theorem getPeer_addPeer_of_ne (apart : key ≠ info.publicKey) :
    (bucket.addPeer info).getPeer key = bucket.getPeer key := by
  unfold addPeer
  split
  · split
    · simp only [getPeer, refreshed, List.find?_map]
      have sameTest : ((fun node : PeerInfo => node.publicKey == key) ∘ fun node =>
          if node.publicKey = info.publicKey then info else node) =
            fun node => node.publicKey == key := by
        funext node
        simp only [Function.comp_apply]
        split
        · rename_i isInfo
          rw [isInfo]
        · rfl
      rw [sameTest]
      cases found : bucket.nodes.find? (·.publicKey == key) with
      | none => rfl
      | some node =>
          have isKey : node.publicKey = key := by simpa using List.find?_some found
          rw [Option.map_some, if_neg (by rw [isKey]; exact apart)]
    · rfl
  · split
    · simp only [getPeer, List.find?_append, List.find?_singleton]
      rw [if_neg (by simpa using Ne.symm apart), Option.or_none]
    · rfl

end Bucket

namespace KademliaHashTable

variable {table : KademliaHashTable} {info : PeerInfo} {key : PeerKey}

theorem bucketOf_addPeerInfo :
    (table.addPeerInfo info).bucketOf key =
      if table.calcBucketIndex key = table.calcBucketIndex info.publicKey then
        (table.bucketOf info.publicKey).addPeer info
      else table.bucketOf key := by
  have sameIndex : (table.addPeerInfo info).calcBucketIndex key = table.calcBucketIndex key := rfl
  have isUpdate : (table.addPeerInfo info).buckets =
      Function.update table.buckets (table.calcBucketIndex info.publicKey)
        ((table.bucketOf info.publicKey).addPeer info) := rfl
  rw [bucketOf, sameIndex, isUpdate, Function.update_apply]
  rfl

theorem bucketOf_addPeerInfo_self :
    (table.addPeerInfo info).bucketOf info.publicKey =
      (table.bucketOf info.publicKey).addPeer info := by
  rw [bucketOf_addPeerInfo, if_pos rfl]

theorem getPeer_addPeerInfo_of_ne (apart : key ≠ info.publicKey) :
    (table.addPeerInfo info).getPeer key = table.getPeer key := by
  rw [getPeer, bucketOf_addPeerInfo]
  split
  · rename_i sameBucket
    rw [Bucket.getPeer_addPeer_of_ne apart, getPeer, bucketOf, bucketOf, sameBucket]
  · rfl

theorem getPeer_of_mem {i : Fin BUCKET_NUMBER} {stored : PeerInfo}
    (member : stored ∈ (table.buckets i).nodes) :
    table.getPeer stored.publicKey = some stored := by
  have isIndex : table.calcBucketIndex stored.publicKey = i := table.placed i stored member
  rw [getPeer, bucketOf, isIndex]
  exact Bucket.getPeer_eq_some_iff.mpr ⟨member, rfl⟩

/-- Calls of `addPeerInfo`. -/
def addPeers (table : KademliaHashTable) (infos : List PeerInfo) : KademliaHashTable :=
  infos.foldl addPeerInfo table

/-- The stored info is the latest of those that were offered for its key since the first of them
    was inserted. -/
def IsNewest (myKey : PeerKey) (infos : List PeerInfo) (stored : PeerInfo) : Prop :=
  ∃ before inserted after, infos = before ++ inserted :: after ∧
    ((create myKey).addPeers before).getPeer stored.publicKey = none ∧
      ((create myKey).addPeers (before ++ [inserted])).getPeer stored.publicKey = some inserted ∧
        stored ∈ inserted :: after ∧
          ∀ info ∈ inserted :: after, info.publicKey = stored.publicKey →
            info.timeInSeconds ≤ stored.timeInSeconds

/-- For a key that is not in the table `couldBeAdded` tells whether its info would be stored. -/
def CouldBeAddedIsExact (table : KademliaHashTable) (info : PeerInfo) : Prop :=
  table.getPeer info.publicKey = none →
    (table.couldBeAdded info.publicKey = true ↔
      (table.addPeerInfo info).getPeer info.publicKey = some info)

theorem couldBeAdded_eq_true (key : PeerKey) : table.couldBeAdded key = true := by
  have small := (table.bucketOf key).size_le
  rw [couldBeAdded, decide_eq_true_eq]
  exact Nat.lt_of_le_of_lt small (by decide)

theorem getPeer_addPeerInfo_of_unknown (unknown : table.getPeer info.publicKey = none) :
    (table.addPeerInfo info).getPeer info.publicKey =
      if (table.bucketOf info.publicKey).nodes.length < BUCKET_SIZE then some info else none := by
  rw [getPeer, bucketOf_addPeerInfo_self, Bucket.getPeer_addPeer_self]
  rw [getPeer] at unknown
  rw [unknown]

theorem couldBeAddedIsExact_iff :
    table.CouldBeAddedIsExact info ↔
      ¬ (table.getPeer info.publicKey = none ∧
        (table.bucketOf info.publicKey).nodes.length = BUCKET_SIZE) := by
  have atMost := (table.bucketOf info.publicKey).size_le
  rw [CouldBeAddedIsExact, couldBeAdded_eq_true, not_and]
  refine forall_congr' fun unknown => ?_
  rw [getPeer_addPeerInfo_of_unknown unknown]
  constructor
  · intro exact' full
    rw [if_neg (by omega)] at exact'
    exact absurd (exact'.mp rfl) (by simp)
  · intro notFull
    rw [if_pos (by omega)]
    exact iff_of_true rfl rfl

@[simp] theorem addPeers_append (infos more : List PeerInfo) :
    table.addPeers (infos ++ more) = (table.addPeers infos).addPeers more :=
  List.foldl_append

theorem getPeer_create (myKey : PeerKey) : (create myKey).getPeer key = none := rfl

theorem IsNewest.append_of_ne {myKey : PeerKey} {infos : List PeerInfo} {stored : PeerInfo}
    (newest : IsNewest myKey infos stored) (old : info.publicKey = stored.publicKey →
      info.timeInSeconds ≤ stored.timeInSeconds) :
    IsNewest myKey (infos ++ [info]) stored := by
  obtain ⟨before, inserted, after, rfl, absent, isInserted, member, latest⟩ := newest
  refine ⟨before, inserted, after ++ [info], ?_, absent, isInserted, ?_, ?_⟩
  · rw [List.append_assoc, List.cons_append]
  · rw [← List.cons_append]
    exact List.mem_append_left _ member
  · intro other isOther same
    rw [← List.cons_append] at isOther
    rcases List.mem_append.mp isOther with isOld | isNew
    · exact latest other isOld same
    · obtain rfl := List.mem_singleton.mp isNew
      exact old same

theorem IsNewest.refresh {myKey : PeerKey} {infos : List PeerInfo} {stored : PeerInfo}
    (newest : IsNewest myKey infos stored) (same : stored.publicKey = info.publicKey)
    (later : stored.timeInSeconds < info.timeInSeconds) :
    IsNewest myKey (infos ++ [info]) info := by
  obtain ⟨before, inserted, after, rfl, absent, isInserted, member, latest⟩ := newest
  refine ⟨before, inserted, after ++ [info], ?_, same ▸ absent, same ▸ isInserted, ?_, ?_⟩
  · rw [List.append_assoc, List.cons_append]
  · simp
  · intro other isOther isKey
    rw [← List.cons_append] at isOther
    rcases List.mem_append.mp isOther with isOld | isNew
    · exact Nat.le_trans (latest other isOld (isKey.trans same.symm)) (Nat.le_of_lt later)
    · obtain rfl := List.mem_singleton.mp isNew
      exact Nat.le_refl _

theorem isNewest_of_getPeer (myKey : PeerKey) (infos : List PeerInfo) {stored : PeerInfo}
    (found : ((create myKey).addPeers infos).getPeer stored.publicKey = some stored) :
    IsNewest myKey infos stored := by
  induction infos using List.reverseRecOn generalizing stored with
  | nil => exact absurd found (by simp [addPeers, getPeer_create])
  | append_singleton front info ih =>
      have isLast : (create myKey).addPeers (front ++ [info]) =
          ((create myKey).addPeers front).addPeerInfo info := addPeers_append front [info]
      by_cases same : stored.publicKey = info.publicKey
      · have after := found
        rw [isLast, same, getPeer, bucketOf_addPeerInfo_self, Bucket.getPeer_addPeer_self] at after
        cases before : (((create myKey).addPeers front).bucketOf info.publicKey).getPeer
            info.publicKey with
        | some it =>
            have isKey : it.publicKey = info.publicKey :=
              (Bucket.getPeer_eq_some_iff.mp before).2
            have isNewest : IsNewest myKey front it := ih (isKey ▸ before)
            rw [before] at after
            dsimp only at after
            split at after
            · rename_i later
              obtain rfl := Option.some.inj after
              exact isNewest.refresh isKey later
            · rename_i notLater
              obtain rfl := Option.some.inj after
              exact isNewest.append_of_ne fun _ => Nat.le_of_not_lt notLater
        | none =>
            rw [before] at after
            dsimp only at after
            split at after
            · obtain rfl := Option.some.inj after
              refine ⟨front, info, [], rfl, before, found, List.mem_singleton_self info, ?_⟩
              intro other isOther _
              rw [List.mem_singleton.mp isOther]
            · simp at after
      · rw [isLast, getPeer_addPeerInfo_of_ne same] at found
        exact (ih found).append_of_ne fun isKey => absurd isKey.symm same

/-- The buckets after any calls of `addPeerInfo`: few peers of different keys in the buckets they
    belong to, each with the latest time. `couldBeAdded` tells whether a peer would be stored
    unless its key is unknown and its bucket is full. -/
theorem addedPeers_couldBeAdded_iff (myKey : PeerKey) (infos : List PeerInfo) (info : PeerInfo) :
    (∀ i, (((create myKey).addPeers infos).buckets i).nodes.length ≤ BUCKET_SIZE ∧
      ((((create myKey).addPeers infos).buckets i).nodes.map (·.publicKey)).Nodup ∧
        ∀ stored ∈ (((create myKey).addPeers infos).buckets i).nodes,
          ((create myKey).addPeers infos).calcBucketIndex stored.publicKey = i ∧
            IsNewest myKey infos stored) ∧
      (((create myKey).addPeers infos).CouldBeAddedIsExact info ↔
        ¬ (((create myKey).addPeers infos).getPeer info.publicKey = none ∧
          (((create myKey).addPeers infos).bucketOf info.publicKey).nodes.length =
            BUCKET_SIZE)) := by
  refine ⟨?_, couldBeAddedIsExact_iff⟩
  intro i
  refine ⟨Bucket.size_le _, Bucket.distinct _, ?_⟩
  intro stored member
  exact ⟨placed _ i stored member, isNewest_of_getPeer myKey infos (getPeer_of_mem member)⟩

def samplePeer (publicKey : PeerKey) : PeerInfo := ⟨publicKey, "10.0.0.1", 7904, 100, 0⟩

/-- The fifth peer of a bucket is not stored. -/
theorem fifth_peer_could_be_added :
    ¬ ((create 0).addPeers ([1, 2, 3, 4].map samplePeer)).CouldBeAddedIsExact (samplePeer 5) := by
  rw [couldBeAddedIsExact_iff, not_not]
  exact ⟨by decide +kernel, by decide +kernel⟩

end KademliaHashTable

end SiriusDrive.Kademlia
