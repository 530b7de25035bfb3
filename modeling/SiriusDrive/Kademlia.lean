import Mathlib.Data.List.Nodup
import Mathlib.Logic.Function.Basic
import SiriusDrive.EndpointsManager
import SiriusDrive.Lib.FixedBytes

/-! # The peers a replicator knows

Kademlia keeps the addresses of other peers in buckets. The bucket of a peer is meant to
tell how many leading bits its key has in common with the own key.
-/

namespace SiriusDrive

/-- `PeerKey`, an array of 32 bytes. -/
abbrev PeerKey := Key

/-- `PeerInfo`. -/
structure PeerInfo where
  publicKey : PeerKey
  address : String
  port : BitVec 16
  timeInSeconds : Nat
  signature : BitVec 512
  deriving Repr, DecidableEq

namespace Kademlia

def BUCKET_NUMBER : Nat := 256

def BUCKET_SIZE : Nat := 4

section PrefixLength

/-- A key that is read as four 64-bit words, on a platform with the low byte first. -/
def words (key : PeerKey) : List Nat :=
  (List.range 4).map fun i =>
    FixedBytes.decode (FixedBytes.field (FixedBytes.arrayBytes 32 key) (8 * i) 8)

/-- The inner loop: whether one of the next low bits is set. -/
def hasLowBit : Nat → Nat → Bool
  | 0, _ => false
  | count + 1, xorValue => xorValue &&& 1 ≠ 0 || hasLowBit count (xorValue >>> 1)

/-- The outer loop. No iteration changes `index`. -/
def prefixLoop (index : Nat) : List (Nat × Nat) → Nat
  | [] => BUCKET_NUMBER - 1
  | (a, b) :: rest => if hasLowBit 8 (a ^^^ b) then index else prefixLoop index rest

/-- `equalPrefixLength`. The assertion that the keys differ only logs where `NDEBUG` is set. -/
def equalPrefixLength (aKey bKey : PeerKey) : Nat :=
  prefixLoop 0 ((words aKey).zip (words bKey))

theorem prefixLoop_lt {index : Nat} (small : index < BUCKET_NUMBER) (pairs : List (Nat × Nat)) :
    prefixLoop index pairs < BUCKET_NUMBER := by
  induction pairs with
  | nil => exact Nat.sub_lt (by decide) (by decide)
  | cons pair rest ih =>
      rw [prefixLoop]
      split
      · exact small
      · exact ih

theorem equalPrefixLength_lt (aKey bKey : PeerKey) :
    equalPrefixLength aKey bKey < BUCKET_NUMBER := prefixLoop_lt (by decide) _

end PrefixLength

/-- `Bucket`: few peers, no two of one key. -/
structure Bucket where
  nodes : List PeerInfo := []
  size_le : nodes.length ≤ BUCKET_SIZE := by decide
  distinct : (nodes.map (·.publicKey)).Nodup := by decide

namespace Bucket

variable (bucket : Bucket)

def getPeer (key : PeerKey) : Option PeerInfo := bucket.nodes.find? (·.publicKey == key)

/-- The nodes after the assignment `*it = info` for the node of this key. -/
def refreshed (info : PeerInfo) : List PeerInfo :=
  bucket.nodes.map fun node => if node.publicKey = info.publicKey then info else node

theorem keys_refreshed (info : PeerInfo) :
    (bucket.refreshed info).map (·.publicKey) = bucket.nodes.map (·.publicKey) := by
  rw [refreshed, List.map_map]
  refine List.map_congr_left fun node _ => ?_
  simp only [Function.comp_apply]
  split
  · rename_i same
    exact same.symm
  · rfl

theorem not_mem_of_getPeer_none {info : PeerInfo} (unknown : bucket.getPeer info.publicKey = none) :
    info.publicKey ∉ bucket.nodes.map (·.publicKey) := by
  intro member
  obtain ⟨node, isNode, same⟩ := List.mem_map.mp member
  have differs := List.find?_eq_none.mp unknown node isNode
  exact differs (by simpa using same)

def addPeer (info : PeerInfo) : Bucket :=
  match found : bucket.getPeer info.publicKey with
  | some it =>
      if info.timeInSeconds > it.timeInSeconds then
        { nodes := bucket.refreshed info
          size_le := by rw [refreshed, List.length_map]; exact bucket.size_le
          distinct := by rw [keys_refreshed]; exact bucket.distinct }
      else bucket
  | none =>
      if room : bucket.nodes.length < BUCKET_SIZE then
        { nodes := bucket.nodes ++ [info]
          size_le := by rw [List.length_append, List.length_singleton]; exact room
          distinct := by
            rw [List.map_append, List.map_singleton]
            exact List.nodup_append.mpr ⟨bucket.distinct, List.nodup_singleton _, by
              intro key isOld other isNew same
              rw [List.mem_singleton.mp isNew] at same
              exact bucket.not_mem_of_getPeer_none found (same ▸ isOld)⟩ }
      else bucket

theorem mem_nodes_addPeer {bucket : Bucket} {info node : PeerInfo}
    (member : node ∈ (bucket.addPeer info).nodes) : node = info ∨ node ∈ bucket.nodes := by
  unfold addPeer at member
  split at member
  · split at member
    · obtain ⟨old, isOld, same⟩ := List.mem_map.mp member
      split at same
      · exact .inl same.symm
      · exact .inr (same ▸ isOld)
    · exact .inr member
  · split at member
    · rcases List.mem_append.mp member with isOld | isNew
      · exact .inr isOld
      · exact .inl (List.mem_singleton.mp isNew)
    · exact .inr member

end Bucket

def bucketIndexOf (myKey candidate : PeerKey) : Fin BUCKET_NUMBER :=
  ⟨equalPrefixLength myKey candidate, equalPrefixLength_lt myKey candidate⟩

/-- `KademliaHashTable`: buckets with peers that belong there. -/
structure KademliaHashTable where
  myKey : PeerKey
  buckets : Fin BUCKET_NUMBER → Bucket
  placed : ∀ i, ∀ info ∈ (buckets i).nodes, bucketIndexOf myKey info.publicKey = i

namespace KademliaHashTable

def create (myKey : PeerKey) : KademliaHashTable where
  myKey
  buckets _ := {}
  placed _ _ member := absurd member List.not_mem_nil

variable (table : KademliaHashTable)

def calcBucketIndex (candidate : PeerKey) : Fin BUCKET_NUMBER :=
  bucketIndexOf table.myKey candidate

def bucketOf (key : PeerKey) : Bucket := table.buckets (table.calcBucketIndex key)

def addPeerInfo (info : PeerInfo) : KademliaHashTable where
  myKey := table.myKey
  buckets := Function.update table.buckets (table.calcBucketIndex info.publicKey)
    ((table.bucketOf info.publicKey).addPeer info)
  placed i node member := by
    by_cases same : i = table.calcBucketIndex info.publicKey
    · subst same
      rw [Function.update_self] at member
      rcases Bucket.mem_nodes_addPeer member with isNew | isOld
      · rw [isNew]
        rfl
      · exact table.placed _ node isOld
    · rw [Function.update_of_ne same] at member
      exact table.placed i node member

/-- The capacity of the bucket is compared with the number of buckets. -/
def couldBeAdded (key : PeerKey) : Bool := (table.bucketOf key).nodes.length < BUCKET_NUMBER

def getPeer (key : PeerKey) : Option PeerInfo := (table.bucketOf key).getPeer key

end KademliaHashTable

end Kademlia

end SiriusDrive
