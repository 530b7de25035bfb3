import SiriusDrive.Kademlia.AddedPeers
import SiriusDrive.Lib.WhileLoop

/-! # The answer to another peer

`onRequestFromAnotherPeer` answers with the peers of the bucket of the searched key. Two
loops are there to fill the answer up from the buckets beside it; both stay at that bucket.
-/

namespace SiriusDrive.Kademlia.KademliaHashTable

/-- The variables of the loops. -/
structure FillState where
  bucketI : Fin BUCKET_NUMBER
  result : List PeerInfo

/-- The inner loops: push the peers until the result has the size of a bucket. -/
def pushUpTo (result : List PeerInfo) : List PeerInfo → List PeerInfo
  | [] => result
  | info :: rest => if BUCKET_SIZE ≤ result.length then result else pushUpTo (result ++ [info]) rest

variable (table : KademliaHashTable)

def upNext (s : FillState) : Option FillState :=
  if s.result.length < BUCKET_SIZE then
    if s.bucketI.val = 0 then none
    else some { s with result := pushUpTo s.result (table.buckets s.bucketI).nodes }
  else none

def downNext (s : FillState) : Option FillState :=
  if s.result.length < BUCKET_SIZE then
    if BUCKET_NUMBER ≤ s.bucketI.val then none
    else some { s with result := pushUpTo s.result (table.buckets s.bucketI).nodes }
  else none

/-- `onRequestFromAnotherPeer` with fuel for its loops. -/
def onRequestFromAnotherPeer (fuel : Nat) (searchedKey : PeerKey) : Option (List PeerInfo) :=
  let bucketIndex := table.calcBucketIndex searchedKey
  match (table.buckets bucketIndex).getPeer searchedKey with
  | some info => some [info]
  | none => do
      let up ← WhileLoop.run table.upNext fuel ⟨bucketIndex, (table.buckets bucketIndex).nodes⟩
      let down ← WhileLoop.run table.downNext fuel ⟨bucketIndex, up.result⟩
      return down.result

/-- The function returns at most as many peers as fit into a bucket, all different and from the
    table: the peer of the key if it is known, and otherwise all peers there are, up to that
    number. -/
def AnswersWell (searchedKey : PeerKey) : Prop :=
  ∃ fuel result, table.onRequestFromAnotherPeer fuel searchedKey = some result ∧
    result.length ≤ BUCKET_SIZE ∧ (result.map (·.publicKey)).Nodup ∧
      (∀ info ∈ result, table.getPeer info.publicKey = some info) ∧
        (∀ info, table.getPeer searchedKey = some info → result = [info]) ∧
          (table.getPeer searchedKey = none → result.length < BUCKET_SIZE →
            ∀ i, ∀ info ∈ (table.buckets i).nodes, info ∈ result)

variable {table} {searchedKey : PeerKey}

theorem pushUpTo_eq (result nodes : List PeerInfo) :
    pushUpTo result nodes = result ++ nodes.take (BUCKET_SIZE - result.length) := by
  induction nodes generalizing result with
  | nil => rw [pushUpTo, List.take_nil, List.append_nil]
  | cons info rest ih =>
      rw [pushUpTo]
      split
      · rename_i full
        rw [Nat.sub_eq_zero_of_le full, List.take_zero, List.append_nil]
      · rename_i room
        obtain ⟨less, isRoom⟩ : ∃ less, BUCKET_SIZE - result.length = less + 1 :=
          ⟨BUCKET_SIZE - result.length - 1, by omega⟩
        rw [ih, isRoom, List.take_succ_cons, List.length_append, List.length_singleton,
          List.append_assoc, show BUCKET_SIZE - (result.length + 1) = less by omega]
        rfl

/-- The result is still what the own bucket has, or a peer of it is there twice. -/
def RepeatsOwn (own : List PeerInfo) (result : List PeerInfo) : Prop :=
  result = own ∨ own ≠ [] ∧ ¬ (result.map (·.publicKey)).Nodup

theorem RepeatsOwn.pushUpTo {own result : List PeerInfo} (repeats : RepeatsOwn own result)
    (few : result.length < BUCKET_SIZE) : RepeatsOwn own (pushUpTo result own) := by
  rw [pushUpTo_eq]
  rcases repeats with rfl | ⟨nonempty, isTwice⟩
  · cases result with
    | nil => exact .inl rfl
    | cons first rest =>
        refine .inr ⟨List.cons_ne_nil first rest, ?_⟩
        obtain ⟨less, isRoom⟩ : ∃ less, BUCKET_SIZE - (first :: rest).length = less + 1 :=
          ⟨BUCKET_SIZE - (first :: rest).length - 1, by omega⟩
        rw [isRoom, List.take_succ_cons]
        intro distinct
        rw [List.map_append, List.map_cons, List.map_cons] at distinct
        exact List.nodup_append.mp distinct |>.2.2 _ List.mem_cons_self _ List.mem_cons_self rfl
  · refine .inr ⟨nonempty, fun distinct => isTwice ?_⟩
    rw [List.map_append] at distinct
    exact (List.nodup_append.mp distinct).1

theorem upNext_eq_some {s t : FillState} (step : table.upNext s = some t) :
    s.result.length < BUCKET_SIZE ∧
      t = { s with result := pushUpTo s.result (table.buckets s.bucketI).nodes } := by
  unfold upNext at step
  split at step
  · rename_i few
    split at step
    · cases step
    · exact ⟨few, (Option.some.inj step).symm⟩
  · cases step

theorem downNext_eq_some {s t : FillState} (step : table.downNext s = some t) :
    s.result.length < BUCKET_SIZE ∧
      t = { s with result := pushUpTo s.result (table.buckets s.bucketI).nodes } := by
  unfold downNext at step
  split at step
  · rename_i few
    split at step
    · cases step
    · exact ⟨few, (Option.some.inj step).symm⟩
  · cases step

/-- The invariant of both loops: they stay at a bucket and take from it what they push. -/
def StaysAt (table : KademliaHashTable) (index : Fin BUCKET_NUMBER) (s : FillState) : Prop :=
  s.bucketI = index ∧ RepeatsOwn (table.buckets index).nodes s.result

theorem StaysAt.fill {index : Fin BUCKET_NUMBER} {s : FillState} (stays : table.StaysAt index s)
    (few : s.result.length < BUCKET_SIZE) :
    table.StaysAt index
      { s with result := KademliaHashTable.pushUpTo s.result (table.buckets s.bucketI).nodes } := by
  obtain ⟨isIndex, repeats⟩ := stays
  refine ⟨isIndex, ?_⟩
  rw [isIndex]
  exact repeats.pushUpTo few

/-- What the loops end with when the own bucket does not fill the result. -/
theorem repeatsOwn_of_answer {fuel : Nat} {result : List PeerInfo}
    (unknown : table.getPeer searchedKey = none)
    (answer : table.onRequestFromAnotherPeer fuel searchedKey = some result) :
    RepeatsOwn (table.bucketOf searchedKey).nodes result ∧ BUCKET_SIZE ≤ result.length := by
  let index := table.calcBucketIndex searchedKey
  have upKeeps : ∀ s t, table.StaysAt index s → table.upNext s = some t → table.StaysAt index t := by
    intro s t stays step
    obtain ⟨few, rfl⟩ := upNext_eq_some step
    exact stays.fill few
  have downKeeps : ∀ s t, table.StaysAt index s → table.downNext s = some t →
      table.StaysAt index t := by
    intro s t stays step
    obtain ⟨few, rfl⟩ := downNext_eq_some step
    exact stays.fill few
  have isNone : (table.buckets index).getPeer searchedKey = none := unknown
  rw [onRequestFromAnotherPeer] at answer
  simp only [show (table.buckets (table.calcBucketIndex searchedKey)).getPeer searchedKey = none
    from isNone, Option.bind_eq_bind, Option.bind_eq_some_iff, Option.pure_def,
    Option.some.injEq] at answer
  obtain ⟨up, isUp, down, isDown, rfl⟩ := answer
  have upEnds : WhileLoop.Ends table.upNext _ up := ⟨fuel, isUp⟩
  have downEnds : WhileLoop.Ends table.downNext _ down := ⟨fuel, isDown⟩
  obtain ⟨⟨_, upRepeats⟩, _⟩ := upEnds.invariant upKeeps ⟨rfl, .inl rfl⟩
  have downStart : table.StaysAt index ⟨index, up.result⟩ := ⟨rfl, upRepeats⟩
  obtain ⟨⟨_, repeats⟩, stops⟩ := downEnds.invariant downKeeps downStart
  refine ⟨repeats, ?_⟩
  by_contra few
  rw [downNext, if_pos (Nat.lt_of_not_le few), if_neg (Nat.not_le_of_lt down.bucketI.isLt)] at stops
  simp at stops

theorem not_answersWell (unknown : table.getPeer searchedKey = none)
    (notFull : (table.bucketOf searchedKey).nodes.length ≠ BUCKET_SIZE) :
    ¬ table.AnswersWell searchedKey := by
  rintro ⟨fuel, result, answer, small, distinct, _⟩
  obtain ⟨rfl | ⟨_, isTwice⟩, full⟩ := repeatsOwn_of_answer unknown answer
  · exact notFull (Nat.le_antisymm small full)
  · exact isTwice distinct

/-- The answer is right if and only if the key is known or its bucket is full. -/
theorem answersWell_iff (table : KademliaHashTable) (searchedKey : PeerKey) :
    table.AnswersWell searchedKey ↔
      (table.getPeer searchedKey).isSome = true ∨
        (table.bucketOf searchedKey).nodes.length = BUCKET_SIZE := by
  constructor
  · intro answers
    by_contra neither
    rw [not_or] at neither
    exact not_answersWell (by simpa using neither.1) neither.2 answers
  · intro known
    cases found : table.getPeer searchedKey with
    | some info =>
        refine ⟨0, [info], ?_, Nat.le_of_ble_eq_true rfl, List.nodup_singleton _, ?_, ?_, ?_⟩
        · have isSome : (table.buckets (table.calcBucketIndex searchedKey)).getPeer searchedKey =
              some info := found
          simp only [onRequestFromAnotherPeer, isSome]
        · intro other isOther
          obtain rfl := List.mem_singleton.mp isOther
          obtain ⟨member, isKey⟩ := Bucket.getPeer_eq_some_iff.mp found
          exact getPeer_of_mem member
        · intro other isOther
          rw [Option.some.inj (found.symm.trans isOther)]
        · simp [found]
    | none =>
        have full : (table.bucketOf searchedKey).nodes.length = BUCKET_SIZE := by
          simpa [found] using known
        refine ⟨1, (table.bucketOf searchedKey).nodes, ?_, Bucket.size_le _, Bucket.distinct _,
          fun info member => getPeer_of_mem member, by simp [found], ?_⟩
        · have isNone : (table.buckets (table.calcBucketIndex searchedKey)).getPeer searchedKey =
              none := found
          have upStops : table.upNext ⟨table.calcBucketIndex searchedKey,
              (table.bucketOf searchedKey).nodes⟩ = none := by
            rw [upNext, if_neg (Nat.not_lt_of_le (Nat.le_of_eq full.symm))]
          have downStops : table.downNext ⟨table.calcBucketIndex searchedKey,
              (table.bucketOf searchedKey).nodes⟩ = none := by
            rw [downNext, if_neg (Nat.not_lt_of_le (Nat.le_of_eq full.symm))]
          have isUp := WhileLoop.run_of_stop 0 upStops
          have isDown := WhileLoop.run_of_stop 0 downStops
          simp only [onRequestFromAnotherPeer, isNone]
          simp only [bucketOf] at isUp isDown
          simp [isUp, isDown, bucketOf]
        · intro _ few
          omega

/-- An empty table does not answer. -/
theorem empty_table_does_not_answer : ¬ (create 0).AnswersWell 1 :=
  not_answersWell rfl (by decide)

end SiriusDrive.Kademlia.KademliaHashTable
