import Mathlib.Data.Finset.Card

/-! # Quorums that meet

Two quorums of one set of members have members in common, and an honest one among
them if there are few others.
-/

namespace Quorums

variable {α : Type*} [DecidableEq α]

/-- The members that are not honest are at most as many as they are counted. -/
theorem card_filter_le_countP (members : List α) (honest : α → Bool) :
    (members.toFinset.filter fun member => honest member = false).card ≤
      members.countP fun member => !honest member := by
  have same : members.toFinset.filter (fun member => honest member = false) =
      (members.filter fun member => !honest member).toFinset := by
    ext member
    simp
  rw [same, List.countP_eq_length_filter]
  exact List.toFinset_card_le _

/-- Two quorums have an honest member in common if their sizes exceed the number of members by
    more than the number of those who are not honest. -/
theorem exists_honest_of_meet {members first second : List α} {honest : α → Bool}
    (firstDistinct : first.Nodup) (secondDistinct : second.Nodup)
    (firstMembers : first ⊆ members) (secondMembers : second ⊆ members)
    (large : members.length + (members.countP fun member => !honest member) <
      first.length + second.length) :
    ∃ member ∈ first, member ∈ second ∧ honest member = true := by
  let dishonest := members.toFinset.filter fun member => honest member = false
  have fewDishonest : dishonest.card ≤ _ := card_filter_le_countP members honest
  have allMembers := List.toFinset_card_le members
  have firstSize := List.toFinset_card_of_nodup firstDistinct
  have secondSize := List.toFinset_card_of_nodup secondDistinct
  have remaining := Finset.le_card_sdiff dishonest second.toFinset
  have meet : (first.toFinset ∩ (second.toFinset \ dishonest)).Nonempty := by
    apply @Finset.inter_nonempty_of_card_lt_card_add_card _ members.toFinset
    · intro member isFirst
      simpa using firstMembers (List.mem_toFinset.mp isFirst)
    · intro member isSecond
      have inSecond := (Finset.mem_sdiff.mp isSecond).1
      simpa using secondMembers (List.mem_toFinset.mp inSecond)
    · omega
  obtain ⟨member, inBoth⟩ := meet
  simp only [Finset.mem_inter, Finset.mem_sdiff, List.mem_toFinset] at inBoth
  obtain ⟨inFirst, inSecond, notDishonest⟩ := inBoth
  refine ⟨member, inFirst, inSecond, ?_⟩
  have isMember := firstMembers inFirst
  simpa [dishonest, isMember] using notDishonest

end Quorums
