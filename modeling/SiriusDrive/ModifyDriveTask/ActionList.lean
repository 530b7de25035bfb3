import SiriusDrive.ModifyDriveTask

/-! # What a modification task takes from its action list

The hashes of the uploaded files become the set of files to download. Only a list
whose hashes can be read gives a set, and the zero hash comes first in it.
-/

namespace SiriusDrive

/-- The action can be taken over: the hash of an upload can be read, and the zero hash,
    which is no file, has an entry among the torrents. -/
def Action.IsUsable (action : Action) (torrentHandleMap : TorrentHandleMap) : Prop :=
  match action.uploadHash with
  | none => True
  | some (.ok hash) => hash = 0 → torrentHandleMap.contains 0 = true
  | some (.error _) => False

instance (action : Action) (torrentHandleMap : TorrentHandleMap) :
    Decidable (action.IsUsable torrentHandleMap) := by
  unfold Action.IsUsable
  split <;> infer_instance

/-- The file can be decoded and the hashes of its uploads can be read. -/
def ActionListFile.Decodes : ActionListFile → Prop
  | .undecodable _ => False
  | .actions actionList => ∀ action ∈ actionList, ∀ text, action.uploadHash ≠ some (.error text)

/-- The hashes of the uploads that are loaded can be read. -/
def ActionListFile.IsReadable : ActionListFile → Prop
  | .undecodable loaded | .actions loaded =>
      ∀ action ∈ loaded, ∀ text, action.uploadHash ≠ some (.error text)

/-- The file can be decoded and all its actions are usable. -/
def ActionListFile.IsUsable (torrentHandleMap : TorrentHandleMap) : ActionListFile → Prop
  | .undecodable _ => False
  | .actions actionList => ∀ action ∈ actionList, action.IsUsable torrentHandleMap

instance (torrentHandleMap : TorrentHandleMap) (file : ActionListFile) :
    Decidable (file.IsUsable torrentHandleMap) := by
  unfold ActionListFile.IsUsable
  split <;> infer_instance

theorem Action.IsUsable.readable {action : Action} {torrentHandleMap : TorrentHandleMap}
    (usable : action.IsUsable torrentHandleMap) (text : String) :
    action.uploadHash ≠ some (.error text) := by
  intro malformed
  simp [Action.IsUsable, malformed] at usable

theorem Action.IsUsable.zero {action : Action} {torrentHandleMap : TorrentHandleMap}
    (usable : action.IsUsable torrentHandleMap) (isZero : action.uploadHash = some (.ok 0)) :
    torrentHandleMap.contains 0 = true := by
  simp only [Action.IsUsable, isZero] at usable
  exact usable trivial

theorem Action.isUsable_of_readable {action : Action} {torrentHandleMap : TorrentHandleMap}
    (readable : ∀ text, action.uploadHash ≠ some (.error text))
    (zero : action.uploadHash = some (.ok 0) → torrentHandleMap.contains 0 = true) :
    action.IsUsable torrentHandleMap := by
  unfold Action.IsUsable
  split
  · trivial
  · rename_i hash isHash
    rintro rfl
    exact zero isHash
  · rename_i text malformed
    exact readable text malformed

theorem Action.IsUsable.congr {action : Action} {before after : TorrentHandleMap}
    (usable : action.IsUsable before) (same : after.contains 0 = before.contains 0) :
    action.IsUsable after := by
  apply isUsable_of_readable usable.readable
  intro isZero
  rw [same]
  exact usable.zero isZero

theorem ActionListFile.IsUsable.decodes {file : ActionListFile}
    {torrentHandleMap : TorrentHandleMap} (usable : file.IsUsable torrentHandleMap) :
    file.Decodes := by
  cases file with
  | undecodable loaded => exact usable.elim
  | actions actionList =>
      intro action member
      exact (usable action member).readable

theorem ActionListFile.IsUsable.congr {file : ActionListFile} {before after : TorrentHandleMap}
    (usable : file.IsUsable before) (same : after.contains 0 = before.contains 0) :
    file.IsUsable after := by
  cases file with
  | undecodable loaded => exact usable.elim
  | actions actionList =>
      intro action member
      exact (usable action member).congr same

namespace ModifyDriveTask

/-- The zero hash is the least one, so it is taken first. -/
def ZeroFirst (missed : List Hash256) : Prop := 0 ∈ missed → ∃ rest, missed = 0 :: rest

theorem mem_insertMissed {hash other : Hash256} {missed : List Hash256} :
    other ∈ insertMissed hash missed ↔ other = hash ∨ other ∈ missed := by
  unfold insertMissed
  split_ifs with known
  · constructor
    · exact Or.inr
    · rintro (rfl | member)
      · exact known
      · exact member
  · exact List.mem_orderedInsert _

theorem zero_le_hash (hash : Hash256) : 0 ≤ hash := by
  simp [BitVec.le_def]

theorem zeroFirst_insertMissed (hash : Hash256) {missed : List Hash256}
    (zeroFirst : ZeroFirst missed) : ZeroFirst (insertMissed hash missed) := by
  intro member
  unfold insertMissed at member ⊢
  split_ifs at member ⊢ with known
  · exact zeroFirst member
  · cases missed with
    | nil =>
        obtain rfl : 0 = hash := by simpa using member
        exact ⟨[], rfl⟩
    | cons first rest =>
        rcases (List.mem_orderedInsert _).mp member with rfl | old
        · exact ⟨first :: rest, List.orderedInsert_cons_of_le _ _ (zero_le_hash first)⟩
        · obtain ⟨others, same⟩ := zeroFirst old
          obtain ⟨rfl, rfl⟩ := List.cons.inj same
          have notLe : ¬ hash ≤ 0 := by
            intro le
            have isZero : hash = 0 := BitVec.le_antisymm le (zero_le_hash hash)
            exact known (isZero ▸ List.mem_cons_self)
          exact ⟨_, List.orderedInsert_of_not_le _ _ notLe⟩

/-- What the loop makes of a list whose hashes can be read: the set keeps its files and gets
    those of the list. -/
theorem prepareMissed_ok {actionList : ActionList} {missed missed' : List Hash256}
    (prepared : prepareMissed missed actionList = .ok missed') :
    (∀ action ∈ actionList, ∀ text, action.uploadHash ≠ some (.error text)) ∧
      (∀ hash, hash ∈ missed' ↔
        hash ∈ missed ∨ ∃ action ∈ actionList, action.uploadHash = some (.ok hash)) ∧
      (ZeroFirst missed → ZeroFirst missed') := by
  induction actionList generalizing missed with
  | nil =>
      obtain rfl : missed = missed' := Except.ok.inj prepared
      simp
  | cons action actions ih =>
      unfold prepareMissed at prepared
      split at prepared
      · rename_i hash isHash
        obtain ⟨readable, members, zeroFirst⟩ := ih prepared
        refine ⟨?_, ?_, ?_⟩
        · intro other member
          rcases List.mem_cons.mp member with rfl | later
          · simp [isHash]
          · exact readable other later
        · intro other
          simp only [members, mem_insertMissed, List.mem_cons, exists_eq_or_imp, isHash,
            Option.some.injEq, Except.ok.injEq, eq_comm (a := other)]
          tauto
        · exact fun before => zeroFirst (zeroFirst_insertMissed hash before)
      · cases prepared
      · rename_i isNone
        obtain ⟨readable, members, zeroFirst⟩ := ih prepared
        refine ⟨?_, ?_, zeroFirst⟩
        · intro other member
          rcases List.mem_cons.mp member with rfl | later
          · simp [isNone]
          · exact readable other later
        · intro other
          simp [members, isNone]

theorem prepareMissed_total {actionList : ActionList}
    (readable : ∀ action ∈ actionList, ∀ text, action.uploadHash ≠ some (.error text))
    (missed : List Hash256) : ∃ missed', prepareMissed missed actionList = .ok missed' := by
  induction actionList generalizing missed with
  | nil => exact ⟨missed, rfl⟩
  | cons action actions ih =>
      have rest := ih fun other member => readable other (List.mem_cons_of_mem _ member)
      unfold prepareMissed
      split
      · exact rest _
      · rename_i text malformed
        exact absurd malformed (readable action List.mem_cons_self text)
      · exact rest _

/-- The first missing file is no zero hash, and the rest of the set is part of it. -/
theorem selectMissing_spec {torrentHandleMap : TorrentHandleMap} {missed rest : List Hash256}
    {file : Option Hash256} (selected : selectMissing torrentHandleMap missed = some (file, rest)) :
    rest ⊆ missed ∧ ∀ hash ∈ file, hash ≠ 0 ∧ torrentHandleMap.contains hash = false := by
  induction missed with
  | nil =>
      simp only [selectMissing, Option.some.injEq, Prod.mk.injEq] at selected
      obtain ⟨rfl, rfl⟩ := selected
      simp
  | cons hash others ih =>
      unfold selectMissing at selected
      split_ifs at selected with known isZero
      · obtain ⟨subset, isFile⟩ := ih selected
        exact ⟨List.subset_cons_of_subset _ subset, isFile⟩
      · simp only [Option.some.injEq, Prod.mk.injEq] at selected
        obtain ⟨rfl, rfl⟩ := selected
        refine ⟨List.subset_cons_self _ _, ?_⟩
        rintro _ ⟨⟩
        exact ⟨isZero, Bool.eq_false_iff.mpr known⟩

/-- A missing file has an entry, is the selected one or is left for later. -/
theorem selectMissing_covers {torrentHandleMap : TorrentHandleMap} {missed rest : List Hash256}
    {file : Option Hash256} (selected : selectMissing torrentHandleMap missed = some (file, rest))
    {hash : Hash256} (member : hash ∈ missed) :
    torrentHandleMap.contains hash = true ∨ file = some hash ∨ (file.isSome = true ∧ hash ∈ rest) := by
  induction missed with
  | nil => cases member
  | cons first others ih =>
      unfold selectMissing at selected
      split_ifs at selected with known isZero
      · rcases List.mem_cons.mp member with rfl | later
        · exact .inl known
        · exact ih selected later
      · simp only [Option.some.injEq, Prod.mk.injEq] at selected
        obtain ⟨rfl, rfl⟩ := selected
        rcases List.mem_cons.mp member with rfl | later
        · exact .inr (.inl rfl)
        · exact .inr (.inr ⟨rfl, later⟩)

theorem selectMissing_isSome {torrentHandleMap : TorrentHandleMap} {missed : List Hash256}
    (zero : 0 ∈ missed → torrentHandleMap.contains 0 = true) :
    (selectMissing torrentHandleMap missed).isSome = true := by
  induction missed with
  | nil => rfl
  | cons hash others ih =>
      unfold selectMissing
      split_ifs with known isZero
      · exact ih fun member => zero (List.mem_cons_of_mem _ member)
      · subst isZero
        exact absurd (zero List.mem_cons_self) known
      · rfl

end ModifyDriveTask

end SiriusDrive
