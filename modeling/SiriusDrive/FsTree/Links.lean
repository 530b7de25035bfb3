import SiriusDrive.FsTree.Statistics

/-! # Linked entries

An entry whose node is not linked to the node of its folder hides its blocks from the
folder. Only `addFolder` leaves such entries behind, if it creates several folders.
-/

namespace SiriusDrive

open KeyedTree

namespace FsEntry

variable {root folder entry : FsEntry} {exempt : Option String}

abbrev AllLinked (entry : FsEntry) : Prop :=
  All (fun entry => ∀ name child, (name, child) ∈ entry.childs → isLinked child = true) entry

/-- All entries below an entry are linked, but for one of its own. -/
def LinkedBut (exempt : Option String) (entry : FsEntry) : Prop :=
  ∀ name child, (name, child) ∈ entry.childs →
    AllLinked child ∧ (exempt ≠ some name → isLinked child = true)

theorem allLinked_iff : AllLinked entry ↔ LinkedBut none entry := by
  obtain ⟨info, childs⟩ := entry
  rw [AllLinked, all_node]
  constructor
  · rintro ⟨here, below⟩ name child member
    exact ⟨below name child member, fun _ => here name child member⟩
  · intro linked
    constructor
    · intro name child member
      exact (linked name child member).2 (by simp)
    · intro name child member
      exact (linked name child member).1

theorem AllLinked.mapInfo (linked : AllLinked entry) (f : EntryInfo → EntryInfo) :
    AllLinked (FsEntry.mapInfo entry f) := by
  obtain ⟨info, childs⟩ := entry
  rw [allLinked_iff] at linked ⊢
  exact linked

theorem totalBlocks_below (counts : Counts entry) (linked : AllLinked entry)
    (free : totalBlocks entry = 0) {names : List String} {found : FsEntry}
    (isFound : find? names entry = some found) : totalBlocks found = 0 := by
  induction names generalizing entry with
  | nil =>
      cases isFound
      exact free
  | cons name names ih =>
      obtain ⟨child, isChild, later⟩ := Option.bind_eq_some_iff.mp isFound
      obtain ⟨info, childs⟩ := entry
      obtain ⟨distinct, sum, all⟩ := counts_node.mp counts
      have member : (name, child) ∈ childs := mem_of_childAt isChild
      have here : isLinked child = true := linked.here name child member
      have parts := sum.trans (linkedBlocks_of_childAt distinct isChild)
      have none : totalBlocks child = 0 := by
        rw [linkedTotal, if_pos here] at parts
        have top : info.statistics.blocks + info.statistics.childrenBlocks = 0 := free
        omega
      exact ih (all name child member) (linked.child member) none later

/-! ## Changing an entry -/

theorem modify_node {info : EntryInfo} {childs : List (String × FsEntry)} {name : String}
    {child : FsEntry} (isChild : childAt name childs = some child) (f : FsEntry → FsEntry)
    (address : List String) :
    modify follow f (name :: address) (.node info childs) =
      .node (follow info child (modify follow f address child))
        (replaceChild name (modify follow f address child) childs) :=
  modify_cons_of_some isChild address

theorem LinkedBut.modify {f : FsEntry → FsEntry} {address : List String}
    (linked : LinkedBut exempt root)
    (changes : ∀ exempt found, find? address root = some found → LinkedBut exempt found →
      LinkedBut exempt (f found) ∧ isLinked (f found) = isLinked found) :
    LinkedBut exempt (KeyedTree.modify follow f address root) ∧
      isLinked (KeyedTree.modify follow f address root) = isLinked root := by
  induction address generalizing root exempt with
  | nil => exact changes exempt root rfl linked
  | cons name address ih =>
      obtain ⟨info, childs⟩ := root
      cases isChild : childAt name childs with
      | none =>
          rw [modify_cons_of_none isChild]
          exact ⟨linked, rfl⟩
      | some child =>
          have member : (name, child) ∈ childs := mem_of_childAt isChild
          obtain ⟨inner, same⟩ := ih (allLinked_iff.mp (linked name child member).1) (by
            intro exempt found isFound
            apply changes
            rw [find?_cons, childs_node, isChild]
            exact isFound)
          rw [modify_node isChild]
          refine ⟨?_, isLinked_follow _ _ _⟩
          intro other sibling isMember
          obtain ⟨⟨first, old⟩, isOld, isSibling⟩ := List.mem_map.mp isMember
          simp only at isSibling
          split at isSibling
          · cases isSibling
            refine ⟨allLinked_iff.mpr inner, ?_⟩
            intro notExempt
            rw [same]
            exact (linked name child member).2 notExempt
          · cases isSibling
            exact linked _ _ isOld

theorem linkedBut_linkChild {info : EntryInfo} {childs : List (String × FsEntry)} {name : String}
    (linked : ∀ other child, (other, child) ∈ childs →
      AllLinked child ∧ (other ≠ name → exempt ≠ some other → isLinked child = true)) :
    LinkedBut exempt (FsEntry.linkChild name (.node info childs)) ∧
      isLinked (FsEntry.linkChild name (.node info childs)) = info.statistics.isLinked := by
  simp only [FsEntry.linkChild]
  split
  · rename_i absent
    refine ⟨?_, rfl⟩
    intro other child member
    have differ : other ≠ name := by
      intro same
      apply childAt_eq_none_iff.mp absent
      rw [← same]
      exact List.mem_map.mpr ⟨_, member, rfl⟩
    exact ⟨(linked other child member).1, (linked other child member).2 differ⟩
  · rename_i child isChild
    refine ⟨?_, (isLinked_update _ _ _).trans (isLinked_leave info child)⟩
    intro other sibling member
    obtain ⟨⟨first, old⟩, isOld, isSibling⟩ := List.mem_map.mp member
    simp only at isSibling
    split at isSibling
    · cases isSibling
      refine ⟨(linked _ _ (mem_of_childAt isChild)).1.mapInfo _, fun _ => ?_⟩
      obtain ⟨value, inner⟩ := child
      cases value <;> rfl
    · rename_i differ
      cases isSibling
      exact ⟨(linked _ _ isOld).1, (linked _ _ isOld).2 differ⟩

theorem LinkedBut.linkChild (linked : LinkedBut exempt entry) (name : String) :
    LinkedBut exempt (FsEntry.linkChild name entry) ∧
      isLinked (FsEntry.linkChild name entry) = isLinked entry := by
  obtain ⟨info, childs⟩ := entry
  apply linkedBut_linkChild
  intro other child member
  exact ⟨(linked other child member).1, fun _ => (linked other child member).2⟩

theorem LinkedBut.detachChild (linked : LinkedBut exempt entry) (name : String) :
    LinkedBut exempt (FsEntry.detachChild name entry) ∧
      isLinked (FsEntry.detachChild name entry) = isLinked entry := by
  obtain ⟨info, childs⟩ := entry
  simp only [FsEntry.detachChild]
  split
  · exact ⟨linked, rfl⟩
  · rename_i child isChild
    refine ⟨?_, isLinked_leave info child⟩
    intro other sibling member
    exact linked other sibling (List.mem_filter.mp member).1

theorem LinkedBut.putChild (linked : LinkedBut exempt entry) (name : String) {child : FsEntry}
    (inner : AllLinked child) :
    LinkedBut exempt (FsEntry.putChild name child entry) ∧
      isLinked (FsEntry.putChild name child entry) = isLinked entry := by
  obtain ⟨info, childs⟩ := entry
  refine ⟨?_, isLinked_update _ _ _⟩
  intro other sibling member
  have perm := insertChild_perm name (FsEntry.mapInfo child EntryInfo.setLinked)
    (eraseChild name childs)
  rcases List.mem_cons.mp (perm.mem_iff.mp member) with same | old
  · cases same
    refine ⟨inner.mapInfo _, fun _ => ?_⟩
    obtain ⟨value, below⟩ := child
    cases value <;> rfl
  · exact linked other sibling (List.mem_filter.mp old).1

/-! ## Creating folders -/

theorem createFolders_of_getFolderPtr (wellFormed : WellFormed root) {names : List String}
    (isFolder : getFolderPtr names root = some folder) (nextNode : Nat) :
    createFolders nextNode names root = some root := by
  induction names generalizing root with
  | nil => rfl
  | cons name names ih =>
      obtain ⟨info, childs⟩ := root
      rw [getFolderPtr, childs_node] at isFolder
      split at isFolder
      · rename_i child isChild
        split at isFolder
        · rename_i kind
          have distinct : (childs.map Prod.fst).Nodup := wellFormed.here.1
          have below := ih (wellFormed.child (mem_of_childAt isChild)) isFolder
          have same : replaceChild name child childs = childs := by
            rw [replaceChild]
            conv => rhs; rw [← List.map_id childs]
            apply List.map_congr_left
            rintro ⟨first, old⟩ member
            simp only [id]
            split
            · rename_i isFirst
              subst isFirst
              rw [Option.some.inj (isChild.symm.trans (childAt_of_mem distinct member))]
            · rfl
          rw [createFolders, isChild]
          simp only [kind, if_true, below, Option.map_some, same]
        · cases isFolder
      · cases isFolder

theorem allLinked_leaf (info : EntryInfo) : AllLinked (.node info []) := by
  rw [allLinked_iff]
  intro name child member
  cases member

theorem LinkedBut.createLast {nextNode : Nat} {names : List String} {name : String}
    (linked : LinkedBut exempt root) (isFolder : (getFolderPtr names root).isSome)
    (created : createFolders nextNode (names ++ [name]) root = some folder) :
    LinkedBut exempt (KeyedTree.modify follow (FsEntry.linkChild name) names folder) ∧
      isLinked (KeyedTree.modify follow (FsEntry.linkChild name) names folder) =
        isLinked root := by
  induction names generalizing root folder exempt with
  | nil =>
      obtain ⟨info, childs⟩ := root
      rw [List.nil_append, createFolders] at created
      split at created
      · rename_i absent
        cases created
        apply linkedBut_linkChild
        intro other child member
        rcases List.mem_cons.mp ((insertChild_perm _ _ childs).mem_iff.mp member) with same | old
        · cases same
          exact ⟨allLinked_leaf _, fun differ => absurd rfl differ⟩
        · exact ⟨(linked other child old).1, fun _ => (linked other child old).2⟩
      · rename_i child isChild
        split at created
        · obtain ⟨changed, isChanged, rfl⟩ := Option.map_eq_some_iff.mp created
          cases isChanged
          apply linkedBut_linkChild
          intro other sibling member
          obtain ⟨⟨first, old⟩, isOld, isSibling⟩ := List.mem_map.mp member
          simp only at isSibling
          split at isSibling
          · cases isSibling
            exact ⟨(linked _ _ (mem_of_childAt isChild)).1, fun differ => absurd rfl differ⟩
          · cases isSibling
            exact ⟨(linked _ _ isOld).1, fun _ => (linked _ _ isOld).2⟩
        · cases created
  | cons first names ih =>
      obtain ⟨info, childs⟩ := root
      rw [getFolderPtr, childs_node] at isFolder
      rw [List.cons_append, createFolders] at created
      cases isChild : childAt first childs with
      | none =>
          rw [isChild] at isFolder
          cases isFolder
      | some child =>
          have member : (first, child) ∈ childs := mem_of_childAt isChild
          simp only [isChild] at isFolder created
          split at created
          · rename_i kind
            simp only [kind, if_true] at isFolder
            obtain ⟨changed, isChanged, rfl⟩ := Option.map_eq_some_iff.mp created
            obtain ⟨inner, same⟩ :=
              ih (allLinked_iff.mp (linked first child member).1) isFolder isChanged
            have isThere : childAt first (replaceChild first changed childs) = some changed := by
              rw [childAt_replaceChild, if_pos rfl, isChild, Option.map_some]
            rw [modify_node isThere]
            refine ⟨?_, isLinked_follow _ _ _⟩
            intro other sibling isMember
            obtain ⟨⟨second, old⟩, isOld, isSibling⟩ := List.mem_map.mp isMember
            simp only at isSibling
            split at isSibling
            · cases isSibling
              refine ⟨allLinked_iff.mpr inner, ?_⟩
              intro notExempt
              rw [same]
              exact (linked first child member).2 notExempt
            · rename_i differ
              cases isSibling
              obtain ⟨⟨third, oldest⟩, isOldest, isOld⟩ := List.mem_map.mp isOld
              simp only at isOld
              split at isOld
              · cases isOld
                exact absurd rfl differ
              · cases isOld
                exact linked _ _ isOldest
          · cases created

/-- The parent of a folder is there, or it is the root directory: that is never linked, but is no
    entry that a path leads to either. -/
def CreatesLinked (path : FsPath) (root : FsEntry) : Prop :=
  (getFolderPtr path.parentPath.elements root).isSome ∨ path.parentPath.elements = ["/"]

instance (path : FsPath) (root : FsEntry) : Decidable (CreatesLinked path root) :=
  inferInstanceAs (Decidable (_ ∨ _))

/-- The root directory is not linked. -/
def exemptRoot : Option String := some "/"

theorem linkedBut_newFolders {info : EntryInfo} {childs : List (String × FsEntry)}
    (linked : LinkedBut exemptRoot (.node info childs)) {child : FsEntry}
    (inner : AllLinked child) : LinkedBut exemptRoot (.node info (insertChild "/" child childs)) := by
  intro other sibling member
  rcases List.mem_cons.mp ((insertChild_perm _ _ childs).mem_iff.mp member) with same | old
  · cases same
    exact ⟨inner, fun notExempt => absurd rfl notExempt⟩
  · exact linked other sibling old

theorem LinkedBut.createRoot {nextNode : Nat} (linked : LinkedBut exemptRoot root)
    (created : createFolders nextNode ["/"] root = some folder) : LinkedBut exemptRoot folder := by
  obtain ⟨info, childs⟩ := root
  rw [createFolders] at created
  split at created
  · cases created
    exact linkedBut_newFolders linked (allLinked_leaf _)
  · rename_i child isChild
    split at created
    · obtain ⟨changed, isChanged, rfl⟩ := Option.map_eq_some_iff.mp created
      cases isChanged
      intro other sibling member
      obtain ⟨⟨first, old⟩, isOld, isSibling⟩ := List.mem_map.mp member
      simp only at isSibling
      split at isSibling
      · cases isSibling
        exact linked _ _ (mem_of_childAt isChild)
      · cases isSibling
        exact linked _ _ isOld
    · cases created

theorem LinkedBut.createInRoot {nextNode : Nat} {name : String}
    (linked : LinkedBut exemptRoot root) (missing : getFolderPtr ["/"] root = none)
    (created : createFolders nextNode ["/", name] root = some folder) :
    LinkedBut exemptRoot (KeyedTree.modify follow (FsEntry.linkChild name) ["/"] folder) := by
  obtain ⟨info, childs⟩ := root
  rw [createFolders] at created
  rw [getFolderPtr, childs_node] at missing
  split at created
  · rename_i absent
    cases created
    have isThere : childAt "/" (insertChild "/" (newFolders nextNode "/" [name]) childs) =
        some (newFolders nextNode "/" [name]) := by
      rw [childAt_insertChild absent, if_pos rfl]
    have inner : AllLinked (FsEntry.linkChild name (newFolders nextNode "/" [name])) := by
      rw [allLinked_iff]
      apply And.left
      apply linkedBut_linkChild
      intro other child member
      cases List.mem_singleton.mp member
      exact ⟨allLinked_leaf _, fun differ => absurd rfl differ⟩
    rw [modify_node isThere]
    intro other sibling member
    obtain ⟨⟨first, old⟩, isOld, isSibling⟩ := List.mem_map.mp member
    simp only at isSibling
    split at isSibling
    · cases isSibling
      exact ⟨inner, fun notExempt => absurd rfl notExempt⟩
    · rename_i differ
      cases isSibling
      rcases List.mem_cons.mp ((insertChild_perm _ _ childs).mem_iff.mp isOld) with same | older
      · cases same
        exact absurd rfl differ
      · exact linked _ _ older
  · rename_i child isChild
    simp only [isChild] at missing
    split at created
    · rename_i kind
      simp only [kind, if_true, getFolderPtr] at missing
      cases missing
    · cases created

theorem LinkedBut.addFolder {nextNode : Nat} {path : FsPath}
    (linked : LinkedBut exemptRoot root) (known : CreatesLinked path root)
    (added : FsEntry.addFolder nextNode path root = some folder) : LinkedBut exemptRoot folder := by
  obtain ⟨created, isCreated, rfl⟩ := Option.map_eq_some_iff.mp added
  by_cases isRoot : path.elements = ["/"]
  · have top : path.parentPath = path := by
      rw [FsPath.parentPath, if_pos isRoot]
    rw [isRoot] at isCreated
    rw [if_pos top]
    exact linked.createRoot isCreated
  by_cases isEmpty : path.elements = []
  · have unchanged : created = root := by
      rw [isEmpty] at isCreated
      cases isCreated
      rfl
    rw [unchanged]
    split
    · exact linked
    · apply And.left
      apply linked.modify
      intro exempt found _ inner
      exact inner.linkChild _
  have keys := FsPath.keys_eq_elements isRoot isEmpty
  rw [← keys, FsPath.keys] at isCreated
  have differ : path.parentPath ≠ path := by
    intro same
    have elements := congrArg FsPath.elements same
    rw [FsPath.elements_parentPath isRoot] at elements
    have length := congrArg List.length elements
    rw [List.length_dropLast] at length
    exact isEmpty (List.length_eq_zero_iff.mp (by omega))
  rw [if_neg differ]
  rcases Option.eq_none_or_eq_some (getFolderPtr path.parentPath.elements root) with
    missing | ⟨parent, isParent⟩
  · rcases known with isThere | inRoot
    · rw [missing] at isThere
      cases isThere
    · rw [inRoot] at missing isCreated ⊢
      exact linked.createInRoot missing isCreated
  · exact (linked.createLast (Option.isSome_of_eq_some isParent) isCreated).1

theorem LinkedBut.detach (linked : LinkedBut exempt root) (name : String) (parent : List String) :
    LinkedBut exempt (KeyedTree.modify follow (FsEntry.detachChild name) parent root) := by
  apply And.left
  apply linked.modify
  intro exempt found _ inner
  exact inner.detachChild name

theorem LinkedBut.put (linked : LinkedBut exempt root) (name : String) (parent : List String)
    {child : FsEntry} (inner : AllLinked child) :
    LinkedBut exempt (KeyedTree.modify follow (FsEntry.putChild name child) parent root) := by
  apply And.left
  apply linked.modify
  intro exempt found _ outer
  exact outer.putChild name inner

theorem LinkedBut.changeBlocks (linked : LinkedBut exempt root) (f : Nat → Nat) (node : Nat) :
    LinkedBut exempt (FsEntry.changeBlocks f node root) := by
  rw [FsEntry.changeBlocks]
  split
  · apply And.left
    apply linked.modify
    intro exempt found _ inner
    obtain ⟨info, childs⟩ := found
    refine ⟨inner, ?_⟩
    cases info <;> rfl
  · exact linked

theorem LinkedBut.found (linked : LinkedBut exempt root) {names : List String}
    (notTop : names ≠ []) (isFound : find? names root = some entry) : AllLinked entry := by
  cases names with
  | nil => exact absurd rfl notTop
  | cons name names =>
      obtain ⟨child, isChild, later⟩ := Option.bind_eq_some_iff.mp isFound
      exact (linked name child (mem_of_childAt isChild)).1.found later

theorem LinkedBut.prepareParent {nextNode : Nat} {path : FsPath}
    (linked : LinkedBut exemptRoot root)
    (known : (getFolderPtr path.parentPath.elements root).isSome ∨
      CreatesLinked path.parentPath root)
    (prepared : FsEntry.prepareParent nextNode path root = some folder) :
    LinkedBut exemptRoot folder := by
  rw [FsEntry.prepareParent] at prepared
  split at prepared
  · cases prepared
    exact linked
  · rename_i missing
    rcases known with isThere | known
    · exact absurd isThere missing
    · exact linked.addFolder known prepared

theorem LinkedBut.moveFlat {nextNode : Nat} {source destination : FsPath} {moved : FsEntry}
    (linked : LinkedBut exemptRoot root)
    (known : (getEntryPtr source root).isSome → destination ≠ source →
      (FsEntry.prepareParent nextNode destination root).isSome →
        (getFolderPtr destination.parentPath.elements root).isSome ∨
          CreatesLinked destination.parentPath root)
    (moves : Moves nextNode source destination root (.moved moved)) :
    LinkedBut exemptRoot moved := by
  cases moves with
  | same => exact linked
  | intoItself isPrepared _ isSource differ =>
      have links := known isSource differ (Option.isSome_of_eq_some isPrepared)
      exact (linked.prepareParent links isPrepared).detach _ _
  | elsewhere isPrepared isChild isSource differ =>
      have links := known isSource differ (Option.isSome_of_eq_some isPrepared)
      have prepared := linked.prepareParent links isPrepared
      apply (prepared.detach _ _).put
      apply AllLinked.mapInfo
      exact prepared.found (by simp [FsPath.keys]) (find?_of_getEntryPtr isChild)

theorem allLinked_initializeStatistics (handles : List Nat) (entry : FsEntry) :
    AllLinked (FsEntry.initializeStatistics handles entry) := by
  induction entry using KeyedTree.induct with
  | node info childs ih =>
      rw [allLinked_iff]
      intro name child member
      obtain ⟨before, isBefore, rfl⟩ := mem_initializeChilds member
      refine ⟨(ih name before isBefore).mapInfo _, fun _ => ?_⟩
      obtain ⟨value, below⟩ := before
      cases value <;> rfl

theorem linkedBut_of_allLinked (linked : AllLinked entry) : LinkedBut exempt entry := by
  intro name child member
  have all := allLinked_iff.mp linked name child member
  exact ⟨all.1, fun _ => all.2 (by simp)⟩

/-! ## Files are linked -/

/-- Whatever happens to folders, files are linked. -/
def FilesLinked (entry : FsEntry) : Prop :=
  ∀ info ∈ entry.values, info.isFolder = false → info.statistics.isLinked = true

def linkState (info : EntryInfo) : Bool × Bool := (info.isFolder, info.statistics.isLinked)

theorem filesLinked_iff : FilesLinked entry ↔
    ∀ state ∈ entry.values.map linkState, state.1 = false → state.2 = true := by
  rw [List.forall_mem_map, FilesLinked]
  rfl

theorem filesLinked_node {info : EntryInfo} {childs : List (String × FsEntry)} :
    FilesLinked (.node info childs) ↔
      (info.isFolder = false → info.statistics.isLinked = true) ∧
        ∀ name child, (name, child) ∈ childs → FilesLinked child := by
  rw [FilesLinked, values, childValues_eq]
  constructor
  · intro linked
    refine ⟨linked info List.mem_cons_self, ?_⟩
    intro name child member other isOther
    apply linked other
    apply List.mem_cons_of_mem
    exact List.mem_flatMap.mpr ⟨_, member, isOther⟩
  · rintro ⟨here, below⟩ other isOther
    rcases List.mem_cons.mp isOther with rfl | inner
    · exact here
    · obtain ⟨⟨name, child⟩, member, isOther⟩ := List.mem_flatMap.mp inner
      exact below name child member other isOther

theorem FilesLinked.setValue {info other : EntryInfo} {childs : List (String × FsEntry)}
    (linked : FilesLinked (.node info childs)) (kind : other.isFolder = info.isFolder)
    (same : other.statistics.isLinked = info.statistics.isLinked) :
    FilesLinked (.node other childs) := by
  rw [filesLinked_node] at linked ⊢
  rw [kind, same]
  exact linked

/-- An entry that is put somewhere is linked, whether it has been linked or not. -/
theorem filesLinked_setLinked {info : EntryInfo} {childs : List (String × FsEntry)}
    (below : ∀ name child, (name, child) ∈ childs → FilesLinked child) :
    FilesLinked (FsEntry.mapInfo (.node info childs) EntryInfo.setLinked) := by
  apply filesLinked_node.mpr
  refine ⟨fun _ => ?_, below⟩
  cases info <;> rfl

theorem FilesLinked.modify {f : FsEntry → FsEntry} {address : List String} {found : FsEntry}
    (linked : FilesLinked root) (wellFormed : WellFormed root)
    (isFound : find? address root = some found)
    (changes : FilesLinked found → FilesLinked (f found)) :
    FilesLinked (KeyedTree.modify follow f address root) := by
  have hidden : ∀ (info : EntryInfo) (child changed : FsEntry),
      linkState (follow info child changed) = linkState info := by
    intro info child changed
    rw [linkState, isFolder_follow, isLinked_follow, linkState]
  obtain ⟨rest, before, after⟩ := values_modify_perm hidden wellFormed.uniqueKeys isFound
  rw [filesLinked_iff] at linked ⊢
  have inner : FilesLinked found := by
    rw [filesLinked_iff]
    intro state member
    exact linked state (before.mem_iff.mpr (List.mem_append_left _ member))
  intro state member
  rcases List.mem_append.mp ((after f).mem_iff.mp member) with here | there
  · exact filesLinked_iff.mp (changes inner) state here
  · exact linked state (before.mem_iff.mpr (List.mem_append_right _ there))

theorem filesLinked_leave {info : EntryInfo} {childs : List (String × FsEntry)} {child : FsEntry}
    (linked : FilesLinked (.node info childs)) :
    FilesLinked (.node (if isLinked child then info.update (totalBlocks child) 0 else info)
      childs) := by
  apply linked.setValue _ (isLinked_leave info child)
  split
  · exact EntryInfo.isFolder_update _ _
  · rfl

theorem FilesLinked.linkChild (linked : FilesLinked entry) (name : String) :
    FilesLinked (FsEntry.linkChild name entry) := by
  obtain ⟨info, childs⟩ := entry
  simp only [FsEntry.linkChild]
  split
  · exact linked
  · rename_i child isChild
    obtain ⟨_, below⟩ := filesLinked_node.mp linked
    have replaced : FilesLinked (.node info
        (KeyedTree.replaceChild name (FsEntry.mapInfo child EntryInfo.setLinked) childs)) := by
      refine filesLinked_node.mpr ⟨(filesLinked_node.mp linked).1, ?_⟩
      intro other sibling member
      obtain ⟨⟨first, old⟩, isOld, isSibling⟩ := List.mem_map.mp member
      simp only at isSibling
      split at isSibling
      · cases isSibling
        have inner := below _ _ (mem_of_childAt isChild)
        obtain ⟨value, childs⟩ := child
        exact filesLinked_setLinked (filesLinked_node.mp inner).2
      · cases isSibling
        exact below _ _ isOld
    exact (filesLinked_leave replaced).setValue (EntryInfo.isFolder_update _ _)
      (isLinked_update _ _ _)

theorem FilesLinked.detachChild (linked : FilesLinked entry) (name : String) :
    FilesLinked (FsEntry.detachChild name entry) := by
  obtain ⟨info, childs⟩ := entry
  simp only [FsEntry.detachChild]
  split
  · exact linked
  · apply filesLinked_leave
    refine filesLinked_node.mpr ⟨(filesLinked_node.mp linked).1, ?_⟩
    intro other sibling member
    exact (filesLinked_node.mp linked).2 other sibling (List.mem_filter.mp member).1

theorem FilesLinked.putChild (linked : FilesLinked entry) (name : String) {info : EntryInfo}
    {childs : List (String × FsEntry)}
    (below : ∀ name child, (name, child) ∈ childs → FilesLinked child) :
    FilesLinked (FsEntry.putChild name (.node info childs) entry) := by
  obtain ⟨value, siblings⟩ := entry
  have inserted : FilesLinked (.node value (KeyedTree.insertChild name
      (FsEntry.mapInfo (.node info childs) EntryInfo.setLinked)
      (KeyedTree.eraseChild name siblings))) := by
    refine filesLinked_node.mpr ⟨(filesLinked_node.mp linked).1, ?_⟩
    intro other sibling member
    rcases List.mem_cons.mp ((insertChild_perm _ _ _).mem_iff.mp member) with same | old
    · cases same
      exact filesLinked_setLinked below
    · exact (filesLinked_node.mp linked).2 other sibling (List.mem_filter.mp old).1
  exact inserted.setValue (EntryInfo.isFolder_update _ _) (isLinked_update _ _ _)

theorem filesLinked_newFolders (nextNode : Nat) (name : String) (names : List String) :
    FilesLinked (newFolders nextNode name names) := by
  induction names generalizing nextNode name with
  | nil =>
      apply filesLinked_node.mpr
      constructor
      · intro isFile
        cases isFile
      · intro other child member
        cases member
  | cons next names ih =>
      apply filesLinked_node.mpr
      constructor
      · intro isFile
        cases isFile
      · intro other child member
        cases List.mem_singleton.mp member
        exact ih _ _

theorem FilesLinked.createFolders {nextNode : Nat} {names : List String}
    (linked : FilesLinked root) (created : FsEntry.createFolders nextNode names root = some folder) :
    FilesLinked folder := by
  induction names generalizing root folder with
  | nil =>
      cases created
      exact linked
  | cons name names ih =>
      obtain ⟨info, childs⟩ := root
      obtain ⟨here, below⟩ := filesLinked_node.mp linked
      rw [FsEntry.createFolders] at created
      split at created
      · cases created
        refine filesLinked_node.mpr ⟨here, ?_⟩
        intro other child member
        rcases List.mem_cons.mp ((insertChild_perm _ _ _).mem_iff.mp member) with same | old
        · cases same
          exact filesLinked_newFolders _ _ _
        · exact below other child old
      · rename_i child isChild
        split at created
        · obtain ⟨changed, isChanged, rfl⟩ := Option.map_eq_some_iff.mp created
          refine filesLinked_node.mpr ⟨here, ?_⟩
          intro other sibling member
          obtain ⟨⟨first, old⟩, isOld, isSibling⟩ := List.mem_map.mp member
          simp only at isSibling
          split at isSibling
          · cases isSibling
            exact ih (below _ _ (mem_of_childAt isChild)) isChanged
          · cases isSibling
            exact below _ _ isOld
        · cases created

theorem FilesLinked.addFolder {nextNode : Nat} {path : FsPath} (tree : IsTree root)
    (linked : FilesLinked root) (added : FsEntry.addFolder nextNode path root = some folder) :
    FilesLinked folder := by
  obtain ⟨created, isCreated, rfl⟩ := Option.map_eq_some_iff.mp added
  have later := linked.createFolders isCreated
  split
  · exact later
  · obtain ⟨parent, isParent⟩ := find?_parent_of_createFolders tree.isFolder isCreated
    exact later.modify (tree.createFolders isCreated).wellFormed isParent fun inner =>
      inner.linkChild _

theorem FilesLinked.detach {path : FsPath} (linked : FilesLinked root) (wellFormed : WellFormed root)
    (isEntry : getEntryPtr path root = some entry) :
    FilesLinked (KeyedTree.modify follow (FsEntry.detachChild path.filename)
      path.parentPath.elements root) := by
  obtain ⟨parent, isParent, _⟩ := Option.bind_eq_some_iff.mp isEntry
  exact linked.modify wellFormed (find?_of_getFolderPtr isParent) fun inner => inner.detachChild _

theorem FilesLinked.found (linked : FilesLinked root) {address : List String}
    (isFound : find? address root = some entry) : FilesLinked entry := by
  induction address generalizing root with
  | nil =>
      cases isFound
      exact linked
  | cons name address ih =>
      obtain ⟨child, isChild, later⟩ := Option.bind_eq_some_iff.mp isFound
      obtain ⟨info, childs⟩ := root
      exact ih ((filesLinked_node.mp linked).2 name child (mem_of_childAt isChild)) later

theorem FilesLinked.prepareParent {nextNode : Nat} {path : FsPath} (tree : IsTree root)
    (linked : FilesLinked root)
    (prepared : FsEntry.prepareParent nextNode path root = some folder) : FilesLinked folder := by
  rw [FsEntry.prepareParent] at prepared
  split at prepared
  · cases prepared
    exact linked
  · exact linked.addFolder tree prepared

theorem FilesLinked.moveFlat {nextNode : Nat} {source destination : FsPath} {moved : FsEntry}
    (tree : IsTree root) (linked : FilesLinked root)
    (moves : Moves nextNode source destination root (.moved moved)) : FilesLinked moved := by
  cases moves with
  | same => exact linked
  | intoItself isPrepared isChild =>
      exact (linked.prepareParent tree isPrepared).detach (tree.prepareParent isPrepared).wellFormed
        isChild
  | @elsewhere prepared child isPrepared isChild isSource _ outside _ =>
      have proper := tree.prepareParent isPrepared
      have prepared := linked.prepareParent tree isPrepared
      have inner := prepared.found (find?_of_getEntryPtr isChild)
      obtain ⟨parent, isParent, _⟩ := getFolderPtr_detach proper isChild
        (getFolderPtr_prepareParent tree isPrepared) outside
      have detached : IsTree (KeyedTree.modify follow (FsEntry.detachChild source.filename)
          source.parentPath.elements _) := proper.modify fun found _ inner =>
        inner.detachChild source.filename
      apply (prepared.detach proper.wellFormed isChild).modify detached.wellFormed isParent
      intro outer
      obtain ⟨info, childs⟩ := child
      exact outer.putChild _ (filesLinked_node.mp inner).2

theorem FilesLinked.changeBlocks (linked : FilesLinked root) (wellFormed : WellFormed root)
    (f : Nat → Nat) (node : Nat) : FilesLinked (FsEntry.changeBlocks f node root) := by
  rw [FsEntry.changeBlocks]
  split
  · rename_i address isAddress
    obtain ⟨found, isFound, _⟩ := find?_of_addressOf wellFormed.uniqueKeys isAddress
    apply linked.modify wellFormed isFound
    intro inner
    obtain ⟨info, childs⟩ := found
    apply inner.setValue (EntryInfo.isFolder_mapBlocks f)
    cases info <;> rfl
  · exact linked

theorem FilesLinked.of_allLinked (linked : AllLinked entry)
    (here : entry.value.isFolder = false → entry.value.statistics.isLinked = true) :
    FilesLinked entry := by
  induction entry using KeyedTree.induct with
  | node info childs ih =>
      refine filesLinked_node.mpr ⟨here, ?_⟩
      intro name child member
      have all := allLinked_iff.mp linked name child member
      exact ih name child member all.1 fun _ => all.2 (by simp)

end FsEntry

end SiriusDrive
