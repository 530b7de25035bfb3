import SiriusDrive.DriveParams
import SiriusDrive.Lib.MapLookup

/-! # The torrent entries of a drive

What the functions that mark and sweep the entries of `torrentHandleMap` leave under
every hash.
-/

namespace SiriusDrive.DriveParams

variable {map : TorrentHandleMap} {hash : InfoHash}

theorem getElem?_eraseUnused (hash : InfoHash) :
    (eraseUnused map)[hash]? = map[hash]?.filter (·.isUsed) :=
  Std.TreeMap.getElem?_filter'

theorem getElem?_markUsedFiles (hashes : List InfoHash) (hash : InfoHash) :
    (markUsedFiles map hashes)[hash]? =
      map[hash]?.map fun info => { info with isUsed := info.isUsed || decide (hash ∈ hashes) } := by
  induction hashes generalizing map with
  | nil =>
      have unchanged : (markUsedFiles map [])[hash]? = map[hash]? := rfl
      rw [unchanged]
      cases map[hash]? with
      | none => rfl
      | some info => simp
  | cons first hashes ih =>
      unfold markUsedFiles at ih ⊢
      rw [List.foldl_cons, ih]
      cases found : map[first]? with
      | none =>
          cases isHash : map[hash]? with
          | none => simp
          | some info =>
              have other : hash ≠ first := by
                rintro rfl
                cases found.symm.trans isHash
              simp [other]
      | some info =>
          simp only
          rw [Std.TreeMap.getElem?_insert_eq]
          split
          · rename_i same
            subst same
            simp [found]
          · rename_i other
            simp [other]

theorem getElem?_markFilesOf (fsTree : FsTree) (hash : InfoHash) :
    (markFilesOf map fsTree)[hash]? =
      map[hash]?.map fun info => { info with isUsed := decide (hash ∈ fsTree.fileHashes) } := by
  unfold markFilesOf
  rw [getElem?_markUsedFiles, Std.TreeMap.getElem?_map, Option.map_map]
  rfl

theorem contains_markFilesOf (fsTree : FsTree) (hash : InfoHash) :
    (markFilesOf map fsTree).contains hash = map.contains hash := by
  rw [Std.TreeMap.contains_eq_isSome_getElem?, Std.TreeMap.contains_eq_isSome_getElem?,
    getElem?_markFilesOf, Option.isSome_map]

theorem contains_of_eraseUnused (isThere : (eraseUnused map).contains hash = true) :
    map.contains hash = true := by
  rw [Std.TreeMap.contains_eq_isSome_getElem?, getElem?_eraseUnused] at isThere
  rw [Std.TreeMap.contains_eq_isSome_getElem?]
  cases found : map[hash]? with
  | none => simp [found] at isThere
  | some info => rfl

theorem addTorrents_spec (map : TorrentHandleMap) (nextHandle : LtHandle) :
    (∀ hash, (addTorrents map nextHandle).1.contains hash = true → map.contains hash = true) ∧
      nextHandle ≤ (addTorrents map nextHandle).2 := by
  unfold addTorrents
  rw [Std.TreeMap.foldl_eq_foldl_toList]
  apply List.foldlRecOn (motive := fun added : TorrentHandleMap × LtHandle =>
    (∀ hash, added.1.contains hash = true → map.contains hash = true) ∧ nextHandle ≤ added.2)
  · exact ⟨fun _ isThere => isThere, Nat.le_refl _⟩
  · rintro ⟨added, next⟩ ⟨kept, later⟩ ⟨hash, info⟩ isEntry
    have found := Std.TreeMap.mem_toList_iff_getElem?_eq_some.mp isEntry
    simp only
    split
    · exact ⟨kept, later⟩
    · refine ⟨?_, Nat.le_succ_of_le later⟩
      intro other isThere
      rw [Std.TreeMap.contains_insert, Bool.or_eq_true, beq_iff_eq] at isThere
      rcases isThere with same | old
      · rw [← Std.LawfulEqCmp.eq_of_compare same, Std.TreeMap.contains_eq_isSome_getElem?, found]
        rfl
      · exact kept other old

theorem keepUsedTorrents_spec (drive : DriveParams) :
    (∀ hash, drive.keepUsedTorrents.torrentHandleMap.contains hash = true →
      drive.torrentHandleMap.contains hash = true) ∧
      drive.nextHandle ≤ drive.keepUsedTorrents.nextHandle := by
  obtain ⟨kept, later⟩ := addTorrents_spec (eraseUnused drive.torrentHandleMap) drive.nextHandle
  exact ⟨fun hash isThere => contains_of_eraseUnused (kept hash isThere), later⟩

end SiriusDrive.DriveParams
