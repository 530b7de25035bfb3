import Mathlib.Data.List.Nodup
import SiriusDrive.Types

/-! # Removing unused drives

When the replicator starts, `removeUnusedDrives` looks through the storage directory and the
sandbox directory and removes the directories of the drives it no longer has.
-/

namespace SiriusDrive

/-- A `directory_entry`: its file name, and what `is_directory` answers. -/
structure DirectoryEntry where
  name : String
  isDirectory : Bool
deriving DecidableEq

/-- A directory, its entries in the order in which `directory_iterator` lists them. -/
structure Directory where
  entries : List DirectoryEntry
  distinct : (entries.map (·.name)).Nodup

namespace DirectoryEntry

variable {δ : Type} (driveMap : Std.TreeMap Key δ) (entry : DirectoryEntry)

/-- The body of the loop: whether the entry is inserted in `toRemove`. -/
def isToRemove : Except String Bool :=
  if entry.isDirectory then do
    let driveKey ← stringToByteArray entry.name
    return !driveMap.contains driveKey
  else
    return false

/-- The entry is the directory of a drive: its name is the hexadecimal key of that drive. -/
def IsDriveOf (driveKey : Key) : Prop :=
  entry.isDirectory = true ∧ stringToByteArray entry.name = .ok driveKey

def IsUnused : Prop := ∃ driveKey, entry.IsDriveOf driveKey ∧ driveKey ∉ driveMap

def IsReadable : Prop := entry.isDirectory = true → ∃ driveKey, entry.IsDriveOf driveKey

variable {driveMap entry}

theorem isToRemove_of_file (isFile : entry.isDirectory = false) :
    entry.isToRemove driveMap = .ok false := by
  simp [isToRemove, isFile, pure, Except.pure]

theorem isToRemove_of_drive {driveKey : Key} (isDrive : entry.IsDriveOf driveKey) :
    entry.isToRemove driveMap = .ok (!driveMap.contains driveKey) := by
  simp [isToRemove, isDrive.1, isDrive.2, bind, Except.bind, pure, Except.pure]

theorem isToRemove_of_error {text : String} (isDirectory : entry.isDirectory = true)
    (fails : stringToByteArray entry.name = .error text) :
    entry.isToRemove driveMap = .error text := by
  simp [isToRemove, isDirectory, fails, bind, Except.bind]

theorem IsDriveOf.unique {other : DirectoryEntry} {driveKey otherKey : Key}
    (isDrive : entry.IsDriveOf driveKey) (isOther : other.IsDriveOf otherKey)
    (sameName : entry.name = other.name) : driveKey = otherKey := by
  have read := isDrive.2
  rw [sameName, isOther.2] at read
  exact (Except.ok.inj read).symm

theorem IsDriveOf.isReadable {driveKey : Key} (isDrive : entry.IsDriveOf driveKey) :
    entry.IsReadable :=
  fun _ => ⟨driveKey, isDrive⟩

theorem IsUnused.isReadable (isUnused : entry.IsUnused driveMap) : entry.IsReadable := by
  obtain ⟨driveKey, isDrive, -⟩ := isUnused
  exact isDrive.isReadable

/-- What the body of the loop does: it throws where the entry is not readable, and else finds out
    whether the entry is unused. -/
theorem isToRemove_cases (driveMap : Std.TreeMap Key δ) (entry : DirectoryEntry) :
    (¬ entry.IsReadable ∧ ∃ text, entry.isToRemove driveMap = .error text) ∨
      (entry.IsReadable ∧ entry.IsUnused driveMap ∧ entry.isToRemove driveMap = .ok true) ∨
      (entry.IsReadable ∧ ¬ entry.IsUnused driveMap ∧ entry.isToRemove driveMap = .ok false) := by
  cases isDirectory : entry.isDirectory with
  | false =>
      refine .inr (.inr ⟨fun isTrue => ?_, ?_, isToRemove_of_file isDirectory⟩)
      · simp [isDirectory] at isTrue
      · rintro ⟨driveKey, isDrive, -⟩
        exact absurd isDrive.1 (by simp [isDirectory])
  | true =>
      cases read : stringToByteArray entry.name with
      | error text =>
          refine .inl ⟨fun readable => ?_, text, isToRemove_of_error isDirectory read⟩
          obtain ⟨driveKey, isDrive⟩ := readable isDirectory
          exact absurd isDrive.2 (by simp [read])
      | ok driveKey =>
          have isDrive : entry.IsDriveOf driveKey := ⟨isDirectory, read⟩
          have found : entry.isToRemove driveMap = .ok (!driveMap.contains driveKey) :=
            isToRemove_of_drive isDrive
          by_cases has : driveKey ∈ driveMap
          · refine .inr (.inr ⟨isDrive.isReadable, ?_, ?_⟩)
            · rintro ⟨other, isOther, hasNot⟩
              exact hasNot (isDrive.unique isOther rfl ▸ has)
            · rw [found, Std.TreeMap.mem_iff_contains.mp has, Bool.not_true]
          · have absent : driveMap.contains driveKey = false :=
              Bool.eq_false_iff.mpr fun contains => has (Std.TreeMap.mem_iff_contains.mpr contains)
            refine .inr (.inl ⟨isDrive.isReadable, ⟨driveKey, isDrive, has⟩, ?_⟩)
            rw [found, absent, Bool.not_false]

end DirectoryEntry

namespace Directory

variable {δ : Type}

/-- The loop over the entries: the names that are in `toRemove` after it. The handler stands around
    the whole loop, so that the first exception ends it. -/
def toRemove (driveMap : Std.TreeMap Key δ) : List DirectoryEntry → List String
  | [] => []
  | entry :: entries =>
      match entry.isToRemove driveMap with
      | .error _ => []
      | .ok true => entry.name :: toRemove driveMap entries
      | .ok false => toRemove driveMap entries

/-- `fs::remove_all` of each of the names. -/
def removeAll (directory : Directory) (names : List String) : Directory where
  entries := directory.entries.filter fun entry => !names.contains entry.name
  distinct := directory.distinct.sublist (List.filter_sublist.map _)

/-- `removeUnusedDrives`. There is no directory where the path is not the path of one. -/
def removeUnusedDrives (driveMap : Std.TreeMap Key δ) : Option Directory → Option Directory
  | none => none
  | some directory => some (directory.removeAll (toRemove driveMap directory.entries))

/-- Of the directories of drives, exactly those of the drives in the map are left. -/
structure KeepsKnownDrives (driveMap : Std.TreeMap Key δ) (before after : Directory) : Prop where
  removesUnused : ∀ entry ∈ before.entries, ∀ driveKey, entry.IsDriveOf driveKey →
    driveKey ∉ driveMap → entry ∉ after.entries
  keepsKnown : ∀ entry ∈ before.entries, ∀ driveKey, entry.IsDriveOf driveKey →
    driveKey ∈ driveMap → entry ∈ after.entries

variable {driveMap : Std.TreeMap Key δ}

@[simp] theorem mem_removeAll {directory : Directory} {names : List String}
    {entry : DirectoryEntry} :
    entry ∈ (directory.removeAll names).entries ↔ entry ∈ directory.entries ∧ entry.name ∉ names := by
  simp [removeAll]

theorem isUnused_of_mem_toRemove {entries : List DirectoryEntry} {name : String}
    (mem : name ∈ toRemove driveMap entries) :
    ∃ entry ∈ entries, entry.name = name ∧ entry.IsUnused driveMap := by
  induction entries with
  | nil => cases mem
  | cons entry entries ih =>
      rw [toRemove] at mem
      obtain ⟨-, text, found⟩ | ⟨-, isUnused, found⟩ | ⟨-, -, found⟩ :=
        entry.isToRemove_cases driveMap
      · simp [found] at mem
      · simp only [found, List.mem_cons] at mem
        obtain rfl | later := mem
        · exact ⟨entry, List.mem_cons_self, rfl, isUnused⟩
        · obtain ⟨other, isEntry, rest⟩ := ih later
          exact ⟨other, List.mem_cons_of_mem _ isEntry, rest⟩
      · simp only [found] at mem
        obtain ⟨other, isEntry, rest⟩ := ih mem
        exact ⟨other, List.mem_cons_of_mem _ isEntry, rest⟩

/-- Whatever the exception handler ends, the directory of a known drive is never removed. -/
theorem known_not_mem_toRemove {entries : List DirectoryEntry} {entry : DirectoryEntry}
    {driveKey : Key} (isDrive : entry.IsDriveOf driveKey) (known : driveKey ∈ driveMap) :
    entry.name ∉ toRemove driveMap entries := by
  intro mem
  obtain ⟨other, -, sameName, otherKey, isOther, unknown⟩ := isUnused_of_mem_toRemove mem
  exact unknown (isOther.unique isDrive sameName ▸ known)

/-- The unused drives are all found exactly when none is listed after a directory whose name is not
    a key. The induction is on the entries; that names differ leaves the later ones to the rest of
    the loop. -/
theorem unused_mem_toRemove_iff {entries : List DirectoryEntry}
    (distinct : (entries.map (·.name)).Nodup) :
    (∀ entry ∈ entries, entry.IsUnused driveMap → entry.name ∈ toRemove driveMap entries) ↔
      entries.Pairwise fun first second => second.IsUnused driveMap → first.IsReadable := by
  induction entries with
  | nil => simp
  | cons entry entries ih =>
      rw [List.map_cons, List.nodup_cons] at distinct
      rw [List.pairwise_cons, ← ih distinct.2, toRemove]
      have differ : ∀ later ∈ entries, later.name ≠ entry.name := fun later isEntry same =>
        distinct.1 (List.mem_map.mpr ⟨later, isEntry, same⟩)
      obtain ⟨unreadable, _, found⟩ | ⟨readable, _, found⟩ | ⟨readable, notUnused, found⟩ :=
        entry.isToRemove_cases driveMap
      · simp only [found, List.not_mem_nil, imp_false, unreadable]
        constructor
        · intro none
          have noneLater : ∀ later ∈ entries, ¬ later.IsUnused driveMap := fun later isEntry =>
            none later (List.mem_cons_of_mem _ isEntry)
          exact ⟨noneLater, fun later isEntry isUnused => absurd isUnused (noneLater later isEntry)⟩
        · rintro ⟨noneLater, -⟩ other isEntry isUnused
          obtain rfl | isLater := List.mem_cons.mp isEntry
          · exact unreadable isUnused.isReadable
          · exact noneLater other isLater isUnused
      · simp only [found, readable, implies_true, true_and]
        constructor
        · intro all later isEntry laterUnused
          have mem := all later (List.mem_cons_of_mem _ isEntry) laterUnused
          exact (List.mem_cons.mp mem).resolve_left (differ later isEntry)
        · intro all other isEntry otherUnused
          obtain rfl | isLater := List.mem_cons.mp isEntry
          · exact List.mem_cons_self
          · exact List.mem_cons_of_mem _ (all other isLater otherUnused)
      · simp only [found, readable, implies_true, true_and]
        constructor
        · intro all later isEntry
          exact all later (List.mem_cons_of_mem _ isEntry)
        · intro all other isEntry otherUnused
          obtain rfl | isLater := List.mem_cons.mp isEntry
          · exact absurd otherUnused notUnused
          · exact all other isLater otherUnused

/-- The directories of the known drives stay in any case; those of the unused ones all go exactly
    when none of them is listed after a directory whose name is not a key. -/
theorem removeUnusedDrives_keepsKnownDrives_iff (driveMap : Std.TreeMap Key δ)
    (directory : Directory) :
    (∃ after, removeUnusedDrives driveMap (some directory) = some after ∧
        KeepsKnownDrives driveMap directory after) ↔
      directory.entries.Pairwise fun first second =>
        second.IsUnused driveMap → first.IsReadable := by
  rw [← unused_mem_toRemove_iff directory.distinct]
  constructor
  · rintro ⟨after, isAfter, keeps⟩ entry isEntry ⟨driveKey, isDrive, unknown⟩
    have gone := keeps.removesUnused entry isEntry driveKey isDrive unknown
    rw [removeUnusedDrives, Option.some.injEq] at isAfter
    rw [← isAfter, mem_removeAll] at gone
    by_contra stays
    exact gone ⟨isEntry, stays⟩
  · intro found
    refine ⟨_, rfl, ?_, ?_⟩
    · intro entry isEntry driveKey isDrive unknown stays
      exact (mem_removeAll.mp stays).2 (found entry isEntry ⟨driveKey, isDrive, unknown⟩)
    · intro entry isEntry driveKey isDrive known
      exact mem_removeAll.mpr ⟨isEntry, known_not_mem_toRemove isDrive known⟩

/-- A storage directory at the root of a file system, with the directory of one drive. -/
def sampleStorage : Directory where
  entries := [⟨"lost+found", true⟩, ⟨hashToFileName 5, true⟩]
  distinct := by decide +kernel

/-- The drive 5 is unknown, and its directory is left. -/
theorem sampleStorage_keeps_unused :
    ¬ ∃ after, removeUnusedDrives (∅ : Std.TreeMap Key Unit) (some sampleStorage) = some after ∧
      KeepsKnownDrives (∅ : Std.TreeMap Key Unit) sampleStorage after := by
  rintro ⟨after, isAfter, keeps⟩
  have isDrive : DirectoryEntry.IsDriveOf ⟨hashToFileName 5, true⟩ 5 :=
    ⟨rfl, stringToByteArray_hashToFileName 5⟩
  have gone := keeps.removesUnused _ (by simp [sampleStorage]) 5 isDrive Std.TreeMap.not_mem_emptyc
  have none : toRemove (∅ : Std.TreeMap Key Unit) sampleStorage.entries = [] := by decide +kernel
  rw [removeUnusedDrives, none, Option.some.injEq] at isAfter
  rw [← isAfter, mem_removeAll] at gone
  exact gone ⟨by simp [sampleStorage], by simp⟩

end Directory

end SiriusDrive
