import SiriusDrive.Types

/-! # Action lists

The list of actions a client asks for in a modification. A replicator downloads
it as a file of arbitrary content.
-/

namespace SiriusDrive

/-- `action_list_id::code`. -/
inductive ActionListId where
  | upload
  | newFolder
  | move
  | remove
  deriving Repr, DecidableEq

/-- `Action`, as it is read from a file. The flag `m_isInvalid` is not part of
    the file and is false in a list that has just been read. -/
structure Action where
  actionId : ActionListId
  param1 : String
  param2 : String := ""
  filename : String := ""
  deriving Repr, DecidableEq

abbrev ActionList := List Action

/-- The content of a downloaded action list file, as `ActionList::deserialize`
    finds it. -/
inductive ActionListFile where
  /-- `cereal` throws when some actions have been loaded. -/
  | undecodable (loaded : ActionList)
  /-- The bytes of a list of actions. -/
  | actions (actionList : ActionList)
  deriving Repr, DecidableEq

/-- The hash of the file an upload action names, and nothing for other actions. -/
def Action.uploadHash (action : Action) : Option (Except String Hash256) :=
  match action.actionId with
  | .upload => some (stringToByteArray action.param1)
  | .newFolder | .move | .remove => none

end SiriusDrive
