/-!
# Faults of the stores
-/

namespace PeerMail

/-- A fault of a store. -/
inductive StorageError where
  | database (reason : String)
  /-- A stored row has no meaning. -/
  | corrupt (table reason : String)
  /-- The store does not take part at the moment. -/
  | unavailable (reason : String)
  | invalidPath (path : String)
deriving DecidableEq

/-- The fault in words. -/
def StorageError.message : StorageError → String
  | .database reason => "database error: " ++ reason
  | .corrupt table reason => "corrupt row in " ++ table ++ ": " ++ reason
  | .unavailable reason => "store unavailable: " ++ reason
  | .invalidPath path => "invalid database path: " ++ path

end PeerMail
