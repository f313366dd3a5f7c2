/-!
# Faults of trees

Trees that come from outside the reader name their nodes by tags. A tag that means
nothing at its place is reported by what was expected there and by the tag. A tree may
also lack a part, have another number of parts than its tag promises, or have a part of
a kind or of a size that its place does not take; about these there is nothing to report.
-/

namespace Cellular

/-- A tag without meaning, by the kind of node that was expected. -/
inductive UnknownTag where
  | condition (tag : String)
  | value (tag : String)
  | neighborhood (tag : String)
  | direction (tag : String)
  | boundary (tag : String)
  | operation (tag : String)
deriving DecidableEq, Repr

/-- The report of an unknown tag. -/
def UnknownTag.message : UnknownTag → String
  | condition tag => "Unknown condition node " ++ tag
  | value tag => "Unknown value " ++ tag
  | neighborhood tag => "Unknown neighborhood " ++ tag
  | direction tag => "Unknown neighborhood direction " ++ tag
  | boundary tag => "Unknown boundary " ++ tag
  | operation tag => "Unknown operation: " ++ tag

/-- Why a tree has no meaning: a tag is unknown, parts are missing or too many or of the
wrong kind, a comparison or an axis has no such name, a number is negative or too large or
asks for more memory than there is, several states are the default, or the values of a
comparison have no kind in common. -/
inductive TreeFault where
  | unknown (tag : UnknownTag)
  | missingPart
  | wrongParts
  | wrongKind
  | unknownComparison
  | noSuchAxis
  | negativeRank
  | outOfRange
  | outOfMemory
  | severalDefaults
  | noCommonKind
deriving DecidableEq, Repr

end Cellular
