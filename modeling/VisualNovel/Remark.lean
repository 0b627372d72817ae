/-!
# Remarks

What goes wrong without being a failure is remarked for the log.
-/

namespace VisualNovel

/-- How grave a remark is. -/
inductive Severity where
  | warning | error
  deriving DecidableEq, Repr

/-- A remark for the log. -/
structure Remark where
  /-- How grave it is. -/
  severity : Severity
  /-- The part of the program that makes it. -/
  source : String
  /-- What it says. -/
  message : String
  deriving DecidableEq, Repr

end VisualNovel
