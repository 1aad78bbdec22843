/-!
What a decoder's return code means. Only zero is success. Codes outside the known ones are never
taken for success: below zero they are fatal, above one they are plain failures.
-/

namespace ArchiveTraversal

inductive Status where
  | ok
  | endOfArchive
  | retry
  | warn
  | failed
  | fatal
  deriving DecidableEq, Repr

namespace Status

def warnCode : Int := -20
def fatalCode : Int := -30

def ofCode (code : Int) : Status :=
  if code = 0 then .ok
  else if code = 1 then .endOfArchive
  else if code = -10 then .retry
  else if code = warnCode then .warn
  else if code = -25 then .failed
  else if code = fatalCode then .fatal
  else if code < 0 then .fatal
  else .failed

theorem ofCode_eq_ok_iff (code : Int) : ofCode code = .ok ↔ code = 0 := by
  unfold ofCode
  repeat' split
  all_goals simp_all

theorem ofCode_eq_endOfArchive_iff (code : Int) : ofCode code = .endOfArchive ↔ code = 1 := by
  unfold ofCode
  repeat' split
  all_goals simp_all

def name : Status → String
  | .ok => "Ok"
  | .endOfArchive => "Eof"
  | .retry => "Retry"
  | .warn => "Warn"
  | .failed => "Failed"
  | .fatal => "Fatal"

end Status

end ArchiveTraversal
