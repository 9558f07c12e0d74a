import Discovery.Tree.Basic

/-!
# Failures

What goes wrong in a registry: it was asked for something without sense, its settings are wrong,
or the store behind it failed.
-/

namespace Discovery

/-- Why a call of a registry or of a naming client failed. -/
inductive Failure where
  | illegalArgument (text : String)
  | config (text : String)
  | backend (text : String)
  | metrics (text : String)
deriving DecidableEq, Repr, Inhabited

def Failure.message : Failure → String
  | .illegalArgument text => "caused: " ++ text
  | .config text => "configuration error: " ++ text
  | .backend text => "backend error: " ++ text
  | .metrics text => "metrics error: " ++ text

def Tree.Failure.toFailure (e : Tree.Failure) : Discovery.Failure :=
  .backend e.message

end Discovery
