import FlowEngine.Text.Blank
import FlowEngine.Text.Split
/-!
# `FlowEngine.Execution.Policy` — choices that an operator makes

Two choices decide how a run deals with branches and with node types that nobody serves.  Each has
names under which it may be given, in any case and with blanks around them, and one name under which
it is shown.
-/

namespace FlowEngine

/-- Which edges are followed behind a node that has decided for a branch. -/
inductive BranchMode where
  /-- Every edge, whatever branch it belongs to. -/
  | allSuccessors
  /-- Edges of no branch and of the branch decided for. -/
  | matchHandle
deriving DecidableEq, Repr

/-- What becomes of a node whose type nobody serves. -/
inductive UnknownNodePolicy where
  /-- It succeeds, and its output says that there is nobody. -/
  | placeholder
  /-- It fails, and the run with it. -/
  | reject
deriving DecidableEq, Repr

namespace BranchMode

def text : BranchMode → String
  | allSuccessors => "all-successors"
  | matchHandle => "match-handle"

def parse (s : String) : Except String BranchMode :=
  let name := Text.lower (Text.trim s)
  if ["all", "all-successors", "all_successors"].contains name then .ok allSuccessors
  else if ["match", "match-handle", "match_handle", "prune"].contains name then .ok matchHandle
  else .error ("unknown branch mode: " ++ name)

end BranchMode

namespace UnknownNodePolicy

def text : UnknownNodePolicy → String
  | placeholder => "placeholder"
  | reject => "reject"

def parse (s : String) : Except String UnknownNodePolicy :=
  let name := Text.lower (Text.trim s)
  if ["placeholder", "skip"].contains name then .ok placeholder
  else if ["reject", "fail"].contains name then .ok reject
  else .error ("unknown node policy: " ++ name)

end UnknownNodePolicy

end FlowEngine
