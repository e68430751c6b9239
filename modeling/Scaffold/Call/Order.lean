import Scaffold.Call.Basic

/-!
The order of execution: every call after all of its dependencies. Calls are visited in their order,
and before a call is placed its dependencies are visited in theirs.
-/

namespace Scaffold.Call

def firstRepeated? (seen : List String) : List Call → Option String
  | [] => none
  | call :: rest =>
    if seen.contains call.id then some call.id else firstRepeated? (call.id :: seen) rest

def without (id : String) (pool : List Call) : List Call :=
  pool.filter fun call => call.id != id

theorem length_without_lt {pool : List Call} {id : String} {call : Call}
    (found : withId? pool id = some call) : (without id pool).length < pool.length := by
  have same := List.find?_some found
  exact List.length_filter_lt_length_iff_exists.mpr
    ⟨call, List.mem_of_find?_eq_some found, by simpa using same⟩

/-- Places the calls that a call depends on, and those that they depend on. The path holds the ids
from the root of the visit to that call, and the pool the calls that are not on it; `placed` is what
has been placed so far. -/
def visit (path : List String) (pool placed : List Call) (caller : String) :
    List String → Except Error (List Call)
  | [] => .ok placed
  | id :: rest =>
    if placed.any fun call => call.id == id then visit path pool placed caller rest
    else
      match _found : withId? pool id with
      | none =>
        if path.contains id then .error (.cycle id (path.dropWhile (· != id) ++ [id]))
        else .error (.dependencyNotFound id caller)
      | some call => do
        let below ← visit (path ++ [id]) (without id pool) placed id call.dependsOn
        visit path pool (below ++ [call]) caller rest
termination_by ids => (pool.length, ids.length)
decreasing_by
  · exact Prod.Lex.right _ (by simp)
  · exact Prod.Lex.left _ _ (length_without_lt (by assumption))
  · exact Prod.Lex.right _ (by simp)

def visitAll (calls placed : List Call) : List Call → Except Error (List Call)
  | [] => .ok placed
  | root :: rest =>
    if placed.any fun call => call.id == root.id then visitAll calls placed rest
    else do
      let below ← visit [root.id] (without root.id calls) placed root.id root.dependsOn
      visitAll calls (below ++ [root]) rest

def order (calls : List Call) : Except Error (List Call) :=
  match firstRepeated? [] calls with
  | some id => .error (.duplicateCall id)
  | none => visitAll calls [] calls

end Scaffold.Call
