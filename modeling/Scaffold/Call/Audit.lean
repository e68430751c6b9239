import Scaffold.Call.Basic
import Scaffold.Text.Column

/-!
The audit of a call graph: all its problems at once. Circles are found by a search that goes through
every edge once and reports each edge that leads back to the path of the search.
-/

namespace Scaffold.Call

/-- The problems of a call graph. A circle begins and ends with the same id. -/
structure Audit where
  totalEdges : Nat
  duplicateIds : List String
  missingTargets : List (String × String)
  selfDependencies : List String
  circles : List (List String)
  deriving DecidableEq, Repr

/-- The dependencies of all calls, as pairs of ids. -/
def edges (calls : List Call) : List (String × String) :=
  calls.flatMap fun call => call.dependsOn.map fun dependency => (call.id, dependency)

/-- The ids that come more than once, each once, in the order of their first repetition. -/
def repeatedIds (seen : List String) : List Call → List String
  | [] => []
  | call :: rest =>
    if seen.contains call.id then call.id :: repeatedIds seen rest
    else repeatedIds (call.id :: seen) rest

/-- The ids that an id depends on, without itself and without ids that no call has. -/
def neighbours (calls : List Call) (id : String) : List String :=
  ((edges calls).filter fun edge =>
    edge.1 == id && edge.2 != id && calls.any fun call => call.id == edge.2).map (·.2)

/-- A search so far: the ids it has come to, and the circles it has found. -/
structure Search where
  visited : List String
  circles : List (List String)
  deriving DecidableEq, Repr

def otherIds (id : String) (pool : List String) : List String :=
  pool.filter (· != id)

theorem length_otherIds_lt {pool : List String} {id : String} (member : id ∈ pool) :
    (otherIds id pool).length < pool.length :=
  List.length_filter_lt_length_iff_exists.mpr ⟨id, member, by simp⟩

/-- Goes through the edges from the last id of a path. The pool holds the ids that are not on the
path. -/
def explore (calls : List Call) (path pool : List String) (search : Search) :
    List String → Search
  | [] => search
  | id :: rest =>
    if path.contains id then
      let circle := path.dropWhile (· != id) ++ [id]
      explore calls path pool { search with circles := search.circles ++ [circle] } rest
    else if search.visited.contains id then explore calls path pool search rest
    else if _member : id ∈ pool then
      let below := explore calls (path ++ [id]) (otherIds id pool)
        { search with visited := id :: search.visited } (neighbours calls id)
      explore calls path pool below rest
    else explore calls path pool search rest
termination_by ids => (pool.length, ids.length)
decreasing_by
  · exact Prod.Lex.right _ (by simp)
  · exact Prod.Lex.right _ (by simp)
  · exact Prod.Lex.left _ _ (length_otherIds_lt (by assumption))
  · exact Prod.Lex.right _ (by simp)
  · exact Prod.Lex.right _ (by simp)

/-- Searches from each id that no search has come to. -/
def exploreAll (calls : List Call) (ids : List String) (search : Search) : List String → Search
  | [] => search
  | root :: rest =>
    if search.visited.contains root then exploreAll calls ids search rest
    else
      let below := explore calls [root] (otherIds root ids)
        { search with visited := root :: search.visited } (neighbours calls root)
      exploreAll calls ids below rest

def audit (calls : List Call) : Audit :=
  let ids := calls.map Call.id
  let edges := edges calls
  { totalEdges := edges.length
    duplicateIds := (repeatedIds [] calls).eraseDups
    missingTargets := edges.filter fun edge => !ids.contains edge.2
    selfDependencies := (edges.filter fun edge => edge.1 == edge.2).map (·.1)
    circles := (exploreAll calls ids ⟨[], []⟩ ids).circles }

namespace Audit

/-- A graph without problems passes. -/
def passed (audit : Audit) : Bool :=
  audit.duplicateIds.isEmpty && audit.missingTargets.isEmpty && audit.selfDependencies.isEmpty &&
    audit.circles.isEmpty

/-- The problems in words. -/
def violations (audit : Audit) : List String :=
  (audit.duplicateIds.map fun id => s!"Duplicate id: {id}") ++
    (audit.missingTargets.map fun edge => s!"Missing target: {edge.1} -> {edge.2}") ++
    (audit.selfDependencies.map fun id => s!"Self-dep: {id}") ++
    (audit.circles.map fun circle => "Cycle: " ++ " -> ".intercalate circle)

/-- The report of an audit. -/
def summary (audit : Audit) : String :=
  let counts :=
    ["Call Graph Validation", Text.rule 40, s!"  Total edges: {audit.totalEdges}",
     s!"  Duplicate ids: {audit.duplicateIds.length}",
     s!"  Missing targets: {audit.missingTargets.length}",
     s!"  Self-dependencies: {audit.selfDependencies.length}",
     s!"  Cycles: {audit.circles.length}"]
  let details :=
    if audit.violations.isEmpty then []
    else "\n  Violations:" :: audit.violations.map fun violation => "    " ++ violation
  let result := "\n  Result: " ++ (if audit.passed then "PASS" else "FAIL")
  "\n".intercalate (counts ++ details ++ [result])

end Audit

end Scaffold.Call
