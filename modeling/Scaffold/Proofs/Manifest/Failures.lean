import Scaffold.Proofs.Manifest.Editing
import Scaffold.Proofs.Manifest.Saving
import Scaffold.Proofs.Project.Failures

/-!
How work on a manifest fails. Loading fails beyond what is reported only where the file holds no text or
a number with too many digits; saving what has been loaded fails only in ways that are reported.
-/

namespace Scaffold

variable {kinds : List Escape}

namespace Call

theorem ofValue_fails (kinds : List Escape) (now : Instant) (value : Value) :
    FailsWithin kinds (ofValue now value) := by
  unfold ofValue
  split
  · extract_lets missing text
    by_cases lacking : (!missing.isEmpty) = true
    · rw [if_pos lacking]
      exact .reported rfl
    · rw [if_neg lacking]
      split
      · split
        · exact .ok _
        · exact .reported rfl
      · exact .reported rfl
  · exact .reported rfl

theorem order_fails (kinds : List Escape) (calls : List Call) : FailsWithin kinds (order calls) := by
  have visited (path : List String) (pool placed : List Call) (caller : String) (ids : List String) :
      FailsWithin kinds (visit path pool placed caller ids) := by
    fun_induction visit path pool placed caller ids with
    | case1 => exact .ok _
    | case2 path pool placed caller id rest known ih => exact ih
    | case3 => exact .reported rfl
    | case4 => exact .reported rfl
    | case5 path pool placed caller id rest unknown call found below next =>
      exact .bind below fun _ _ => next _
  have all (roots placed : List Call) : FailsWithin kinds (visitAll calls placed roots) := by
    induction roots generalizing placed with
    | nil => exact .ok _
    | cons root rest ih =>
      unfold visitAll
      split
      · exact ih _
      · exact .bind (visited _ _ _ _ _) fun _ _ => ih _
  unfold order
  split
  · exact .reported rfl
  · exact all _ _

end Call

namespace Value

end Value

namespace Manifest

theorem load_fails (store : Store) (path : Path) (validate : Bool) (now : Instant) :
    FailsWithin [.bytes, .range] (load store path validate now) := by
  have valued (value : Value) : FailsWithin [.bytes, .range] (ofValue path now value) := by
    unfold ofValue
    dsimp only
    split
    · exact .bind (.mapM fun entry _ => Call.ofValue_fails _ _ _) fun _ _ => .ok _
    · exact .reported rfl
  unfold load
  split
  · exact .ok _
  · refine .bind ((Store.read_escapes _ _).widen (by decide)) fun text _ => ?_
    split
    · exact FailsWithin.reported rfl
    · exact FailsWithin.escaping rfl (by decide)
    · refine .bind (valued _) fun manifest _ => ?_
      split
      · exact .bind (Call.order_fails _ _) fun _ _ => .ok _
      · exact .ok _

end Manifest

end Scaffold
