import Scaffold.Proofs.Outcome
import Scaffold.Store

/-!
How work on files fails. Writing and making directories fail only as the file system refuses them;
reading fails also where a file holds no text.
-/

namespace Scaffold.Store

/-- The file system refuses. -/
def Refused (error : Error) : Prop :=
  error.errorClass = .system

variable {store : Store} {path : Path}

theorem Obstruction.failure_refused (obstruction : Obstruction) (path : Path) :
    Refused (obstruction.failure path) := by
  cases obstruction <;> rfl

theorem read_fails (store : Store) (path : Path) :
    FailsOnly (fun error => Refused error ∨ error = .undecodable) (store.read path) := by
  unfold read
  split
  · exact .error (.inl (Obstruction.failure_refused _ _))
  · split
    · exact .error (.inl rfl)
    · exact .error (.inl rfl)
    · exact .error (.inr rfl)
    · exact .ok _

theorem write_fails (store : Store) (path : Path) (text : List Char) :
    FailsOnly Refused (store.write path text) := by
  unfold write
  split
  · exact .error (Obstruction.failure_refused _ _)
  · split
    · exact .error rfl
    · exact .ok _
    · split
      · exact .ok _
      · exact .error rfl
      · exact .error rfl

theorem makeDirectory_fails {ifMissing : Except Error Store} (otherwise : FailsOnly Refused ifMissing) :
    FailsOnly Refused (store.makeDirectory path ifMissing) := by
  unfold makeDirectory
  split
  · exact otherwise
  · exact .error rfl
  · split
    · exact .ok _
    · exact .error rfl
    · split
      · exact .ok _
      · exact .error rfl
      · exact otherwise

theorem makeDirectoriesUpTo_fails (levels : Nat) (path : Path) :
    FailsOnly Refused (makeDirectoriesUpTo levels store path) := by
  induction levels generalizing path with
  | zero => exact makeDirectory_fails (.error rfl)
  | succ levels ih => exact makeDirectory_fails (.bind (ih path.parent) fun _ _ =>
      makeDirectory_fails (.error rfl))

theorem makeDirectories_fails (store : Store) (path : Path) :
    FailsOnly Refused (store.makeDirectories path) :=
  makeDirectoriesUpTo_fails _ path

end Scaffold.Store
