/-!
Columns: texts filled up with spaces to a width, and horizontal rules. A text that is wider already
stays as it is.
-/

namespace Scaffold.Text

def leftAligned (width : Nat) (text : String) : String :=
  text ++ String.ofList (List.replicate (width - text.length) ' ')

def rightAligned (width : Nat) (text : String) : String :=
  String.ofList (List.replicate (width - text.length) ' ') ++ text

def rule (width : Nat) : String :=
  String.ofList (List.replicate width '─')

theorem length_leftAligned (width : Nat) (text : String) :
    (leftAligned width text).length = max width text.length := by
  simp only [leftAligned, String.length_append, String.length_ofList, List.length_replicate]
  omega

theorem length_rightAligned (width : Nat) (text : String) :
    (rightAligned width text).length = max width text.length := by
  simp only [rightAligned, String.length_append, String.length_ofList, List.length_replicate]
  omega

end Scaffold.Text
