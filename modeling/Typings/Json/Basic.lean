import Typings.Binary64.Shortest
import Typings.Table

/-!
# JSON values

Objects keep their members in order. Integers are kept apart from floating point numbers, and the
latter include the infinities and the value that is not a number.
-/

namespace Typings

inductive Json where
  | null
  | bool (b : Bool)
  | int (n : Int)
  | float (x : Binary64)
  | str (s : String)
  | arr (items : List Json)
  | obj (members : List (String × Json))

instance : Inhabited Json := ⟨.null⟩

end Typings
