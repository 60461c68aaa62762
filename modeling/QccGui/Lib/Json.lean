import QccGui.Lib.Dict

/-!
# Values of a JSON file

What Python's `json.load` returns, and what the program does with a value of any kind: it takes its
truth, masks it as a number, or makes a list of it.
-/

namespace Lib

inductive Json
  | null
  | bool (b : Bool)
  | int (n : Int)
  /-- By its 64 bits. -/
  | float (bits : UInt64)
  | str (text : String)
  | list (items : List Json)
  | dict (items : List (String × Json))

namespace Json

/-- `bool(value)`; both zeros are false. -/
def truth : Json → Bool
  | null => false
  | bool b => b
  | int n => n ≠ 0
  | float bits => bits <<< 1 ≠ 0
  | str text => text ≠ ""
  | list items => !items.isEmpty
  | dict items => !items.isEmpty

/-- The operand of `&`, `none` for a `TypeError`. -/
def int? : Json → Option Int
  | bool b => some (if b then 1 else 0)
  | int n => some n
  | _ => none

/-- `list(value)`, `none` for a `TypeError`. -/
def items? : Json → Option (List Json)
  | str text => some (text.toList.map fun c => str (String.singleton c))
  | list items => some items
  | dict items => some (items.map fun x => str x.1)
  | _ => none

end Json

end Lib
