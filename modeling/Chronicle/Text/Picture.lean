import Chronicle.Text.Quoted

/-!
# Pictures of values

A picture shows a value on one line with the names of its parts, for messages about failed
expectations and for inspection.
-/

namespace Chronicle.Text

/-- The shape of a pictured value. -/
inductive Picture where
  /-- Text that stands for itself: a number, a truth value, a constructor without parts. -/
  | word (text : String)
  | string (text : String)
  | tuple (name : String) (parts : List Picture)
  /-- A record with named parts; a partial record admits that it has others. -/
  | record (name : String) (partial? : Bool) (fields : List (String × Picture))
  | list (items : List Picture)
  | map (entries : List (Picture × Picture))

namespace Picture

mutual

def text : Picture → String
  | .word t => t
  | .string t => quoted t
  | .tuple name [] => name
  | .tuple name parts => name ++ "(" ++ textItems parts ++ ")"
  | .record name false [] => name
  | .record name true [] => name ++ " \x7b .. \x7d"
  | .record name open? fields =>
    name ++ " \x7b " ++ textFields fields ++ (if open? then ", .. \x7d" else " \x7d")
  | .list items => "[" ++ textItems items ++ "]"
  | .map entries => "\x7b" ++ textEntries entries ++ "\x7d"

def textItems : List Picture → String
  | [] => ""
  | [p] => text p
  | p :: rest => text p ++ ", " ++ textItems rest

def textFields : List (String × Picture) → String
  | [] => ""
  | [(name, p)] => name ++ ": " ++ text p
  | (name, p) :: rest => name ++ ": " ++ text p ++ ", " ++ textFields rest

def textEntries : List (Picture × Picture) → String
  | [] => ""
  | [(k, v)] => text k ++ ": " ++ text v
  | (k, v) :: rest => text k ++ ": " ++ text v ++ ", " ++ textEntries rest

end

def int (n : Int) : Picture :=
  .word (toString n)

def option : Option Picture → Picture
  | none => .word "None"
  | some p => .tuple "Some" [p]

end Picture

end Chronicle.Text
