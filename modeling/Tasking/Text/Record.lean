/-! # Records in diagnostic text

Diagnostics show a thing as its name followed by its fields, `Name { field: value }`,
or by one value in parentheses, `Name(value)`.  A record that keeps some of its fields
to itself ends in two dots.
-/

namespace Tasking.Text

/-- One value under a name: `Name(value)`. -/
def tagged (name value : String) : String := name ++ "(" ++ value ++ ")"

/-- A value that may be missing: `Some(value)` or `None`. -/
def optional : Option String → String
  | some value => tagged "Some" value
  | none => "None"

private def fieldList (fields : List (String × String)) : List String :=
  fields.map fun (name, value) => name ++ ": " ++ value

/-- All fields of a record: `Name { a: 1, b: 2 }`. -/
def record (name : String) (fields : List (String × String)) : String :=
  name ++ " \x7b " ++ ", ".intercalate (fieldList fields) ++ " \x7d"

/-- Some fields of a record whose others are not shown: `Name { a: 1, .. }`. -/
def openRecord (name : String) (fields : List (String × String)) : String :=
  name ++ " \x7b " ++ ", ".intercalate (fieldList fields ++ [".."]) ++ " \x7d"

/-- A truth value in lower case. -/
def flag (b : Bool) : String := if b then "true" else "false"

end Tasking.Text
