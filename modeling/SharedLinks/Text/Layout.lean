import SharedLinks.Text.Quoted

/-!
# Layouts of values

A value that is shown for diagnosis is first laid out as a tree: words, quoted text, and groups of
items in brackets. `Layout.flat` prints the tree on one line, `Layout.indented` gives every item a
line of its own, four blanks deeper than its group and followed by a comma.
-/

namespace SharedLinks.Text

/-- How the items of a group are enclosed. -/
inductive Bracket where
  /-- Named fields of a record, in braces set off by blanks. -/
  | record
  /-- Positional parts, in parentheses. -/
  | tuple
  /-- The elements of a list, in square brackets. -/
  | list
  /-- The entries of a table, in tight braces. -/
  | table
  deriving DecidableEq

/-- A value laid out for printing. -/
inductive Layout where
  /-- A word or number, printed as it is. -/
  | word (text : String)
  /-- A string, printed between quotes. -/
  | quote (text : String)
  /-- An item with its label in front. -/
  | labelled (label : String) (item : Layout)
  /-- Items in brackets under a name; `more` says that some are left out and marked by two dots. -/
  | group (name : String) (bracket : Bracket) (items : List Layout) (more : Bool)

namespace Layout

/-- A record that shows all its fields. -/
def record (name : String) (fields : List (String × Layout)) : Layout :=
  group name .record (fields.map fun (label, item) => labelled label item) false

/-- A record that shows only some of its fields. -/
def partRecord (name : String) (fields : List (String × Layout)) : Layout :=
  group name .record (fields.map fun (label, item) => labelled label item) true

/-- A named tuple. -/
def tuple (name : String) (items : List Layout) : Layout := group name .tuple items false

/-- A list of items. -/
def list (items : List Layout) : Layout := group "" .list items false

/-- A table from strings to strings. -/
def table (entries : List (String × String)) : Layout :=
  group "" .table (entries.map fun (k, v) => labelled (quoted k) (quote v)) false

/-- An optional item: the word `None`, or the item under the name `Some`. -/
def option : Option Layout → Layout
  | none => word "None"
  | some item => tuple "Some" [item]

/-- A number. -/
def number (n : Nat) : Layout := word (toString n)

/-- A truth value. -/
def truth (b : Bool) : Layout := word (if b then "true" else "false")

end Layout

/-- The opening bracket, as it follows the name of a group that is printed on several lines. -/
def Bracket.opening : Bracket → String
  | .record => " \x7b"
  | .tuple => "("
  | .list => "["
  | .table => "\x7b"

/-- The closing bracket. -/
def Bracket.closing : Bracket → String
  | .record | .table => "\x7d"
  | .tuple => ")"
  | .list => "]"

/-- The blank that sets the items of a record off from its braces on one line. -/
def Bracket.padding : Bracket → String
  | .record => " "
  | _ => ""

/-- What a group without items looks like: a record is its bare name. -/
def Bracket.empty : Bracket → String
  | .record => ""
  | b => b.opening ++ b.closing

mutual

/-- The layout on one line. -/
def Layout.flat : Layout → String
  | .word text => text
  | .quote text => quoted text
  | .labelled label item => label ++ ": " ++ item.flat
  | .group name bracket items more =>
    match Layout.flatItems items ++ (if more then [".."] else []) with
    | [] => name ++ bracket.empty
    | shown => name ++ bracket.opening ++ bracket.padding ++ String.intercalate ", " shown
        ++ bracket.padding ++ bracket.closing

/-- The items of a group, each on one line. -/
def Layout.flatItems : List Layout → List String
  | [] => []
  | item :: items => item.flat :: Layout.flatItems items

end

/-- Puts text in front of the first of some lines. -/
def headLine (front : String) : List String → List String
  | [] => [front]
  | line :: lines => (front ++ line) :: lines

/-- Puts text behind the last of some lines. -/
def lastLine (back : String) : List String → List String
  | [] => [back]
  | [line] => [line ++ back]
  | line :: lines => line :: lastLine back lines

/-- Moves a line four blanks to the right. -/
def indent (line : String) : String := "    " ++ line

mutual

/-- The lines of a layout that gives every item of a group lines of its own. -/
def Layout.lines : Layout → List String
  | .word text => [text]
  | .quote text => [quoted text]
  | .labelled label item => headLine (label ++ ": ") item.lines
  | .group name bracket items more =>
    match Layout.itemLines items ++ (if more then [".."] else []) with
    | [] => [name ++ bracket.empty]
    | shown => (name ++ bracket.opening) :: (shown.map indent ++ [bracket.closing])

/-- The lines of the items of a group, each item ended by a comma. -/
def Layout.itemLines : List Layout → List String
  | [] => []
  | item :: items => lastLine "," item.lines ++ Layout.itemLines items

end

/-- The layout over several lines. -/
def Layout.indented (l : Layout) : String := String.intercalate "\n" l.lines

end SharedLinks.Text
