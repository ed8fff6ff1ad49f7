/-!
# Reserved names

Which keys a view of one object answers by itself, without reading an attribute.

* `Reserved` — the rule, a `ViewConfig`: a prefix that marks names as private, and the one name
  among them that asks for the object's text.
* `Reserved.kindOf` — the three kinds of key (`classify`, with a `KeyClass`). Without a prefix every
  key is visible; the text key is special only if it carries the prefix.
* `Reserved.withHiddenPrefix` — an empty prefix counts as none, since it would hide every key
  (`withHiddenPrefix_ne_empty`).
-/

namespace LayeredScope

/-- The stack field that holds the nesting level. -/
def levelName : String := "level"

/-- The stack field that holds the number of layers, unless a named field hides it. -/
def depthName : String := "depth"

/-- The stack field under which a top-level render keeps its client. -/
def clientName : String := "this"

/-- How a view treats a key: its `KeyClass`. -/
inductive KeyKind where
  /-- Read as an attribute. -/
  | visible
  /-- Answered by the object's text. -/
  | text
  /-- Never found. -/
  | hidden
  deriving DecidableEq, Repr

/-- The rule that tells the kinds of key apart: a `ViewConfig`. -/
structure Reserved where
  hiddenPrefix : Option String := some "_"
  textKey : String := "__str__"
  deriving DecidableEq, Repr, Inhabited

namespace Reserved

/-- Change the prefix; the empty one disables the rule, as `none` does. -/
def withHiddenPrefix (r : Reserved) (mark : Option String) : Reserved :=
  { r with hiddenPrefix := mark.filter (· ≠ "") }

def withTextKey (r : Reserved) (key : String) : Reserved := { r with textKey := key }

/-- Does a key start with the characters of a prefix? -/
def carries (mark key : String) : Bool := mark.toList.isPrefixOf key.toList

/-- The kind of a key (`classify`). -/
def kindOf (r : Reserved) (key : String) : KeyKind :=
  match r.hiddenPrefix with
  | none => .visible
  | some mark =>
    if carries mark key then if key = r.textKey then .text else .hidden
    else .visible

theorem withHiddenPrefix_ne_empty (r : Reserved) (mark : Option String) :
    (r.withHiddenPrefix mark).hiddenPrefix ≠ some "" := by
  cases mark <;> simp [withHiddenPrefix, Option.filter]

/-- The two settings of the rule do not disturb each other. -/
theorem withHiddenPrefix_withTextKey (r : Reserved) (mark : Option String) (key : String) :
    (r.withHiddenPrefix mark).withTextKey key = (r.withTextKey key).withHiddenPrefix mark :=
  rfl

end Reserved

end LayeredScope
