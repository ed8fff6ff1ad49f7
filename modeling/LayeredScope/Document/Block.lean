/-!
# Blocks

The instructions that a document is rendered from. They are produced elsewhere; `κ` is the type
of the code that they carry for a host to run.

* `Expr` — a name to look up, or code to run.
* `Block` — text, an inserted value, a choice between branches, or code.
-/

namespace LayeredScope

/-- Where a value comes from. -/
inductive Expr (κ : Type) where
  /-- Looked up, and invoked if it can be. -/
  | name (name : String)
  | code (code : κ)
  deriving Repr

/-- One instruction of a document. -/
inductive Block (κ : Type) where
  /-- Appended as it stands. -/
  | text (text : String)
  /-- The value's text is appended. -/
  | insert (value : Expr κ)
  /-- The first branch whose condition holds is rendered, or else what follows otherwise. -/
  | choose (branches : List (Expr κ × List (Block κ))) (otherwise : Option (List (Block κ)))
  /-- The text of what the code answers is appended; no value appends nothing. -/
  | code (code : κ)
  deriving Inhabited

end LayeredScope
