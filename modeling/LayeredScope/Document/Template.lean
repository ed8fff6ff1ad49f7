import LayeredScope.Document.Rendering
import LayeredScope.Stack.Field

/-!
# Rendering templates

A template brings layers of its own, from the oldest to the newest:

* on its own: its globals, the mapping that is given, the views of the client, its variables, the
  keywords;
* inside another render: the layers that are there, its globals, the views of the client, its
  variables, the keywords.

All of them are entered under guards, which take them off again and restore the level, whatever the
outcome.

* `Dispatch.renderContent` — the part that both have in common (`render_body`): the limit of
  nesting, and everything above the globals and the mapping.
* `Dispatch.renderNested` — inside another render (`render_in`).
* `Dispatch.render` — on its own, on a fresh stack (`render`).
* `Blueprint`, `World.newTemplate` — a template with the mappings that it needs: what `new` and the
  setters of a `DocumentTemplate` come to.
-/

namespace LayeredScope

variable {κ σ : Type}

/-- What a template is made from. -/
structure Blueprint (κ : Type) where
  name : String
  blocks : List (Block κ)
  /-- Without it the template gets globals of its own. -/
  globals : Option MapId := none
  /-- The variables; of two with one name the later stands. -/
  vars : List (String × Value) := []
  nestingLimit : Int64 := 200
  settings : Settings κ := {}

/-- Make a template. -/
def World.newTemplate (w : World κ σ) (b : Blueprint κ) : ObjectId × World κ σ :=
  let (vars, w) := w.newMap (.ofList b.vars)
  let (globals, w) := match b.globals with
    | some m => (m, w)
    | none => w.newMap ∅
  w.newObject (.template
    { name := b.name, blocks := b.blocks, globals, vars, nestingLimit := b.nestingLimit,
      settings := b.settings })

/-- The values that get a view each: the items of a list, any other client itself. -/
def clientTargets : Option Value → List Value
  | none => []
  | some (.list items) => items
  | some v => [v]

/-- The value that stands for the client: the last item of a list, or no value if it is empty. -/
def clientValue : Value → Value
  | .list items => items.getLast?.getD .none
  | v => v

/-- Enter a view of each value, one after the other. -/
def enterViews : List Value → Run (Frame κ σ) Unit
  | [] => pure ()
  | target :: rest => do
    let id ← (viewOf target).onSession
    enter (.object id)
    enterViews rest

/-- Note where the body of a template begins and ends. -/
def inBody {α : Type} (x : Run (Session κ σ) α) : Run (Session κ σ) α := fun s =>
  match x { s with world := s.world.record (.opened s.stack.level) } with
  | none => none
  | some (r, s) => some (r, { s with world := s.world.record .closed })

/-- Let the stack know its client. -/
def introduce (client : Option Value) (s : Stack κ) : Stack κ :=
  match client with
  | none => s
  | some v => s.bindField clientName (clientValue v)

namespace Dispatch

variable (d : Dispatch κ σ)

/-- The body of a template above its globals (`render_body`). -/
def renderContent (t : Template κ) (client : Option Value) (keywords : Option MapId) :
    Run (Session κ σ) String := do
  let s ← Run.get
  if t.nestingLimit < s.stack.level then Run.fail (.recursionLimit t.nestingLimit)
  else
    guarded do
      deepen
      enterViews (clientTargets client)
      let empty ← Run.gets fun f => (f.world.entries t.vars).isEmpty
      enterAll ((if empty then [] else [.mapping t.vars]) ++
        (keywords.map Layer.mapping).toList)
      (inBody (d.renderAll t.blocks)).onSession

/-- Render a template inside another render (`render_in`). -/
def renderNested (t : Template κ) (client : Option Value) (keywords : Option MapId) :
    Run (Session κ σ) String :=
  withLayers [.mapping t.globals] (d.renderContent t client keywords)

/-- Render a template on its own. -/
def render (t : Template κ) (client : Option Value) (mapping : Option Layer)
    (keywords : Option MapId) : Run (World κ σ) String :=
  onOwnStack t.settings.build <| guarded do
    enterAll (.mapping t.globals :: mapping.toList)
    Run.modify fun f => { f with stack := introduce client f.stack }
    (d.renderContent t client keywords).onSession

end Dispatch

end LayeredScope
