import LayeredScope.OnAccess

/-!
# Rendering blocks

Blocks are rendered in order onto the text that stands already.

* `Dispatch.holds` — a condition (`test_condition`). A name that is missing does not hold; a name
  that is found is kept in the choice's own mapping, where the branch finds it.
* `Dispatch.renderOnto` — blocks, after a text (`render_into`). A choice pushes its own mapping for
  as long as it lasts (`render_if`).
* `Dispatch.renderAll` — blocks on their own (`render_blocks`).
-/

namespace LayeredScope

variable {κ σ : Type}

namespace Dispatch

variable (d : Dispatch κ σ)

/-- The value of an expression: names are looked up and invoked. -/
def valueOf (e : Expr κ) : Run (Session κ σ) Value :=
  match e with
  | .name name => d.lookup name true
  | .code code => d.evaluate code

/-- Does a condition hold? Only a miss of the very name that is looked up means no. -/
def holds (kept : MapId) (condition : Expr κ) : Run (Session κ σ) Bool :=
  match condition with
  | .name name => do
    match ← (d.lookup name true).attempt with
    | .ok value => do
      let truthy ← Run.gets fun s => s.world.isTruthy value
      (Run.modify fun w => w.insert kept name value).onWorld
      pure truthy
    | .error e => if e.isMissOf name then pure false else Run.fail e
  | .code code => do
    let value ← d.evaluate code
    Run.gets fun s => s.world.isTruthy value

mutual

/-- Blocks, after a text. -/
def renderOnto (out : String) : List (Block κ) → Run (Session κ σ) String
  | [] => pure out
  | block :: rest => do
    let out ← renderBlock out block
    renderOnto out rest

/-- One block, after a text. -/
def renderBlock (out : String) : Block κ → Run (Session κ σ) String
  | .text text => pure (out ++ text)
  | .insert e => do
    let value ← d.valueOf e
    Run.gets fun s => out ++ s.world.display value
  | .choose branches otherwise => do
    let kept ← (Run.modifyGet fun w => w.newMap ∅).onWorld
    guarded do
      enter (.mapping kept)
      (renderBranches out kept (renderOtherwise out otherwise) branches).onSession
  | .code code => do
    let value ← d.evaluate code
    Run.gets fun s => if value.isNone then out else out ++ s.world.display value

/-- The first branch whose condition holds, or else what follows otherwise. -/
def renderBranches (out : String) (kept : MapId) (otherwise : Run (Session κ σ) String) :
    List (Expr κ × List (Block κ)) → Run (Session κ σ) String
  | [] => otherwise
  | (condition, body) :: rest => do
    if ← d.holds kept condition then renderOnto out body
    else renderBranches out kept otherwise rest

/-- The blocks of an `otherwise`, if there are any. -/
def renderOtherwise (out : String) : Option (List (Block κ)) → Run (Session κ σ) String
  | none => pure out
  | some body => renderOnto out body

end

/-- Blocks on their own (`render_blocks`). -/
def renderAll (blocks : List (Block κ)) : Run (Session κ σ) String := d.renderOnto "" blocks

/-! ## Equations -/

/-- A condition on a name, by what the look-up ends with. -/
theorem holds_name_apply (kept : MapId) (name : String) (s : Session κ σ) :
    d.holds kept (.name name) s =
      match d.lookup name true s with
      | none => none
      | some (.ok v, s) =>
        some (.ok (s.world.isTruthy v), { s with world := s.world.insert kept name v })
      | some (.error e, s) =>
        some (if e.isMissOf name then .ok false else .error e, s) := by
  show ((d.lookup name true).attempt >>= _) s = _
  rw [Run.bind_apply]
  unfold Run.attempt
  cases d.lookup name true s with
  | none => rfl
  | some p =>
    obtain ⟨r, s'⟩ := p
    cases r with
    | ok v => rfl
    | error e =>
      show (if e.isMissOf name = true then _ else _ : Run (Session κ σ) Bool) s' = _
      dsimp only
      split <;> rfl

end Dispatch

end LayeredScope
