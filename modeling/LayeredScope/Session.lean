import LayeredScope.Run
import LayeredScope.World

/-!
# Sessions and guards

* `Session` — a stack with the world behind it. `Run.onWorld` lets a computation on the world run
  in a session: it cannot touch the stack.
* `Guard`, `Frame` — a `ScopedNamespace`: how many layers were entered and which level to return to.
  `enter` pushes a layer, `deepen` is its `descend`. `Guard.close` takes as many layers off again,
  or none if there are not that many, and restores the level.
* `guarded` — run under a fresh `guard`, which is closed whatever the outcome (`guarded_apply`).
* `withLayers` — run with layers entered: `with_scope`, `with_scopes`.
* `onOwnStack` — run on a stack of one's own, which is dropped afterwards.
-/

namespace LayeredScope

variable {κ σ α : Type}

/-- A stack with the world behind it. -/
structure Session (κ σ : Type) where
  world : World κ σ
  stack : Stack κ

/-- What a scope has to undo. -/
structure Guard where
  /-- The number of layers entered. -/
  entered : Nat := 0
  /-- The level before the first descent. -/
  returnLevel : Option Int64 := none
  deriving DecidableEq, Repr, Inhabited

/-- A session under a guard. -/
structure Frame (κ σ : Type) extends Session κ σ where
  guard : Guard := {}

/-- Run on the world of a session. -/
def Run.onWorld (x : Run (World κ σ) α) : Run (Session κ σ) α := fun ⟨w, st⟩ =>
  match x w with
  | none => none
  | some (r, w') => some (r, ⟨w', st⟩)

/-- Run on the session of a frame. -/
def Run.onSession (x : Run (Session κ σ) α) : Run (Frame κ σ) α := fun ⟨s, g⟩ =>
  match x s with
  | none => none
  | some (r, s') => some (r, ⟨s', g⟩)

/-- Run on a stack of one's own. -/
def onOwnStack (stack : Stack κ) (x : Run (Session κ σ) α) : Run (World κ σ) α := fun w =>
  match x ⟨w, stack⟩ with
  | none => none
  | some (r, s) => some (r, s.world)

/-- Push a layer that the guard takes off again. -/
def Frame.enter (layer : Layer) (f : Frame κ σ) : Frame κ σ :=
  { f with
    stack := f.stack.push layer
    guard := { f.guard with entered := f.guard.entered + 1 } }

/-- Go one level deeper (`descend`); the guard returns to the level before the first descent. -/
def Frame.deepen (f : Frame κ σ) : Frame κ σ :=
  { f with
    stack := { f.stack with level := Stack.deeper f.stack.level }
    guard := { f.guard with returnLevel := some (f.guard.returnLevel.getD f.stack.level) } }

def enter (layer : Layer) : Run (Frame κ σ) Unit := Run.modify (Frame.enter layer)

def deepen : Run (Frame κ σ) Unit := Run.modify Frame.deepen

/-- Enter layers one after the other. -/
def enterAll : List Layer → Run (Frame κ σ) Unit
  | [] => pure ()
  | layer :: rest => do
    enter layer
    enterAll rest

/-- The list without its first `count` entries, if it has that many. Only those entries are looked
at, however long the list is. -/
def dropExactly? : Nat → List α → Option (List α)
  | 0, l => some l
  | _ + 1, [] => none
  | n + 1, _ :: l => dropExactly? n l

/-- Undo what the guard remembers, when it is dropped. -/
def Guard.close (g : Guard) (s : Stack κ) : Stack κ :=
  { s with
    layers := (dropExactly? g.entered s.layers).getD s.layers
    level := g.returnLevel.getD s.level }

/-- Run under a guard that is closed at the end. -/
def guarded (x : Run (Frame κ σ) α) : Run (Session κ σ) α := fun s =>
  match x ⟨s, {}⟩ with
  | none => none
  | some (r, f) => some (r, ⟨f.world, f.guard.close f.stack⟩)

/-- Run with layers entered, the oldest first (`with_scopes`). -/
def withLayers (layers : List Layer) (x : Run (Session κ σ) α) : Run (Session κ σ) α :=
  guarded do
    enterAll layers
    x.onSession

/-! ## Equations -/

theorem Run.onWorld_apply (x : Run (World κ σ) α) (s : Session κ σ) :
    x.onWorld s =
      match x s.world with
      | none => none
      | some (r, w') => some (r, ⟨w', s.stack⟩) := rfl

theorem Run.onWorld_eq {x : Run (World κ σ) α} {s : Session κ σ} {w : World κ σ}
    {r : Except Failure α} (h : x s.world = some (r, w)) :
    x.onWorld s = some (r, ⟨w, s.stack⟩) := by
  rw [Run.onWorld_apply, h]

theorem Run.of_onWorld {x : Run (World κ σ) α} {s s' : Session κ σ} {r : Except Failure α}
    (h : x.onWorld s = some (r, s')) : ∃ w, x s.world = some (r, w) ∧ s' = ⟨w, s.stack⟩ := by
  rw [Run.onWorld_apply] at h
  split at h
  · cases h
  · rename_i r' w hw
    cases h
    exact ⟨w, hw, rfl⟩

theorem Run.onSession_apply (x : Run (Session κ σ) α) (f : Frame κ σ) :
    x.onSession f =
      match x f.toSession with
      | none => none
      | some (r, s') => some (r, ⟨s', f.guard⟩) := rfl

theorem guarded_apply (x : Run (Frame κ σ) α) (s : Session κ σ) :
    guarded x s =
      match x ⟨s, {}⟩ with
      | none => none
      | some (r, f) => some (r, ⟨f.world, f.guard.close f.stack⟩) := rfl

@[simp] theorem enter_apply (layer : Layer) (f : Frame κ σ) :
    enter layer f = some (.ok (), f.enter layer) := rfl

@[simp] theorem deepen_apply (f : Frame κ σ) :
    deepen f = some (.ok (), f.deepen) := rfl

/-- Entries are dropped exactly when there are enough of them. -/
theorem dropExactly?_eq (count : Nat) (l : List α) :
    dropExactly? count l = if count ≤ l.length then some (l.drop count) else none := by
  induction count generalizing l with
  | zero => simp [dropExactly?]
  | succ n ih => cases l <;> simp [dropExactly?, ih]

/-- Closing a guard that has counted the newest layers. -/
theorem Guard.close_eq {g : Guard} {s : Stack κ} {block base : List Layer}
    (hlayers : s.layers = block ++ base) (hcount : block.length = g.entered) :
    g.close s = { s with layers := base, level := g.returnLevel.getD s.level } := by
  have hle : g.entered ≤ (block ++ base).length := by
    rw [← hcount, List.length_append]
    omega
  have hdrop : (block ++ base).drop g.entered = base := by
    rw [← hcount, List.drop_left]
  simp only [Guard.close, dropExactly?_eq, hlayers, if_pos hle, hdrop, Option.getD_some]

/-- A guard that has nothing to undo changes nothing. -/
@[simp] theorem Guard.close_empty (s : Stack κ) : Guard.close {} s = s := by
  simp [Guard.close, dropExactly?]

/-- Entering layers pushes them in order and counts them. -/
theorem enterAll_apply (layers : List Layer) (f : Frame κ σ) :
    enterAll layers f =
      some (.ok (), ⟨⟨f.world, f.stack.pushAll layers⟩,
        { f.guard with entered := f.guard.entered + layers.length }⟩) := by
  induction layers generalizing f with
  | nil => rfl
  | cons layer rest ih =>
    show enterAll rest (f.enter layer) = _
    rw [ih]
    simp [Frame.enter, Stack.pushAll, Nat.add_comm, Nat.add_left_comm]

/-- Running with layers entered: push them, run, and take as many off again. -/
theorem withLayers_apply (layers : List Layer) (x : Run (Session κ σ) α) (s : Session κ σ) :
    withLayers layers x s =
      match x ⟨s.world, s.stack.pushAll layers⟩ with
      | none => none
      | some (r, s') => some (r, ⟨s'.world, Guard.close ⟨layers.length, none⟩ s'.stack⟩) := by
  unfold withLayers
  rw [guarded_apply, Run.bind_ok (enterAll_apply layers _), Run.onSession_apply]
  simp only [Nat.zero_add]
  cases x ⟨s.world, s.stack.pushAll layers⟩ <;> rfl

/-- Layers around a run that leaves its stack alone leave no trace. -/
theorem withLayers_eq {layers : List Layer} {x : Run (Session κ σ) α} {s s' : Session κ σ}
    {r : Except Failure α} (h : x ⟨s.world, s.stack.pushAll layers⟩ = some (r, s'))
    (hstack : s'.stack = s.stack.pushAll layers) :
    withLayers layers x s = some (r, ⟨s'.world, s.stack⟩) := by
  rw [withLayers_apply, h]
  dsimp only
  rw [hstack, Guard.close_eq (s.stack.layers_pushAll layers) List.length_reverse,
    Stack.pushAll_eq]
  rfl

end LayeredScope
