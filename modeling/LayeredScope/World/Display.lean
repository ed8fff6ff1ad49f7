import LayeredScope.Binary64.Layout
import LayeredScope.World

/-!
# The text of a value

What is inserted into rendered output. Lists keep their order and mappings list their keys in
ascending order. A mapping can contain itself: an occurrence of a mapping inside its own text is
cut to three dots.

* `World.display` — the text.
* `World.displayIn` — the text inside open mappings. It is total: each step into a mapping leaves
  one mapping fewer to open, each step from a view to its target goes to an older object, and each
  step into a list goes to a smaller value.

The text of a host's object is its own. A view shows its target; a view can only have been made
of a value that existed before, so a reference to a younger object is not followed.
-/

namespace LayeredScope

namespace World

variable {κ σ : Type}

/-- The issued mappings that are not open. -/
def unopened (w : World κ σ) (opened : List MapId) : List Nat :=
  (List.range w.maps.size).filter (fun i => ⟨i⟩ ∉ opened)

theorem unopened_cons (w : World κ σ) (opened : List MapId) (m : MapId) :
    w.unopened (m :: opened) = (w.unopened opened).filter (fun i => i ≠ m.index) := by
  unfold unopened
  rw [List.filter_filter]
  refine List.filter_congr fun i _ => ?_
  obtain ⟨j⟩ := m
  simp [List.mem_cons, not_or]

/-- Opening a mapping leaves fewer to open. -/
theorem length_unopened_cons {w : World κ σ} {opened : List MapId} {m : MapId}
    (hm : m.index < w.maps.size) (hopen : m ∉ opened) :
    (w.unopened (m :: opened)).length < (w.unopened opened).length := by
  rw [unopened_cons, List.length_filter_lt_length_iff_exists]
  refine ⟨m.index, ?_, by simp⟩
  simp [unopened, hm, hopen]

mutual

/-- The text of a value inside open mappings, where objects older than `bound` can be followed. -/
def displayIn (w : World κ σ) (opened : List MapId) (bound : Nat) (v : Value) : String :=
  match v with
  | .none => "none"
  | .bool b => if b then "true" else "false"
  | .int n => toString n
  | .float x => Binary64.Layout.reading.write x
  | .str s => s
  | .list items => "[" ++ ", ".intercalate (displayItems w opened bound items) ++ "]"
  | .map m => displayMap w opened m
  | .object id =>
    match w.object id with
    | .host h => h.text.getD ("<" ++ h.typeName ++ " object>")
    | .view v =>
      if id.index < bound then
        "SingleScopeView(" ++ displayIn w opened id.index v.target ++ ")"
      else "SingleScopeView(...)"
    | .bundle (.mapping m) => "AttributeView(" ++ displayMap w opened m ++ ")"
    | .bundle (.enclosure _) => "AttributeView(<namespace>)"
    | .template t => t.name
  | .function id => "<function " ++ w.functionName id ++ ">"
termination_by ((w.unopened opened).length, bound + 1, sizeOf v)

/-- The texts of the items of a list. -/
def displayItems (w : World κ σ) (opened : List MapId) (bound : Nat) (items : List Value) :
    List String :=
  match items with
  | [] => []
  | v :: rest => displayIn w opened bound v :: displayItems w opened bound rest
termination_by ((w.unopened opened).length, bound + 1, sizeOf items)

/-- The text of a mapping. -/
def displayMap (w : World κ σ) (opened : List MapId) (m : MapId) : String :=
  if m ∈ opened then "\x7b...\x7d"
  else if m.index < w.maps.size then
    "\x7b" ++ ", ".intercalate ((w.entries m).toList.map fun (key, v) =>
      key ++ ": " ++ displayIn w (m :: opened) w.objects.size v) ++ "\x7d"
  else "\x7b\x7d"
termination_by ((w.unopened opened).length, 0, 0)
decreasing_by exact Prod.Lex.left _ _ (length_unopened_cons (by assumption) (by assumption))

end

/-- The text of a value. -/
def display (w : World κ σ) (v : Value) : String := w.displayIn [] w.objects.size v

/-- The text of a text is the text. -/
@[simp] theorem display_str (w : World κ σ) (text : String) : w.display (.str text) = text := by
  simp only [display, displayIn]

/-! ## The journal does not show -/

theorem displayIn_record (w : World κ σ) (event : Event) :
    (∀ opened bound v, (w.record event).displayIn opened bound v = w.displayIn opened bound v) ∧
    (∀ opened m, (w.record event).displayMap opened m = w.displayMap opened m) ∧
    ∀ opened bound items,
      (w.record event).displayItems opened bound items = w.displayItems opened bound items := by
  have hobject : ∀ id, (w.record event).object id = w.object id := fun _ => rfl
  have hentries : ∀ m, (w.record event).entries m = w.entries m := fun _ => rfl
  have hname : ∀ id, (w.record event).functionName id = w.functionName id := fun _ => rfl
  have hsize : (w.record event).maps.size = w.maps.size := rfl
  have hobjects : (w.record event).objects.size = w.objects.size := rfl
  apply displayIn.mutual_induct w
  all_goals
    intros
    simp only [displayIn, displayMap, displayItems, if_true, if_false, *]

@[simp] theorem display_record (w : World κ σ) (event : Event) (v : Value) :
    (w.record event).display v = w.display v :=
  (w.displayIn_record event).1 [] w.objects.size v

end World

end LayeredScope
