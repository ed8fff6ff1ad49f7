import LayeredScope.Proofs.Misses
import Mathlib.Data.Finmap

/-!
# Named fields as a store

Three kinds of field share one space of names, and they are written, unwritten and counted by
operations that can fail. Taken together they are a simple thing.

* `Store` — a register, a finite map whose names are never that of the register, and a counter.
  `Store.step`, `Store.read` — what may be done to it and what it answers.
* `Edit` — the operations of a stack that have to do with its fields, its level and its depth.
* `Stack.store` — the store that a stack is, whatever its layers, accessor and reserved names are.
* `Edit.store_change` — one operation does to the stack what it does to the store.
* `Edit.lastSet` — what a name was last set to, by the history alone.
* `Dispatch.fields_refine_store` — **every sequence of operations answers and reads as the store
  does**, failing operations change nothing, and those on fields leave the layers alone.
-/

namespace LayeredScope

variable {κ σ : Type}

/-! ## The store -/

/-- A name that a field other than the level can have. -/
abbrev FieldName := { name : String // name ≠ levelName }

/-- A register, a finite map and a counter. -/
structure Store where
  level : Int64
  fields : Finmap fun _ : FieldName => Value
  depth : Nat

/-- An operation on fields, level and layers. -/
inductive Edit where
  | setField (name : String) (value : Value)
  | deleteField (name : String)
  | setLevel (level : Int64)
  | push (layer : Layer)
  | pop (count : Nat)
  | popTop

namespace Store

/-- What an operation makes of a store. The names of types are those in messages. -/
def step (typeName : Value → String) (st : Store) : Edit → Except Failure Store
  | .setField name value =>
    if h : name = levelName then
      match value.toInt? with
      | some level => .ok { st with level }
      | none => .error (.typeMismatch "int" (typeName value))
    else .ok { st with fields := st.fields.insert ⟨name, h⟩ value }
  | .deleteField name =>
    if h : name = levelName then .error (.unsupportedOperation "deleting the level field")
    else if ⟨name, h⟩ ∈ st.fields then .ok { st with fields := st.fields.erase ⟨name, h⟩ }
    else .error (.attributeNotFound "NamespaceStack" name)
  | .setLevel level => .ok { st with level }
  | .push _ => .ok { st with depth := st.depth + 1 }
  | .pop count =>
    if count ≤ st.depth then .ok { st with depth := st.depth - count }
    else .error (.underflow count st.depth)
  | .popTop =>
    match st.depth with
    | 0 => .error (.underflow 1 0)
    | depth + 1 => .ok { st with depth }

/-- The store after an operation; one that fails leaves it as it was. -/
def after (typeName : Value → String) (st : Store) (edit : Edit) : Store :=
  match st.step typeName edit with
  | .ok st' => st'
  | .error _ => st

/-- What operations come to, one after the other, and the store that they leave. -/
def run (typeName : Value → String) : Store → List Edit → List (Except Failure Unit) × Store
  | st, [] => ([], st)
  | st, edit :: rest =>
    let (outcomes, last) := (st.after typeName edit).run typeName rest
    ((st.step typeName edit).map (fun _ => ()) :: outcomes, last)

/-- The counter as a field: a whole number of 64 bits. -/
def count (st : Store) : Value := .int (Int64.ofNat (min st.depth (2 ^ 63 - 1)))

/-- What is read under a name. -/
def read (st : Store) (name : String) : Except Failure Value :=
  if h : name = levelName then .ok (.int st.level)
  else
    match st.fields.lookup ⟨name, h⟩ with
    | some value => .ok value
    | none =>
      if name = depthName then .ok st.count
      else .error (.attributeNotFound "NamespaceStack" name)

end Store

/-! ## Stacks as stores -/

/-- The entries under names that a field other than the level can have. -/
def Entries.fieldMap (e : Entries Value) : Finmap fun _ : FieldName => Value :=
  (e.toList.filterMap fun p =>
    if h : p.1 ≠ levelName then some (⟨⟨p.1, h⟩, p.2⟩ : Sigma fun _ : FieldName => Value)
    else none).toFinmap

/-- The store that a stack is. -/
def Stack.store (s : Stack κ) : Store := ⟨s.level, s.fields.fieldMap, s.depth⟩

namespace Entries

theorem lookup_fieldMap (e : Entries Value) (name : FieldName) :
    e.fieldMap.lookup name = e.get? name := by
  unfold fieldMap get?
  rw [Finmap.dlookup_list_toFinmap]
  induction e.toList with
  | nil => rfl
  | cons p rest ih =>
    obtain ⟨key, value⟩ := p
    obtain ⟨name, hname⟩ := name
    by_cases hkey : key = levelName
    · have hne : name ≠ key := fun h => hname (h.trans hkey)
      simpa [hkey, lookupIn, hne, hname] using ih
    · by_cases hsame : name = key
      · subst hsame
        simp [hkey, lookupIn]
      · have hne : (⟨name, hname⟩ : FieldName) ≠ ⟨key, hkey⟩ := fun h => hsame (congrArg (·.1) h)
        simpa [hkey, lookupIn, hsame, List.dlookup_cons_ne _
          (⟨⟨key, hkey⟩, value⟩ : Sigma fun _ : FieldName => Value) hne] using ih

theorem fieldMap_insert (e : Entries Value) (name : FieldName) (value : Value) :
    (e.insert name value).fieldMap = e.fieldMap.insert name value := by
  refine Finmap.ext_lookup fun other => ?_
  rw [lookup_fieldMap, get?_insert]
  by_cases h : other = name
  · subst h
    rw [if_pos rfl, Finmap.lookup_insert]
  · have hne : (other : String) ≠ name := fun heq => h (Subtype.ext heq)
    rw [if_neg hne, Finmap.lookup_insert_of_ne _ h, lookup_fieldMap]

theorem fieldMap_erase (e : Entries Value) (name : FieldName) :
    (e.erase name).fieldMap = e.fieldMap.erase name := by
  refine Finmap.ext_lookup fun other => ?_
  rw [lookup_fieldMap, get?_erase]
  by_cases h : other = name
  · subst h
    rw [if_pos rfl, Finmap.lookup_erase]
  · have hne : (other : String) ≠ name := fun heq => h (Subtype.ext heq)
    rw [if_neg hne, Finmap.lookup_erase_ne h, lookup_fieldMap]

theorem mem_fieldMap (e : Entries Value) (name : FieldName) :
    name ∈ e.fieldMap ↔ e.contains name = true := by
  rw [← Finmap.lookup_isSome, lookup_fieldMap]
  rfl

end Entries

theorem Stack.read_store (s : Stack κ) (name : String) : s.store.read name = s.readField name := by
  unfold Store.read Stack.readField
  by_cases h : name = levelName
  · rw [dif_pos h, if_pos h]
    rfl
  · rw [dif_neg h, if_neg h]
    show (match s.fields.fieldMap.lookup _ with | some value => _ | none => _) = _
    rw [Entries.lookup_fieldMap]
    rfl

/-! ## What an operation does -/

/-- A change of the stack in a frame. -/
theorem updateStack_apply {α : Type} (g : Stack κ → Except Failure (α × Stack κ))
    (f : Frame κ σ) :
    updateStack g f =
      match g f.stack with
      | .ok (v, stack) => some (.ok v, { f with stack })
      | .error e => some (.error e, f) := by
  simp only [updateStack, Run.update]
  cases g f.stack <;> rfl

namespace Edit

/-- The operation that a script asks for. -/
def op : Edit → Op κ
  | .setField name value => .writeField name value
  | .deleteField name => .clearField name
  | .setLevel level => .setLevel level
  | .push layer => .push layer
  | .pop count => .pop count
  | .popTop => .popTop

/-- What an operation does in a frame; layers that are popped are let go. -/
def run (d : Dispatch κ σ) (edit : Edit) : Run (Frame κ σ) Unit := do
  let _ ← edit.op.run d
  pure ()

/-- What operations do one after the other, whether they fail or not, and what each comes to. -/
def runAll (d : Dispatch κ σ) : List Edit → Run (Frame κ σ) (List (Except Failure Unit))
  | [] => pure []
  | edit :: rest => do
    let outcome ← (edit.run d).attempt
    let outcomes ← runAll d rest
    pure (outcome :: outcomes)

/-- What an operation makes of a stack. -/
def change (w : World κ σ) (s : Stack κ) : Edit → Except Failure (Stack κ)
  | .setField name value => w.writeField s name value
  | .deleteField name => s.clearField name
  | .setLevel level => .ok { s with level }
  | .push layer => .ok (s.push layer)
  | .pop count => (s.pop count).map (·.2)
  | .popTop => s.popTop.map (·.2)

/-- The stack after an operation. -/
def after (w : World κ σ) (s : Stack κ) (edit : Edit) : Stack κ :=
  match edit.change w s with
  | .ok s' => s'
  | .error _ => s

/-- An operation ends, with the change that it makes. -/
theorem run_apply (d : Dispatch κ σ) (edit : Edit) (f : Frame κ σ) :
    edit.run d f = some ((edit.change f.world f.stack).map (fun _ => ()),
      { f with stack := edit.after f.world f.stack }) := by
  cases edit with
  | setField name value =>
    show ((Op.writeField name value).run d >>= fun _ => pure ()) f = _
    simp only [Run.bind_apply, Op.run, Run.update, after, change]
    cases f.world.writeField f.stack name value <;> rfl
  | deleteField name =>
    show ((Op.clearField name).run d >>= fun _ => pure ()) f = _
    simp only [Run.bind_apply, Op.run, updateStack_apply, after, change]
    cases f.stack.clearField name <;> rfl
  | setLevel level => rfl
  | push layer => rfl
  | pop count =>
    show ((Op.pop count).run d >>= fun _ => pure ()) f = _
    simp only [Run.bind_apply, Op.run, updateStack_apply, after, change]
    cases f.stack.pop count <;> rfl
  | popTop =>
    show (Op.popTop.run d >>= fun _ => pure ()) f = _
    simp only [Run.bind_apply, Op.run, updateStack_apply, after, change]
    cases f.stack.popTop <;> rfl

/-! ## One operation -/

theorem store_setField (w : World κ σ) (s : Stack κ) (name : String) (value : Value) :
    (w.writeField s name value).map Stack.store =
      s.store.step w.typeName (.setField name value) := by
  by_cases h : name = levelName
  · simp only [World.writeField, Store.step, if_pos h, dif_pos h]
    cases value.toInt? <;> rfl
  · simp only [World.writeField, Store.step, if_neg h, dif_neg h]
    exact congrArg (fun fields => Except.ok (Store.mk s.level fields s.depth))
      (s.fields.fieldMap_insert ⟨name, h⟩ value)

theorem store_deleteField (w : World κ σ) (s : Stack κ) (name : String) :
    (s.clearField name).map Stack.store = s.store.step w.typeName (.deleteField name) := by
  by_cases h : name = levelName
  · simp only [Stack.clearField, Store.step, if_pos h, dif_pos h]
    rfl
  · have hmem : (⟨name, h⟩ : FieldName) ∈ s.store.fields ↔ s.fields.contains name = true :=
      s.fields.mem_fieldMap ⟨name, h⟩
    simp only [Stack.clearField, Store.step, if_neg h, dif_neg h]
    by_cases hset : s.fields.contains name = true
    · rw [if_pos hset, if_pos (hmem.mpr hset)]
      exact congrArg (fun fields => Except.ok (Store.mk s.level fields s.depth))
        (s.fields.fieldMap_erase ⟨name, h⟩)
    · rw [if_neg hset, if_neg fun hin => hset (hmem.mp hin)]
      rfl

theorem store_pop (w : World κ σ) (s : Stack κ) (count : Nat) :
    ((s.pop count).map (·.2)).map Stack.store = s.store.step w.typeName (.pop count) := by
  have hdepth : s.store.depth = s.depth := rfl
  simp only [Store.step, hdepth]
  by_cases h : count ≤ s.depth
  · rw [if_pos h, Stack.pop_of_le h]
    have hdrop : (s.layers.drop count).length = s.depth - count := List.length_drop
    exact congrArg (fun depth => Except.ok (Store.mk s.level s.fields.fieldMap depth)) hdrop
  · rw [if_neg h, Stack.pop_of_lt (Nat.not_le.mp h)]
    rfl

theorem store_popTop (w : World κ σ) (s : Stack κ) :
    (s.popTop.map (·.2)).map Stack.store = s.store.step w.typeName .popTop := by
  obtain ⟨layers, level, fields, accessor, reserved⟩ := s
  cases layers <;> rfl

/-- **An operation does to the stack what it does to the store.** -/
theorem store_change (w : World κ σ) (s : Stack κ) (edit : Edit) :
    (edit.change w s).map Stack.store = s.store.step w.typeName edit := by
  cases edit with
  | setField name value => exact store_setField w s name value
  | deleteField name => exact store_deleteField w s name
  | setLevel level => rfl
  | push layer => rfl
  | pop count => exact store_pop w s count
  | popTop => exact store_popTop w s

/-- An operation comes to the same on the store, and leaves the store that it leaves there. -/
theorem outcome_eq (w : World κ σ) (s : Stack κ) (edit : Edit) :
    (edit.change w s).map (fun _ => ()) = (s.store.step w.typeName edit).map fun _ => () := by
  rw [← store_change]
  cases edit.change w s <;> rfl

theorem store_after (w : World κ σ) (s : Stack κ) (edit : Edit) :
    (edit.after w s).store = s.store.after w.typeName edit := by
  unfold after Store.after
  rw [← store_change]
  cases edit.change w s <;> rfl

/-- An operation that fails changes nothing. -/
theorem eq_of_fails {d : Dispatch κ σ} {edit : Edit} {f f' : Frame κ σ} {e : Failure}
    (h : edit.run d f = some (.error e, f')) : f' = f := by
  rw [run_apply] at h
  unfold after at h
  cases hchange : edit.change f.world f.stack with
  | ok stack =>
    rw [hchange] at h
    cases h
  | error e' =>
    rw [hchange] at h
    cases h
    rfl

/-! ## Fields and layers -/

/-- The operations on fields, as opposed to those on layers. -/
inductive OnFields : Edit → Prop
  | setField (name : String) (value : Value) : OnFields (.setField name value)
  | deleteField (name : String) : OnFields (.deleteField name)
  | setLevel (level : Int64) : OnFields (.setLevel level)

/-- What an operation on fields can make of a stack, and what one on layers can. -/
theorem change_cases {w : World κ σ} {s s' : Stack κ} {edit : Edit} (h : edit.change w s = .ok s') :
    (∃ level, s' = { s with level }) ∨
    (∃ name value, name ≠ levelName ∧ s' = s.bindField name value) ∨
    (∃ name, name ≠ levelName ∧ s' = { s with fields := s.fields.erase name }) ∨
    (¬ edit.OnFields ∧ ∃ layers, s' = { s with layers }) := by
  cases edit with
  | setField name value =>
    by_cases hname : name = levelName
    · simp only [change, World.writeField, if_pos hname] at h
      cases hint : value.toInt? with
      | none =>
        rw [hint] at h
        cases h
      | some level =>
        rw [hint] at h
        cases h
        exact .inl ⟨level, rfl⟩
    · simp only [change, World.writeField, if_neg hname] at h
      cases h
      exact .inr (.inl ⟨name, value, hname, rfl⟩)
  | deleteField name =>
    by_cases hname : name = levelName
    · simp only [change, Stack.clearField, if_pos hname] at h
      cases h
    · simp only [change, Stack.clearField, if_neg hname] at h
      by_cases hset : s.fields.contains name = true
      · rw [if_pos hset] at h
        cases h
        exact .inr (.inr (.inl ⟨name, hname, rfl⟩))
      · rw [if_neg hset] at h
        cases h
  | setLevel level =>
    cases h
    exact .inl ⟨level, rfl⟩
  | push layer =>
    cases h
    exact .inr (.inr (.inr ⟨nofun, _, rfl⟩))
  | pop count =>
    by_cases hcount : count ≤ s.depth
    · rw [change, Stack.pop_of_le hcount] at h
      cases h
      exact .inr (.inr (.inr ⟨nofun, _, rfl⟩))
    · rw [change, Stack.pop_of_lt (Nat.not_le.mp hcount)] at h
      cases h
  | popTop =>
    unfold change Stack.popTop at h
    rcases hlayers : s.layers with _ | ⟨layer, rest⟩
    · rw [hlayers] at h
      cases h
    · rw [hlayers] at h
      cases h
      exact .inr (.inr (.inr ⟨nofun, _, rfl⟩))

/-- Operations on fields leave the layers alone. -/
theorem OnFields.layers_after {edit : Edit} (hedit : edit.OnFields) (w : World κ σ)
    (s : Stack κ) : (edit.after w s).layers = s.layers := by
  unfold after
  cases hchange : edit.change w s with
  | error e => rfl
  | ok s' =>
    obtain ⟨_, rfl⟩ | ⟨_, _, -, rfl⟩ | ⟨_, -, rfl⟩ | ⟨hlayers, -⟩ := change_cases hchange
    · rfl
    · rfl
    · rfl
    · exact absurd hedit hlayers

/-- The name of the register does not come among the other fields. -/
theorem level_free_after {s : Stack κ} (hfree : s.fields.get? levelName = none) (w : World κ σ)
    (edit : Edit) : (edit.after w s).fields.get? levelName = none := by
  unfold after
  cases hchange : edit.change w s with
  | error e => exact hfree
  | ok s' =>
    obtain ⟨_, rfl⟩ | ⟨name, value, hname, rfl⟩ | ⟨name, hname, rfl⟩ | ⟨-, _, rfl⟩ :=
      change_cases hchange
    · exact hfree
    · show (s.fields.insert name value).get? levelName = none
      rw [Entries.get?_insert, if_neg hname.symm, hfree]
    · show (s.fields.erase name).get? levelName = none
      rw [Entries.get?_erase, if_neg hname.symm, hfree]
    · exact hfree

/-! ## Sequences of operations -/

/-- What an operation makes of the value that a name was last set to. -/
def rebind (name : String) (held : Option Value) : Edit → Option Value
  | .setField other value => if other = name then some value else held
  | .deleteField other => if other = name then none else held
  | _ => held

/-- What a name was last set to and has not been deleted since, if it was set at all. -/
def lastSet (name : String) (held : Option Value) (edits : List Edit) : Option Value :=
  edits.foldl (rebind name) held

section

variable (typeName : Value → String) (st : Store) (name : FieldName)

theorem lookup_after_setField (other : String) (value : Value) :
    (st.after typeName (.setField other value)).fields.lookup name =
      if other = name then some value else st.fields.lookup name := by
  obtain ⟨name, hname⟩ := name
  unfold Store.after
  by_cases hlevel : other = levelName
  · have hne : other ≠ name := fun h => hname (h.symm.trans hlevel)
    simp only [Store.step, dif_pos hlevel, if_neg hne]
    cases value.toInt? <;> rfl
  · simp only [Store.step, dif_neg hlevel]
    by_cases hsame : other = name
    · subst hsame
      rw [if_pos rfl]
      exact Finmap.lookup_insert _
    · have hne : (⟨name, hname⟩ : FieldName) ≠ ⟨other, hlevel⟩ := fun h =>
        hsame (congrArg (·.1) h).symm
      rw [if_neg hsame]
      exact Finmap.lookup_insert_of_ne _ hne

theorem lookup_after_deleteField (other : String) :
    (st.after typeName (.deleteField other)).fields.lookup name =
      if other = name then none else st.fields.lookup name := by
  obtain ⟨name, hname⟩ := name
  unfold Store.after
  by_cases hlevel : other = levelName
  · have hne : other ≠ name := fun h => hname (h.symm.trans hlevel)
    simp only [Store.step, dif_pos hlevel, if_neg hne]
  · simp only [Store.step, dif_neg hlevel]
    by_cases hmem : (⟨other, hlevel⟩ : FieldName) ∈ st.fields
    · rw [if_pos hmem]
      by_cases hsame : other = name
      · subst hsame
        rw [if_pos rfl]
        exact Finmap.lookup_erase _ _
      · have hne : (⟨name, hname⟩ : FieldName) ≠ ⟨other, hlevel⟩ := fun h =>
          hsame (congrArg (·.1) h).symm
        rw [if_neg hsame]
        exact Finmap.lookup_erase_ne hne
    · rw [if_neg hmem]
      by_cases hsame : other = name
      · subst hsame
        rw [if_pos rfl]
        exact Finmap.lookup_eq_none.mpr hmem
      · rw [if_neg hsame]

theorem lookup_after (edit : Edit) :
    (st.after typeName edit).fields.lookup name = edit.rebind name (st.fields.lookup name) := by
  cases edit with
  | setField other value => exact lookup_after_setField typeName st name other value
  | deleteField other => exact lookup_after_deleteField typeName st name other
  | setLevel level => rfl
  | push layer => rfl
  | pop count =>
    unfold Store.after Store.step
    by_cases hcount : count ≤ st.depth
    · simp only [if_pos hcount]
      rfl
    · simp only [if_neg hcount]
      rfl
  | popTop =>
    obtain ⟨level, fields, depth⟩ := st
    cases depth <;> rfl

end

theorem lookup_run (typeName : Value → String) (st : Store) (edits : List Edit)
    (name : FieldName) :
    (st.run typeName edits).2.fields.lookup name = lastSet name (st.fields.lookup name) edits := by
  induction edits generalizing st with
  | nil => rfl
  | cons edit rest ih =>
    show ((st.after typeName edit).run typeName rest).2.fields.lookup name = _
    rw [ih, lookup_after]
    rfl

/-- Operations one after the other all come to something, and to the same as on the store. -/
theorem runAll_apply (d : Dispatch κ σ) (edits : List Edit) (f : Frame κ σ) :
    runAll d edits f = some (.ok (f.stack.store.run f.world.typeName edits).1,
      { f with stack := edits.foldl (after f.world) f.stack }) := by
  induction edits generalizing f with
  | nil => rfl
  | cons edit rest ih =>
    show ((edit.run d).attempt >>= _) f = _
    rw [Run.bind_ok (Run.attempt_eq (run_apply d edit f)), Run.bind_ok (ih _), outcome_eq,
      store_after]
    rfl

theorem store_afterAll (w : World κ σ) (s : Stack κ) (edits : List Edit) :
    (edits.foldl (after w) s).store = (s.store.run w.typeName edits).2 := by
  induction edits generalizing s with
  | nil => rfl
  | cons edit rest ih =>
    show (rest.foldl (after w) (edit.after w s)).store = _
    rw [ih, store_after]
    rfl

theorem level_free_afterAll {s : Stack κ} (hfree : s.fields.get? levelName = none)
    (w : World κ σ) (edits : List Edit) :
    (edits.foldl (after w) s).fields.get? levelName = none := by
  induction edits generalizing s with
  | nil => exact hfree
  | cons edit rest ih => exact ih (level_free_after hfree w edit)

end Edit

/-! ## Main theorem -/

/-- The counter as a field is the number of layers, as long as that is a number of 63 bits. -/
theorem Store.count_eq {st : Store} (h : st.depth < 2 ^ 63) :
    ∃ n : Int64, st.count = .int n ∧ n.toInt = st.depth := by
  refine ⟨_, rfl, ?_⟩
  rw [Nat.min_eq_left (Nat.le_sub_one_of_lt h)]
  exact Int64.toInt_ofNat_of_lt h

/-- **The named fields of a stack are a register, a finite map and a counter.** Take any operations,
with any names and values, whether they fail or not.

* They all come to what they come to on the store, and leave the stack that is the store left there;
  the world is as it was. Every field then reads as it does on the store. A field other than the
  level has the value that it was last set to and that was not deleted since; without one the
  number of layers is read under its name, and nothing under any other. The level does not come
  among the other fields.
* An operation that fails leaves everything as it was.
* One on fields makes no difference to what a search finds, whichever world it is made in, nor to
  the size and the keys of the stack.
* The number of layers is read exactly, as long as it is a number of 63 bits. -/
theorem Dispatch.fields_refine_store (d : Dispatch κ σ) :
    (∀ edits f, ∃ stack,
      Edit.runAll d edits f =
        some (.ok (f.stack.store.run f.world.typeName edits).1, { f with stack }) ∧
      stack.store = (f.stack.store.run f.world.typeName edits).2 ∧
      (∀ name, stack.readField name = stack.store.read name) ∧
      (∀ name, name ≠ levelName → stack.readField name =
        match Edit.lastSet name (f.stack.fields.get? name) edits with
        | some value => .ok value
        | none =>
          if name = depthName then .ok stack.store.count
          else .error (.attributeNotFound "NamespaceStack" name)) ∧
      (f.stack.fields.get? levelName = none → stack.fields.get? levelName = none)) ∧
    (∀ edit f e f', Edit.run d edit f = some (.error e, f') → f' = f) ∧
    (∀ edit f r f', edit.OnFields → Edit.run d edit f = some (r, f') →
      f'.world = f.world ∧
      (∀ key, d.fetch f'.stack key = d.fetch f.stack key ∧
        d.contains f'.stack key = d.contains f.stack key) ∧
      ∀ w : World κ σ, w.size f'.stack = w.size f.stack ∧ w.keys f'.stack = w.keys f.stack) ∧
    ∀ st : Store, st.depth < 2 ^ 63 → ∃ n : Int64, st.count = .int n ∧ n.toInt = st.depth := by
  refine ⟨fun edits f => ?_, fun edit f e f' => Edit.eq_of_fails, ?_, fun st => Store.count_eq⟩
  · have hstore := Edit.store_afterAll f.world f.stack edits
    refine ⟨_, Edit.runAll_apply d edits f, hstore, fun name => (Stack.read_store _ name).symm,
      fun name hname => ?_, fun hfree => Edit.level_free_afterAll hfree f.world edits⟩
    have hlast : (edits.foldl (Edit.after f.world) f.stack).fields.get? name =
        Edit.lastSet name (f.stack.fields.get? name) edits := by
      have hlookup := Edit.lookup_run f.world.typeName f.stack.store edits ⟨name, hname⟩
      rw [← hstore] at hlookup
      exact ((Entries.lookup_fieldMap _ ⟨name, hname⟩).symm.trans hlookup).trans
        (congrArg (Edit.lastSet name · edits) (Entries.lookup_fieldMap _ ⟨name, hname⟩))
    rw [Stack.readField, if_neg hname, hlast]
    rfl
  · intro edit f r f' hedit hrun
    rw [Edit.run_apply] at hrun
    cases hrun
    have hlayers := hedit.layers_after f.world f.stack
    refine ⟨rfl, fun key => ⟨?_, ?_⟩, fun w => ⟨?_, ?_⟩⟩
    · simp only [Dispatch.fetch, hlayers]
    · simp only [Dispatch.contains, Dispatch.fetch, hlayers]
    · simp only [World.size, hlayers]
    · simp only [World.keys, hlayers]

/-- A stack with one layer. -/
def oneLayer : Frame Failure Unit := ⟨⟨{ host := () }, { layers := [.mapping ⟨0⟩] }⟩, {}⟩

/-- Operations of which the fourth, the fifth and the sixth fail. -/
def someEdits : List Edit :=
  [.setField "level" (.bool true), .setField "depth" (.str "x"), .deleteField "depth",
    .deleteField "gone", .pop 5, .setField "level" .none, .push (.mapping ⟨0⟩)]

/-- The truth value is the level, and the number of layers is read again. -/
theorem oneLayer_refines : ∃ stack : Stack Failure,
    Edit.runAll (failingHost.dispatch 0) someEdits oneLayer =
      some (.ok [.ok (), .ok (), .ok (), .error (.attributeNotFound "NamespaceStack" "gone"),
        .error (.underflow 5 1), .error (.typeMismatch "int" "none"), .ok ()],
        { oneLayer with stack }) ∧
    stack.readField "level" = .ok (.int 1) ∧ stack.readField "depth" = .ok (.int 2) ∧
    stack.fields.get? levelName = none ∧
    Edit.run (failingHost.dispatch 0) (.pop 5) oneLayer = some (.error (.underflow 5 1), oneLayer) ∧
    Edit.OnFields (.setLevel 7) ∧
    (∀ w : World Failure Unit, w.keys { oneLayer.stack with level := 7 } = w.keys oneLayer.stack) ∧
    ∃ n : Int64, stack.store.count = .int n ∧ n.toInt = 2 := by
  obtain ⟨hruns, hfails, hfields, hcount⟩ := (failingHost.dispatch 0).fields_refine_store
  obtain ⟨stack, hrun, hstore, hread, hlast, hfree⟩ := hruns someEdits oneLayer
  have hfinal : stack.store = ⟨1, ∅, 2⟩ := hstore.trans rfl
  have hdepth : stack.store.depth = 2 := by rw [hfinal]
  obtain ⟨f', hpop⟩ : ∃ f', Edit.run (failingHost.dispatch 0) (.pop 5) oneLayer =
      some (.error (.underflow 5 1), f') := ⟨_, rfl⟩
  obtain rfl := hfails _ _ _ _ hpop
  refine ⟨stack, hrun, ?_, ?_, hfree rfl, hpop, .setLevel 7, ?_, ?_⟩
  · rw [hread, hfinal]
    rfl
  · rw [hlast "depth" (by decide), hfinal]
    rfl
  · have hsame := hfields (.setLevel 7) oneLayer _ _ (.setLevel 7) rfl
    exact fun w => (hsame.2.2 w).2
  · obtain ⟨n, hn, hexact⟩ := hcount stack.store (by rw [hdepth]; decide)
    exact ⟨n, hn, by rw [hexact, hdepth]; rfl⟩

end LayeredScope
