import LayeredScope.Host.Answer

/-!
# Reads of views

A view answers from its memory, by the rule of reserved names, or by an attribute of its target.
Only the last of these leads anywhere else, and only there something is remembered.

* `World.ViewsKept` — views stay what they are, and keep remembering what they remember.
* `Dispatch.ViewReading` — the ways in which a read can end, each with the world that it leaves, and
  `Dispatch.viewGet_iff` — **there are no others**.
* `Dispatch.guardedRead_refused` — a name that the accessor refuses is not read.
-/

namespace LayeredScope

variable {κ σ α : Type}

namespace World

/-! ## Views in a world that changes -/

@[simp] theorem view?_record (w : World κ σ) (event : Event) (id : ObjectId) :
    (w.record event).view? id = w.view? id := rfl

theorem lt_of_view? {w : World κ σ} {id : ObjectId} {v : ObjectView κ} (h : w.view? id = some v) :
    id.index < w.objects.size := by
  rcases Nat.lt_or_ge id.index w.objects.size with hlt | hle
  · exact hlt
  · rw [view?_eq_some, object_of_le hle] at h
    cases h

theorem view?_newObject_of_some {w : World κ σ} {id : ObjectId} {v : ObjectView κ}
    (h : w.view? id = some v) (o : Object κ) : (w.newObject o).2.view? id = some v := by
  have hlt := lt_of_view? h
  rw [view?_eq_some] at h ⊢
  rw [object_newObject, if_neg (by omega), h]

theorem of_view?_newObject {w : World κ σ} {id : ObjectId} {v : ObjectView κ} {o : Object κ}
    (h : (w.newObject o).2.view? id = some v) :
    w.view? id = some v ∨ w.objects.size ≤ id.index ∧ o = .view v := by
  rw [view?_eq_some, object_newObject] at h
  split at h
  · rename_i hnew
    exact .inr ⟨by omega, h⟩
  · exact .inl (view?_eq_some.mpr h)

/-- What a view remembers is all that remembering changes. -/
theorem view?_remember {w : World κ σ} {id : ObjectId} {v : ObjectView κ} (h : w.view? id = some v)
    (key : String) (value : Value) (other : ObjectId) :
    (w.remember id key value).view? other =
      if other = id then some { v with memory := v.memory.insert key value }
      else w.view? other := by
  have hobject := view?_eq_some.mp h
  have hremember : w.remember id key value =
      w.setObject id (.view { v with memory := v.memory.insert key value }) := by
    unfold remember
    rw [hobject]
  unfold view?
  rw [hremember, object_setObject (lt_of_view? h)]
  by_cases hother : other = id
  · rw [if_pos hother, if_pos hother]
  · rw [if_neg hother, if_neg hother]

@[simp] theorem journal_remember (w : World κ σ) (id : ObjectId) (key : String) (value : Value) :
    (w.remember id key value).journal = w.journal := by
  unfold remember
  split <;> rfl

/-- Every view is still there, presents the same value by the same rules, and remembers every key
that it remembered. -/
def ViewsKept (w w' : World κ σ) : Prop :=
  ∀ id v, w.view? id = some v → ∃ memory, w'.view? id = some { v with memory } ∧
    ∀ key, (v.memory.get? key).isSome → (memory.get? key).isSome

namespace ViewsKept

variable {w w' w'' : World κ σ}

theorem of_view? (h : ∀ id, w'.view? id = w.view? id) : w.ViewsKept w' := by
  intro id v hv
  exact ⟨v.memory, by rw [h, hv], fun _ hkey => hkey⟩

theorem refl (w : World κ σ) : w.ViewsKept w := of_view? fun _ => rfl

theorem trans (h : w.ViewsKept w') (h' : w'.ViewsKept w'') : w.ViewsKept w'' := by
  intro id v hv
  obtain ⟨memory, hv', hmemory⟩ := h id v hv
  obtain ⟨memory', hv'', hmemory'⟩ := h' id _ hv'
  exact ⟨memory', hv'', fun key hkey => hmemory' key (hmemory key hkey)⟩

theorem newObject (w : World κ σ) (o : Object κ) : w.ViewsKept (w.newObject o).2 := by
  intro id v hv
  exact ⟨v.memory, view?_newObject_of_some hv o, fun _ hkey => hkey⟩

theorem remember {id : ObjectId} {v : ObjectView κ} (h : w.view? id = some v) (key : String)
    (value : Value) : w.ViewsKept (w.remember id key value) := by
  intro other u hu
  rw [view?_remember h]
  by_cases hother : other = id
  · subst hother
    cases h.symm.trans hu
    refine ⟨_, if_pos rfl, fun k hk => ?_⟩
    rw [Entries.get?_insert]
    split
    · rfl
    · exact hk
  · exact ⟨u.memory, by rw [if_neg hother, hu], fun _ hk => hk⟩

end ViewsKept

end World

/-! ## How a read ends -/

/-- The accessor refuses the name. -/
def Accessor.Refuses (name : String) : Option (Accessor κ) → Prop
  | some (.deny names) => names.contains name = true
  | _ => False

/-- The accessor reads the name plainly, whatever other names it refuses. -/
inductive Accessor.ReadsPlainly (name : String) : Option (Accessor κ) → List String → Prop
  | unguarded : ReadsPlainly name none []
  | allowed {names : Entries Unit} (h : names.contains name = false) :
      ReadsPlainly name (some (.deny names)) names.keys

/-- A view that is asked for the key has to read it as an attribute of its target, and reads it
plainly. -/
def World.ReadsThrough (w : World κ σ) (view : ObjectId) (key : String) (target : Value)
    (refused : List String) : Prop :=
  ∃ v, w.view? view = some v ∧ v.target = target ∧ v.memory.get? key = none ∧
    v.reserved.kindOf key = .visible ∧ Accessor.ReadsPlainly key v.accessor refused

/-- The failure of a read that is refused. -/
def World.denial (w : World κ σ) (target : Value) (name : String) : Failure :=
  .policyDenial name s!"'{name}' is not accessible on '{w.typeName target}'"

/-- What a view answers for a name that its accessor refuses. -/
def ObjectView.withheld (v : ObjectView κ) (w : World κ σ) (name : String) :
    Except Failure (Option Value) :=
  match v.reserved.kindOf name with
  | .visible => .error (w.denial v.target name)
  | .hidden => .ok none
  | .text => .ok (some (.str (w.display v.target)))

namespace Dispatch

variable {d e : Dispatch κ σ}

/-- Nothing is called for a name that the accessor refuses, and nothing happens. -/
theorem guardedRead_refused {accessor : Option (Accessor κ)} {name : String}
    (h : Accessor.Refuses name accessor) (target : Value) (w : World κ σ) :
    d.guardedRead accessor target name w = some (.error (w.denial target name), w) := by
  cases accessor with
  | none => cases h
  | some a =>
    cases a with
    | custom code => cases h
    | deny names =>
      have hname : names.contains name = true := h
      unfold Dispatch.guardedRead
      dsimp only
      rw [if_pos hname]
      rfl

/-- A name that is read plainly is asked of the target, once that is noted. -/
theorem guardedRead_plain {accessor : Option (Accessor κ)} {name : String} {refused : List String}
    (h : Accessor.ReadsPlainly name accessor refused) (target : Value) (w : World κ σ) :
    d.guardedRead accessor target name w =
      d.readAttr target name (w.record (.read target name refused)) := by
  cases h with
  | unguarded => rfl
  | allowed h =>
    unfold Dispatch.guardedRead
    dsimp only
    rw [h]
    rfl

/-- The outcome of a read whose attribute cannot be had: an absent one is a miss. -/
def missOr (e : Failure) : Except Failure (Option Value) :=
  if e.isAbsence then .ok none else .error e

theorem missOr_ne_found (e : Failure) (value : Value) : missOr e ≠ .ok (some value) := by
  unfold missOr
  split <;> exact nofun

/-- A read of a key through a view: the outcome and the world that is left. -/
inductive ViewReading (d : Dispatch κ σ) (id : ObjectId) (key : String) (w : World κ σ) :
    Except Failure (Option Value) → World κ σ → Prop
  /-- There is no such view. -/
  | absent (hview : w.view? id = none) : ViewReading d id key w (.ok none) w
  | remembered {v : ObjectView κ} {value : Value} (hview : w.view? id = some v)
      (hmemory : v.memory.get? key = some value) :
      ViewReading d id key w (.ok (some value))
        ((w.record (.asked id key)).record (.answered id key (.ok (some value))))
  | text {v : ObjectView κ} (hview : w.view? id = some v) (hmemory : v.memory.get? key = none)
      (hkind : v.reserved.kindOf key = .text) :
      ViewReading d id key w (.ok (some (.str (w.display v.target))))
        ((w.record (.asked id key)).record
          (.answered id key (.ok (some (.str (w.display v.target))))))
  | hidden {v : ObjectView κ} (hview : w.view? id = some v) (hmemory : v.memory.get? key = none)
      (hkind : v.reserved.kindOf key = .hidden) :
      ViewReading d id key w (.ok none)
        ((w.record (.asked id key)).record (.answered id key (.ok none)))
  | resolved {v : ObjectView κ} {value : Value} {w₁ : World κ σ} (hview : w.view? id = some v)
      (hmemory : v.memory.get? key = none) (hkind : v.reserved.kindOf key = .visible)
      (hread : d.guardedRead v.accessor v.target key (w.record (.asked id key)) =
        some (.ok value, w₁)) :
      ViewReading d id key w (.ok (some value))
        (((w₁.record (.resolved id key value)).remember id key value).record
          (.answered id key (.ok (some value))))
  | unresolved {v : ObjectView κ} {cause : Failure} {w₁ : World κ σ} (hview : w.view? id = some v)
      (hmemory : v.memory.get? key = none) (hkind : v.reserved.kindOf key = .visible)
      (hread : d.guardedRead v.accessor v.target key (w.record (.asked id key)) =
        some (.error cause, w₁)) :
      ViewReading d id key w (missOr cause) (w₁.record (.answered id key (missOr cause)))

/-- An attribute that is read decides the answer of the view. -/
theorem viewRead_apply (id : ObjectId) {v : ObjectView κ} {key : String} {w w₁ : World κ σ}
    {r : Except Failure Value}
    (h : d.guardedRead v.accessor v.target key w = some (r, w₁)) :
    d.viewRead id v key w =
      match r with
      | .ok value =>
        some (.ok (some value), (w₁.record (.resolved id key value)).remember id key value)
      | .error cause => some (missOr cause, w₁) := by
  unfold Dispatch.viewRead missOr
  rw [Run.bind_ok (Run.attempt_eq h)]
  cases r with
  | ok value => rfl
  | error cause =>
    dsimp only
    split <;> rfl

theorem inRead_apply {id : ObjectId} {key : String} {x : Run (World κ σ) (Option Value)}
    {w w₁ : World κ σ} {r : Except Failure (Option Value)}
    (h : x (w.record (.asked id key)) = some (r, w₁)) :
    inRead id key x w = some (r, w₁.record (.answered id key r)) := by
  unfold inRead
  rw [h]

theorem viewGet_of_view? {id : ObjectId} {v : ObjectView κ} {w : World κ σ}
    (hview : w.view? id = some v) (key : String) :
    d.viewGet id key w = inRead id key (d.viewAnswer id v key) w := by
  unfold Dispatch.viewGet
  rw [Run.bind_ok (Run.get_apply w)]
  rw [hview]

theorem viewGet_of_absent {id : ObjectId} {w : World κ σ} (hview : w.view? id = none)
    (key : String) : d.viewGet id key w = some (.ok none, w) := by
  unfold Dispatch.viewGet
  rw [Run.bind_ok (Run.get_apply w)]
  rw [hview]
  rfl

theorem ViewReading.of_viewGet {id : ObjectId} {key : String} {w w' : World κ σ}
    {r : Except Failure (Option Value)} (h : d.viewGet id key w = some (r, w')) :
    d.ViewReading id key w r w' := by
  cases hview : w.view? id with
  | none =>
    rw [viewGet_of_absent hview] at h
    cases h
    exact .absent hview
  | some v =>
    rw [viewGet_of_view? hview] at h
    unfold Dispatch.viewAnswer at h
    cases hmemory : v.memory.get? key with
    | some value =>
      rw [hmemory] at h
      cases h
      exact .remembered hview hmemory
    | none =>
      rw [hmemory] at h
      cases hkind : v.reserved.kindOf key with
      | text =>
        rw [hkind] at h
        cases h
        dsimp only
        rw [World.display_record]
        exact .text hview hmemory hkind
      | hidden =>
        rw [hkind] at h
        cases h
        exact .hidden hview hmemory hkind
      | visible =>
        rw [hkind] at h
        dsimp only at h
        cases hread : d.guardedRead v.accessor v.target key (w.record (.asked id key)) with
        | none =>
          unfold inRead Dispatch.viewRead at h
          rw [Run.bind_unfinished (by unfold Run.attempt; rw [hread])] at h
          cases h
        | some p =>
          obtain ⟨r₁, w₁⟩ := p
          have hanswer := viewRead_apply id hread
          cases r₁ with
          | ok value =>
            rw [inRead_apply hanswer] at h
            cases h
            exact .resolved hview hmemory hkind hread
          | error cause =>
            rw [inRead_apply hanswer] at h
            cases h
            exact .unresolved hview hmemory hkind hread

theorem ViewReading.viewGet_eq {id : ObjectId} {key : String} {w w' : World κ σ}
    {r : Except Failure (Option Value)} (h : d.ViewReading id key w r w') :
    d.viewGet id key w = some (r, w') := by
  cases h with
  | absent hview => exact viewGet_of_absent hview key
  | remembered hview hmemory =>
    rw [viewGet_of_view? hview]
    refine inRead_apply ?_
    unfold Dispatch.viewAnswer
    rw [hmemory]
    rfl
  | text hview hmemory hkind =>
    rw [viewGet_of_view? hview]
    refine inRead_apply ?_
    unfold Dispatch.viewAnswer
    rw [hmemory, hkind]
    dsimp only
    rw [Run.gets_apply, World.display_record]
  | hidden hview hmemory hkind =>
    rw [viewGet_of_view? hview]
    refine inRead_apply ?_
    unfold Dispatch.viewAnswer
    rw [hmemory, hkind]
    rfl
  | resolved hview hmemory hkind hread =>
    rw [viewGet_of_view? hview]
    refine inRead_apply ?_
    unfold Dispatch.viewAnswer
    rw [hmemory, hkind]
    exact viewRead_apply id hread
  | unresolved hview hmemory hkind hread =>
    rw [viewGet_of_view? hview]
    refine inRead_apply ?_
    unfold Dispatch.viewAnswer
    rw [hmemory, hkind]
    exact viewRead_apply id hread

/-- A view hands on the failure of the attribute that it reads, unless the attribute is absent. -/
theorem viewGet_failure {view : ObjectId} {key : String} {target : Value} {refused : List String}
    {w w₁ : World κ σ} {cause : Failure} (h : w.ReadsThrough view key target refused)
    (hread :
      d.readAttr target key ((w.record (.asked view key)).record (.read target key refused)) =
      some (.error cause, w₁)) (hpresent : cause.isAbsence = false) :
    d.viewGet view key w = some (.error cause, w₁.record (.answered view key (.error cause))) := by
  obtain ⟨v, hview, rfl, hmemory, hkind, hplain⟩ := h
  rw [← guardedRead_plain hplain] at hread
  have hreading := ViewReading.unresolved hview hmemory hkind hread
  have hmiss : missOr cause = .error cause := by
    unfold missOr
    rw [hpresent]
    rfl
  rw [hmiss] at hreading
  exact hreading.viewGet_eq

/-- **These are the ways in which a read of a view can end.** -/
theorem viewGet_iff {id : ObjectId} {key : String} {w w' : World κ σ}
    {r : Except Failure (Option Value)} :
    d.viewGet id key w = some (r, w') ↔ d.ViewReading id key w r w' :=
  ⟨.of_viewGet, fun h => h.viewGet_eq⟩

end Dispatch

end LayeredScope
