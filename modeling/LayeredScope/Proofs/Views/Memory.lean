import LayeredScope.Proofs.Views.Journal

/-!
# What views remember

A view looks into its memory before it looks at the kind of a key, and asks for nothing in between.
That this is safe rests on what is in the memory, and so on every read that was made before, also on
those that were made while another read of the same view was under way.

* `World.MemoryKept` — memories hold visible keys only, each with a value that was read through the
  accessor of that view; no key that entered has left; hidden keys and the text key are answered
  without asking anyone; and a read in whose course the view is not asked again remembers at most
  the attribute that it found.
* `Host.memory_invariant` — **it is so throughout every run.**
-/

namespace LayeredScope

variable {κ σ α : Type}

/-- How the views of a world keep their memories. -/
structure World.MemoryKept (h : Host κ σ) (w : World κ σ) : Prop where
  /-- What is remembered is visible, and was read through the accessor of the view. -/
  sound : ∀ id v key value, w.view? id = some v → v.memory.get? key = some value →
    v.reserved.kindOf key = .visible ∧
    ∃ told later, h.ReadAs id v key value told ∧
      w.journal = later ++ .resolved id key value :: told
  /-- Every key that was ever resolved is still there. -/
  entered : ∀ id key value, .resolved id key value ∈ w.journal →
    ∃ v, w.view? id = some v ∧ (v.memory.get? key).isSome
  /-- No key leaves, whatever is run from here. -/
  lasting : ∀ (α : Type) fuel (x : Script κ σ α) stack guard r f,
    x.run (h.dispatch fuel) ⟨⟨w, stack⟩, guard⟩ = some (r, f) → w.ViewsKept f.world
  /-- A hidden key is missing, and no call is made. -/
  hidden : ∀ (d : Dispatch κ σ) id v key, w.view? id = some v → v.reserved.kindOf key = .hidden →
    d.viewGet id key w =
      some (.ok none, (w.record (.asked id key)).record (.answered id key (.ok none)))
  /-- The text key is answered with the text that the target has now, and no call is made. -/
  text : ∀ (d : Dispatch κ σ) id v key, w.view? id = some v → v.reserved.kindOf key = .text →
    d.viewGet id key w =
      some (.ok (some (.str (w.display v.target))), (w.record (.asked id key)).record
        (.answered id key (.ok (some (.str (w.display v.target))))))
  /-- A read beyond the memory, during which the view is not asked again, remembers what was read
  through the accessor under this key, or nothing. -/
  undisturbed : ∀ fuel id v key r w', w.view? id = some v → v.memory.get? key = none →
    (h.dispatch fuel).viewGet id key w = some (r, w') →
    ∃ during, w'.journal = .answered id key r :: (during ++ .asked id key :: w.journal) ∧
      ((∀ k, .asked id k ∉ during) →
        w'.view? id = some v ∨
        ∃ value w₁, r = .ok (some value) ∧ v.reserved.kindOf key = .visible ∧
          (h.dispatch fuel).guardedRead v.accessor v.target key (w.record (.asked id key)) =
            some (.ok value, w₁) ∧
          w'.view? id = some { v with memory := v.memory.insert key value })

namespace World

variable {h : Host κ σ} {w : World κ σ} {id : ObjectId} {v : ObjectView κ} {key : String}

/-- A view that was not asked again while its target was read remembers what it did. -/
theorem Midway.view?_eq {w₁ : World κ σ} {during : List Event} (hmid : w.Midway h id v key w₁)
    (hw : w.Accounted h) (hview : w.view? id = some v)
    (hjournal : w₁.journal = during ++ .asked id key :: w.journal)
    (hclosed : Event.Closed during) (halone : ∀ k, .asked id k ∉ during) :
    w₁.view? id = some v := by
  obtain ⟨memory, hview₁⟩ := hmid.view
  have hsame : memory = v.memory := by
    refine Entries.ext_get? fun k => ?_
    have hnone : ∀ value, .resolved id k value ∉ during :=
      fun value hmem => halone k (hclosed.asked id k value hmem)
    calc memory.get? k
        = Event.resolvedTo id k w₁.journal := hmid.accounted.recalled id _ k hview₁
      _ = Event.resolvedTo id k w.journal := by
          rw [hjournal, Event.resolvedTo_append_of_not_mem hnone]
          rfl
      _ = v.memory.get? k := (hw.recalled id v k hview).symm
  rw [hview₁, hsame]

namespace Accounted

/-- What is not visible is not remembered. -/
theorem memory_eq_none (hw : w.Accounted h) (hview : w.view? id = some v)
    (hkind : v.reserved.kindOf key ≠ .visible) : v.memory.get? key = none := by
  rw [hw.recalled id v key hview]
  cases hlast : Event.resolvedTo id key w.journal with
  | none => rfl
  | some value =>
    obtain ⟨v', _, _, hview', hvisible, -⟩ := hw.told.of_resolvedTo hlast
    cases hview.symm.trans hview'
    exact absurd hvisible hkind

theorem lasting (hw : w.Accounted h) (fuel : Nat) {x : Script κ σ α} {f f' : Frame κ σ}
    {r : Except Failure α} (hf : f.world = w) (hx : x.run (h.dispatch fuel) f = some (r, f')) :
    w.ViewsKept f'.world := by
  subst hf
  have hrun := Law.leads (Law.views_library h f.world) (Law.views_reads h f.world) fuel
    ⟨hw, .refl f.world⟩ hx
  exact hrun.2.1.views

theorem undisturbed (hw : w.Accounted h) {fuel : Nat} {r : Except Failure (Option Value)}
    {w' : World κ σ} (hview : w.view? id = some v) (hmemory : v.memory.get? key = none)
    (hx : (h.dispatch fuel).viewGet id key w = some (r, w')) :
    ∃ during, w'.journal = .answered id key r :: (during ++ .asked id key :: w.journal) ∧
      ((∀ k, .asked id k ∉ during) →
        w'.view? id = some v ∨
        ∃ value w₁, r = .ok (some value) ∧ v.reserved.kindOf key = .visible ∧
          (h.dispatch fuel).guardedRead v.accessor v.target key (w.record (.asked id key)) =
            some (.ok value, w₁) ∧
          w'.view? id = some { v with memory := v.memory.insert key value }) := by
  have hcalls := h.dispatch_keeps (Law.views_library h w).everywhere
    (Law.views h w).everywhere_onAnyStack (fun _ hw => hw) "" (Law.views_reads h w) fuel
  have hstart : (Law.views h w).Holds w := ⟨hw, .refl w⟩
  cases Dispatch.viewGet_iff.mp hx with
  | absent habsent => rw [habsent] at hview; cases hview
  | remembered hview' hmemory' =>
    cases hview.symm.trans hview'
    rw [hmemory] at hmemory'
    cases hmemory'
  | text hview' => exact ⟨[], rfl, fun _ => .inl hview⟩
  | hidden hview' => exact ⟨[], rfl, fun _ => .inl hview⟩
  | @resolved _ value w₁ hview' _ hkind hread =>
    cases hview.symm.trans hview'
    obtain ⟨-, hmid⟩ := hcalls.midway hstart hview hmemory hread
    obtain ⟨during, hjournal, hclosed⟩ := hmid.journal
    refine ⟨.resolved id key value :: during, ?_,
      fun halone => .inr ⟨value, w₁, rfl, hkind, hread, ?_⟩⟩
    · show _ :: (World.remember _ id key value).journal = _
      rw [World.journal_remember]
      show _ :: .resolved id key value :: w₁.journal = _
      rw [hjournal]
      rfl
    · have hview₁ := hmid.view?_eq hw hview hjournal hclosed
        fun k hmem => halone k (List.mem_cons_of_mem _ hmem)
      have hnoted : (w₁.record (.resolved id key value)).view? id = some v := hview₁
      rw [World.view?_record, World.view?_remember hnoted, if_pos rfl]
  | @unresolved _ cause w₁ hview' _ _ hread =>
    cases hview.symm.trans hview'
    obtain ⟨-, hmid⟩ := hcalls.midway hstart hview hmemory hread
    obtain ⟨during, hjournal, hclosed⟩ := hmid.journal
    refine ⟨during, ?_, fun halone => .inl (hmid.view?_eq hw hview hjournal hclosed halone)⟩
    show _ :: w₁.journal = _
    rw [hjournal]

/-- The accounts say how memories are kept. -/
theorem memoryKept (hw : w.Accounted h) : w.MemoryKept h where
  sound id v key value hview hmemory := by
    rw [hw.recalled id v key hview] at hmemory
    obtain ⟨v', told, later, hview', hkind, hread, hjournal⟩ := hw.told.of_resolvedTo hmemory
    cases hview.symm.trans hview'
    exact ⟨hkind, told, later, hread, hjournal⟩
  entered id key value hmem := by
    obtain ⟨later, earlier, hjournal⟩ := List.append_of_mem hmem
    have htold := hw.told
    rw [hjournal] at htold
    obtain ⟨v, hview, -⟩ := htold.at_event.2
    refine ⟨v, hview, ?_⟩
    rw [hw.recalled id v key hview, hjournal]
    refine Event.resolvedTo_append_isSome ?_ later
    simp [Event.resolvedTo]
  lasting _ fuel _ _ _ _ _ hx := hw.lasting fuel rfl hx
  hidden d id v key hview hkind :=
    (Dispatch.ViewReading.hidden hview (hw.memory_eq_none hview (by simp [hkind]))
      hkind).viewGet_eq
  text d id v key hview hkind :=
    (Dispatch.ViewReading.text hview (hw.memory_eq_none hview (by simp [hkind]))
      hkind).viewGet_eq
  undisturbed _ _ _ _ _ _ hview hmemory hx := hw.undisturbed hview hmemory hx

end Accounted

end World

/-! ## Main theorem -/

/-- **How memories are kept.** Let any program of any host be run where nothing has been remembered
yet. At its end, and at every moment at which the host's code is at a step meanwhile, be it inside
reads that are under way: memories hold visible keys only, with values that were read through the
accessor of the same view; no key that entered a memory has left it; hidden keys are missing, and
the text key is answered with the target's text of the moment, without asking anyone; and a read
beyond the memory, in whose course the view is not asked again, adds the key with what the accessor
answered, or changes nothing. -/
theorem Host.memory_invariant (h : Host κ σ) (fuel : Nat) (x : Script κ σ α) (f : Frame κ σ)
    (hf : f.world.Fresh) :
    x.Throughout h fuel f fun w => w.MemoryKept h ∧ f.world.ViewsKept w :=
  Law.throughout (Law.views_library h f.world) (Law.views_reads h f.world)
    (fun _ hw => ⟨hw.1.memoryKept, hw.2⟩) fuel x ⟨hf.accounted h, .refl f.world⟩

/-- A host whose accessor asks the view for the same key again before it answers, but only once. -/
def askingHost : Host Unit Bool where
  readAttr _ _ := .answer .none
  readItem _ _ := .answer none
  call _ := .answer .none
  apply _ _ := .answer .none
  hook _ := .answer none
  access _ _ name := .look fun frame =>
    if frame.world.host then .answer (.int 1)
    else .keep true (.ask (.viewGet ⟨0⟩ name) fun _ => .answer (.int 2))
  evaluate _ := .answer .none

/-- A view that is read through that accessor. -/
def askedWorld : World Unit Bool where
  objects :=
    #[.view { target := .none, accessor := some (.custom ()), reserved := {}, memory := ∅ }]
  host := false

theorem askedWorld_fresh : askedWorld.Fresh := by
  refine ⟨rfl, fun id v hview => ?_⟩
  have hlt : id.index < 1 := World.lt_of_view? hview
  obtain ⟨index⟩ := id
  obtain rfl : index = 0 := by simpa using hlt
  cases hview
  rfl

/-- The inner read is answered first and remembered, the outer one is remembered over it; and both
were read through the accessor. -/
theorem askedWorld_memory :
    askedWorld.Fresh ∧
    ∃ f', (Script.request (.viewGet ⟨0⟩ "x")).run (askingHost.dispatch 2)
        ⟨⟨askedWorld, {}⟩, {}⟩ = some (.ok (some (.int 2)), f') ∧
      f'.world.MemoryKept askingHost ∧ askedWorld.ViewsKept f'.world ∧
      (f'.world.view? ⟨0⟩).map (·.memory.get? "x") = some (some (.int 2)) := by
  have hends : ((Script.request (.viewGet ⟨0⟩ "x")).run (askingHost.dispatch 2)
      ⟨⟨askedWorld, {}⟩, {}⟩).map
        (Prod.map (fun r => r) fun f => (f.world.view? ⟨0⟩).map (·.memory.get? "x")) =
          some (.ok (some (.int 2)), some (some (.int 2))) := by cbv
  obtain ⟨⟨r, f'⟩, hrun, hresult⟩ := Option.map_eq_some_iff.mp hends
  obtain ⟨rfl, hremembered⟩ := Prod.mk.inj hresult
  have hkept := askingHost.memory_invariant 2 (Script.request (.viewGet ⟨0⟩ "x"))
    ⟨⟨askedWorld, {}⟩, {}⟩ askedWorld_fresh
  obtain ⟨hmemory, hviews⟩ := (hkept _ f' hrun).1
  exact ⟨askedWorld_fresh, f', hrun, hmemory, hviews, hremembered⟩

end LayeredScope
