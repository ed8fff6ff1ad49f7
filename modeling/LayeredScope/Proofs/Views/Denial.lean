import LayeredScope.Proofs.BodyScope
import LayeredScope.Proofs.Views.InCharge
import LayeredScope.Proofs.Views.Memory

/-!
# Names that are refused

An accessor can refuse some names. It is handed from a stack to the views that are made on it, to
the stacks that are spawned from it, to the bodies of the templates that are rendered on it, and to
the stacks of bundles; and each of them keeps it.

* `Dispatch.without` — the same calls, but that refused attributes are never answered. A read that
  comes out the same does not ask for them.
* `World.Withholds` — in a world no refused name was read, and views with the accessor never gave
  one away, nor do they now: the key is refused, or missing, or the text.
* `Session.HandsOn` — what is made on a stack has the accessor of the stack. The blocks of a
  template are rendered under it, and so are the views of its client.
* `Host.denied_never_read` — **refused names are never read**, in any run, and by nothing to which
  the accessor was handed on.
-/

namespace LayeredScope

variable {κ σ α : Type}

/-! ## Reads through the accessor -/

/-- The same calls, but that a call for one of these attributes does not end. -/
def Dispatch.without (d : Dispatch κ σ) (names : Entries Unit) : Dispatch κ σ :=
  { d with
    readAttr := fun v name => if names.contains name then Run.unfinished else d.readAttr v name }

namespace Dispatch

variable (d : Dispatch κ σ) {names : Entries Unit}

/-- The accessor does not call for the names that it refuses. -/
theorem guardedRead_without (names : Entries Unit) (target : Value) (name : String) :
    (d.without names).guardedRead (some (.deny names)) target name =
      d.guardedRead (some (.deny names)) target name := by
  by_cases hname : names.contains name = true
  · simp only [Dispatch.guardedRead, if_pos hname]
  · simp only [Dispatch.guardedRead, Dispatch.plainRead, Dispatch.without, if_neg hname]

theorem readOr_without {s : Stack κ} (hs : s.accessor = some (.deny names)) (target : Value)
    (name : String) (default : Option Value) :
    (d.without names).readOr s target name default = d.readOr s target name default := by
  unfold Dispatch.readOr
  rw [hs, d.guardedRead_without names target name]

theorem canRead_without {s : Stack κ} (hs : s.accessor = some (.deny names)) (target : Value)
    (name : String) : (d.without names).canRead s target name = d.canRead s target name := by
  unfold Dispatch.canRead
  rw [hs, d.guardedRead_without names target name]

theorem viewGet_without {w : World κ σ} {id : ObjectId} {v : ObjectView κ}
    (hview : w.view? id = some v) (hv : v.accessor = some (.deny names)) (key : String) :
    (d.without names).viewGet id key w = d.viewGet id key w := by
  rw [viewGet_of_view? hview, viewGet_of_view? hview]
  unfold Dispatch.viewAnswer Dispatch.viewRead
  rw [hv, d.guardedRead_without names v.target key]

/-- A refused name cannot be had with a default either. -/
theorem readOr_refused {s : Stack κ} {name : String} (h : Accessor.Refuses name s.accessor)
    (target : Value) (default : Option Value) (w : World κ σ) :
    d.readOr s target name default w = some (.error (w.denial target name), w) := by
  unfold Dispatch.readOr
  rw [Run.bind_ok (Run.attempt_eq (guardedRead_refused h target w))]
  cases default <;> rfl

theorem canRead_refused {s : Stack κ} {name : String} (h : Accessor.Refuses name s.accessor)
    (target : Value) (w : World κ σ) : d.canRead s target name w = some (.ok false, w) := by
  unfold Dispatch.canRead
  rw [Run.bind_ok (Run.attempt_eq (guardedRead_refused h target w))]
  rfl

end Dispatch

/-! ## Views with the accessor -/

/-- No refused name was read, and no view whose accessor refuses these names gives one away. -/
structure World.Withholds (names : Entries Unit) (w : World κ σ) : Prop where
  /-- Of all the plain reads that were made, none was of a name that the accessor in
  charge refuses. -/
  unread : ∀ target name refused, .read target name refused ∈ w.journal → name ∉ refused
  /-- Every answer that such a view ever gave for a refused name withheld it. -/
  unanswered : ∀ id v name outcome, w.view? id = some v → v.accessor = some (.deny names) →
    names.contains name = true → .answered id name outcome ∈ w.journal →
    ∃ w₀ : World κ σ, outcome = v.withheld w₀ name
  forgotten : ∀ id v name, w.view? id = some v → v.accessor = some (.deny names) →
    names.contains name = true → v.memory.get? name = none
  /-- The answer is the same for all calls, and none is made. -/
  withheld : ∀ (d : Dispatch κ σ) id v name, w.view? id = some v →
    v.accessor = some (.deny names) → names.contains name = true →
    d.viewGet id name w = some (v.withheld w name,
      (w.record (.asked id name)).record (.answered id name (v.withheld w name)))
  /-- For no other key a refused attribute is called for either. -/
  uncalled : ∀ (d : Dispatch κ σ) id v key, w.view? id = some v →
    v.accessor = some (.deny names) → (d.without names).viewGet id key w = d.viewGet id key w

namespace World.Accounted

variable {h : Host κ σ} {w : World κ σ} {id : ObjectId} {v : ObjectView κ} {name : String}

/-- A view answers for a refused name without a call. -/
theorem viewGet_refused (hw : w.Accounted h) (d : Dispatch κ σ) (hview : w.view? id = some v)
    (hrefused : Accessor.Refuses name v.accessor) :
    d.viewGet id name w = some (v.withheld w name,
      (w.record (.asked id name)).record (.answered id name (v.withheld w name))) := by
  have hmemory := hw.memory_refused hview hrefused
  unfold ObjectView.withheld
  cases hkind : v.reserved.kindOf name with
  | text => exact (Dispatch.ViewReading.text hview hmemory hkind).viewGet_eq
  | hidden => exact (Dispatch.ViewReading.hidden hview hmemory hkind).viewGet_eq
  | visible =>
    exact (Dispatch.ViewReading.unresolved hview hmemory hkind
      (Dispatch.guardedRead_refused hrefused v.target (w.record (.asked id name)))).viewGet_eq

theorem withholds (hw : w.Accounted h) (names : Entries Unit) : w.Withholds names where
  unread target name refused hmem := by
    obtain ⟨later, earlier, hjournal⟩ := List.append_of_mem hmem
    have htold := hw.told
    rw [hjournal] at htold
    exact htold.at_event.2
  unanswered id v name outcome hview hv hname hmem := by
    obtain ⟨later, earlier, hjournal⟩ := List.append_of_mem hmem
    have htold := hw.told
    rw [hjournal] at htold
    obtain ⟨v', hview', -, -, hwithheld⟩ := htold.at_event.2
    cases hview.symm.trans hview'
    exact hwithheld (by rw [hv]; exact hname)
  forgotten id v name hview hv hname :=
    hw.memory_refused hview (by rw [hv]; exact hname)
  withheld d id v name hview hv hname :=
    hw.viewGet_refused d hview (by rw [hv]; exact hname)
  uncalled d id v key hview hv := d.viewGet_without hview hv key

end World.Accounted

/-! ## What is made on a stack -/

/-- What is made on the stack of a session has the accessor of that stack. -/
structure Session.HandsOn (s : Session κ σ) : Prop where
  spawn : s.stack.spawn.accessor = s.stack.accessor
  view : ∀ target id s', viewOf target s = some (.ok id, s') →
    ∃ v, s'.world.view? id = some v ∧ v.target = target ∧ v.accessor = s.stack.accessor
  /-- A template that is not refused renders its blocks in a session that begins with the accessor
  of the stack, whatever the settings of the template; and so do the views of its client, which are
  all the views that are new. -/
  body : ∀ (t : Template κ) client keywords, ¬ t.nestingLimit < s.stack.level →
    ∃ (b : Session κ σ) (finish : Session κ σ → Session κ σ),
      (∀ d : Dispatch κ σ, d.renderNested t client keywords s =
        (d.renderAll t.blocks b).map fun p => (p.1, finish p.2)) ∧
      t.Begins client keywords ⟨s.world, s.stack.push (.mapping t.globals)⟩ b ∧
      b.stack.accessor = s.stack.accessor ∧
      ∀ id v, b.world.view? id = some v → s.world.view? id = some v ∨
        v.target ∈ clientTargets client ∧ v.accessor = s.stack.accessor ∧ v.memory = ∅
  /-- A template that is refused renders nothing. -/
  refused : ∀ (t : Template κ) client keywords, t.nestingLimit < s.stack.level →
    ∀ d : Dispatch κ σ, d.renderNested t client keywords s =
      some (.error (.recursionLimit t.nestingLimit), s)
  bundle : ∀ positional keywords (i : Nat) stack,
    (s.bundle positional keywords).2.world.enclosures[i]? = some (.idle stack) →
    s.world.enclosures[i]? = some (.idle stack) ∨ stack.accessor = s.stack.accessor

theorem Session.handsOn (s : Session κ σ) : s.HandsOn where
  spawn := rfl
  view target id s' hx := by
    cases hx
    refine ⟨⟨target, s.stack.accessor, s.stack.reserved, ∅⟩, ?_, rfl, rfl⟩
    rw [World.view?_eq_some]
    exact (World.object_newObject s.world _ _).trans (if_pos rfl)
  body t client keywords h := by
    obtain ⟨b, finish, hbegins, hbody⟩ := Dispatch.renderNested_begins h client keywords
    refine ⟨b, finish, hbody, hbegins, ?_, fun id v hv => ?_⟩
    · rw [hbegins.stack]
      rfl
    · rcases hbegins.views.of_view? hv with hold | ⟨target, hmem, rfl⟩
      · exact .inl hold
      · exact .inr ⟨hmem, rfl, rfl⟩
  refused t client keywords h d := d.renderNested_refused h client keywords
  bundle positional keywords i stack hi := by
    unfold Session.bundle at hi
    dsimp only at hi
    split at hi
    · exact .inl hi
    · exact .inl hi
    · have hpushed : (s.world.enclosures.push (.idle (s.stack.spawn.pushAll _)))[i]? =
        some (.idle stack) := hi
      rw [Array.getElem?_push] at hpushed
      split at hpushed
      · cases hpushed
        refine .inr ?_
        rw [Stack.pushAll_eq]
        rfl
      · exact .inl hpushed

/-! ## Main theorem -/

/-- **Refused names are never read.** Let an accessor refuse some names.

* On a stack with this accessor no read asks any value for a refused attribute: it would come out
  the same if the call never ended. The read of a refused name is a denial, with or without a
  default, and the question whether it could be read is answered with no.
* Throughout every run of every program: no refused name was read. A view with this accessor
  remembers none of them and never answered with one; asked for one it refuses if the key is
  visible, misses if it is hidden, and answers with the target's text if it is the text key,
  without a call.
* Whatever is run on a stack leaves its accessor as it is, and closed-off stacks keep theirs. And
  the accessor is there all the time: nothing is called under another one, however deep inside a
  template or a choice, unless on a stack that an operation builds with settings of its own.
* What is called is a program that runs on the stack on which it is called; and a bundle looks names
  up on the stack that is its own.
* Stacks that are spawned, views, the bodies of templates that are rendered on the stack with the
  views of their clients, and the stacks of bundles get the accessor of the stack. -/
theorem Host.denied_never_read (h : Host κ σ) (names : Entries Unit) :
    (∀ (d : Dispatch κ σ) (s : Stack κ), s.accessor = some (.deny names) →
      (∀ target name default,
        (d.without names).readOr s target name default = d.readOr s target name default) ∧
      (∀ target name, (d.without names).canRead s target name = d.canRead s target name) ∧
      ∀ name, names.contains name = true → ∀ target w,
        (∀ default, d.readOr s target name default w =
          some (.error (w.denial target name), w)) ∧
        d.canRead s target name w = some (.ok false, w)) ∧
    (∀ (α : Type) fuel (x : Script κ σ α) f, f.world.Fresh →
      x.Throughout h fuel f fun w => w.Withholds names ∧ f.world.ViewsKept w) ∧
    (∀ (α : Type) fuel (x : Script κ σ α) f,
      x.StaysUnder f.stack.accessor (h.dispatch fuel) f ∧
      ∀ r f', x.run (h.dispatch fuel) f = some (r, f') →
        f'.stack.accessor = f.stack.accessor ∧ f.world.EnclosuresKept f'.world) ∧
    (∀ fuel, h.RunsInPlace fuel) ∧
    ∀ s : Session κ σ, s.HandsOn := by
  refine ⟨fun d s hs => ⟨d.readOr_without hs, d.canRead_without hs, ?_⟩, ?_, ?_, h.runsInPlace,
    Session.handsOn⟩
  · intro name hname target w
    have hrefused : Accessor.Refuses name s.accessor := by
      rw [hs]
      exact hname
    exact ⟨fun default => d.readOr_refused hrefused target default w,
      d.canRead_refused hrefused target w⟩
  · intro α fuel x f hf
    exact Law.throughout (Law.views_library h f.world) (Law.views_reads h f.world)
      (fun w hw => ⟨hw.1.withholds names, hw.2⟩) fuel x ⟨hf.accounted h, .refl f.world⟩
  · intro α fuel x f
    refine ⟨h.staysUnder fuel x f, fun r f' hx => ?_⟩
    obtain ⟨hkept, haccessor, -⟩ :=
      (Law.leads Law.enclosures_library (Law.enclosures_reads h) fuel trivial hx).2
    exact ⟨haccessor, hkept⟩

/-- A host whose objects answer for every attribute. Its code reads the secret from the first of
them, and says so if it is refused. -/
def openHost : Host Unit Unit where
  readAttr _ _ := .answer (.str "told")
  readItem _ _ := .answer none
  call _ := .answer .none
  apply _ _ := .answer .none
  hook _ := .answer none
  access _ _ _ := .answer .none
  evaluate _ := .ask (.readOr (.object ⟨0⟩) "secret" none) fun
    | .ok value => .answer value
    | .error _ => .answer (.str "refused")

/-- One such object, and an empty mapping. -/
def openWorld : World Unit Unit where
  objects := #[.host { typeName := "page", readAttr := some () }]
  maps := #[∅]
  host := ()

def secrets : Entries Unit := .ofList [("secret", ())]

/-- A stack that was built with an accessor that refuses the secret. -/
def closedStack : Stack Unit := (Settings.withAccessor {} (.deny secrets)).build

/-- A template with settings of its own, and no accessor in them, that tells the secret twice: by
code, and as a name that it finds in its client. -/
def tellingTemplate : Template Unit where
  name := "telling"
  blocks := [.code (), .insert (.name "secret")]
  globals := ⟨0⟩
  vars := ⟨0⟩

/-- Render it for the object, on the stack at hand. -/
def tellSecret : Op Unit := .renderNested tellingTemplate (some (.object ⟨0⟩)) none

theorem openWorld_fresh : openWorld.Fresh := by
  refine ⟨rfl, fun id v hview => ?_⟩
  have hlt : id.index < 1 := World.lt_of_view? hview
  obtain ⟨index⟩ := id
  obtain rfl : index = 0 := by simpa using hlt
  cases hview

theorem openWorld_tellSecret :
    ((Script.request tellSecret).run (openHost.dispatch 2) ⟨⟨openWorld, closedStack⟩, {}⟩).map
      (Prod.map id fun f =>
        (f.world.journal, (f.world.view? ⟨1⟩).map (·.memory.get? "secret"))) =
      some (.error (.policyDenial "secret" "'secret' is not accessible on 'page'"),
        ([.closed, .answered ⟨1⟩ "secret"
            (.error (.policyDenial "secret" "'secret' is not accessible on 'page'")),
          .asked ⟨1⟩ "secret", .searched (.object ⟨1⟩) "secret", .opened 1], some none)) := by
  unfold tellSecret
  cbv

/-- On its own the template tells the secret twice. On the stack whose accessor refuses it, its code
is refused, and so is the view of its client. -/
theorem openWorld_denied :
    let denial : Failure := .policyDenial "secret" "'secret' is not accessible on 'page'"
    closedStack.accessor = some (.deny secrets) ∧ secrets.contains "secret" = true ∧
    openWorld.Fresh ∧ ¬ tellingTemplate.nestingLimit < closedStack.level ∧
    (((openHost.dispatch 2).render tellingTemplate (some (.object ⟨0⟩)) none none openWorld).map
      (·.1)) = some (.ok "toldtold") ∧
    (((openHost.dispatch 2).renderNested { tellingTemplate with blocks := [.code ()] }
      (some (.object ⟨0⟩)) none ⟨openWorld, closedStack⟩).map (·.1)) = some (.ok "refused") ∧
    (openHost.dispatch 2).readOr closedStack (.object ⟨0⟩) "secret" (some .none) openWorld =
      some (.error denial, openWorld) ∧
    (∃ (b : Session Unit Unit) (finish : Session Unit Unit → Session Unit Unit),
      (openHost.dispatch 2).renderNested tellingTemplate (some (.object ⟨0⟩)) none
          ⟨openWorld, closedStack⟩ =
        ((openHost.dispatch 2).renderAll [.code (), .insert (.name "secret")] b).map
          (fun p => (p.1, finish p.2)) ∧
      b.stack.accessor = some (.deny secrets)) ∧
    (Script.request tellSecret).StaysUnder (some (.deny secrets)) (openHost.dispatch 2)
      ⟨⟨openWorld, closedStack⟩, {}⟩ ∧
    ∃ f', (Script.request tellSecret).run (openHost.dispatch 2) ⟨⟨openWorld, closedStack⟩, {}⟩ =
        some (.error denial, f') ∧
      f'.stack.accessor = some (.deny secrets) ∧ f'.world.Withholds secrets ∧
      .answered ⟨1⟩ "secret" (.error denial) ∈ f'.world.journal ∧
      (f'.world.view? ⟨1⟩).map (·.memory.get? "secret") = some none := by
  intro denial
  obtain ⟨hreads, hruns, hstays, -, hmade⟩ := openHost.denied_never_read secrets
  have hlevel : ¬ tellingTemplate.nestingLimit < closedStack.level := by decide
  obtain ⟨⟨r, f'⟩, hrun, hresult⟩ := Option.map_eq_some_iff.mp openWorld_tellSecret
  obtain ⟨rfl, hfound⟩ := Prod.mk.inj hresult
  obtain ⟨hjournal, hmemory⟩ := Prod.mk.inj hfound
  have hread := ((hreads (openHost.dispatch 2) closedStack rfl).2.2 "secret" (by decide)
    (.object ⟨0⟩) openWorld).1 (some .none)
  have hthroughout := hruns _ 2 (Script.request tellSecret)
    ⟨⟨openWorld, closedStack⟩, {}⟩ openWorld_fresh _ f' hrun
  obtain ⟨hunder, hkeeps⟩ := hstays _ 2 (Script.request tellSecret)
    ⟨⟨openWorld, closedStack⟩, {}⟩
  obtain ⟨b, finish, hbody, -, haccessor, -⟩ :=
    (hmade ⟨openWorld, closedStack⟩).body tellingTemplate (some (.object ⟨0⟩)) none hlevel
  refine ⟨rfl, by decide, openWorld_fresh, hlevel, by cbv, by cbv, hread,
    ⟨b, finish, hbody _, haccessor⟩, hunder, f', hrun, (hkeeps _ f' hrun).1, hthroughout.1.1, ?_,
    hmemory⟩
  rw [hjournal]
  exact .tail _ (.head _)

end LayeredScope
