import LayeredScope.Proofs.Enclosures
import LayeredScope.Proofs.Misses
import LayeredScope.Proofs.Searching
import LayeredScope.Proofs.Views

/-!
# Reads of a bundle while it is being read

A bundle lends its stack to each read, and nobody else can read that stack until the read gives it
back. Whatever runs in between, be it an object that is asked, a function, a template or an
accessor, may come to read the same bundle again, or another one that leads back to it; and such a
read is refused.

The refusal depends on a state that every read sets and clears. It is shown here to say no more than
which reads are under way, by running the same programs in another way: `Host.chained` takes the
chain of reads under way along from call to call, and never looks at the state to refuse.

* `World.Reading` — exactly the closed-off stacks on a chain are being read.
* `Host.chained` — calls under a chain of reads: a stack on the chain is refused, and a read of any
  other goes on with that stack on the chain.
* `Law.chain` — a run keeps what is being read, and the bundles what they are.
* `Host.dispatch_chained` — **calls do the same under the chain**, so what is refused is what is
  being read.
* `Host.Refuses` — every way to read an attribute of a bundle ends in the refusal.
* `Host.Serves` — an attribute of a bundle is what a look-up on the stack of the bundle comes to.
* `Host.reentrant_reads` — **a read is refused exactly while the stack is being read**, by whatever
  way it comes.
-/

namespace LayeredScope

variable {κ σ α : Type}

/-! ## The chain of reads -/

/-- The failure of a read of a stack that is being read. -/
def Bundle.busy : Failure := .unsupportedOperation "re-entrant read through an AttributeView"

/-- Exactly the closed-off stacks on the chain are being read. -/
def World.Reading (chain : List EnclosureId) (w : World κ σ) : Prop :=
  ∀ id : EnclosureId, w.enclosures[id.index]? = some .reading ↔ id ∈ chain

/-- An attribute of a bundle, under a chain of reads: `deeper` is what runs under longer chains. -/
def readOnChain (deeper : List EnclosureId → Dispatch κ σ) (chain : List EnclosureId) (b : Bundle)
    (name : String) : Run (World κ σ) Value := do
  let w ← Run.get
  match b with
  | .mapping _ => (deeper chain).readBundle b name
  | .enclosure id =>
    if id ∈ chain then Run.fail Bundle.busy
    else
      match w.enclosures[id.index]? with
      | some (.idle stack) => (deeper (id :: chain)).readEnclosure id stack name
      | some .reading => Run.unfinished
      | none => Run.fail Bundle.busy

/-- A named attribute, under a chain of reads. -/
def Answer.readAttrOnChain (h : Host κ σ) (deeper : List EnclosureId → Dispatch κ σ)
    (chain : List EnclosureId) (v : Value) (name : String) : Run (World κ σ) Value := do
  let w ← Run.get
  match v with
  | .object id =>
    match w.object id with
    | .host { readAttr := some code, .. } => runAlone (deeper chain) (h.readAttr code name)
    | .bundle b => readOnChain deeper chain b name
    | o => Run.fail (.attributeNotFound o.typeName name)
  | v => Run.fail (.attributeNotFound (w.typeName v) name)

/-- The answers of all values under a chain of reads. Only the read of a stack makes the chain
longer, for as long as it lasts. -/
def Host.chained (h : Host κ σ) : Nat → List EnclosureId → Dispatch κ σ
  | 0, _ => h.dispatch 0
  | fuel + 1, chain =>
    { readAttr := fun v name w => Answer.readAttrOnChain h (h.chained fuel) chain v name w
      readItem := fun id key w => Answer.readItem h (h.chained fuel chain) id key w
      call := fun v w => Answer.call h (h.chained fuel chain) v w
      apply := fun v client s => Answer.apply h (h.chained fuel chain) v client s
      hook := fun id s => Answer.hook h (h.chained fuel chain) id s
      access := fun code target name w =>
        Answer.access h (h.chained fuel chain) code target name w
      evaluate := fun code s => Answer.evaluate h (h.chained fuel chain) code s }

/-- Bundles stay what they are, and no closed-off stack is lost. -/
structure World.BundlesStand (w w' : World κ σ) : Prop where
  bundle : ∀ id b, w.object id = .bundle b → w'.object id = .bundle b
  issued : w.enclosures.size ≤ w'.enclosures.size

namespace World

variable {w w' w'' : World κ σ} {chain : List EnclosureId} {id : EnclosureId}

namespace BundlesStand

theorem refl (w : World κ σ) : w.BundlesStand w := ⟨fun _ _ h => h, Nat.le_refl _⟩

theorem trans (h : w.BundlesStand w') (h' : w'.BundlesStand w'') : w.BundlesStand w'' :=
  ⟨fun id b hb => h'.bundle id b (h.bundle id b hb), Nat.le_trans h.issued h'.issued⟩

theorem of_eq (hobjects : w'.objects = w.objects) (henclosures : w'.enclosures = w.enclosures) :
    w.BundlesStand w' := by
  refine ⟨fun id b hb => ?_, Nat.le_of_eq (congrArg Array.size henclosures.symm)⟩
  unfold World.object at hb ⊢
  rw [hobjects, hb]

theorem newObject (w : World κ σ) (o : Object κ) : w.BundlesStand (w.newObject o).2 := by
  refine ⟨fun id b hb => ?_, Nat.le_refl _⟩
  rcases Nat.lt_or_ge id.index w.objects.size with hlt | hle
  · rw [object_newObject, if_neg (by omega), hb]
  · rw [object_of_le hle] at hb
    cases hb

theorem newEnclosure (w : World κ σ) (stack : Stack κ) :
    w.BundlesStand (w.newEnclosure stack).2 := by
  refine ⟨fun id b hb => hb, ?_⟩
  simp [World.newEnclosure]

theorem remember (w : World κ σ) (id : ObjectId) (key : String) (value : Value) :
    w.BundlesStand (w.remember id key value) := by
  unfold World.remember
  split
  · next v hv =>
    refine ⟨fun other b hb => ?_, Nat.le_refl _⟩
    have hne : other ≠ id := by
      rintro rfl
      rw [hv] at hb
      cases hb
    rw [object_setObject (lt_of_view? (view?_eq_some.mpr hv)), if_neg hne, hb]
  · exact refl w

theorem setEnclosure (w : World κ σ) (id : EnclosureId) (e : Enclosure κ) :
    w.BundlesStand (w.setEnclosure id e) := by
  refine ⟨fun _ _ hb => hb, ?_⟩
  simp [World.setEnclosure]

end BundlesStand

namespace Reading

theorem of_eq (h : w.Reading chain) (henclosures : w'.enclosures = w.enclosures) :
    w'.Reading chain := by
  unfold Reading at h ⊢
  rw [henclosures]
  exact h

theorem newEnclosure (h : w.Reading chain) (stack : Stack κ) :
    (w.newEnclosure stack).2.Reading chain := by
  intro id
  rw [← h id]
  show (w.enclosures.push (.idle stack))[id.index]? = _ ↔ _
  rw [Array.getElem?_push]
  split
  · next hnew => simp [hnew]
  · rfl

theorem not_mem_of_idle (h : w.Reading chain) {stack : Stack κ}
    (hidle : w.enclosures[id.index]? = some (.idle stack)) : id ∉ chain := by
  rw [← h id, hidle]
  exact nofun

/-- A stack that is not on the chain is idle, if it was ever issued. -/
theorem idle_of_not_mem (h : w.Reading chain) (hid : id ∉ chain)
    (hissued : id.index < w.enclosures.size) :
    ∃ stack, w.enclosures[id.index]? = some (.idle stack) := by
  rw [← h id, Array.getElem?_eq_getElem hissued] at hid
  rw [Array.getElem?_eq_getElem hissued]
  cases hstate : w.enclosures[id.index] with
  | idle stack => exact ⟨stack, rfl⟩
  | reading => exact absurd (by rw [hstate]) hid

/-- The chain is one longer while an idle stack is read. -/
theorem lend (h : w.Reading chain) {stack : Stack κ}
    (hidle : w.enclosures[id.index]? = some (.idle stack)) :
    (w.setEnclosure id .reading).Reading (id :: chain) := by
  intro other
  by_cases hsame : other = id
  · subst hsame
    simp [enclosures_setEnclosure_self hidle]
  · have hindex : other.index ≠ id.index := fun hi => hsame (congrArg EnclosureId.mk hi)
    rw [enclosures_setEnclosure_of_ne hindex, h other, List.mem_cons, or_iff_right hsame]

/-- It is as long as before when the stack is given back. -/
theorem giveBack (h : w.Reading (id :: chain)) (hid : id ∉ chain) (stack : Stack κ) :
    (w.setEnclosure id (.idle stack)).Reading chain := by
  intro other
  by_cases hsame : other = id
  · subst hsame
    have hreading := (h other).mpr List.mem_cons_self
    simp [enclosures_setEnclosure_self hreading, hid]
  · have hindex : other.index ≠ id.index := fun hi => hsame (congrArg EnclosureId.mk hi)
    rw [enclosures_setEnclosure_of_ne hindex, h other, List.mem_cons, or_iff_right hsame]

end Reading

end World

/-! ## The law -/

/-- Exactly the stacks on the chain are being read, and bundles stand. -/
def Law.chain (chain : List EnclosureId) : Law (World κ σ) where
  Holds := World.Reading chain
  Leads := World.BundlesStand
  refl := .refl
  trans := .trans

theorem Law.chain_library (chain : List EnclosureId) :
    (Law.chain chain : Law (World κ σ)).Library where
  elsewhere _ _ hobjects henclosures _ hw := ⟨hw.of_eq henclosures, .of_eq hobjects henclosures⟩
  record _ _ _ hw := ⟨hw, .of_eq rfl rfl⟩
  newObject w o _ hw := ⟨hw, .newObject w o⟩
  newEnclosure w stack hw := ⟨hw.newEnclosure stack, .newEnclosure w stack⟩

theorem Law.chain_rendering (chain : List EnclosureId) :
    (Law.chain chain : Law (World κ σ)).Rendering := (Law.chain_library chain).rendering

namespace Dispatch.Keeps

variable {d e : Dispatch κ σ} {chain : List EnclosureId}

theorem viewGet_chain (h : d.Keeps (Law.chain chain).everywhere e) (id : ObjectId) (key : String) :
    (d.viewGet id key).Keeps (Law.chain chain) (e.viewGet id key) := by
  have hrecord (w : World κ σ) (event : Event) : (Law.chain chain).Allows w (w.record event) :=
    fun hw => ⟨hw, .of_eq rfl rfl⟩
  have hremember (w : World κ σ) (id : ObjectId) (key : String) (value : Value) :
      (Law.chain chain).Allows w (w.remember id key value) := by
    refine fun hw => ⟨hw.of_eq ?_, .remember w id key value⟩
    unfold World.remember
    split <;> rfl
  exact h.viewGet (Law.chain_rendering chain) hrecord hremember id key

/-- The read of a stack runs under the chain that it makes longer, and leaves the chain as
it was. -/
theorem readEnclosure_chain {id : EnclosureId}
    (h : d.Keeps (Law.chain (id :: chain)).everywhere e)
    {stack : Stack κ} {name : String} {w w' : World κ σ} {r : Except Failure Value}
    (hw : w.Reading chain) (hidle : w.enclosures[id.index]? = some (.idle stack))
    (hx : d.readEnclosure id stack name w = some (r, w')) :
    e.readEnclosure id stack name w = some (r, w') ∧ w'.Reading chain ∧ w.BundlesStand w' := by
  unfold Dispatch.readEnclosure at hx ⊢
  cases hfound : d.lookup name true ⟨w.setEnclosure id .reading, stack⟩ with
  | none => rw [hfound] at hx; cases hx
  | some p =>
    obtain ⟨r₁, s⟩ := p
    obtain ⟨hsame, hreading, hlead⟩ := h.lookup (Law.chain_rendering _) name true
      ⟨w.setEnclosure id .reading, stack⟩ r₁ s (hw.lend hidle) hfound
    rw [hfound] at hx
    rw [hsame]
    have hworld : w' = s.world.setEnclosure id (.idle s.stack) := by
      cases r₁ <;> cases hx <;> rfl
    refine ⟨hx, ?_⟩
    rw [hworld]
    exact ⟨World.Reading.giveBack hreading (hw.not_mem_of_idle hidle) s.stack,
      (World.BundlesStand.setEnclosure w id .reading).trans
        (hlead.1.trans (.setEnclosure s.world id (.idle s.stack)))⟩

theorem readBundle_chain {deeper : List EnclosureId → Dispatch κ σ}
    (h : ∀ chain, d.Keeps (Law.chain chain).everywhere (deeper chain)) (b : Bundle)
    (name : String) :
    (d.readBundle b name).Keeps (Law.chain chain) (readOnChain deeper chain b name) := by
  intro w r w' hw hx
  unfold readOnChain
  rw [Run.bind_ok (Run.get_apply w)]
  cases b with
  | mapping m =>
    have hsame : d.readBundle (.mapping m) name = (deeper chain).readBundle (.mapping m) name := rfl
    dsimp only
    rw [← hsame]
    refine ⟨hx, ?_⟩
    unfold Dispatch.readBundle at hx
    rw [Run.bind_ok (Run.get_apply w)] at hx
    dsimp only at hx
    cases hvalue : (w.entries m).get? name with
    | some value => rw [hvalue] at hx; cases hx; exact ⟨hw, .refl w⟩
    | none => rw [hvalue] at hx; cases hx; exact ⟨hw, .refl w⟩
  | enclosure id =>
    dsimp only
    unfold Dispatch.readBundle at hx
    rw [Run.bind_ok (Run.get_apply w)] at hx
    dsimp only at hx
    rcases hstate : w.enclosures[id.index]? with _ | ⟨stack⟩ | _
    · have hfree : id ∉ chain := by
        rw [← hw id, hstate]
        exact nofun
      rw [if_neg hfree]
      rw [hstate] at hx
      cases hx
      exact ⟨rfl, hw, .refl w⟩
    · rw [if_neg (hw.not_mem_of_idle hstate)]
      rw [hstate] at hx
      exact (h (id :: chain)).readEnclosure_chain hw hstate hx
    · rw [if_pos ((hw id).mp hstate)]
      rw [hstate] at hx
      cases hx
      exact ⟨rfl, hw, .refl w⟩

end Dispatch.Keeps

/-! ## Calls under the chain -/

/-- Attributes are read alike: those of objects of the host, and those of bundles. -/
theorem Answer.readAttr_chain {h : Host κ σ} {d : Dispatch κ σ}
    {deeper : List EnclosureId → Dispatch κ σ} {chain : List EnclosureId}
    (hcode : h.CodeKeeps (Law.chain chain).everywhere h d (deeper chain))
    (hcalls : ∀ chain, d.Keeps (Law.chain chain).everywhere (deeper chain)) (v : Value)
    (name : String) :
    (readAttr h d v name).Keeps (Law.chain chain) (readAttrOnChain h deeper chain v name) := by
  refine .bind .get fun w => ?_
  cases v with
  | object id =>
    dsimp only
    cases w.object id with
    | host o =>
      obtain ⟨_, readAttr⟩ := o
      cases readAttr with
      | none => exact .fail _
      | some code => exact hcode.readAttr code name
    | view v => exact .fail _
    | bundle b => exact Dispatch.Keeps.readBundle_chain hcalls b name
    | template t => exact .fail _
  | _ => exact .fail _

/-- **Calls do the same under the chain of reads**, at whatever depth calls lead to calls, and leave
the chain as it was. -/
theorem Host.dispatch_chained (h : Host κ σ) (fuel : Nat) (chain : List EnclosureId) :
    (h.dispatch fuel).Keeps (Law.chain chain).everywhere (h.chained fuel chain) := by
  induction fuel generalizing chain with
  | zero => exact h.dispatch_zero_keeps _ _
  | succ fuel ih =>
    have hrendering : (Law.chain chain : Law (World κ σ)).Rendering := Law.chain_rendering chain
    have hany := (Law.chain chain : Law (World κ σ)).everywhere_onAnyStack
    have hcode := h.codeKeeps (Law.chain_library chain).everywhere hany (ih chain)
      (ih chain).viewGet_chain
    exact
      { readAttr := Answer.readAttr_chain hcode ih
        readItem := Answer.readItem_keeps hcode (ih chain).viewGet_chain
        call := Answer.call_keeps hcode hrendering hany (ih chain)
        apply := Answer.apply_keeps hcode hrendering (ih chain)
        hook := Answer.hook_keeps hcode
        access := hcode.access
        evaluate := hcode.evaluate }

/-- So do the programs of the host. -/
theorem Script.run_chained (h : Host κ σ) (fuel : Nat) (chain : List EnclosureId)
    (x : Script κ σ α) :
    (x.run (h.dispatch fuel)).Keeps (Law.chain chain).frame (x.run (h.chained fuel chain)) :=
  x.run_keeps (Law.chain_library chain).everywhere (Law.chain chain).everywhere_onAnyStack
    (h.dispatch_chained fuel chain) (h.dispatch_chained fuel chain).viewGet_chain

/-! ## Refusals, by whatever way -/

/-- The value is a bundle whose stack is being read. -/
def World.Busy (w : World κ σ) (bundle : ObjectId) : Prop :=
  ∃ id, w.object bundle = .bundle (.enclosure id) ∧ w.enclosures[id.index]? = some .reading

theorem World.Busy.record {w : World κ σ} {bundle : ObjectId} (h : w.Busy bundle) (event : Event) :
    (w.record event).Busy bundle := h

theorem Answer.readAttr_busy (h : Host κ σ) (d : Dispatch κ σ) {bundle : ObjectId}
    {w : World κ σ} (hw : w.Busy bundle) (name : String) :
    readAttr h d (.object bundle) name w = some (.error Bundle.busy, w) := by
  obtain ⟨id, hbundle, hreading⟩ := hw
  simp only [readAttr, Run.bind_ok (Run.get_apply w), hbundle, Dispatch.readBundle, hreading]
  rfl

/-- However an attribute of the bundle is read, the read is refused there and then: nothing is
changed, and nothing is asked but what leads to the bundle. -/
structure Host.Refuses (h : Host κ σ) (fuel : Nat) (bundle : ObjectId) (name : String)
    (w : World κ σ) : Prop where
  direct : (h.dispatch (fuel + 1)).readAttr (.object bundle) name w = some (.error Bundle.busy, w)
  guarded : ∀ accessor refused, Accessor.ReadsPlainly name accessor refused →
    (h.dispatch (fuel + 1)).guardedRead accessor (.object bundle) name w =
      some (.error Bundle.busy, w.record (.read (.object bundle) name refused))
  /-- With a default or without. -/
  readOr : ∀ (s : Stack κ) refused default, Accessor.ReadsPlainly name s.accessor refused →
    (h.dispatch (fuel + 1)).readOr s (.object bundle) name default w =
      some (.error Bundle.busy, w.record (.read (.object bundle) name refused))
  canRead : ∀ (s : Stack κ) refused, Accessor.ReadsPlainly name s.accessor refused →
    (h.dispatch (fuel + 1)).canRead s (.object bundle) name w =
      some (.error Bundle.busy, w.record (.read (.object bundle) name refused))
  view : ∀ view refused, w.ReadsThrough view name (.object bundle) refused →
    (h.dispatch (fuel + 1)).viewGet view name w =
      some (.error Bundle.busy, ((w.record (.asked view name)).record
        (.read (.object bundle) name refused)).record (.answered view name (.error Bundle.busy)))
  /-- A look-up that comes to a view, after newer layers that miss. -/
  lookup : ∀ (s : Stack κ) newer view older w₀ refused invoked,
    s.layers = newer ++ .object view :: older →
    (h.dispatch (fuel + 2)).Misses name newer w₀ w →
    w.ReadsThrough view name (.object bundle) refused →
    (h.dispatch (fuel + 2)).lookup name invoked ⟨w₀, s⟩ =
      some (.error Bundle.busy, ⟨(((w.record (.searched (.object view) name)).record
        (.asked view name)).record (.read (.object bundle) name refused)).record
          (.answered view name (.error Bundle.busy)), s⟩)

theorem World.Busy.refuses {w : World κ σ} {bundle : ObjectId} (hw : w.Busy bundle)
    (h : Host κ σ) (fuel : Nat) (name : String) : h.Refuses fuel bundle name w := by
  have hguarded (accessor : Option (Accessor κ)) (refused : List String)
      (hplain : Accessor.ReadsPlainly name accessor refused) :
      (h.dispatch (fuel + 1)).guardedRead accessor (.object bundle) name w =
        some (.error Bundle.busy, w.record (.read (.object bundle) name refused)) := by
    rw [Dispatch.guardedRead_plain hplain]
    exact Answer.readAttr_busy h _ (hw.record _) name
  have hview {w : World κ σ} (hw : w.Busy bundle) (view : ObjectId) (refused : List String)
      (hthrough : w.ReadsThrough view name (.object bundle) refused) :
      (h.dispatch (fuel + 1)).viewGet view name w =
        some (.error Bundle.busy, ((w.record (.asked view name)).record
          (.read (.object bundle) name refused)).record
            (.answered view name (.error Bundle.busy))) :=
    Dispatch.viewGet_failure hthrough
      (Answer.readAttr_busy h _ ((hw.record _).record _) name) rfl
  refine ⟨Answer.readAttr_busy h _ hw name, hguarded, ?_, ?_, hview hw, ?_⟩
  · intro s refused default hplain
    unfold Dispatch.readOr
    rw [Run.bind_ok (Run.attempt_eq (hguarded s.accessor refused hplain))]
    cases default <;> rfl
  · intro s refused hplain
    unfold Dispatch.canRead
    rw [Run.bind_ok (Run.attempt_eq (hguarded s.accessor refused hplain))]
    rfl
  · intro s newer view older w₀ refused invoked hlayers hmisses hthrough
    obtain ⟨v, hv, -⟩ := id hthrough
    have hquestion : (h.dispatch (fuel + 2)).question (.object view) name w = _ :=
      (h.question_view (fuel + 1) hv).trans (hview (hw.record _) view refused hthrough)
    have hfetch := Dispatch.fetch_iff.mpr (.inl ⟨newer, _, older, _, hlayers, hmisses,
      .inr ⟨_, hquestion, rfl⟩⟩)
    have hfetched : ((h.dispatch (fuel + 2)).fetch s name).onWorld ⟨w₀, s⟩ = some (_, ⟨_, s⟩) :=
      Run.onWorld_eq hfetch
    show (((h.dispatch (fuel + 2)).fetch s name).onWorld >>= _) ⟨w₀, s⟩ = _
    rw [Run.bind_error hfetched]

/-! ## Served reads -/

/-- A read of the bundle is served: the name is looked up on the stack of the bundle, which is lent
for as long as the look-up lasts, and then given back. Under the chain it is the same look-up, with
the stack on the chain. -/
structure Host.Serves (h : Host κ σ) (fuel : Nat) (chain : List EnclosureId) (bundle : ObjectId)
    (id : EnclosureId) (name : String) (w : World κ σ) : Prop where
  lent : ∃ stack, w.enclosures[id.index]? = some (.idle stack) ∧
    (h.dispatch (fuel + 1)).readAttr (.object bundle) name w =
      ((h.dispatch fuel).lookup name true ⟨w.setEnclosure id .reading, stack⟩).map (fun p =>
        (Bundle.answer name p.1, p.2.world.setEnclosure id (.idle p.2.stack))) ∧
    (h.chained (fuel + 1) chain).readAttr (.object bundle) name w =
      ((h.chained fuel (id :: chain)).lookup name true ⟨w.setEnclosure id .reading, stack⟩).map
        fun p => (Bundle.answer name p.1, p.2.world.setEnclosure id (.idle p.2.stack))
  /-- Through an accessor that lets the name pass it is the same read. -/
  guarded : ∀ accessor refused, Accessor.ReadsPlainly name accessor refused →
    (h.dispatch (fuel + 1)).guardedRead accessor (.object bundle) name w =
      (h.dispatch (fuel + 1)).readAttr (.object bundle) name
        (w.record (.read (.object bundle) name refused))

namespace World.Reading

variable {chain : List EnclosureId} {bundle : ObjectId} {id : EnclosureId} {w w' : World κ σ}

/-- **A stack that is not on the chain is lent**, whatever other stacks are. -/
theorem serves (hw : w.Reading chain) (hbundle : w.object bundle = .bundle (.enclosure id))
    (hid : id ∉ chain) (hissued : id.index < w.enclosures.size) (h : Host κ σ) (fuel : Nat)
    (name : String) : h.Serves fuel chain bundle id name w := by
  obtain ⟨stack, hidle⟩ := hw.idle_of_not_mem hid hissued
  refine ⟨⟨stack, hidle, ?_, ?_⟩, fun _ _ hplain => Dispatch.guardedRead_plain hplain _ _⟩
  · rw [← Dispatch.readEnclosure_eq]
    exact Answer.readAttr_idle h (h.dispatch fuel) hbundle hidle name
  · rw [← Dispatch.readEnclosure_eq]
    show Answer.readAttrOnChain h (h.chained fuel) chain (.object bundle) name w = _
    simp only [Answer.readAttrOnChain, readOnChain, Run.bind_ok (Run.get_apply w), hbundle, hid,
      if_false, hidle]

/-- A stack that has been lent is given back: it can be lent again. -/
theorem serves_again (hw : w.Reading chain) (hbundle : w.object bundle = .bundle (.enclosure id))
    (hid : id ∉ chain) (hissued : id.index < w.enclosures.size) {h : Host κ σ} {fuel : Nat}
    {name : String} {r : Except Failure Value}
    (hx : (h.dispatch (fuel + 1)).readAttr (.object bundle) name w = some (r, w')) :
    (h.chained (fuel + 1) chain).readAttr (.object bundle) name w = some (r, w') ∧
      w'.Reading chain ∧ w'.object bundle = .bundle (.enclosure id) ∧
      id.index < w'.enclosures.size ∧
      ∀ fuel' name', h.Serves fuel' chain bundle id name' w' := by
  obtain ⟨hsame, hreading, hstands⟩ :=
    (h.dispatch_chained (fuel + 1) chain).readAttr (.object bundle) name w r w' hw hx
  have hbundle' := hstands.bundle bundle _ hbundle
  have hissued' : id.index < w'.enclosures.size := Nat.lt_of_lt_of_le hissued hstands.issued
  exact ⟨hsame, hreading, hbundle', hissued',
    serves hreading hbundle' hid hissued' h⟩

end World.Reading

/-! ## New bundles -/

/-- Positional arguments are bundled over a stack that is issued for them. -/
theorem Session.bundle_positional (s : Session κ σ) (first : Value) (rest : List Value)
    (keywords : Option MapId) : ∃ stack,
    s.bundle (first :: rest) keywords =
      (.list [.object ⟨s.world.objects.size⟩],
        { s with world :=
          ((s.world.newEnclosure stack).2.newObject
            (.bundle (.enclosure ⟨s.world.enclosures.size⟩))).2 }) :=
  ⟨_, rfl⟩

/-- So the bundle stands, over a stack that is not being read, whatever else is. -/
theorem World.newEnclosure_unread {w : World κ σ} {chain : List EnclosureId} (hw : w.Reading chain)
    (stack : Stack κ) : (⟨w.enclosures.size⟩ : EnclosureId) ∉ chain := by
  have hidle : (w.newEnclosure stack).2.enclosures[w.enclosures.size]? = some (.idle stack) := by
    simp [World.newEnclosure]
  exact (hw.newEnclosure stack).not_mem_of_idle hidle

/-! ## Main theorem -/

/-- **A read of a bundle's stack is refused exactly while that stack is being read.**

* Bundling positional arguments makes a bundle over a stack that is issued and that nobody reads.
* Whatever the programs of the host do, a run does the same as under the chain of reads, and ends
  with the same stacks being read and every bundle what it was.
* While the stack of a bundle is on the chain, every read of it is refused.
* While it is not, a read is served, whatever other stacks are being read, and however many: the
  name is looked up on the stack, under the chain that is longer by this stack, and the outcome of
  the look-up is that of the read. When the look-up ends, with a value or a failure, the stack is
  given back, the chain is as it was, and every later read is served as well. -/
theorem Host.reentrant_reads (h : Host κ σ) :
    (∀ (s : Session κ σ) first rest keywords, ∃ bundle id,
      (s.bundle (first :: rest) keywords).1 = .list [.object bundle] ∧
      (s.bundle (first :: rest) keywords).2.world.object bundle = .bundle (.enclosure id) ∧
      id.index < (s.bundle (first :: rest) keywords).2.world.enclosures.size ∧
      ∀ chain, s.world.Reading chain →
        (s.bundle (first :: rest) keywords).2.world.Reading chain ∧ id ∉ chain) ∧
    (∀ fuel chain, (h.dispatch fuel).Keeps (Law.chain chain).everywhere (h.chained fuel chain) ∧
      ∀ (α : Type) (x : Script κ σ α),
        (x.run (h.dispatch fuel)).Keeps (Law.chain chain).frame (x.run (h.chained fuel chain))) ∧
    ∀ fuel chain bundle id name w, w.object bundle = .bundle (.enclosure id) → w.Reading chain →
      (id ∈ chain →
        (h.chained (fuel + 1) chain).readAttr (.object bundle) name w =
          some (.error Bundle.busy, w) ∧
        h.Refuses fuel bundle name w) ∧
      (id ∉ chain → id.index < w.enclosures.size →
        h.Serves fuel chain bundle id name w ∧
        ∀ r w', (h.dispatch (fuel + 1)).readAttr (.object bundle) name w = some (r, w') →
          (h.chained (fuel + 1) chain).readAttr (.object bundle) name w = some (r, w') ∧
          w'.Reading chain ∧ w'.object bundle = .bundle (.enclosure id) ∧
          id.index < w'.enclosures.size ∧
          ∀ fuel' name', h.Serves fuel' chain bundle id name' w') := by
  refine ⟨?_, fun fuel chain => ⟨h.dispatch_chained fuel chain, fun α x =>
    x.run_chained h fuel chain⟩, ?_⟩
  · intro s first rest keywords
    obtain ⟨stack, hbundled⟩ := s.bundle_positional first rest keywords
    rw [hbundled]
    refine ⟨⟨s.world.objects.size⟩, ⟨s.world.enclosures.size⟩, rfl, ?_, ?_, fun chain hs =>
      ⟨hs.newEnclosure stack, World.newEnclosure_unread hs stack⟩⟩
    · rw [World.object_newObject]
      exact if_pos rfl
    · show _ < (s.world.enclosures.push (.idle stack)).size
      simp
  · intro fuel chain bundle id name w hbundle hw
    refine ⟨fun hid => ⟨?_, ?_⟩, fun hid hissued => ⟨?_, fun r w' hx => ?_⟩⟩
    · show Answer.readAttrOnChain h (h.chained fuel) chain (.object bundle) name w = _
      simp only [Answer.readAttrOnChain, readOnChain, Run.bind_ok (Run.get_apply w), hbundle, hid,
        if_true]
      rfl
    · exact World.Busy.refuses ⟨id, hbundle, (hw id).mpr hid⟩ h fuel name
    · exact hw.serves hbundle hid hissued h fuel name
    · exact hw.serves_again hbundle hid hissued hx

/-- A host whose functions read an attribute of an object. -/
def returningHost : Host (ObjectId × String) Unit where
  readAttr _ _ := .answer .none
  readItem _ _ := .answer none
  call code := .request (.readAttr (.object code.1) code.2)
  apply _ _ := .answer .none
  hook _ := .answer none
  access _ _ _ := .answer .none
  evaluate _ := .answer .none

/-- Two bundles, each over a mapping. In the first mapping `a` stands for a function that reads `a`
of the first bundle again, and `c` for one that reads `b` of the second. -/
def returningWorld : World (ObjectId × String) Unit where
  maps := #[.ofList [("a", .function ⟨0⟩), ("b", .int 1), ("c", .function ⟨1⟩)],
    .ofList [("b", .int 2)]]
  objects := #[.bundle (.enclosure ⟨0⟩), .bundle (.enclosure ⟨1⟩)]
  functions := #[⟨"f", (⟨0⟩, "a")⟩, ⟨"g", (⟨1⟩, "b")⟩]
  enclosures := #[.idle { layers := [.mapping ⟨0⟩] }, .idle { layers := [.mapping ⟨1⟩] }]
  host := ()

theorem returningHost_call (fuel : Nat) {w : World (ObjectId × String) Unit} {id : FunctionId}
    {f : HostFunction (ObjectId × String)} (hf : w.function? id = some f) :
    (returningHost.dispatch (fuel + 1)).call (.function id) w =
      (returningHost.dispatch fuel).readAttr (.object f.code.1) f.code.2 w := by
  have hcall : (returningHost.dispatch (fuel + 1)).call (.function id) w =
      runAlone (returningHost.dispatch fuel)
        (.request (.readAttr (.object f.code.1) f.code.2)) w := by
    show Answer.call returningHost _ (.function id) w = _
    simp only [Answer.call, Run.bind_ok (Run.get_apply w), hf, returningHost]
  rw [hcall, runAlone, runScript, Script.run_request]
  show onOwnStack {}
    (guarded (((returningHost.dispatch fuel).readAttr _ _).onWorld.onSession)) w = _
  rw [onOwnStack, guarded_apply, Run.onSession_apply, Run.onWorld_apply]
  cases (returningHost.dispatch fuel).readAttr (.object f.code.1) f.code.2 w <;> rfl

/-- The world when the function is invoked that stands under the name in the first mapping. -/
def invokingWorld (name : String) (id : FunctionId) : World (ObjectId × String) Unit :=
  ((returningWorld.setEnclosure ⟨0⟩ .reading).record (.searched (.mapping ⟨0⟩) name)).record
    (.called (.function id))

theorem returningWorld_lookup (fuel : Nat) (name : String) (id : FunctionId)
    {f : HostFunction (ObjectId × String)}
    (hentry : (returningWorld.entries ⟨0⟩).get? name = some (.function id))
    (hf : returningWorld.function? id = some f) :
    (returningHost.dispatch (fuel + 1)).lookup name true
        ⟨returningWorld.setEnclosure ⟨0⟩ .reading, { layers := [.mapping ⟨0⟩] }⟩ =
      ((returningHost.dispatch fuel).readAttr (.object f.code.1) f.code.2).onWorld
        ⟨invokingWorld name id, { layers := [.mapping ⟨0⟩] }⟩ := by
  have hfetch : (returningHost.dispatch (fuel + 1)).fetch { layers := [.mapping ⟨0⟩] } name
      (returningWorld.setEnclosure ⟨0⟩ .reading) =
        some (.ok (.function id),
          (returningWorld.setEnclosure ⟨0⟩ .reading).record (.searched (.mapping ⟨0⟩) name)) := by
    have hasked : (returningHost.dispatch (fuel + 1)).question (.mapping ⟨0⟩) name
        (returningWorld.setEnclosure ⟨0⟩ .reading) =
          some (.ok (some (.function id)),
            (returningWorld.setEnclosure ⟨0⟩ .reading).record (.searched (.mapping ⟨0⟩) name)) := by
      rw [← hentry]
      rfl
    have hsearched : (returningHost.dispatch (fuel + 1)).search name [.mapping ⟨0⟩]
        (returningWorld.setEnclosure ⟨0⟩ .reading) =
          some (.ok (some (.function id)),
            (returningWorld.setEnclosure ⟨0⟩ .reading).record (.searched (.mapping ⟨0⟩) name)) := by
      rw [Dispatch.search_cons, hasked]
    exact Run.bind_ok hsearched
  show (((returningHost.dispatch (fuel + 1)).fetch _ name).onWorld >>=
    (returningHost.dispatch (fuel + 1)).onAccess) _ = _
  rw [Run.bind_ok (Run.onWorld_eq hfetch)]
  show ((returningHost.dispatch (fuel + 1)).call (.function id)).onWorld
    ⟨invokingWorld name id, _⟩ = _
  rw [Run.onWorld_apply, Run.onWorld_apply]
  dsimp only
  rw [returningHost_call fuel (w := invokingWorld name id) hf]

theorem returningWorld_reading : returningWorld.Reading [] := by
  intro ⟨i⟩
  rcases i with _ | _ | i <;> simp [returningWorld]

/-- While the stack of the second bundle is being read. -/
theorem returningWorld_reading_second :
    (returningWorld.setEnclosure ⟨1⟩ .reading).Reading [⟨1⟩] := by
  have hidle : returningWorld.enclosures[(⟨1⟩ : EnclosureId).index]? =
      some (.idle { layers := [.mapping ⟨1⟩] }) := rfl
  exact returningWorld_reading.lend hidle

/-- The read of `a` comes back to its bundle and fails there, and then `b` is read from the same
bundle. The read of `c` comes to the other bundle, and is served; and so is a read of the first
bundle while the stack of the other is being read. -/
theorem returningWorld_reentrant :
    returningWorld.Reading [] ∧
    (∃ w', (returningHost.dispatch 4).readAttr (.object ⟨0⟩) "a" returningWorld =
        some (.error Bundle.busy, w') ∧
      ∃ w'', (returningHost.dispatch 4).readAttr (.object ⟨0⟩) "b" w' = some (.ok (.int 1), w'')) ∧
    (∃ w', (returningHost.dispatch 4).readAttr (.object ⟨0⟩) "c" returningWorld =
      some (.ok (.int 2), w')) ∧
    (returningHost.dispatch 4).readAttr (.object ⟨1⟩) "b"
        (returningWorld.setEnclosure ⟨1⟩ .reading) =
      some (.error Bundle.busy, returningWorld.setEnclosure ⟨1⟩ .reading) ∧
    ∃ w', (returningHost.dispatch 4).readAttr (.object ⟨0⟩) "b"
        (returningWorld.setEnclosure ⟨1⟩ .reading) = some (.ok (.int 1), w') := by
  obtain ⟨-, -, hreads⟩ := returningHost.reentrant_reads
  have hserved (name : String) :=
    (hreads 3 [] ⟨0⟩ ⟨0⟩ name returningWorld rfl returningWorld_reading).2 List.not_mem_nil
      Nat.zero_lt_two
  refine ⟨returningWorld_reading, ?again, ?other, ?second, ?first⟩
  case again =>
    obtain ⟨⟨⟨_, hidle, hlent, -⟩, -⟩, hended⟩ := hserved "a"
    cases hidle
    rw [returningWorld_lookup 2 "a" ⟨0⟩ rfl rfl] at hlent
    have hrefused : (returningHost.dispatch 2).readAttr (.object ⟨0⟩) "a" (invokingWorld "a" ⟨0⟩) =
        some (.error Bundle.busy, invokingWorld "a" ⟨0⟩) :=
      Answer.readAttr_busy returningHost _ ⟨⟨0⟩, rfl, rfl⟩ "a"
    rw [Run.onWorld_eq hrefused] at hlent
    obtain ⟨-, -, -, -, hagain⟩ := hended _ _ hlent
    obtain ⟨_, hidle, hlent', -⟩ := (hagain 3 "b").lent
    cases hidle
    exact ⟨_, hlent, _, hlent'⟩
  case other =>
    obtain ⟨⟨⟨_, hidle, hlent, -⟩, -⟩, -⟩ := hserved "c"
    cases hidle
    rw [returningWorld_lookup 2 "c" ⟨1⟩ rfl rfl] at hlent
    exact ⟨_, hlent⟩
  case second =>
    exact ((hreads 3 [⟨1⟩] ⟨1⟩ ⟨1⟩ "b" _ rfl returningWorld_reading_second).1
      List.mem_cons_self).2.direct
  case first =>
    obtain ⟨⟨⟨_, hidle, hlent, -⟩, -⟩, -⟩ :=
      (hreads 3 [⟨1⟩] ⟨0⟩ ⟨0⟩ "b" _ rfl returningWorld_reading_second).2 (by simp)
        Nat.zero_lt_two
    cases hidle
    exact ⟨_, hlent⟩

end LayeredScope
