import LayeredScope.Proofs.Reentrancy
import Mathlib.Logic.Relation

/-!
# What a bundle of arguments answers

Calling a stack makes a bundle of the arguments, and the attributes of the bundle are read some time
later, when mappings have been written, the code of the host has run and the bundle itself has been
read before. Keywords alone are a view of a mapping. Positional arguments are layers of a stack that
only the bundle has, and to read an attribute is to look it up there, with all that a look-up may do
to the stack.

* `Session.argumentStack` — the stack that positional arguments are bundled over.
* `Host.Looked` — what one look-up through the bundle makes of that stack.
* `World.Offers` — the bundle is what it was, and its stack has changed by such look-ups only.
* `Law.offers`, `World.Offers.throughout` — **so it is at every later time**.
* `Host.bundles_read` — **what calling a stack makes, and what is read from it ever after.** A read
  while another one of the same bundle is under way is refused (`selfAskingWorld_refused`).
-/

namespace LayeredScope

variable {κ σ α : Type}

/-! ## Making a bundle -/

/-- The keywords as layers: those without entries count as none. -/
def Session.keywordLayers (s : Session κ σ) : Option MapId → List Layer
  | none => []
  | some m => if (s.world.entries m).isEmpty then [] else [.mapping m]

/-- The stack that positional arguments are bundled over: the keywords are the newest layer, and
below them the arguments from the last to the first. -/
def Session.argumentStack (s : Session κ σ) (positional : List Value) (keywords : Option MapId) :
    Stack κ where
  layers := s.keywordLayers keywords ++ (positional.map Value.toLayer).reverse
  level := 0
  fields := ∅
  accessor := s.stack.accessor
  reserved := s.stack.reserved

namespace Session

variable (s : Session κ σ)

theorem keywordLayers_eq_nil {keywords : Option MapId} :
    s.keywordLayers keywords = [] ↔
      ∀ m, keywords = some m → (s.world.entries m).isEmpty = true := by
  cases keywords with
  | none => simp [keywordLayers]
  | some m => cases hempty : (s.world.entries m).isEmpty <;> simp [keywordLayers, hempty]

/-- Without arguments there is nothing to bundle. -/
theorem bundle_nothing {keywords : Option MapId} (h : s.keywordLayers keywords = []) :
    s.bundle [] keywords = (.none, s) := by
  cases keywords with
  | none => rfl
  | some m => simp [bundle, Option.filter, s.keywordLayers_eq_nil.mp h m rfl]

theorem bundle_keywords {m : MapId} (h : (s.world.entries m).isEmpty = false) :
    s.bundle [] (some m) = (.list [.object ⟨s.world.objects.size⟩],
      { s with world := (s.world.newObject (.bundle (.mapping m))).2 }) := by
  simp only [bundle, Option.filter, h, Bool.not_false, if_true]
  rfl

/-- The keywords that count are the newest layer. -/
theorem pushAll_arguments (positional : List Value) (keywords : Option MapId) :
    s.stack.spawn.pushAll (positional.map Value.toLayer ++
      ((keywords.filter fun m => !(s.world.entries m).isEmpty).map Layer.mapping).toList) =
        s.argumentStack positional keywords := by
  rw [Stack.pushAll_eq]
  cases keywords with
  | none => simp [argumentStack, keywordLayers, Stack.spawn]
  | some m =>
    cases hempty : (s.world.entries m).isEmpty <;>
      simp [argumentStack, keywordLayers, Stack.spawn, Option.filter, hempty]

theorem bundle_arguments {positional : List Value} (h : positional ≠ [])
    (keywords : Option MapId) :
    s.bundle positional keywords = (.list [.object ⟨s.world.objects.size⟩],
      { s with world :=
        ((s.world.newEnclosure (s.argumentStack positional keywords)).2.newObject
          (.bundle (.enclosure ⟨s.world.enclosures.size⟩))).2 }) := by
  cases positional with
  | nil => exact absurd rfl h
  | cons first rest =>
    rw [← s.pushAll_arguments]
    rfl

end Session

/-! ## The stack of a bundle -/

/-- What a look-up through the bundle makes of its stack, which is lent to it meanwhile. -/
def Host.Looked (h : Host κ σ) (id : EnclosureId) (stack stack' : Stack κ) : Prop :=
  ∃ (fuel : Nat) (name : String) (w : World κ σ) (r : Except Failure Value) (w' : World κ σ),
    w.enclosures[id.index]? = some (.idle stack) ∧
    (h.dispatch fuel).lookup name true ⟨w.setEnclosure id .reading, stack⟩ =
      some (r, ⟨w', stack'⟩)

/-- The stack has been looked at through the bundle, any number of times, and is otherwise as it
was. -/
structure Host.OnlyLooked (h : Host κ σ) (id : EnclosureId) (stack stack' : Stack κ) : Prop where
  looked : Relation.ReflTransGen (h.Looked id) stack stack'
  accessor : stack'.accessor = stack.accessor
  reserved : stack'.reserved = stack.reserved

/-- The bundle is over what it was made over. A stack of its own is idle, and has been looked at
only; or else it is being read. -/
structure World.Offers (h : Host κ σ) (made : Stack κ) (bundle : ObjectId) (b : Bundle)
    (w : World κ σ) : Prop where
  object : w.object bundle = .bundle b
  stack : ∀ id, b = .enclosure id →
    (∃ stack, w.enclosures[id.index]? = some (.idle stack) ∧ h.OnlyLooked id made stack) ∨
      w.enclosures[id.index]? = some .reading

theorem Host.OnlyLooked.refl (h : Host κ σ) (id : EnclosureId) (stack : Stack κ) :
    h.OnlyLooked id stack stack := ⟨.refl, rfl, rfl⟩

namespace World.Offers

variable {h : Host κ σ} {made : Stack κ} {bundle : ObjectId} {b : Bundle} {w w' : World κ σ}

/-- Nothing happens to bundles and to their stacks. -/
theorem of_stands (hw : w.Offers h made bundle b) (hstands : w.BundlesStand w')
    (hsame : ∀ id, b = .enclosure id → w'.enclosures[id.index]? = w.enclosures[id.index]?) :
    w'.Offers h made bundle b := by
  refine ⟨hstands.bundle bundle b hw.object, fun id hid => ?_⟩
  rw [hsame id hid]
  exact hw.stack id hid

theorem of_eq (hw : w.Offers h made bundle b) (hobjects : w'.objects = w.objects)
    (henclosures : w'.enclosures = w.enclosures) : w'.Offers h made bundle b :=
  hw.of_stands (.of_eq hobjects henclosures) fun id _ => by rw [henclosures]

theorem newObject (hw : w.Offers h made bundle b) (o : Object κ) :
    (w.newObject o).2.Offers h made bundle b :=
  hw.of_stands (.newObject w o) fun _ _ => rfl

theorem newEnclosure (hw : w.Offers h made bundle b) (stack : Stack κ) :
    (w.newEnclosure stack).2.Offers h made bundle b := by
  refine hw.of_stands (.newEnclosure w stack) fun id hid => ?_
  have hlt : id.index < w.enclosures.size := by
    rcases hw.stack id hid with ⟨_, hidle, -⟩ | hreading
    · exact (Array.getElem?_eq_some_iff.mp hidle).1
    · exact (Array.getElem?_eq_some_iff.mp hreading).1
  show (w.enclosures.push (.idle stack))[id.index]? = _
  rw [Array.getElem?_push, if_neg (by omega)]

theorem remember (hw : w.Offers h made bundle b) (id : ObjectId) (key : String) (value : Value) :
    (w.remember id key value).Offers h made bundle b := by
  refine hw.of_stands (.remember w id key value) fun other _ => ?_
  unfold World.remember
  split <;> rfl

/-- A stack is lent, be it that of the bundle or another. -/
theorem lend (hw : w.Offers h made bundle b) {id : EnclosureId} {stack : Stack κ}
    (hidle : w.enclosures[id.index]? = some (.idle stack)) :
    (w.setEnclosure id .reading).Offers h made bundle b := by
  refine ⟨hw.object, fun own hown => ?_⟩
  by_cases hsame : own.index = id.index
  · right
    rw [hsame]
    exact enclosures_setEnclosure_self hidle .reading
  · rw [enclosures_setEnclosure_of_ne hsame]
    exact hw.stack own hown

/-- It is given back as a look-up has left it. -/
theorem giveBack (hw : w.Offers h made bundle b) {id : EnclosureId} {stack : Stack κ}
    (hidle : w.enclosures[id.index]? = some (.idle stack)) {fuel : Nat} {name : String}
    {r : Except Failure Value} {s : Session κ σ}
    (hlooked : (h.dispatch fuel).lookup name true ⟨w.setEnclosure id .reading, stack⟩ =
      some (r, s)) (hs : s.world.Offers h made bundle b)
    (hlead : Law.enclosures.session.Leads ⟨w.setEnclosure id .reading, stack⟩ s) :
    (s.world.setEnclosure id (.idle s.stack)).Offers h made bundle b := by
  refine ⟨hs.object, fun own hown => ?_⟩
  by_cases hsame : own.index = id.index
  · obtain rfl : own = id := by
      cases own
      cases id
      cases hsame
      rfl
    obtain ⟨hkept, haccessor, hreserved⟩ := hlead
    have hreading : s.world.enclosures[own.index]? = some .reading :=
      hkept.reading own.index (enclosures_setEnclosure_self hidle .reading)
    rcases hw.stack own hown with ⟨before, hbefore, hlooks⟩ | hbusy
    · obtain rfl : stack = before := by
        cases hidle.symm.trans hbefore
        rfl
      refine .inl ⟨s.stack, enclosures_setEnclosure_self hreading _, ?_, ?_, ?_⟩
      · exact hlooks.looked.tail ⟨fuel, name, w, r, s.world, hidle, hlooked⟩
      · exact haccessor.trans hlooks.accessor
      · exact hreserved.trans hlooks.reserved
    · cases hidle.symm.trans hbusy
  · rw [enclosures_setEnclosure_of_ne hsame]
    exact hs.stack own hown

end World.Offers

/-! ## The law -/

/-- The bundle is offered, and closed-off stacks are kept. -/
def Law.offers (h : Host κ σ) (made : Stack κ) (bundle : ObjectId) (b : Bundle) :
    Law (World κ σ) where
  Holds := World.Offers h made bundle b
  Leads := World.EnclosuresKept
  refl := .refl
  trans := .trans

section

variable (h : Host κ σ) (made : Stack κ) (bundle : ObjectId) (b : Bundle)

theorem Law.offers_library : (Law.offers h made bundle b).Library where
  elsewhere _ _ hobjects henclosures _ hw := ⟨hw.of_eq hobjects henclosures, .of_eq henclosures⟩
  record _ _ _ hw := ⟨hw.of_eq rfl rfl, .of_eq rfl⟩
  newObject _ o _ hw := ⟨hw.newObject o, .of_eq rfl⟩
  newEnclosure w stack hw := ⟨hw.newEnclosure stack, .newEnclosure w stack⟩

theorem Law.offers_reads (fuel : Nat) (e : Dispatch κ σ)
    (hd : (h.dispatch fuel).Keeps (Law.offers h made bundle b).everywhere e) :
    (h.dispatch fuel).KeepsReads (Law.offers h made bundle b).everywhere e where
  viewGet := by
    refine Dispatch.Keeps.viewGet (Law.offers_library h made bundle b).rendering
      (fun _ _ hw => ⟨hw.of_eq rfl rfl, .of_eq rfl⟩) (fun w id key value hw => ?_) hd
    refine ⟨hw.remember id key value, .of_eq ?_⟩
    unfold World.remember
    split <;> rfl
  readBundle other name := by
    refine Dispatch.Keeps.readBundle_of_lookup other name (fun w id stack hidle hw => ?_)
      (hd.lookup (Law.offers_library h made bundle b).rendering name true)
    refine ⟨hw.lend hidle, fun r s hlooked hs hlead => ⟨hw.giveBack hidle hlooked hs hlead, ?_⟩⟩
    obtain ⟨hkept, haccessor, hreserved⟩ := hlead
    exact .giveBack hidle hkept haccessor hreserved

end

namespace World.Offers

variable {h : Host κ σ} {made : Stack κ} {bundle : ObjectId} {b : Bundle} {f f' : Frame κ σ}

/-- **A bundle is offered throughout every script**, whatever the code of the host does. -/
theorem throughout (hf : f.world.Offers h made bundle b) (fuel : Nat) (x : Script κ σ α) :
    x.Throughout h fuel f (World.Offers h made bundle b) :=
  Law.throughout (Law.offers_library h made bundle b) (Law.offers_reads h made bundle b)
    (fun _ hw => hw) fuel x hf

/-- A stack that is idle when a script begins is idle when it ends. -/
theorem idle_again (hf : f.world.Offers h made bundle b) {fuel : Nat} {x : Script κ σ α}
    {r : Except Failure α} (hx : x.run (h.dispatch fuel) f = some (r, f')) {id : EnclosureId}
    {stack : Stack κ} (hidle : f.world.enclosures[id.index]? = some (.idle stack)) :
    ∃ stack', f'.world.enclosures[id.index]? = some (.idle stack') := by
  obtain ⟨-, hlead⟩ := Law.leads (Law.offers_library h made bundle b)
    (Law.offers_reads h made bundle b) fuel hf hx
  obtain ⟨stack', hidle', -⟩ := hlead.1.idle id.index stack hidle
  exact ⟨stack', hidle'⟩

end World.Offers

/-! ## Reading an attribute -/

/-- A bundle of keywords answers from the entries that they have. -/
theorem Answer.readAttr_mapping (h : Host κ σ) (d : Dispatch κ σ) {bundle : ObjectId} {m : MapId}
    {w : World κ σ} (hbundle : w.object bundle = .bundle (.mapping m)) (name : String) :
    readAttr h d (.object bundle) name w =
      some (match (w.entries m).get? name with
        | some value => .ok value
        | none => .error (Bundle.absent name), w) := by
  simp only [readAttr, Run.bind_ok (Run.get_apply w), hbundle, Dispatch.readBundle]
  cases (w.entries m).get? name <;> rfl

/-- What it comes to when an attribute of a bundle is read. -/
structure Host.Reads (h : Host κ σ) (fuel : Nat) (bundle : ObjectId) (b : Bundle) (name : String)
    (w : World κ σ) : Prop where
  /-- Of keywords alone it is the entry that they have at the time, and it is not invoked. -/
  mapping : ∀ m, b = .mapping m →
    (h.dispatch (fuel + 1)).readAttr (.object bundle) name w =
      some (match (w.entries m).get? name with
        | some value => .ok value
        | none => .error (Bundle.absent name), w)
  /-- On a stack that nobody reads the name is looked up, and the stack is given back. -/
  idle : ∀ id stack, b = .enclosure id → w.enclosures[id.index]? = some (.idle stack) →
    (h.dispatch (fuel + 1)).readAttr (.object bundle) name w =
      ((h.dispatch fuel).lookup name true ⟨w.setEnclosure id .reading, stack⟩).map fun p =>
        (Bundle.answer name p.1, p.2.world.setEnclosure id (.idle p.2.stack))
  /-- While the stack is being read, the read is refused. -/
  reading : ∀ id, b = .enclosure id → w.enclosures[id.index]? = some .reading →
    (h.dispatch (fuel + 1)).readAttr (.object bundle) name w = some (.error Bundle.busy, w)

theorem World.Offers.reads {h : Host κ σ} {made : Stack κ} {bundle : ObjectId} {b : Bundle}
    {w : World κ σ} (hw : w.Offers h made bundle b) (fuel : Nat) (name : String) :
    h.Reads fuel bundle b name w := by
  refine ⟨?_, ?_, ?_⟩
  · rintro m rfl
    exact Answer.readAttr_mapping h (h.dispatch fuel) hw.object name
  · rintro id stack rfl hidle
    rw [← Dispatch.readEnclosure_eq]
    exact Answer.readAttr_idle h (h.dispatch fuel) hw.object hidle name
  · rintro id rfl hreading
    exact Answer.readAttr_busy h (h.dispatch fuel) ⟨id, hw.object, hreading⟩ name

/-- What can be said of a bundle that is offered, then and ever after. -/
theorem World.Offers.later {h : Host κ σ} {made : Stack κ} {bundle : ObjectId} {b : Bundle}
    {w : World κ σ} (hw : w.Offers h made bundle b) :
    (∀ fuel name, h.Reads fuel bundle b name w) ∧
    ∀ (α : Type) fuel (x : Script κ σ α) f, f.world = w →
      x.Throughout h fuel f (World.Offers h made bundle b) ∧
      ∀ r f' id stack, x.run (h.dispatch fuel) f = some (r, f') →
        w.enclosures[EnclosureId.index id]? = some (.idle stack) →
        ∃ stack', f'.world.enclosures[id.index]? = some (.idle stack') := by
  refine ⟨hw.reads, ?_⟩
  rintro α fuel x f rfl
  exact ⟨hw.throughout fuel x, fun _ _ _ _ hx hidle => hw.idle_again hx hidle⟩

/-- To read an attribute leaves the stack alone on which it is read. -/
theorem Op.stack_readAttr {d : Dispatch κ σ} {v : Value} {name : String} {f f' : Frame κ σ}
    {r : Except Failure Value} (hx : (Op.readAttr v name).run d f = some (r, f')) :
    f'.stack = f.stack := by
  have hread : (Op.readAttr v name).run d f = (d.readAttr v name).onWorld.onSession f := rfl
  rw [hread, Run.onSession_apply] at hx
  rcases hanswer : (d.readAttr v name).onWorld f.toSession with _ | ⟨r', s⟩
  · rw [hanswer] at hx
    cases hx
  · rw [hanswer] at hx
    cases hx
    obtain ⟨w, -, rfl⟩ := Run.of_onWorld hanswer
    rfl

/-! ## Main theorem -/

namespace Session

variable (h : Host κ σ) (s : Session κ σ)

/-- A bundle of keywords is offered as soon as it is made. -/
theorem bundle_keywords_offers (made : Stack κ) {m : MapId}
    (hm : (s.world.entries m).isEmpty = false) :
    (s.bundle [] (some m)).2.world.Offers h made ⟨s.world.objects.size⟩ (.mapping m) := by
  rw [s.bundle_keywords hm]
  refine ⟨?_, nofun⟩
  rw [World.object_newObject]
  exact if_pos rfl

theorem bundle_arguments_idle {positional : List Value} (hp : positional ≠ [])
    (keywords : Option MapId) :
    (s.bundle positional keywords).2.world.enclosures[s.world.enclosures.size]? =
      some (.idle (s.argumentStack positional keywords)) := by
  rw [s.bundle_arguments hp]
  exact Array.getElem?_push_size

/-- So is a bundle with a stack of its own, which is issued for it. -/
theorem bundle_arguments_offers {positional : List Value} (hp : positional ≠ [])
    (keywords : Option MapId) :
    (s.bundle positional keywords).2.world.Offers h (s.argumentStack positional keywords)
      ⟨s.world.objects.size⟩ (.enclosure ⟨s.world.enclosures.size⟩) := by
  have hidle := s.bundle_arguments_idle hp keywords
  refine ⟨?_, ?_⟩
  · rw [s.bundle_arguments hp, World.object_newObject]
    exact if_pos rfl
  · rintro id ⟨⟩
    exact .inl ⟨_, hidle, .refl h _ _⟩

end Session

/-- **What calling a stack makes, and what is read from it ever after.**

* No arguments, or keywords without entries and nothing else, make no value. Anything else makes a
  list of one bundle. The stack that is called stays as it is.
* Keywords alone are bundled as the mapping that they are. Positional arguments are bundled over a
  stack that is issued for them, with the accessor and the reserved names of the one that is called.
* At every later time, whatever programs of the host do, the bundle is over what it was made over,
  and a stack of its own has changed by look-ups through the bundle only. Its stack is idle again
  after every program that began when it was.
* So an attribute is the entry that the keywords have by then, as it is; or else what a look-up on
  the stack comes to, where exactly a miss of that name is an absent attribute. Only a read that
  comes while the stack is being read is refused.
* To read an attribute never touches the stack on which it is read. -/
theorem Host.bundles_read (h : Host κ σ) (s : Session κ σ) (positional : List Value)
    (keywords : Option MapId) :
    ((s.bundle positional keywords).1 = .none ↔
      positional = [] ∧ ∀ m, keywords = some m → (s.world.entries m).isEmpty = true) ∧
    (s.bundle positional keywords).2.stack = s.stack ∧
    ((s.bundle positional keywords).1 ≠ .none → ∃ bundle b,
      (s.bundle positional keywords).1 = .list [.object bundle] ∧
      (positional = [] → ∃ m, keywords = some m ∧ b = .mapping m) ∧
      (positional ≠ [] → ∃ id, b = .enclosure id ∧ s.world.enclosures[id.index]? = none ∧
        (s.bundle positional keywords).2.world.enclosures[id.index]? =
          some (.idle (s.argumentStack positional keywords))) ∧
      (s.bundle positional keywords).2.world.Offers h (s.argumentStack positional keywords) bundle
        b ∧
      ∀ w, w.Offers h (s.argumentStack positional keywords) bundle b →
        (∀ fuel name, h.Reads fuel bundle b name w) ∧
        ∀ (α : Type) fuel (x : Script κ σ α) f, f.world = w →
          x.Throughout h fuel f
            (World.Offers h (s.argumentStack positional keywords) bundle b) ∧
          ∀ r f' id stack, x.run (h.dispatch fuel) f = some (r, f') →
            w.enclosures[EnclosureId.index id]? = some (.idle stack) →
            ∃ stack', f'.world.enclosures[id.index]? = some (.idle stack')) ∧
    ∀ fuel v name f r f', (Op.readAttr v name).run (h.dispatch fuel) f = some (r, f') →
      f'.stack = f.stack := by
  have hreads : ∀ fuel v name f r f', (Op.readAttr v name).run (h.dispatch fuel) f = some (r, f') →
      f'.stack = f.stack := fun _ _ _ _ _ _ => Op.stack_readAttr
  by_cases hp : positional = []
  · subst hp
    by_cases hk : s.keywordLayers keywords = []
    · have hempty := s.keywordLayers_eq_nil.mp hk
      rw [s.bundle_nothing hk]
      exact ⟨⟨fun _ => ⟨rfl, hempty⟩, fun _ => rfl⟩, rfl, fun hne => absurd rfl hne, hreads⟩
    · obtain ⟨m, rfl, hfull⟩ : ∃ m, keywords = some m ∧ (s.world.entries m).isEmpty = false := by
        cases keywords with
        | none => exact absurd rfl hk
        | some m =>
          refine ⟨m, rfl, ?_⟩
          cases hm : (s.world.entries m).isEmpty
          · rfl
          · exact absurd (by simp [Session.keywordLayers, hm]) hk
      have hoffers := s.bundle_keywords_offers h (s.argumentStack [] (some m)) hfull
      have hvalue := congrArg Prod.fst (s.bundle_keywords hfull)
      have hstack := congrArg (fun p => p.2.stack) (s.bundle_keywords hfull)
      refine ⟨?_, hstack, fun _ => ⟨_, _, hvalue, fun _ => ⟨m, rfl, rfl⟩, fun hne => absurd rfl hne,
        hoffers, fun _ hw => hw.later⟩, hreads⟩
      rw [hvalue]
      refine ⟨nofun, fun ⟨_, hempty⟩ => ?_⟩
      rw [hempty m rfl] at hfull
      cases hfull
  · have hoffers := s.bundle_arguments_offers h hp keywords
    have hvalue := congrArg Prod.fst (s.bundle_arguments hp keywords)
    have hstack := congrArg (fun p => p.2.stack) (s.bundle_arguments hp keywords)
    have hnew : s.world.enclosures[s.world.enclosures.size]? = none :=
      Array.getElem?_eq_none (Nat.le_refl _)
    refine ⟨?_, hstack, fun _ => ⟨_, _, hvalue, fun hnil => absurd hnil hp, fun _ =>
      ⟨_, rfl, hnew, s.bundle_arguments_idle hp keywords⟩, hoffers, fun _ hw => hw.later⟩, hreads⟩
    rw [hvalue]
    exact ⟨nofun, fun ⟨hnil, _⟩ => absurd hnil hp⟩

/-- A host whose functions read `b` of the first object. -/
def selfAskingHost : Host Unit Unit where
  readAttr _ _ := .answer .none
  readItem _ _ := .answer none
  call _ := .request (.readAttr (.object ⟨0⟩) "b")
  apply _ _ := .answer .none
  hook _ := .answer none
  access _ _ _ := .answer .none
  evaluate _ := .answer .none

/-- A mapping with such a function under `a`. -/
def selfAskingSession : Session Unit Unit :=
  ⟨{ maps := #[.ofList [("a", .function ⟨0⟩), ("b", .int 1)]], functions := #[⟨"f", ()⟩],
     host := () }, {}⟩

/-- The world in which the mapping has been bundled. -/
def bundledWorld : World Unit Unit := (selfAskingSession.bundle [.map ⟨0⟩] none).2.world

/-- The bundle is read, and what is read is a look-up, before and after a program reads it. -/
theorem selfAskingSession_bundles_read :
    (selfAskingSession.bundle [.map ⟨0⟩] none).1 ≠ .none ∧
    bundledWorld.Offers selfAskingHost (selfAskingSession.argumentStack [.map ⟨0⟩] none) ⟨0⟩
      (.enclosure ⟨0⟩) ∧
    ((selfAskingHost.dispatch 4).readAttr (.object ⟨0⟩) "b" bundledWorld).map (·.1) =
      some (.ok (.int 1)) ∧
    ((selfAskingHost.dispatch 4).readAttr (.object ⟨0⟩) "c" bundledWorld).map (·.1) =
      some (.error (Bundle.absent "c")) ∧
    ∃ r f', (Script.request (.readAttr (.object ⟨0⟩) "b")).run (selfAskingHost.dispatch 4)
        ⟨⟨bundledWorld, selfAskingSession.stack⟩, {}⟩ = some (r, f') ∧
      f'.stack = selfAskingSession.stack ∧
      ∃ stack, f'.world.enclosures[0]? = some (.idle stack) := by
  obtain ⟨-, -, hmade, hreads⟩ :=
    selfAskingHost.bundles_read selfAskingSession [.map ⟨0⟩] none
  have hsome : (selfAskingSession.bundle [.map ⟨0⟩] none).1 ≠ .none := nofun
  obtain ⟨bundle, b, hlist, -, hover, hoffers, hlater⟩ := hmade hsome
  have hfirst : Value.list [.object ⟨0⟩] = .list [.object bundle] := hlist
  cases hfirst
  obtain ⟨id, rfl, -, hidle⟩ := hover nofun
  have hown : (Object.bundle (.enclosure ⟨0⟩) : Object Unit) = .bundle (.enclosure id) :=
    hoffers.object
  cases hown
  obtain ⟨hread, hever⟩ := hlater bundledWorld hoffers
  obtain ⟨r, f', hread'⟩ : ∃ r f', (Op.readAttr (.object ⟨0⟩) "b").run (selfAskingHost.dispatch 4)
      ⟨⟨bundledWorld, selfAskingSession.stack⟩, {}⟩ = some (r, f') := ⟨_, _, rfl⟩
  have hrun : (Script.request (.readAttr (.object ⟨0⟩) "b")).run (selfAskingHost.dispatch 4)
      ⟨⟨bundledWorld, selfAskingSession.stack⟩, {}⟩ = some (r, f') := by
    rw [Script.run_request]
    exact hread'
  refine ⟨hsome, hoffers, ?_, ?_, r, f', hrun, hreads _ _ _ _ _ _ hread', ?_⟩
  · rw [(hread 3 "b").idle ⟨0⟩ _ rfl hidle]
    rfl
  · rw [(hread 3 "c").idle ⟨0⟩ _ rfl hidle]
    rfl
  · exact (hever Value 4 _ _ rfl).2 r f' ⟨0⟩ _ hrun hidle

/-- The world when the function is invoked. -/
def selfAskingWorld : World Unit Unit :=
  ((bundledWorld.setEnclosure ⟨0⟩ .reading).record (.searched (.mapping ⟨0⟩) "a")).record
    (.called (.function ⟨0⟩))

/-- **A read of a bundle that is being read is no look-up.** Reading `a` invokes the function, and
at that time `b` can be found on the stack of the bundle; but the function's own read of `b` is
refused, and so the read of `a` fails. -/
theorem selfAskingWorld_refused :
    bundledWorld.object ⟨0⟩ = .bundle (.enclosure ⟨0⟩) ∧
    bundledWorld.enclosures[0]? =
      some (.idle (selfAskingSession.argumentStack [.map ⟨0⟩] none)) ∧
    (∃ w, (selfAskingHost.dispatch 4).readAttr (.object ⟨0⟩) "a" bundledWorld =
      some (.error Bundle.busy, w)) ∧
    (selfAskingHost.dispatch 3).call (.function ⟨0⟩) selfAskingWorld =
      some (.error Bundle.busy, selfAskingWorld) ∧
    (selfAskingHost.dispatch 4).readAttr (.object ⟨0⟩) "b" selfAskingWorld =
      some (.error Bundle.busy, selfAskingWorld) ∧
    ((selfAskingHost.dispatch 3).lookup "b" true
      ⟨selfAskingWorld, selfAskingSession.argumentStack [.map ⟨0⟩] none⟩).map (·.1) =
        some (.ok (.int 1)) := by
  have hbusy : selfAskingWorld.Busy ⟨0⟩ := ⟨⟨0⟩, rfl, rfl⟩
  have hcalled : (selfAskingHost.dispatch 3).call (.function ⟨0⟩) selfAskingWorld =
      some (.error Bundle.busy, selfAskingWorld) := by
    show runAlone (selfAskingHost.dispatch 2) (.request (.readAttr (.object ⟨0⟩) "b")) _ = _
    rw [runAlone, runScript, Script.run_request]
    rfl
  have hfails : (selfAskingHost.dispatch 3).FailsInvoked "a"
      ⟨bundledWorld.setEnclosure ⟨0⟩ .reading, selfAskingSession.argumentStack [.map ⟨0⟩] none⟩
      Bundle.busy ⟨selfAskingWorld, selfAskingSession.argumentStack [.map ⟨0⟩] none⟩ :=
    ⟨.function ⟨0⟩, _, rfl,
      Run.onWorld_eq (s := ⟨_, selfAskingSession.argumentStack [.map ⟨0⟩] none⟩) hcalled⟩
  have hread : (selfAskingHost.dispatch 4).readAttr (.object ⟨0⟩) "a" bundledWorld = _ :=
    (Answer.readAttr_idle selfAskingHost _ rfl rfl "a").trans
      (Dispatch.readEnclosure_error hfails.lookup (by simp [Bundle.busy]))
  exact ⟨rfl, rfl, ⟨_, hread⟩, hcalled, Answer.readAttr_busy selfAskingHost _ hbusy "b", rfl⟩

end LayeredScope
