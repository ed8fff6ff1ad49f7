import LayeredScope.Proofs.Views

/-!
# Values unfolded

The values behind the identities form a graph, with any sharing and any cycles that mappings make
possible. Its text is that of a tree: the value is unfolded from the root, and a mapping is cut
where it occurs inside itself.

* `Sketch` — the tree: texts, lists, mappings with their fields, what stands around the value
  of a view or a bundle, and cuts. `Sketch.write` is its text, and `Sketch.Whole` says that
  nothing is cut.
* `World.Unfolds` — the tree of a value, under the mappings that are open on the way to it. There is
  at most one (`World.Unfolds.unique`).
* `World.Grounded` — a view presents older objects only, as a view that is made of what
  there is does.
* `World.displayIn_unfolds` — **the text of a value is that of its tree**, which exists, cycles or
  not.
* `World.Part` — one value is found directly inside another. Where no mapping is found inside
  itself, nothing is cut (`World.Unfolds.whole`).
-/

namespace LayeredScope

variable {κ σ : Type}

/-! ## Lists side by side -/

/-- Two lists beside the same list are equal if they are at each position. -/
theorem eq_of_each {α β : Type} {l : List α} {as bs : List β} (hAs : as.length = l.length)
    (hBs : bs.length = l.length)
    (h : ∀ (i : Nat) x a b, l[i]? = some x → as[i]? = some a → bs[i]? = some b → a = b) :
    as = bs := by
  refine List.ext_getElem (hAs.trans hBs.symm) fun i ha hb => ?_
  have hl : i < l.length := by omega
  exact h i _ _ _ (List.getElem?_eq_getElem hl) (List.getElem?_eq_getElem ha)
    (List.getElem?_eq_getElem hb)

theorem map_eq_of_each {α β γ : Type} {l : List α} {bs : List β} {f : α → γ} {g : β → γ}
    (length : bs.length = l.length)
    (each : ∀ (i : Nat) a b, l[i]? = some a → bs[i]? = some b → f a = g b) :
    l.map f = bs.map g := by
  refine eq_of_each (l := l) (by simp) (by simp [length]) fun i x a b hx ha hb => ?_
  rw [List.getElem?_map, Option.map_eq_some_iff] at ha hb
  obtain ⟨x', hx', rfl⟩ := ha
  obtain ⟨b, hb, rfl⟩ := hb
  exact each i x' b hx' hb

/-- What there is for each entry of a list can be listed beside it. -/
theorem exists_each {α β : Type} {P : α → β → Prop} {l : List α} (h : ∀ a ∈ l, ∃ b, P a b) :
    ∃ bs : List β, bs.length = l.length ∧
      ∀ (i : Nat) a b, l[i]? = some a → bs[i]? = some b → P a b := by
  induction l with
  | nil => exact ⟨[], rfl, by simp⟩
  | cons a rest ih =>
    obtain ⟨b, hb⟩ := h a List.mem_cons_self
    obtain ⟨bs, hlength, hbs⟩ := ih fun a ha => h a (List.mem_cons_of_mem _ ha)
    refine ⟨b :: bs, by simp [hlength], fun i a' b' ha' hb' => ?_⟩
    cases i with
    | zero =>
      cases ha'
      cases hb'
      exact hb
    | succ i => exact hbs i a' b' ha' hb'

theorem exists_at {α β : Type} {as : List α} {bs : List β} (length : bs.length = as.length) {b : β}
    (hb : b ∈ bs) : ∃ (i : Nat) (a : α), as[i]? = some a ∧ bs[i]? = some b := by
  obtain ⟨i, hi⟩ := List.mem_iff_getElem?.mp hb
  have hlt : i < bs.length := (List.getElem?_eq_some_iff.mp hi).1
  exact ⟨i, as[i], List.getElem?_eq_getElem (by omega), hi⟩

/-! ## Trees -/

/-- The shape of a text. -/
inductive Sketch where
  | text (text : String)
  | list (items : List Sketch)
  | mapping (fields : List (String × Sketch))
  /-- The value of a view or of a bundle, with the name of the type around it. -/
  | around (typeName : String) (value : Sketch)
  /-- A mapping that stands inside itself. -/
  | cut

namespace Sketch

mutual

/-- The text. -/
def write : Sketch → String
  | text t => t
  | list items => "[" ++ ", ".intercalate (writeItems items) ++ "]"
  | mapping fields => "\x7b" ++ ", ".intercalate (writeFields fields) ++ "\x7d"
  | around typeName value => typeName ++ "(" ++ write value ++ ")"
  | cut => "\x7b...\x7d"

def writeItems : List Sketch → List String
  | [] => []
  | s :: rest => write s :: writeItems rest

def writeFields : List (String × Sketch) → List String
  | [] => []
  | (key, s) :: rest => (key ++ ": " ++ write s) :: writeFields rest

end

/-- Nothing is cut. -/
inductive Whole : Sketch → Prop
  | text (t : String) : Whole (.text t)
  | list {items : List Sketch} (h : ∀ s ∈ items, Whole s) : Whole (.list items)
  | mapping {fields : List (String × Sketch)} (h : ∀ key s, (key, s) ∈ fields → Whole s) :
      Whole (.mapping fields)
  | around {typeName : String} {value : Sketch} (h : Whole value) : Whole (.around typeName value)

theorem writeItems_eq (items : List Sketch) : writeItems items = items.map write := by
  induction items with
  | nil => rfl
  | cons s rest ih => rw [writeItems, ih, List.map_cons]

theorem writeFields_eq (fields : List (String × Sketch)) :
    writeFields fields = fields.map fun p => p.1 ++ ": " ++ p.2.write := by
  induction fields with
  | nil => rfl
  | cons p rest ih => rw [writeFields, ih, List.map_cons]

end Sketch

namespace World

/-- The text of a value that nothing is found inside. -/
def atom? (w : World κ σ) : Value → Option String
  | .none => some "none"
  | .bool b => some (if b then "true" else "false")
  | .int n => some (toString n)
  | .float x => some (Binary64.Layout.reading.write x)
  | .str s => some s
  | .list _ | .map _ => none
  | .object id =>
    match w.object id with
    | .host h => some (h.text.getD ("<" ++ h.typeName ++ " object>"))
    | .bundle (.enclosure _) => some "AttributeView(<namespace>)"
    | .template t => some t.name
    | .view _ | .bundle (.mapping _) => none
  | .function id => some ("<function " ++ w.functionName id ++ ">")

/-- The tree of a value under open mappings. Lists keep their order, and the fields of a mapping
stand in the order of its keys, which is ascending. A mapping is cut exactly if it is open. -/
inductive Unfolds (w : World κ σ) : List MapId → Value → Sketch → Prop
  | atom {path : List MapId} {v : Value} {t : String} (h : w.atom? v = some t) :
      Unfolds w path v (.text t)
  | list {path : List MapId} {items : List Value} {sketches : List Sketch}
      (length : sketches.length = items.length)
      (each : ∀ (i : Nat) v s, items[i]? = some v → sketches[i]? = some s → Unfolds w path v s) :
      Unfolds w path (.list items) (.list sketches)
  | cut {path : List MapId} {m : MapId} (opened : m ∈ path) : Unfolds w path (.map m) .cut
  | mapping {path : List MapId} {m : MapId} {sketches : List Sketch} (fresh : m ∉ path)
      (length : sketches.length = (w.entries m).toList.length)
      (each : ∀ (i : Nat) p s, (w.entries m).toList[i]? = some p → sketches[i]? = some s →
        Unfolds w (m :: path) p.2 s) :
      Unfolds w path (.map m) (.mapping ((w.entries m).keys.zip sketches))
  | view {path : List MapId} {id : ObjectId} {v : ObjectView κ} {s : Sketch}
      (h : w.object id = .view v) (target : Unfolds w path v.target s) :
      Unfolds w path (.object id) (.around "SingleScopeView" s)
  | bundle {path : List MapId} {id : ObjectId} {m : MapId} {s : Sketch}
      (h : w.object id = .bundle (.mapping m)) (keywords : Unfolds w path (.map m) s) :
      Unfolds w path (.object id) (.around "AttributeView" s)

variable {w : World κ σ}

theorem atom?_view {id : ObjectId} {v : ObjectView κ} (h : w.object id = .view v) :
    w.atom? (.object id) = none := by
  simp only [atom?, h]

theorem atom?_bundle {id : ObjectId} {m : MapId} (h : w.object id = .bundle (.mapping m)) :
    w.atom? (.object id) = none := by
  simp only [atom?, h]

/-- A value has at most one tree. -/
theorem Unfolds.unique {path : List MapId} {v : Value} {s s' : Sketch} (h : w.Unfolds path v s)
    (h' : w.Unfolds path v s') : s = s' := by
  induction h generalizing s' with
  | atom h =>
    cases h' with
    | atom h' => rw [h] at h'; cases h'; rfl
    | list length' each' => cases h
    | cut opened' => cases h
    | mapping fresh' length' each' => cases h
    | view hobject' target' => cases (atom?_view hobject').symm.trans h
    | bundle hobject' keywords' => cases (atom?_bundle hobject').symm.trans h
  | list length each ih =>
    cases h' with
    | atom h' => cases h'
    | list length' each' =>
      congr 1
      exact eq_of_each length length' fun i x a b hx ha hb => ih i x a hx ha (each' i x b hx hb)
  | cut opened =>
    cases h' with
    | atom h' => cases h'
    | cut opened' => rfl
    | mapping fresh' length' each' => exact absurd opened fresh'
  | mapping fresh length each ih =>
    cases h' with
    | atom h' => cases h'
    | cut opened' => exact absurd opened' fresh
    | mapping fresh' length' each' =>
      congr 2
      exact eq_of_each length length' fun i x a b hx ha hb => ih i x a hx ha (each' i x b hx hb)
  | view hobject target ih =>
    cases h' with
    | atom h' => cases (atom?_view hobject).symm.trans h'
    | view hobject' target' =>
      cases hobject.symm.trans hobject'
      rw [ih target']
    | bundle hobject' keywords' => cases hobject.symm.trans hobject'
  | bundle hobject keywords ih =>
    cases h' with
    | atom h' => cases (atom?_bundle hobject).symm.trans h'
    | view hobject' target' => cases hobject.symm.trans hobject'
    | bundle hobject' keywords' =>
      cases hobject.symm.trans hobject'
      rw [ih keywords']

end World

/-! ## Heaps that views were made on -/

namespace Value

mutual

/-- The objects that stand in a value, by themselves or in lists. -/
def objects : Value → List ObjectId
  | .object id => [id]
  | .list items => objectsOf items
  | _ => []

def objectsOf : List Value → List ObjectId
  | [] => []
  | v :: rest => objects v ++ objectsOf rest

end

theorem mem_objects_list {items : List Value} {v : Value} {id : ObjectId} (hv : v ∈ items)
    (hid : id ∈ v.objects) : id ∈ (Value.list items).objects := by
  show id ∈ objectsOf items
  induction items with
  | nil => cases hv
  | cons u rest ih =>
    rw [objectsOf, List.mem_append]
    cases hv with
    | head => exact .inl hid
    | tail _ hv => exact .inr (ih hv)

end Value

namespace World

variable {w : World κ σ}

/-- A view presents only objects that are older than the view; mappings are free to
hold anything. -/
def Grounded (w : World κ σ) : Prop :=
  ∀ id v, w.object id = .view v → ∀ other ∈ v.target.objects, other.index < id.index

/-- The views in a value are older than `bound`. -/
def Precedes (w : World κ σ) (bound : Nat) (v : Value) : Prop :=
  ∀ id ∈ v.objects, ∀ view, w.object id = .view view → id.index < bound

theorem precedes_size (w : World κ σ) (v : Value) : w.Precedes w.objects.size v :=
  fun _ _ _ hview => lt_of_view? (view?_eq_some.mpr hview)

namespace Grounded

/-- Making an object that is not a view. -/
theorem newObject (hw : w.Grounded) {o : Object κ} (ho : ∀ v, o ≠ .view v) :
    (w.newObject o).2.Grounded := by
  intro id v hv
  rw [object_newObject] at hv
  split at hv
  · exact absurd hv (ho v)
  · exact hw id v hv

/-- Making a view of a value that is there. -/
theorem newView (hw : w.Grounded) {target : Value}
    (htarget : ∀ id ∈ target.objects, id.index < w.objects.size)
    (accessor : Option (Accessor κ)) (reserved : Reserved) :
    (w.newView target accessor reserved).2.Grounded := by
  intro id v hv
  unfold World.newView at hv
  rw [object_newObject] at hv
  split at hv
  · next hnew =>
    cases hv
    rw [hnew]
    exact htarget
  · exact hw id v hv

end Grounded

/-! ## The text is that of the tree -/

theorem displayItems_eq (opened : List MapId) (bound : Nat) (items : List Value) :
    w.displayItems opened bound items = items.map (w.displayIn opened bound) := by
  induction items with
  | nil => simp only [displayItems, List.map_nil]
  | cons v rest ih => simp only [displayItems, ih, List.map_cons]

/-- The texts of the fields, key by key. -/
theorem fields_eq_of_each {l : List (String × Value)} {sketches : List Sketch} {f : Value → String}
    (length : sketches.length = l.length)
    (each : ∀ (i : Nat) p s, l[i]? = some p → sketches[i]? = some s → f p.2 = s.write) :
    l.map (fun p => p.1 ++ ": " ++ f p.2) =
      Sketch.writeFields ((l.map (·.1)).zip sketches) := by
  induction l generalizing sketches with
  | nil => rfl
  | cons p rest ih =>
    cases sketches with
    | nil => cases length
    | cons s sketches =>
      have hfirst := each 0 p s rfl rfl
      have hrest := ih (Nat.succ.inj length) fun i p s hp hs => each (i + 1) p s hp hs
      simp only [List.map_cons, List.zip_cons_cons, Sketch.writeFields, hfirst, hrest]

/-- A mapping that was never issued has no entries. -/
theorem entries_of_le {m : MapId} (h : w.maps.size ≤ m.index) : w.entries m = ∅ := by
  simp [entries, Array.getD, Nat.not_lt.mpr h]

theorem displayIn_atom {v : Value} {t : String} (h : w.atom? v = some t) (path : List MapId)
    (bound : Nat) : w.displayIn path bound v = t := by
  cases v with
  | list items => cases h
  | map m => cases h
  | object id =>
    simp only [atom?] at h
    rw [displayIn]
    split at h <;> simp_all
  | _ =>
    cases h
    rw [displayIn]

theorem exists_of_atom {v : Value} (h : (w.atom? v).isSome) (path : List MapId) (bound : Nat) :
    ∃ s, w.Unfolds path v s ∧ w.displayIn path bound v = s.write := by
  obtain ⟨t, ht⟩ := Option.isSome_iff_exists.mp h
  exact ⟨.text t, .atom ht, by rw [displayIn_atom ht, Sketch.write]⟩

/-- **The text of a value under open mappings is that of its tree**, and there is one. -/
theorem displayIn_unfolds (hw : w.Grounded) :
    (∀ path bound v, w.Precedes bound v →
      ∃ s, w.Unfolds path v s ∧ w.displayIn path bound v = s.write) ∧
    (∀ path m, ∃ s, w.Unfolds path (.map m) s ∧ w.displayMap path m = s.write) ∧
    ∀ path bound (items : List Value), (∀ v ∈ items, w.Precedes bound v) →
      ∀ v ∈ items, ∃ s, w.Unfolds path v s ∧ w.displayIn path bound v = s.write := by
  apply displayIn.mutual_induct w
    (fun path bound v => w.Precedes bound v →
      ∃ s, w.Unfolds path v s ∧ w.displayIn path bound v = s.write)
    (fun path m => ∃ s, w.Unfolds path (.map m) s ∧ w.displayMap path m = s.write)
    (fun path bound items => (∀ v ∈ items, w.Precedes bound v) →
      ∀ v ∈ items, ∃ s, w.Unfolds path v s ∧ w.displayIn path bound v = s.write)
  case case7 =>
    intro path bound items ih hprecedes
    obtain ⟨sketches, hlength, heach⟩ := exists_each (ih fun v hv id hid =>
      hprecedes id (Value.mem_objects_list hv hid))
    refine ⟨.list sketches, .list hlength fun i v s hv hs => (heach i v s hv hs).1, ?_⟩
    rw [displayIn, displayItems_eq, Sketch.write, Sketch.writeItems_eq,
      map_eq_of_each hlength fun i v s hv hs => (heach i v s hv hs).2]
  case case8 =>
    intro path bound m ih _
    obtain ⟨s, hs, htext⟩ := ih
    exact ⟨s, hs, by rw [displayIn, htext]⟩
  case case10 =>
    intro path bound id v hobject hbound ih _
    obtain ⟨s, hs, htext⟩ := ih fun other hother view hview => hw id v hobject other hother
    refine ⟨.around "SingleScopeView" s, .view hobject hs, ?_⟩
    simp only [displayIn, hobject, hbound, if_true, htext, Sketch.write]
    rfl
  case case11 =>
    intro path bound id v hobject hbound hprecedes
    exact absurd (hprecedes id (List.mem_singleton_self id) v hobject) hbound
  case case12 =>
    intro path bound id m hobject ih _
    obtain ⟨s, hs, htext⟩ := ih
    refine ⟨.around "AttributeView" s, .bundle hobject hs, ?_⟩
    simp only [displayIn, hobject, htext, Sketch.write]
    rfl
  case case16 =>
    intro path m hopened
    exact ⟨.cut, .cut hopened, by rw [displayMap, if_pos hopened, Sketch.write]⟩
  case case17 =>
    intro path m hopened hissued ih
    have hentries : ∀ p ∈ (w.entries m).toList, ∃ s, w.Unfolds (m :: path) p.2 s ∧
        w.displayIn (m :: path) w.objects.size p.2 = s.write :=
      fun p _ => ih p.2 (w.precedes_size p.2)
    obtain ⟨sketches, hlength, heach⟩ := exists_each hentries
    refine ⟨.mapping ((w.entries m).keys.zip sketches),
      .mapping hopened hlength fun i p s hp hs => (heach i p s hp hs).1, ?_⟩
    rw [displayMap, if_neg hopened, if_pos hissued, Sketch.write, Entries.keys,
      ← fields_eq_of_each hlength fun i p s hp hs => (heach i p s hp hs).2]
  case case18 =>
    intro path m hopened hissued
    have hempty := entries_of_le (Nat.not_lt.mp hissued)
    refine ⟨.mapping ((w.entries m).keys.zip []),
      .mapping hopened (by rw [hempty]; rfl) (by simp), ?_⟩
    rw [displayMap, if_neg hopened, if_neg hissued, List.zip_nil_right]
    rfl
  case case19 => simp
  case case20 =>
    intro path bound v rest ihv ihrest hprecedes u hu
    rcases List.mem_cons.mp hu with rfl | hu
    · exact ihv (hprecedes u List.mem_cons_self)
    · exact ihrest (fun u hu => hprecedes u (List.mem_cons_of_mem v hu)) u hu
  all_goals
    intros
    exact exists_of_atom (by simp [atom?, *]) _ _

/-- The tree of a value, and its text. -/
theorem exists_unfolds (hw : w.Grounded) (v : Value) :
    ∃ s, w.Unfolds [] v s ∧ w.display v = s.write :=
  (displayIn_unfolds hw).1 [] w.objects.size v (w.precedes_size v)

/-! ## Values without cycles -/

/-- The second value is found directly inside the first. -/
inductive Part (w : World κ σ) : Value → Value → Prop
  | item {items : List Value} {v : Value} (h : v ∈ items) : Part w (.list items) v
  | entry {m : MapId} {key : String} {v : Value} (h : (key, v) ∈ (w.entries m).toList) :
      Part w (.map m) v
  | target {id : ObjectId} {v : ObjectView κ} (h : w.object id = .view v) :
      Part w (.object id) v.target
  | keywords {id : ObjectId} {m : MapId} (h : w.object id = .bundle (.mapping m)) :
      Part w (.object id) (.map m)

/-- No mapping that is found inside the value, however deep, is found inside itself. -/
def Acyclic (w : World κ σ) (v : Value) : Prop :=
  ∀ m, v = .map m ∨ Relation.TransGen w.Part v (.map m) →
    ¬ Relation.TransGen w.Part (.map m) (.map m)

theorem Acyclic.part {u v : Value} (h : w.Acyclic u) (hpart : w.Part u v) : w.Acyclic v := by
  rintro m (rfl | hm)
  · exact h m (.inr (.single hpart))
  · exact h m (.inr ((Relation.TransGen.single hpart).trans hm))

/-- Nothing is cut in the tree of a value without cycles: every open mapping is one that the value
is found inside. -/
theorem Unfolds.whole {path : List MapId} {v : Value} {s : Sketch} (h : w.Unfolds path v s)
    (hpath : ∀ m ∈ path, Relation.TransGen w.Part (.map m) v) (hv : w.Acyclic v) : s.Whole := by
  induction h with
  | atom h => exact .text _
  | list length each ih =>
    refine .list fun s hs => ?_
    obtain ⟨i, u, hu, hi⟩ := exists_at length hs
    have hpart : w.Part _ u := .item (List.mem_of_getElem? hu)
    exact ih i u s hu hi (fun m hm => (hpath m hm).tail hpart) (hv.part hpart)
  | cut opened => exact absurd (hpath _ opened) (hv _ (.inl rfl))
  | mapping fresh length each ih =>
    refine .mapping fun key s hs => ?_
    obtain ⟨i, p, hp, hi⟩ := exists_at length (List.of_mem_zip hs).2
    have hpart : w.Part _ p.2 := .entry (List.mem_of_getElem? hp)
    refine ih i p s hp hi (fun m hm => ?_) (hv.part hpart)
    rcases List.mem_cons.mp hm with rfl | hm
    · exact .single hpart
    · exact (hpath m hm).tail hpart
  | view hobject target ih =>
    exact .around (ih (fun m hm => (hpath m hm).tail (.target hobject)) (hv.part (.target hobject)))
  | bundle hobject keywords ih =>
    exact .around (ih (fun m hm => (hpath m hm).tail (.keywords hobject))
      (hv.part (.keywords hobject)))

end World

end LayeredScope
