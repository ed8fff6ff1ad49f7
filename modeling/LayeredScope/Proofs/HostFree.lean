import LayeredScope.Document.Template
import LayeredScope.Proofs.Growth

/-!
# Programs without a host

A program is free of its host if no code can run: its blocks are texts, names to insert and choices
between names, every value is plain or a template, and every layer is a mapping or a view without
an accessor. Such programs still recurse, since templates find each other by name.

* `Block.isHostFree` — no code in a block, at any depth.
* `World.isHostFree` — a value that is plain, a mapping that was issued, or a template.
* `World.HostFree limit` — a world of such values, whose templates are nested no deeper than
  `limit`.
* `World.layerIsHostFree` — a layer of such a world.
* `World.Grows.display_eq` — the text of such a value stays the same while the world grows.
-/

namespace LayeredScope

variable {κ σ : Type}

def Expr.isName : Expr κ → Bool
  | .name _ => true
  | .code _ => false

namespace Block

mutual

/-- Texts, names to insert, and choices between names. -/
def isHostFree : Block κ → Bool
  | .text _ => true
  | .insert e => e.isName
  | .choose branches otherwise => branchesAreHostFree branches && otherwiseIsHostFree otherwise
  | .code _ => false

def areHostFree : List (Block κ) → Bool
  | [] => true
  | block :: rest => block.isHostFree && areHostFree rest

def branchesAreHostFree : List (Expr κ × List (Block κ)) → Bool
  | [] => true
  | (condition, body) :: rest =>
    condition.isName && areHostFree body && branchesAreHostFree rest

def otherwiseIsHostFree : Option (List (Block κ)) → Bool
  | none => true
  | some body => areHostFree body

end

end Block

namespace World

/-- The template behind an identity. -/
def template? (w : World κ σ) (id : ObjectId) : Option (Template κ) :=
  match w.object id with
  | .template t => some t
  | _ => none

theorem template?_eq_some {w : World κ σ} {id : ObjectId} {t : Template κ} :
    w.template? id = some t ↔ w.object id = .template t := by
  unfold template?
  split <;> simp_all

mutual

/-- A value without a part of the host in it. -/
def isHostFree (w : World κ σ) : Value → Bool
  | .list items => areHostFree w items
  | .map m => m.index < w.maps.size
  | .object id => (w.template? id).isSome
  | .function _ => false
  | _ => true

def areHostFree (w : World κ σ) : List Value → Bool
  | [] => true
  | v :: rest => isHostFree w v && areHostFree w rest

end

/-- A mapping that was issued, or a view without an accessor on a value without a host. -/
def layerIsHostFree (w : World κ σ) : Layer → Bool
  | .mapping m => m.index < w.maps.size
  | .object id =>
    match w.view? id with
    | some v => v.accessor.isNone && w.isHostFree v.target &&
        v.memory.toList.all fun entry => w.isHostFree entry.2
    | none => false
  | .sealed _ => false

end World

/-- A template that runs no code, and is nested no deeper than `limit`. -/
structure Template.HostFree (limit : Int64) (w : World κ σ) (t : Template κ) : Prop where
  blocks : Block.areHostFree t.blocks = true
  globals : t.globals.index < w.maps.size
  vars : t.vars.index < w.maps.size
  nestingLimit : t.nestingLimit ≤ limit

/-- A world without a host. -/
structure World.HostFree (limit : Int64) (w : World κ σ) : Prop where
  values : ∀ entries ∈ w.maps, ∀ entry ∈ entries.toList, w.isHostFree entry.2 = true
  templates : ∀ id t, w.template? id = some t → t.HostFree limit w

theorem World.HostFree.get? {limit : Int64} {w : World κ σ} (h : w.HostFree limit) {m : MapId}
    {key : String} {v : Value} (hv : (w.entries m).get? key = some v) : w.isHostFree v = true := by
  by_cases hm : m.index < w.maps.size
  · have he : w.entries m = w.maps[m.index] := by simp [World.entries, Array.getD, hm]
    rw [he] at hv
    exact h.values _ (Array.getElem_mem hm) _ (Entries.mem_of_get? hv)
  · have he : w.entries m = ∅ := by simp [World.entries, Array.getD, hm]
    rw [he] at hv
    cases hv

/-! ## While the world grows -/

namespace World.KeepsBelow

variable {cut : Nat} {w w' : World κ σ}

theorem object_eq {id : ObjectId} (h : w.KeepsBelow cut w')
    (hid : w.object id ≠ .host { typeName := "object" }) : w'.object id = w.object id := by
  by_cases hlt : id.index < w.objects.size
  · exact h.object id hlt
  · exact absurd (object_of_le (Nat.not_lt.mp hlt)) hid

theorem template?_eq {id : ObjectId} {t : Template κ} (h : w.KeepsBelow cut w')
    (ht : w.template? id = some t) : w'.template? id = some t := by
  rw [template?_eq_some] at ht ⊢
  rw [h.object_eq (by rw [ht]; nofun), ht]

theorem view?_eq {id : ObjectId} {v : ObjectView κ} (h : w.KeepsBelow cut w')
    (hv : w.view? id = some v) : w'.view? id = some v := by
  rw [view?_eq_some] at hv ⊢
  rw [h.object_eq (by rw [hv]; nofun), hv]

mutual

theorem isHostFree (h : w.KeepsBelow cut w') :
    (v : Value) → w.isHostFree v = true → w'.isHostFree v = true
  | .list items, hv => areHostFree h items hv
  | .map m, hv => by
    have hm : m.index < w.maps.size := by simpa [World.isHostFree] using hv
    have hle := h.maps_le
    simp only [World.isHostFree, decide_eq_true_eq]
    omega
  | .object id, hv => by
    obtain ⟨t, ht⟩ := Option.isSome_iff_exists.mp hv
    exact Option.isSome_iff_exists.mpr ⟨t, h.template?_eq ht⟩
  | .none, _ | .bool _, _ | .int _, _ | .float _, _ | .str _, _ => rfl

theorem areHostFree (h : w.KeepsBelow cut w') :
    (vs : List Value) → w.areHostFree vs = true → w'.areHostFree vs = true
  | [], _ => rfl
  | v :: rest, hvs => by
    simp only [World.areHostFree, Bool.and_eq_true] at hvs ⊢
    exact ⟨isHostFree h v hvs.1, areHostFree h rest hvs.2⟩

end

end World.KeepsBelow

namespace World.Grows

variable {limit : Int64} {w w' : World κ σ}

mutual

/-- The text of a value without a host, by the recursion of the text itself: mappings are read only
where they have been issued, and there they have not changed. -/
theorem displayIn_eq (h : w.Grows w') (hw : w.HostFree limit) (opened : List MapId)
    (bound bound' : Nat) (v : Value) (hv : w.isHostFree v = true) :
    w'.displayIn opened bound' v = w.displayIn opened bound v := by
  cases v with
  | list items =>
    simp only [displayIn]
    rw [displayItems_eq h hw opened bound bound' items hv]
  | map m =>
    simp only [displayIn]
    exact displayMap_eq h hw opened m (by simpa [World.isHostFree] using hv)
  | object id =>
    obtain ⟨t, ht⟩ := Option.isSome_iff_exists.mp hv
    have ht' := h.template?_eq ht
    rw [template?_eq_some] at ht ht'
    simp only [displayIn, ht, ht']
  | function id => cases hv
  | none | bool b | int n | float x | str s => simp only [displayIn]
termination_by ((w.unopened opened).length, 1, sizeOf v)

theorem displayItems_eq (h : w.Grows w') (hw : w.HostFree limit) (opened : List MapId)
    (bound bound' : Nat) (items : List Value) (hv : w.areHostFree items = true) :
    w'.displayItems opened bound' items = w.displayItems opened bound items := by
  cases items with
  | nil => simp only [displayItems]
  | cons v rest =>
    simp only [World.areHostFree, Bool.and_eq_true] at hv
    simp only [displayItems]
    rw [displayIn_eq h hw opened bound bound' v hv.1,
      displayItems_eq h hw opened bound bound' rest hv.2]
termination_by ((w.unopened opened).length, 1, sizeOf items)

theorem displayMap_eq (h : w.Grows w') (hw : w.HostFree limit) (opened : List MapId)
    (m : MapId) (hm : m.index < w.maps.size) : w'.displayMap opened m = w.displayMap opened m := by
  have hm' : m.index < w'.maps.size := Nat.lt_of_lt_of_le hm h.maps_le
  have he : w.entries m = w.maps[m.index] := by simp [World.entries, Array.getD, hm]
  unfold displayMap
  by_cases hopen : m ∈ opened
  · rw [if_pos hopen, if_pos hopen]
  · rw [if_neg hopen, if_neg hopen, if_pos hm, if_pos hm', h.entries m hm]
    congr 3
    refine List.map_congr_left fun (key, v) hp => ?_
    have hv := hw.values _ (Array.getElem_mem hm) (key, v) (he ▸ hp)
    dsimp only
    rw [displayIn_eq h hw (m :: opened) w.objects.size w'.objects.size v hv]
termination_by ((w.unopened opened).length, 0, 0)
decreasing_by exact Prod.Lex.left _ _ (length_unopened_cons hm hopen)

end

/-- **The text of a value without a host stays the same while the world grows.** -/
theorem display_eq (h : w.Grows w') (hw : w.HostFree limit) {v : Value}
    (hv : w.isHostFree v = true) : w'.display v = w.display v :=
  displayIn_eq h hw [] _ _ v hv

/-- So does its truth. -/
theorem isTruthy_eq (h : w.Grows w') {v : Value} (hv : w.isHostFree v = true) :
    w'.isTruthy v = w.isTruthy v := by
  cases v with
  | map m =>
    have hm : m.index < w.maps.size := by simpa [World.isHostFree] using hv
    simp only [World.isTruthy, h.entries m hm]
  | object id =>
    obtain ⟨t, ht⟩ := Option.isSome_iff_exists.mp hv
    have ht' := h.template?_eq ht
    rw [template?_eq_some] at ht ht'
    simp only [World.isTruthy, ht, ht']
  | _ => rfl

end World.Grows

end LayeredScope
