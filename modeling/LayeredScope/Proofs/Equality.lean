import LayeredScope.Stack.Search

/-!
# Equality of values

Values are compared in three ways: lists by their items, floating-point numbers as numbers, and
everything else by being the same. Since a number may be not-a-number, which equals nothing, a value
need not be equal to itself; but equal values cannot be told apart where it matters.

* `Value.Equals` — the rule, with one constructor for each of the three ways, and
  `Value.same_iff` — the comparison decides it.
* `Value.Within` — what is found in a value by going into lists. `Value.Equals.self_iff` — a value
  equals itself exactly when no not-a-number is found there.
* `Value.Interchangeable` — what a caller learns of a value, and of the layer that it makes.
* `Value.partial_equivalence` — **equality is a partial equivalence, and equal values can stand for
  each other**.
-/

namespace LayeredScope

variable {κ σ : Type}

/-- The kinds of layers. -/
inductive Layer.Kind where
  | mapping
  | object
  | sealed
  deriving DecidableEq, Repr

def Layer.kind : Layer → Layer.Kind
  | .mapping _ => .mapping
  | .object _ => .object
  | .sealed _ => .sealed

namespace Value

/-- The kinds of values. -/
inductive Kind where
  | none
  | bool
  | int
  | float
  | str
  | list
  | map
  | object
  | function
  deriving DecidableEq, Repr

def kind : Value → Kind
  | .none => .none
  | .bool _ => .bool
  | .int _ => .int
  | .float _ => .float
  | .str _ => .str
  | .list _ => .list
  | .map _ => .map
  | .object _ => .object
  | .function _ => .function

/-- What is found in a value by going into lists, and into nothing else. -/
inductive Within : Value → Value → Prop
  | here (v : Value) : Within v v
  | inside {v item : Value} {items : List Value} (mem : item ∈ items) (h : Within v item) :
      Within v (.list items)

/-- When two values are equal. -/
inductive Equals : Value → Value → Prop
  /-- They are the same, and neither number nor list. -/
  | identical {v : Value} (hfloat : v.kind ≠ .float) (hlist : v.kind ≠ .list) : Equals v v
  | numeric {x y : Binary64} (h : x.same y = true) : Equals (.float x) (.float y)
  /-- They are lists of the same length, and equal position by position. -/
  | itemwise {as bs : List Value} (length : as.length = bs.length)
      (each : ∀ (i : Nat) a b, as[i]? = some a → bs[i]? = some b → Equals a b) :
      Equals (.list as) (.list bs)

/-- What holds of a list when it holds of its items, and of everything that is no list, holds of
every value. -/
theorem list_induction {P : Value → Prop} (other : ∀ v : Value, v.kind ≠ .list → P v)
    (list : ∀ items, (∀ item ∈ items, P item) → P (.list items)) (v : Value) : P v := by
  match v with
  | .list items => exact list items fun item _ => list_induction other list item
  | .none | .bool _ | .int _ | .float _ | .str _ | .map _ | .object _ | .function _ =>
    exact other _ nofun

/-! ## The comparison -/

theorem sameList_iff {as bs : List Value} :
    sameList as bs = true ↔ as.length = bs.length ∧
      ∀ (i : Nat) a b, as[i]? = some a → bs[i]? = some b → a.same b = true := by
  induction as generalizing bs with
  | nil => cases bs <;> simp [sameList]
  | cons a as ih =>
    cases bs with
    | nil => simp [sameList]
    | cons b bs =>
      simp only [sameList, Bool.and_eq_true, ih, List.length_cons]
      constructor
      · rintro ⟨hhead, hlength, hrest⟩
        refine ⟨by omega, fun i x y hx hy => ?_⟩
        cases i with
        | zero =>
          cases hx
          cases hy
          exact hhead
        | succ i => exact hrest i x y hx hy
      · rintro ⟨hlength, heach⟩
        refine ⟨heach 0 a b rfl rfl, by omega, fun i x y hx hy => ?_⟩
        exact heach (i + 1) x y hx hy

theorem Equals.same {u v : Value} (h : u.Equals v) : u.same v = true := by
  induction h with
  | @identical v hfloat hlist =>
    cases v with
    | float x => exact absurd rfl hfloat
    | list items => exact absurd rfl hlist
    | _ => simp [Value.same]
  | numeric h => simpa [Value.same] using h
  | itemwise length each ih =>
    simp only [Value.same]
    exact sameList_iff.mpr ⟨length, ih⟩

/-- Values of different kinds are told apart at once. -/
theorem kind_eq_of_same {u v : Value} (h : u.same v = true) : u.kind = v.kind := by
  cases u <;> cases v <;> simp_all [Value.same, kind]

/-- A value that is neither number nor list is compared by being the same. -/
theorem eq_of_same {u v : Value} (hfloat : u.kind ≠ .float) (hlist : u.kind ≠ .list)
    (h : u.same v = true) : u = v := by
  have hkind := kind_eq_of_same h
  cases u <;> cases v <;> cases hkind <;> simp_all [Value.same, kind]

theorem Equals.of_same {u v : Value} (h : u.same v = true) : u.Equals v := by
  induction u using list_induction generalizing v with
  | other u hlist =>
    by_cases hfloat : u.kind = .float
    · have hkind := kind_eq_of_same h
      cases u <;> cases hfloat
      cases v <;> cases hkind
      simp only [Value.same] at h
      exact .numeric h
    · cases eq_of_same hfloat hlist h
      exact .identical hfloat hlist
  | list as ih =>
    have hkind := kind_eq_of_same h
    cases v <;> cases hkind
    simp only [Value.same] at h
    obtain ⟨hlength, heach⟩ := sameList_iff.mp h
    refine .itemwise hlength fun i a b ha hb => ?_
    exact ih a (List.mem_of_getElem? ha) (heach i a b ha hb)

/-- **The comparison decides equality.** -/
theorem same_iff {u v : Value} : u.same v = true ↔ u.Equals v := ⟨.of_same, fun h => h.same⟩

/-! ## Laws of equality -/

namespace Equals

variable {u v x : Value}

theorem symm (h : u.Equals v) : v.Equals u := by
  induction h with
  | identical hfloat hlist => exact .identical hfloat hlist
  | numeric h => exact .numeric (Binary64.same_symm h)
  | itemwise length each ih => exact .itemwise length.symm fun i b a hb ha => ih i a b ha hb

theorem trans (h : u.Equals v) (h' : v.Equals x) : u.Equals x := by
  induction h generalizing x with
  | identical => exact h'
  | numeric h =>
    cases h' with
    | identical hfloat => exact absurd rfl hfloat
    | numeric h' => exact .numeric (Binary64.same_trans h h')
  | @itemwise as bs length each ih =>
    cases h' with
    | identical _ hlist => exact absurd rfl hlist
    | @itemwise _ cs length' each' =>
      refine .itemwise (length.trans length') fun i a c ha hc => ?_
      -- the list in the middle has an item at every position of the others
      have hlt : i < as.length := (List.getElem?_eq_some_iff.mp ha).1
      have hb : bs[i]? = some bs[i] := List.getElem?_eq_getElem (by omega)
      exact ih i a bs[i] ha hb (each' i bs[i] c hb hc)

/-- Whatever is found in a value that equals itself equals itself. -/
theorem within (h : v.Equals v) (hx : Within x v) : x.Equals x := by
  induction hx with
  | here => exact h
  | inside mem _ ih =>
    obtain ⟨i, hi⟩ := List.mem_iff_getElem?.mp mem
    cases h with
    | identical _ hlist => exact absurd rfl hlist
    | itemwise _ each => exact ih (each i _ _ hi hi)

/-- **A value equals itself exactly when no not-a-number is found in it.** -/
theorem self_iff : v.Equals v ↔ ∀ x, Within (.float x) v → x.isNaN = false := by
  constructor
  · intro h x hx
    have hself := (h.within hx).same
    simpa [Value.same, Binary64.same_self] using hself
  · intro h
    induction v using list_induction with
    | other v hlist =>
      cases v with
      | float x => exact .numeric (by simp [Binary64.same_self, h x (.here _)])
      | list items => exact absurd rfl hlist
      | _ => exact .identical nofun nofun
    | list items ih =>
      refine .itemwise rfl fun i a b ha hb => ?_
      cases ha.symm.trans hb
      have hmem := List.mem_of_getElem? ha
      exact ih a hmem fun x hx => h x (.inside hmem hx)

end Equals

/-! ## Equal values stand for each other -/

/-- Two values give the same answers, themselves and as layers. -/
structure Interchangeable (κ σ : Type) (u v : Value) : Prop where
  typeName : ∀ w : World κ σ, w.typeName u = w.typeName v
  truthy : ∀ w : World κ σ, w.isTruthy u = w.isTruthy v
  toInt : u.toInt? = v.toInt?
  toStr : u.toStr? = v.toStr?
  callable : ∀ w : World κ σ, w.isCallable u = w.isCallable v
  template : ∀ w : World κ σ, w.isTemplate u = w.isTemplate v
  layer : u.toLayer.kind = v.toLayer.kind
  asked : ∀ (d : Dispatch κ σ) key, d.askLayer u.toLayer key = d.askLayer v.toLayer key
  size : ∀ w : World κ σ, w.layerSize u.toLayer = w.layerSize v.toLayer
  keys : ∀ w : World κ σ, w.layerKeys u.toLayer = w.layerKeys v.toLayer

namespace Interchangeable

variable {u v : Value}

theorem refl (v : Value) : Interchangeable κ σ v v :=
  ⟨fun _ => rfl, fun _ => rfl, rfl, rfl, fun _ => rfl, fun _ => rfl, rfl, fun _ _ => rfl,
    fun _ => rfl, fun _ => rfl⟩

/-- Both values make sealed layers, of which nothing but the name of the type is ever seen. -/
theorem of_equals (h : u.Equals v) : Interchangeable κ σ u v := by
  cases h with
  | identical => exact refl _
  | numeric h =>
    refine { refl (.float _) with typeName := fun _ => rfl, truthy := fun w => ?_ }
    simp [World.isTruthy, Binary64.isZero_eq_of_same h]
  | @itemwise as bs length each =>
    refine { refl (.list _) with typeName := fun _ => rfl, truthy := fun w => ?_ }
    cases as <;> cases bs <;> simp_all [World.isTruthy]

end Interchangeable

/-! ## Main theorem -/

/-- **Equality is a partial equivalence, and equal values can stand for each other.** It is
symmetric and transitive, and the values that equal themselves are those without a not-a-number,
however deep in lists. Lists are equal position by position, values of different kinds never, and
mappings, objects and functions only if they are the same one. Equal values have a type of the same
name, are true or false alike, stand for the same number and the same text if for any, are both
callable or not and templates or not, and make layers of the same kind that answer every key alike,
in every world, and have the same size and the same keys. -/
theorem partial_equivalence (κ σ : Type) :
    (∀ u v : Value, u.same v = true → v.same u = true) ∧
    (∀ u v x : Value, u.same v = true → v.same x = true → u.same x = true) ∧
    (∀ v : Value, v.same v = true ↔ ∀ x, Within (.float x) v → x.isNaN = false) ∧
    (∀ as bs : List Value, same (.list as) (.list bs) = true ↔
      as.length = bs.length ∧
        ∀ (i : Nat) a b, as[i]? = some a → bs[i]? = some b → a.same b = true) ∧
    (∀ u v : Value, u.kind ≠ v.kind → u.same v = false) ∧
    (∀ u v : Value, u.kind = .map ∨ u.kind = .object ∨ u.kind = .function →
      (u.same v = true ↔ u = v)) ∧
    ∀ u v : Value, u.same v = true → Interchangeable κ σ u v := by
  refine ⟨?_, ?_, ?_, ?_, ?_, ?_, ?_⟩
  · intro u v h
    exact (Equals.of_same h).symm.same
  · intro u v x h h'
    exact ((Equals.of_same h).trans (.of_same h')).same
  · intro v
    rw [same_iff]
    exact Equals.self_iff
  · intro as bs
    simp only [same]
    exact sameList_iff
  · intro u v hkind
    exact eq_false_of_ne_true fun h => hkind (kind_eq_of_same h)
  · intro u v hkind
    have hfloat : u.kind ≠ .float := by rcases hkind with h | h | h <;> simp [h]
    have hlist : u.kind ≠ .list := by rcases hkind with h | h | h <;> simp [h]
    constructor
    · exact eq_of_same hfloat hlist
    · rintro rfl
      exact (Equals.identical hfloat hlist).same
  · intro u v h
    exact .of_equals (.of_same h)

end Value

/-- Zero and a text inside a list. -/
def zeroList : Value := .list [.float ⟨0⟩, .list [.str "a"]]

/-- The same with the other zero. -/
def negativeZeroList : Value := .list [.float ⟨0x8000000000000000⟩, .list [.str "a"]]

/-- A not-a-number two lists deep. -/
def brokenList : Value := .list [.int 1, .list [.float ⟨0x7ff8000000000000⟩]]

/-- The zeros are equal, and no caller tells the lists apart; a list with a not-a-number in it does
not equal itself; neither do two mappings equal each other, nor one and truth. -/
theorem zeroList_interchangeable :
    zeroList.same negativeZeroList = true ∧ negativeZeroList.same zeroList = true ∧
    zeroList.same zeroList = true ∧ Value.Interchangeable Unit Unit zeroList negativeZeroList ∧
    brokenList.same brokenList = false ∧ (Value.int 1).same (.bool true) = false ∧
    (Value.map ⟨0⟩).same (.map ⟨1⟩) = false := by
  obtain ⟨hsymm, htrans, hself, -, hkinds, hshared, hanswers⟩ := Value.partial_equivalence Unit Unit
  have hsame : zeroList.same negativeZeroList = true := by decide
  have hback := hsymm _ _ hsame
  refine ⟨hsame, hback, htrans _ _ _ hsame hback, hanswers _ _ hsame, ?_, ?_, ?_⟩
  · refine eq_false_of_ne_true fun h => ?_
    have hinner : Value.Within (.float ⟨0x7ff8000000000000⟩)
        (.list [.float ⟨0x7ff8000000000000⟩]) := .inside (by simp) (.here _)
    have hnumber := (hself brokenList).mp h _ (.inside (by simp) hinner)
    exact absurd hnumber (by decide)
  · exact hkinds _ _ (by decide)
  · have hmaps := hshared (.map ⟨0⟩) (.map ⟨1⟩) (.inl rfl)
    exact eq_false_of_ne_true fun h => absurd (hmaps.mp h) (by simp)

end LayeredScope
