/-!
# Entries

A finite map from names to contents, kept in ascending order of the names.

* `Entries` — the pairs, with the order as part of the type, so that two maps with the same
  contents are equal (`Entries.ext_get?`).
* `Entries.get?`, `insert`, `erase` — with one equation each for what a later look-up finds
  (`get?_insert`, `get?_erase`).
* `Entries.keys` — the names in ascending order, each once (`nodup_keys`), and exactly those that
  a look-up finds (`mem_keys_iff`).

Names are compared character by character, by code point.
-/

namespace LayeredScope

/-- Contents by name, in ascending order of the names. -/
structure Entries (α : Type) where
  toList : List (String × α)
  ascending : toList.Pairwise (fun a b => a.1 < b.1)

namespace Entries

variable {α : Type}

theorem key_lt_trichotomy (a b : String) : a < b ∨ a = b ∨ b < a := by
  by_cases hab : a < b
  · exact .inl hab
  · by_cases hba : b < a
    · exact .inr (.inr hba)
    · exact .inr (.inl (String.le_antisymm (String.not_lt.mp hba) (String.not_lt.mp hab)))

/-- The entries that hold nothing. -/
def empty : Entries α := ⟨[], .nil⟩

instance : EmptyCollection (Entries α) := ⟨empty⟩
instance : Inhabited (Entries α) := ⟨empty⟩

/-- The content found under a name in a list of pairs. -/
def lookupIn (key : String) : List (String × α) → Option α
  | [] => none
  | (k, v) :: rest => if key = k then some v else lookupIn key rest

/-- Put a pair into its place, over any pair of the same name. -/
def insertIn (key : String) (value : α) : List (String × α) → List (String × α)
  | [] => [(key, value)]
  | (k, v) :: rest =>
    if key = k then (key, value) :: rest
    else if key < k then (key, value) :: (k, v) :: rest
    else (k, v) :: insertIn key value rest

theorem mem_insertIn {key : String} {value : α} {p : String × α} {l : List (String × α)}
    (h : p ∈ insertIn key value l) : p = (key, value) ∨ p ∈ l := by
  induction l with
  | nil => simp_all [insertIn]
  | cons q rest ih =>
    obtain ⟨k, v⟩ := q
    unfold insertIn at h
    split at h
    · rcases List.mem_cons.mp h with h | h <;> simp [h]
    · split at h
      · rcases List.mem_cons.mp h with h | h
        · exact .inl h
        · exact .inr h
      · rcases List.mem_cons.mp h with h | h
        · simp [h]
        · rcases ih h with h | h <;> simp [h]

theorem ascending_insertIn {key : String} {value : α} {l : List (String × α)}
    (h : l.Pairwise (fun a b => a.1 < b.1)) :
    (insertIn key value l).Pairwise (fun a b => a.1 < b.1) := by
  induction l with
  | nil => simp [insertIn]
  | cons q rest ih =>
    obtain ⟨k, v⟩ := q
    obtain ⟨hk, hrest⟩ := List.pairwise_cons.mp h
    unfold insertIn
    split
    · rename_i heq
      subst heq
      exact List.pairwise_cons.mpr ⟨hk, hrest⟩
    · split
      · rename_i hlt
        refine List.pairwise_cons.mpr ⟨?_, h⟩
        intro p hp
        rcases List.mem_cons.mp hp with hp | hp
        · simpa [hp] using hlt
        · exact String.lt_trans hlt (hk p hp)
      · rename_i hne hnlt
        refine List.pairwise_cons.mpr ⟨?_, ih hrest⟩
        intro p hp
        rcases mem_insertIn hp with hp | hp
        · rcases key_lt_trichotomy key k with h' | h' | h'
          · exact absurd h' hnlt
          · exact absurd h' hne
          · simpa [hp] using h'
        · exact hk p hp

/-- The content under a name. -/
def get? (e : Entries α) (key : String) : Option α := lookupIn key e.toList

def contains (e : Entries α) (key : String) : Bool := (e.get? key).isSome

/-- Bind a name, over what it was bound to. -/
def insert (e : Entries α) (key : String) (value : α) : Entries α :=
  ⟨insertIn key value e.toList, ascending_insertIn e.ascending⟩

/-- Unbind a name. -/
def erase (e : Entries α) (key : String) : Entries α :=
  ⟨e.toList.filter (fun p => p.1 ≠ key), e.ascending.filter _⟩

/-- Bind the pairs one after the other: of two with one name the later stands. -/
def ofList (pairs : List (String × α)) : Entries α :=
  pairs.foldl (fun e p => e.insert p.1 p.2) ∅

/-- The bound names in ascending order. -/
def keys (e : Entries α) : List String := e.toList.map (·.1)

def size (e : Entries α) : Nat := e.toList.length

def isEmpty (e : Entries α) : Bool := e.toList.isEmpty

/-! ## What a look-up finds -/

@[simp] theorem get?_empty (key : String) : (∅ : Entries α).get? key = none := rfl

theorem lookupIn_insertIn (key other : String) (value : α) (l : List (String × α)) :
    lookupIn other (insertIn key value l) =
      if other = key then some value else lookupIn other l := by
  induction l with
  | nil => simp [insertIn, lookupIn]
  | cons q rest ih =>
    obtain ⟨k, v⟩ := q
    unfold insertIn
    split
    · rename_i heq
      subst heq
      by_cases h : other = key <;> simp [lookupIn, h]
    · rename_i hne
      split
      · by_cases h : other = key <;> simp [lookupIn, h]
      · by_cases h : other = key
        · subst h
          simp [lookupIn, hne, ih]
        · by_cases h' : other = k
          · have : k ≠ key := fun hk => hne hk.symm
            simp [lookupIn, h', this]
          · simp [lookupIn, h, h', ih]

@[simp] theorem get?_insert (e : Entries α) (key other : String) (value : α) :
    (e.insert key value).get? other = if other = key then some value else e.get? other :=
  lookupIn_insertIn key other value e.toList

theorem lookupIn_filter_ne (key other : String) (l : List (String × α)) :
    lookupIn other (l.filter (fun p => p.1 ≠ key)) =
      if other = key then none else lookupIn other l := by
  induction l with
  | nil => simp [lookupIn]
  | cons q rest ih =>
    obtain ⟨k, v⟩ := q
    by_cases hk : k = key
    · subst hk
      by_cases h : other = k <;> simp_all [lookupIn]
    · by_cases h : other = key
      · subst h
        have : other ≠ k := fun h => hk h.symm
        simp_all [lookupIn]
      · by_cases h' : other = k <;> simp_all [lookupIn]

@[simp] theorem get?_erase (e : Entries α) (key other : String) :
    (e.erase key).get? other = if other = key then none else e.get? other :=
  lookupIn_filter_ne key other e.toList

theorem lookupIn_eq_none_iff {key : String} {l : List (String × α)} :
    lookupIn key l = none ↔ key ∉ l.map (·.1) := by
  induction l with
  | nil => simp [lookupIn]
  | cons q rest ih =>
    obtain ⟨k, v⟩ := q
    by_cases h : key = k <;> simp [lookupIn, h, ih]

theorem mem_of_lookupIn {key : String} {value : α} {l : List (String × α)}
    (h : lookupIn key l = some value) : (key, value) ∈ l := by
  induction l with
  | nil => cases h
  | cons q rest ih =>
    obtain ⟨k, v⟩ := q
    unfold lookupIn at h
    split at h
    · rename_i heq
      cases h
      rw [heq]
      exact List.mem_cons_self
    · exact List.mem_cons_of_mem _ (ih h)

/-- What a look-up finds is listed. -/
theorem mem_of_get? {e : Entries α} {key : String} {value : α} (h : e.get? key = some value) :
    (key, value) ∈ e.toList := mem_of_lookupIn h

/-- The listed names are those that a look-up finds. -/
theorem mem_keys_iff {e : Entries α} {key : String} : key ∈ e.keys ↔ (e.get? key).isSome := by
  have h : lookupIn key e.toList = none ↔ key ∉ e.toList.map (·.1) := lookupIn_eq_none_iff
  unfold keys get?
  cases hl : lookupIn key e.toList <;> simp_all

/-- No name is listed twice. -/
theorem nodup_keys (e : Entries α) : e.keys.Nodup := by
  unfold keys List.Nodup
  rw [List.pairwise_map]
  exact e.ascending.imp fun h heq => absurd (heq ▸ h) (String.lt_irrefl _)

@[simp] theorem length_keys (e : Entries α) : e.keys.length = e.size := by
  simp [keys, size]

theorem isEmpty_iff {e : Entries α} : e.isEmpty = true ↔ ∀ key, e.get? key = none := by
  cases e with
  | mk l h =>
    cases l with
    | nil => simp [isEmpty, get?, lookupIn]
    | cons p rest =>
      simp only [isEmpty, get?, List.isEmpty_cons, Bool.false_eq_true, false_iff]
      intro hall
      simpa [lookupIn] using hall p.1

/-! ## Equality is equality of contents -/

theorem lookupIn_eq_none_of_lt {key : String} {l : List (String × α)}
    (h : ∀ p ∈ l, key < p.1) : lookupIn key l = none := by
  rw [lookupIn_eq_none_iff]
  intro hmem
  obtain ⟨p, hp, heq⟩ := List.mem_map.mp hmem
  have := h p hp
  rw [heq] at this
  exact String.lt_irrefl _ this

theorem list_ext {l₁ l₂ : List (String × α)}
    (h₁ : l₁.Pairwise (fun a b => a.1 < b.1)) (h₂ : l₂.Pairwise (fun a b => a.1 < b.1))
    (h : ∀ key, lookupIn key l₁ = lookupIn key l₂) : l₁ = l₂ := by
  induction l₁ generalizing l₂ with
  | nil =>
    cases l₂ with
    | nil => rfl
    | cons p rest => simpa [lookupIn] using h p.1
  | cons p rest ih =>
    cases l₂ with
    | nil => simpa [lookupIn] using h p.1
    | cons q rest' =>
      obtain ⟨k, v⟩ := p
      obtain ⟨k', v'⟩ := q
      obtain ⟨hk, hr⟩ := List.pairwise_cons.mp h₁
      obtain ⟨hk', hr'⟩ := List.pairwise_cons.mp h₂
      have hkk : k = k' := by
        rcases key_lt_trichotomy k k' with hlt | heq | hgt
        · have hn : lookupIn k ((k', v') :: rest') = none := by
            refine lookupIn_eq_none_of_lt fun r hr => ?_
            rcases List.mem_cons.mp hr with hr | hr
            · simpa [hr] using hlt
            · exact String.lt_trans hlt (hk' r hr)
          rw [← h k] at hn
          simp [lookupIn] at hn
        · exact heq
        · have hn : lookupIn k' ((k, v) :: rest) = none := by
            refine lookupIn_eq_none_of_lt fun r hr => ?_
            rcases List.mem_cons.mp hr with hr | hr
            · simpa [hr] using hgt
            · exact String.lt_trans hgt (hk r hr)
          rw [h k'] at hn
          simp [lookupIn] at hn
      subst hkk
      have hv : v = v' := by simpa [lookupIn] using h k
      subst hv
      congr 1
      refine ih hr hr' fun key => ?_
      by_cases hkey : key = k
      · subst hkey
        rw [lookupIn_eq_none_of_lt hk, lookupIn_eq_none_of_lt hk']
      · simpa [lookupIn, hkey] using h key

/-- **Entries with the same contents are equal.** -/
theorem ext_get? {e₁ e₂ : Entries α} (h : ∀ key, e₁.get? key = e₂.get? key) : e₁ = e₂ := by
  cases e₁
  cases e₂
  simp only [mk.injEq]
  exact list_ext (by assumption) (by assumption) h

end Entries

end LayeredScope
