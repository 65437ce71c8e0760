/-
  LayeredAccess.KeyMap

  Finite maps kept as lists in ascending key order, so that one content has one
  list. Text keys stand in the order of their code points, which is also the
  byte order of UTF-8; paths (lists of segments) in lexicographic order.

  `find?_insert`, `find?_erase`, `find?_filter` and `find?_mapValues` say what
  each operation does to lookups; they hold of every list. `sorted_insert` and `sorted_erase`
  say that the key order is kept.
-/

namespace LayeredAccess

/-- A map from keys to values, listed in ascending key order. -/
abbrev KeyMap (κ α : Type) := List (κ × α)

namespace KeyMap

variable {κ α β : Type} [DecidableEq κ]

/-- The value at a key. -/
def find? : KeyMap κ α → κ → Option α
  | [], _ => none
  | (key, v) :: rest, k => if key = k then some v else find? rest k

/-- Does the map have an entry for the key? -/
def contains (m : KeyMap κ α) (k : κ) : Bool := (find? m k).isSome

/-- Drops every entry of a key. -/
def erase : KeyMap κ α → κ → KeyMap κ α
  | [], _ => []
  | (key, v) :: rest, k => if key = k then erase rest k else (key, v) :: erase rest k

/-- The keys in ascending order. -/
def keys (m : KeyMap κ α) : List κ := m.map (·.1)

/-- The values in ascending order of their keys. -/
def values (m : KeyMap κ α) : List α := m.map (·.2)

/-- The map with the same keys and each value changed. -/
def mapValues (f : α → β) (m : KeyMap κ α) : KeyMap κ β := m.map fun e => (e.1, f e.2)

/-- The map with the value of one key changed, if the key has one. -/
def modify (m : KeyMap κ α) (k : κ) (f : α → α) : KeyMap κ α :=
  m.map fun e => if e.1 = k then (e.1, f e.2) else e

section Ordered

variable [LT κ] [DecidableLT κ]

/-- Sets the value at a key, at the place its order demands. -/
def insert : KeyMap κ α → κ → α → KeyMap κ α
  | [], k, v => [(k, v)]
  | (key, v') :: rest, k, v =>
    if key = k then (k, v) :: rest
    else if k < key then (k, v) :: (key, v') :: rest
    else (key, v') :: insert rest k v

/-- Enters the pairs one after the other: of two with one key the later stays. -/
def ofList (entries : List (κ × α)) : KeyMap κ α :=
  entries.foldl (fun m e => insert m e.1 e.2) []

/-- The keys ascend strictly. -/
def Sorted (m : KeyMap κ α) : Prop := m.Pairwise fun a b => a.1 < b.1

end Ordered

/-! ## Lookups -/

@[simp] theorem find?_nil (k : κ) : find? ([] : KeyMap κ α) k = none := rfl

theorem find?_cons (key k : κ) (v : α) (rest : KeyMap κ α) :
    find? ((key, v) :: rest) k = if key = k then some v else find? rest k := rfl

theorem find?_erase (m : KeyMap κ α) (k k' : κ) :
    find? (erase m k) k' = if k = k' then none else find? m k' := by
  induction m with
  | nil => simp [erase]
  | cons e rest ih =>
    obtain ⟨key, v⟩ := e
    by_cases hk : key = k
    · subst hk
      by_cases hk' : key = k' <;> simp_all [erase, find?]
    · by_cases hk' : key = k'
      · subst hk'
        simp [erase, find?, hk, Ne.symm hk]
      · simp [erase, find?, hk, hk', ih]

theorem find?_mapValues (f : α → β) (m : KeyMap κ α) (k : κ) :
    find? (mapValues f m) k = (find? m k).map f := by
  induction m with
  | nil => rfl
  | cons e rest ih =>
    simp only [mapValues] at ih
    by_cases h : e.1 = k <;> simp [mapValues, find?, h, ih]

theorem find?_modify (m : KeyMap κ α) (k k' : κ) (f : α → α) :
    find? (modify m k f) k' = if k = k' then (find? m k').map f else find? m k' := by
  induction m with
  | nil => simp [modify]
  | cons e rest ih =>
    obtain ⟨key, v⟩ := e
    simp only [modify] at ih
    by_cases hk : key = k
    · subst hk
      by_cases hk' : key = k' <;> simp [modify, find?, hk', ih]
    · by_cases hk' : key = k'
      · subst hk'
        simp [modify, find?, hk, Ne.symm hk]
      · simp [modify, find?, hk, hk', ih]

/-- Entries that are kept for their keys are found as before. -/
theorem find?_filter (p : κ → Bool) (m : KeyMap κ α) (k : κ) :
    find? (m.filter fun e => p e.1) k = if p k then find? m k else none := by
  induction m with
  | nil => simp
  | cons e rest ih =>
    obtain ⟨key, v⟩ := e
    rw [List.filter_cons, find?_cons]
    by_cases hk : key = k
    · subst hk
      by_cases hp : p key <;> simp [hp, ih, find?_cons]
    · by_cases hp : p key <;> simp [hp, ih, hk, find?_cons]

theorem mem_keys_iff (m : KeyMap κ α) (k : κ) : k ∈ keys m ↔ (find? m k).isSome := by
  induction m with
  | nil => simp [keys]
  | cons e rest ih =>
    simp only [keys] at ih
    by_cases h : e.1 = k
    · simp [keys, find?, h]
    · simp [keys, find?, h, Ne.symm h, ih]

variable [LT κ] [DecidableLT κ]

theorem find?_insert (m : KeyMap κ α) (k k' : κ) (v : α) :
    find? (insert m k v) k' = if k = k' then some v else find? m k' := by
  induction m with
  | nil => simp [insert, find?]
  | cons e rest ih =>
    obtain ⟨key, v'⟩ := e
    unfold insert
    split
    · next hk => subst hk; by_cases hk' : key = k' <;> simp [find?, hk']
    · next hk =>
      split
      · simp [find?]
      · by_cases hk' : key = k'
        · subst hk'
          simp [find?, Ne.symm hk]
        · simp [find?, hk', ih]

/-! ## Key order -/

omit [DecidableEq κ] [DecidableLT κ] in
theorem sorted_nil : Sorted ([] : KeyMap κ α) := List.Pairwise.nil

/-- Every entry after an insertion is the new one or an old one. -/
theorem mem_insert {m : KeyMap κ α} {k : κ} {v : α} {e : κ × α} (h : e ∈ insert m k v) :
    e = (k, v) ∨ e ∈ m := by
  induction m with
  | nil => simpa [insert] using h
  | cons a rest ih =>
    obtain ⟨key, v'⟩ := a
    unfold insert at h
    split at h
    · rcases List.mem_cons.1 h with h | h
      · exact .inl h
      · exact .inr (List.mem_cons_of_mem _ h)
    · split at h
      · exact (List.mem_cons.1 h).imp id id
      · rcases List.mem_cons.1 h with h | h
        · exact .inr (h ▸ List.mem_cons_self)
        · exact (ih h).imp id (List.mem_cons_of_mem _)

/-- Inserting keeps the keys ascending. -/
theorem sorted_insert [Trans (α := κ) (· < ·) (· < ·) (· < ·)]
    [Std.Trichotomous (α := κ) (· < ·)] {m : KeyMap κ α} (k : κ) (v : α) (h : Sorted m) :
    Sorted (insert m k v) := by
  induction m with
  | nil => simp [insert, Sorted]
  | cons a rest ih =>
    obtain ⟨key, v'⟩ := a
    obtain ⟨hhead, htail⟩ := List.pairwise_cons.1 h
    unfold insert
    split
    -- The key is there already: its value is replaced.
    · next hk => subst hk; exact List.pairwise_cons.2 ⟨hhead, htail⟩
    · next hk =>
      split
      -- The key comes first.
      · next hlt =>
        refine List.pairwise_cons.2 ⟨fun e he => ?_, h⟩
        rcases List.mem_cons.1 he with he | he
        · exact he ▸ hlt
        · exact Trans.trans hlt (hhead e he)
      -- The key belongs further back, behind one that is smaller.
      · next hlt =>
        refine List.pairwise_cons.2 ⟨fun e he => ?_, ih htail⟩
        rcases mem_insert he with he | he
        · subst he
          rcases Std.Trichotomous.rel_or_eq_or_rel_swap (r := (· < · : κ → κ → Prop))
            (a := k) (b := key) with h1 | h1 | h1
          · exact absurd h1 hlt
          · exact absurd h1.symm hk
          · exact h1
        · exact hhead e he

omit [DecidableLT κ] in
/-- Erasing keeps the keys ascending. -/
theorem sorted_erase {m : KeyMap κ α} (k : κ) (h : Sorted m) : Sorted (erase m k) := by
  suffices hs : erase m k = m.filter fun e => decide (e.1 ≠ k) by
    rw [hs]; exact h.filter _
  clear h
  induction m with
  | nil => rfl
  | cons e rest ih => by_cases hk : e.1 = k <;> simp_all [erase]

end KeyMap

end LayeredAccess
