/-
  LayeredAccess.Proofs.KeyMap

  Maps that are made from a list of keys, and the entries of a map whose keys
  ascend: each key stands in one entry, which is the one that a look-up finds.
  What two such maps have under every key is compared entry by entry
  (`rel_find?_cons_iff`).
-/
import LayeredAccess.KeyMap

namespace LayeredAccess.KeyMap

variable {κ α β : Type} [DecidableEq κ]

/-- An entry that a look-up finds is an entry of the map. -/
theorem mem_of_find? {m : KeyMap κ α} {k : κ} {v : α} (h : find? m k = some v) : (k, v) ∈ m := by
  induction m with
  | nil => simp at h
  | cons e rest ih =>
    obtain ⟨key, w⟩ := e
    rw [find?_cons] at h
    split at h
    · next hk =>
      obtain rfl : w = v := by simpa using h
      exact hk ▸ List.mem_cons_self
    · exact List.mem_cons_of_mem _ (ih h)

theorem find?_append (m m' : KeyMap κ α) (k : κ) :
    find? (m ++ m' : KeyMap κ α) k = (find? m k).or (find? m' k) := by
  induction m with
  | nil => rfl
  | cons e rest ih =>
    obtain ⟨key, v⟩ := e
    rw [List.cons_append, find?_cons, find?_cons, ih]
    split
    · rfl
    · rfl

/-- Where a key has no entry, erasing it changes nothing. -/
theorem erase_eq_self {m : KeyMap κ α} {k : κ} (h : find? m k = none) : erase m k = m := by
  induction m with
  | nil => rfl
  | cons e rest ih =>
    obtain ⟨key, v⟩ := e
    rw [find?_cons] at h
    split at h
    · simp at h
    · next hk => rw [erase, if_neg hk, ih h]

/-- A new entry is taken back. -/
theorem erase_concat_self {m : KeyMap κ α} {k : κ} (h : find? m k = none) (v : α) :
    erase (m ++ [(k, v)] : KeyMap κ α) k = m := by
  induction m with
  | nil => rw [List.nil_append, erase, if_pos rfl, erase]
  | cons e rest ih =>
    obtain ⟨key, w⟩ := e
    rw [find?_cons] at h
    split at h
    · simp at h
    · next hk => rw [List.cons_append, erase, if_neg hk, ih h]

theorem find?_eq_none {m : KeyMap κ α} {k : κ} (h : ∀ e ∈ m, e.1 ≠ k) : find? m k = none := by
  rw [← Option.not_isSome_iff_eq_none, ← mem_keys_iff]
  intro hk
  obtain ⟨e, he, hek⟩ := List.mem_map.1 hk
  exact h e he hek

/-- Of the entries of a key in a list the last one comes first from behind. -/
theorem find?_reverse {m before after : KeyMap κ α} {k : κ} {v : α}
    (hm : m = before ++ (k, v) :: after) (hafter : ∀ e ∈ after, e.1 ≠ k) :
    find? m.reverse k = some v := by
  rw [hm, List.reverse_append, List.reverse_cons, List.append_assoc, find?_append,
    find?_eq_none fun e he => hafter e (List.mem_reverse.1 he), Option.none_or,
    List.singleton_append, find?_cons, if_pos rfl]

/-- From behind a look-up finds the last entry of a key. -/
theorem find?_reverse_eq_some_iff {m : KeyMap κ α} {k : κ} {v : α} :
    find? m.reverse k = some v ↔
      ∃ before after, m = before ++ (k, v) :: after ∧ ∀ e ∈ after, e.1 ≠ k := by
  refine ⟨fun h => ?_, fun ⟨_, _, hm, hafter⟩ => find?_reverse hm hafter⟩
  induction m with
  | nil => simp at h
  | cons e rest ih =>
    rw [List.reverse_cons, find?_append, Option.or_eq_some_iff] at h
    rcases h with h | ⟨hnone, h⟩
    · obtain ⟨before, after, rfl, hafter⟩ := ih h
      exact ⟨e :: before, after, rfl, hafter⟩
    · obtain rfl : e = (k, v) := (List.mem_singleton.1 (mem_of_find? h)).symm
      refine ⟨[], rest, rfl, fun e he hek => ?_⟩
      have hmem : k ∈ keys rest.reverse := List.mem_map.2 ⟨e, List.mem_reverse.2 he, hek⟩
      rw [mem_keys_iff, hnone] at hmem
      simp at hmem

/-- In a list where no key comes twice every entry is found. -/
theorem find?_of_nodup {m : KeyMap κ α} (hm : (keys m).Nodup) {k : κ} {v : α} (h : (k, v) ∈ m) :
    find? m k = some v := by
  induction m with
  | nil => simp at h
  | cons e rest ih =>
    obtain ⟨hhead, htail⟩ := List.nodup_cons.1 hm
    rw [show e = (e.1, e.2) from rfl, find?_cons]
    rcases List.mem_cons.1 h with h | h
    · rw [← h, if_pos rfl]
    · rw [if_neg fun he => hhead (List.mem_map.2 ⟨(k, v), h, he.symm⟩)]
      exact ih htail h

/-- Where no key comes twice the order does not matter. -/
theorem find?_perm {m m' : KeyMap κ α} (h : List.Perm m m') (hm : (keys m').Nodup) (k : κ) :
    find? m k = find? m' k := by
  have hnodup : (keys m).Nodup := (h.map _).nodup_iff.2 hm
  cases hk : find? m k with
  | some v => exact (find?_of_nodup hm (h.subset (mem_of_find? hk))).symm
  | none =>
    cases hk' : find? m' k with
    | none => rfl
    | some v =>
      have hfound := find?_of_nodup hnodup (h.symm.subset (mem_of_find? hk'))
      exact hk.symm.trans hfound

theorem keys_modify (m : KeyMap κ α) (k : κ) (f : α → α) : keys (modify m k f) = keys m := by
  rw [keys, modify, List.map_map]
  refine List.map_congr_left fun e _ => ?_
  rw [Function.comp_apply]
  split <;> rfl

/-- A list per key, where one more value comes to the list of a key. -/
theorem getD_modify_concat {m : KeyMap κ (List α)} {k : κ} (hk : contains m k = true) (k' : κ)
    (x : α) : (find? (modify m k (· ++ [x])) k').getD [] =
      (find? m k').getD [] ++ if k = k' then [x] else [] := by
  rw [find?_modify]
  split
  · next he =>
    obtain ⟨xs, hxs⟩ := Option.isSome_iff_exists.1 hk
    rw [← he, hxs, Option.map_some, Option.getD_some, Option.getD_some]
  · rw [List.append_nil]

/-- The first value of a key comes with its list. -/
theorem getD_append_singleton {m : KeyMap κ (List α)} {k : κ} (hk : ¬ contains m k = true)
    (k' : κ) (x : α) : (find? (m ++ [(k, [x])]) k').getD [] =
      (find? m k').getD [] ++ if k = k' then [x] else [] := by
  have hnone : find? m k = none := by simpa [contains] using hk
  rw [find?_append, find?_cons, find?_nil]
  split
  · next he => rw [← he, hnone, Option.none_or, Option.getD_some, Option.getD_none, List.nil_append]
  · rw [Option.or_none, List.append_nil]

theorem keys_erase (m : KeyMap κ α) (k : κ) : keys (erase m k) = (keys m).filter (· ≠ k) := by
  induction m with
  | nil => rfl
  | cons e rest ih =>
    obtain ⟨key, v⟩ := e
    by_cases hk : key = k
    · simpa [erase, keys, hk] using ih
    · simpa [erase, keys, hk] using ih

/-- Where no key comes twice, a key is found in a part of the entries if its entry is in it. -/
theorem find?_filter_of_nodup {m : KeyMap κ α} (hm : (keys m).Nodup) (p : κ × α → Bool) (k : κ) :
    find? (m.filter p) k = (find? m k).filter fun v => p (k, v) := by
  -- By induction on the entries; under the key of the first one nothing else is found.
  induction m with
  | nil => rfl
  | cons e rest ih =>
    obtain ⟨key, v⟩ := e
    obtain ⟨hhead, htail⟩ := List.nodup_cons.1 hm
    rw [List.filter_cons, find?_cons]
    by_cases hk : key = k
    · subst hk
      have hrest : find? rest key = none :=
        find?_eq_none fun e he hek => hhead (List.mem_map.2 ⟨e, he, hek⟩)
      rw [if_pos rfl, Option.filter_some]
      split
      · rw [find?_cons, if_pos rfl]
      · rw [ih htail, hrest, Option.filter_none]
    · rw [if_neg hk, ← ih htail]
      split
      · rw [find?_cons, if_neg hk]
      · rfl

variable [LT κ]

/-- In a map whose keys ascend every entry is found. -/
theorem find?_of_mem [Std.Irrefl (α := κ) (· < ·)] {m : KeyMap κ α} (hm : Sorted m) {k : κ} {v : α}
    (h : (k, v) ∈ m) : find? m k = some v := by
  induction m with
  | nil => simp at h
  | cons e rest ih =>
    obtain ⟨hhead, htail⟩ := List.pairwise_cons.1 hm
    rw [show e = (e.1, e.2) from rfl, find?_cons]
    rcases List.mem_cons.1 h with h | h
    · rw [← h, if_pos rfl]
    · have hlt := hhead _ h
      rw [if_neg (fun he => Std.Irrefl.irrefl k (he ▸ hlt))]
      exact ih htail h

omit [DecidableEq κ] in
/-- Ascending keys are different. -/
theorem nodup_keys [Std.Irrefl (α := κ) (· < ·)] {m : KeyMap κ α} (hm : Sorted m) :
    (keys m).Nodup := by
  rw [keys, List.Nodup, List.pairwise_map]
  refine hm.imp ?_
  intro a b hlt (he : a.1 = b.1)
  exact Std.Irrefl.irrefl b.1 (he ▸ hlt)

omit [DecidableEq κ] in
theorem sorted_mapValues (f : α → β) {m : KeyMap κ α} (hm : Sorted m) : Sorted (mapValues f m) := by
  rw [Sorted, mapValues, List.pairwise_map]
  exact hm

/-- Maps whose keys ascend are equal if look-ups find the same. -/
theorem ext_of_find? [Std.Asymm (α := κ) (· < ·)] [Std.Irrefl (α := κ) (· < ·)]
    {m m' : KeyMap κ α} (hm : Sorted m) (hm' : Sorted m') (h : ∀ k, find? m k = find? m' k) :
    m = m' := by
  have hnodup : ∀ {m : KeyMap κ α}, Sorted m → m.Nodup := fun hm =>
    List.Pairwise.of_map _ (fun _ _ hne heq => hne (congrArg Prod.fst heq)) (nodup_keys hm)
  have hperm : List.Perm m m' := (List.perm_ext_iff_of_nodup (hnodup hm) (hnodup hm')).2 fun e =>
    ⟨fun he => mem_of_find? ((h e.1).symm.trans (find?_of_mem hm he)),
      fun he => mem_of_find? ((h e.1).trans (find?_of_mem hm' he))⟩
  exact hperm.eq_of_pairwise (fun a b _ _ hab hba => absurd hba (Std.Asymm.asymm _ _ hab)) hm hm'

section Heads

variable {k k' : κ} {a : α} {b : β} {rest : KeyMap κ α} {rest' : KeyMap κ β}

/-- In a map whose keys ascend the first key does not come again. -/
theorem find?_tail_eq_none [Std.Irrefl (α := κ) (· < ·)]
    (h : Sorted ((k, a) :: rest : KeyMap κ α)) : find? rest k = none := by
  refine find?_eq_none fun e he heq => ?_
  have hlt : k < e.1 := (List.pairwise_cons.1 h).1 e he
  exact Std.Irrefl.irrefl k (heq ▸ hlt)

/-- In a map whose keys ascend no key comes before the first one. -/
theorem eq_or_lt_of_find? (h : Sorted ((k, a) :: rest : KeyMap κ α)) {v : α}
    (hfind : find? ((k, a) :: rest : KeyMap κ α) k' = some v) : k = k' ∨ k < k' := by
  rw [find?_cons] at hfind
  split at hfind
  · next hk => exact .inl hk
  · exact .inr ((List.pairwise_cons.1 h).1 _ (mem_of_find? hfind))

/-- Two maps whose keys ascend hold related values under every key just where their first entries
have one key and related values, and the rests of the maps do the same. -/
theorem rel_find?_cons_iff [Std.Asymm (α := κ) (· < ·)] [Std.Irrefl (α := κ) (· < ·)]
    {R : α → β → Prop} (h : Sorted ((k, a) :: rest : KeyMap κ α))
    (h' : Sorted ((k', b) :: rest' : KeyMap κ β)) :
    (∀ j, Option.Rel R (find? ((k, a) :: rest : KeyMap κ α) j)
        (find? ((k', b) :: rest' : KeyMap κ β) j)) ↔
      (k = k' ∧ R a b) ∧ ∀ j, Option.Rel R (find? rest j) (find? rest' j) := by
  constructor
  · intro hrel
    have hk : k = k' := by
      -- Each of the two first keys is in both maps, so that neither comes before the other.
      have hleft := hrel k
      have hright := hrel k'
      rw [find?_cons, if_pos rfl] at hleft
      rw [find?_cons k' k' b, if_pos rfl] at hright
      generalize hb : find? ((k', b) :: rest' : KeyMap κ β) k = inRight at hleft
      generalize ha : find? ((k, a) :: rest : KeyMap κ α) k' = inLeft at hright
      cases hleft
      cases hright
      rcases eq_or_lt_of_find? h ha with heq | hlt
      · exact heq
      · rcases eq_or_lt_of_find? h' hb with heq | hlt'
        · exact heq.symm
        · exact absurd hlt' (Std.Asymm.asymm _ _ hlt)
    subst hk
    refine ⟨⟨rfl, ?_⟩, fun j => ?_⟩
    · simpa [find?_cons] using hrel k
    · by_cases hj : k = j
      · subst hj
        rw [find?_tail_eq_none h, find?_tail_eq_none h']
        exact .none
      · simpa [find?_cons, hj] using hrel j
  · rintro ⟨⟨rfl, hab⟩, hrest⟩ j
    rw [find?_cons, find?_cons]
    split
    · exact .some hab
    · exact hrest j

end Heads

variable [DecidableLT κ]

theorem mem_insert_self (m : KeyMap κ α) (k : κ) (v : α) : (k, v) ∈ insert m k v :=
  mem_of_find? (by rw [find?_insert, if_pos rfl])

/-- The entries of other keys stay. -/
theorem mem_insert_of_ne {m : KeyMap κ α} {k k' : κ} {v v' : α} (hk : k' ≠ k)
    (h : (k', v') ∈ m) : (k', v') ∈ insert m k v := by
  induction m with
  | nil => simp at h
  | cons e rest ih =>
    obtain ⟨key, w⟩ := e
    unfold insert
    split
    · next he =>
      refine List.mem_cons_of_mem _ ((List.mem_cons.1 h).resolve_left fun heq => ?_)
      exact hk ((Prod.mk.inj heq).1.trans he)
    · split
      · exact List.mem_cons_of_mem _ h
      · rcases List.mem_cons.1 h with h | h
        · exact h ▸ List.mem_cons_self
        · exact List.mem_cons_of_mem _ (ih h)

/-- Setting the value of a key that is there adds no entry. -/
theorem length_insert [Std.Irrefl (α := κ) (· < ·)] [Trans (α := κ) (· < ·) (· < ·) (· < ·)]
    {m : KeyMap κ α} (hm : Sorted m) {k : κ} (hk : (find? m k).isSome) (v : α) :
    (insert m k v).length = m.length := by
  induction m with
  | nil => simp at hk
  | cons e rest ih =>
    obtain ⟨key, w⟩ := e
    obtain ⟨hhead, htail⟩ := List.pairwise_cons.1 hm
    rw [find?_cons] at hk
    unfold insert
    split
    · rfl
    · next hne =>
      rw [if_neg hne] at hk
      split
      · next hlt =>
        -- The key can not stand behind a larger one.
        obtain ⟨w', hw'⟩ := Option.isSome_iff_exists.1 hk
        have hlt' : key < k := hhead _ (mem_of_find? hw')
        exact absurd (Trans.trans hlt hlt' : k < k) (Std.Irrefl.irrefl k)
      · rw [List.length_cons, List.length_cons, ih htail hk]

/-- Of several values that are set at one key the last one stays. -/
theorem find?_foldl_insert (m : KeyMap κ α) (entries : List (κ × α)) (k : κ) :
    find? (entries.foldl (fun m e => insert m e.1 e.2) m) k =
      (find? (entries.reverse : KeyMap κ α) k).or (find? m k) := by
  induction entries generalizing m with
  | nil => rfl
  | cons e rest ih =>
    rw [List.foldl_cons, ih, find?_insert, List.reverse_cons, find?_append, Option.or_assoc,
      find?_cons]
    split <;> rfl

theorem sorted_foldl_insert [Trans (α := κ) (· < ·) (· < ·) (· < ·)]
    [Std.Trichotomous (α := κ) (· < ·)] {m : KeyMap κ α} (entries : List (κ × α)) (h : Sorted m) :
    Sorted (entries.foldl (fun m e => insert m e.1 e.2) m) := by
  induction entries generalizing m with
  | nil => exact h
  | cons e rest ih => exact ih (sorted_insert _ _ h)

/-- A map made from entries of different keys finds what the entries have. -/
theorem find?_ofList {entries : List (κ × α)} (h : (keys entries).Nodup) (k : κ) :
    find? (ofList entries) k = find? (entries : KeyMap κ α) k := by
  rw [ofList, find?_foldl_insert, find?_nil, Option.or_none]
  exact find?_perm (List.reverse_perm entries) h k

theorem sorted_ofList [Trans (α := κ) (· < ·) (· < ·) (· < ·)]
    [Std.Trichotomous (α := κ) (· < ·)] (entries : List (κ × α)) : Sorted (ofList entries) :=
  sorted_foldl_insert entries sorted_nil

/-- A map made from entries of different keys holds just these entries. -/
theorem mem_ofList_iff [Std.Irrefl (α := κ) (· < ·)] [Trans (α := κ) (· < ·) (· < ·) (· < ·)]
    [Std.Trichotomous (α := κ) (· < ·)] {entries : List (κ × α)} (h : (keys entries).Nodup)
    {e : κ × α} : e ∈ ofList entries ↔ e ∈ entries := by
  constructor
  · intro he
    have hfind := find?_of_mem (sorted_ofList entries) he
    exact mem_of_find? ((find?_ofList h e.1).symm.trans hfind)
  · intro he
    have hfind := find?_of_nodup h he
    exact mem_of_find? ((find?_ofList h e.1).trans hfind)

/-- A map made from some keys by a function holds just these, with the values of the function. -/
theorem find?_ofList_map (f : κ → α) (ks : List κ) (k : κ) :
    find? (ofList (ks.map fun d => (d, f d))) k = if k ∈ ks then some (f k) else none := by
  suffices hgen : ∀ m : KeyMap κ α,
      find? ((ks.map fun d => (d, f d)).foldl (fun m e => insert m e.1 e.2) m) k =
        if k ∈ ks then some (f k) else find? m k by
    simpa [ofList] using hgen []
  induction ks with
  | nil => simp
  | cons d rest ih =>
    intro m
    rw [List.map_cons, List.foldl_cons, ih, find?_insert]
    by_cases hk : k ∈ rest
    · simp [hk]
    · by_cases hd : d = k
      · simp [hd]
      · simp [hk, hd, Ne.symm hd]

end LayeredAccess.KeyMap
