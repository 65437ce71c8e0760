/-
  LayeredAccess.Proofs.Merge.Again

  Of a layer that comes twice only the upper occurrence counts
  (`mergeLayers_again`): whatever the lower one changes is overwritten or done
  again by the upper one, through any layers in between.

  Merging does not commute, so the lower occurrence cannot be moved up to the upper
  one. The layers in between are looked at key by key instead. At a key they either
  forget what is below or merge values of their own over it
  (`foldl_layMember_forgets_or_merges`); in the second case these values stand
  between the two occurrences of a smaller layer, the value at the key, and the law
  holds there by induction on the layer (`foldl_mergeLayer_again`).
-/
import LayeredAccess.Proofs.Merge.Member

namespace LayeredAccess.Json

/-- The value at a key is smaller than the object. -/
theorem sizeOf_member?_lt {v w : Json} {k : String} (h : v.member? k = some w) :
    sizeOf w < sizeOf v := by
  cases v with
  | obj members =>
    rw [obj.sizeOf_spec]
    exact sizeOf_snd_lt_of_mem (KeyMap.mem_of_find? h)
  | _ => simp [member?] at h

theorem Ordered.of_member? {v w : Json} {k : String} (h : v.Ordered) (hw : v.member? k = some w) :
    w.Ordered := by
  cases v with
  | obj members => exact Ordered.of_find? h hw
  | _ => simp [member?] at hw

/-- At a key, layers either forget the value below or merge some values over it. -/
theorem foldl_layMember_forgets_or_merges {layers : List Json} (h : ∀ l ∈ layers, l.Ordered)
    (k : String) :
    (∃ result, ∀ below, layers.foldl (layMember k) below = result) ∨
      ∃ values : List Json, (∀ w ∈ values, w.Ordered) ∧
        ∀ below, layers.foldl (layMember k) below = values.foldl mergeLayer below := by
  induction layers with
  | nil => exact .inr ⟨[], by simp, fun below => rfl⟩
  | cons l rest ih =>
    rcases ih fun l' hl' => h l' (List.mem_cons_of_mem _ hl') with
      ⟨result, hforget⟩ | ⟨values, hvalues, hmerge⟩
    · exact .inl ⟨result, fun below => hforget _⟩
    · cases hplain : isUnset l with
      | true =>
        refine .inr ⟨values, hvalues, fun below => ?_⟩
        rw [List.foldl_cons, layMember_of_isUnset below hplain, hmerge]
      | false =>
        cases hobject : l.isObject with
        | false =>
          -- A layer that is no object leaves nothing at the key.
          refine .inl ⟨values.foldl mergeLayer none, fun below => ?_⟩
          rw [List.foldl_cons, layMember_of_not_isObject below hobject, hmerge]
        | true =>
          cases hk : l.member? k with
          | none =>
            refine .inr ⟨values, hvalues, fun below => ?_⟩
            rw [List.foldl_cons, layMember_of_isObject below hplain hobject, hk,
              Option.elim_none, hmerge]
          | some w =>
            have hw : w.Ordered := (h l List.mem_cons_self).of_member? hk
            refine .inr ⟨w :: values, List.forall_mem_cons.2 ⟨hw, hvalues⟩, fun below => ?_⟩
            rw [List.foldl_cons, layMember_of_isObject below hplain hobject, hk,
              Option.elim_some, hmerge, List.foldl_cons]

/-- Laying a layer makes no difference where it is laid again later. -/
theorem foldl_mergeLayer_again {below : Option Json} {mid : List Json} {l : Json}
    (hbelow : ∀ v ∈ below, v.Ordered) (hmid : ∀ m ∈ mid, m.Ordered) (hl : l.Ordered) :
    (mid ++ [l]).foldl mergeLayer (mergeLayer below l) = (mid ++ [l]).foldl mergeLayer below := by
  cases hplain : isUnset l with
  | true => rw [mergeLayer_of_isUnset below hplain]
  | false =>
    cases hobject : l.isObject with
    | false =>
      -- The upper occurrence replaces everything.
      simp only [List.foldl_append, List.foldl_cons, List.foldl_nil,
        mergeLayer_of_not_isObject _ hobject]
    | true =>
      have hlayers : ∀ m ∈ mid ++ [l], m.Ordered := by
        intro m hm
        rcases List.mem_append.1 hm with hm | hm
        · exact hmid m hm
        · exact List.mem_singleton.1 hm ▸ hl
      obtain ⟨twice, htwice, hfindTwice⟩ :=
        exists_foldl_mergeLayer_concat (mergeLayer below l) hlayers hplain hobject
      obtain ⟨once, honce, hfindOnce⟩ :=
        exists_foldl_mergeLayer_concat below hlayers hplain hobject
      -- Both are objects in key order, so it is enough to look at each key.
      have hsortedTwice : KeyMap.Sorted twice :=
        ((ordered_obj_iff twice).1 (ordered_foldl_mergeLayer (ordered_mergeLayer hbelow hl)
          hlayers _ htwice)).1
      have hsortedOnce : KeyMap.Sorted once :=
        ((ordered_obj_iff once).1 (ordered_foldl_mergeLayer hbelow hlayers _ honce)).1
      have hsame : twice = once := by
        refine KeyMap.ext_of_find? hsortedTwice hsortedOnce fun k => ?_
        rw [hfindTwice, hfindOnce, member?_mergeLayer k below hl,
          layMember_of_isObject _ hplain hobject]
        cases hk : l.member? k with
        | none => rw [Option.elim_none]
        | some w =>
          -- The value at the key takes the place of the layer.
          have hbelowAt : ∀ v ∈ below.bind (·.member? k), v.Ordered := by
            intro v hv
            obtain ⟨base, hbase, hv⟩ := Option.bind_eq_some_iff.1 hv
            exact (hbelow base hbase).of_member? hv
          simp only [List.foldl_append, List.foldl_cons, List.foldl_nil, Option.elim_some,
            layMember_of_isObject _ hplain hobject, hk]
          rcases foldl_layMember_forgets_or_merges hmid k with
            ⟨result, hforget⟩ | ⟨values, hvalues, hmerge⟩
          · rw [hforget, hforget]
          · have hlt : sizeOf w < sizeOf l := sizeOf_member?_lt hk
            have hagain := foldl_mergeLayer_again hbelowAt hvalues (hl.of_member? hk)
            simpa only [List.foldl_append, List.foldl_cons, List.foldl_nil, hmerge] using hagain
      rw [htwice, honce, hsame]
termination_by sizeOf l

/-- Of a layer that comes twice only the upper occurrence counts. -/
theorem mergeLayers_again {pre mid post : List Json} {l : Json}
    (h : ∀ l' ∈ pre ++ [l] ++ mid ++ [l] ++ post, l'.Ordered) :
    mergeLayers (pre ++ [l] ++ mid ++ [l] ++ post) = mergeLayers (pre ++ mid ++ [l] ++ post) := by
  have hpre : ∀ l' ∈ pre, l'.Ordered := fun l' hl' => h l' (by simp [hl'])
  have hmid : ∀ l' ∈ mid, l'.Ordered := fun l' hl' => h l' (by simp [hl'])
  have hl : l.Ordered := h l (by simp)
  have hbelow : ∀ v ∈ pre.foldl mergeLayer none, v.Ordered :=
    ordered_foldl_mergeLayer (by simp) hpre
  have hagain := foldl_mergeLayer_again hbelow hmid hl
  have htwice : (pre ++ [l] ++ mid ++ [l] ++ post).foldl mergeLayer none =
      post.foldl mergeLayer
        ((mid ++ [l]).foldl mergeLayer (mergeLayer (pre.foldl mergeLayer none) l)) := by
    simp only [List.foldl_append, List.foldl_cons, List.foldl_nil]
  have honce : (pre ++ mid ++ [l] ++ post).foldl mergeLayer none =
      post.foldl mergeLayer ((mid ++ [l]).foldl mergeLayer (pre.foldl mergeLayer none)) := by
    simp only [List.foldl_append]
  rw [mergeLayers, mergeLayers, htwice, honce, hagain]

/-- A layer with a sentinel and a nested object, taken apart in between by a scalar at one key and
by other members at another. -/
theorem mergeLayers_again_cut :
    let l : Json := .obj [("a", .obj [("p", .int 1), ("q", unset)]), ("b", .int 2), ("c", unset)]
    let pre : List Json := [.obj [("a", .obj [("q", .int 0)]), ("c", .int 5)]]
    let mid : List Json := [.obj [("a", .obj [("p", .null)])], unset, .obj [("b", .obj [])]]
    let post : List Json := [.obj [("d", .arr [unset])]]
    (∀ l' ∈ pre ++ [l] ++ mid ++ [l] ++ post, l'.Ordered) ∧
      mergeLayers (pre ++ [l] ++ mid ++ [l] ++ post) = mergeLayers (pre ++ mid ++ [l] ++ post) := by
  intro l pre mid post
  have hordered : ∀ l' ∈ pre ++ [l] ++ mid ++ [l] ++ post, l'.Ordered := by decide
  exact ⟨hordered, mergeLayers_again hordered⟩

end LayeredAccess.Json
