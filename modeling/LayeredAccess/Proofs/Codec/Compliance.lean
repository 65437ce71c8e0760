/-
  LayeredAccess.Proofs.Codec.Compliance

  Schemas and reports are stable.

  An entry of a schema is read with a bound on how deeply entries nest, taken from
  the value that is read. The value that is written for an entry need not be as
  deep as the one it was read from, so the entry is read back with another bound.
  `Schema.keeps_of_decodeUpTo` therefore says of any two bounds that what has been
  read with one is read back with the other, if the other is no less than the depth
  of what is written. It is proved by induction on the first bound.
-/
import LayeredAccess.Compliance.Report
import LayeredAccess.Compliance.Schema
import LayeredAccess.Proofs.Codec.Layout

namespace LayeredAccess

/-! ## Depth -/

namespace Json

theorem depth_lt_of_mem_items {items : List Json} {v : Json} (h : v ∈ items) :
    v.depth < (arr items).depth := by
  have hle : v.depth ≤ itemsDepth items := by
    induction items with
    | nil => simp at h
    | cons w rest ih =>
      rw [itemsDepth]
      rcases List.mem_cons.1 h with rfl | h
      · exact Nat.le_max_left _ _
      · exact Nat.le_trans (ih h) (Nat.le_max_right _ _)
  rw [depth]
  omega

theorem depth_lt_of_mem_members {members : List (String × Json)} {m : String × Json}
    (h : m ∈ members) : m.2.depth < (obj members).depth := by
  have hle : m.2.depth ≤ membersDepth members := by
    induction members with
    | nil => simp at h
    | cons e rest ih =>
      rw [membersDepth]
      rcases List.mem_cons.1 h with rfl | h
      · exact Nat.le_max_left _ _
      · exact Nat.le_trans (ih h) (Nat.le_max_right _ _)
  rw [depth]
  omega

end Json

open Decode Encode Codec

namespace Compliance

/-! ## Rules -/

namespace RuleRef

/-- A reference with a name is written by its name, or with its arguments, and read back. -/
theorem keeps_of_name {r : RuleRef} (hname : r.name.isEmpty = false)
    (hargs : ∀ v ∈ r.args, v.Ordered) : Keeps decode encode r := by
  obtain ⟨name, args⟩ := r
  cases args with
  | nil =>
    -- Without arguments the name stands alone, also where an array of one was read.
    refine ⟨trivial, ?_⟩
    show decode (.str name) = _
    rw [decode, hname]
    rfl
  | cons v rest =>
    refine ⟨(Json.ordered_arr_iff _).2 (List.forall_mem_cons.2 ⟨trivial, hargs⟩), ?_⟩
    show decode (.arr (.str name :: v :: rest)) = _
    rw [decode, hname]
    rfl

protected theorem stable : Stable decode encode := by
  refine ⟨fun {v r} hv hread => ?_⟩
  -- A comparison is written as its name alone, or as a list that begins with its name.
  cases v with
  | str s =>
    rw [decode] at hread
    split at hread
    · cases hread
    · next hname =>
      obtain rfl := Except.ok.inj hread
      exact keeps_of_name (by simpa using hname) nofun
  | arr items =>
    cases items with
    | nil => cases hread
    | cons first args =>
      have hargs : ∀ w ∈ args, w.Ordered :=
        (List.forall_mem_cons.1 ((Json.ordered_arr_iff _).1 hv)).2
      cases first with
      | str s =>
        rw [decode] at hread
        split at hread
        · cases hread
        · next hname =>
          obtain rfl := Except.ok.inj hread
          exact keeps_of_name (by simpa using hname) hargs
      | _ => cases hread
  | _ => cases hread

end RuleRef

namespace RuleArg

def layout : Layout RuleArg where
  fields :=
    [.always "type" true text .str (·.kind) fun v a => { a with kind := v },
     .always "required" false boolean .bool (·.required) fun v a => { a with required := v },
     .present "label" text .str (·.label) fun v a => { a with label := v }]
  initial := { kind := "" }

protected theorem stable : Stable decode encode := by
  have hfields : layout.Stable := by
    simp only [Layout.Stable, layout, List.forall_mem_cons]
    exact ⟨Field.stable_always stable_text ⟨trivial, rfl⟩,
      Field.stable_always stable_boolean ⟨trivial, rfl⟩,
      Field.stable_present stable_optional_text rfl, nofun⟩
  exact Layout.stable hfields "RuleArg"

end RuleArg

namespace RuleDefinition

def layout : Layout RuleDefinition where
  fields :=
    [.always "name" true text .str (·.name) fun v d => { d with name := v },
     .present "label" text .str (·.label) fun v d => { d with label := v },
     .present "description" text .str (·.description) fun v d => { d with description := v },
     .always "args" false (list RuleArg.decode) (fun args => .arr (args.map RuleArg.encode))
       (·.args) fun v d => { d with args := v },
     .always "fn" true text .str (·.body) fun v d => { d with body := v },
     .present "errorText" text .str (·.errorText) fun v d => { d with errorText := v }]
  initial := { name := "", body := "" }

protected theorem stable : Stable decode encode := by
  have hfields : layout.Stable := by
    simp only [Layout.Stable, layout, List.forall_mem_cons]
    exact ⟨Field.stable_always stable_text ⟨trivial, rfl⟩,
      Field.stable_present stable_optional_text rfl,
      Field.stable_present stable_optional_text rfl,
      Field.stable_always RuleArg.stable.list ⟨trivial, rfl⟩,
      Field.stable_always stable_text ⟨trivial, rfl⟩,
      Field.stable_present stable_optional_text rfl, nofun⟩
  exact Layout.stable hfields "RuleDefinition"

end RuleDefinition

namespace Comply

def layout : Layout Comply where
  fields :=
    [.always "rules" false (list RuleRef.decode) (fun rules => .arr (rules.map RuleRef.encode))
       (·.rules) fun v c => { c with rules := v },
     .nonempty "define" RuleDefinition.decode RuleDefinition.encode (·.define)
       fun v c => { c with define := v }]
  initial := {}

protected theorem stable : Stable decode encode := by
  have hfields : layout.Stable := by
    simp only [Layout.Stable, layout, List.forall_mem_cons]
    exact ⟨Field.stable_always RuleRef.stable.list ⟨trivial, rfl⟩,
      Field.stable_nonempty RuleDefinition.stable rfl, nofun⟩
  exact Layout.stable hfields "Comply"

end Comply

/-! ## Entries -/

namespace Schema

def layout (child : Decoder Schema) : Layout Schema where
  fields :=
    [.always "name" true text .str (·.name) fun v s => { s with name := v },
     .present "label" text .str (·.label) fun v s => { s with label := v },
     .present "revision" text .str (·.revision) fun v s => { s with revision := v },
     .present "type" text .str (·.kind) fun v s => { s with kind := v },
     .present "init" any itself (·.init) fun v s => { s with init := v },
     .present "comply" Comply.decode Comply.encode (·.comply) fun v s => { s with comply := v },
     .nonempty "children" child encode (·.children) fun v s => { s with children := v }]
  initial := { name := "" }

theorem encodeAll_eq_map (entries : List Schema) : encodeAll entries = entries.map encode := by
  induction entries with
  | nil => rw [encodeAll, List.map_nil]
  | cons s rest ih => rw [encodeAll, List.map_cons, ih]

/-- An entry is written by its fields, however the entries below it would be read. -/
theorem encode_eq (child : Decoder Schema) (s : Schema) : s.encode = (layout child).encode s := by
  have hchildren : ∀ entries : List Schema,
      (if (entries.map encode).isEmpty then none
        else some ("children", Json.arr (entries.map encode))) =
        nonempty "children" encode entries := by
    intro entries
    rw [nonempty, List.isEmpty_map]
  obtain ⟨name, label, revision, kind, init, comply, children⟩ := s
  simp only [encode, encodeAll_eq_map, hchildren]
  rfl

/-- What is written for an entry below another is less deep. -/
theorem depth_encode_lt {s c : Schema} (h : c ∈ s.children) : c.encode.depth < s.encode.depth := by
  have hwritten : ("children", Json.arr (s.children.map encode)) ∈
      KeyMap.ofList ((layout decode).written s) := by
    rw [Layout.mem_ofList_written]
    refine ⟨_, by simp only [layout]; exact List.mem_of_mem_getLast? rfl, ?_⟩
    show nonempty "children" encode s.children = _
    rw [nonempty, List.isEmpty_eq_false_iff.2 (List.ne_nil_of_mem h)]
    rfl
  have hitem : c.encode.depth < (Json.arr (s.children.map encode)).depth :=
    Json.depth_lt_of_mem_items (List.mem_map_of_mem h)
  rw [encode_eq decode s, Layout.encode_eq, Json.mkObj]
  exact Nat.lt_trans hitem (Json.depth_lt_of_mem_members hwritten)

/-- An entry that has been read with one bound is kept with any bound that is no less than the
depth of what is written. -/
theorem keeps_of_decodeUpTo {n : Nat} {v : Json} {s : Schema} (hv : v.Ordered)
    (hread : decodeUpTo n v = .ok s) {bound : Nat} (hbound : s.encode.depth ≤ bound) :
    Keeps (decodeUpTo bound) encode s := by
  induction n generalizing v s bound with
  | zero => cases hread
  | succ n ih =>
    have hdepth : 0 < s.encode.depth := by
      rw [encode_eq decode s, Layout.encode_eq, Json.mkObj, Json.depth]
      omega
    obtain ⟨below, rfl⟩ : ∃ below, bound = below + 1 := ⟨bound - 1, by omega⟩
    -- The record is read with the decoder of one bound and read back with that of another. They
    -- differ in the field of the entries below only.
    have hgiven : (layout (decodeUpTo n)).Given s := Layout.given_of_decode hv hread
    have hcomply : Stable (optional Comply.decode) (nullable Comply.encode) :=
      Comply.stable.optional fun _ _ => nofun
    have hsound : (layout (decodeUpTo below)).Sound s := by
      simp only [Layout.Given, Layout.Sound, layout, List.forall_mem_cons] at hgiven ⊢
      obtain ⟨hname, hlabel, hrevision, hkind, hinit, hcomplies, hchildren, -⟩ := hgiven
      refine ⟨(Field.stable_always stable_text ⟨trivial, rfl⟩).kept hname,
        (Field.stable_present stable_optional_text rfl).kept hlabel,
        (Field.stable_present stable_optional_text rfl).kept hrevision,
        (Field.stable_present stable_optional_text rfl).kept hkind,
        (Field.stable_present stable_optional_any rfl).kept hinit,
        (Field.stable_present hcomply rfl).kept hcomplies,
        Field.kept_nonempty rfl (keeps_list ?_), nofun⟩
      -- The entries below have been read with a smaller bound.
      intro c (hc : c ∈ s.children)
      rcases hchildren with hnone | ⟨w, hw, hlist⟩
      · have hnil : s.children = [] := hnone
        rw [hnil] at hc
        cases hc
      · cases w with
        | arr items =>
          obtain ⟨item, hitem, hc'⟩ := exists_of_mapM hlist c hc
          have hordered : item.Ordered := (Json.ordered_arr_iff items).1 hw item hitem
          have hlt : c.encode.depth < s.encode.depth := depth_encode_lt hc
          exact ih hordered hc' (by omega)
        | _ => cases hlist
    have hkeeps := Layout.keeps_of_sound hsound "SchemaNode"
    refine ⟨?_, ?_⟩
    · rw [encode_eq (decodeUpTo below) s]
      exact hkeeps.ordered
    · rw [encode_eq (decodeUpTo below) s]
      exact hkeeps.reads

protected theorem stable : Stable decode encode := by
  refine ⟨fun {v s} hv hread => ?_⟩
  have hkeeps := keeps_of_decodeUpTo hv hread (Nat.le_refl s.encode.depth)
  exact ⟨hkeeps.ordered, hkeeps.reads⟩

end Schema

/-! ## Reports -/

namespace ViolationReason

theorem encode_detail (kind detail : String) :
    Json.mkObj [("kind", .str kind), ("detail", .str detail)] =
      .obj [("detail", .str detail), ("kind", .str kind)] := by
  simp only [Json.mkObj, KeyMap.ofList, List.foldl_cons, List.foldl_nil, KeyMap.insert,
    String.reduceEq, String.reduceLT, ↓reduceIte]

/-- Every reason is written as an object and read back. -/
theorem keeps_reason (r : ViolationReason) : Keeps decode encode r where
  ordered := by cases r <;> exact Json.ordered_mkObj (by simp [Json.Ordered])
  reads := by
    cases r with
    | failed s => rw [encode, encode_detail]; rfl
    | errored s => rw [encode, encode_detail]; rfl
    | unresolved => rfl

protected theorem stable : Stable decode encode := .of_keeps keeps_reason

end ViolationReason

namespace Violation

def layout : Layout Violation where
  fields :=
    [.always "path" true texts .ofStrings (·.path) fun x v => { v with path := x },
     .always "rule_path" true texts .ofStrings (·.rulePath) fun x v => { v with rulePath := x },
     .always "rule" true text .str (·.rule) fun x v => { v with rule := x },
     .always "value" true any itself (·.value) fun x v => { v with value := x },
     .always "reason" true ViolationReason.decode ViolationReason.encode (·.reason)
       fun x v => { v with reason := x }]
  initial := { path := [], rulePath := [], rule := "", value := .null, reason := .unresolved }

protected theorem stable : Stable decode encode := by
  have hfields : layout.Stable := by
    simp only [Layout.Stable, layout, List.forall_mem_cons]
    exact ⟨Field.stable_always stable_texts ⟨trivial, rfl⟩,
      Field.stable_always stable_texts ⟨trivial, rfl⟩,
      Field.stable_always stable_text ⟨trivial, rfl⟩,
      Field.stable_always stable_any ⟨trivial, rfl⟩,
      Field.stable_always ViolationReason.stable (ViolationReason.keeps_reason .unresolved), nofun⟩
  exact Layout.stable hfields "Violation"

end Violation

namespace EntryViolations

def layout : Layout EntryViolations where
  fields :=
    [.always "path" true texts .ofStrings (·.path) fun x e => { e with path := x },
     .always "violations" true (list Violation.decode)
       (fun violations => .arr (violations.map Violation.encode)) (·.violations)
       fun x e => { e with violations := x }]
  initial := { path := [], violations := [] }

protected theorem stable : Stable decode encode := by
  have hfields : layout.Stable := by
    simp only [Layout.Stable, layout, List.forall_mem_cons]
    exact ⟨Field.stable_always stable_texts ⟨trivial, rfl⟩,
      Field.stable_always Violation.stable.list ⟨trivial, rfl⟩, nofun⟩
  exact Layout.stable hfields "EntryViolations"

end EntryViolations

namespace Report

def layout : Layout Report where
  fields :=
    [.nonempty "root" Violation.decode Violation.encode (·.root) fun x r => { r with root := x },
     .nonempty "entries" EntryViolations.decode EntryViolations.encode (·.entries)
       fun x r => { r with entries := x }]
  initial := {}

protected theorem stable : Stable decode encode := by
  have hfields : layout.Stable := by
    simp only [Layout.Stable, layout, List.forall_mem_cons]
    exact ⟨Field.stable_nonempty Violation.stable rfl,
      Field.stable_nonempty EntryViolations.stable rfl, nofun⟩
  exact Layout.stable hfields "ComplianceReport"

end Report

end Compliance

end LayeredAccess
