/-
  LayeredAccess.Proofs.Codec.Records

  The definitions of entitlements and profiles, the messages of the bus and of
  the compiler and the settings of an engine are stable. Each record type states
  its fields as a layout; what they read and write is what its own `fields` and
  `encode` say.

  The metadata of a profile is no record of this kind: every member but the label
  is an attribute. It is stable because the attributes that are read have no
  label among them.
-/
import LayeredAccess.Bus.Action
import LayeredAccess.Profile.Codec
import LayeredAccess.Proofs.Codec.Layout
import LayeredAccess.Proofs.Codec.Uuid

namespace LayeredAccess

open Decode Encode Codec

/-! ## Entitlements -/

namespace EntitlementMetadata

def layout : Layout EntitlementMetadata where
  fields :=
    [.present "service_id" Uuid.decode Uuid.encode (·.serviceId)
       fun v m => { m with serviceId := v },
     .present "resource" text .str (·.resource) fun v m => { m with resource := v },
     .present "label" text .str (·.label) fun v m => { m with label := v },
     .nonempty "tags" text .str (·.tags) fun v m => { m with tags := v }]
  initial := {}

protected theorem stable : Stable decode encode := by
  have huuid : Stable (optional Uuid.decode) (nullable Uuid.encode) :=
    stable_uuid.optional fun _ _ => nofun
  have hfields : layout.Stable := by
    simp only [Layout.Stable, layout, List.forall_mem_cons]
    exact ⟨Field.stable_present huuid rfl, Field.stable_present stable_optional_text rfl,
      Field.stable_present stable_optional_text rfl, Field.stable_nonempty stable_text rfl, nofun⟩
  exact Layout.stable hfields "EntitlementMetadata"

end EntitlementMetadata

namespace Entitlement

def layout : Layout Entitlement where
  fields :=
    [.always "id" true text .str (·.id) fun v e => { e with id := v },
     .always "own" false any itself (·.own) fun v e => { e with own := v },
     .present "completion" any itself (·.completion) fun v e => { e with completion := v },
     .always "dependencies" false texts .ofStrings (·.dependencies)
       fun v e => { e with dependencies := v },
     .always "metadata" false EntitlementMetadata.decode EntitlementMetadata.encode (·.metadata)
       fun v e => { e with metadata := v },
     .always "flags" false Flags.decode Flags.encode (·.flags) fun v e => { e with flags := v }]
  initial := { id := "" }

protected theorem stable : Stable decode encode := by
  have hmetadata : Keeps EntitlementMetadata.decode EntitlementMetadata.encode {} :=
    EntitlementMetadata.stable.keeps Json.ordered_obj_nil rfl
  have hfields : layout.Stable := by
    simp only [Layout.Stable, layout, List.forall_mem_cons]
    exact ⟨Field.stable_always stable_text ⟨trivial, rfl⟩,
      Field.stable_always stable_any ⟨Json.ordered_obj_nil, rfl⟩,
      Field.stable_present stable_optional_any rfl,
      Field.stable_always stable_texts ⟨trivial, rfl⟩,
      Field.stable_always EntitlementMetadata.stable hmetadata,
      Field.stable_always stable_flags (keeps_flags .empty), nofun⟩
  exact Layout.stable hfields "Entitlement"

end Entitlement

namespace EntitlementPatch

def layout : Layout EntitlementPatch where
  fields :=
    [.always "own" false (optional any) (nullable itself) (·.own) fun v p => { p with own := v },
     .always "completion" false (optional any) (nullable itself) (·.completion)
       fun v p => { p with completion := v },
     .always "dependencies" false (optional texts) (nullable .ofStrings) (·.dependencies)
       fun v p => { p with dependencies := v },
     .always "metadata" false (optional EntitlementMetadata.decode)
       (nullable EntitlementMetadata.encode) (·.metadata) fun v p => { p with metadata := v }]
  initial := {}

protected theorem stable : Stable decode encode := by
  have hmetadata :
      Stable (optional EntitlementMetadata.decode) (nullable EntitlementMetadata.encode) :=
    EntitlementMetadata.stable.optional fun _ _ => nofun
  have hfields : layout.Stable := by
    simp only [Layout.Stable, layout, List.forall_mem_cons]
    exact ⟨Field.stable_always stable_optional_any ⟨trivial, rfl⟩,
      Field.stable_always stable_optional_any ⟨trivial, rfl⟩,
      Field.stable_always stable_optional_texts ⟨trivial, rfl⟩,
      Field.stable_always hmetadata ⟨trivial, rfl⟩, nofun⟩
  exact Layout.stable hfields "EntitlementPatch"

end EntitlementPatch

/-! ## Profiles -/

namespace ProfileMetadata

/-- Attributes in key order without a label among them are written beside the label and found
again. -/
theorem find?_encoded {m : ProfileMetadata} (hsorted : KeyMap.Sorted m.attributes)
    (hlabel : KeyMap.find? m.attributes "label" = none) (k : String) :
    KeyMap.find? (KeyMap.ofList
      ((m.label.map fun l => ("label", Json.str l)).toList ++ m.attributes)) k =
      if "label" = k then m.label.map .str else KeyMap.find? m.attributes k := by
  -- The label is not among the attributes, so no key is written twice.
  have hfree : "label" ∉ KeyMap.keys m.attributes := by
    rw [KeyMap.mem_keys_iff, hlabel]
    simp
  have hnodup : (KeyMap.keys m.attributes).Nodup := KeyMap.nodup_keys hsorted
  cases hl : m.label with
  | none =>
    rw [Option.map_none, Option.toList_none, List.nil_append, KeyMap.find?_ofList hnodup,
      Option.map_none]
    split
    · next hk => rw [← hk, hlabel]
    · rfl
  | some l =>
    have hkeys : (KeyMap.keys (("label", Json.str l) :: m.attributes)).Nodup :=
      List.nodup_cons.2 ⟨hfree, hnodup⟩
    rw [Option.map_some, Option.toList_some, List.singleton_append, KeyMap.find?_ofList hkeys,
      KeyMap.find?_cons, Option.map_some]

theorem keeps_of_sorted {m : ProfileMetadata} (hsorted : KeyMap.Sorted m.attributes)
    (hordered : ∀ a ∈ m.attributes, a.2.Ordered)
    (hlabel : KeyMap.find? m.attributes "label" = none) : Keeps decode encode m where
  ordered := by
    refine Json.ordered_mkObj fun a ha => ?_
    rcases List.mem_append.1 ha with ha | ha
    · obtain ⟨l, -, rfl⟩ := Option.map_eq_some_iff.1 (Option.mem_toList.1 ha)
      trivial
    · exact hordered a ha
  reads := by
    -- Taking the label out of what is written leaves the attributes.
    have hattributes : KeyMap.erase (KeyMap.ofList
        ((m.label.map fun l => ("label", Json.str l)).toList ++ m.attributes)) "label" =
        m.attributes := by
      refine KeyMap.ext_of_find? (KeyMap.sorted_erase _ (KeyMap.sorted_ofList _)) hsorted
        fun k => ?_
      rw [KeyMap.find?_erase, find?_encoded hsorted hlabel]
      split
      · next hk => rw [← hk, hlabel]
      · rfl
    rw [encode, Json.mkObj, decode, find?_encoded hsorted hlabel, if_pos rfl, hattributes]
    obtain ⟨label, attributes⟩ := m
    cases label <;> rfl

protected theorem stable : Stable decode encode := by
  refine ⟨fun {v m} hv hread => ?_⟩
  cases v with
  | obj members =>
    obtain ⟨hsorted, hordered⟩ := (Json.ordered_obj_iff members).1 hv
    have hattributes : m.attributes = KeyMap.erase members "label" := by
      rw [decode] at hread
      split at hread
      all_goals
        obtain ⟨label, -, heq⟩ := exists_of_bind hread
        obtain rfl := Except.ok.inj heq
        rfl
    -- The attributes are members of the value that was read, so they are ordered as it is.
    have hsub : ∀ a ∈ KeyMap.erase members "label", a ∈ members := by
      intro a ha
      have hfind := KeyMap.find?_of_mem (KeyMap.sorted_erase "label" hsorted) ha
      rw [KeyMap.find?_erase] at hfind
      split at hfind
      · cases hfind
      · exact KeyMap.mem_of_find? hfind
    apply keeps_of_sorted
    · rw [hattributes]
      exact KeyMap.sorted_erase _ hsorted
    · intro a ha
      exact hordered a (hsub a (hattributes ▸ ha))
    · rw [hattributes, KeyMap.find?_erase, if_pos rfl]
  | _ => cases hread

end ProfileMetadata

namespace Profile

def layout : Layout Profile where
  fields :=
    [.always "name" true text .str (·.name) fun v p => { p with name := v },
     .always "entitlements" false any itself (·.entitlements)
       fun v p => { p with entitlements := v },
     .always "dependencies" false texts .ofStrings (·.dependencies)
       fun v p => { p with dependencies := v },
     .always "metadata" false ProfileMetadata.decode ProfileMetadata.encode (·.metadata)
       fun v p => { p with metadata := v }]
  initial := { name := "" }

protected theorem stable : Stable decode encode := by
  have hmetadata : Keeps ProfileMetadata.decode ProfileMetadata.encode {} :=
    ProfileMetadata.stable.keeps Json.ordered_obj_nil rfl
  have hfields : layout.Stable := by
    simp only [Layout.Stable, layout, List.forall_mem_cons]
    exact ⟨Field.stable_always stable_text ⟨trivial, rfl⟩,
      Field.stable_always stable_any ⟨Json.ordered_obj_nil, rfl⟩,
      Field.stable_always stable_texts ⟨trivial, rfl⟩,
      Field.stable_always ProfileMetadata.stable hmetadata, nofun⟩
  exact Layout.stable hfields "Profile"

end Profile

namespace ProfilePatch

def layout : Layout ProfilePatch where
  fields :=
    [.always "entitlements" false (optional any) (nullable itself) (·.entitlements)
       fun v p => { p with entitlements := v },
     .always "dependencies" false (optional texts) (nullable .ofStrings) (·.dependencies)
       fun v p => { p with dependencies := v },
     .always "metadata" false (optional ProfileMetadata.decode) (nullable ProfileMetadata.encode)
       (·.metadata) fun v p => { p with metadata := v }]
  initial := {}

protected theorem stable : Stable decode encode := by
  have hmetadata : Stable (optional ProfileMetadata.decode) (nullable ProfileMetadata.encode) :=
    ProfileMetadata.stable.optional fun _ _ => nofun
  have hfields : layout.Stable := by
    simp only [Layout.Stable, layout, List.forall_mem_cons]
    exact ⟨Field.stable_always stable_optional_any ⟨trivial, rfl⟩,
      Field.stable_always stable_optional_texts ⟨trivial, rfl⟩,
      Field.stable_always hmetadata ⟨trivial, rfl⟩, nofun⟩
  exact Layout.stable hfields "ProfilePatch"

end ProfilePatch

/-! ## Messages -/

namespace Action

def layout : Layout Action where
  fields :=
    [.always "type" true text .str (·.kind) fun v a => { a with kind := v },
     .present "id" text .str (·.id) fun v a => { a with id := v },
     .present "payload" any itself (·.payload) fun v a => { a with payload := v }]
  initial := { kind := "" }

protected theorem stable : Stable decode encode := by
  have hfields : layout.Stable := by
    simp only [Layout.Stable, layout, List.forall_mem_cons]
    exact ⟨Field.stable_always stable_text ⟨trivial, rfl⟩,
      Field.stable_present stable_optional_text rfl, Field.stable_present stable_optional_any rfl,
      nofun⟩
  exact Layout.stable hfields "Action"

end Action

namespace CompileJob

def layout : Layout CompileJob where
  fields :=
    [.always "id" true text .str (·.id) fun v j => { j with id := v },
     .always "generation" false word64 (fun n => .int n) (·.generation)
       fun v j => { j with generation := v },
     .always "dependencies" false texts .ofStrings (·.dependencies)
       fun v j => { j with dependencies := v },
     .always "layers" false (list any) .arr (·.layers) fun v j => { j with layers := v }]
  initial := { id := "" }

protected theorem stable : Stable decode encode := by
  have hlayers : Stable (list any) .arr := by
    have hitself : (fun xs : List Json => Json.arr (xs.map itself)) = .arr :=
      funext fun xs => congrArg Json.arr (List.map_id'' (fun _ => rfl) xs)
    exact hitself ▸ stable_any.list
  have hfields : layout.Stable := by
    simp only [Layout.Stable, layout, List.forall_mem_cons]
    exact ⟨Field.stable_always stable_text ⟨trivial, rfl⟩,
      Field.stable_always stable_word64 ⟨trivial, rfl⟩,
      Field.stable_always stable_texts ⟨trivial, rfl⟩,
      Field.stable_always hlayers ⟨trivial, rfl⟩, nofun⟩
  exact Layout.stable hfields "CompileJob"

end CompileJob

namespace Envelope

def layout : Layout Envelope where
  fields :=
    [.always "event" true CompilerEvent.decode CompilerEvent.encode (·.event)
       fun v e => { e with event := v },
     .always "data" false any itself (·.data) fun v e => { e with data := v }]
  initial := { event := .process }

protected theorem stable : Stable decode encode := by
  have hfields : layout.Stable := by
    simp only [Layout.Stable, layout, List.forall_mem_cons]
    exact ⟨Field.stable_always stable_compilerEvent ⟨trivial, rfl⟩,
      Field.stable_always stable_any ⟨trivial, rfl⟩, nofun⟩
  exact Layout.stable hfields "Envelope"

end Envelope

/-! ## Settings -/

namespace SandboxConfig

def layout : Layout SandboxConfig where
  fields :=
    [.always "compile_budget_ms" false word64 (fun n => .int n) (·.compileBudget)
       fun v c => { c with compileBudget := v },
     .always "eval_budget_ms" false word64 (fun n => .int n) (·.evalBudget)
       fun v c => { c with evalBudget := v }]
  initial := {}

protected theorem stable : Stable decode encode := by
  have hfields : layout.Stable := by
    simp only [Layout.Stable, layout, List.forall_mem_cons]
    exact ⟨Field.stable_always stable_word64 ⟨trivial, rfl⟩,
      Field.stable_always stable_word64 ⟨trivial, rfl⟩, nofun⟩
  exact Layout.stable hfields "SandboxConfig"

end SandboxConfig

namespace EngineConfig

def layout : Layout EngineConfig where
  fields :=
    [.always "compile_mode" false CompileMode.decode CompileMode.encode (·.compileMode)
       fun v c => { c with compileMode := v },
     .always "sandbox" false SandboxConfig.decode SandboxConfig.encode (·.sandbox)
       fun v c => { c with sandbox := v }]
  initial := {}

protected theorem stable : Stable decode encode := by
  have hsandbox : Keeps SandboxConfig.decode SandboxConfig.encode {} :=
    SandboxConfig.stable.keeps Json.ordered_obj_nil rfl
  have hfields : layout.Stable := by
    simp only [Layout.Stable, layout, List.forall_mem_cons]
    exact ⟨Field.stable_always stable_compileMode ⟨trivial, rfl⟩,
      Field.stable_always SandboxConfig.stable hsandbox, nofun⟩
  exact Layout.stable hfields "EngineConfig"

end EngineConfig

end LayeredAccess
