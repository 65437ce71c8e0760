/-
  LayeredAccess.Proofs.Registry.Rereading

  Entitlements that are written as JSON and read again before they are entered.
  Reading gives the definition that was written (`Entitlement.decode_encode`),
  with one exception: `null` is a value like any other for payloads, but it also
  stands for a completion that is absent. So a completion that is `null` is
  written and not read again. It would have replaced all that lies below it
  (`Entitlement.mergeLayers_null`).

  A registry enters what was read as it would have entered what was written if
  the completion is not `null`; otherwise only if it refuses both
  (`Registry.add_reread`).
-/
import LayeredAccess.Proofs.Codec.Records
import LayeredAccess.Proofs.Merge.Alike
import LayeredAccess.Proofs.Merge.PerKey
import LayeredAccess.Proofs.Registry.Definitions
import LayeredAccess.Proofs.Registry.DeletionOrder
import LayeredAccess.Proofs.Registry.Refusal

namespace LayeredAccess

open Decode Encode Codec

namespace Entitlement

/-! ## Putting definitions together -/

/-- What a definition may say besides its id and its own payload. -/
inductive Part where
  | dependencies (ids : List String)
  | completion (v : Json)
  | resource (name : String)
  | flags (flags : Flags)

/-- The definition with one more part; a part of the same kind is replaced. -/
def withPart (e : Entitlement) : Part → Entitlement
  | .dependencies ids => { e with dependencies := ids }
  | .completion v => { e with completion := some v }
  | .resource name => { e with metadata := { e.metadata with resource := some name } }
  | .flags flags => { e with flags }

/-- The definition that is put together from its parts. -/
def build (id : String) (own : Json) (parts : List Part) : Entitlement :=
  parts.foldl withPart { id, own }

/-- A definition whose payloads are in key order, and whose id has not been generated. -/
structure Plain (e : Entitlement) : Prop where
  own : e.own.Ordered
  completion : ∀ v, e.completion = some v → v.Ordered
  serviceId : e.metadata.serviceId = none

theorem Plain.withPart {e : Entitlement} (h : Plain e) {part : Part}
    (hpart : ∀ v, part = .completion v → v.Ordered) : Plain (e.withPart part) := by
  cases part with
  | completion v => exact ⟨h.own, fun w hw => Option.some.inj hw ▸ hpart v rfl, h.serviceId⟩
  | dependencies | resource | flags => exact ⟨h.own, h.completion, h.serviceId⟩

/-- Definitions that are put together from payloads in key order are plain. -/
theorem plain_build (id : String) {own : Json} {parts : List Part} (hown : own.Ordered)
    (hparts : ∀ v, .completion v ∈ parts → v.Ordered) : Plain (build id own parts) := by
  suffices hfold : ∀ e, Plain e → Plain (parts.foldl Entitlement.withPart e) from
    hfold _ ⟨hown, nofun, rfl⟩
  induction parts with
  | nil => exact fun e he => he
  | cons part rest ih =>
    intro e he
    have hrest := ih fun v hv => hparts v (List.mem_cons_of_mem _ hv)
    exact hrest _ (he.withPart fun v hv => hparts v (hv ▸ List.mem_cons_self))

/-! ## Writing and reading -/

/-- The definition as it is read again: a completion that is `null` is taken for absent. -/
def reread (e : Entitlement) : Entitlement :=
  { e with completion := e.completion.bind Json.toOption }

theorem reread_eq_self {e : Entitlement} (h : e.completion ≠ some .null) : e.reread = e := by
  obtain ⟨id, own, completion, dependencies, metadata, flags⟩ := e
  cases completion with
  | none => rfl
  | some v =>
    cases v with
    | null => exact absurd rfl h
    | _ => rfl

/-- The fields of definitions, where an absent completion is written as `null`. -/
def explicitFields : List (Codec.Field Entitlement) :=
  [.always "id" true text .str (·.id) fun v e => { e with id := v },
   .always "own" false any itself (·.own) fun v e => { e with own := v },
   .always "completion" false (optional any) (nullable itself) (·.completion)
     fun v e => { e with completion := v },
   .always "dependencies" false texts .ofStrings (·.dependencies)
     fun v e => { e with dependencies := v },
   .always "metadata" false EntitlementMetadata.decode EntitlementMetadata.encode (·.metadata)
     fun v e => { e with metadata := v },
   .always "flags" false Flags.decode Flags.encode (·.flags) fun v e => { e with flags := v }]

theorem apart_explicitFields : explicitFields.Pairwise Codec.Field.Apart := by
  simp [explicitFields, Codec.Field.apart_iff, Codec.Field.always]

theorem get_set_explicitFields : ∀ f ∈ explicitFields, ∀ a e, f.get (f.set a e) = a := by
  simp [explicitFields, Codec.Field.always]

theorem ext_explicitFields (e e' : Entitlement) (h : ∀ f ∈ explicitFields, f.get e = f.get e') :
    e = e' := by
  obtain ⟨id, own, completion, dependencies, metadata, flags⟩ := e
  obtain ⟨id', own', completion', dependencies', metadata', flags'⟩ := e'
  simpa [explicitFields, Codec.Field.always] using h

/-- The layout of definitions in which an absent completion is written as `null`. -/
def explicitLayout : Layout Entitlement where
  fields := explicitFields
  initial := { id := "" }
  apart := apart_explicitFields
  get_set := get_set_explicitFields
  ext := ext_explicitFields

theorem keeps_text (s : String) : Keeps text .str s := ⟨trivial, rfl⟩

theorem keeps_texts (ss : List String) : Keeps texts .ofStrings ss :=
  keeps_list fun s _ => keeps_text s

/-- Metadata without a service is read as it was written. -/
theorem keeps_metadata {m : EntitlementMetadata} (h : m.serviceId = none) :
    Keeps EntitlementMetadata.decode EntitlementMetadata.encode m := by
  have hoptional : ∀ o : Option String, Keeps (optional text) (nullable .str) o := fun o => by
    cases o <;> exact ⟨trivial, rfl⟩
  have hservice : Keeps (optional Uuid.decode) (nullable Uuid.encode) m.serviceId := by
    rw [h]
    exact ⟨trivial, rfl⟩
  have hsound : EntitlementMetadata.layout.Sound m := by
    simp only [Layout.Sound, EntitlementMetadata.layout, List.forall_mem_cons]
    exact ⟨Field.kept_present rfl hservice, Field.kept_present rfl (hoptional _),
      Field.kept_present rfl (hoptional _), Field.kept_nonempty rfl (keeps_texts _),
      List.forall_mem_nil _⟩
  exact Layout.keeps_of_sound hsound "EntitlementMetadata"

/-- What is present and no sentinel of absence is read as it was written. -/
theorem keeps_completion {o : Option Json} (h : ∀ v, o = some v → v.Ordered) :
    Keeps (optional any) (nullable itself) (o.bind Json.toOption) := by
  cases o with
  | none => exact ⟨trivial, rfl⟩
  | some v =>
    have hv := h v rfl
    cases v with
    | null => exact ⟨trivial, rfl⟩
    | _ => exact ⟨hv, rfl⟩

/-- What is written is read again, but for a completion that is `null`. -/
theorem decode_encode {e : Entitlement} (h : Plain e) : decode e.encode = .ok e.reread := by
  have hmetadata := keeps_metadata h.serviceId
  have hcompletion := keeps_completion h.completion
  -- An absent completion is left out, any other is written as the value that it is. Either way
  -- one of two layouts writes the same for what will be read.
  cases hc : e.completion with
  | none =>
    have hsound : layout.Sound e.reread := by
      simp only [Layout.Sound, layout, List.forall_mem_cons]
      exact ⟨Field.kept_always (keeps_text _), Field.kept_always ⟨h.own, rfl⟩,
        Field.kept_present rfl hcompletion, Field.kept_always (keeps_texts _),
        Field.kept_always hmetadata, Field.kept_always (keeps_flags _),
        List.forall_mem_nil _⟩
    have hwrite : layout.encode e.reread = e.encode := by
      rw [reread_eq_self (by simp [hc])]
      rfl
    exact hwrite ▸ (Layout.keeps_of_sound hsound "Entitlement").reads
  | some v =>
    have hsound : explicitLayout.Sound e.reread := by
      simp only [Layout.Sound, explicitLayout, explicitFields, List.forall_mem_cons]
      exact ⟨Field.kept_always (keeps_text _), Field.kept_always ⟨h.own, rfl⟩,
        Field.kept_always hcompletion, Field.kept_always (keeps_texts _),
        Field.kept_always hmetadata, Field.kept_always (keeps_flags _),
        List.forall_mem_nil _⟩
    have hwrite : explicitLayout.encode e.reread = e.encode := by
      obtain ⟨id, own, completion, dependencies, metadata, flags⟩ := e
      obtain rfl : completion = some v := hc
      cases v <;> rfl
    exact hwrite ▸ (Layout.keeps_of_sound hsound "Entitlement").reads

/-- A completion that is `null` replaces whatever lies below it. -/
theorem mergeLayers_null {e : Entitlement} (h : e.completion = some .null) (below : List Json) :
    Json.mergeLayers (below ++ e.layers) = .null := by
  rw [layers, h, Option.toList_some, ← List.singleton_append, ← List.append_assoc,
    Json.mergeLayers_append_cons (below ++ [e.own]) [] rfl]
  rfl

end Entitlement

/-! ## Entering -/

namespace Registry

/-- Whether a node is refused, and why, is a matter of its key and its dependencies. -/
theorem refuses_or_enters {ν : Type} [Node ν] (r : Registry ν) (n : ν) :
    (∃ e, ∀ n', Node.key n' = Node.key n → Node.dependencies n' = Node.dependencies n →
      r.add n' = r.refuse "Add Error" (Node.key n) e) ∨
    (r.contains (Node.key n) = false ∧
      r.graph.check (Node.key n) (Node.dependencies n) = .ok ()) := by
  cases hnew : r.contains (Node.key n) with
  | true =>
    refine .inl ⟨.alreadyExists (Node.key n), fun n' hkey hdependencies => ?_⟩
    simp only [add, hkey, hnew, if_true]
  | false =>
    cases hcheck : r.graph.check (Node.key n) (Node.dependencies n) with
    | error e =>
      refine .inl ⟨e.toEngineError, fun n' hkey hdependencies => ?_⟩
      simp only [add, hkey, hdependencies, hnew, hcheck, Bool.false_eq_true, if_false]
    | ok u => exact .inr ⟨rfl, rfl⟩

variable {r : Registry EntitlementNode}

/-- An entitlement that is entered keeps its definition, whatever follows. -/
theorem entitlement_add {e : Entitlement} (hnew : r.contains e.id = false)
    (hcheck : r.graph.check e.id e.dependencies = .ok ()) :
    ((r.add (.ofEntitlement e)).2.get? e.id).map (·.entitlement) = some e := by
  have hadd := add_of_check (n := EntitlementNode.ofEntitlement e) hnew hcheck
  obtain ⟨⟨readiness, hnodes⟩, -, -⟩ := install_eq r (.ofEntitlement e)
  let placed := (r.install (.ofEntitlement e)).publishSignal e.id .added true
  -- It is placed with a record of its dependencies, and told that it is entered. Neither changes
  -- its definition.
  have hplaced : placed.get? e.id =
      some (Node.setReadiness (EntitlementNode.ofEntitlement e) readiness) := by
    show KeyMap.find? (r.install (.ofEntitlement e)).nodes e.id = _
    rw [hnodes, KeyMap.find?_insert]
    exact if_pos rfl
  obtain ⟨htold, -, -⟩ := tell_some hplaced (.own .added .registry)
  have hbare := (onward_deliver placed e.id .added).bare_eq e.id
  rw [get?, htold, KeyMap.find?_insert, if_pos rfl, Option.map_some] at hbare
  obtain ⟨n, hn, hbare⟩ := Option.map_eq_some_iff.1 hbare.symm
  have hdefinition : n.entitlement = e :=
    (EntitlementNode.bare_eq_iff.1 hbare).1.trans (EntitlementNode.entitlement_answer _ _)
  rw [hadd]
  show (Registry.get? (placed.deliver e.id .added) e.id).map _ = _
  rw [hn, Option.map_some, hdefinition]

/-- A registry in whatever state does the same with a definition that has been written and read as
with the definition itself if its completion is not `null`. If it is, the registry does the same
only where it refuses both; and while the completion would have replaced all that lies below it,
the own payload is the topmost layer of what has been read. -/
theorem add_reread (id : String) {own : Json} {parts : List Entitlement.Part} (hown : own.Ordered)
    (hparts : ∀ v, .completion v ∈ parts → v.Ordered) :
    let e := Entitlement.build id own parts
    ∃ e', Entitlement.decode e.encode = .ok e' ∧
      (∀ r : Registry EntitlementNode, r.add (.ofEntitlement e') = r.add (.ofEntitlement e) ↔
        e.completion ≠ some .null ∨ Refused (r.add (.ofEntitlement e)).1) ∧
      (e.completion = some .null → e'.layers = [e.own] ∧
        ∀ below, Json.mergeLayers (below ++ e.layers) = .null) := by
  intro e
  refine ⟨e.reread, Entitlement.decode_encode (Entitlement.plain_build id hown hparts),
    fun r => ⟨fun hsame => ?_, ?_⟩, fun hnull => ⟨?_, Entitlement.mergeLayers_null hnull⟩⟩
  · rcases r.refuses_or_enters (.ofEntitlement e) with ⟨error, hrefuse⟩ | ⟨hnew, hcheck⟩
    · exact .inr ⟨error, by rw [hrefuse _ rfl rfl]; rfl⟩
    · -- Two definitions that are entered alike are the same.
      have hread := entitlement_add (e := e.reread) hnew hcheck
      rw [hsame] at hread
      have hread : some e = some e.reread := (entitlement_add hnew hcheck).symm.trans hread
      refine .inl fun hnull => ?_
      have hlost := congrArg Entitlement.completion (Option.some.inj hread)
      rw [Entitlement.reread, hnull] at hlost
      cases hlost
  · rintro (hpresent | ⟨error, herror⟩)
    · rw [Entitlement.reread_eq_self hpresent]
    · rcases r.refuses_or_enters (.ofEntitlement e) with ⟨error, hrefuse⟩ | ⟨hnew, hcheck⟩
      · exact (hrefuse (.ofEntitlement e.reread) rfl rfl).trans (hrefuse _ rfl rfl).symm
      · rw [add_of_check hnew hcheck] at herror
        cases herror
  · rw [Entitlement.layers, Entitlement.reread, hnull]
    rfl

/-- A definition with parts of every kind, among them a completion that has a `null` in it. -/
theorem add_reread_complete :
    let own : Json := .obj [("x", .int 1)]
    let completion : Json := .obj [("x", .null)]
    let parts : List Entitlement.Part :=
      [.dependencies ["b"], .completion completion, .resource "s", .flags .sealed]
    own.Ordered ∧ (∀ v, .completion v ∈ parts → v.Ordered) ∧
      ∃ e', Entitlement.decode (Entitlement.build "a" own parts).encode = .ok e' ∧
        ∀ r : Registry EntitlementNode, r.add (.ofEntitlement e') =
          r.add (.ofEntitlement (Entitlement.build "a" own parts)) := by
  intro own completion parts
  have hown : own.Ordered := by decide
  have hparts : ∀ v, .completion v ∈ parts → v.Ordered := by
    intro v hv
    obtain rfl : v = completion := by simpa [parts] using hv
    decide
  obtain ⟨e', hread, hadd, -⟩ := add_reread "a" hown hparts
  have hpresent : (Entitlement.build "a" own parts).completion ≠ some .null := by
    simp [Entitlement.build, Entitlement.withPart, parts, completion]
  exact ⟨hown, hparts, e', hread, fun r => (hadd r).2 (.inl hpresent)⟩

/-- With a completion that is `null` an entitlement is compiled to `null`; written and read again it
is compiled to its own payload. -/
theorem null_completion_lost :
    let e := Entitlement.build "a" (.obj [("x", .int 1)]) [.completion .null]
    let r : Registry EntitlementNode := fresh {} none
    (r.add (.ofEntitlement e)).1 = .ok () ∧
      (r.add (.ofEntitlement e)).2.compiled? "a" = some .null ∧
      ∃ e', Entitlement.decode e.encode = .ok e' ∧
        (r.add (.ofEntitlement e')).2.compiled? "a" = some (.obj [("x", .int 1)]) ∧
        r.add (.ofEntitlement e') ≠ r.add (.ofEntitlement e) := by
  intro e r
  have hadd : (r.add (.ofEntitlement e)).1 = .ok () := by
    have hok : (r.add (.ofEntitlement e)).1.isOk = true := by decide +kernel
    cases hresult : (r.add (.ofEntitlement e)).1 with
    | ok => rfl
    | error _ =>
      rw [hresult] at hok
      cases hok
  -- Values are compared by `==`, which is exact where there are no doubles.
  have hcompiled : (r.add (.ofEntitlement e)).2.compiled? "a" = some .null := by
    have htest : ((r.add (.ofEntitlement e)).2.compiled? "a").any (· == .null) = true := by
      decide +kernel
    obtain ⟨v, hv, hsame⟩ := (Option.any_eq_true _ _).1 htest
    cases Json.alike_of_same hsame
    exact hv
  have hreread : (r.add (.ofEntitlement e.reread)).2.compiled? "a" =
      some (.obj [("x", .int 1)]) := by
    have htest : ((r.add (.ofEntitlement e.reread)).2.compiled? "a").any
        (· == .obj [("x", .int 1)]) = true := by
      decide +kernel
    obtain ⟨v, hv, hsame⟩ := (Option.any_eq_true _ _).1 htest
    cases Json.alike_of_same hsame with
    | obj hmembers =>
      cases hmembers with
      | cons hitem hrest =>
        cases hitem
        cases hrest
        exact hv
  have hread : Entitlement.decode e.encode = .ok e.reread :=
    Entitlement.decode_encode ⟨by decide, fun v hv => Option.some.inj hv ▸ trivial, rfl⟩
  refine ⟨hadd, hcompiled, e.reread, hread, hreread, fun hsame => ?_⟩
  rw [hsame, hcompiled] at hreread
  cases hreread

end Registry

end LayeredAccess
