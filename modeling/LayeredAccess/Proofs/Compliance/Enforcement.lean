/-
  LayeredAccess.Proofs.Compliance.Enforcement

  What it means that a value passes the check of a loaded schema. Each rule that
  an entry lists has been found, and has accepted the value at the entry.

  This is so for the last block of rules at each path. If siblings have the same
  name their paths are the same, and only the block of the last one is kept; what
  the others list is lost.
-/
import LayeredAccess.Proofs.Compliance.Catalogue
import LayeredAccess.Sandbox.Scripts

namespace LayeredAccess

namespace Compliance

/-- A block of rules that no later block at the same path displaces. -/
def Schema.InForce (s : Schema) (path : Path) (comply : Comply) : Prop :=
  ∃ before after, s.blocks = before ++ (path, comply) :: after ∧ ∀ b ∈ after, b.1 ≠ path

/-- What the rules at a path judge of a value: at the root all of it, below the root what is there
and is no object. -/
def judged? (resource : String) (value : Json) (path : Path) : Option Json :=
  if path = [resource] then some value
  else (value.at? (path.drop 1)).filter fun w => w.asObject?.isNone

variable {σ : Type}

/-- In a check a reference has its turn to judge a value at a path, and at every such turn finds a
rule that accepts the value. -/
def Accepts (e : ComplianceEngine σ) (resource : String) (value : Json) (t : Turn) : Prop :=
  t ∈ e.book.turns resource value ∧
  ∃ home rule, e.book.resolve t.path t.reference = some (home, rule) ∧
    ∀ before after, e.book.turns resource value = before ++ t :: after →
      ((rule.run t.value t.reference.args).run (stateAfter e.book.take e.sandbox before)).1 =
        .ok true

namespace Rulebook

variable {b : Rulebook} {s : Schema} {path : Path} {comply : Comply}

/-- A book that holds a schema has the references of its blocks in force. -/
theorem Holds.referencesAt_eq (h : b.Holds s.name (some s)) (hforce : s.InForce path comply) :
    b.referencesAt path = comply.rules := by
  obtain ⟨before, after, hblocks, hafter⟩ := hforce
  have hmem : (path, comply) ∈ s.blocks := by
    rw [hblocks]
    exact List.mem_append_right _ List.mem_cons_self
  have hreferences : s.contents.references = before.map (fun b => (b.1, b.2.rules)) ++
      (path, comply.rules) :: after.map fun b => (b.1, b.2.rules) := by
    rw [Schema.contents, Contents.ofBlocks, hblocks, List.map_append, List.map_cons]
  rw [referencesAt, h.references_eq path (Schema.head?_of_mem_blocks hmem), Option.bind_some,
    KeyMap.find?_reverse hreferences, Option.getD_some]
  intro e he
  obtain ⟨b, hb, rfl⟩ := List.mem_map.1 he
  exact hafter b hb

/-- Every reference in force has its turn. -/
theorem Holds.mem_turns (h : b.Holds s.name (some s)) (hforce : s.InForce path comply)
    {value w : Json} (hw : judged? s.name value path = some w) {r : RuleRef}
    (hr : r ∈ comply.rules) : ⟨path, w, r⟩ ∈ b.turns s.name value := by
  have hturn : ⟨path, w, r⟩ ∈ b.turnsAt path w :=
    List.mem_map.2 ⟨r, h.referencesAt_eq hforce ▸ hr, rfl⟩
  rw [turns, List.mem_append]
  rw [judged?] at hw
  -- The root is judged whatever it is, every other value only as a leaf.
  split at hw
  · next hpath =>
    obtain rfl := Option.some.inj hw
    exact .inl (hpath ▸ hturn)
  · next hpath =>
    obtain ⟨before, after, hblocks, -⟩ := hforce
    have hhead : path.head? = some s.name := by
      refine Schema.head?_of_mem_blocks (b := (path, comply)) ?_
      rw [hblocks]
      exact List.mem_append_right _ List.mem_cons_self
    obtain ⟨rest, rfl⟩ : ∃ rest, path = s.name :: rest := by
      cases path with
      | nil => simp at hhead
      | cons root rest => exact ⟨rest, by rw [Option.some.inj hhead]⟩
    obtain ⟨hat, hleaf⟩ := Option.filter_eq_some_iff.1 hw
    refine .inr (List.mem_flatMap.2 ⟨(s.name :: rest, w), ?_, hturn⟩)
    exact mem_leavesBelow (fun hnil => hpath (by rw [hnil])) hat (by simpa using hleaf)

end Rulebook

end Compliance

open Compliance

namespace Catalogue

variable {σ : Type} {c : Catalogue σ}

/-- A value that passes the check of a schema in the catalogue is accepted by all rules in force. -/
def Enforces (c : Catalogue σ) : Prop :=
  ∀ (s : Schema) (value : Json), KeyMap.find? c.versions s.name = some s →
    (c.engine.verify s.name value).1 = .ok () →
    ∀ path comply, s.InForce path comply → ∀ w, judged? s.name value path = some w →
      ∀ r ∈ comply.rules, Accepts c.engine s.name value ⟨path, w, r⟩

/-- If a check succeeds there is nothing to report. -/
theorem isEmpty_report_of_verify {e : ComplianceEngine σ} {resource : String} {value : Json}
    (hschema : e.book.hasSchema resource = true) (h : (e.verify resource value).1 = .ok ()) :
    ((e.book.report resource value).run e.sandbox).1.isEmpty = true := by
  rw [ComplianceEngine.verify, if_pos hschema, ComplianceEngine.report_eq] at h
  cases hempty : ((e.book.report resource value).run e.sandbox).1.isEmpty with
  | true => rfl
  | false => simp [hempty] at h

theorem Invariant.enforces (h : Invariant c) : Enforces c := by
  intro s value hs hok path comply hforce w hw r hr
  have hholds : c.engine.book.Holds s.name (some s) := hs ▸ h.mirrors.holds s.name
  have hschema : c.engine.book.hasSchema s.name = true := by
    rw [Rulebook.hasSchema, KeyMap.contains, hholds.schemas_eq]
    rfl
  have hempty := isEmpty_report_of_verify hschema hok
  have hnone := (c.engine.book.run_report s.name value c.engine.sandbox).2 hempty
  have hmem := hholds.mem_turns hforce hw hr
  -- At each of its turns the reference finds a rule, which is always the same one.
  have htake : ∀ before after, c.engine.book.turns s.name value = before ++ ⟨path, w, r⟩ :: after →
      ∃ home rule, c.engine.book.resolve path r = some (home, rule) ∧
        ((rule.run w r.args).run (stateAfter c.engine.book.take c.engine.sandbox before)).1 =
          .ok true :=
    fun before after hturns => Rulebook.accepted_of_take (forall_of_resultsOf hnone hturns)
  obtain ⟨before, after, hturns⟩ := List.append_of_mem hmem
  obtain ⟨home, rule, hresolve, -⟩ := htake before after hturns
  refine ⟨hmem, home, rule, hresolve, fun before after hturns => ?_⟩
  obtain ⟨home', rule', hresolve', hrun⟩ := htake before after hturns
  obtain ⟨-, rfl⟩ := Prod.mk.inj (Option.some.inj (hresolve'.symm.trans hresolve))
  exact hrun

/-- Whatever has been done with an engine, a value that passes the check of a loaded schema is
accepted by all rules in force. The numbers of scripts and workers do not wrap: this is about fewer
than `2 ^ 64` of them. -/
theorem enforces_run (native : Rulebook) (sandbox : Sandbox σ)
    (ops : List ComplianceEngine.Operation) : Enforces ((start native sandbox).run ops) :=
  ((invariant_start native sandbox).run ops).enforces

/-- A sandbox that takes every source for a script, and every script to ask for the number one. -/
def onlyOne : Sandbox Unit where
  interpreter :=
    { start := id
      compile := fun _ _ => (.answer (.ok ()), ())
      evaluate := fun _ value _ _ =>
        (.answer (.ok (match value with | .int 1 => true | _ => false)), ()) }
  state := ()

/-- An entry with a rule of its own. -/
def single : Schema :=
  { name := "s"
    children :=
      [{ name := "a"
         comply := some
          { rules := [{ name := "one" }], define := [{ name := "one", body := "value == 1" }] } }] }

theorem enforces_run_single :
    Accepts ((start {} onlyOne).run [.load single]).engine "s" (.obj [("a", .int 1)])
      ⟨["s", "a"], .int 1, { name := "one" }⟩ :=
  enforces_run {} onlyOne [.load single] single (.obj [("a", .int 1)]) rfl rfl ["s", "a"] _
    ⟨[], [], rfl, fun _ hb => absurd hb List.not_mem_nil⟩ (.int 1) rfl _ List.mem_cons_self

/-- Two siblings of one name: the first lists a rule that does not exist, the second lists none. -/
def twins : Schema :=
  { name := "s"
    children :=
      [{ name := "a", comply := some { rules := [{ name := "nowhere" }] } },
       { name := "a", comply := some {} }] }

/-- A value can pass the check although a rule that an entry lists for it is not to be found. -/
theorem displaced_twins :
    let c := (start (Builtin.modules.foldl Rulebook.register {}) (Scripts.sandbox {})).run
      [.load twins]
    let value : Json := .obj [("a", .int 1)]
    KeyMap.find? c.versions twins.name = some twins ∧
    (c.engine.verify twins.name value).1 = .ok () ∧
    (∃ comply : Comply, (["s", "a"], comply) ∈ twins.blocks ∧
      { name := "nowhere" } ∈ comply.rules) ∧
    judged? twins.name value ["s", "a"] = some (.int 1) ∧
    c.engine.book.resolve ["s", "a"] { name := "nowhere" } = none :=
  ⟨rfl, rfl, ⟨{ rules := [{ name := "nowhere" }] }, List.mem_cons_self, List.mem_cons_self⟩, rfl,
    rfl⟩

end Catalogue

end LayeredAccess
