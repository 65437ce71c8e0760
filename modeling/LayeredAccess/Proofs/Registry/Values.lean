/-
  LayeredAccess.Proofs.Registry.Values

  Values fit the values below them: a value is what merging gives, as long as
  all dependencies hold values. While a dependency has none, nothing is said;
  by the time it has one again, nobody who depends on it holds a value.
-/
import LayeredAccess.Proofs.Registry.ValueState
import Mathlib.Data.List.Basic

namespace LayeredAccess.Outlook

/-- Every value is the one expected, as long as all dependencies hold values. -/
def Valued (o : Outlook) : Prop :=
  ∀ k l x, o.outline? k = some l → l.compiled = some x →
    (∀ d ∈ l.dependencies, (o.value? d).isSome) → x = o.expected l

variable {o o' : Outlook} {k : String} {l : Outline}

/-- What is expected depends on the values of the dependencies alone. -/
theorem expected_congr (h : ∀ d ∈ l.dependencies, o'.value? d = o.value? d) :
    o'.expected l = o.expected l := by
  have hvalues : l.dependencies.filterMap o'.value? = l.dependencies.filterMap o.value? :=
    List.filterMap_congr h
  rw [expected, hvalues, expected]

theorem value?_of_outline? (h : o.outline? k = some l) : o.value? k = l.compiled := by
  rw [value?, h]
  rfl

/-- Values of nodes whose dependencies keep their values go on to fit. -/
theorem Valued.of_values {j : String} {x : Json} (h : o.Valued) (hl : o.outline? j = some l)
    (hx : l.compiled = some x) (hsame : ∀ d ∈ l.dependencies, o'.value? d = o.value? d)
    (hdeps : ∀ d ∈ l.dependencies, (o'.value? d).isSome) : x = o'.expected l := by
  rw [expected_congr hsame]
  exact h j l x hl hx fun d hd => hsame d hd ▸ hdeps d hd

/-- A node may take its place without a value. -/
theorem Valued.drop (h : o.Valued) {l' : Option Outline} (hnone : l'.bind (·.compiled) = none) :
    (o.set k l').Valued := by
  intro j l x hl hx hdeps
  rw [outline?_set] at hl
  split at hl
  · rw [hl] at hnone
    rw [show l.compiled = none from hnone] at hx
    simp at hx
  · refine h.of_values hl hx (fun d hd => ?_) hdeps
    rw [value?_set]
    split
    · next hdk =>
      have hsome := hdeps d hd
      rw [value?_set, if_pos hdk, hnone] at hsome
      simp at hsome
    · rfl

/-- A value that is the expected one may arrive at a node that nobody uses. -/
theorem Valued.arrive {x : Json} (h : o.Valued) (hself : k ∉ l.dependencies)
    (hunused : o.Unused k)
    (hx : (∀ d ∈ l.dependencies, (o.value? d).isSome) → x = o.expected l) :
    (o.arrive k l x).Valued := by
  -- The arrival changes the value of no other node.
  have hother : ∀ ds : List String, k ∉ ds → ∀ d ∈ ds, (o.arrive k l x).value? d = o.value? d := by
    intro ds hk d hd
    show ((o.supersede k).set k _).value? d = o.value? d
    rw [value?_set, if_neg fun hdk : d = k => hk (hdk ▸ hd)]
    rfl
  intro j l' y hl' hy hdeps
  change (if j = k then some { l with compiled := some x } else o.outline? j) = some l' at hl'
  split at hl'
  · obtain rfl : { l with compiled := some x } = l' := by simpa using hl'
    obtain rfl : x = y := Option.some.inj hy
    have hsame := hother l.dependencies hself
    refine (hx fun d hd => ?_).trans (expected_congr hsame).symm
    rw [← hsame d hd]
    exact hdeps d hd
  · -- Nodes that depend on this one hold no value.
    have hk : k ∉ l'.dependencies := by
      intro hk
      have hnone := (hunused j l' hl' hk).2
      rw [hy] at hnone
      simp at hnone
    exact h.of_values hl' hy (hother l'.dependencies hk) hdeps

/-- A ready node is none of its own dependencies, if nobody who depends on it is ready. -/
theorem Unused.not_mem_self (h : o.Unused k) (hl : o.outline? k = some l)
    (hready : l.ready = true) : k ∉ l.dependencies := by
  intro hk
  have hnot := (h k l hl hk).1
  simp [hready] at hnot

/-- Every move keeps values fitting. -/
theorem kept_valued : Kept Valued := by
  intro o o' hmove h
  cases hmove with
  | advance ha =>
    cases ha with
    | learn hl hready hnone hk => exact h.drop hnone
    | request hmode hdue hl hready hnone hdeps hk => exact h
    | compile hmode hdue hl hready hnone hdeps hunused hk =>
      exact h.arrive (hunused.not_mem_self hl hready) hunused fun _ => rfl
  | lapse hl =>
    obtain ⟨hnone, hdue, hk⟩ := hl
    exact h.drop hnone
  | ask k => exact h
  | remove hvalue => exact h.drop rfl
  | reset hdue =>
    intro j l x hl hx hdeps
    obtain ⟨l', -, rfl⟩ := Option.map_eq_some_iff.1 hl
    simp at hx

end LayeredAccess.Outlook
