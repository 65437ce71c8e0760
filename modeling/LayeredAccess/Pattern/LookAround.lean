/-
  LayeredAccess.Pattern.LookAround

  Patterns that look ahead and behind, refer to what groups have matched, or
  take the first match of a part and no other. A search tries all ways to match,
  the preferred ones first; a way is known by the place where it ends and by
  what its groups have matched.
-/
import LayeredAccess.Pattern.Meaning

namespace LayeredAccess.Pattern

/-- A pattern that can look around. -/
inductive Seeker where
  | empty
  | char (rs : Text.Ranges)
  | place (p : Place)
  | seq (a b : Seeker)
  | choice (a b : Seeker)
  | count (s : Seeker) (least : Nat) (most : Option Nat) (lazy : Bool)
  | group (index : Nat) (s : Seeker)
  | look (ahead negated : Bool) (s : Seeker)
  /-- What a group has matched, with all case variants if so wished. -/
  | reference (index : Nat) (anyCase : Bool)
  /-- The first match only. -/
  | atomic (s : Seeker)
  deriving Inhabited, Repr

/-- How far a way to match has come: the place, and the ends of what groups have matched. -/
structure Way where
  place : Nat
  groups : List (Nat × Nat × Nat) := []
  deriving DecidableEq, Inhabited, Repr

namespace Way

/-- Remembers what a group has matched. -/
def remember (w : Way) (index start : Nat) : Way :=
  { w with groups := (index, start, w.place) :: w.groups.filter (·.1 ≠ index) }

/-- Ways without repetition. -/
def distinct (ws : List Way) : List Way := ws.eraseDups

end Way

namespace Seeker

/-- The ways after any number of rounds up to a bound; a round has to move on. -/
def rounds (step : Way → List Way) : Nat → List Way → List (List Way)
  | 0, ws => [ws]
  | n + 1, ws =>
    let next := Way.distinct (ws.flatMap fun w => (step w).filter fun v => v.place ≠ w.place)
    if next.isEmpty then [ws] else ws :: rounds step n next

/-- Does a character equal another, or is it a case variant? -/
def sameLetter (anyCase : Bool) (a b : Char) : Bool :=
  a = b || (anyCase && (Text.caseVariants a).contains b)

/-- The ways that go on from one through a text. -/
def ways (text : Array Char) : Seeker → Way → List Way
  | .empty, w => [w]
  | .char rs, w =>
    match text[w.place]? with
    | some c => if rs.contains c.toNat then [{ w with place := w.place + 1 }] else []
    | none => []
  | .place p, w =>
    let before := if w.place = 0 then none else text[w.place - 1]?
    if p.holds before text[w.place]? then [w] else []
  | .seq a b, w => Way.distinct ((ways text a w).flatMap (ways text b))
  | .choice a b, w => Way.distinct (ways text a w ++ ways text b w)
  | .count s least most lazy, w =>
    let first := (List.range (min least (text.size + 1))).foldl
      (fun ws _ => Way.distinct (ws.flatMap (ways text s))) [w]
    let bound := match most with
      | some n => min (n - least) text.size
      | none => text.size
    let found := rounds (ways text s) bound first
    (if lazy then found else found.reverse).flatten
  | .group index s, w => (ways text s w).map fun v => v.remember index w.place
  | .look ahead negated s, w =>
    let found :=
      if ahead then ways text s w
      else
        (List.range (w.place + 1)).flatMap fun start =>
          (ways text s { w with place := start }).filter fun v => v.place = w.place
    match negated, found with
    | false, v :: _ => [{ v with place := w.place }]
    | true, [] => [w]
    | _, _ => []
  | .reference index anyCase, w =>
    match w.groups.find? (·.1 = index) with
    | some (_, start, stop) =>
      let length := stop - start
      let same := (List.range length).all fun i =>
        match text[start + i]?, text[w.place + i]? with
        | some a, some b => sameLetter anyCase a b
        | _, _ => false
      if same then [{ w with place := w.place + length }] else []
    | none => []
  | .atomic s, w => (ways text s w).take 1

/-- Does some stretch of a text match? -/
def isMatch (s : Seeker) (text : String) : Bool :=
  let cs := text.toList.toArray
  (List.range (cs.size + 1)).any fun start => !(ways cs s ⟨start, []⟩).isEmpty

/-! ## From written patterns -/

/-- A text, character by character. -/
def ofLiteral (cs : List Char) : Seeker :=
  cs.foldr (fun c s => .seq (.char [(c.toNat, c.toNat)]) s) .empty

/-- The seeker for a pattern that is one character, or a text. -/
def ofPart : Pattern → Seeker
  | .literal cs => ofLiteral cs
  | .set rs => .char rs
  | .place p => .place p
  | _ => .empty

mutual

/-- What a written pattern means, and the flags for what follows it. -/
def ofWritten (s : Settings) : Written → Meant (Seeker × Settings)
  | .flags change => .ok (.empty, s.change change)
  | .reference index => .ok (.reference index s.anyCase, s)
  | .group kind w =>
    match kind with
    | .capture index => do
      let (p, _) ← ofWritten s w
      return (.group index p, s)
    | .plain flags => do
      let (p, _) ← ofWritten (s.change flags) w
      return (p, s)
    | .look ahead negated => do
      let (p, _) ← ofWritten s w
      return (.look ahead negated p, s)
    | .atomic => do
      let (p, _) ← ofWritten s w
      return (.atomic p, s)
  | .count w least most lazy => do
    let (p, _) ← ofWritten s w
    return (.count p least most (lazy != s.swapGreed), s)
  | .concat parts => ofParts s parts
  | .alternative choices => ofChoices s choices
  | w => do
    let (p, s) ← meaning s w
    return (ofPart p, s)

/-- What written patterns in a row mean. -/
def ofParts (s : Settings) : List Written → Meant (Seeker × Settings)
  | [] => .ok (.empty, s)
  | w :: rest => do
    let (a, s) ← ofWritten s w
    let (b, s) ← ofParts s rest
    return (.seq a b, s)

/-- What a choice between written patterns means. -/
def ofChoices (s : Settings) : List Written → Meant (Seeker × Settings)
  | [] => .ok (.char [], s)
  | [w] => ofWritten s w
  | w :: rest => do
    let (a, s) ← ofWritten s w
    let (b, s) ← ofChoices s rest
    return (.choice a b, s)

end

end Seeker

end LayeredAccess.Pattern
