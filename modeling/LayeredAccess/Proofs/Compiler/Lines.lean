/-
  LayeredAccess.Proofs.Compiler.Lines

  A compiler that reads requests from lines. What it writes are the replies to
  the requests among the lines, in their order. Every other line is inert: it
  writes nothing, and leaves nothing in the cache that a later job could see.

  What makes a line inert is stated by the line alone (`Inert`). Every other line
  holds a request, and `handleLines_eq` says by induction on the lines, for every
  compiler that the lines before may have left, that only the requests count.

  The format of the lines is left open. Where it reads back what it writes,
  envelopes on lines are answered as if they had not been written.
-/
import LayeredAccess.Compiler.Lines
import LayeredAccess.Proofs.Compiler.Relay
import Mathlib.Data.List.Forall2

namespace LayeredAccess.LineFormat

variable {format : LineFormat}

/-! ## Requests among lines -/

theorem envelope?_of_isBlank {line : String} (h : ∀ c ∈ line.toList, Text.isBlank c = true) :
    format.envelope? line = none := if_pos (List.all_eq_true.2 h)

/-- A line that a compiler passes over. -/
inductive Inert (format : LineFormat) (line : String) : Prop where
  | blank (h : ∀ c ∈ line.toList, Text.isBlank c = true)
  /-- It holds no envelope. -/
  | foreign (h : format.envelope? line = none)
  | reply {e : Envelope} (h : format.envelope? line = some e)
    (hevent : e.event = .compiled ∨ e.event = .compilationFailed ∨ e.event = .deleteCached)
  /-- It asks for a compilation, but its job can not be read. -/
  | job {data : Json} {error : DecodeError} (h : format.envelope? line = some ⟨.process, data⟩)
    (hdata : CompileJob.decode data = .error error)
  /-- It asks for an eviction, but its nodes can not be read. -/
  | eviction {data : Json} {error : DecodeError}
    (h : format.envelope? line = some ⟨.invalidate, data⟩)
    (hdata : InvalidateData.decode data = .error error)

/-- The request that a line holds. -/
def request? (format : LineFormat) (line : String) : Option Envelope :=
  (format.envelope? line).filter Envelope.isRequest

variable {line : String} {e : Envelope}

/-- An envelope that is no request is refused for one of three reasons. -/
theorem inert_of_not_isRequest (h : format.envelope? line = some e)
    (hrequest : e.isRequest = false) : Inert format line := by
  obtain ⟨event, data⟩ := e
  cases event with
  | process =>
    cases hdata : CompileJob.decode data with
    | error error => exact .job h hdata
    | ok job => simp [Envelope.isRequest, hdata, Except.isOk, Except.toBool] at hrequest
  | invalidate =>
    cases hdata : InvalidateData.decode data with
    | error error => exact .eviction h hdata
    | ok ids => simp [Envelope.isRequest, hdata, Except.isOk, Except.toBool] at hrequest
  | clearCache => simp [Envelope.isRequest] at hrequest
  | compiled => exact .reply h (.inl rfl)
  | compilationFailed => exact .reply h (.inr (.inl rfl))
  | deleteCached => exact .reply h (.inr (.inr rfl))

/-- The lines that are passed over are those that hold no request. -/
theorem inert_iff : Inert format line ↔ format.request? line = none := by
  -- By the form of the line; whatever is no request is passed over for one of the reasons listed.
  constructor
  · intro h
    cases h with
    | blank h => rw [request?, envelope?_of_isBlank h, Option.filter_none]
    | foreign h => rw [request?, h, Option.filter_none]
    | reply h hevent =>
      rw [request?, h]
      rcases hevent with hevent | hevent | hevent <;>
        simp [Option.filter, Envelope.isRequest, hevent]
    | job h hdata =>
      simp [request?, h, Option.filter, Envelope.isRequest, hdata, Except.isOk, Except.toBool]
    | eviction h hdata =>
      simp [request?, h, Option.filter, Envelope.isRequest, hdata, Except.isOk, Except.toBool]
  · intro h
    cases henvelope : format.envelope? line with
    | none => exact .foreign henvelope
    | some e =>
      apply inert_of_not_isRequest henvelope
      simpa [request?, henvelope, Option.filter] using h

instance : DecidablePred (Inert format) := fun line =>
  decidable_of_iff ((format.request? line).isNone = true)
    (by rw [Option.isNone_iff_eq_none, inert_iff])

theorem isRequest_of_request? (h : format.request? line = some e) :
    format.envelope? line = some e ∧ e.isRequest = true :=
  Option.filter_eq_some_iff.1 h

/-! ## One line, and all of them -/

/-- A line without a request has no effect. -/
theorem handleLine_of_none (h : format.request? line = none) (c : Compiler) :
    format.handleLine c line = (none, c) := by
  cases henvelope : format.envelope? line with
  | none => simp only [handleLine, henvelope]
  | some e =>
    have hrequest : e.isRequest = false := by simpa [request?, henvelope, Option.filter] using h
    obtain ⟨error, herror⟩ := Compiler.handle_of_not_isRequest hrequest c
    simp only [handleLine, henvelope, herror, Except.toOption, Option.join_none, Option.map_none]

/-- A line with an envelope does what the envelope does. -/
theorem handleLine_of_some (h : format.envelope? line = some e) (c : Compiler) :
    format.handleLine c line =
      ((c.handle e).1.toOption.join.map format.write, (c.handle e).2) := by
  simp only [handleLine, h]

/-- The lines that are written are the replies to the requests. -/
theorem handleLines_eq (c : Compiler) (lines : List String) :
    format.handleLines c lines =
      (c.handleAll (lines.filterMap format.request?)).1.filterMap (Option.map format.write) := by
  -- The compiler that the first line leaves is the one that the other lines find.
  induction lines generalizing c with
  | nil => rfl
  | cons line rest ih =>
    cases hrequest : format.request? line with
    | none =>
      rw [List.filterMap_cons_none hrequest, handleLines, handleLine_of_none hrequest]
      exact ih c
    | some e =>
      have hline := (isRequest_of_request? hrequest).1
      rw [List.filterMap_cons_some hrequest, handleLines, handleLine_of_some hline]
      simp only [Compiler.handleAll, ih]
      cases (c.handle e).1.toOption.join <;> rfl

/-- Of the requests, just those for a compilation and for an eviction have a reply. -/
theorem forall₂_handleAll {es : List Envelope} (h : ∀ e ∈ es, e.isRequest = true) (c : Compiler) :
    List.Forall₂
      (fun e reply => reply.isSome = true ↔ e.event = .process ∨ e.event = .invalidate)
      es (c.handleAll es).1 := by
  induction es generalizing c with
  | nil => exact .nil
  | cons e rest ih =>
    apply List.Forall₂.cons
    · exact Compiler.exists_reply_iff (h e List.mem_cons_self) c
    · exact ih (fun e' he' => h e' (List.mem_cons_of_mem _ he')) (c.handle e).2

/-- The lines that are not passed over. -/
def remaining (format : LineFormat) (lines : List String) : List String :=
  lines.filter fun line => ¬ Inert format line

/-- The envelopes of the lines that are not inert are the requests among the lines. -/
theorem filterMap_envelope?_remaining (lines : List String) :
    (format.remaining lines).filterMap format.envelope? = lines.filterMap format.request? := by
  rw [remaining, List.filterMap_filter]
  apply List.filterMap_congr
  intro line _
  cases hrequest : format.request? line with
  | none => simp [inert_iff, hrequest]
  | some e => simp [inert_iff, hrequest, (isRequest_of_request? hrequest).1]

theorem isRequest_of_mem_filterMap {lines : List String} (h : e ∈ lines.filterMap format.request?) :
    e.isRequest = true := by
  obtain ⟨line, -, hline⟩ := List.mem_filterMap.1 h
  exact (isRequest_of_request? hline).2

/-- A line from which an envelope is read back does what the envelope does. -/
theorem handleLines_map_write {es : List Envelope}
    (h : ∀ e ∈ es, format.envelope? (format.write e) = some e) (c : Compiler) :
    format.handleLines c (es.map format.write) =
      (c.handleAll es).1.filterMap (Option.map format.write) := by
  induction es generalizing c with
  | nil => rfl
  | cons e rest ih =>
    rw [List.map_cons, handleLines, handleLine_of_some (h e List.mem_cons_self)]
    simp only [Compiler.handleAll, ih fun e' he' => h e' (List.mem_cons_of_mem _ he')]
    cases (c.handle e).1.toOption.join <;> rfl

/-- What a compiler writes that reads requests from lines. -/
structure AnswersLines (format : LineFormat) (c : Compiler) : Prop where
  /-- A line is inert if its envelope is refused, and only then. -/
  refused : ∀ (line : String) (e : Envelope), format.envelope? line = some e →
    (Inert format line ↔ ∃ error, c.handle e = (.error error, c))
  /-- An inert line writes nothing and has no effect. -/
  inert : ∀ line : String, Inert format line → format.handleLine c line = (none, c)
  /-- The lines that are written are the replies of a compiler that is asked for the envelopes of
  the other lines in turn. -/
  output : ∀ lines : List String, format.handleLines c lines =
    (c.handleAll ((format.remaining lines).filterMap format.envelope?)).1.filterMap
      (Option.map format.write)
  /-- One after the other, a request for a compilation or an eviction has a reply, and a request
  for a clear has none. -/
  replies : ∀ lines : List String,
    let requests := (format.remaining lines).filterMap format.envelope?
    List.Forall₂
      (fun e reply => reply.isSome = true ↔ e.event = .process ∨ e.event = .invalidate)
      requests (c.handleAll requests).1
  /-- Lines that differ in inert lines only have the same replies. -/
  congr : ∀ lines lines' : List String,
    format.remaining lines = format.remaining lines' →
      format.handleLines c lines = format.handleLines c lines'
  /-- Envelopes that are read back from their lines have the replies that they have when they are
  not written. -/
  written : ∀ es : List Envelope, (∀ e ∈ es, format.envelope? (format.write e) = some e) →
    format.handleLines c (es.map format.write) =
      (c.handleAll es).1.filterMap (Option.map format.write)

/-- Whatever a compiler has in its cache, the lines that hold no request leave no trace. -/
theorem answersLines (format : LineFormat) (c : Compiler) : AnswersLines format c where
  refused line e h := by
    rw [inert_iff]
    constructor
    · intro hrequest
      apply Compiler.handle_of_not_isRequest
      simpa [request?, h, Option.filter] using hrequest
    · rintro ⟨error, herror⟩
      have hrequest : e.isRequest = false := by
        rw [← Compiler.isOk_handle c e, herror]
        rfl
      simp [request?, h, Option.filter, hrequest]
  inert line h := handleLine_of_none (inert_iff.1 h) c
  output lines := by rw [filterMap_envelope?_remaining, handleLines_eq]
  replies lines := by
    rw [filterMap_envelope?_remaining]
    exact forall₂_handleAll (fun e he => isRequest_of_mem_filterMap he) c
  congr lines lines' h := by
    -- Either side depends on the requests alone.
    rw [handleLines_eq, handleLines_eq, ← filterMap_envelope?_remaining, h,
      filterMap_envelope?_remaining]
  written es h := handleLines_map_write h c

/-- JSON reads back a request that it writes. -/
example :
    let data : Json := .obj [("dependencies", .arr [.str "base"]), ("generation", .int 7),
      ("id", .str "node \"x\""), ("layers", .arr [.obj [("ratio", .double 0.5)]])]
    (json.envelope? (json.write ⟨.process, data⟩)).map (fun e => (e.event, e.data == data)) =
      some (.process, true) := by
  decide +kernel

end LayeredAccess.LineFormat
