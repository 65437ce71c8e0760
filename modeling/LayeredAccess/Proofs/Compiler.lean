/-
  LayeredAccess.Proofs.Compiler

  What the commands of a compiler do to its cache, entry by entry, and what
  comes of them when they are sent as messages: a compiler that is asked by
  messages does what the command says, and its replies say how a job ended.

  Generations are words of 64 bits on the wire. A job with a greater one is
  refused.
-/
import LayeredAccess.Compiler.Client
import LayeredAccess.Compiler.Service
import LayeredAccess.Proofs.Decode
import Mathlib.Data.List.Basic

namespace LayeredAccess

/-! ## Commands -/

namespace Compiler

/-- Evicting drops the values of the named nodes and leaves the others alone. -/
theorem get?_evict (c : Compiler) (ids : List String) (k : String) :
    (c.evict ids).2.get? k = if k ∈ ids then none else c.get? k := by
  -- Evicting goes through the names, and drops one after the other.
  let drop := fun (e : Nat × KeyMap String Json) (id : String) =>
    if KeyMap.contains e.2 id then (e.1 + 1, KeyMap.erase e.2 id) else e
  have hdrop : ∀ e id, KeyMap.find? (drop e id).2 k =
      if k = id then none else KeyMap.find? e.2 k := by
    intro e id
    simp only [drop]
    split
    · simp only [KeyMap.find?_erase, eq_comm]
    · next hc =>
      split
      · next hk => simpa [KeyMap.contains, hk] using hc
      · rfl
  have hfold : ∀ e, KeyMap.find? (ids.foldl drop e).2 k =
      if k ∈ ids then none else KeyMap.find? e.2 k := by
    induction ids with
    | nil => simp
    | cons id rest ih =>
      intro e
      rw [List.foldl_cons, ih, hdrop]
      by_cases hk : k = id <;> simp [hk]
  exact hfold (0, c.cache)

/-- A job whose dependencies have values gives its merged value. -/
theorem compile_ok {c : Compiler} {job : CompileJob}
    (h : ∀ d ∈ job.dependencies, (c.get? d).isSome) :
    ∃ c', c.compile job = (.ok (c.merged job), c') ∧
      ∀ k, c'.get? k = if k = job.id then some (c.merged job) else c.get? k := by
  refine ⟨_, compile_of_missing_nil ((missing_eq_nil_iff c job).2 h), fun k => ?_⟩
  show (c.publish job.id (c.merged job)).get? k = _
  simp only [get?_publish, eq_comm]

/-- A job leaves the values of other nodes alone, however it ends. -/
theorem get?_compile (c : Compiler) (job : CompileJob) {k : String} (hk : k ≠ job.id) :
    (c.compile job).2.get? k = c.get? k := by
  unfold compile
  split
  · show (c.publish job.id (c.merged job)).get? k = _
    rw [get?_publish, if_neg (Ne.symm hk)]
  · rfl

/-- Compilers that have the same values for the dependencies of a job compile it alike. -/
theorem compile_congr {c c' : Compiler} {job : CompileJob}
    (h : ∀ d ∈ job.dependencies, c.get? d = c'.get? d) :
    (c.compile job).1 = (c'.compile job).1 ∧
      ∀ k, c.get? k = c'.get? k → (c.compile job).2.get? k = (c'.compile job).2.get? k := by
  have hmissing : c.missing job = c'.missing job :=
    List.filter_congr fun d hd => by rw [contains, contains, h d hd]
  have hmerged : c.merged job = c'.merged job := by
    rw [merged, merged, List.filterMap_congr h]
  cases hnone : c'.missing job with
  | nil =>
    rw [compile_of_missing_nil hnone, compile_of_missing_nil (hmissing.trans hnone), hmerged]
    refine ⟨rfl, fun k hk => ?_⟩
    show (c.publish job.id _).get? k = (c'.publish job.id _).get? k
    rw [get?_publish, get?_publish, hk]
  | cons d ds =>
    simp only [compile, hmissing, hnone]
    exact ⟨trivial, fun _ hk => hk⟩

end Compiler

/-! ## Data of messages -/

theorem CompileJob.encode_eq (j : CompileJob) : j.encode = .obj
    [("dependencies", .ofStrings j.dependencies), ("generation", .int j.generation),
     ("id", .str j.id), ("layers", .arr j.layers)] := by
  simp only [encode, Encode.record, Encode.always, id_eq, Option.some.injEq,
    List.filterMap_cons_some, List.filterMap_nil, Json.mkObj, KeyMap.ofList,
    List.foldl_cons, List.foldl_nil, KeyMap.insert, String.reduceEq, String.reduceLT, ↓reduceIte]

open Decode

theorem CompileJob.decode_encode {j : CompileJob} (h : j.generation < wordLimit) :
    CompileJob.decode j.encode = .ok j := by
  have hid : text (.str j.id) = .ok j.id := rfl
  rw [encode_eq]
  refine Reads.readMembers_eq (.cons rfl (read_defaulted (texts_ofStrings _)) ?_) rfl
  refine .cons rfl (read_defaulted (word64_of_lt h)) ?_
  exact .cons rfl (read_required hid) (.cons rfl (read_defaulted (list_any _)) .nil)

theorem CompileJob.decode_encode_error {j : CompileJob} (h : wordLimit ≤ j.generation) :
    CompileJob.decode j.encode = .error (.outOfRange j.generation "u64") := by
  have hreads : Reads fields [("dependencies", .ofStrings j.dependencies)] { id := "" }
      { id := "", dependencies := j.dependencies } :=
    .cons rfl (read_defaulted (texts_ofStrings _)) .nil
  rw [encode_eq]
  exact hreads.readMembers_error rfl (read_defaulted_error (word64_of_le h)) _

theorem CompiledData.decode_encode {d : CompiledData} (h : d.generation < wordLimit) :
    CompiledData.decode d.encode = .ok d := by
  have hid : text (.str d.id) = .ok d.id := rfl
  have hvalue : any d.value = .ok d.value := rfl
  have hencode : d.encode =
      .obj [("generation", .int d.generation), ("id", .str d.id), ("value", d.value)] := by
    simp only [encode, Encode.record, Encode.always, id_eq, Option.some.injEq,
      List.filterMap_cons_some, List.filterMap_nil, Json.mkObj, KeyMap.ofList,
      List.foldl_cons, List.foldl_nil, KeyMap.insert, String.reduceEq, String.reduceLT, ↓reduceIte]
  rw [hencode]
  refine Reads.readMembers_eq (.cons rfl (read_required (word64_of_lt h)) ?_) rfl
  exact .cons rfl (read_required hid) (.cons rfl (read_required hvalue) .nil)

theorem FailedData.decode_encode {d : FailedData} (h : d.generation < wordLimit) :
    FailedData.decode d.encode = .ok d := by
  have hid : text (.str d.id) = .ok d.id := rfl
  have hencode : d.encode =
      .obj [("generation", .int d.generation), ("id", .str d.id),
        ("missing", .ofStrings d.missing)] := by
    simp only [encode, Encode.record, Encode.always, id_eq, Option.some.injEq,
      List.filterMap_cons_some, List.filterMap_nil, Json.mkObj, KeyMap.ofList,
      List.foldl_cons, List.foldl_nil, KeyMap.insert, String.reduceEq, String.reduceLT, ↓reduceIte]
  rw [hencode]
  refine Reads.readMembers_eq (.cons rfl (read_required (word64_of_lt h)) ?_) rfl
  exact .cons rfl (read_required hid) (.cons rfl (read_required (texts_ofStrings _)) .nil)

theorem InvalidateData.decode_encode (d : InvalidateData) :
    InvalidateData.decode d.encode = .ok d := by
  have hencode : d.encode = .obj [("ids", .ofStrings d.ids)] := rfl
  rw [hencode]
  exact Reads.readMembers_eq (.cons rfl (read_required (texts_ofStrings _)) .nil) rfl

/-! ## Messages -/

/-- How a job ends that gives a value, or lacks dependencies. -/
def CompileOutcome.ofResult (generation : Nat) : Except (List String) Json → CompileOutcome
  | .ok value => .compiled generation value
  | .error missing => .failed generation missing

@[simp] theorem CompileOutcome.generation_ofResult (generation : Nat)
    (result : Except (List String) Json) :
    (ofResult generation result).generation = generation := by
  cases result <;> rfl

namespace Compiler

/-- A reply says how a job of 64 bits ended. -/
theorem outcome?_reply {job : CompileJob} (h : job.generation < wordLimit)
    (result : Except (List String) Json) :
    Client.outcome? (reply job result) =
      some ((job.id, job.generation), .ofResult job.generation result) := by
  cases result with
  | ok value =>
    let d : CompiledData := ⟨job.id, job.generation, value⟩
    have hdata : CompiledData.decode d.encode = .ok d := CompiledData.decode_encode h
    show (CompiledData.decode d.encode).toOption.map _ = _
    rw [hdata]
    rfl
  | error missing =>
    let d : FailedData := ⟨job.id, job.generation, missing⟩
    have hdata : FailedData.decode d.encode = .ok d := FailedData.decode_encode h
    show (FailedData.decode d.encode).toOption.map _ = _
    rw [hdata]
    rfl

/-- A reply to a job, with the node that it is about. -/
def answer? (e : Envelope) : Option (String × CompileOutcome) :=
  (Client.outcome? e).map fun a => (a.1.1, a.2)

theorem handle_compile {job : CompileJob} (h : job.generation < wordLimit) (c : Compiler) :
    c.handle (CompilerCommand.compile job).toEnvelope =
      (.ok (some (reply job (c.compile job).1)), (c.compile job).2) := by
  simp only [handle, CompilerCommand.toEnvelope, CompileJob.decode_encode h]

/-- A job whose generation is no word of 64 bits has no effect. -/
theorem handle_compile_error {job : CompileJob} (h : wordLimit ≤ job.generation) (c : Compiler) :
    ∃ e, c.handle (CompilerCommand.compile job).toEnvelope = (.error e, c) := by
  refine ⟨.ofDecode (.outOfRange job.generation "u64"), ?_⟩
  simp only [handle, CompilerCommand.toEnvelope, CompileJob.decode_encode_error h]

theorem handle_evict (ids : List String) (c : Compiler) :
    c.handle (CompilerCommand.evict ids).toEnvelope =
      (.ok (some ⟨.deleteCached, InvalidateData.encode ⟨ids⟩⟩), (c.evict ids).2) := by
  simp only [handle, CompilerCommand.toEnvelope, InvalidateData.decode_encode]

/-! ## Replies -/

namespace Client

variable {c : Client} {message : Envelope}

theorem receive_of_none (h : outcome? message = none) : c.receive message = (c, {}) := by
  simp only [receive, h, ite_self]

/-- The asking side tells just those who wait for a job how it has ended. -/
theorem receive_of_some {key : RequestKey} {outcome : CompileOutcome} (hopen : c.repliesOpen = true)
    (h : outcome? message = some (key, outcome)) :
    c.receive message = ({ c with pending := KeyMap.erase c.pending key },
      { done := ((KeyMap.find? c.pending key).getD []).map fun w => (w, .ok outcome) }) := by
  simp only [receive, hopen, if_true, h]

end Client

/-! ## Several jobs -/

/-- Compiles jobs one after the other: their answers, and the compiler afterwards. -/
def answerAll (c : Compiler) : List CompileJob → List (String × CompileOutcome) × Compiler
  | [] => ([], c)
  | job :: rest =>
    let (result, c) := c.compile job
    let (answers, c) := answerAll c rest
    ((job.id, .ofResult job.generation result) :: answers, c)

/-- Jobs are answered in order, each by its generation. -/
theorem map_answerAll (jobs : List CompileJob) : ∀ c : Compiler,
    (c.answerAll jobs).1.map (fun a => (a.1, a.2.generation)) =
      jobs.map fun job => (job.id, job.generation) := by
  induction jobs with
  | nil => exact fun _ => rfl
  | cons job rest ih =>
    intro c
    rw [answerAll, List.map_cons, List.map_cons, ih, CompileOutcome.generation_ofResult]

theorem exists_of_mem_answerAll {c : Compiler} {jobs : List CompileJob}
    {a : String × CompileOutcome} (ha : a ∈ (c.answerAll jobs).1) :
    ∃ job ∈ jobs, job.id = a.1 ∧ job.generation = a.2.generation := by
  have hin : (a.1, a.2.generation) ∈ jobs.map fun job => (job.id, job.generation) :=
    map_answerAll jobs c ▸ List.mem_map_of_mem ha
  obtain ⟨job, hjob, he⟩ := List.mem_map.1 hin
  exact ⟨job, hjob, Prod.mk.inj he⟩

end Compiler

end LayeredAccess
