/-
  LayeredAccess.Proofs.Registry.Ledger

  A registry whose jobs are compiled elsewhere, with a ledger of what becomes
  of them: that a job is issued, that an answer to it is taken in for a node,
  that a node is removed.

  An answer may come late, twice, or for a node that the job was not about. By
  the ledger it is due exactly if it answers the last job of its node, the node
  has not been removed since, and the job has not been answered before
  (`Outstanding`). The registry keeps no ledger, only the generation of the last
  request for each node; yet it takes in just the answers that are due, and any
  other leaves it as it is.

  None of this depends on what nodes do, or on the state in which they are
  entered.
-/
import LayeredAccess.Proofs.Registry.CallSteps
import LayeredAccess.Proofs.Registry.Jobs
import LayeredAccess.Proofs.Registry.Steps

namespace LayeredAccess

/-! ## Entries -/

namespace Ledger

/-- Something that becomes of the jobs of a registry. -/
inductive Entry where
  | issued (job : CompileJob)
  /-- An answer to a job is taken in for a node. -/
  | accepted (key : String) (job : CompileJob)
  /-- A node is removed, and with it its generation. -/
  | removed (key : String)

/-- The job that an entry is about. -/
def Entry.job? : Entry → Option CompileJob
  | issued job | accepted _ job => some job
  | removed _ => none

/-- The job whose answer is due for a node: it is the last one of the node, the node has not been
removed since, and no answer to the job has been taken in. -/
structure Outstanding (entries : List Entry) (key : String) (job : CompileJob) : Prop where
  id_eq : job.id = key
  latest : ∃ before after, entries = before ++ .issued job :: after ∧
    (∀ later, .issued later ∈ after → later.id ≠ key) ∧ .removed key ∉ after
  unanswered : ∀ k, .accepted k job ∉ entries

/-- What an entry does to the jobs that are awaited, by node. -/
def Entry.revise (awaited : String → Option CompileJob) : Entry → String → Option CompileJob
  | issued job, k => if k = job.id then some job else awaited k
  | accepted key _, k | removed key, k => if k = key then none else awaited k

/-- The job that is awaited for each node, found by going through the entries once. -/
def awaited (entries : List Entry) : String → Option CompileJob :=
  entries.foldl Entry.revise fun _ => none

@[simp] theorem awaited_concat (entries : List Entry) (e : Entry) :
    awaited (entries ++ [e]) = e.revise (awaited entries) := by
  rw [awaited, List.foldl_append]
  rfl

/-- The ledgers that a registry gives rise to: every job has a generation of its own, greater than
those before, and an answer is only taken in while it is awaited. -/
inductive Regular : List Entry → Prop
  | nil : Regular []
  | issued {entries : List Entry} {job : CompileJob} : Regular entries →
      (∀ e ∈ entries, ∀ j, e.job? = some j → j.generation < job.generation) →
      Regular (entries ++ [.issued job])
  | accepted {entries : List Entry} {key : String} {job : CompileJob} : Regular entries →
      awaited entries key = some job → Regular (entries ++ [.accepted key job])
  | removed {entries : List Entry} {key : String} : Regular entries →
      Regular (entries ++ [.removed key])

variable {entries : List Entry} {e : Entry} {key : String} {job : CompileJob}

/-- An entry after which a job is outstanding is either the issue of the job, or it is about
something else. -/
theorem Outstanding.of_concat (h : Outstanding (entries ++ [e]) key job) :
    e = .issued job ∨ Outstanding entries key job ∧ e ≠ .removed key ∧
      ∀ later, e = .issued later → later.id ≠ key := by
  obtain ⟨before, after, heq, hlater, hremoved⟩ := h.latest
  rcases List.eq_nil_or_concat after with rfl | ⟨after', last, rfl⟩
  · exact .inl (List.append_inj' heq rfl |>.2 |> List.singleton_inj.1)
  · rw [List.concat_eq_append] at heq hlater hremoved
    rw [← List.cons_append, ← List.append_assoc] at heq
    obtain ⟨hentries, hlast⟩ := List.append_inj' heq rfl
    obtain rfl := List.singleton_inj.1 hlast
    simp only [List.mem_append, List.mem_singleton, not_or] at hlater hremoved
    refine .inr ⟨⟨h.id_eq, ⟨before, after', hentries, fun l hl => hlater l (.inl hl), hremoved.1⟩,
      fun k hk => h.unanswered k (List.mem_append_left _ hk)⟩, Ne.symm hremoved.2,
      fun l hl => hlater l (.inr hl.symm)⟩

/-- A job stays outstanding after entries that are about something else. -/
theorem Outstanding.concat (h : Outstanding entries key job)
    (hissued : ∀ later, e = .issued later → later.id ≠ key) (hremoved : e ≠ .removed key)
    (haccepted : ∀ k, e ≠ .accepted k job) : Outstanding (entries ++ [e]) key job := by
  obtain ⟨before, after, heq, hlater, hnot⟩ := h.latest
  refine ⟨h.id_eq, ⟨before, after ++ [e], ?_, fun l hl => ?_, fun hr => ?_⟩, fun k hk => ?_⟩
  · rw [heq, List.append_assoc, List.cons_append]
  · rcases List.mem_append.1 hl with hl | hl
    · exact hlater l hl
    · exact hissued l (List.mem_singleton.1 hl).symm
  · rcases List.mem_append.1 hr with hr | hr
    · exact hnot hr
    · exact hremoved (List.mem_singleton.1 hr).symm
  · rcases List.mem_append.1 hk with hk | hk
    · exact h.unanswered k hk
    · exact haccepted k (List.mem_singleton.1 hk).symm

/-- A job that is awaited has been issued. -/
theorem issued_of_awaited (h : awaited entries key = some job) :
    .issued job ∈ entries ∧ job.id = key := by
  -- Going by the last entry, which is the one that can have made the node await the job.
  induction entries using List.reverseRecOn with
  | nil => simp [awaited] at h
  | append_singleton entries e ih =>
    have hold : awaited entries key = some job → .issued job ∈ entries ++ [e] ∧ job.id = key :=
      fun h => ⟨List.mem_append_left _ (ih h).1, (ih h).2⟩
    rw [awaited_concat] at h
    cases e with
    | issued j =>
      simp only [Entry.revise] at h
      split at h
      · next hk =>
        obtain rfl := Option.some.inj h
        exact ⟨List.mem_append_right _ (List.mem_singleton_self _), hk.symm⟩
      · exact hold h
    | accepted k j | removed k =>
      simp only [Entry.revise] at h
      split at h
      · simp at h
      · exact hold h

/-- A new job is outstanding for its node in place of any other. -/
theorem outstanding_issued_iff {new : CompileJob} (hnew : ∀ k, .accepted k new ∉ entries) :
    Outstanding (entries ++ [.issued new]) key job ↔
      if key = new.id then new = job else Outstanding entries key job := by
  split
  -- For the node of the job the new entry comes last.
  · next hk =>
    constructor
    · intro ho
      rcases ho.of_concat with heq | ⟨-, -, hother⟩
      · exact Entry.issued.inj heq
      · exact absurd hk.symm (hother new rfl)
    · rintro rfl
      refine ⟨hk.symm, ⟨entries, [], rfl, by simp, List.not_mem_nil⟩, fun k hin => ?_⟩
      rcases List.mem_append.1 hin with hin | hin
      · exact hnew k hin
      · simp at hin
  · next hk =>
    constructor
    · intro ho
      rcases ho.of_concat with heq | ⟨hold, -⟩
      · exact absurd (Entry.issued.inj heq ▸ ho.id_eq).symm hk
      · exact hold
    · intro ho
      refine ho.concat ?_ (by simp) (by simp)
      rintro later heq rfl
      exact hk (congrArg CompileJob.id (Entry.issued.inj heq)).symm

/-- Once the job of a node has been answered, none is outstanding for the node. -/
theorem outstanding_accepted_iff {k : String} {answered : CompileJob} (hid : answered.id = k)
    (hlast : ∀ job, Outstanding entries k job → answered = job) :
    Outstanding (entries ++ [.accepted k answered]) key job ↔
      key ≠ k ∧ Outstanding entries key job := by
  constructor
  · intro ho
    obtain ⟨hold, -⟩ := ho.of_concat.resolve_left (by simp)
    refine ⟨?_, hold⟩
    rintro rfl
    obtain rfl := hlast job hold
    exact absurd (List.mem_append_right _ (List.mem_singleton_self _)) (ho.unanswered key)
  · rintro ⟨hk, ho⟩
    refine ho.concat (by simp) (by simp) ?_
    rintro k' heq
    obtain ⟨-, rfl⟩ := Entry.accepted.inj heq
    exact hk (ho.id_eq.symm.trans hid)

/-- Nothing is outstanding for a node that has been removed. -/
theorem outstanding_removed_iff {k : String} :
    Outstanding (entries ++ [.removed k]) key job ↔ key ≠ k ∧ Outstanding entries key job := by
  constructor
  · intro ho
    obtain ⟨hold, hnot, -⟩ := ho.of_concat.resolve_left (by simp)
    exact ⟨fun hk => hnot (hk ▸ rfl), hold⟩
  · rintro ⟨hk, ho⟩
    exact ho.concat (by simp) (fun heq => hk (Entry.removed.inj heq).symm) (by simp)

/-- In a regular ledger the jobs that are awaited are those whose answers are due. -/
theorem Regular.awaited_eq_some_iff (h : Regular entries) :
    awaited entries key = some job ↔ Outstanding entries key job := by
  -- Each entry changes what is awaited for one node; for the others both sides stay as they are.
  induction h generalizing key job with
  | nil =>
    refine ⟨fun ha => by simp [awaited] at ha, fun ho => ?_⟩
    obtain ⟨before, after, heq, -⟩ := ho.latest
    simp at heq
  | @issued entries new h hnew ih =>
    have hfresh : ∀ k, .accepted k new ∉ entries :=
      fun k hin => Nat.lt_irrefl _ (hnew _ hin new rfl)
    rw [awaited_concat, outstanding_issued_iff hfresh, Entry.revise]
    split
    · exact Option.some_inj
    · exact ih
  | @accepted entries k answered h hawaited ih =>
    -- Only the job that was awaited can have been outstanding.
    have hlast : ∀ job, Outstanding entries k job → answered = job :=
      fun job ho => Option.some.inj (hawaited.symm.trans (ih.2 ho))
    rw [awaited_concat, outstanding_accepted_iff (issued_of_awaited hawaited).2 hlast, Entry.revise,
      ← ih]
    split <;> simp [*]
  | @removed entries k h ih =>
    rw [awaited_concat, outstanding_removed_iff, Entry.revise, ← ih]
    split <;> simp [*]

end Ledger

/-! ## What is entered -/

namespace Registry

open Ledger (Entry Regular awaited)

variable {ν : Type} [Node ν] {r r' : Registry ν} {entries : List Entry} {key : String}
  {job : CompileJob}

/-- The job that is issued by doing a task, if it is done in this registry: the one that is new in
the outbox afterwards (`issues?_cases`). -/
def issues? (r : Registry ν) : Task → Option CompileJob
  | .perform key .compile => (r.get? key).bind fun n =>
    if (Node.dependencies n).all r.isDependable then some (r.nextJob key n) else none
  | _ => none

/-- What a call adds to the ledger once it has begun: the jobs that are issued in its course, and
the removal of its node if it ends with that. -/
def entriesOf (r : Registry ν) (c : Call ν) : List Entry :=
  ((r.course c).filterMap fun m => (m.1.issues? m.2).map .issued) ++
    match c with
    | .delete key => if (r.delete key).1.isOk then [.removed key] else []
    | _ => []

/-- The registry and the ledger agree: generations are given out in ascending order, and the last
one of a node is that of a job exactly if the job is awaited. -/
structure Recorded (entries : List Entry) (r : Registry ν) : Prop where
  mode_eq : r.config.compileMode = .deferred
  regular : Regular entries
  le_generation : ∀ e ∈ entries, ∀ j, e.job? = some j → j.generation ≤ r.generation
  generations_le : ∀ k g, KeyMap.find? r.generations k = some g → g ≤ r.generation
  current_iff : ∀ k job, .issued job ∈ entries →
    (KeyMap.find? r.generations k = some job.generation ↔ awaited entries k = some job)
  issued_of_outbox : ∀ job, .compile job ∈ r.outbox → .issued job ∈ entries

/-- Between two moments no generation has been given, and no job queued. -/
structure Unissued (r r' : Registry ν) : Prop where
  config_eq : r'.config = r.config
  generation_eq : r'.generation = r.generation
  generations_eq : r'.generations = r.generations
  mem_outbox : ∀ job, .compile job ∈ r'.outbox → .compile job ∈ r.outbox

omit [Node ν] in
theorem Unissued.refl (r : Registry ν) : Unissued r r := ⟨rfl, rfl, rfl, fun _ hj => hj⟩

omit [Node ν] in
theorem Unissued.trans {mid : Registry ν} (h : Unissued r mid) (h' : Unissued mid r') :
    Unissued r r' :=
  ⟨h'.config_eq.trans h.config_eq, h'.generation_eq.trans h.generation_eq,
    h'.generations_eq.trans h.generations_eq, fun j hj => h.mem_outbox j (h'.mem_outbox j hj)⟩

omit [Node ν] in
theorem unissued_publish (r : Registry ν) (a : Action) : Unissued r (r.publish a) :=
  ⟨rfl, rfl, rfl, fun _ hj => hj⟩

theorem unissued_publishSignal (r : Registry ν) (key : String) (s : Signal) (wide : Bool) :
    Unissued r (r.publishSignal key s wide) := by
  obtain ⟨published, hpublished⟩ := silent_publishSignal r key s wide
  rw [hpublished]
  exact ⟨rfl, rfl, rfl, fun _ hj => hj⟩

omit [Node ν] in
theorem unissued_evict (r : Registry ν) (key : String) : Unissued r (r.evict key) := by
  refine ⟨rfl, rfl, rfl, fun job hjob => ?_⟩
  change _ ∈ (if r.isDeferred then r.outbox ++ [.evict [key]] else r.outbox) at hjob
  split at hjob
  · simpa using hjob
  · exact hjob

theorem unissued_reshape (r : Registry ν) (key : String) (before after : ν) :
    Unissued r (r.reshape key before after) := by
  unfold reshape
  split
  · exact ⟨rfl, rfl, rfl, (unissued_evict (r.setNode key after) key).mem_outbox⟩
  · exact ⟨rfl, rfl, rfl, fun _ hj => hj⟩

omit [Node ν] in
/-- What issues no job leaves the ledger alone. -/
theorem Recorded.of_unissued (h : Recorded entries r) (hu : Unissued r r') :
    Recorded entries r' := by
  refine ⟨hu.config_eq ▸ h.mode_eq, h.regular, ?_, ?_, ?_,
    fun j hj => h.issued_of_outbox j (hu.mem_outbox j hj)⟩
  · rw [hu.generation_eq]
    exact h.le_generation
  · rw [hu.generation_eq, hu.generations_eq]
    exact h.generations_le
  · rw [hu.generations_eq]
    exact h.current_iff

theorem find?_generations_issue (r : Registry ν) (key : String) (n : ν) (k : String) :
    KeyMap.find? ((r.bumpGeneration key).2.queueJob (r.nextJob key n)).generations k =
      if key = k then some (r.generation + 1) else KeyMap.find? r.generations k :=
  KeyMap.find?_insert _ _ _ _

omit [Node ν] in
theorem Recorded.generation_le_of_issued (h : Recorded entries r) (hj : .issued job ∈ entries) :
    job.generation ≤ r.generation :=
  h.le_generation _ hj job rfl

/-- The new job is the one that is awaited for its node. -/
theorem Recorded.current_issue (h : Recorded entries r) (key : String) (n : ν) {k : String}
    (hj : .issued job ∈ entries ++ [.issued (r.nextJob key n)]) :
    KeyMap.find? ((r.bumpGeneration key).2.queueJob (r.nextJob key n)).generations k =
        some job.generation ↔
      awaited (entries ++ [.issued (r.nextJob key n)]) k = some job := by
  rw [find?_generations_issue, Ledger.awaited_concat]
  simp only [Entry.revise, nextJob, eq_comm (a := k)]
  rcases List.mem_append.1 hj with hold | hnew
  -- The generation of an earlier job is not the new one, and the job is another.
  · have hle := h.generation_le_of_issued hold
    split
    · refine iff_of_false (fun hg => ?_) fun heq => ?_
      · have := Option.some.inj hg
        omega
      · have : r.generation + 1 = job.generation :=
          congrArg CompileJob.generation (Option.some.inj heq)
        omega
    · exact h.current_iff k job hold
  -- No other node has got the generation of the new job.
  · obtain rfl := Entry.issued.inj (List.mem_singleton.1 hnew)
    split
    · simp [nextJob]
    · refine iff_of_false (fun hg => ?_) fun ha => ?_
      · have : r.generation + 1 ≤ r.generation := h.generations_le k _ hg
        omega
      · have : r.generation + 1 ≤ r.generation :=
          h.generation_le_of_issued (Ledger.issued_of_awaited ha).1
        omega

/-- A job gets the next generation, so that no other job of the node is awaited any more. -/
theorem Recorded.issue (h : Recorded entries r) (key : String) (n : ν) :
    Recorded (entries ++ [.issued (r.nextJob key n)])
      ((r.bumpGeneration key).2.queueJob (r.nextJob key n)) := by
  have hregular : Regular (entries ++ [.issued (r.nextJob key n)]) :=
    h.regular.issued fun e he j hj => Nat.lt_succ_of_le (h.le_generation e he j hj)
  -- The new generation is above all that have been entered.
  refine ⟨h.mode_eq, hregular, fun e he j hj => ?_, fun k g hg => ?_,
    fun k j hj => h.current_issue key n hj, fun j hj => ?_⟩
  · show j.generation ≤ r.generation + 1
    rcases List.mem_append.1 he with he | he
    · exact Nat.le_succ_of_le (h.le_generation e he j hj)
    · obtain rfl := List.mem_singleton.1 he
      obtain rfl : r.nextJob key n = j := Option.some.inj hj
      exact Nat.le_refl _
  · show g ≤ r.generation + 1
    rw [find?_generations_issue] at hg
    split at hg
    · exact Nat.le_of_eq (Option.some.inj hg).symm
    · exact Nat.le_succ_of_le (h.generations_le k g hg)
  · rcases List.mem_append.1 hj with hj | hj
    · exact List.mem_append_left _ (h.issued_of_outbox j (List.mem_filter.1 hj).1)
    · obtain rfl := CompilerCommand.compile.inj (List.mem_singleton.1 hj)
      exact List.mem_append_right _ (List.mem_singleton_self _)

omit [Node ν] in
/-- A node that is given a generation of no job, or none, awaits no answer. -/
theorem Recorded.settle_key {e : Entry} (h : Recorded entries r) (key : String)
    (hregular : Regular (entries ++ [e])) (hnot : ∀ j, e ≠ .issued j)
    (hjob : ∀ j, e.job? = some j → .issued j ∈ entries)
    (hawaited : ∀ k, awaited (entries ++ [e]) k = if k = key then none else awaited entries k)
    (hconfig : r'.config = r.config) (hgeneration : r.generation ≤ r'.generation)
    (hself : ∀ g, KeyMap.find? r'.generations key = some g → r.generation < g ∧ g ≤ r'.generation)
    (hother : ∀ k, k ≠ key → KeyMap.find? r'.generations k = KeyMap.find? r.generations k)
    (houtbox : ∀ job, .compile job ∈ r'.outbox → .compile job ∈ r.outbox) :
    Recorded (entries ++ [e]) r' := by
  have hissued : ∀ j, Entry.issued j ∈ entries ++ [e] → .issued j ∈ entries := by
    intro j hj
    exact (List.mem_append.1 hj).resolve_right fun hin => hnot j (List.mem_singleton.1 hin).symm
  refine ⟨hconfig ▸ h.mode_eq, hregular, fun e' he' j hj => ?_, fun k g hg => ?_, fun k j hj => ?_,
    fun j hj => List.mem_append_left _ (h.issued_of_outbox j (houtbox j hj))⟩
  · rcases List.mem_append.1 he' with he' | he'
    · exact Nat.le_trans (h.le_generation e' he' j hj) hgeneration
    · obtain rfl := List.mem_singleton.1 he'
      exact Nat.le_trans (h.le_generation _ (hjob j hj) j rfl) hgeneration
  · by_cases hk : k = key
    · exact (hself g (hk ▸ hg)).2
    · exact Nat.le_trans (h.generations_le k g (hother k hk ▸ hg)) hgeneration
  -- The node itself has a generation that is newer than every job.
  · rw [hawaited]
    split
    · next hk =>
      subst hk
      refine ⟨fun hg => ?_, fun ha => by simp at ha⟩
      have := (hself _ hg).1
      have := h.le_generation _ (hissued j hj) j rfl
      omega
    · next hk =>
      rw [hother k hk]
      exact h.current_iff k j (hissued j hj)

omit [Node ν] in
/-- An answer that is taken in is not awaited any more. -/
theorem Recorded.accept (h : Recorded entries r) (hjob : .issued job ∈ entries)
    (hcurrent : KeyMap.find? r.generations key = some job.generation) :
    Recorded (entries ++ [.accepted key job]) (r.bumpGeneration key).2 := by
  refine h.settle_key key (h.regular.accepted ((h.current_iff key job hjob).1 hcurrent))
    (by simp) (fun j hj => Option.some.inj hj ▸ hjob) (fun k => ?_) rfl (Nat.le_succ _)
    (fun g hg => ?_) (fun k hk => ?_) fun _ hj => hj
  · rw [Ledger.awaited_concat]
    rfl
  · change KeyMap.find? (KeyMap.insert r.generations key (r.generation + 1)) key = some g at hg
    rw [KeyMap.find?_insert, if_pos rfl] at hg
    obtain rfl : r.generation + 1 = g := Option.some.inj hg
    exact ⟨Nat.lt_succ_self _, Nat.le_refl _⟩
  · exact (KeyMap.find?_insert _ _ _ _).trans (if_neg (Ne.symm hk))

omit [Node ν] in
/-- A node that is removed loses its generation. -/
theorem Recorded.remove (h : Recorded entries r) (key : String) (ds : List String) :
    Recorded (entries ++ [.removed key]) (r.uninstall key ds) := by
  obtain ⟨listeners, huninstall⟩ := exists_uninstall r key ds
  rw [huninstall]
  refine Recorded.of_unissued ?_ (unissued_evict _ key)
  refine h.settle_key key h.regular.removed (by simp) (by simp [Entry.job?]) (fun k => ?_)
    rfl (Nat.le_refl _) (fun g hg => ?_) (fun k hk => ?_) fun j hj => (List.mem_filter.1 hj).1
  · rw [Ledger.awaited_concat]
    rfl
  · change KeyMap.find? (KeyMap.erase r.generations key) key = some g at hg
    rw [KeyMap.find?_erase, if_pos rfl] at hg
    simp at hg
  · exact (KeyMap.find?_erase _ _ _).trans (if_neg (Ne.symm hk))

/-! ## Calls -/

/-- A step issues a job and queues it, or it issues none. -/
theorem issues?_cases (hmode : r.config.compileMode = .deferred) (t : Task) :
    (∃ key n, r.issues? t = some (r.nextJob key n) ∧
      (r.step t).1 = (r.bumpGeneration key).2.queueJob (r.nextJob key n)) ∨
    r.issues? t = none ∧ Unissued r (r.step t).1 := by
  have hsteps := steps_step r t
  generalize (r.step t).1 = r', (r.step t).2 = more at hsteps ⊢
  -- Only queueing issues a job, and nothing is compiled on the spot.
  cases hsteps with
  | absent | validated => exact .inr ⟨rfl, .refl r⟩
  | valueless he => exact .inr ⟨by rcases he with rfl | rfl <;> rfl, .refl r⟩
  | told => exact .inr ⟨rfl, unissued_reshape _ _ _ _⟩
  | broadcast => exact .inr ⟨rfl, unissued_publishSignal _ _ _ _⟩
  | announced | rejected => exact .inr ⟨rfl, unissued_publish _ _⟩
  | unregistered hn => exact .inr ⟨by simp [issues?, hn], .refl r⟩
  | @lacking key n hn hmissing =>
    have hnot : ¬ (Node.dependencies n).all r.isDependable = true := by
      simpa [List.filter_eq_nil_iff] using hmissing
    refine .inr ⟨?_, unissued_publish _ _⟩
    simp only [issues?, hn, Option.bind_some, if_neg hnot]
  | @queued key n hn hdeps =>
    refine .inl ⟨key, n, ?_, rfl⟩
    simp only [issues?, hn, Option.bind_some, if_pos (List.all_eq_true.2 hdeps)]
  | uncached hn hdeps hinline | compiled hn hdeps hinline => simp [hmode] at hinline

/-- A step enters the job that it issues. -/
theorem Recorded.step (h : Recorded entries r) (t : Task) :
    Recorded (entries ++ ((r.issues? t).map Entry.issued).toList) (r.step t).1 := by
  rcases issues?_cases h.mode_eq t with ⟨key, n, hissues, hstep⟩ | ⟨hissues, hstep⟩
  · rw [hissues, hstep]
    exact h.issue key n
  · rw [hissues]
    simpa using h.of_unissued hstep

/-- A cascade enters the jobs that are issued in its course. -/
theorem Recorded.settle (h : Recorded entries r) (tasks : List Task) :
    Recorded (entries ++ (Agenda.moments Registry.step (r.cascadeBound tasks) r tasks).filterMap
      fun m => (m.1.issues? m.2).map .issued) (r.settle tasks) :=
  Agenda.run_recorded (P := fun s es => Recorded es s) (fun m => (m.1.issues? m.2).map .issued)
    (fun _ t _ hs => hs.step t) (r.cascadeBound tasks) r tasks entries h

/-- A call that brings no answer begins without a job. -/
theorem Opens.unissued {c : Call ν} {tasks : List Task} (h : Opens r c r' tasks)
    (hc : ∀ key outcome, c ≠ .apply key outcome) : Unissued r r' := by
  cases h with
  | refused => exact unissued_publish _ _
  | @entered n =>
    obtain ⟨listeners, hinstall⟩ := exists_install r n
    have hinstalled : Unissued r (r.install n) := by
      rw [hinstall]
      exact ⟨rfl, rfl, rfl, fun _ hj => hj⟩
    exact hinstalled.trans (unissued_publishSignal _ _ _ _)
  | adopted => exact ⟨rfl, rfl, rfl, fun _ hj => hj⟩
  | @patched key patch n =>
    obtain ⟨nodes, listeners, graph, hpatched, -⟩ := exists_patched r key n patch
    rw [hpatched]
    exact ⟨rfl, rfl, rfl, fun _ hj => hj⟩
  | deleted | customized => exact unissued_publishSignal _ _ _ _
  | cleared =>
    refine ⟨rfl, rfl, rfl, fun job hjob => ?_⟩
    change _ ∈ (if r.isDeferred then [.clear] else r.outbox) at hjob
    split at hjob
    · simp at hjob
    · exact hjob
  | stale | failed | unmet | arrived => exact absurd rfl (hc _ _)
  | fetched => exact ⟨rfl, rfl, rfl, fun _ hj => absurd hj List.not_mem_nil⟩
  | collected | shared => exact ⟨rfl, rfl, rfl, fun _ hj => hj⟩

/-- A call that brings an answer does nothing if the answer does not count. Otherwise the node is
given a new generation before anything else. -/
theorem exists_opening_apply (r : Registry ν) (key : String) (outcome : CompileOutcome) :
    (KeyMap.find? r.generations key ≠ some outcome.generation →
      r.opening (.apply key outcome) = (r, [])) ∧
    (KeyMap.find? r.generations key = some outcome.generation →
      ∃ compiler published tasks, r.opening (.apply key outcome) =
        ({ (r.bumpGeneration key).2 with compiler, published }, tasks)) := by
  refine ⟨fun hstale => (opening_apply_of_stale outcome hstale).2, fun hcurrent => ?_⟩
  cases outcome with
  | failed generation missing =>
    exact ⟨_, _, _, congrArg (fun r' => (r', [])) (if_pos hcurrent)⟩
  | compiled generation value =>
    by_cases hmet : (r.get? key).any fun n => (Node.dependencies n).all r.isDependable
    · exact ⟨_, _, _, if_pos (awaits_eq_true_iff.2 ⟨hcurrent, hmet⟩)⟩
    · exact ⟨_, _, _, (opening_apply_of_unmet value hcurrent hmet).2⟩

/-- An answer is entered if it is taken in, and then all that follows. -/
theorem Recorded.apply {outcome : CompileOutcome} (h : Recorded entries r)
    (hjob : .issued job ∈ entries) (hgeneration : outcome.generation = job.generation) :
    Recorded ((entries ++ if KeyMap.find? r.generations key = some job.generation
      then [.accepted key job] else []) ++ r.entriesOf (.apply key outcome))
      (r.call (.apply key outcome)) := by
  obtain ⟨hstale, hcurrent⟩ := exists_opening_apply r key outcome
  have hcall : r.call (.apply key outcome) = (r.opening (.apply key outcome)).1.settle
    (r.opening (.apply key outcome)).2 := call_eq_closing r (.apply key outcome)
  have hentries : r.entriesOf (.apply key outcome) =
      (r.course (.apply key outcome)).filterMap fun m => (m.1.issues? m.2).map .issued :=
    List.append_nil _
  rw [hgeneration] at hstale hcurrent
  -- The answer is entered first, if it counts.
  have hbegun : Recorded (entries ++ if KeyMap.find? r.generations key = some job.generation
      then [.accepted key job] else []) (r.opening (.apply key outcome)).1 := by
    by_cases hnow : KeyMap.find? r.generations key = some job.generation
    · obtain ⟨compiler, published, tasks, hopening⟩ := hcurrent hnow
      rw [if_pos hnow, hopening]
      exact (h.accept hjob hnow).of_unissued ⟨rfl, rfl, rfl, fun _ hj => hj⟩
    · rw [if_neg hnow, List.append_nil, hstale hnow]
      exact h
  rw [hcall, hentries]
  exact hbegun.settle _

/-- A node is removed exactly if it may be, and is still there when its channel has been told. -/
theorem isOk_delete (r : Registry ν) (key : String) : (r.delete key).1.isOk =
    (r.deletable key && (((r.opening (.delete key)).1.settle
      (r.opening (.delete key)).2).get? key).isSome) := by
  cases hmay : r.deletable key with
  | true =>
    obtain ⟨n, hn, hcheck⟩ := deletable_iff.1 hmay
    simp only [opening, hmay, if_true, Registry.delete, hn, hcheck, Bool.true_and]
    split <;> simp_all [Except.isOk, Except.toBool]
  | false =>
    rw [Bool.false_and]
    cases hn : r.get? key with
    | none => simp only [Registry.delete, hn, refuse, Except.isOk, Except.toBool]
    | some n =>
      cases hcheck : Node.checkDelete n with
      | ok => exact absurd (deletable_iff.2 ⟨n, hn, hcheck⟩) (by simp [hmay])
      | error e => simp only [Registry.delete, hn, hcheck, refuse, Except.isOk, Except.toBool]

/-- What a call that brings no answer adds to the ledger. -/
theorem Recorded.call {c : Call ν} (h : Recorded entries r)
    (hc : ∀ key outcome, c ≠ .apply key outcome) :
    Recorded (entries ++ r.entriesOf c) (r.call c) := by
  have hsettled := (h.of_unissued ((opens_opening r c).unissued hc)).settle (r.opening c).2
  rw [call_eq_closing]
  cases c with
  | apply key outcome => exact absurd rfl (hc key outcome)
  -- A deletion is entered last, after what follows from its cascade.
  | delete key =>
    rw [entriesOf, ← List.append_assoc, isOk_delete, closing]
    show Recorded (entries ++ (r.course (.delete key)).filterMap _ ++ _) _
    rw [course]
    generalize (r.opening (.delete key)).1.settle (r.opening (.delete key)).2 = settled
      at hsettled ⊢
    cases r.deletable key with
    | false => simpa using hsettled
    | true =>
      cases settled.get? key with
      | none => simpa using hsettled
      | some n => exact hsettled.remove key (Node.dependencies n)
  | _ =>
    refine Eq.mpr (congrArg (Recorded · _) ?_) hsettled
    exact congrArg (entries ++ ·) (List.append_nil _)

end Registry

/-! ## Ledgers -/

/-- A registry with the jobs that have been taken from its outbox, and with what has become of all
its jobs. -/
structure Ledger (ν : Type) [Node ν] where
  registry : Registry ν
  taken : List CompileJob := []
  entries : List Ledger.Entry := []

namespace Ledger

variable {ν : Type} [Node ν]

/-- Something that happens to a registry whose jobs are compiled elsewhere. -/
inductive Event (ν : Type) [Node ν] where
  | add (node : ν)
  | update (key : String) (patch : Node.Patch ν)
  | delete (key : String)
  | customize (key : String) (flags : Flags)
  | clearCache
  | takeOutbox
  /-- An answer to a job that has been taken, given by its place, is brought for some node. -/
  | answer (place : Nat) (key : String) (result : Except (List String) Json)

/-- Carries out a call, and enters what becomes of jobs. -/
def call (s : Ledger ν) (c : Call ν) : Ledger ν :=
  { s with registry := s.registry.call c, entries := s.entries ++ s.registry.entriesOf c }

/-- Enters that an answer is taken in for a node, if it is. -/
def accept (s : Ledger ν) (key : String) (job : CompileJob) : Ledger ν :=
  { s with entries := s.entries ++
      if KeyMap.find? s.registry.generations key = some job.generation
      then [.accepted key job] else [] }

def step (s : Ledger ν) : Event ν → Ledger ν
  | .add node => s.call (.add node)
  | .update key patch => s.call (.update key patch)
  | .delete key => s.call (.delete key)
  | .customize key flags => s.call (.customize key flags)
  | .clearCache => s.call .clearCache
  | .takeOutbox =>
    { s.call .takeOutbox with taken := s.taken ++ s.registry.outbox.filterMap Registry.job? }
  | .answer place key result =>
    match s.taken[place]? with
    | none => s
    | some job => (s.accept key job).call (.apply key (.ofResult job.generation result))

def run (s : Ledger ν) (events : List (Event ν)) : Ledger ν := events.foldl step s

/-- The ledger before anything has happened. -/
def start (sandbox : SandboxConfig) (verifier : Option Verifier) : Ledger ν where
  registry := .fresh { compileMode := .deferred, sandbox } verifier

/-- The ledger agrees with the registry, and all jobs that have been taken are in it. -/
structure Invariant (s : Ledger ν) : Prop where
  recorded : s.registry.Recorded s.entries
  issued_of_taken : ∀ job ∈ s.taken, .issued job ∈ s.entries

variable {s : Ledger ν}

theorem invariant_start (sandbox : SandboxConfig) (verifier : Option Verifier) :
    Invariant (start sandbox verifier : Ledger ν) where
  recorded :=
    { mode_eq := rfl
      regular := .nil
      le_generation := by simp [start]
      generations_le := by simp [start, Registry.fresh]
      current_iff := by simp [start]
      issued_of_outbox := by simp [start, Registry.fresh] }
  issued_of_taken := by simp [start]

/-- A call that brings no answer is followed by the ledger. -/
theorem Invariant.call {c : Call ν} (h : Invariant s) (hc : ∀ key outcome, c ≠ .apply key outcome) :
    Invariant (s.call c) :=
  ⟨h.recorded.call hc, fun job hj => List.mem_append_left _ (h.issued_of_taken job hj)⟩

theorem Invariant.step (h : Invariant s) (e : Event ν) : Invariant (s.step e) := by
  cases e with
  | add | update | delete | customize | clearCache => exact h.call (by simp)
  | takeOutbox =>
    have hcall : Invariant (s.call .takeOutbox) := h.call (by simp)
    refine ⟨hcall.recorded, fun job hj => ?_⟩
    rcases List.mem_append.1 hj with hj | hj
    · exact hcall.issued_of_taken job hj
    · have hqueued := (Registry.mem_filterMap_job? job).1 hj
      exact List.mem_append_left _ (h.recorded.issued_of_outbox job hqueued)
  | answer place key result =>
    show Invariant (match s.taken[place]? with | none => s | some job => _)
    cases hplace : s.taken[place]? with
    | none => exact h
    | some job =>
      have hissued := h.issued_of_taken job (List.mem_of_getElem? hplace)
      refine ⟨h.recorded.apply hissued (CompileOutcome.generation_ofResult _ _), fun j hj => ?_⟩
      exact List.mem_append_left _ (List.mem_append_left _ (h.issued_of_taken j hj))

theorem Invariant.run (h : Invariant s) (events : List (Event ν)) : Invariant (s.run events) := by
  induction events generalizing s with
  | nil => exact h
  | cons e es ih => exact ih (h.step e)

/-- Only those answers are taken in that are due. -/
structure Timely (s : Ledger ν) : Prop where
  issued_of_taken : ∀ job ∈ s.taken, .issued job ∈ s.entries
  /-- The generation of a job is the last one of a node exactly if the job is outstanding. -/
  current_iff : ∀ job ∈ s.taken, ∀ key,
    KeyMap.find? s.registry.generations key = some job.generation ↔ Outstanding s.entries key job
  /-- Any other answer leaves the registry as it is. -/
  unchanged : ∀ job ∈ s.taken, ∀ key result, ¬ Outstanding s.entries key job →
    s.registry.applyOutcome key (.ofResult job.generation result) = s.registry

theorem Invariant.timely (h : Invariant s) : Timely s := by
  have hcurrent : ∀ job ∈ s.taken, ∀ key,
      KeyMap.find? s.registry.generations key = some job.generation ↔
        Outstanding s.entries key job := fun job hj key =>
    (h.recorded.current_iff key job (h.issued_of_taken job hj)).trans
      h.recorded.regular.awaited_eq_some_iff
  refine ⟨h.issued_of_taken, hcurrent, fun job hj key result hnot => ?_⟩
  refine if_neg ?_
  rw [CompileOutcome.generation_ofResult]
  exact mt (hcurrent job hj key).1 hnot

/-- Whatever is done with a registry whose jobs are compiled elsewhere, and in whatever order
answers to its jobs come, however often and for whichever node: the registry takes in those that are
due, and no others. Generations do not wrap: this is about fewer than `2 ^ 64` compile requests. -/
theorem timely_run (sandbox : SandboxConfig) (verifier : Option Verifier)
    (events : List (Event ν)) : Timely ((start sandbox verifier).run events) :=
  ((invariant_start sandbox verifier).run events).timely

end Ledger

end LayeredAccess
