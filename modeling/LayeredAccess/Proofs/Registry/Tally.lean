/-
  LayeredAccess.Proofs.Registry.Tally

  What the number says that a drive returns. It counts the results that come in,
  whether they are taken in or dropped; of those that are taken in, and of these
  alone, the registry tells (`Tallied`).

  A value is dropped if its job was in the outbox before the drive while its node
  was not ready, be it that the node had lost a dependency since it asked, or that
  its dependencies had been replaced. So the number is that of the results that
  are taken in if all jobs in the outbox are of nodes that are ready, and too large
  if a value comes for another node.
-/
import LayeredAccess.Proofs.Registry.Arrivals

namespace LayeredAccess

/-! ## Rounds -/

namespace Registry

variable {ν : Type} [Node ν]

/-- The jobs in the outbox, oldest first. -/
def waiting (r : Registry ν) : List CompileJob := r.outbox.filterMap job?

/-- Is a node registered, and are all of its dependencies dependable? -/
def isReady (r : Registry ν) (key : String) : Bool :=
  (r.get? key).any fun n => (Node.dependencies n).all r.isDependable

section Rounds

variable [NodeKind ν] [LawfulNode ν] [LinkedNode ν] {verifier : Option Verifier} {width : Nat}
  {height : String → Nat} {bound : Nat} {given : List CompileJob} {r : Registry ν}
variable {σ : Type} {remote : RemoteCompiler σ} {reaches : σ → Compiler → Prop}

omit [NodeKind ν] [LawfulNode ν] [LinkedNode ν] in
/-- What comes in during a round once all commands have been sent. -/
theorem roundArrivals_of_sent {s s₁ s₂ : σ}
    {outcomes : List (String × Except EngineError CompileOutcome)}
    (hsend : remote.sendAll s (r.outbox.filter fun c => (job? c).isNone) = (.ok (), s₁))
    (hcompile : remote.compileAll s₁ r.waiting = (outcomes, s₂)) :
    r.roundArrivals remote s = r.takeOutbox.2.arriving outcomes := by
  change remote.sendAll s (r.takeOutbox.1.filter fun c => (job? c).isNone) = _ at hsend
  change remote.compileAll s₁ (r.takeOutbox.1.filterMap job?) = _ at hcompile
  simp only [roundArrivals, hsend, hcompile]

omit [Node ν] [NodeKind ν] [LawfulNode ν] [LinkedNode ν] in
/-- Where the jobs of an outbox have been answered in order, every result is that of a job. -/
theorem exists_waiting {arrivals : List (Arrival ν)}
    (h : arrivals.map (fun a => (a.key, a.generation)) =
      r.waiting.map fun job => (job.id, job.generation)) {a : Arrival ν} (ha : a ∈ arrivals) :
    ∃ job ∈ r.waiting, job.id = a.key ∧ job.generation = a.generation := by
  have hin : (a.key, a.generation) ∈ r.waiting.map fun job => (job.id, job.generation) :=
    h ▸ List.mem_map_of_mem ha
  obtain ⟨job, hjob, he⟩ := List.mem_map.1 hin
  exact ⟨job, hjob, Prod.mk.inj he⟩

omit [LawfulNode ν] [LinkedNode ν] in
/-- A job in the outbox is waited for if its node is ready. -/
theorem awaits_eq_isReady (h : (r.outlook []).Lined given) {job : CompileJob}
    (hjob : job ∈ r.waiting) : r.awaits job.id job.generation = r.isReady job.id := by
  have hlatest : KeyMap.find? r.generations job.id = some job.generation :=
    h.queued.latest job ((mem_filterMap_job? job).1 hjob)
  rw [awaits, decide_eq_true hlatest, Bool.true_and, isReady]

omit [NodeKind ν] [LawfulNode ν] [LinkedNode ν] in
theorem roundsArrivals_of_nil (remote : RemoteCompiler σ) (houtbox : r.outbox = []) (s : σ)
    (rounds : Nat) : r.roundsArrivals remote (rounds + 1) s = [] := by
  rw [roundsArrivals, if_pos (by rw [houtbox]; rfl)]

omit [NodeKind ν] [LawfulNode ν] [LinkedNode ν] in
/-- A round that succeeds is followed by the others. -/
theorem rounds_of_round {r₁ : Registry ν} {s s₁ : σ} (houtbox : r.outbox ≠ [])
    (hround : ∀ count, r.driveRound remote s count =
      (.ok (count + (r.roundArrivals remote s).length), r₁, s₁)) (rounds count : Nat) :
    Registry.driveRounds remote (rounds + 1) r s count =
        Registry.driveRounds remote rounds r₁ s₁ (count + (r.roundArrivals remote s).length) ∧
      r.roundsArrivals remote (rounds + 1) s =
        r.roundArrivals remote s ++ r₁.roundsArrivals remote rounds s₁ := by
  have hsome : ¬ r.outbox.isEmpty = true := by rwa [List.isEmpty_iff]
  constructor
  · rw [Registry.driveRounds, if_neg hsome, hround]
  · rw [roundsArrivals, if_neg hsome, hround]

/-- In a round every job is answered, and all answers come in. -/
theorem Coherent.driveRound_received (hremote : remote.Serves reaches) {s : σ} {c : Compiler}
    (hs : reaches s c) (h : Coherent verifier r) (hg : Graded width height r)
    (hl : (r.outlook []).Lined given) (hjobs : ∀ job ∈ r.waiting, height job.id ≤ bound)
    (hword : r.generation < wordLimit) :
    ∃ r' s' c', (∀ count, r.driveRound remote s count =
        (.ok (count + (r.roundArrivals remote s).length), r', s')) ∧ reaches s' c' ∧
      Receiving verifier width height bound (given ++ r.waiting) r' ∧
      Received r (r.roundArrivals remote s) r' ∧
      (r.roundArrivals remote s).map (fun a => (a.key, a.generation)) =
        r.waiting.map fun job => (job.id, job.generation) := by
  obtain ⟨s₁, hsend, hs₁⟩ := hremote.sendAll_eq (ne_compile_of_mem_filter r.outbox) hs
  generalize (c.handleAll _).2 = c₁ at hs₁
  have hle : ∀ job ∈ r.waiting, job.generation ≤ r.generation := fun job hin =>
    hl.le_generation _ _ ⟨job, .inr ((mem_filterMap_job? job).1 hin), rfl, rfl⟩
  obtain ⟨s₂, hcompile, hs₂⟩ := hremote.compileAll_eq
    (fun job hin => Nat.lt_of_le_of_lt (hle job hin) hword) hs₁
  have hanswers := Compiler.map_answerAll r.waiting c₁
  -- Every answer is that to a job which has just been given away.
  have hjob : ∀ a ∈ (c₁.answerAll r.waiting).1, ∃ job ∈ r.waiting,
      job.id = a.1 ∧ job.generation = a.2.generation :=
    fun a ha => Compiler.exists_of_mem_answerAll ha
  generalize (c₁.answerAll r.waiting).1 = answers at hcompile hanswers hjob
  have hkeys : answers.map (·.1) = r.waiting.map (·.id) := by
    have hfirst := congrArg (List.map Prod.fst) hanswers
    rwa [List.map_map, List.map_map] at hfirst
  have hreceiving : Receiving verifier width height bound (given ++ r.waiting) r.takeOutbox.2 :=
    ⟨h.takeOutbox, hg.of_unmoved (unmoved_takeOutbox r), hl.takeOutbox.pumped rfl rfl⟩
  obtain ⟨r', happly, hend, hreceived⟩ := hreceiving.applyAll
    (fun a ha => by
      obtain ⟨job, hin, hid⟩ := hjob a ha
      exact ⟨job, List.mem_append_right _ hin, hid⟩)
    (fun a ha => by
      obtain ⟨job, hin, hid, -⟩ := hjob a ha
      exact hid ▸ hjobs job hin)
    (hkeys ▸ List.pairwise_map.2 (hl.queued.increasing.imp And.left))
  have hmap := map_arriving answers r.takeOutbox.2
  rw [← roundArrivals_of_sent hsend hcompile] at hreceived hmap
  refine ⟨r', s₂, _, fun count => ?_, hs₂, hend, ?_, ?_⟩
  · have hlength := congrArg List.length hmap
    rw [List.length_map] at hlength
    rw [driveRound_of_sent hsend hcompile, happly, hlength]
  · exact ⟨hreceived.notices_eq, hreceived.taken_of_awaits, hreceived.awaits_of_taken⟩
  · rw [← hanswers, ← hmap, List.map_map]
    rfl

variable [BareNode ν]

/-- While all jobs are of nodes that are ready, all that comes in is taken in; and there are no more
rounds than the height below which the jobs lie. -/
theorem Receiving.driveRounds (hremote : remote.Serves reaches) (rounds : Nat) :
    ∀ {bound : Nat} {given : List CompileJob} {s : σ} {c : Compiler} {r : Registry ν} (count : Nat),
      reaches s c → Receiving verifier width height bound given r → bound ≤ rounds →
      (Registry.driveRounds remote rounds r s count).2.1.generation < wordLimit →
      ∃ r' s', Registry.driveRounds remote rounds r s count =
          (.ok (count + (r.roundsArrivals remote rounds s).length), r', s') ∧ r'.outbox = [] ∧
        r'.compileNotices =
          r.compileNotices ++ (r.roundsArrivals remote rounds s).map Arrival.notice ∧
        ∀ a ∈ r.roundsArrivals remote rounds s, a.taken = true := by
  induction rounds with
  | zero =>
    intro bound given s c r count hs h hle _
    refine ⟨r, s, rfl, ?_, (List.append_nil _).symm, by simp [roundsArrivals]⟩
    refine List.eq_nil_iff_forall_not_mem.2 fun command hin => ?_
    obtain ⟨job, -, hlt⟩ := h.pumped.low.outbox_lt command hin
    omega
  | succ rounds ih =>
    intro bound given s c r count hs h hle hword
    by_cases houtbox : r.outbox = []
    · refine ⟨r, s, ?_, houtbox, ?_, ?_⟩ <;> rw [roundsArrivals_of_nil remote houtbox]
      · exact driveRounds_of_isEmpty _ houtbox s _ count
      · exact (List.append_nil _).symm
      · simp
    · have hfirst : r.generation < wordLimit :=
        Nat.lt_of_le_of_lt (onward_driveRounds remote _ r s count).generation_le hword
      have hjobs : ∀ job ∈ r.waiting, height job.id ≤ bound - 1 := by
        intro job hjob
        obtain ⟨job', he, hlt⟩ :=
          h.pumped.low.outbox_lt _ ((mem_filterMap_job? job).1 hjob)
        obtain rfl := CompilerCommand.compile.inj he
        omega
      obtain ⟨r₁, s₁, c₁, hround, hs₁, hreceiving, hreceived, hanswered⟩ :=
        h.coherent.driveRound_received hremote hs h.graded h.pumped.toLined hjobs hfirst
      obtain ⟨hrounds, harrivals⟩ := rounds_of_round houtbox hround rounds count
      rw [hrounds] at hword ⊢
      obtain ⟨r', s', hdrive, hempty, hnotices, htaken⟩ := ih _ hs₁ hreceiving (by omega) hword
      -- The nodes of the jobs are ready, so that all results of the round are waited for.
      have hall : ∀ a ∈ r.roundArrivals remote s, a.taken = true := by
        intro a ha
        obtain ⟨job, hjob, hid, hgeneration⟩ := exists_waiting hanswered ha
        refine hreceived.taken_of_awaits a ha ((h.coherent.awaits_iff _ _).2 ?_)
        rw [← hid, ← hgeneration]
        exact h.pumped.live rfl ((mem_filterMap_job? job).1 hjob)
      refine ⟨r', s', ?_, hempty, ?_, ?_⟩ <;> rw [harrivals]
      · rw [hdrive, List.length_append, Nat.add_assoc]
      · rw [hnotices, hreceived.notices_eq, List.filter_eq_self.2 hall, List.map_append,
          List.append_assoc]
      · exact List.forall_mem_append.2 ⟨hall, htaken⟩

/-- What a drive counts, and what it tells. -/
structure Tallied (remote : RemoteCompiler σ) (r : Registry ν) (s : σ) : Prop where
  /-- The drive succeeds, and counts all results that come in. -/
  count_eq : (r.drive remote s).1 = .ok (r.arrivals remote s).length
  outbox_eq : (r.drive remote s).2.1.outbox = []
  /-- It tells of those that are taken in, once of each, and of no other end of compiling. -/
  notices_eq : (r.drive remote s).2.1.compileNotices =
    r.compileNotices ++ ((r.arrivals remote s).filter Arrival.taken).map Arrival.notice
  /-- The jobs that wait before the drive are answered first, in order. -/
  answered : ((r.arrivals remote s).take r.waiting.length).map (fun a => (a.key, a.generation)) =
    r.waiting.map fun job => (job.id, job.generation)
  /-- The answers are taken in whose nodes are ready before the drive, -/
  taken_of_ready : ∀ a ∈ (r.arrivals remote s).take r.waiting.length,
    r.isReady a.key = true → a.taken = true
  /-- and no values for other nodes. -/
  dropped_of_unready : ∀ a ∈ (r.arrivals remote s).take r.waiting.length,
    r.isReady a.key = false → ∀ x, a.outcome = .compiled a.generation x → a.taken = false
  /-- All later results are taken in. -/
  taken_later : ∀ a ∈ (r.arrivals remote s).drop r.waiting.length, a.taken = true
  /-- So the count is that of the results that are taken in if all waiting jobs are of nodes that
  are ready. -/
  count_eq_taken : (∀ job ∈ r.waiting, r.isReady job.id = true) →
    (r.drive remote s).1 = .ok ((r.arrivals remote s).filter Arrival.taken).length

omit [NodeKind ν] [LawfulNode ν] [LinkedNode ν] [BareNode ν] in
/-- The results of a drive are those of its first round, which answer the jobs that wait before it,
and later ones. -/
theorem tallied_of_append {s : σ} {first later : List (Arrival ν)}
    (harrivals : r.arrivals remote s = first ++ later)
    (hanswered : first.map (fun a => (a.key, a.generation)) =
      r.waiting.map fun job => (job.id, job.generation))
    (hcount : (r.drive remote s).1 = .ok (first.length + later.length))
    (houtbox : (r.drive remote s).2.1.outbox = [])
    (hnotices : (r.drive remote s).2.1.compileNotices =
      r.compileNotices ++ ((first ++ later).filter Arrival.taken).map Arrival.notice)
    (hready : ∀ a ∈ first, r.isReady a.key = true → a.taken = true)
    (hunready : ∀ a ∈ first, ∀ x, a.outcome = .compiled a.generation x → a.taken = true →
      r.isReady a.key = true)
    (hlater : ∀ a ∈ later, a.taken = true) : Tallied remote r s := by
  have hlength : r.waiting.length = first.length := by
    have hlengths := congrArg List.length hanswered
    rw [List.length_map, List.length_map] at hlengths
    exact hlengths.symm
  have htake : (r.arrivals remote s).take r.waiting.length = first := by
    rw [harrivals, hlength, List.take_left]
  have hdrop : (r.arrivals remote s).drop r.waiting.length = later := by
    rw [harrivals, hlength, List.drop_left]
  refine ⟨?_, houtbox, harrivals ▸ hnotices, htake ▸ hanswered, htake ▸ hready, ?_,
    hdrop ▸ hlater, fun hwaiting => ?_⟩
  · rw [harrivals, List.length_append]
    exact hcount
  · rw [htake]
    intro a ha hnot x hx
    refine Bool.eq_false_iff.2 fun htaken => ?_
    rw [hunready a ha x hx htaken] at hnot
    cases hnot
  -- If all jobs are of nodes that are ready, nothing is dropped at all.
  · have hall : ∀ a ∈ first ++ later, a.taken = true := by
      refine List.forall_mem_append.2 ⟨fun a ha => hready a ha ?_, hlater⟩
      obtain ⟨job, hjob, hid, -⟩ := exists_waiting hanswered ha
      exact hid ▸ hwaiting job hjob
    rw [harrivals, List.filter_eq_self.2 hall, List.length_append]
    exact hcount

omit [NodeKind ν] [LawfulNode ν] [LinkedNode ν] [BareNode ν] in
theorem tallied_of_nil (houtbox : r.outbox = []) (s : σ) : Tallied remote r s := by
  have hdrive : r.drive remote s = (.ok 0, r, s) := driveRounds_of_isEmpty _ houtbox s _ 0
  have hnone : r.arrivals remote s = [] ++ [] := roundsArrivals_of_nil remote houtbox s _
  have hwaiting : r.waiting = [] := by rw [waiting, houtbox, List.filterMap_nil]
  refine tallied_of_append hnone ?_ ?_ ?_ ?_ (by simp) (by simp) (by simp)
  · rw [hwaiting]
    rfl
  · rw [hdrive]
    rfl
  · rw [hdrive]
    exact houtbox
  · rw [hdrive]
    exact (List.append_nil _).symm

/-- What a drive over a service counts. -/
theorem Coherent.tallied (hremote : remote.Serves reaches) {s : σ} {c : Compiler}
    (hs : reaches s c) (h : Coherent verifier r) (hl : (r.outlook []).Lined given)
    (hword : (r.drive remote s).2.1.generation < wordLimit) : Tallied remote r s := by
  by_cases houtbox : r.outbox = []
  · exact tallied_of_nil houtbox s
  · obtain ⟨height, hg⟩ := h.wired.exists_graded
    have hfirst : r.generation < wordLimit :=
      Nat.lt_of_le_of_lt (onward_drive remote r s).generation_le hword
    obtain ⟨r₁, s₁, c₁, hround, hs₁, hreceiving, hreceived, hanswered⟩ :=
      h.driveRound_received hremote hs hg hl (fun job _ => hg.height_le job.id) hfirst
    obtain ⟨hdrive, harrivals⟩ := rounds_of_round houtbox hround (r.size + 1) 0
    change r.drive remote s = _ at hdrive
    rw [hdrive] at hword
    obtain ⟨r', s', hrounds, hempty, hnotices, htaken⟩ :=
      hreceiving.driveRounds hremote (r.size + 1) _ hs₁ (Nat.le_succ _) hword
    rw [hrounds] at hdrive
    have hawaits : ∀ a ∈ r.roundArrivals remote s,
        r.awaits a.key a.generation = r.isReady a.key := by
      intro a ha
      obtain ⟨job, hjob, hid, hgeneration⟩ := exists_waiting hanswered ha
      rw [← hid, ← hgeneration]
      exact awaits_eq_isReady hl hjob
    refine tallied_of_append harrivals hanswered ?_ ?_ ?_ (fun a ha hready => ?_)
      (fun a ha x hx htaken => ?_) htaken
    · rw [hdrive, Nat.zero_add]
    · rw [hdrive]
      exact hempty
    -- All later results are taken in, so that only the first round may drop some.
    · rw [hdrive, List.filter_append, List.filter_eq_self.2 htaken, List.map_append,
        ← List.append_assoc, ← hreceived.notices_eq]
      exact hnotices
    · exact hreceived.taken_of_awaits a ha ((hawaits a ha).trans hready)
    · exact (hawaits a ha).symm.trans (hreceived.awaits_of_taken a ha x hx htaken)

end Rounds

end Registry

/-! ## Sessions -/

namespace Session

variable {ν : Type} [Node ν] [NodeKind ν] {verifier : Option Verifier} {s : Session ν}

/-- What holds at every point of a session where compiling is left to others. -/
structure Ordered (verifier : Option Verifier) (s : Session ν) : Prop where
  coherent : Registry.Coherent verifier s.registry
  lined : (s.registry.outlook []).Lined s.taken

/-- The registry after a session where compiling is left to others. -/
def deferred (sandbox : SandboxConfig) (verifier : Option Verifier) (events : List (Event ν)) :
    Registry ν :=
  ((start { compileMode := .deferred, sandbox } verifier).run events).registry

theorem ordered_start (sandbox : SandboxConfig) (verifier : Option Verifier) :
    Ordered verifier (start { compileMode := .deferred, sandbox } verifier : Session ν) :=
  ⟨Registry.coherent_fresh _ verifier, Outlook.lined_empty (fun _ => rfl) rfl rfl⟩

variable [LawfulNode ν]

theorem Ordered.step (h : Ordered verifier s) (event : Event ν) :
    Ordered verifier (s.step event) := by
  cases event with
  | operate operation =>
    have hsound := h.coherent.sound_operate operation
    exact ⟨hsound.coherent, hsound.evolves _ (Outlook.kept_lined s.taken) h.lined⟩
  | takeOutbox => exact ⟨h.coherent.takeOutbox, h.lined.takeOutbox⟩
  | answer place result =>
    simp only [Session.step]
    split
    · exact h
    · next job hjob =>
      obtain ⟨height, hg⟩ := h.coherent.wired.exists_graded
      have hgiven : ∃ job' ∈ s.taken, job'.id = job.id ∧
          job'.generation = (CompileOutcome.ofResult job.generation result).generation :=
        ⟨job, List.mem_of_getElem? hjob, rfl, (CompileOutcome.generation_ofResult _ _).symm⟩
      -- An answer that counts is awaited, so its node holds no value.
      have hfree : KeyMap.find? s.registry.generations job.id =
          some (CompileOutcome.ofResult job.generation result).generation →
          s.registry.value? job.id = none := by
        intro hcurrent
        rw [← Registry.value?_outlook []]
        exact h.lined.value?_eq_none hgiven hcurrent
      obtain ⟨hcoherent, -, hlined⟩ := h.coherent.applyOutcome_kept hg hfree h.lined
        (fun o o' hadvance ho => Outlook.kept_lined s.taken o o' (.advance hadvance) ho)
        (fun hcurrent => h.lined.supersede hgiven hcurrent)
        fun hcurrent => h.lined.arrive hgiven hcurrent
      exact ⟨hcoherent, hlined⟩

theorem Ordered.run (h : Ordered verifier s) (events : List (Event ν)) :
    Ordered verifier (s.run events) := by
  induction events generalizing s with
  | nil => exact h
  | cons event rest ih => exact ih (h.step event)

/-- Whatever has been done to a registry of entitlements or of profiles that leaves compiling to
others, and whatever has been answered to it in earlier drives, a drive over a service counts all
results that come in, whether they are taken in or dropped. Generations have to fit into the words
that messages have for them. -/
theorem tallied_run (sandbox : SandboxConfig) (verifier : Option Verifier) {σ : Type}
    {remote : RemoteCompiler σ} {reaches : σ → Compiler → Prop} (hremote : remote.Serves reaches)
    {c : σ} {service : Compiler} (hc : reaches c service) :
    (∀ events : List (Event EntitlementNode),
      ((deferred sandbox verifier events).drive remote c).2.1.generation < wordLimit →
        (deferred sandbox verifier events).Tallied remote c) ∧
    (∀ events : List (Event ProfileNode),
      ((deferred sandbox verifier events).drive remote c).2.1.generation < wordLimit →
        (deferred sandbox verifier events).Tallied remote c) := by
  constructor
  · intro events hword
    have h := (ordered_start (ν := EntitlementNode) sandbox verifier).run events
    exact h.coherent.tallied hremote hc h.lined hword
  · intro events hword
    have h := (ordered_start (ν := ProfileNode) sandbox verifier).run events
    exact h.coherent.tallied hremote hc h.lined hword

/-- A drive of a node that has lost a dependency since it asked, and one of a node whose first job
has been taken and never answered. -/
theorem tallied_run_ghost :
    let events : List (Event EntitlementNode) :=
      [.operate (.add { id := "k" }), .operate (.update "k" { dependencies := some ["ghost"] })]
    let events' : List (Event ProfileNode) :=
      [.operate (.add { name := "root" }), .takeOutbox, .operate .clearCache]
    (((deferred {} none events).drive Connection.remote {}).2.1.generation < wordLimit ∧
      (deferred {} none events).Tallied Connection.remote {}) ∧
    ((deferred {} none events').drive Connection.remote {}).2.1.generation < wordLimit ∧
      (deferred {} none events').Tallied Connection.remote {} := by
  intro events events'
  have hword : ((deferred {} none events).drive Connection.remote {}).2.1.generation < wordLimit :=
    by decide +kernel
  have hword' :
      ((deferred {} none events').drive Connection.remote {}).2.1.generation < wordLimit := by
    decide +kernel
  have hidle : Connection.Reaches {} {} := ⟨Connection.idle_empty, rfl⟩
  have htallied := tallied_run {} none Connection.serves_remote hidle
  exact ⟨⟨hword, htallied.1 events hword⟩, hword', htallied.2 events' hword'⟩

/-- A drive counts a value that comes for a node which has lost a dependency: it is dropped, and
nothing is told of it. -/
theorem overcounted_ghost :
    let events : List (Event EntitlementNode) :=
      [.operate (.add { id := "k" }), .operate (.update "k" { dependencies := some ["ghost"] })]
    ((deferred {} none events).drive Connection.remote {}).1.toOption = some 1 ∧
      ((deferred {} none events).arrivals Connection.remote {}).countP
        Registry.Arrival.taken = 0 ∧
      ((deferred {} none events).drive Connection.remote {}).2.1.compileNotices.length = 0 := by
  intro events
  exact ⟨by decide +kernel, by decide +kernel, by decide +kernel⟩

end Session

end LayeredAccess
