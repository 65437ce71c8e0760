/-
  LayeredAccess.Proofs.Dependency.Search

  What the walk along dependencies finds, in any graph, with cycles or without.

  `Walking` is what holds of the nodes that a walk has left behind: they are
  closed under dependencies, and under some ranking their dependencies have
  smaller ranks (`Layered`). `Following` is what holds of its path: it goes
  along dependencies. Every step keeps both (`Searching.step`).

  A walk that ends without a cycle has therefore gone through all that its first
  node leads to, and found it free of cycles (`Searching.acyclic`), and a cycle
  that is reported is one (`Searching.exists_cycle`).
-/
import LayeredAccess.Proofs.Dependency.Walk
import Mathlib.Data.List.Chain
import Mathlib.Logic.Relation

namespace LayeredAccess.DependencyGraph

open Relation

/-! ## What has been explored -/

/-- A node that has been entered and left again. -/
def Explored (unexplored : KeyMap String (List String)) (path : List Frame) (x : String) : Prop :=
  KeyMap.find? unexplored x = none ∧ x ∉ path.map (·.1)

/-- Of every node on the path, the dependencies that do not remain to be looked at are explored,
or are the next node of the path. -/
def Looked (edges : String → List String) (done : String → Prop) : List String → List Frame → Prop
  | _, [] => True
  | above, (node, ds) :: rest =>
    (∀ d ∈ edges node, d ∈ ds ∨ done d ∨ d ∈ above) ∧ Looked edges done (node :: above) rest

/-- What holds while a walk goes on without having met a cycle. -/
structure Walking (edges : String → List String) (unexplored : KeyMap String (List String))
    (path : List Frame) : Prop where
  /-- What is unexplored is listed with its dependencies. -/
  edges_eq : ∀ x ds, KeyMap.find? unexplored x = some ds → ds = edges x
  nodup : (path.map (·.1)).Nodup
  entered : ∀ x ∈ path.map (·.1), KeyMap.find? unexplored x = none
  closed : ∀ x, Explored unexplored path x → ∀ d ∈ edges x, Explored unexplored path d
  looked : Looked edges (Explored unexplored path) [] path

variable {edges : String → List String}

theorem Looked.mono {done done' : String → Prop} {above above' : List String} {path : List Frame}
    (h : Looked edges done above path) (hdone : ∀ x, done x → done' x)
    (habove : ∀ x ∈ above, x ∈ above' ∨ done' x) : Looked edges done' above' path := by
  induction path generalizing above above' with
  | nil => trivial
  | cons frame rest ih =>
    obtain ⟨hhead, htail⟩ := h
    refine ⟨fun d hd => ?_, ih htail fun x hx => ?_⟩
    · rcases hhead d hd with h | h | h
      · exact .inl h
      · exact .inr (.inl (hdone d h))
      · exact .inr ((habove d h).symm)
    · rcases List.mem_cons.1 hx with rfl | hx
      · exact .inl List.mem_cons_self
      · exact (habove x hx).imp (List.mem_cons_of_mem _) id

/-- A node whose dependencies have all been looked at is left: it is explored from then on. -/
theorem Walking.leave {unexplored : KeyMap String (List String)} {node : String} {rest : List Frame}
    (h : Walking edges unexplored ((node, []) :: rest)) : Walking edges unexplored rest := by
  obtain ⟨hnode, hnodup⟩ := List.nodup_cons.1 h.nodup
  obtain ⟨hhead, htail⟩ := h.looked
  have hgrow : ∀ x, Explored unexplored ((node, []) :: rest) x → Explored unexplored rest x :=
    fun x hx => ⟨hx.1, fun hm => hx.2 (List.mem_cons_of_mem _ hm)⟩
  have hself : Explored unexplored rest node := ⟨h.entered node List.mem_cons_self, hnode⟩
  refine ⟨h.edges_eq, hnodup, fun x hx => h.entered x (List.mem_cons_of_mem _ hx), ?_, ?_⟩
  · intro x hx d hd
    by_cases hxn : x = node
    · subst hxn
      rcases hhead d hd with h | h | h
      · simp at h
      · exact hgrow d h
      · simp at h
    · exact hgrow d (h.closed x ⟨hx.1, by simpa [hxn] using hx.2⟩ d hd)
  · refine htail.mono hgrow fun x hx => .inr ?_
    obtain rfl : x = node := by simpa using hx
    exact hself

/-- A dependency that is explored, or has not been entered into the graph, is passed over. -/
theorem Walking.pass {unexplored : KeyMap String (List String)} {node d : String} {ds : List String}
    {rest : List Frame} (h : Walking edges unexplored ((node, d :: ds) :: rest))
    (hd : Explored unexplored ((node, d :: ds) :: rest) d) :
    Walking edges unexplored ((node, ds) :: rest) := by
  obtain ⟨hhead, htail⟩ := h.looked
  refine ⟨h.edges_eq, h.nodup, h.entered, h.closed, fun e he => ?_, htail⟩
  rcases hhead e he with h | h
  · rcases List.mem_cons.1 h with rfl | h
    · exact .inr (.inl hd)
    · exact .inl h
  · exact .inr h

/-- Entering takes a node off the list and puts it on the path, so nothing else is explored. -/
theorem explored_enter {unexplored : KeyMap String (List String)} {node d : String}
    {ds below : List String} {rest : List Frame}
    (hbelow : KeyMap.find? unexplored d = some below) (x : String) :
    Explored (KeyMap.erase unexplored d) ((d, below) :: (node, ds) :: rest) x ↔
      Explored unexplored ((node, d :: ds) :: rest) x := by
  simp only [Explored, KeyMap.find?_erase, List.map_cons, List.mem_cons, not_or]
  by_cases hx : d = x
  · subst hx; simp [hbelow]
  · simp [hx, Ne.symm hx]

/-- A dependency that is unexplored is entered. -/
theorem Walking.enter {unexplored : KeyMap String (List String)} {node d : String}
    {ds below : List String} {rest : List Frame}
    (h : Walking edges unexplored ((node, d :: ds) :: rest))
    (hfresh : d ∉ ((node, d :: ds) :: rest).map (·.1))
    (hbelow : KeyMap.find? unexplored d = some below) :
    Walking edges (KeyMap.erase unexplored d) ((d, below) :: (node, ds) :: rest) := by
  obtain ⟨hhead, htail⟩ := h.looked
  have hsame : ∀ x, Explored (KeyMap.erase unexplored d) ((d, below) :: (node, ds) :: rest) x ↔
      Explored unexplored ((node, d :: ds) :: rest) x := explored_enter hbelow
  refine ⟨fun x ds' hx => ?edges_eq, List.nodup_cons.2 ⟨hfresh, h.nodup⟩, fun x hx => ?entered,
    ?closed, ?head, ?mem, ?tail⟩
  case edges_eq =>
    rw [KeyMap.find?_erase] at hx
    split at hx
    · simp at hx
    · exact h.edges_eq x ds' hx
  case entered =>
    rw [KeyMap.find?_erase]
    split
    · rfl
    · next hne =>
      rcases List.mem_cons.1 hx with hx | hx
      · exact absurd hx.symm hne
      · exact h.entered x hx
  case closed =>
    intro x hx e he
    exact (hsame e).2 (h.closed x ((hsame x).1 hx) e he)
  case head =>
    intro e he
    exact .inl (h.edges_eq d below hbelow ▸ he)
  -- What the node leads to is explored, or still to be looked at, or the new node.
  case mem =>
    intro e he
    rcases hhead e he with h | h | h
    · rcases List.mem_cons.1 h with rfl | h
      · exact .inr (.inr List.mem_cons_self)
      · exact .inl h
    · exact .inr (.inl ((hsame e).2 h))
    · simp at h
  case tail =>
    exact htail.mono (fun x hx => (hsame x).2 hx) fun x hx =>
      .inl (by simpa using .inl (by simpa using hx))

/-! ## The path -/

/-- The walk goes along dependencies, and what remains to be looked at are dependencies. -/
structure Following (edges : String → List String) (path : List Frame) : Prop where
  chain : (path.map (·.1)).IsChain fun a b => a ∈ edges b
  remaining : ∀ frame ∈ path, ∀ d ∈ frame.2, d ∈ edges frame.1

theorem Following.leave {frame : Frame} {rest : List Frame}
    (h : Following edges (frame :: rest)) : Following edges rest :=
  ⟨(List.isChain_cons.1 h.chain).2, fun f hf => h.remaining f (List.mem_cons_of_mem _ hf)⟩

theorem Following.pass {node d : String} {ds : List String} {rest : List Frame}
    (h : Following edges ((node, d :: ds) :: rest)) : Following edges ((node, ds) :: rest) := by
  refine ⟨h.chain, List.forall_mem_cons.2 ⟨fun e he => ?_, h.leave.remaining⟩⟩
  exact h.remaining _ List.mem_cons_self e (List.mem_cons_of_mem _ he)

theorem Following.enter {node d : String} {ds : List String} {rest : List Frame}
    (h : Following edges ((node, d :: ds) :: rest)) :
    Following edges ((d, edges d) :: (node, ds) :: rest) := by
  have hd : d ∈ edges node := h.remaining _ List.mem_cons_self d List.mem_cons_self
  exact ⟨List.isChain_cons_cons.2 ⟨hd, h.chain⟩,
    List.forall_mem_cons.2 ⟨fun _ he => he, h.pass.remaining⟩⟩

theorem takeWhile_ne_append {d : String} {later : List String} (h : d ∉ later)
    (earlier : List String) : (later ++ d :: earlier).takeWhile (· ≠ d) = later := by
  have hother : ∀ a ∈ later, decide (a ≠ d) = true := fun a ha =>
    decide_eq_true fun he => h (he ▸ ha)
  rw [List.takeWhile_append_of_pos hother]
  simp

/-- A dependency that lies on the path closes the walk. -/
theorem Following.chain_close {node d : String} {ds later earlier : List String}
    {rest : List Frame} (h : Following edges ((node, d :: ds) :: rest))
    (hsplit : node :: rest.map (·.1) = later ++ d :: earlier) :
    (d :: later.reverse ++ [d]).IsChain fun a b => b ∈ edges a := by
  have hchain := h.chain
  have hnode : d ∈ edges node := h.remaining _ List.mem_cons_self d List.mem_cons_self
  rw [List.map_cons, hsplit] at hchain
  have hback : ((later ++ [d]).reverse).IsChain fun a b => b ∈ edges a :=
    List.isChain_reverse.2 (List.isChain_split.1 hchain).1
  cases later with
  | nil =>
    obtain ⟨rfl, -⟩ : node = d ∧ _ := by simpa using hsplit
    exact List.isChain_pair.2 hnode
  | cons a later =>
    obtain ⟨rfl, -⟩ : node = a ∧ _ := by simpa using hsplit
    have heq : d :: (node :: later).reverse ++ [d] =
        (d :: later.reverse) ++ node :: [d] := by simp
    rw [heq, List.isChain_append_cons_cons]
    exact ⟨by simpa using hback, hnode, .singleton d⟩

/-! ## Ranks of what has been explored -/

/-- Under some ranking the dependencies of what has been explored have smaller ranks. -/
def Layered (edges : String → List String) (done : String → Prop) : Prop :=
  ∃ rank : String → Nat, ∀ x, done x → ∀ d ∈ edges x, rank d < rank x

theorem exists_rank_le (rank : String → Nat) (ds : List String) :
    ∃ top, ∀ d ∈ ds, rank d ≤ top := by
  induction ds with
  | nil => exact ⟨0, by simp⟩
  | cons d rest ih =>
    obtain ⟨top, htop⟩ := ih
    refine ⟨max (rank d) top, fun e he => ?_⟩
    rcases List.mem_cons.1 he with rfl | he
    · omega
    · have := htop e he
      omega

theorem Layered.anti {done done' : String → Prop} (h : Layered edges done)
    (hdone : ∀ x, done' x → done x) : Layered edges done' := by
  obtain ⟨rank, hrank⟩ := h
  exact ⟨rank, fun x hx => hrank x (hdone x hx)⟩

/-- A node whose dependencies have been explored is put above them. -/
theorem Layered.insert {done : String → Prop} (h : Layered edges done)
    (hclosed : ∀ x, done x → ∀ d ∈ edges x, done d) {node : String} (hnode : ¬ done node)
    (hdeps : ∀ d ∈ edges node, done d) : Layered edges fun x => x = node ∨ done x := by
  obtain ⟨rank, hrank⟩ := h
  obtain ⟨top, htop⟩ := exists_rank_le rank (edges node)
  -- The node itself is no dependency of what has been explored.
  have hne : ∀ d, done d → d ≠ node := fun d hd he => hnode (he ▸ hd)
  refine ⟨fun x => if x = node then top + 1 else rank x, fun x hx d hd => ?_⟩
  by_cases hxn : x = node
  · subst hxn
    have hle := htop d hd
    simp only [if_neg (hne d (hdeps d hd)), if_true]
    omega
  · have hx : done x := hx.resolve_left hxn
    simp only [if_neg (hne d (hclosed x hx d hd)), if_neg hxn]
    exact hrank x hx d hd

/-- Among nodes that are ranked and closed under dependencies no walk comes back. -/
theorem Layered.acyclic {done : String → Prop} (h : Layered edges done)
    (hclosed : ∀ x, done x → ∀ d ∈ edges x, done d) {x : String} (hx : done x) :
    ¬ TransGen (fun a b => b ∈ edges a) x x := by
  obtain ⟨rank, hrank⟩ := h
  have hlt : ∀ {y}, TransGen (fun a b => b ∈ edges a) x y → done y ∧ rank y < rank x := by
    intro y hy
    induction hy with
    | single hd => exact ⟨hclosed x hx _ hd, hrank x hx _ hd⟩
    | tail _ hd ih => exact ⟨hclosed _ ih.1 _ hd, Nat.lt_trans (hrank _ ih.1 _ hd) ih.2⟩
  exact fun hxx => Nat.lt_irrefl _ (hlt hxx).2

/-! ## Walks that have begun at a node -/

/-- What holds of a walk that has begun at a node. -/
structure Searching (edges : String → List String) (key : String) (w : Walk) : Prop where
  walking : Walking edges w.unexplored w.path
  following : Following edges w.path
  layered : Layered edges (Explored w.unexplored w.path)
  /-- The node has been entered. -/
  entered : KeyMap.find? w.unexplored key = none
  /-- The path begins at the node. -/
  first : ∀ x ∈ (w.path.map (·.1)).getLast?, x = key
  /-- The node leads to every other one on the path. -/
  reached : ∀ x ∈ w.path.map (·.1), ReflTransGen (fun a b => b ∈ edges a) key x

variable {key : String} {w w' : Walk}

/-- Every step of a walk keeps what holds of it. -/
theorem Searching.step (h : Searching edges key w) (hs : Walk.Step w w') :
    Searching edges key w' := by
  cases hs with
  | @leave unexplored node rest =>
    -- What is left has only dependencies that have been explored.
    have hfresh : ¬ Explored unexplored ((node, []) :: rest) node :=
      fun hx => hx.2 List.mem_cons_self
    have hdeps : ∀ d ∈ edges node, Explored unexplored ((node, []) :: rest) d := by
      intro d hd
      rcases h.walking.looked.1 d hd with hd | hd | hd
      · simp at hd
      · exact hd
      · simp at hd
    have hlayered := h.layered.insert h.walking.closed hfresh hdeps
    refine ⟨h.walking.leave, h.following.leave, hlayered.anti fun x hx => ?_, h.entered,
      fun x hx => ?_, fun x hx => h.reached x (List.mem_cons_of_mem _ hx)⟩
    · by_cases hxn : x = node
      · exact .inl hxn
      · exact .inr ⟨hx.1, by simpa [hxn] using hx.2⟩
    · refine h.first x ?_
      rw [List.map_cons, List.getLast?_cons, hx]
      rfl
  | @enter unexplored node d ds below rest hfresh hbelow =>
    have hbelow' : below = edges d := h.walking.edges_eq d below hbelow
    have hnode : d ∈ edges node := h.following.remaining _ List.mem_cons_self d List.mem_cons_self
    have hfollowing := h.following.enter
    rw [← hbelow'] at hfollowing
    refine ⟨h.walking.enter hfresh hbelow, hfollowing,
      h.layered.anti fun x hx => (explored_enter hbelow x).1 hx, ?_, fun x hx => ?_,
      fun x hx => ?_⟩
    · rw [KeyMap.find?_erase]
      split
      · rfl
      · exact h.entered
    · refine h.first x ?_
      rw [List.map_cons, List.map_cons, List.getLast?_cons_cons] at hx
      exact hx
    · rcases List.mem_cons.1 hx with rfl | hx
      · exact (h.reached node List.mem_cons_self).tail hnode
      · exact h.reached x hx
  | pass hfresh hbelow =>
    exact ⟨h.walking.pass ⟨hbelow, hfresh⟩, h.following.pass, h.layered, h.entered, h.first,
      h.reached⟩

/-- If the walk ends without a cycle, the node leads to none. -/
theorem Searching.acyclic (h : Searching edges key w)
    (hnone : findCycle? w.unexplored w.path = none) {c : String}
    (hc : ReflTransGen (fun a b => b ∈ edges a) key c) :
    ¬ TransGen (fun a b => b ∈ edges a) c c := by
  obtain ⟨w', hw', hends⟩ := Walk.exists_ended (fun hs hw => hw.step hs) h
  rw [hnone] at hends
  cases hends with
  | @through unexplored =>
    -- Nothing is on the path any more, so whatever the node leads to has been explored.
    have hkey : Explored unexplored [] key := ⟨hw'.entered, by simp⟩
    have hdone : Explored unexplored [] c := by
      induction hc with
      | refl => exact hkey
      | tail _ hd ih => exact hw'.walking.closed _ ih _ hd
    exact hw'.layered.acyclic hw'.walking.closed hdone

/-- If the walk ends with a cycle, this goes along dependencies, passes no node twice, and is one
that the node leads to. The node does not lie between its two ends. -/
theorem Searching.exists_cycle (h : Searching edges key w) {cycle : List String}
    (hsome : findCycle? w.unexplored w.path = some cycle) :
    ∃ c middle, cycle = c :: middle ++ [c] ∧ (c :: middle).Nodup ∧ key ∉ middle ∧
      cycle.IsChain (fun a b => b ∈ edges a) ∧
      ReflTransGen (fun a b => b ∈ edges a) key c := by
  obtain ⟨w', hw', hends⟩ := Walk.exists_ended (fun hs hw => hw.step hs) h
  rw [hsome] at hends
  cases hends with
  | @closed unexplored node c ds rest hmem =>
    have hnodup := hw'.walking.nodup
    have hfirst := hw'.first
    rw [List.map_cons] at hnodup hfirst
    -- The path is split where it has met the node for the first time.
    obtain ⟨later, earlier, hsplit, hlater⟩ := List.eq_append_cons_of_mem hmem
    have htake : (node :: rest.map (·.1)).takeWhile (· ≠ c) = later := by
      rw [hsplit, takeWhile_ne_append hlater]
    rw [hsplit] at hnodup hfirst
    obtain ⟨hnodup, -, hapart⟩ := List.nodup_append.1 hnodup
    rw [htake]
    refine ⟨c, later.reverse, rfl, ?_, ?_, hw'.following.chain_close hsplit,
      hw'.reached c hmem⟩
    · rw [List.nodup_cons, List.mem_reverse, (List.reverse_perm later).nodup_iff]
      exact ⟨hlater, hnodup⟩
    · -- The first node of the path does not stand in its later part.
      have hkey : key ∈ c :: earlier := by
        have hlast : ∃ x, (later ++ c :: earlier).getLast? = some x ∧ x ∈ c :: earlier := by
          rw [List.getLast?_append_of_ne_nil _ (List.cons_ne_nil _ _), List.getLast?_cons]
          exact ⟨_, rfl, List.mem_of_getLast? List.getLast?_cons⟩
        obtain ⟨x, hx, hmem⟩ := hlast
        exact hfirst x hx ▸ hmem
      rw [List.mem_reverse]
      exact fun hmiddle => hapart key hmiddle key hkey rfl

end LayeredAccess.DependencyGraph
