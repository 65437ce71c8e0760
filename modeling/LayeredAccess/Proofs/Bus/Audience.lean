/-
  LayeredAccess.Proofs.Bus.Audience

  Who listens on a channel, told by the history of a bus alone: the handlers
  that were subscribed to it and have not been unsubscribed since (`audience`).

  The table of the bus follows its history (`Follows`). From that come the
  answers of `unsubscribe`, which are right once for every subscription, and the
  counts that the bus keeps.
-/
import LayeredAccess.Bus.Basic
import LayeredAccess.Proofs.KeyMap
import Mathlib.Data.List.Nodup

namespace LayeredAccess.Bus

/-! ## Histories -/

/-- Something that happens on a bus. -/
inductive Entry (η : Type) where
  | subscribed (id : SubscriptionId) (channel : Channel) (handler : η)
  /-- A call to end a subscription, with its answer. -/
  | unsubscribed (id : SubscriptionId) (live : Bool)
  /-- A call to publish begins. -/
  | published (action : Action)
  /-- A handler begins to run. -/
  | started (handler : η) (action : Action)
  /-- The handler that ran last is done. -/
  | returned
  /-- The call to publish is done. -/
  | delivered

/-- What has happened on a bus, oldest first. -/
abbrev History (η : Type) := List (Entry η)

variable {η : Type}

namespace Entry

/-- Is the entry a call to end a subscription? -/
def ends (id : SubscriptionId) : Entry η → Bool
  | unsubscribed i _ => decide (i = id)
  | _ => false

/-- The subscription that the entry makes. -/
def subscribed? : Entry η → Option SubscriptionId
  | subscribed id _ _ => some id
  | _ => none

/-- The entry concerns a delivery and not the table. -/
def Passing : Entry η → Prop
  | subscribed .. | unsubscribed .. => False
  | published _ | started .. | returned | delivered => True

end Entry

/-- The subscriptions that were made on a channel and have not been ended since, oldest first. -/
def audience (channel : Channel) : History η → List (Subscription η)
  | [] => []
  | .subscribed id c handler :: rest =>
    if c = channel ∧ !rest.any (Entry.ends id) then ⟨id, handler⟩ :: audience channel rest
    else audience channel rest
  | _ :: rest => audience channel rest

/-! ### Histories that go on -/

variable (history : History η) (c c' : Channel) (id : SubscriptionId) (h : η)

theorem audience_subscribed :
    audience c (history ++ [.subscribed id c' h]) =
      audience c history ++ if c' = c then [⟨id, h⟩] else [] := by
  induction history with
  | nil => simp [audience]
  | cons e rest ih =>
    cases e with
    | subscribed i ch k =>
      simp only [List.cons_append, audience, ih, List.any_append, List.any_cons, List.any_nil,
        Entry.ends, Bool.or_false]
      split <;> rfl
    | unsubscribed | published | started | returned | delivered => exact ih

theorem audience_unsubscribed (live : Bool) :
    audience c (history ++ [.unsubscribed id live]) = without id (audience c history) := by
  induction history with
  | nil => rfl
  | cons e rest ih =>
    cases e with
    | subscribed i ch k =>
      simp only [List.cons_append, audience, ih, List.any_append, List.any_cons, List.any_nil,
        Entry.ends, Bool.or_false, Bool.not_or]
      -- The subscription was live so far, and stays live unless it is the one that ends.
      by_cases hlive : ch = c ∧ (!rest.any (Entry.ends i)) = true
      · rw [if_pos hlive]
        simp only [without, List.filter_cons]
        by_cases hi : id = i
        · rw [if_neg (by simp [hi]), if_neg (by simp [hi])]
        · rw [if_pos (by simpa [hi] using hlive), if_pos (by simpa using Ne.symm hi)]
      · rw [if_neg hlive, if_neg fun h => hlive ⟨h.1, (Bool.and_eq_true _ _ ▸ h.2).1⟩]
    | unsubscribed | published | started | returned | delivered => exact ih

theorem audience_passing {e : Entry η} (he : e.Passing) :
    audience c (history ++ [e]) = audience c history := by
  induction history with
  | nil => cases e <;> first | rfl | exact he.elim
  | cons first rest ih =>
    cases first with
    | subscribed i ch k =>
      have hends : e.ends i = false := by
        cases e <;> first | rfl | exact he.elim
      simp only [List.cons_append, audience, ih, List.any_append, List.any_cons, List.any_nil,
        hends, Bool.or_false]
    | unsubscribed | published | started | returned | delivered => exact ih

/-! ### Subscriptions of a history -/

/-- The subscriptions that a history has made, oldest first. -/
def made (history : History η) : List SubscriptionId := history.filterMap Entry.subscribed?

/-- A subscription is live: it is in the audience of a channel. -/
def IsLive (history : History η) (id : SubscriptionId) : Prop :=
  ∃ c, ∃ s ∈ audience c history, s.id = id

/-- The calls to end a subscription are answered right: it was live if it was made before and no
earlier call has ended it. -/
def Answered (history : History η) : Prop :=
  ∀ before id live after, history = before ++ .unsubscribed id live :: after →
    (live = true ↔ id ∈ made before ∧ .unsubscribed id true ∉ before)

theorem made_concat (e : Entry η) :
    made (history ++ [e]) = made history ++ e.subscribed?.toList := by
  rw [made, List.filterMap_append]
  cases e <;> rfl

theorem isLive_subscribed (i : SubscriptionId) :
    IsLive (history ++ [.subscribed id c h]) i ↔ IsLive history i ∨ i = id := by
  constructor
  · rintro ⟨d, s, hs, rfl⟩
    rw [audience_subscribed, List.mem_append] at hs
    rcases hs with hs | hs
    · exact .inl ⟨d, s, hs, rfl⟩
    · split at hs
      · exact .inr (congrArg Subscription.id (List.mem_singleton.1 hs))
      · simp at hs
  · rintro (⟨d, s, hs, rfl⟩ | rfl)
    · exact ⟨d, s, by rw [audience_subscribed]; exact List.mem_append_left _ hs, rfl⟩
    · exact ⟨c, ⟨i, h⟩, by rw [audience_subscribed, if_pos rfl]; simp, rfl⟩

theorem isLive_unsubscribed (live : Bool) (i : SubscriptionId) :
    IsLive (history ++ [.unsubscribed id live]) i ↔ IsLive history i ∧ i ≠ id := by
  constructor
  · rintro ⟨d, s, hs, rfl⟩
    rw [audience_unsubscribed, without, List.mem_filter] at hs
    exact ⟨⟨d, s, hs.1, rfl⟩, by simpa using hs.2⟩
  · rintro ⟨⟨d, s, hs, rfl⟩, hne⟩
    refine ⟨d, s, ?_, rfl⟩
    rw [audience_unsubscribed, without, List.mem_filter]
    exact ⟨hs, by simpa using hne⟩

theorem isLive_passing {e : Entry η} (he : e.Passing) (i : SubscriptionId) :
    IsLive (history ++ [e]) i ↔ IsLive history i := by
  simp only [IsLive, audience_passing _ _ he]

/-- An answer that is right is one more right answer. -/
theorem Answered.concat {history : History η} {e : Entry η} (hanswered : Answered history)
    (he : ∀ id live, e = .unsubscribed id live →
      (live = true ↔ id ∈ made history ∧ .unsubscribed id true ∉ history)) :
    Answered (history ++ [e]) := by
  intro before id live after hsplit
  rcases List.eq_nil_or_concat after with rfl | ⟨earlier, last, rfl⟩
  · obtain ⟨rfl, hlast⟩ := List.append_inj' hsplit rfl
    exact he id live (List.head_eq_of_cons_eq hlast)
  · rw [List.concat_eq_append, ← List.cons_append, ← List.append_assoc] at hsplit
    obtain ⟨rfl, -⟩ := List.append_inj' hsplit rfl
    exact hanswered before id live earlier rfl

/-! ## The table -/

/-- The table of a bus is what its history makes of it. -/
structure Follows (b : Bus η) (history : History η) : Prop where
  /-- Each channel has its audience. -/
  subscriptions_eq : ∀ c, b.subscriptions c = audience c history
  nodup : b.channels.Nodup
  /-- No channel is kept without a subscription. -/
  nonempty : ∀ e ∈ b.listeners, e.2 ≠ []
  /-- The next number is new. -/
  number_lt : ∀ id ∈ made history, id.number < b.nextNumber
  made_nodup : (made history).Nodup
  live_iff : ∀ id, IsLive history id ↔ id ∈ made history ∧ .unsubscribed id true ∉ history
  made_of_ended : ∀ id, .unsubscribed id true ∈ history → id ∈ made history
  answered : Answered history

theorem subscriptions_subscribe (b : Bus η) :
    (b.subscribe c h).2.subscriptions c' =
      b.subscriptions c' ++ if c = c' then [⟨⟨b.nextNumber⟩, h⟩] else [] := by
  simp only [subscribe, subscriptions]
  split
  · next hc => exact KeyMap.getD_modify_concat hc c' _
  · next hc => exact KeyMap.getD_append_singleton hc c' _

theorem channels_subscribe (b : Bus η) : (b.subscribe c h).2.channels =
    b.channels ++ if KeyMap.contains b.listeners c then [] else [c] := by
  simp only [subscribe, channels]
  split
  · rw [KeyMap.keys_modify, List.append_nil]
  · rw [KeyMap.keys, List.map_append]
    rfl

theorem channels_unsubscribe (b : Bus η) : (b.unsubscribe id).2.channels.Sublist b.channels := by
  have hkept : (b.unsubscribe id).2.channels.Sublist
      (KeyMap.keys (KeyMap.mapValues (without id) b.listeners)) := List.filter_sublist.map _
  rwa [KeyMap.keys, KeyMap.mapValues, List.map_map] at hkept

theorem subscriptions_unsubscribe {b : Bus η} (hnodup : b.channels.Nodup) :
    (b.unsubscribe id).2.subscriptions c = without id (b.subscriptions c) := by
  have hkeys : (KeyMap.keys (KeyMap.mapValues (without id) b.listeners)).Nodup := by
    rwa [KeyMap.keys, KeyMap.mapValues, List.map_map]
  rw [subscriptions, subscriptions, unsubscribe, KeyMap.find?_filter_of_nodup hkeys,
    KeyMap.find?_mapValues]
  cases KeyMap.find? b.listeners c with
  | none => rfl
  | some found =>
    rw [Option.map_some, Option.filter_some, Option.getD_some]
    cases hkept : without id found with
    | nil => rfl
    | cons s rest => rfl

/-- A table that follows a history tells a subscription that is live. -/
theorem unsubscribe_eq_true_iff {b : Bus η} (hnodup : b.channels.Nodup) :
    (b.unsubscribe id).1 = true ↔ ∃ c, ∃ s ∈ b.subscriptions c, s.id = id := by
  -- A list gets shorter without a subscription exactly if the subscription is in it.
  have hchanged : ∀ found : List (Subscription η),
      (without id found).length ≠ found.length ↔ ∃ s ∈ found, s.id = id := by
    intro found
    rw [without, Ne, List.length_filter_eq_length_iff]
    simp
  rw [unsubscribe, List.any_eq_true]
  constructor
  · rintro ⟨⟨c, found⟩, hmem, hlength⟩
    refine ⟨c, ?_⟩
    rw [subscriptions, KeyMap.find?_of_nodup hnodup hmem]
    exact (hchanged found).1 (of_decide_eq_true hlength)
  · rintro ⟨c, s, hs, hid⟩
    rw [subscriptions] at hs
    cases hfound : KeyMap.find? b.listeners c with
    | none => rw [hfound] at hs; simp at hs
    | some found =>
      rw [hfound] at hs
      exact ⟨(c, found), KeyMap.mem_of_find? hfound,
        decide_eq_true ((hchanged found).2 ⟨s, hs, hid⟩)⟩

/-! ### What each call does -/

theorem follows_empty : Follows ({} : Bus η) [] where
  subscriptions_eq _ := rfl
  nodup := List.nodup_nil
  nonempty _ he := nomatch he
  number_lt _ hid := nomatch hid
  made_nodup := List.nodup_nil
  live_iff id := by simp [IsLive, audience, made]
  made_of_ended _ hid := nomatch hid
  answered before id live after h := by simp at h

namespace Follows

variable {b : Bus η} {history : History η}

theorem mem_channels_iff (hb : Follows b history) : c ∈ b.channels ↔ audience c history ≠ [] := by
  rw [← hb.subscriptions_eq, channels, KeyMap.mem_keys_iff, subscriptions]
  cases hfound : KeyMap.find? b.listeners c with
  | none => simp
  | some found => simpa using hb.nonempty _ (KeyMap.mem_of_find? hfound)

theorem unsubscribe_iff (hb : Follows b history) :
    (b.unsubscribe id).1 = true ↔ IsLive history id := by
  rw [unsubscribe_eq_true_iff id hb.nodup]
  simp only [IsLive, hb.subscriptions_eq]

/-- What only concerns a delivery leaves the table alone. -/
theorem pass (hb : Follows b history) {e : Entry η} (he : e.Passing) :
    Follows b (history ++ [e]) := by
  -- No subscription is made or ended by the entry.
  have hmade : made (history ++ [e]) = made history := by
    rw [made_concat]
    cases e <;> first | exact List.append_nil _ | exact he.elim
  have hended : ∀ i, .unsubscribed i true ∈ history ++ [e] ↔ .unsubscribed i true ∈ history := by
    intro i
    rw [List.mem_append, List.mem_singleton]
    refine or_iff_left fun heq => ?_
    rw [← heq] at he
    exact he
  exact { hb with
    subscriptions_eq := fun d => by
      rw [audience_passing _ _ he]
      exact hb.subscriptions_eq d
    number_lt := fun i hi => hb.number_lt i (hmade ▸ hi)
    made_nodup := hmade ▸ hb.made_nodup
    live_iff := fun i => by
      rw [isLive_passing _ he, hmade, hended]
      exact hb.live_iff i
    made_of_ended := fun i hi => hmade ▸ hb.made_of_ended i ((hended i).1 hi)
    answered := hb.answered.concat fun i live heq => by
      rw [heq] at he
      exact he.elim }

theorem subscribe (hb : Follows b history) :
    Follows (b.subscribe c h).2 (history ++ [.subscribed (b.subscribe c h).1 c h]) := by
  have hid : (b.subscribe c h).1 = ⟨b.nextNumber⟩ := rfl
  have hnew : ⟨b.nextNumber⟩ ∉ made history := fun hmem => Nat.lt_irrefl _ (hb.number_lt _ hmem)
  have hmade : made (history ++ [.subscribed ⟨b.nextNumber⟩ c h]) =
      made history ++ [⟨b.nextNumber⟩] := made_concat _ _
  have hended : ∀ i, .unsubscribed i true ∈ history ++ [.subscribed ⟨b.nextNumber⟩ c h] ↔
      .unsubscribed i true ∈ history := by
    intro i
    rw [List.mem_append, List.mem_singleton]
    exact or_iff_left fun heq => nomatch heq
  rw [hid]
  exact {
    subscriptions_eq := fun d => by
      rw [subscriptions_subscribe, audience_subscribed, hb.subscriptions_eq]
    nodup := by
      rw [channels_subscribe]
      split
      · rw [List.append_nil]
        exact hb.nodup
      · next hc =>
        rw [← List.concat_eq_append]
        exact List.Nodup.concat (fun hmem => hc ((KeyMap.mem_keys_iff _ _).1 hmem)) hb.nodup
    nonempty := fun e he => by
      simp only [Bus.subscribe] at he
      split at he
      · obtain ⟨e', he', rfl⟩ := List.mem_map.1 he
        split
        · simp
        · exact hb.nonempty e' he'
      · rcases List.mem_append.1 he with he | he
        · exact hb.nonempty e he
        · rw [List.mem_singleton.1 he]
          simp
    number_lt := fun i hi => by
      rw [hmade] at hi
      rcases List.mem_append.1 hi with hi | hi
      · exact Nat.lt_succ_of_lt (hb.number_lt i hi)
      · rw [List.mem_singleton.1 hi]
        exact Nat.lt_succ_self _
    made_nodup := by
      rw [hmade, ← List.concat_eq_append]
      exact List.Nodup.concat hnew hb.made_nodup
    live_iff := fun i => by
      rw [isLive_subscribed, hmade, hended, hb.live_iff, List.mem_append, List.mem_singleton]
      constructor
      · rintro (⟨hmem, hnot⟩ | rfl)
        · exact ⟨.inl hmem, hnot⟩
        -- Only subscriptions that have been made can have ended.
        · exact ⟨.inr rfl, fun hmem => hnew (hb.made_of_ended _ hmem)⟩
      · rintro ⟨hmem | rfl, hnot⟩
        · exact .inl ⟨hmem, hnot⟩
        · exact .inr rfl
    made_of_ended := fun i hi => by
      rw [hmade]
      exact List.mem_append_left _ (hb.made_of_ended i ((hended i).1 hi))
    answered := hb.answered.concat fun _ _ heq => nomatch heq }

theorem unsubscribe (hb : Follows b history) :
    Follows (b.unsubscribe id).2 (history ++ [.unsubscribed id (b.unsubscribe id).1]) := by
  have hanswer := hb.unsubscribe_iff id
  generalize hlive : (b.unsubscribe id).1 = live at hanswer
  have hmade : made (history ++ [.unsubscribed id live]) = made history := by
    rw [made_concat]
    exact List.append_nil _
  have hended : ∀ i, .unsubscribed i true ∈ history ++ [.unsubscribed id live] ↔
      .unsubscribed i true ∈ history ∨ i = id ∧ live = true := by
    intro i
    rw [List.mem_append, List.mem_singleton, Entry.unsubscribed.injEq, eq_comm (a := true)]
  exact {
    subscriptions_eq := fun d => by
      rw [subscriptions_unsubscribe _ _ hb.nodup, audience_unsubscribed, hb.subscriptions_eq]
    nodup := (channels_unsubscribe id b).nodup hb.nodup
    nonempty := fun e he => by simpa using (List.mem_filter.1 he).2
    number_lt := fun i hi => hb.number_lt i (hmade ▸ hi)
    made_nodup := hmade ▸ hb.made_nodup
    live_iff := fun i => by
      rw [isLive_unsubscribed, hmade, hended]
      constructor
      · rintro ⟨hi, hne⟩
        obtain ⟨hmem, hnot⟩ := (hb.live_iff i).1 hi
        exact ⟨hmem, fun h => h.elim hnot fun h => hne h.1⟩
      · rintro ⟨hmem, hnot⟩
        have hi : IsLive history i := (hb.live_iff i).2 ⟨hmem, fun h => hnot (.inl h)⟩
        exact ⟨hi, fun he => hnot (.inr ⟨he, hanswer.2 (he ▸ hi)⟩)⟩
    made_of_ended := fun i hi => by
      rw [hmade]
      rcases (hended i).1 hi with h | ⟨rfl, htrue⟩
      · exact hb.made_of_ended i h
      · exact ((hb.live_iff i).1 (hanswer.1 htrue)).1
    -- The answer is that of the history, since the table tells what is live.
    answered := hb.answered.concat fun i answer heq => by
      obtain ⟨rfl, rfl⟩ := Entry.unsubscribed.inj heq
      exact hanswer.trans (hb.live_iff id) }

end Follows

end LayeredAccess.Bus
