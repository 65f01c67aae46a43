import Aftermath.Proofs.Given

/-! How many subscriptions and sessions a hub has. Only `subscribe` makes a subscription and only
`openSession` a session; none is ever removed. -/

namespace Aftermath.Hub

def size (h : Hub) : Nat × Nat := (h.subs.length, h.sessions.length)

theorem size_eq_given (h : Hub) : h.size = (h.given.subs.length, h.given.sessions.length) := by
  simp [size, given]

theorem size_of_given {h h' : Hub} (hg : h'.given = h.given) : h'.size = h.size := by
  rw [size_eq_given, size_eq_given, hg]

section
variable (h : Hub) (i : SessionId)

theorem size_subscribe (key : Key) (kind : Kind) :
    (h.subscribe i key kind).size = (h.subs.length + 1, h.sessions.length) := by
  rw [size_eq_given, given_subscribe]
  simp [given]

theorem subs_length_lt_subscribe (key : Key) (kind : Kind) :
    h.subs.length < (h.subscribe i key kind).subs.length := by
  have hs : (h.subscribe i key kind).subs.length = h.subs.length + 1 :=
    congrArg Prod.fst (size_subscribe h i key kind)
  rw [hs]; exact Nat.lt_succ_self _

end

section
variable {h h' : Hub} {m : Move}

/-- The hub after a move has as many subscriptions and sessions, or one more of one sort. -/
theorem size_move (hm : Moved h m h') :
    h'.size = h.size ∨
      (∃ i rest key kind, h.stack = .configuring i :: rest ∧ h' = h.subscribe i key kind) ∨
      (∃ token modal, h' = { h with sessions := h.sessions ++ [{ token, modal }] }) := by
  cases hm
  case subscribe i rest key kind hst => exact .inr (.inl ⟨i, rest, key, kind, hst, rfl⟩)
  case openSession token modal => exact .inr (.inr ⟨token, modal, rfl⟩)
  case pass | newToken | newModal => exact .inl rfl
  case handleWith | addHook | defaultTimeout => exact .inl (by simp [size])
  case timeoutAfter | timeoutWith =>
    left
    rw [size_eq_given, given_setTimeout]
    simp [given, size]
  all_goals exact .inl (size_of_given (by simp))

theorem subs_length_subscribe (h : Hub) (i : SessionId) (key : Key) (kind : Kind) :
    (h.subscribe i key kind).subs.length = h.subs.length + 1 :=
  congrArg Prod.fst (size_subscribe h i key kind)

theorem subs_length_le (hm : Moved h m h') : h.subs.length ≤ h'.subs.length := by
  rcases size_move hm with hs | ⟨_, _, _, _, -, rfl⟩ | ⟨_, _, rfl⟩
  · exact Nat.le_of_eq (congrArg Prod.fst hs).symm
  · rw [subs_length_subscribe]; exact Nat.le_succ _
  · exact Nat.le_refl _

theorem sessions_length_le (hm : Moved h m h') : h.sessions.length ≤ h'.sessions.length := by
  rcases size_move hm with hs | ⟨_, _, _, _, -, rfl⟩ | ⟨_, _, rfl⟩
  · exact Nat.le_of_eq (congrArg Prod.snd hs).symm
  · exact Nat.le_of_eq (congrArg Prod.snd (size_subscribe ..)).symm
  · simp

/-- A subscription that is there after a move was there before, or the move has made it. -/
theorem old_or_new (hm : Moved h m h') {s : SubId} (hs : s < h'.subs.length) :
    s < h.subs.length ∨ s = h.subs.length ∧
      ∃ i rest key kind, h.stack = .configuring i :: rest ∧ h' = h.subscribe i key kind := by
  rcases size_move hm with hz | ⟨i, rest, key, kind, hst, rfl⟩ | ⟨_, _, rfl⟩
  · exact .inl (Nat.lt_of_lt_of_eq hs (congrArg Prod.fst hz))
  · rw [subs_length_subscribe] at hs
    rcases Nat.lt_succ_iff_lt_or_eq.1 hs with hs | hs
    · exact .inl hs
    · exact .inr ⟨hs, i, rest, key, kind, hst, rfl⟩
  · exact .inl hs

end

/-- Two counts that differ at one place only. -/
theorem countP_range_of_one {p q : Nat → Bool} {n : Nat} (hi : i < n) (hp : p i) (hq : q i = false)
    (hpq : ∀ j, j ≠ i → p j = q j) : (List.range n).countP p = (List.range n).countP q + 1 := by
  induction n with
  | zero => exact absurd hi (Nat.not_lt_zero i)
  | succ n ih =>
    rw [List.range_succ, List.countP_append, List.countP_append, List.countP_singleton,
      List.countP_singleton]
    rcases Nat.lt_or_eq_of_le (Nat.le_of_lt_succ hi) with hlt | rfl
    · rw [ih hlt, hpq n (Nat.ne_of_gt hlt)]
      omega
    · have heq : (List.range i).countP p = (List.range i).countP q := by
        apply List.countP_congr
        intro j hj
        rw [hpq j (Nat.ne_of_lt (List.mem_range.1 hj))]
      rw [heq, hp, hq]
      rfl

end Aftermath.Hub
