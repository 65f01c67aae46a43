import Aftermath.Proofs.Restack

/-! Every hub that can be reached is wired, so that every move of it is a turn of each session and a
shift of each subscription. What turns and shifts never change is collected here. -/

namespace Aftermath.Hub

section
variable {h h' : Hub} {m : Move} {s : SubId} {sid : SessionId} {v w : SubView} {x y : View}

/-- What a subscription is for never changes. -/
theorem Shift.fixed (hs : Shift h h' s v w) (hne : s ≠ h.subs.length) :
    w.self.home = v.self.home ∧ w.self.key = v.self.key ∧ w.self.kind = v.self.kind := by
  cases hs <;> first | exact ⟨rfl, rfl, rfl⟩ | exact absurd ‹_› hne

/-- A subscription that has left `active` never comes back. -/
theorem Shift.inactive (hs : Shift h h' s v w) (hne : s ≠ h.subs.length)
    (ha : v.self.isActive = false) : w.self.isActive = false := by
  cases hs
  case born he _ _ _ => exact absurd he hne
  case leaves hx _ _ => rw [ha] at hx; cases hx
  all_goals first | exact ha | rfl

theorem Turn.members_mono (ht : Turn h h' sid x y) : ∀ s ∈ x.self.members, s ∈ y.self.members := by
  cases ht
  case enrols | subscribes => exact fun s hs => List.mem_append_left _ hs
  case opens => exact fun s hs => hs
  case drives hd => cases hd <;> exact fun s hs => hs
  all_goals exact fun s hs => hs

theorem Turn.mem_members (ht : Turn h h' sid x y) (hle : h.subs.length ≤ h'.subs.length) :
    ∀ s ∈ y.self.members, s ∈ x.self.members ∨ s < h'.subs.length := by
  cases ht
  case enrols hs _ _ _ =>
    intro s hm
    rcases List.mem_append.1 hm with hm | hm
    · exact .inl hm
    · cases List.mem_singleton.1 hm; exact .inr (Nat.lt_of_lt_of_le hs hle)
  case subscribes hs =>
    intro s hm
    rcases List.mem_append.1 hm with hm | hm
    · exact .inl hm
    · cases List.mem_singleton.1 hm; exact .inr hs
  case drives hd => cases hd <;> exact fun s hs => .inl hs
  all_goals exact fun s hs => .inl hs

/-- A move keeps what each subscription is for. -/
theorem sub_fixed (hw : Wired h) (hm : Moved h m h') (hs : s < h.subs.length) :
    (h'.sub s).home = (h.sub s).home ∧ (h'.sub s).key = (h.sub s).key ∧
      (h'.sub s).kind = (h.sub s).kind :=
  (move_shift hw hm s).fixed (Nat.ne_of_lt hs)

theorem wired_init (settings : Settings) : Wired { settings } where
  homes s hs := absurd hs (Nat.not_lt_zero s)
  members i s hs := by cases hs
  own s hs := absurd hs (Nat.not_lt_zero s)
  laid := trivial

theorem wired_move (hw : Wired h) (hm : Moved h m h') : Wired h' where
  homes s hs := by
    refine Nat.lt_of_lt_of_le ?_ (sessions_length_le hm)
    rcases old_or_new hm hs with hs | ⟨rfl, i, rest, key, kind, hst, rfl⟩
    · rw [(sub_fixed hw hm hs).1]; exact hw.homes s hs
    · rw [home_subscribe]; exact (hst ▸ hw.laid).1
  members i s hs := by
    have ht := move_turn hw hm i
    rcases ht.mem_members (subs_length_le hm) s hs with hs | hs
    · exact Nat.lt_of_lt_of_le (hw.members i s hs) (subs_length_le hm)
    · exact hs
  own s hs := by
    rcases old_or_new hm hs with hs | ⟨rfl, i, rest, key, kind, hst, rfl⟩
    · rw [(sub_fixed hw hm hs).1]
      exact (move_turn hw hm _).members_mono s (hw.own s hs)
    · rw [home_subscribe]; exact mem_subscribe (hst ▸ hw.laid).1 key kind
  laid := by
    obtain ⟨old, new, rest, hr⟩ := move_restacks hw hm
    have hl := hw.laid.mono (subs_length_le hm) (sessions_length_le hm) fun s hs =>
      (sub_fixed hw hm hs).1
    rw [hr.before] at hl
    rw [hr.after]
    exact hr.laid hl.append_right

/-- Every hub that can be reached is wired. -/
theorem Reachable.wired (hr : Reachable h) : Wired h := by
  induction hr using Reachable.induct with
  | init settings => exact wired_init settings
  | move a b m ha hm ih => exact wired_move ih (moved_of_move? hm)

/-- A hook and a post lie on the frame of their session. -/
theorem Reachable.driving_below (hr : Reachable h) {f : Frame} {rest : List Frame}
    (hst : h.stack = f :: rest) (hf : f = .posting sid ∨ ∃ k arg, f = .hook sid k arg) :
    ∃ l, h.pop.stack = .driving sid :: l := by
  have hl := hr.wired.laid
  rw [hst] at hl
  have hhead : rest.head? = some (.driving sid) := by
    rcases hf with rfl | ⟨k, arg, rfl⟩
    · exact hl.1.2
    · exact hl.1.2
  obtain ⟨l, rfl⟩ := List.head?_eq_some_iff.1 hhead
  exact ⟨l, stack_pop hst⟩

end

end Aftermath.Hub
