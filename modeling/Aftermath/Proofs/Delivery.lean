import Aftermath.Proofs.Verdict

/-! Events come from outside. What is about to claim a session was delivered to a subscription, so every
event that has decided a session is one of the deliveries of the run. -/

namespace Aftermath

def Frame.event? : Frame → Option (SubId × Envelope)
  | .settlingEvent s e => some (s, e)
  | _ => none

namespace Hub

def Uneventful (h h' : Hub) : Prop := ∀ f ∈ h'.stack, f ∈ h.stack ∨ f.event? = none

section
variable {h h' g : Hub} {i sid : SessionId} {s : SubId} {m : Move} {f : Frame} {rest : List Frame}

/-! ### Small changes of the stack -/

theorem Uneventful.of_eq (hs : h'.stack = h.stack) : Uneventful h h' := fun _ hf => .inl (hs ▸ hf)

theorem Uneventful.of_tail (hs : h'.stack = h.stack.tail) : Uneventful h h' := fun _ hf =>
  .inl (List.mem_of_mem_tail (hs ▸ hf))

theorem Uneventful.of_push (hs : h'.stack = f :: h.stack) (hf : f.event? = none) :
    Uneventful h h' := by
  intro g hg
  rw [hs] at hg
  rcases List.mem_cons.1 hg with rfl | hg
  · exact .inr hf
  · exact .inl hg

theorem Uneventful.trans (hg : Uneventful h g) (hs : Uneventful g h') : Uneventful h h' :=
  fun f hf => (hs f hf).elim (hg f) .inr

theorem uneventful_pop : Uneventful h h.pop := .of_tail rfl

theorem uneventful_release (c : Claim) : Uneventful h (h.release i c) := .of_push rfl rfl

theorem uneventful_finish (hf : f.event? = none) : Uneventful h (h.finish s f) := by
  intro g hg
  rw [stack_finish, List.mem_append, List.mem_map, List.mem_cons] at hg
  rcases hg with ⟨l, -, rfl⟩ | rfl | hg
  · exact .inr rfl
  · exact .inr hf
  · exact .inl hg

theorem uneventful_cancel : Uneventful h (h.cancel s) := by
  unfold cancel
  split
  · exact uneventful_finish (h := h.setState s .cancelled) rfl
  · exact .of_eq rfl

theorem uneventful_ring (n : Nat) : Uneventful h (h.ring s n) := by
  unfold ring; dsimp only
  split
  · exact .of_eq rfl
  · split
    · exact uneventful_finish (h := (h.onSub s _).setState s .timedOut) rfl
    · exact .of_eq rfl

theorem uneventful_register : Uneventful h (h.register i s) := by
  unfold register; dsimp only
  split
  · exact uneventful_cancel (h := h.onSession i _)
  · exact .of_eq rfl

theorem uneventful_releaseStep (l : List SubId) (n : Nat) :
    Uneventful h (h.pop.releaseStep i l n) := by
  refine uneventful_pop.trans ?_
  unfold releaseStep
  split
  · exact .of_eq (by split <;> rfl)
  · split
    · exact (Uneventful.of_push rfl rfl : Uneventful h.pop (h.pop.push _)).trans uneventful_cancel
    · exact .of_push rfl rfl

theorem uneventful_prepare : Uneventful h (h.prepare i) := by
  obtain ⟨k, c, -, -, hk, he⟩ := prepare_eq h i
  rw [he]
  exact .of_push (congrArg (_ :: ·) hk) rfl

theorem uneventful_enter : Uneventful h (h.enter i) := by
  have hpush : Uneventful h (h.pop.push (.driving i)) :=
    uneventful_pop.trans (.of_push (f := .driving i) rfl rfl)
  unfold enter; dsimp only
  split
  · exact uneventful_prepare
  · split
    · exact hpush.trans (uneventful_release (h := (h.pop.push (.driving i)).onSession i _) _)
    · split
      · exact hpush
      · exact hpush

theorem uneventful_drive (hi : i < h.sessions.length) : Uneventful h (h.drive i) := by
  have hd := driven_drive hi
  generalize hk : (h.drive i).stack = l at hd
  cases hd with
  | stays => exact .of_eq hk
  | releases | hooks | posts => exact .of_push hk rfl
  | leaves => exact .of_tail hk

/-- What an answer leaves of the stack. -/
theorem uneventful_of_answer (hst : h.stack = f :: rest)
    (hs : h'.stack = rest ∨ h'.stack = .releasing i (h.session i).members 0 :: rest ∨
      h'.stack = rest.tail) : Uneventful h h' := by
  intro g hg
  rw [hst]
  rcases hs with hs | hs | hs <;> rw [hs] at hg
  · exact .inl (List.mem_cons_of_mem _ hg)
  · rcases List.mem_cons.1 hg with rfl | hg
    · exact .inr rfl
    · exact .inl (List.mem_cons_of_mem _ hg)
  · exact .inl (List.mem_cons_of_mem _ (List.mem_of_mem_tail hg))

theorem uneventful_drop : Uneventful h (h.drop i) := by
  unfold drop; dsimp only
  split
  · exact (Uneventful.of_push rfl rfl : Uneventful h (h.push (.driving i))).trans
      (uneventful_release (h := (h.push (.driving i)).onSession i _) _)
  · exact .of_eq rfl

theorem uneventful_cancelAll : Uneventful h (h.cancelAll i) := by
  unfold cancelAll; dsimp only
  refine Uneventful.trans (.of_eq ?_) (uneventful_release _)
  split <;> rfl

theorem uneventful_subscribe (key : Key) (kind : Kind) : Uneventful h (h.subscribe i key kind) := by
  unfold subscribe; dsimp only
  exact (Uneventful.of_push rfl rfl : Uneventful h (Hub.push _ _)).trans uneventful_register

theorem uneventful_grant (l : LeaseId) : Uneventful h (h.pop.grant s l) := by
  refine uneventful_pop.trans ?_
  rcases stack_grant h.pop s l with hk | hk
  · exact .of_eq hk
  · exact .of_push hk rfl

/-! ### Moves -/

/-- An event is brought before a session only by its delivery. -/
theorem uneventful_or_deliver (hw : Wired h) (hm : Moved h m h') :
    Uneventful h h' ∨ ∃ s e, m = .deliver s e ∧ h' = h.deliver s e := by
  cases hm with
  | deliver => exact .inr ⟨_, _, rfl, rfl⟩
  | settleEvent => exact .inl (.of_tail (stack_settleEvent _ _ _))
  | settleTimeout => exact .inl (.of_tail (stack_settleTimeout _ _))
  | reportCancel | configured | unsubscribed => exact .inl (.of_tail rfl)
  | releaseStep => exact .inl (uneventful_releaseStep _ _)
  | enter => exact .inl uneventful_enter
  | drive hst => exact .inl (uneventful_drive (hw.session_lt hst rfl))
  | pass | newToken | newModal | openSession => exact .inl (.of_eq rfl)
  | configure => exact .inl uneventful_prepare
  | run => exact .inl (.of_push rfl rfl)
  | drop => exact .inl uneventful_drop
  | fail => exact .inl (.of_eq (stack_fail _ _ _))
  | cancel => exact .inl uneventful_cancel
  | ring => exact .inl (uneventful_ring _)
  | cancelAll => exact .inl uneventful_cancelAll
  | cancelToken => exact .inl (.of_eq (stack_cancelToken _))
  | register => exact .inl uneventful_register
  | handleWith | addHook | defaultTimeout => exact .inl (.of_eq rfl)
  | timeoutAfter | timeoutWith => exact .inl (.of_eq (stack_setTimeout _ _ _))
  | subscribe => exact .inl (uneventful_subscribe _ _)
  | granted => exact .inl (uneventful_grant _)
  | declined => exact .inl (.of_tail (stack_decline _ _ _))
  | hookReplied hst => exact .inl (uneventful_of_answer hst (stack_hookReplied _ hst (hw.session_lt hst rfl)))
  | postReplied hst => exact .inl (uneventful_of_answer hst (stack_postReplied _ hst (hw.session_lt hst rfl)))

/-- What is about to claim a session now was so before, or it has just been delivered. -/
theorem settling_before (hw : Wired h) (hm : Moved h m h') {e : Envelope}
    (hf : .settlingEvent s e ∈ h'.stack) : .settlingEvent s e ∈ h.stack ∨ m = .deliver s e := by
  rcases uneventful_or_deliver hw hm with hu | ⟨t, a, rfl, rfl⟩
  · exact (hu _ hf).elim .inl nofun
  · unfold deliver at hf; dsimp only at hf
    split at hf
    · exact .inl hf
    · split at hf
      · rw [stack_finish, List.mem_append, List.mem_map, List.mem_cons] at hf
        rcases hf with ⟨l, -, hl⟩ | he | hf
        · cases hl
        · cases he; exact .inr rfl
        · exact .inl hf
      · exact .inl hf

/-- Events that claim a session, or have claimed it, were delivered. -/
structure Delivered (h : Hub) (ms : List Move) : Prop where
  settling : ∀ s e, .settlingEvent s e ∈ h.stack → .deliver s e ∈ ms
  claim : ∀ i s e, (h.session i).claim = some (.fired s e) → .deliver s e ∈ ms

theorem Delivered.move (hw : Wired h) (hm : Moved h m h') {ms : List Move} (hd : Delivered h ms) :
    Delivered h' (ms ++ [m]) where
  settling s e hf := by
    rcases settling_before hw hm hf with hf | rfl
    · exact List.mem_append_left _ (hd.settling s e hf)
    · exact List.mem_append_right _ List.mem_cons_self
  claim i s e hc := by
    rcases (move_turn hw hm i).claim_cases hc rfl with hc | ⟨r, hr, hrc⟩
    · exact List.mem_append_left _ (hd.claim i s e hc)
    · cases hr <;> cases hrc
      rename_i hst
      exact List.mem_append_left _ (hd.settling s e (by rw [hst]; exact List.mem_cons_self))

theorem Delivered.run {ms ns : List Move} (hr : Reachable h) (hd : Delivered h ms)
    (hrun : h.run? ns = some h') : Delivered h' (ms ++ ns) := by
  induction ns generalizing h ms with
  | nil => cases hrun; rwa [List.append_nil]
  | cons n ns ih =>
    obtain ⟨a, hm, hrun⟩ := Option.bind_eq_some_iff.1 hrun
    have ha := hd.move hr.wired (moved_of_move? hm)
    rw [List.append_cons]
    exact ih (hr.later (Later.refl.move hm)) ha hrun

/-- The event that has decided a session is one of those that were delivered. -/
theorem deliver_mem_of_claim {settings : Settings} {ms : List Move} {e : Envelope}
    (hrun : run? { settings } ms = some h) (hc : (h.session sid).claim = some (.fired s e)) :
    .deliver s e ∈ ms := by
  have hd : Delivered { settings } [] := ⟨nofun, nofun⟩
  exact (hd.run ⟨settings, .refl⟩ hrun).claim sid s e hc

end
end Hub
end Aftermath
