import Aftermath.Proofs.Restack.Running

/-! Every move replaces a few frames on top of the stack. -/

namespace Aftermath.Hub

section
variable {h h' : Hub} {m : Move} {f : Frame} {rest : List Frame} {s : SubId}

/-- A frame whose business is done is gone. -/
theorem done_restacks (hst : h.stack = f :: rest) (hk : h'.stack = h.pop.stack)
    (hc : ∀ i, f.toCancel i = []) (hd : ∀ i, f ≠ .driving i) :
    ∃ old new rest, Restacks h h' old new rest :=
  ⟨_, _, _, .of_drop hst (hk.trans (stack_pop hst)) hc hd⟩

theorem grant_restacks (hst : h.stack = .subscribing s :: rest) (l : LeaseId) :
    ∃ old new rest, Restacks h (h.pop.grant s l) old new rest := by
  rcases stack_grant h.pop s l with hk | hk
  · exact done_restacks hst hk (fun _ => rfl) (by simp)
  · rw [stack_pop hst] at hk
    exact ⟨_, [_], _, .of_pop hst hk (fun _ => rfl) (by simp) fun hl => ⟨trivial, hl⟩⟩

theorem run_restacks {i : SessionId} (hi : i < h.sessions.length) :
    ∃ old new rest, Restacks h (h.push (.entering i)) old new rest :=
  ⟨[], [.entering i], _, .of_push rfl (fun hl => ⟨hi, hl⟩) (by simp)⟩

/-- What a move does to the stack. -/
theorem move_restacks (hw : Wired h) (hm : Moved h m h') :
    ∃ old new rest, Restacks h h' old new rest := by
  have hsub := subs_length_le hm
  cases hm with
  | settleEvent hst => exact done_restacks hst (stack_settleEvent _ _ _) (fun _ => rfl) (by simp)
  | settleTimeout hst => exact done_restacks hst (stack_settleTimeout _ _) (fun _ => rfl) (by simp)
  | reportCancel hst => exact done_restacks hst rfl (fun _ => rfl) (by simp)
  | releaseStep hst => exact releaseStep_restacks hst hw.laid
  | enter hst => exact enter_restacks hw hst (hw.session_lt hst rfl)
  | drive hst => exact drive_restacks hw hst (hw.session_lt hst rfl)
  | pass | newToken | newModal | openSession | handleWith | addHook | defaultTimeout =>
    exact ⟨_, _, _, .of_eq rfl⟩
  | configure hi => exact prepare_restacks hi
  | run hr => exact run_restacks (mayRun_iff.1 hr).1
  | drop hr => exact drop_restacks hw (mayRun_iff.1 hr).1
  | deliver hs => exact Restacks.of_exits (exits_deliver _) (Nat.lt_of_lt_of_le hs hsub)
  | fail => exact ⟨_, _, _, .of_eq (stack_fail _ _ _)⟩
  | cancel hs => exact Restacks.of_exits exits_cancel (Nat.lt_of_lt_of_le hs hsub)
  | ring hs => exact Restacks.of_exits (exits_ring _) (Nat.lt_of_lt_of_le hs hsub)
  | cancelAll hr => exact cancelAll_restacks hw (isReachable_iff.1 hr).1
  | cancelToken => exact ⟨_, _, _, .of_eq (stack_cancelToken _)⟩
  | register _ hs => exact Restacks.of_exits exits_register (Nat.lt_of_lt_of_le hs hsub)
  | timeoutAfter | timeoutWith => exact ⟨_, _, _, .of_eq (stack_setTimeout _ _ _)⟩
  | subscribe hst => exact subscribe_restacks hst
  | configured hst => exact done_restacks hst rfl (fun _ => rfl) (by simp)
  | granted hst => exact grant_restacks hst _
  | declined hst => exact done_restacks hst (stack_decline _ _ _) (fun _ => rfl) (by simp)
  | unsubscribed hst => exact done_restacks hst rfl (fun _ => rfl) (by simp)
  | hookReplied hst =>
    exact answered_restacks hw hst rfl (by simp) (hw.liesOn hst).2 (hw.session_lt hst rfl)
      (size_of_given (by simp)) (stack_hookReplied _ hst (hw.session_lt hst rfl))
  | postReplied hst =>
    exact answered_restacks hw hst rfl (by simp) (hw.liesOn hst).2 (hw.session_lt hst rfl)
      (size_of_given (by simp)) (stack_postReplied _ hst (hw.session_lt hst rfl))

end
end Aftermath.Hub
