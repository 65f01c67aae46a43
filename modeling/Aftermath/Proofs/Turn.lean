import Aftermath.Proofs.Turn.Calls
import Aftermath.Proofs.Turn.Answers

/-! Every move is a turn of every session. What all turns keep holds of every session. -/

namespace Aftermath.Hub

section
variable {h h' k : Hub} {m : Move} {sid i : SessionId} {f : Frame} {rest : List Frame}

theorem Turn.of_view_eq (he : k.view sid = h.view sid) : Turn h h' sid (h.view sid) (k.view sid) := by
  rw [he]
  exact .idle

theorem view_pop_silent (hst : h.stack = f :: rest) (hf : f.session? = none) :
    h.pop.view sid = h.view sid := by
  rw [view_of_stack _ _ hst, if_neg (by rw [hf]; simp)]

theorem run_turn (hr : h.mayRun i) : Turn h h' sid (h.view sid) ((h.push (.entering i)).view sid) := by
  obtain ⟨-, hr, ho⟩ := mayRun_iff.1 hr
  rw [view_push]
  refine .of_ite fun e => ?_
  cases e
  exact .runs (not_isRun_of_isRunning hr) ho

theorem addHook_turn (hi : i < h.sessions.length) (hst : h.stack = .configuring i :: rest)
    (k : HookId) (slot : Slot) : Turn h h' sid (h.view sid)
      ((h.onSession i fun x => { x with hooks := x.hooks.add k slot }).view sid) := by
  rw [view_onSession _ _ _ hi]
  refine .of_ite fun e => ?_
  subst e
  rw [view_configuring hst]
  exact .hooks

theorem defaultTimeout_turn (hi : i < h.sessions.length) (hst : h.stack = .configuring i :: rest)
    (ms : Nat) : Turn h h' sid (h.view sid)
      ((h.onSession i fun x => { x with timeout := some ms }).view sid) := by
  rw [view_onSession _ _ _ hi]
  refine .of_ite fun e => ?_
  subst e
  rw [view_configuring hst]
  exact .timeout

theorem configured_turn (hi : i < h.sessions.length) (hst : h.stack = .configuring i :: rest) :
    Turn h h' sid (h.view sid) ((h.pop.configured i).view sid) := by
  rw [Hub.configured, view_note_silent _ _ rfl, view_setPhase (by exact hi)]
  by_cases hs : sid = i
  · subst hs
    rw [if_pos rfl, view_configuring hst]
    exact .configured
  · rw [if_neg hs, view_pop_other hs hst rfl]
    exact .idle

/-- Every move is a turn of every session. -/
theorem move_turn (hw : Wired h) (hm : Moved h m h') (sid : SessionId) :
    Turn h h' sid (h.view sid) (h'.view sid) := by
  cases hm with
  | settleEvent hst => exact settleEvent_turn (hw.homes _ (hw.sub_lt hst rfl)) hst
  | settleTimeout hst => exact settleTimeout_turn (hw.homes _ (hw.sub_lt hst rfl)) hst
  | reportCancel hst => exact reportCancel_turn (hw.sub_lt hst rfl) (hw.homes _ (hw.sub_lt hst rfl)) hst
  | releaseStep hst => exact .of_view_eq (view_releaseStep hst)
  | enter hst => exact enter_turn hst (hw.session_lt hst rfl)
  | drive hst => exact drive_turn hst (hw.session_lt hst rfl) (hw.members _)
  | pass | newToken | newModal | handleWith => exact .idle
  | openSession => exact open_turn
  | configure hi hp hr => exact prepare_turn hi hp (.inl (not_isRun_of_isRunning hr))
  | run hr => exact run_turn hr
  | drop hr => exact drop_turn hr
  | deliver => exact .of_view_eq (view_deliver _ _ _ _)
  | fail hs => exact fail_turn (hw.homes _ hs) _
  | cancel => exact .of_view_eq (view_cancel _ _ _)
  | ring => exact .of_view_eq (view_ring _ _ _ _)
  | cancelAll hr => exact cancelAll_turn hr
  | cancelToken => exact cancelToken_turn _
  | register hr hs => exact register_turn hr hs
  | timeoutAfter | timeoutWith => exact .of_view_eq (view_setTimeout _ _ _ _)
  | subscribe hst =>
    exact subscribe_turn hw hst (hw.session_lt hst rfl) _ _ (subs_length_lt_subscribe _ _ _ _)
  | addHook hst => exact addHook_turn (hw.session_lt hst rfl) hst _ _
  | defaultTimeout hst => exact defaultTimeout_turn (hw.session_lt hst rfl) hst _
  | configured hst => exact configured_turn (hw.session_lt hst rfl) hst
  | granted hst => exact .of_view_eq (by rw [view_grant, view_pop_silent hst rfl])
  | declined hst => exact .of_view_eq (by rw [view_decline, view_pop_silent hst rfl])
  | unsubscribed hst => exact .of_view_eq (view_pop_silent hst rfl)
  | hookReplied hst => exact hookReplied_turn _ hst (hw.liesOn hst).2 (hw.session_lt hst rfl)
  | postReplied hst => exact postReplied_turn _ hst (hw.liesOn hst).2 (hw.session_lt hst rfl)

end
end Aftermath.Hub
