import Aftermath.Proofs.Shift.Claims
import Aftermath.Proofs.Shift.Running

/-! Every move is a shift of every subscription there is. What all shifts keep holds of every
subscription. -/

namespace Aftermath.Hub

/-- Every move is a shift of every subscription there is. -/
theorem move_shift {h h' : Hub} {m : Move} (hw : Wired h) (hm : Moved h m h') (t : SubId) :
    Shift h h' t (h.subView t) (h'.subView t) := by
  have same : ∀ {k : Hub}, k.subView t = h.subView t → Shift h k t (h.subView t) (k.subView t) :=
    fun e => e ▸ .idle
  cases hm with
  | settleEvent hst => exact settleEvent_shift (hw.sub_lt hst rfl) (hw.homes _ (hw.sub_lt hst rfl)) hst
  | settleTimeout hst => exact settleTimeout_shift (hw.sub_lt hst rfl) (hw.homes _ (hw.sub_lt hst rfl)) hst
  | reportCancel hst => exact reportCancel_shift (hw.homes _ (hw.sub_lt hst rfl)) hst
  | releaseStep hst => exact releaseStep_shift hst (hw.liesOn hst).2
  | enter hst => exact same (subView_enter hst)
  | drive hst => exact drive_shift hst (hw.members _)
  | pass _ => exact .idle
  | newToken => exact .idle
  | newModal => exact .idle
  | openSession => exact .idle
  | configure _ _ _ => exact same subView_prepare
  | run _ => exact same (subView_push_silent _ _ rfl)
  | drop _ => exact same subView_drop
  | deliver hs => exact deliver_shift hs _
  | fail _ => exact fail_shift _
  | cancel hs => exact cancel_shift hs
  | ring hs _ => exact ring_shift hs _
  | cancelAll _ => exact same subView_cancelAll
  | cancelToken _ => exact same (subView_cancelToken _)
  | register _ hs => exact register_shift hs
  | handleWith hs => rw [subView_onSub _ _ _ hs]; exact .of_ite fun _ => .handled
  | timeoutAfter hs => exact timeout_shift (k := (h.sub t).timeoutHandler) hs (by split <;> rfl) rfl _
  | @timeoutWith s _ k hs =>
    have hv := subView_onSub h s t hs fun sub => { sub with timeoutHandler := some k }
    exact timeout_shift (a := h) (by simpa using hs) hv rfl _
  | subscribe hst => exact subscribe_shift hst _ _ (hw.liesOn hst) (mem_subscribe (hw.liesOn hst) _ _)
  | addHook _ => exact .idle
  | defaultTimeout _ => exact .idle
  | configured hst =>
    apply same
    rw [Hub.configured, subView_note_silent _ _ rfl rfl, subView_setPhase, subView_pop _ _ hst rfl]
  | granted hst => exact grant_shift (hw.sub_lt hst rfl) hst _
  | declined hst => exact decline_shift (hw.sub_lt hst rfl) hst _
  | unsubscribed hst => exact same (subView_pop _ _ hst rfl)
  | hookReplied hst => exact same (subView_hookReplied hst (hw.liesOn hst).2)
  | postReplied hst => exact same (subView_postReplied hst (hw.liesOn hst).2)

end Aftermath.Hub
