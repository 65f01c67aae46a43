import Aftermath.Proofs.Fits
import Aftermath.Proofs.Rest

/-! What takes a session on. Its phase and the hook it waits for change only when it is configured, given
up or begins to run, and, while it runs, by a step of its own frame on top of the stack, or by an answer
to its hook or its post. -/

namespace Aftermath

theorem Fits.not_still_of_driving {sid : SessionId} {p : Phase} {r : Option (HookId × Argument)}
    {t : List Frame} (hf : Fits sid p r t) (hd : .driving sid ∈ t) : p.isStill = false := by
  cases hf with
  | drives hp => exact hp
  | resumes hp | hooks hp => exact Phase.not_still_of_hooking hp
  | posts => rfl
  | _ => simp at hd

namespace Hub

/-- A session that runs is taken on: by a step of its own, or by the answer it waits for. -/
inductive Advances (h : Hub) (sid : SessionId) : Hub → Prop where
  | drive {rest : List Frame} : h.stack = .driving sid :: rest → Advances h sid (h.drive sid)
  | hook {k : HookId} {arg : Argument} {rest : List Frame} {r : HookReply} :
      h.stack = .hook sid k arg :: rest → Advances h sid (h.pop.hookReplied sid k r)
  | post {rest : List Frame} {r : PostReply} :
      h.stack = .posting sid :: rest → Advances h sid (h.pop.postReplied sid r)

/-- A session that does not run is taken on: it is configured, it begins to run, or it is given up. -/
inductive Starts (h : Hub) (sid : SessionId) : Hub → Prop where
  | configure : (h.session sid).phase = .unopened → Starts h sid (h.prepare sid)
  | configured {rest : List Frame} : h.stack = .configuring sid :: rest →
      Starts h sid (h.pop.configured sid)
  | enter {rest : List Frame} : h.stack = .entering sid :: rest → Starts h sid (h.enter sid)
  | drop : h.mayRun sid → Starts h sid (h.drop sid)

section
variable {h h' : Hub} {sid i : SessionId} {s : SubId} {m : Move} {rest : List Frame}

theorem stance_of_view (hv : h'.view sid = h.view sid) : h'.stance sid = h.stance sid :=
  congrArg (fun v : View => (v.self.phase, v.self.running)) hv

/-- A frame of a session on top of the stack is on top of its thread. -/
theorem thread_of_stack {f : Frame} (hst : h.stack = f :: rest) (hs : f.session? = some sid) :
    h.thread sid = f :: h.pop.thread sid :=
  congrArg View.thread ((view_of_stack h sid hst).trans (if_pos hs))

/-! ### Steps of others -/

theorem stance_settle (c : Claim) : (h.settle i c).stance sid = h.stance sid :=
  stance_onSession (h := h) fun x => by split <;> rfl

theorem stance_settleEvent (e : Envelope) : (h.settleEvent s e).stance sid = h.stance sid := by
  unfold settleEvent; dsimp only
  split
  · rfl
  · exact (stance_report _).trans (stance_settle _)

theorem stance_settleTimeout : (h.settleTimeout s).stance sid = h.stance sid := by
  unfold settleTimeout; dsimp only
  split
  · rfl
  · exact (stance_report _).trans (stance_settle _)

theorem view_prepare_other (hne : sid ≠ i) : (h.prepare i).view sid = h.view sid := by
  obtain ⟨g, c, hv, -, -, he⟩ := prepare_eq h i
  rw [he, view_push_other hne rfl, view_onSession_other hne, hv]

theorem view_enter_other (hne : sid ≠ i) (hst : h.stack = .entering i :: rest) :
    (h.enter i).view sid = h.view sid := by
  have hpop : (h.pop.push (.driving i)).view sid = h.view sid := by
    rw [view_push_other hne rfl, view_pop_other hne hst rfl]
  unfold enter; dsimp only
  split
  · exact view_prepare_other hne
  · split
    · rw [view_release_other hne, view_onSession_other hne, hpop]
    · split
      · rw [view_setPhase_other hne, hpop]
      · exact hpop

theorem view_drop_other (hne : sid ≠ i) : (h.drop i).view sid = h.view sid := by
  unfold drop; dsimp only
  split
  · rw [view_release_other hne, view_onSession_other hne, view_push_other hne rfl]
  · exact view_setPhase_other hne _

/-! ### Calls -/

theorem stance_fail (e : NetworkError) : (h.fail s e).stance sid = h.stance sid := by
  unfold fail; dsimp only
  split
  · exact (stance_report _).trans (stance_settle _)
  · rfl

theorem stance_cancelAll : (h.cancelAll i).stance sid = h.stance sid := by
  unfold cancelAll; dsimp only
  rw [stance_release]
  split
  · rfl
  · exact stance_onSession (h := h) fun _ => rfl

theorem stance_cancelToken (t : TokenId) : (h.cancelToken t).stance sid = h.stance sid := by
  unfold cancelToken; dsimp only
  split
  · rfl
  · generalize hg : ({ h with tokens := h.tokens.set t _ } : Hub) = g
    have hs : g.stance sid = h.stance sid := by rw [← hg]; rfl
    rw [← hs]
    rcases view_revoked (h := g) sid (h.token t).sessions with hv | hv
    · exact stance_of_view hv
    · exact congrArg (fun v : View => (v.self.phase, v.self.running)) hv

theorem stance_register : (h.register i s).stance sid = h.stance sid := by
  unfold register; dsimp only
  generalize hg : h.onSession i _ = g
  have hs : g.stance sid = h.stance sid := by
    rw [← hg]
    exact stance_onSession fun x => by split <;> rfl
  split
  · exact (stance_of_view (view_cancel _ _ _)).trans hs
  · exact hs

theorem stance_subscribe (key : Key) (kind : Kind) :
    (h.subscribe i key kind).stance sid = h.stance sid := by
  unfold subscribe; dsimp only
  rw [stance_register]
  exact stance_onSession (h := { h with subs := h.subs ++ [{ key, kind, home := i }] }) fun _ => rfl

theorem stance_hookReplied_other (hne : sid ≠ i) {k : HookId} (r : HookReply) :
    (h.hookReplied i k r).stance sid = h.stance sid := by
  have hv := view_onSession_other (h := h) hne fun x => { x with running := none }
  have hs := stance_of_view hv
  unfold hookReplied; dsimp only
  split
  · exact hs
  · exact stance_of_view ((view_conclude_other hne _).trans hv)
  · exact stance_of_view ((view_close_other hne _).trans hv)
  · rfl

theorem stance_postReplied_other (hne : sid ≠ i) (r : PostReply) :
    (h.postReplied i r).stance sid = h.stance sid := by
  by_cases hr : r = .suspended
  · subst hr; rfl
  · exact stance_of_view (view_postReplied_other hne hr)

/-! ### Moves -/

theorem stance_openSession {token : Option TokenId} {modal : Option ModalId} :
    ({ h with sessions := h.sessions ++ [{ token, modal }] } : Hub).stance sid = h.stance sid := by
  by_cases hi : sid < h.sessions.length
  · simp [stance, session, List.getElem?_append_left hi]
  · have hd : h.session sid = default := by simp [session, Nat.le_of_not_lt hi]
    rw [stance, stance, hd]
    by_cases hs : sid = h.sessions.length
    · subst hs; simp [session]; exact ⟨rfl, rfl⟩
    · have hlen : (h.sessions ++ [({ token, modal } : Session)]).length ≤ sid := by
        rw [List.length_append]
        exact Nat.lt_of_le_of_ne (Nat.le_of_not_lt hi) (Ne.symm hs)
      simp [session, List.getElem?_eq_none hlen]

/-- A move that is about one session leaves the others as they are. -/
theorem stance_same_or (hp : Advances h i h' ∨ Starts h i h')
    (hn : sid ≠ i → h'.stance sid = h.stance sid) :
    h'.stance sid = h.stance sid ∨ Advances h sid h' ∨ Starts h sid h' := by
  by_cases hi : sid = i
  · subst hi
    exact .inr hp
  · exact .inl (hn hi)

/-- Nothing else takes on a session. -/
theorem stance_cases (hm : Moved h m h') :
    h'.stance sid = h.stance sid ∨ Advances h sid h' ∨ Starts h sid h' := by
  cases hm with
  | settleEvent _ => exact .inl (stance_settleEvent _)
  | settleTimeout _ => exact .inl stance_settleTimeout
  | reportCancel _ => exact .inl (stance_report _)
  | releaseStep hst => exact .inl (stance_of_view (view_releaseStep hst))
  | enter hst => exact stance_same_or (.inr (.enter hst)) fun hi => stance_of_view (view_enter_other hi hst)
  | drive hst => exact stance_same_or (.inl (.drive hst)) fun hi => stance_of_view (drive_other hi hst)
  | pass _ | newToken | newModal | run _ | handleWith _ | unsubscribed _ => exact .inl rfl
  | openSession => exact .inl stance_openSession
  | configure _ hu _ =>
    exact stance_same_or (.inr (.configure hu)) fun hi => stance_of_view (view_prepare_other hi)
  | drop hr => exact stance_same_or (.inr (.drop hr)) fun hi => stance_of_view (view_drop_other hi)
  | deliver _ => exact .inl (stance_of_view (view_deliver _ _ _ _))
  | fail _ => exact .inl (stance_fail _)
  | cancel _ => exact .inl (stance_of_view (view_cancel _ _ _))
  | ring _ _ => exact .inl (stance_of_view (view_ring _ _ _ _))
  | cancelAll _ => exact .inl stance_cancelAll
  | cancelToken _ => exact .inl (stance_cancelToken _)
  | register _ _ => exact .inl stance_register
  | timeoutAfter _ | timeoutWith _ => exact .inl (stance_of_view (view_setTimeout _ _ _ _))
  | subscribe _ => exact .inl (stance_subscribe _ _)
  | addHook _ | defaultTimeout _ => exact .inl (stance_onSession (h := h) fun _ => rfl)
  | configured hst =>
    refine stance_same_or (.inr (.configured hst)) fun hi => ?_
    have hs := stance_of_view (view_setPhase_other (h := h.pop) hi .prepared)
    exact hs
  | @granted s _ l _ =>
    have hs := stance_of_view (view_grant h.pop sid s l)
    exact .inl hs
  | @declined s _ e _ =>
    have hs := stance_of_view (view_decline h.pop sid s e)
    exact .inl hs
  | hookReplied hst => exact stance_same_or (.inl (.hook hst)) fun hi => stance_hookReplied_other hi _
  | postReplied hst => exact stance_same_or (.inl (.post hst)) fun hi => stance_postReplied_other hi _

/-- A session that runs is taken on by nothing else than its own steps and the answers it waits for. -/
theorem stance_or_advances (ha : Reachable h) (hm : Moved h m h')
    (hd : .driving sid ∈ h.thread sid) : h'.stance sid = h.stance sid ∨ Advances h sid h' := by
  have hf := ha.fits sid
  have hstill := hf.not_still_of_driving hd
  rcases stance_cases hm with hs | hadv | hstart
  · exact .inl hs
  · exact .inr hadv
  · exfalso
    cases hstart with
    | configure hu => rw [hu] at hstill; cases hstill
    | configured hst =>
      rw [thread_of_stack hst rfl] at hf
      rw [show (h.session sid).phase = _ from hf.of_configuring.1] at hstill
      cases hstill
    | enter hst =>
      rw [thread_of_stack hst rfl] at hf hd
      rw [hf.of_entering.1] at hd
      simp at hd
    | drop hr =>
      exact Bool.false_ne_true ((mayRun_iff.1 hr).2.1.symm.trans (isRunning_of_driving hd))

/-- While a session that runs is on top of the stack, nothing else happens. -/
theorem step_of_driving (hst : h.stack = .driving sid :: rest) (hm : h.move? m = some h') :
    m = .step ∧ h' = h.drive sid := by
  have hb : h.isBusy := by rw [isBusy, hst]; rfl
  have hstep : h.step = h.drive sid := by unfold step; rw [hst]
  unfold move? at hm
  rw [if_pos hb] at hm
  split at hm <;> cases hm
  exact ⟨rfl, hstep⟩

end
end Hub
end Aftermath
