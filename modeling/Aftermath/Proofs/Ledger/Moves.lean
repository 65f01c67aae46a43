import Aftermath.Proofs.Ledger.Basic

/-! Every move keeps the books: a subscription that leaves `active` puts its frame on the stack, the frame
is written down when it is done, and a release counts what it cancels. -/

namespace Aftermath

/-- The calls and answers that are not written down: all but a refusal. -/
def Move.isPlain : Move → Bool
  | .step | .declined _ => false
  | _ => true

namespace Hub

section
variable {h h' g : Hub} {i : SessionId} {s t : SubId} {m : Move} {f : Frame} {st : SubState}
variable {rest a : List Frame}

/-! ### Who remains -/

theorem remains_eq (hlen : h'.subs.length = h.subs.length)
    (hact : ∀ t, (h'.sub t).isActive = (h.sub t).isActive) : h'.remains = h.remains := by
  funext t
  unfold remains
  rw [hlen, hact]

theorem remains_of_subView (hz : h'.size = h.size) (hv : ∀ t, h'.subView t = h.subView t) :
    h'.remains = h.remains :=
  remains_eq (congrArg Prod.fst hz) fun t => by
    rw [show h'.sub t = h.sub t from congrArg SubView.self (hv t)]

theorem remains_of_subs (hs : h'.subs = h.subs) : h'.remains = h.remains :=
  remains_eq (by rw [hs]) fun t => by rw [sub_eq hs]

theorem remains_onSub (hs : s < h.subs.length) {k : Subscription → Subscription}
    (hk : ∀ x, (k x).isActive = x.isActive) : (h.onSub s k).remains = h.remains := by
  refine remains_eq (subs_length_onSub _ _ _) fun t => ?_
  rw [sub_onSub _ _ _ hs]
  split
  · exact hk _
  · rfl

theorem remains_setTimeout (hs : s < h.subs.length) (ms : Nat) :
    (h.setTimeout s ms).remains = h.remains := by
  unfold setTimeout; dsimp only
  generalize hg : (h.onSub s fun sub => { sub with timeout := some ms }) = g
  have hlen : s < g.subs.length := by rw [← hg]; simpa using hs
  have hrem : g.remains = h.remains := by rw [← hg]; exact remains_onSub hs fun _ => rfl
  split
  · refine (remains_eq (subs_length_startCountdown _) fun t => ?_).trans hrem
    rw [sub_startCountdown hlen]
    split <;> rfl
  · exact hrem

theorem remains_subscribe (x : Subscription) (hx : x.isActive) :
    ({ h with subs := h.subs ++ [x] } : Hub).remains = h.remains := by
  funext t
  unfold remains
  rw [sub_append, List.length_append, List.length_singleton]
  rcases Nat.lt_trichotomy t h.subs.length with ht | ht | ht
  · rw [if_neg (Nat.ne_of_lt ht), decide_eq_false (Nat.not_le_of_lt ht),
      decide_eq_false (Nat.not_le_of_lt (Nat.lt_succ_of_lt ht))]
  · rw [if_pos ht, hx, decide_eq_true (Nat.le_of_eq ht.symm), Bool.or_true]
    rfl
  · rw [decide_eq_true (show h.subs.length + 1 ≤ t from ht), decide_eq_true (Nat.le_of_lt ht)]
    rfl

/-! ### Leaving -/

/-- A subscription has left, whatever else is done for it. -/
theorem Parts.of_leaving (hg : g.remains = h.remains) (hs : s < g.subs.length)
    (ha : (g.sub s).isActive) (hst : st.isTerminal) :
    Parts h ((g.setState s st).finish s f) s := by
  have hlen : ((g.setState s st).finish s f).subs.length = g.subs.length :=
    congrArg Prod.fst (size_of_given (by simp))
  refine ⟨?_, fun t => ?_⟩
  · rw [← hg, Hub.remains, ha, Bool.or_true]
  · rw [← hg]
    unfold Hub.remains
    rw [hlen, sub_finish (by simpa [setState] using hs), sub_setState hs]
    split
    · next he =>
      subst he
      rw [decide_eq_false (Nat.not_le_of_lt hs), Bool.false_or]
      exact Bool.not_eq_true' _ ▸ hst
    · rfl

theorem plainly_finish : Plainly h (f :: g.stack) ((g.setState s st).finish s f).stack := by
  rw [stack_finish, stack_setState]
  generalize (((g.setState s st).disarm s).sub s).lease.toList = l
  induction l with
  | nil => exact .refl
  | cons u l ih => exact ih.push rfl rfl

theorem Reckons.of_leaving (hg : g.remains = h.remains) (hp : Plainly h h.stack g.stack)
    (hs : s < g.subs.length) (ha : (g.sub s).isActive) (hst : st.isTerminal) (hf : f.sub? = some s)
    (hr : f.report?.isSome) (hu : unit? g.stack f = none) :
    Reckons h none ((g.setState s st).finish s f) :=
  .leaves (.of_leaving hg hs ha hst) hf hr hu hp plainly_finish

theorem Reckons.of_cancel (hg : g.remains = h.remains) (hp : Plainly h h.stack g.stack)
    (hs : s < g.subs.length) (hu : topRelease? g.stack = none) : Reckons h none (g.cancel s) := by
  unfold cancel
  split
  · next ha => exact .of_leaving hg hp hs ha rfl rfl rfl hu
  · exact .still hg hp

theorem reckons_deliver (hs : s < h.subs.length) (e : Envelope) : Reckons h none (h.deliver s e) := by
  unfold deliver; dsimp only
  split
  · exact .still rfl .refl
  · split
    · next ha => exact .of_leaving rfl .refl hs ha rfl rfl rfl rfl
    · exact .still rfl .refl

theorem reckons_ring (hs : s < h.subs.length) (n : Nat) : Reckons h none (h.ring s n) := by
  unfold ring; dsimp only
  split
  · exact .still rfl .refl
  · next c _ =>
    have hg := remains_onSub hs (k := fun sub => { sub with countdown := c }) fun _ => rfl
    split
    · next ha =>
      refine .of_leaving hg .refl (by simpa using hs) ?_ rfl rfl rfl rfl
      rw [sub_onSub _ _ _ hs, if_pos rfl]
      exact ha
    · exact .still hg .refl

theorem reckons_register (hs : s < h.subs.length) (hu : topRelease? h.stack = none) :
    Reckons h none (h.register i s) := by
  unfold register; dsimp only
  split
  · exact .of_cancel (g := h.onSession i _) rfl .refl hs hu
  · exact .still rfl .refl

theorem reckons_subscribe (key : Key) (kind : Kind) :
    Reckons h none (h.subscribe i key kind) := by
  unfold subscribe register; dsimp only
  generalize hg : (({ h with subs := h.subs ++ [{ key, kind, home := i }] } : Hub).onSession i _).push
    (.subscribing h.subs.length) = g
  have hrem : g.remains = h.remains := by
    rw [← hg]; exact remains_subscribe { key, kind, home := i } rfl
  have hlen : h.subs.length < g.subs.length := by rw [← hg]; simp
  have hst : g.stack = .subscribing h.subs.length :: h.stack := by rw [← hg]; rfl
  have hp : Plainly h h.stack g.stack := by rw [hst]; exact .push .refl rfl rfl
  split
  · exact .of_cancel (g := g.onSession i _) hrem hp hlen (by rw [stack_onSession, hst]; rfl)
  · exact .still hrem hp

theorem reckons_grant (hs : s < h.subs.length) (hst : h.stack = .subscribing s :: rest)
    (l : LeaseId) : Reckons h none (h.pop.grant s l) := by
  have hpop : Plainly h h.stack h.pop.stack := by
    rw [stack_pop hst, hst]; exact .pop .refl rfl rfl
  unfold grant; dsimp only
  split
  · exact .still (remains_onSub (h := h.pop.note _) hs fun _ => rfl) hpop
  · exact .still (remains_of_subs rfl) (.push hpop rfl rfl)

theorem reckons_decline (hs : s < h.subs.length) (hst : h.stack = .subscribing s :: rest)
    (e : SubscribeError) :
    Reckons h (if (h.sub s).isActive then some (.left s .declined) else none) (h.pop.decline s e) := by
  have hpop : Plainly h h.stack h.pop.stack := by
    rw [stack_pop hst, hst]; exact .pop .refl rfl rfl
  unfold decline; dsimp only
  generalize hg : ((h.pop.note _).onSub s fun sub => { sub with error := some e }) = g
  have hrem : g.remains = h.remains := by
    rw [← hg]
    exact remains_onSub (h := h.pop.note _) hs fun _ => rfl
  have hlen : s < g.subs.length := by rw [← hg]; simpa using hs
  have hgst : g.stack = h.pop.stack := by rw [← hg]; rfl
  rw [sub_pop]
  split
  · next ha =>
    have hact : (g.sub s).isActive := by
      rw [← hg, sub_onSub _ _ _ (show s < (h.pop.note _).subs.length from hs), if_pos rfl]
      exact ha
    have hlen' : s < (g.setState s .cancelled).subs.length := by simpa [setState] using hlen
    refine .declines ⟨by rw [remains, ha, Bool.or_true], fun t => ?_⟩ ?_
    · rw [← hrem]
      unfold remains
      rw [subs_length_disarm, sub_disarm hlen', sub_setState hlen]
      simp only [setState, subs_length_onSub]
      split
      · next he =>
        subst he
        rw [decide_eq_false (Nat.not_le_of_lt hlen)]
        rfl
      · rfl
    · rw [stack_disarm, stack_setState, hgst]
      exact hpop
  · refine .still hrem ?_
    rw [hgst]
    exact hpop

/-! ### Releases -/

theorem reckons_releaseStep {l : List SubId} {n : Nat} (hst : h.stack = .releasing i l n :: rest)
    (hl : ∀ s ∈ l, s < h.subs.length) :
    Reckons h (booking? h m (h.pop.releaseStep i l n)) (h.pop.releaseStep i l n) := by
  have hpop : h.pop.stack = rest := stack_pop hst
  cases l with
  | nil =>
    have hb : booking? h m (h.pop.releaseStep i [] n) = some (.count (i, rest.length) n) := by
      unfold booking?
      rw [hst]
      rfl
    rw [hb]
    unfold releaseStep; dsimp only
    refine .returns ?_ hst ?_
    · split <;> rfl
    · rw [stack_reply]
      split <;> exact hpop
  | cons s l =>
    have hb : booking? h m (h.pop.releaseStep i (s :: l) n) = none := by
      unfold booking?
      rw [hst]
    have hs : s < h.subs.length := hl s List.mem_cons_self
    rw [hb]
    unfold releaseStep; dsimp only
    rw [sub_pop]
    split
    · next ha =>
      have hq : Plainly h (.reportingCancel s :: (h.pop.push (.releasing i l (n + 1))).stack)
          (((h.pop.push (.releasing i l (n + 1))).setState s .cancelled).finish s
            (.reportingCancel s)).stack := plainly_finish
      rw [stack_push, hpop] at hq
      unfold cancel
      rw [if_pos (show ((h.pop.push (.releasing i l (n + 1))).sub s).isActive from ha)]
      exact .takes (.of_leaving rfl hs ha rfl) hst hq
    · refine .still rfl ?_
      rw [stack_push, hpop, hst]
      exact .skip

/-! ### Sessions that run -/

theorem reckons_drive (hw : Wired h) (hst : h.stack = .driving i :: rest) :
    Reckons h none (h.drive i) := by
  have hi := hw.session_lt hst rfl
  refine .still (remains_eq (congrArg Prod.fst (size_of_given (given_drive h i))) fun t => ?_) ?_
  · rcases subView_drive (t := t) hst (hw.members i) with hv | ⟨-, -, -, -, c, hv, -, -⟩
    · rw [show (h.drive i).sub t = h.sub t from congrArg SubView.self hv]
    · rw [show (h.drive i).sub t = _ from congrArg SubView.self hv]
      rfl
  · have hd := driven_drive hi
    generalize (h.drive i).stack = l at hd
    cases hd with
    | stays => exact .refl
    | releases => exact .release .refl
    | hooks | posts => exact .push .refl rfl rfl
    | leaves => rw [hst]; exact .pop .refl rfl rfl

theorem reckons_enter (hw : Wired h) (hst : h.stack = .entering i :: rest) :
    Reckons h none (h.enter i) := by
  have hi := hw.session_lt hst rfl
  refine .still (remains_of_subView (size_of_given (given_enter h i)) fun t => subView_enter hst) ?_
  have hpush : Plainly h h.stack (h.pop.push (.driving i)).stack := by
    rw [stack_push, stack_pop hst, hst]
    exact .push (.pop .refl rfl rfl) rfl rfl
  unfold enter; dsimp only
  split
  · obtain ⟨k, c, -, -, hkst, he⟩ := prepare_eq h i
    rw [he, stack_push, stack_onSession, hkst]
    exact .push .refl rfl rfl
  · split
    · rw [stack_release, session_onSession _ _ _ (by exact hi), if_pos rfl, stack_onSession]
      exact .release hpush
    · split
      · exact hpush
      · exact hpush

theorem reckons_prepare : Reckons h none (h.prepare i) := by
  refine .still (remains_of_subView (size_of_given (given_prepare h i)) fun t => subView_prepare) ?_
  obtain ⟨k, c, -, -, hkst, he⟩ := prepare_eq h i
  rw [he, stack_push, stack_onSession, hkst]
  exact .push .refl rfl rfl

theorem reckons_drop (hi : i < h.sessions.length) : Reckons h none (h.drop i) := by
  refine .still (remains_of_subView (size_of_given (given_drop h i)) fun t => subView_drop) ?_
  unfold drop; dsimp only
  split
  · rw [stack_release, session_onSession _ _ _ (by exact hi), if_pos rfl, stack_onSession]
    exact .release (.push .refl rfl rfl)
  · exact .refl

theorem reckons_cancelAll (hi : i < h.sessions.length) : Reckons h none (h.cancelAll i) := by
  refine .still (remains_of_subView (size_of_given (given_cancelAll h i)) fun t => subView_cancelAll) ?_
  rw [stack_cancelAll hi]
  exact .release .refl

/-- A hook or a post that is answered. -/
theorem reckons_answered (hst : h.stack = f :: rest) (hf : f.report? = none) (hr : f.released? = none)
    (hl : rest.head? = some (.driving i)) (hz : h'.size = h.size)
    (hv : ∀ t, h'.subView t = h.subView t)
    (hk : h'.stack = rest ∨ h'.stack = .releasing i (h.session i).members 0 :: rest ∨
      h'.stack = rest.tail) : Reckons h none h' := by
  have hpop : Plainly h h.stack rest := by rw [hst]; exact .pop .refl hf hr
  refine .still (remains_of_subView hz hv) ?_
  rcases hk with hk | hk | hk
  · rw [hk]; exact hpop
  · rw [hk]; exact .release hpop
  · obtain ⟨l, rfl⟩ := List.head?_eq_some_iff.1 hl
    rw [hk]
    exact .pop hpop rfl rfl

/-! ### What is written down -/

theorem topRelease?_of_not_busy (hb : h.isBusy = false) : topRelease? h.stack = none := by
  unfold isBusy at hb
  unfold topRelease?
  split
  · next hst => rw [hst] at hb; cases hb
  · rfl

theorem booking?_of_call (hb : h.isBusy = false) (hm : m.isPlain) : booking? h m h' = none := by
  unfold isBusy at hb
  unfold booking?
  split
  case h_5 => cases hm
  case h_6 => rfl
  all_goals
    next hst =>
      rw [hst] at hb
      cases hb

theorem not_busy_of_call (hm : h.move? m = some h') (hn : m.isPlain) : h.isBusy = false := by
  unfold move? at hm
  split at hm
  · split at hm
    · cases hn
    · cases hm
  · next hb => simpa using hb

/-! ### Business that is done -/

theorem Reachable.inactive_of_report (ha : Reachable h) (hst : h.stack = f :: rest)
    (hf : f.sub? = some s) (hr : f.report?.isSome) : (h.sub s).isActive = false :=
  (ha.kept s).left f (mem_flight hst hf) hr

theorem remains_cancelled (hs : s < h.subs.length) (hi : (h.sub s).isActive = false) :
    (h.setState s .cancelled).remains = h.remains := by
  refine remains_eq (subs_length_onSub _ _ _) fun t => ?_
  rw [sub_setState hs]
  split
  · next he => subst he; exact hi.symm
  · rfl

theorem booking?_settlingEvent {e : Envelope} (hst : h.stack = .settlingEvent s e :: rest) :
    booking? h m h' = some (.left s (if h'.answer = .bool true then .fired else .outrun)) := by
  unfold booking?
  rw [hst]

theorem booking?_settlingTimeout (hst : h.stack = .settlingTimeout s :: rest) :
    booking? h m h' = some (.left s
      (if (h'.session (h.sub s).home).claim = (h.session (h.sub s).home).claim then .lapsed
        else .expired)) := by
  unfold booking?
  rw [hst]

theorem booking?_reportingCancel (hst : h.stack = .reportingCancel s :: rest) :
    booking? h m (h.pop.reportCancel s) = some (.left s (.cancelled (topRelease? rest))) := by
  unfold booking?
  rw [hst]
  exact if_pos rfl

theorem booking?_driving (hst : h.stack = f :: rest) (hf : f.session?.isSome) :
    booking? h m h' = none := by
  unfold booking?
  rw [hst]
  cases f <;> first | rfl | cases hf

theorem booking?_declined {e : SubscribeError} (hst : h.stack = .subscribing s :: rest) :
    booking? h (.declined e) h' =
      if (h.sub s).isActive then some (.left s .declined) else none := by
  unfold booking?
  rw [hst]

theorem reckons_settleEvent (ha : Reachable h) (hs : s < h.subs.length) {e : Envelope}
    (hst : h.stack = .settlingEvent s e :: rest) (x : Exit) (hx : x.release? = none) :
    Reckons h (some (.left s x)) (h.pop.settleEvent s e) := by
  have hpop : h.pop.stack = rest := stack_pop hst
  have hin := ha.inactive_of_report hst rfl rfl
  unfold settleEvent; dsimp only
  split
  · exact .ends (remains_cancelled (h := h.pop) hs hin) hst rfl rfl hx hpop
  · exact .ends (remains_of_subs rfl) hst rfl rfl hx hpop

theorem reckons_settleTimeout (ha : Reachable h) (hs : s < h.subs.length)
    (hst : h.stack = .settlingTimeout s :: rest) (x : Exit) (hx : x.release? = none) :
    Reckons h (some (.left s x)) (h.pop.settleTimeout s) := by
  have hpop : h.pop.stack = rest := stack_pop hst
  have hin := ha.inactive_of_report hst rfl rfl
  unfold settleTimeout; dsimp only
  split
  · exact .ends (remains_cancelled (h := h.pop) hs hin) hst rfl rfl hx hpop
  · exact .ends (remains_of_subs rfl) hst rfl rfl hx hpop

/-! ### All moves -/

theorem reckons_setTimeout (hg : g.remains = h.remains) (hst : g.stack = h.stack)
    (hs : s < g.subs.length) (ms : Nat) : Reckons h none (g.setTimeout s ms) := by
  refine .still ((remains_setTimeout hs ms).trans hg) ?_
  rw [stack_setTimeout, hst]
  exact .refl

theorem reckons_fail (e : NetworkError) : Reckons h none (h.fail s e) := by
  refine .still (remains_of_subs (subs_fail h s e)) ?_
  rw [stack_fail]
  exact .refl

theorem reckons_cancelToken (t : TokenId) : Reckons h none (h.cancelToken t) := by
  refine .still (remains_of_subView (size_of_given (given_cancelToken h t)) fun _ =>
    subView_cancelToken _) ?_
  rw [stack_cancelToken]
  exact .refl

/-- A frame that is no business of a subscription is done. -/
theorem Reckons.of_pop (hst : h.stack = f :: rest) (hf : f.report? = none) (hr : f.released? = none)
    (hs : h'.subs = h.subs) (hk : h'.stack = rest) : Reckons h none h' := by
  refine .still (remains_of_subs hs) ?_
  rw [hk, hst]
  exact .pop .refl hf hr

theorem reckons_hookReplied {k : HookId} {arg : Argument} (hw : Wired h)
    (hst : h.stack = .hook i k arg :: rest) (r : HookReply) :
    Reckons h none (h.pop.hookReplied i k r) :=
  reckons_answered hst rfl rfl (hw.liesOn hst).2 (size_of_given (by simp))
    (fun _ => subView_hookReplied hst (hw.liesOn hst).2)
    (stack_hookReplied r hst (hw.session_lt hst rfl))

theorem reckons_postReplied (hw : Wired h) (hst : h.stack = .posting i :: rest) (r : PostReply) :
    Reckons h none (h.pop.postReplied i r) :=
  reckons_answered hst rfl rfl (hw.liesOn hst).2 (size_of_given (by simp))
    (fun _ => subView_postReplied hst (hw.liesOn hst).2)
    (stack_postReplied r hst (hw.session_lt hst rfl))

/-- What the hub does by itself. -/
theorem step_reckons (ha : Reachable h) (hm : Moved h .step h') :
    Reckons h (booking? h .step h') h' := by
  have hw := ha.wired
  cases hm with
  | settleEvent hst =>
    rw [booking?_settlingEvent hst]
    exact reckons_settleEvent ha (hw.sub_lt hst rfl) hst _ (by split <;> rfl)
  | settleTimeout hst =>
    rw [booking?_settlingTimeout hst]
    exact reckons_settleTimeout ha (hw.sub_lt hst rfl) hst _ (by split <;> rfl)
  | reportCancel hst =>
    rw [booking?_reportingCancel hst]
    exact .ends (remains_of_subs rfl) hst rfl rfl rfl (stack_pop hst)
  | releaseStep hst => exact reckons_releaseStep hst (hw.liesOn hst).2
  | enter hst =>
    rw [booking?_driving hst rfl]
    exact reckons_enter hw hst
  | drive hst =>
    rw [booking?_driving hst rfl]
    exact reckons_drive hw hst

/-- Calls and answers write nothing in the books, but for a refusal. -/
theorem plain_reckons (hw : Wired h) (hb : h.isBusy = false) (hm : Moved h m h') (hn : m.isPlain) :
    Reckons h none h' := by
  have htop := topRelease?_of_not_busy hb
  cases hm with
  | settleEvent | settleTimeout | reportCancel | releaseStep | enter | drive | declined => cases hn
  | pass | newToken | newModal | openSession | addHook | defaultTimeout => exact .still rfl .refl
  | configure => exact reckons_prepare
  | run => exact .still rfl (.push .refl rfl rfl)
  | drop hr => exact reckons_drop (mayRun_iff.1 hr).1
  | deliver hs => exact reckons_deliver hs _
  | fail => exact reckons_fail _
  | cancel hs => exact .of_cancel rfl .refl hs htop
  | ring hs => exact reckons_ring hs _
  | cancelAll hr => exact reckons_cancelAll (isReachable_iff.1 hr).1
  | cancelToken => exact reckons_cancelToken _
  | register _ hs => exact reckons_register hs htop
  | handleWith hs => exact .still (remains_onSub hs fun _ => rfl) .refl
  | timeoutAfter hs => exact reckons_setTimeout rfl rfl hs _
  | @timeoutWith _ _ k hs =>
    exact reckons_setTimeout (remains_onSub hs (k := fun x => { x with timeoutHandler := some k })
      fun _ => rfl) rfl (by simpa using hs) _
  | subscribe => exact reckons_subscribe _ _
  | configured hst => exact .of_pop hst rfl rfl rfl (stack_pop hst)
  | granted hst => exact reckons_grant (hw.sub_lt hst rfl) hst _
  | unsubscribed hst => exact .of_pop hst rfl rfl rfl (stack_pop hst)
  | hookReplied hst => exact reckons_hookReplied hw hst _
  | postReplied hst => exact reckons_postReplied hw hst _

/-- Every move keeps the books. -/
theorem move_reckons (ha : Reachable h) (hm : h.move? m = some h') :
    Reckons h (booking? h m h') h' := by
  have hv := moved_of_move? hm
  by_cases hn : m.isPlain
  · have hb := not_busy_of_call hm hn
    rw [booking?_of_call hb hn]
    exact plain_reckons ha.wired hb hv hn
  · cases m with
    | step => exact step_reckons ha hv
    | declined e =>
      cases hv with
      | declined hst =>
        rw [booking?_declined hst]
        exact reckons_decline (ha.wired.sub_lt hst rfl) hst e
    | _ => exact absurd rfl hn

end
end Hub
end Aftermath
