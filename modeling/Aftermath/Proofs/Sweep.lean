import Aftermath.Proofs.Release

/-! Releases that are under way. There are none in a session that is undecided, and whatever is still
active in a session that was cancelled as a whole a release is going to cancel. -/

namespace Aftermath

def Frame.released? : Frame → Option SessionId
  | .releasing i _ _ => some i
  | _ => none

theorem Frame.released_of_report {f : Frame} (hf : f.report?.isSome) : f.released? = none := by
  cases f <;> first | rfl | cases hf

namespace Hub

/-- Whether a release of a session is under way. -/
def isReleasing (h : Hub) (sid : SessionId) : Bool := h.stack.any fun f => f.released? == some sid

/-- A release that is new has decided its session. -/
def Lays (h h' : Hub) : Prop :=
  ∀ i, h'.isReleasing i → h.isReleasing i ∨ (h'.session i).isSettled

section
variable {h h' g : Hub} {i sid : SessionId} {s : SubId} {c : Claim} {m : Move} {f : Frame}
variable {rest : List Frame}

theorem isReleasing_iff : h.isReleasing i ↔ ∃ f ∈ h.stack, f.released? = some i := by
  simp [isReleasing]

theorem toCancel_of_not_releasing (hn : h.isReleasing i = false) : toCancel i h.stack = [] := by
  refine List.flatMap_eq_nil_iff.2 fun f hf => ?_
  have hne : f.released? ≠ some i := by
    intro hr
    exact Bool.false_ne_true (hn.symm.trans (isReleasing_iff.2 ⟨f, hf, hr⟩))
  cases f <;> first | rfl | skip
  exact if_neg fun e => hne (congrArg some e)

/-! ### Only decided sessions are released -/

theorem Lays.of_stack (new rest : List Frame) (hst : h'.stack = new ++ rest)
    (hr : ∀ f ∈ rest, f ∈ h.stack) (hn : ∀ f ∈ new, ∀ i, f.released? = some i → h.isReleasing i) :
    Lays h h' := by
  intro i hi
  obtain ⟨f, hf, hfi⟩ := isReleasing_iff.1 hi
  rw [hst] at hf
  rcases List.mem_append.1 hf with hf | hf
  · exact .inl (hn f hf i hfi)
  · exact .inl (isReleasing_iff.2 ⟨f, hr f hf, hfi⟩)

theorem Lays.of_eq (hst : h'.stack = h.stack) : Lays h h' :=
  .of_stack [] _ hst (fun _ hf => hf) nofun

theorem Lays.of_pop (hst : h'.stack = h.pop.stack) : Lays h h' :=
  .of_stack [] _ hst (fun _ hf => List.mem_of_mem_tail hf) nofun

theorem Lays.of_push (hst : h'.stack = f :: h.stack) (hf : f.released? = none) : Lays h h' :=
  .of_stack [f] _ hst (fun _ hf => hf) fun g hg i hi => by
    cases List.mem_singleton.1 hg
    rw [hf] at hi; cases hi

theorem Lays.of_exits (he : ∃ new, h'.stack = new ++ h.stack ∧ Exits s new) : Lays h h' := by
  obtain ⟨new, hst, he⟩ := he
  refine .of_stack _ _ hst (fun _ hf => hf) fun f hf i hi => ?_
  rcases he.frame hf with ⟨l, rfl⟩ | ⟨-, hr⟩
  · cases hi
  · rw [Frame.released_of_report hr] at hi; cases hi

theorem isSettled_release (hi : i < g.sessions.length) (c : Claim) :
    ((g.release i c).session i).isSettled := by
  have hv := congrArg View.self (view_release hi i c)
  rw [if_pos rfl] at hv
  rw [show (g.release i c).session i = _ from hv]
  exact Session.isSettled_settled _ _

theorem Lays.release (hst : ∀ f ∈ g.stack, f ∈ h.stack ∨ f.released? = none)
    (hi : i < g.sessions.length) : Lays h (g.release i c) := by
  intro j hj
  obtain ⟨f, hf, hfj⟩ := isReleasing_iff.1 hj
  rcases List.mem_cons.1 hf with rfl | hf
  · cases hfj; exact .inr (isSettled_release hi c)
  · rcases hst f hf with hf | hf
    · exact .inl (isReleasing_iff.2 ⟨f, hf, hfj⟩)
    · rw [hf] at hfj; cases hfj

theorem Lays.conclude (hst : g.stack = h.stack) (hi : i < g.sessions.length) (e : Ending) :
    Lays h (g.conclude i e) :=
  .release (g := (g.note (.ending i e)).setPhase i (.closing e)) (fun f hf => .inl (hst ▸ hf))
    (by simpa [setPhase] using hi)

theorem lays_handleFailure (hi : i < h.sessions.length) (e : PostError) :
    Lays h (h.handleFailure i e) := by
  unfold handleFailure
  split
  · exact .conclude (g := h.note _) rfl hi _
  · exact .of_eq rfl

theorem lays_resolve (hi : i < h.sessions.length) (r : Report) : Lays h (h.resolve i r) := by
  unfold resolve; dsimp only
  split
  · split
    · exact .of_eq rfl
    · exact .conclude rfl hi _
  · split
    · exact .of_eq rfl
    · exact .conclude rfl hi _
  · exact lays_handleFailure hi _
  · exact .of_eq rfl

theorem lays_await (hi : i < h.sessions.length) : Lays h (h.await i) := by
  unfold await; dsimp only
  split
  · split
    · exact .conclude rfl hi _
    · exact .of_pop rfl
  · split
    · exact .release (fun f hf => .inl hf) (by simpa [setPhase] using hi)
    · exact .of_eq rfl
  · exact .release (fun f hf => .inl hf) (by simpa using hi)

theorem lays_drive (hi : i < h.sessions.length) : Lays h (h.drive i) := by
  unfold drive; dsimp only
  split
  · exact .of_push rfl rfl
  · split
    case h_1 =>
      split
      · exact .release (fun f hf => .inl hf) (by simpa [setPhase] using hi)
      · split
        · exact .of_eq rfl
        · exact .of_eq (by simp)
    case h_2 | h_11 | h_15 => exact .conclude (g := h.note _) rfl hi _
    case h_3 | h_6 | h_13 => exact .of_push rfl rfl
    case h_4 =>
      split
      · exact .of_eq rfl
      · exact .of_push rfl rfl
    case h_5 => exact .of_push rfl rfl
    case h_7 =>
      split
      · exact .conclude rfl hi _
      · refine .of_eq ?_
        rw [stack_setPhase]
        split
        · rfl
        · exact stack_armAll _ _
    case h_8 => exact lays_await hi
    case h_9 => exact lays_resolve hi _
    case h_10 => exact lays_handleFailure hi _
    case h_12 | h_14 => exact .conclude rfl hi _
    case h_16 e _ =>
      obtain ⟨g, -, -, hgst, he⟩ := leave_eq h i e
      refine .of_pop ?_
      rw [he, stack_reply, pop, stack_onSession, hgst]
      rfl
    case h_17 =>
      refine .of_pop ?_
      rw [stack_reply, pop, stack_onSession, stack_writeBusy]
      rfl
    all_goals exact .of_pop rfl

theorem lays_enter (hi : i < h.sessions.length) :
    Lays h (h.enter i) := by
  have hpop : ∀ f ∈ (h.pop.push (.driving i)).stack, f ∈ h.stack ∨ f.released? = none := by
    intro f hf
    rcases List.mem_cons.1 hf with rfl | hf
    · exact .inr rfl
    · exact .inl (List.mem_of_mem_tail hf)
  unfold enter; dsimp only
  split
  · obtain ⟨k, c, -, -, hkst, he⟩ := prepare_eq h i
    rw [he]
    exact .of_push (by rw [stack_push, stack_onSession, hkst]) rfl
  · split
    · exact .release hpop (by simpa using hi)
    · refine .of_stack [.driving i] h.pop.stack ?_
        (fun _ hf => List.mem_of_mem_tail hf) ?_
      · split <;> rfl
      · intro f hf j hj
        cases List.mem_singleton.1 hf
        cases hj

theorem lays_releaseStep {l : List SubId} {n : Nat} (hst : h.stack = .releasing i l n :: rest) :
    Lays h (h.pop.releaseStep i l n) := by
  have hold : h.isReleasing i := isReleasing_iff.2 ⟨_, by rw [hst]; exact List.mem_cons_self, rfl⟩
  have hagain : ∀ k : List SubId, ∀ n, ∀ f ∈ [Frame.releasing i k n], ∀ j, f.released? = some j →
      h.isReleasing j := by
    intro k n f hf j hj
    cases List.mem_singleton.1 hf
    cases hj
    exact hold
  unfold releaseStep
  split
  · refine .of_pop ?_
    rw [stack_reply]
    split <;> rfl
  · next s l =>
    split
    · obtain ⟨new, hnew, he⟩ := exits_cancel (h := h.pop.push (.releasing i l (n + 1))) (s := s)
      refine .of_stack (new ++ [.releasing i l (n + 1)]) h.pop.stack (by simp [hnew])
        (fun _ hf => List.mem_of_mem_tail hf) fun f hf j hj => ?_
      rcases List.mem_append.1 hf with hf | hf
      · rcases he.frame hf with ⟨l, rfl⟩ | ⟨-, hr⟩
        · cases hj
        · rw [Frame.released_of_report hr] at hj; cases hj
      · exact hagain _ _ f hf j hj
    · exact .of_stack [_] h.pop.stack rfl
        (fun _ hf => List.mem_of_mem_tail hf) (hagain _ _)

theorem lays_hookReplied {k : HookId} {r : HookReply} (hi : i < h.sessions.length) :
    Lays h (h.pop.hookReplied i k r) := by
  have hpop : ∀ f ∈ h.pop.stack, f ∈ h.stack ∨ f.released? = none :=
    fun f hf => .inl (List.mem_of_mem_tail hf)
  unfold hookReplied; dsimp only
  split
  · exact .of_pop rfl
  · exact .release hpop (by simpa [setPhase] using hi)
  · exact .release hpop (by simpa [setPhase] using hi)
  · exact .of_stack [] h.pop.pop.stack rfl
      (fun _ hf => List.mem_of_mem_tail (List.mem_of_mem_tail hf))
      fun _ hf => absurd hf List.not_mem_nil

theorem lays_postReplied {r : PostReply} (hi : i < h.sessions.length) :
    Lays h (h.pop.postReplied i r) := by
  have hpop : ∀ f ∈ h.pop.stack, f ∈ h.stack ∨ f.released? = none :=
    fun f hf => .inl (List.mem_of_mem_tail hf)
  unfold postReplied; dsimp only
  split
  · exact .of_pop rfl
  · split
    · exact .release hpop (by simpa [setPhase] using hi)
    · split
      · exact .release hpop (by simpa [setPhase] using hi)
      · exact .of_pop rfl
  · exact .of_stack [] h.pop.pop.stack rfl
      (fun _ hf => List.mem_of_mem_tail (List.mem_of_mem_tail hf))
      fun _ hf => absurd hf List.not_mem_nil

theorem lays_subscribe (key : Key) (kind : Kind) : Lays h (h.subscribe i key kind) := by
  unfold subscribe; dsimp only
  generalize hg : (({ h with subs := h.subs ++ [{ key, kind, home := i }] } : Hub).onSession i _).push
    (.subscribing h.subs.length) = g
  have hgst : g.stack = .subscribing h.subs.length :: h.stack := by rw [← hg]; rfl
  obtain ⟨new, hnew, he⟩ := exits_register (h := g) (i := i) (s := h.subs.length)
  refine .of_stack (new ++ [.subscribing h.subs.length]) _ (by rw [hnew, hgst]; simp)
    (fun _ hf => hf) fun f hf j hj => ?_
  rcases List.mem_append.1 hf with hf | hf
  · rcases he.frame hf with ⟨l, rfl⟩ | ⟨-, hr⟩
    · cases hj
    · rw [Frame.released_of_report hr] at hj; cases hj
  · cases List.mem_singleton.1 hf
    cases hj

theorem lays_prepare : Lays h (h.prepare i) := by
  obtain ⟨k, c, -, -, hkst, he⟩ := prepare_eq h i
  rw [he]
  exact .of_push (by rw [stack_push, stack_onSession, hkst]) rfl

theorem lays_drop (hi : i < h.sessions.length) : Lays h (h.drop i) := by
  unfold drop; dsimp only
  split
  · refine .release (fun f hf => ?_) (by simpa using hi)
    rcases List.mem_cons.1 hf with rfl | hf
    · exact .inr rfl
    · exact .inl hf
  · exact .of_eq rfl

theorem lays_cancelAll (hi : i < h.sessions.length) : Lays h (h.cancelAll i) := by
  unfold cancelAll; dsimp only
  refine .release (fun f hf => .inl ?_) (by split <;> simpa using hi)
  split at hf <;> exact hf

theorem move_lays (hw : Wired h) (hm : Moved h m h') : Lays h h' := by
  cases hm with
  | settleEvent => exact .of_pop (stack_settleEvent _ _ _)
  | settleTimeout => exact .of_pop (stack_settleTimeout _ _)
  | reportCancel _ => exact .of_pop rfl
  | releaseStep hst => exact lays_releaseStep hst
  | enter hst => exact lays_enter (hw.session_lt hst rfl)
  | drive hst => exact lays_drive (hw.session_lt hst rfl)
  | pass _ | newToken | newModal | openSession => exact .of_eq rfl
  | configure => exact lays_prepare
  | run _ => exact .of_push rfl rfl
  | drop hr => exact lays_drop (mayRun_iff.1 hr).1
  | deliver _ => exact .of_exits (exits_deliver _)
  | fail => exact .of_eq (stack_fail _ _ _)
  | cancel _ => exact .of_exits exits_cancel
  | ring _ _ => exact .of_exits (exits_ring _)
  | cancelAll hr => exact lays_cancelAll (isReachable_iff.1 hr).1
  | cancelToken _ => exact .of_eq (stack_cancelToken _)
  | register _ _ => exact .of_exits exits_register
  | handleWith _ => exact .of_eq rfl
  | timeoutAfter | timeoutWith => exact .of_eq (stack_setTimeout _ _ _)
  | subscribe _ => exact lays_subscribe _ _
  | addHook _ | defaultTimeout _ => exact .of_eq rfl
  | configured _ => exact .of_pop rfl
  | granted _ =>
    unfold grant; dsimp only
    split
    · exact .of_pop rfl
    · exact .of_stack [_] h.pop.stack rfl (fun _ hf => List.mem_of_mem_tail hf)
        fun f hf i hi => by cases List.mem_singleton.1 hf; cases hi
  | declined => exact .of_pop (stack_decline _ _ _)
  | unsubscribed _ => exact .of_pop rfl
  | hookReplied hst => exact lays_hookReplied (hw.session_lt hst rfl)
  | postReplied hst => exact lays_postReplied (hw.session_lt hst rfl)

/-- Only decided sessions are released. -/
theorem Reachable.releasing (hr : Reachable h) (hi : h.isReleasing sid) :
    (h.session sid).isSettled := by
  induction hr using Reachable.induct with
  | init settings => cases hi
  | move a b m ha hm ih =>
    have hm := moved_of_move? hm
    rcases move_lays ha.wired hm sid hi with hi | hs
    · exact settled_move ha hm (ih hi)
    · exact hs

/-! ### What is left to cancel -/

/-- Who joins a session was there before, or has just been made, or joins a session that is
undecided. -/
theorem Turn.members_cases {x y : View} (ht : Turn h h' sid x y) (hs : s ∈ y.self.members) :
    s ∈ x.self.members ∨ s = h.subs.length ∨ (x.self.isSettled → (h'.sub s).isActive = false) := by
  cases ht
  case enrols hin =>
    refine (List.mem_append.1 hs).imp id fun hs => ?_
    cases List.mem_singleton.1 hs
    exact .inr hin
  case subscribes =>
    exact (List.mem_append.1 hs).imp id fun hs => .inl (List.mem_singleton.1 hs)
  case drives hd => cases hd <;> exact .inl hs
  all_goals exact .inl hs

theorem view_subscribe_other (hne : sid ≠ i) (key : Key) (kind : Kind) :
    (h.subscribe i key kind).view sid = h.view sid := by
  have hcancel : ∀ (c : Prop) [Decidable c] (k : Hub) (s : SubId),
      (if c then k.cancel s else k).view sid = k.view sid := by
    intro c _ k s
    split
    · exact view_cancel _ _ _
    · rfl
  unfold subscribe register; dsimp only
  rw [hcancel, view_onSession_other hne, view_push, if_neg (by simp [Frame.session?]),
    view_onSession_other hne]
  rfl

/-- A subscription that is made active is made for a session that is undecided. -/
theorem Shift.active_of_blank {w : SubView} (hs : Shift h h' s blank w) (ha : w.self.isActive) :
    ∃ i rest, h.stack = .configuring i :: rest ∧ (h.session i).claim = none := by
  generalize hv : blank = v at hs
  cases hs
  case born hst hn _ => exact ⟨_, _, hst, hn⟩
  case leaves hl _ => cases hl <;> cases ha
  all_goals cases hv <;> cases ha

/-- What is active in a session that was decided has been active in it before. -/
theorem member_of_settled (ha : Reachable h) (hm : Moved h m h') (hc : (h.session sid).isSettled)
    (hs : s ∈ (h'.session sid).members) (hact : (h'.sub s).isActive) :
    s ∈ (h.session sid).members ∧ (h.sub s).isActive := by
  rcases old_or_new hm ((wired_move ha.wired hm).members sid s hs) with hlt | hnew
  · refine ⟨?_, isActive_before ha hm hlt hact⟩
    rcases (move_turn ha.wired hm sid).members_cases hs with hs | rfl | hin
    · exact hs
    · exact absurd hlt (Nat.lt_irrefl _)
    · exact absurd ((hin hc).symm.trans hact) Bool.false_ne_true
  · obtain ⟨rfl, i, rest, key, kind, hst, rfl⟩ := hnew
    have hsh := move_shift ha.wired hm h.subs.length
    rw [ha.subView_beyond (Nat.le_refl _)] at hsh
    obtain ⟨j, rest', hst', hn⟩ := hsh.active_of_blank hact
    obtain ⟨rfl, -⟩ : i = j ∧ rest = rest' := by simpa using hst.symm.trans hst'
    by_cases hij : sid = i
    · rw [hij, Session.isSettled, hn] at hc; cases hc
    · have hv := congrArg (fun v : View => v.self.members) (view_subscribe_other (h := h) hij key kind)
      rw [show ((h.subscribe i key kind).session sid).members = (h.session sid).members from hv] at hs
      exact absurd (ha.wired.members sid _ hs) (Nat.lt_irrefl _)

/-- Whatever is still active in a session, a release is going to cancel. -/
structure Doomed (h : Hub) (sid : SessionId) : Prop where
  settled : (h.session sid).isSettled
  sweep : ∀ s ∈ (h.session sid).members, (h.sub s).isActive → s ∈ toCancel sid h.stack

theorem Doomed.move (ha : Reachable h) (hm : Moved h m h') (hd : Doomed h sid) :
    Doomed h' sid where
  settled := settled_move ha hm hd.settled
  sweep s hin hact := by
    obtain ⟨old, new, rest, hr⟩ := move_restacks ha.wired hm
    obtain ⟨hin, hbefore⟩ := member_of_settled ha hm hd.settled hin hact
    have hsw := hd.sweep s hin hbefore
    rw [hr.before, toCancel, List.flatMap_append, List.mem_append] at hsw
    rw [hr.after, toCancel, List.flatMap_append, List.mem_append]
    exact hsw.imp (fun hold => hr.sweeps sid s hold hact) id

/-- When no release of such a session is under way, nothing in it is active. -/
theorem Doomed.spent (hd : Doomed h sid) (hn : h.isReleasing sid = false) : Spent h sid where
  settled := hd.settled
  inactive s hin := by
    cases hx : (h.sub s).isActive with
    | false => rfl
    | true =>
      have hs := hd.sweep s hin hx
      rw [toCancel_of_not_releasing hn] at hs
      cases hs

/-- Once nothing is active in a session that was decided, nothing ever is. -/
theorem Spent.later (hr : Reachable h) (hl : Later h h') (hs : Spent h sid) : Spent h' sid := by
  induction hl with
  | refl => exact hs
  | @move a b m hl hm ih =>
    have ha := hr.later hl
    have hm := moved_of_move? hm
    refine ⟨settled_move ha hm ih.settled, fun s hin => Bool.eq_false_iff.2 fun hact => ?_⟩
    obtain ⟨hin, hact⟩ := member_of_settled ha hm ih.settled hin hact
    exact Bool.false_ne_true ((ih.inactive s hin).symm.trans hact)

theorem Spent.activeCount (hs : Spent h sid) : h.activeCount sid = 0 := by
  rw [Hub.activeCount, List.countP_eq_zero]
  intro y hy
  obtain ⟨s, hin, rfl⟩ := List.mem_map.1 hy
  rw [hs.inactive s hin]
  exact Bool.false_ne_true

/-- A release that finds nothing active goes through by steps of the hub alone. -/
theorem release_runs {base : List Frame} {l : List SubId} {n : Nat}
    (hst : h.stack = .releasing sid l n :: base) (hn : ∀ s ∈ l, (h.sub s).isActive = false) :
    ∃ b, h.run? (List.replicate (l.length + 1) .step) = some b ∧ b.stack = base ∧
      b.answer = .count n := by
  have hpop : h.pop.stack = base := stack_pop hst
  have hbusy : h.isBusy := by rw [isBusy, hst]; rfl
  have hstep : h.move? .step = some (h.pop.releaseStep sid l n) := by
    unfold move? step
    rw [if_pos hbusy, hst]
  induction l generalizing h with
  | nil =>
    refine ⟨h.pop.releaseStep sid [] n, ?_, ?_, ?_⟩
    · rw [List.length_nil, List.replicate_one, run?, hstep]; rfl
    · unfold releaseStep; dsimp only
      rw [stack_reply]
      split
      · exact hpop
      · exact hpop
    · unfold releaseStep; rfl
  | cons s l ih =>
    have hs : h.pop.releaseStep sid (s :: l) n = h.pop.push (.releasing sid l n) := by
      unfold releaseStep; dsimp only
      rw [sub_pop, if_neg (by rw [hn s List.mem_cons_self]; exact Bool.false_ne_true)]
    rw [hs] at hstep
    have hst' : (h.pop.push (.releasing sid l n)).stack = .releasing sid l n :: base := by
      rw [stack_push, hpop]
    obtain ⟨b, hr, hb⟩ := ih hst' (fun t ht => hn t (List.mem_cons_of_mem _ ht)) hpop rfl rfl
    exact ⟨b, by rw [List.length_cons, List.replicate_succ, run?, hstep]; exact hr, hb⟩

end
end Hub
end Aftermath
