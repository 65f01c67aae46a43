import Aftermath.Proofs.Turn.Running

/-! Claims, reports and calls are turns of every session; so is the way in which a session is opened,
run and given up. -/

namespace Aftermath.Hub

/-! ### Claims and calls -/

section
variable {h : Hub} {sid i : SessionId} {s : SubId} {rest : List Frame}

/-- A claim and its report, made for a session that was undecided. -/
theorem view_claimed (hi : i < h.sessions.length) {c : Claim} {r : Report} (x : Happening)
    (hx : x.beat? sid = none) (hc : (h.session i).claim = none) :
    (((h.settle i c).note x).report i r).view sid =
      if sid = i then { h.view sid with self := { h.session sid with
        claim := some c, reports := (h.session sid).reports ++ [r] } } else h.view sid := by
  rw [view_report (by simpa [settle] using hi), view_note_silent _ _ hx, view_settle hi]
  by_cases hs : sid = i
  · subst hs
    rw [if_pos rfl, if_pos rfl, if_pos rfl]
    simp only [Session.settled, view_self, hc, Option.none_or]
  · rw [if_neg hs, if_neg hs, if_neg hs]

theorem settleEvent_turn (hi : (h.sub s).home < h.sessions.length) {e : Envelope}
    (hst : h.stack = .settlingEvent s e :: rest) :
    Turn h (h.pop.settleEvent s e) sid (h.view sid) ((h.pop.settleEvent s e).view sid) := by
  have hp : h.view sid = h.pop.view sid := by
    rw [view_of_stack _ _ hst, if_neg (by simp [Frame.session?])]
  rw [hp]
  unfold settleEvent; dsimp only
  split
  · rw [view_reply, view_note_silent _ _ rfl, view_setState]; exact .idle
  · next hs =>
    have hn : (h.pop.session (h.pop.sub s).home).claim = none := by
      simpa [Session.isSettled] using hs
    have hi' : (h.pop.sub s).home < h.pop.sessions.length := hi
    rw [view_reply, view_claimed hi' _ (by rfl) hn]
    apply Turn.of_ite
    intro e
    subst e
    exact .decides (.fired hst rfl) rfl hn

theorem settleTimeout_turn (hi : (h.sub s).home < h.sessions.length)
    (hst : h.stack = .settlingTimeout s :: rest) :
    Turn h (h.pop.settleTimeout s) sid (h.view sid) ((h.pop.settleTimeout s).view sid) := by
  have hp : h.view sid = h.pop.view sid := by
    rw [view_of_stack _ _ hst, if_neg (by simp [Frame.session?])]
  rw [hp]
  unfold settleTimeout; dsimp only
  split
  · rw [view_reply, view_note_silent _ _ rfl, view_setState]; exact .idle
  · next hs =>
    have hn : (h.pop.session (h.pop.sub s).home).claim = none := by
      simpa [Session.isSettled] using hs
    have hi' : (h.pop.sub s).home < h.pop.sessions.length := hi
    rw [view_reply, view_claimed hi' _ (by rfl) hn]
    apply Turn.of_ite
    intro e
    subst e
    exact .decides (.timedOut hst rfl) rfl hn

theorem fail_turn (hi : (h.sub s).home < h.sessions.length) (e : NetworkError) :
    Turn h (h.fail s e) sid (h.view sid) ((h.fail s e).view sid) := by
  unfold fail; dsimp only
  split
  · next ha =>
    obtain ⟨ha, hs⟩ := Bool.and_eq_true_iff.1 ha
    have hn : (h.session (h.sub s).home).claim = none := by simpa [Session.isSettled] using hs
    rw [view_reply, view_claimed hi _ (by rfl) hn]
    apply Turn.of_ite
    intro e
    subst e
    exact .decides (.lost ha rfl) rfl hn
  · exact .idle

theorem reportCancel_turn (hs : s < h.subs.length) (hi : (h.sub s).home < h.sessions.length)
    (hst : h.stack = .reportingCancel s :: rest) :
    Turn h (h.pop.reportCancel s) sid (h.view sid) ((h.pop.reportCancel s).view sid) := by
  have hp : h.view sid = h.pop.view sid := by
    rw [view_of_stack _ _ hst, if_neg (by simp [Frame.session?])]
  have hi' : (h.pop.sub s).home < h.pop.sessions.length := hi
  rw [hp, reportCancel, view_reply, view_report hi']
  exact .of_ite fun e => .hears hs e.symm

theorem view_releaseStep {l : List SubId} {n : Nat} (hst : h.stack = .releasing i l n :: rest) :
    (h.pop.releaseStep i l n).view sid = h.view sid := by
  have hp : h.view sid = h.pop.view sid := by
    rw [view_of_stack _ _ hst, if_neg (by simp [Frame.session?])]
  rw [hp]
  unfold releaseStep
  split
  · rw [view_reply]
    split
    · rfl
    · rw [view_note_silent _ _ rfl]
  · split
    · rw [view_cancel, view_push, if_neg (by simp [Frame.session?])]
    · rw [view_push, if_neg (by simp [Frame.session?])]

theorem cancelAll_turn {h' : Hub} (hr : h.isReachable i) :
    Turn h h' sid (h.view sid) ((h.cancelAll i).view sid) := by
  unfold isReachable at hr
  obtain ⟨hr, hf⟩ := Bool.and_eq_true_iff.1 hr
  obtain ⟨hi, hu⟩ := Bool.and_eq_true_iff.1 hr
  have hi : i < h.sessions.length := by simpa using hi
  unfold cancelAll; dsimp only
  generalize hg : (if (h.session i).cancelled then h else _) = g
  have hlen : i < g.sessions.length := by rw [← hg]; split <;> simpa using hi
  have hv : g.view sid =
      if sid = i then { h.view sid with self := { h.session sid with cancelled := true } }
      else h.view sid := by
    rw [← hg]
    split
    · next hc =>
      by_cases hs : sid = i
      · subst hs; rw [if_pos rfl, ← hc]; rfl
      · rw [if_neg hs]
    · rw [view_note_silent _ _ rfl, view_onSession _ _ _ hi]; rfl
  rw [view_release hlen, hv]
  by_cases hs : sid = i
  · subst hs
    rw [if_pos rfl, if_pos rfl]
    exact .withdrawn (by simpa using hu) (by simpa using hf)
  · rw [if_neg hs, if_neg hs]; exact .idle

theorem view_revoked (sid : SessionId) (l : List SessionId) :
    (l.foldl (fun h j => if (h.session j).cancelled then h
      else (h.onSession j fun x => { x with cancelled := true }).note (.revoked j)) h).view sid =
        h.view sid ∨
    (l.foldl (fun h j => if (h.session j).cancelled then h
      else (h.onSession j fun x => { x with cancelled := true }).note (.revoked j)) h).view sid =
        { h.view sid with self := { h.session sid with cancelled := true } } := by
  induction l generalizing h with
  | nil => exact .inl rfl
  | cons j l ih =>
    rw [List.foldl_cons]
    generalize hg : (if (h.session j).cancelled then h else _) = g
    have hv : g.view sid = h.view sid ∨
        g.view sid = { h.view sid with self := { h.session sid with cancelled := true } } := by
      rw [← hg]
      split
      · exact .inl rfl
      · rw [view_note_silent _ _ rfl]
        by_cases hj : j < h.sessions.length
        · rw [view_onSession _ _ _ hj]
          split
          · exact .inr rfl
          · exact .inl rfl
        · left
          simp [onSession, List.modify_eq_self (Nat.le_of_not_lt hj), view, session, thread, beats]
    rcases ih (h := g) with hr | hr <;> rcases hv with hv | hv
    · exact .inl (hr.trans hv)
    · exact .inr (hr.trans hv)
    · refine .inr (hr.trans ?_)
      rw [← view_self, hv]; rfl
    · refine .inr (hr.trans ?_)
      rw [← view_self, hv]

theorem cancelToken_turn {h' : Hub} (t : TokenId) :
    Turn h h' sid (h.view sid) ((h.cancelToken t).view sid) := by
  unfold cancelToken; dsimp only
  split
  · exact .idle
  · generalize hg : ({ h with tokens := h.tokens.set t _ } : Hub) = g
    have hv : g.view sid = h.view sid := by rw [← hg]; rfl
    rw [← hv]
    rcases view_revoked (h := g) sid (h.token t).sessions with hr | hr
    · rw [hr]; exact .idle
    · rw [hr]; exact .revoked

end

/-! ### Opening, running and giving up -/

section
variable {h h' : Hub} {sid i : SessionId} {s : SubId} {rest : List Frame}

theorem not_isRun_of_isRunning (hr : h.isRunning i = false) :
    (h.thread i).any Frame.isRun = false := by
  simp only [isRunning, List.any_eq_false, thread, List.mem_filter, decide_eq_true_eq] at hr ⊢
  intro f hf
  have hn := hr f hf.1
  cases f <;> simp_all [Frame.session?, Frame.isRun]

theorem mayRun_iff : h.mayRun i ↔ i < h.sessions.length ∧ h.isRunning i = false ∧
    (h.session i).isOver = false := by
  simp [mayRun, and_assoc]

theorem isReachable_iff : h.isReachable i ↔ i < h.sessions.length ∧ (h.session i).phase ≠ .unopened ∧
    (h.session i).phase ≠ .forgone := by
  simp [isReachable, and_assoc]

theorem prepare_turn {h' : Hub} (hi : i < h.sessions.length) (hp : (h.session i).phase = .unopened)
    (ht : (h.thread i).any Frame.isRun = false ∨ ∃ u, h.thread i = .entering i :: u) :
    Turn h h' sid (h.view sid) ((h.prepare i).view sid) := by
  obtain ⟨g, c, hv, hse, -, he⟩ := prepare_eq h i
  have hi' : i < g.sessions.length := by rw [hse]; exact hi
  rw [he, view_push, view_onSession _ _ _ hi', hv]
  by_cases hs : sid = i
  · subst hs
    rw [if_pos (by rfl), if_pos rfl]
    exact .prepares hp ht
  · rw [if_neg (by simpa [Frame.session?] using fun e => hs e.symm), if_neg hs]; exact .idle

theorem enter_turn {h' : Hub} (hst : h.stack = .entering i :: rest) (hi : i < h.sessions.length) :
    Turn h h' sid (h.view sid) ((h.enter i).view sid) := by
  have hth : h.thread i = .entering i :: h.pop.thread i :=
    congrArg View.thread (view_of_stack h i hst |>.trans (if_pos rfl))
  have hd : (h.pop.push (.driving i)).view sid =
      if sid = i then ⟨h.session i, .driving i :: h.pop.thread i, h.beats i⟩ else h.view sid := by
    by_cases hs : sid = i
    · subst hs; rw [view_push, if_pos (by rfl), if_pos rfl]; rfl
    · rw [view_push_other hs rfl, view_pop_other hs hst rfl, if_neg hs]
  have hv : h.view i = ⟨h.session i, .entering i :: h.pop.thread i, h.beats i⟩ := by
    rw [← hth]; rfl
  unfold enter; dsimp only
  split
  · next hp => exact prepare_turn hi hp (.inr ⟨_, hth⟩)
  · next hp =>
    split
    · next hc =>
      rw [view_release (by simpa using hi), view_onSession _ _ _ (by exact hi), hd]
      by_cases hs : sid = i
      · subst hs; rw [if_pos rfl, if_pos rfl, if_pos rfl, hv]; exact .aborts hp hc
      · rw [if_neg hs, if_neg hs, if_neg hs]; exact .idle
    · next hc =>
      have hc : (h.session i).cancelled = false := by simpa using hc
      have he : Turn h h' sid (h.view sid) (if sid = i then
          ⟨{ h.session i with phase := if (h.session i).phase = .prepared then .checking
              else (h.session i).phase }, .driving i :: h.pop.thread i, h.beats i⟩
          else h.view sid) := by
        apply Turn.of_ite
        intro e
        subst e
        rw [hv]
        exact .enters hp hc
      split
      · next hp' =>
        rw [if_pos hp'] at he
        rw [view_setPhase (by exact hi), hd]
        by_cases hs : sid = i
        · subst hs; rw [if_pos rfl] at he ⊢; rw [if_pos rfl]; exact he
        · rw [if_neg hs] at he ⊢; rw [if_neg hs]; exact he
      · next hp' => rw [if_neg hp'] at he; rw [hd]; exact he

theorem drop_turn (hr : h.mayRun i) :
    Turn h (h.drop i) sid (h.view sid) ((h.drop i).view sid) := by
  obtain ⟨hi, hr, ho⟩ := mayRun_iff.1 hr
  have ht := not_isRun_of_isRunning hr
  unfold drop; dsimp only
  split
  · next hu =>
    generalize hg : (h.push (.driving i)).onSession i _ = g
    have hi' : i < g.sessions.length := by rw [← hg]; simpa using hi
    have hst : g.stack = .driving i :: h.stack := by rw [← hg]; rfl
    have hv : g.view sid = if sid = i then ⟨{ h.session i with running := none, phase := .dropping },
        .driving i :: h.thread i, h.beats i⟩ else h.view sid := by
      rw [← hg, view_onSession _ _ _ (by exact hi)]
      by_cases hs : sid = i
      · subst hs; rw [if_pos rfl, if_pos rfl, view_push, if_pos (by rfl)]; rfl
      · rw [if_neg hs, if_neg hs, view_push_other hs rfl]
    have hm : (g.session i).members = (h.session i).members := by
      rw [← hg, session_onSession _ _ _ (by exact hi), if_pos rfl]; rfl
    rw [view_release hi', hv]
    by_cases hs : sid = i
    · subst hs
      rw [if_pos rfl, if_pos rfl]
      exact .drops ht hu ⟨_, by rw [stack_release, hm, hst]⟩
    · rw [if_neg hs, if_neg hs]; exact .idle
  · next hu =>
    rw [view_setPhase hi]
    apply Turn.of_ite
    intro e
    subst e
    exact .forgets ht ho (by simpa using hu)

theorem inactive_cancel (hs : s < h.subs.length) : ((h.cancel s).sub s).isActive = false := by
  unfold cancel
  split
  · have hv : ((h.setState s .cancelled).finish s (.reportingCancel s)).subView s = _ :=
      subView_leaving hs rfl
    rw [if_pos rfl] at hv
    exact congrArg (fun v : SubView => v.self.isActive) hv
  · next ha => exact Bool.not_eq_true _ ▸ ha

theorem register_turn (hr : h.isReachable i) (hs : s < h.subs.length) :
    Turn h (h.register i s) sid (h.view sid) ((h.register i s).view sid) := by
  unfold isReachable at hr
  obtain ⟨hr, -⟩ := Bool.and_eq_true_iff.1 hr
  obtain ⟨hi, hu⟩ := Bool.and_eq_true_iff.1 hr
  have hi : i < h.sessions.length := by simpa using hi
  have hc : (h.session i).isSettled → ((h.register i s).sub s).isActive = false := by
    intro hset
    unfold register; dsimp only
    rw [if_pos hset]
    exact inactive_cancel hs
  have hv : (h.register i s).view sid = if sid = i then { h.view sid with self :=
      (if (h.session i).members.contains s then h.session i
      else { h.session i with members := (h.session i).members ++ [s] }) } else h.view sid := by
    unfold register; dsimp only
    generalize hg : h.onSession i _ = g
    have hv : (if (h.session i).isSettled then g.cancel s else g).view sid = g.view sid := by
      split
      · exact view_cancel _ _ _
      · rfl
    rw [hv, ← hg, view_onSession _ _ _ hi]
    split
    · next e => subst e; rfl
    · rfl
  rw [hv]
  apply Turn.of_ite
  intro e
  subst e
  split
  · exact .idle
  · next hm => exact .enrols hs (by simpa using hu) (by simpa using hm) hc

theorem view_configuring (hst : h.stack = .configuring i :: rest) :
    h.view i = ⟨h.session i, .configuring i :: h.pop.thread i, h.beats i⟩ := by
  rw [view_of_stack _ _ hst, if_pos (by rfl)]; rfl

/-- A new subscription is a member of the session it is made for, and one more that can report to it. -/
theorem view_subscribe (hw : Wired h) (hi : i < h.sessions.length) (key : Key) (kind : Kind) :
    (h.subscribe i key kind).view sid = if sid = i then
      { h.view i with self := { h.session i with
        members := (h.session i).members ++ [h.subs.length], holders := (h.session i).holders + 1 } }
      else h.view sid := by
  have hn : h.subs.length ∉ (h.session i).members := fun hm =>
    Nat.lt_irrefl _ (hw.members i _ hm)
  unfold subscribe register; dsimp only
  generalize hg : ({ h with subs := h.subs ++ [{ key, kind, home := i }] } : Hub).onSession i _ = g
  have hgv : (g.push (.subscribing h.subs.length)).view sid = if sid = i then
      { h.view i with self := { h.session i with holders := (h.session i).holders + 1 } }
      else h.view sid := by
    rw [view_push, if_neg (by simp [Frame.session?]), ← hg, view_onSession _ _ _ (by exact hi)]
    split
    · next e => subst e; rfl
    · rfl
  generalize hk : (g.push (.subscribing h.subs.length)).onSession i _ = k
  have hv : ∀ c : Prop, [Decidable c] → (if c then k.cancel h.subs.length else k).view sid = k.view sid := by
    intro c _
    split
    · exact view_cancel _ _ _
    · rfl
  rw [hv, ← hk, view_onSession _ _ _ (by rw [sessions_push, ← hg]; simpa using hi), hgv]
  by_cases hs : sid = i
  · rw [if_pos hs, if_pos hs, if_pos hs]
    simp only [List.contains_eq_mem, hn, decide_false]
    rfl
  · rw [if_neg hs, if_neg hs, if_neg hs]

theorem subscribe_turn (hw : Wired h) (hst : h.stack = .configuring i :: rest)
    (hi : i < h.sessions.length) (key : Key) (kind : Kind) (hlen : h.subs.length < h'.subs.length) :
    Turn h h' sid (h.view sid) ((h.subscribe i key kind).view sid) := by
  have hn : h.subs.length ∉ (h.session i).members := fun hm =>
    Nat.lt_irrefl _ (hw.members i _ hm)
  rw [view_subscribe hw hi]
  split
  · next e =>
    subst e
    rw [view_configuring hst]
    exact .subscribes hn hlen
  · exact .idle

theorem open_turn {token : Option TokenId} {modal : Option ModalId} :
    Turn h h' sid (h.view sid)
      (({ h with sessions := h.sessions ++ [{ token, modal }] } : Hub).view sid) := by
  generalize hg : ({ h with sessions := h.sessions ++ [{ token, modal }] } : Hub) = g
  have hv : g.view sid = ⟨g.session sid, h.thread sid, h.beats sid⟩ := by rw [← hg]; rfl
  rw [hv]
  rcases Nat.lt_trichotomy sid h.sessions.length with hs | hs | hs
  · have he : g.session sid = h.session sid := by
      rw [← hg]; simp [session, List.getElem?_append_left hs]
    rw [he]; exact .idle
  · have he : g.session sid = { token, modal } := by rw [← hg]; simp [session, hs]
    have hd : h.session sid = default := by simp [session, hs]
    have hv : h.view sid = ⟨default, h.thread sid, h.beats sid⟩ := by rw [← hd]; rfl
    rw [he, hv]; exact .opens
  · have he : g.session sid = h.session sid := by
      rw [← hg]
      simp only [session, List.getD_eq_getElem?_getD]
      rw [List.getElem?_eq_none (by simpa using Nat.succ_le_of_lt hs),
        List.getElem?_eq_none (Nat.le_of_lt hs)]
    rw [he]; exact .idle

end

end Aftermath.Hub
