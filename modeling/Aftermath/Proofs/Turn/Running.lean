import Aftermath.Proofs.Turn.Basic

/-! A step of a session that runs is a turn of it, and of no other session. -/

namespace Aftermath.Hub

section
variable {h : Hub} {i : SessionId} {rest : List Frame}

theorem members_onSession (hi : i < h.sessions.length) {f : Session → Session}
    (hf : ∀ x, (f x).members = x.members) :
    ((h.onSession i f).session i).members = (h.session i).members := by
  rw [session_onSession _ _ _ hi, if_pos rfl, hf]

theorem members_setPhase (hi : i < h.sessions.length) (p : Phase) :
    ((h.setPhase i p).session i).members = (h.session i).members :=
  members_onSession hi fun _ => rfl

theorem releases_close (hi : i < h.sessions.length) {x : Session}
    (hx : (h.session i).members = x.members) (hst : h.stack = .driving i :: rest) (e : Ending) :
    (h.close i e).Releases i x :=
  ⟨rest, by rw [close, stack_release, members_setPhase hi, hx, stack_setPhase, hst]⟩

theorem releases_conclude (hi : i < h.sessions.length) {x : Session}
    (hx : (h.session i).members = x.members) (hst : h.stack = .driving i :: rest) (e : Ending) :
    (h.conclude i e).Releases i x :=
  releases_close (h := h.note (.ending i e)) hi hx hst e

/-- A session that concludes does so with its members and its beats as they are. -/
theorem conclude_drives {g : Hub} (hg : g.view i = h.view i) (hs : g.sessions = h.sessions)
    (hst : h.stack = .driving i :: rest) (hgst : g.stack = h.stack) (hi : i < h.sessions.length)
    {e : Ending} (hc : Closes h i (h.session i) e) :
    Drives h (g.conclude i e) i (h.view i) ((g.conclude i e).view i) := by
  have hi' : i < g.sessions.length := by rw [hs]; exact hi
  rw [view_conclude hi', if_pos rfl, hg]
  exact .closes hc (releases_conclude hi' (by rw [session_eq hs]) (hgst.trans hst) e)

theorem handleFailure_drives (hst : h.stack = .driving i :: rest) (hi : i < h.sessions.length)
    {e : PostError} (hp : (h.session i).phase = .refused e ∨
      ∃ n, (h.session i).phase = .resolving (.lost n) ∧ e = .network n) :
    Drives h (h.handleFailure i e) i (h.view i) ((h.handleFailure i e).view i) := by
  unfold handleFailure
  split
  · next hf =>
    exact conclude_drives (view_note_silent _ _ rfl) rfl hst rfl hi
      (.unhandled hp (by rw [hf]))
  · next hf =>
    rw [view_setPhase (by exact hi), if_pos rfl, view_note_silent _ _ rfl]
    exact .handles (.failure hp hf (by simp))

theorem resolve_drives (hst : h.stack = .driving i :: rest) (hi : i < h.sessions.length) {r : Report}
    (hp : (h.session i).phase = .resolving r) :
    Drives h (h.resolve i r) i (h.view i) ((h.resolve i r).view i) := by
  unfold resolve; dsimp only
  split
  · split
    · next hm =>
      rw [view_setPhase (by exact hi), if_pos rfl, view_note_silent _ _ rfl]
      exact .handles (.fired hp (by simpa using hm))
    · next hm =>
      exact conclude_drives rfl rfl hst rfl hi (.unknown (.inl ⟨_, hp⟩) (by simpa using hm))
  · split
    · next hm =>
      rw [view_setPhase (by exact hi), if_pos rfl, view_note_silent _ _ rfl]
      exact .handles (.timedOut hp (by simpa using hm))
    · next hm =>
      exact conclude_drives rfl rfl hst rfl hi (.unknown (.inr hp) (by simpa using hm))
  · exact handleFailure_drives hst hi (.inr ⟨_, hp, rfl⟩)
  · rw [view_setPhase hi, if_pos rfl]; exact .returns hp

theorem await_drives (hst : h.stack = .driving i :: rest) (hi : i < h.sessions.length)
    (hp : (h.session i).phase = .awaiting) :
    Drives h (h.await i) i (h.view i) ((h.await i).view i) := by
  unfold await; dsimp only
  split
  · next hr =>
    split
    · next hh => exact conclude_drives rfl rfl hst rfl hi (.unheld hp hr hh)
    · rw [view_reply, view_driving hst]; exact .waits hp hr
  · next s rs hr =>
    generalize hg : (h.onSession i fun x => { x with reports := rs }).note (.onCancelled i s) = g
    have hi' : i < g.sessions.length := by rw [← hg]; simpa using hi
    have hv : g.view i = { h.view i with self := { h.session i with reports := rs } } := by
      rw [← hg, view_note_silent _ _ rfl, view_onSession _ _ _ hi, if_pos rfl]; rfl
    have hcan : g.allCancelled i = h.allCancelled i := by
      have hm : g.members i = h.members i := by
        have hs : (g.session i).members = (h.session i).members := congrArg (·.self.members) hv
        unfold members; rw [hs, ← hg]; rfl
      unfold allCancelled; rw [hm]
    rw [hcan]
    split
    · next hd =>
      obtain ⟨ha, hs⟩ := Bool.and_eq_true_iff.1 hd
      have hc : (h.session i).claim = none := by simpa [Session.isSettled] using hs
      have hv' : ((g.setPhase i .deserted).release i .deserted).view i =
          { h.view i with self := { h.session i with
              reports := rs, phase := .deserted, claim := some .deserted } } := by
        rw [view_release (by simpa [setPhase] using hi'), if_pos rfl, view_setPhase hi', if_pos rfl, hv]
        simp only [Session.settled, hc, Option.none_or]
      rw [hv']
      exact .deserted hp hr hc ha
    · next hd =>
      rw [hv]
      refine .dismisses hp hr ?_
      by_cases hs : (h.session i).isSettled
      · exact .inl hs
      · exact .inr (by simpa [hs] using hd)
  · next r rs hnc hr =>
    rw [view_release (by simpa using hi), if_pos rfl, view_onSession _ _ _ hi, if_pos rfl]
    refine .resolves hp hr ?_
    cases r with
    | cancelled s => exact (hnc s rfl).elim
    | fired | timedOut | lost => rfl

/-- A session that leaves the stack keeps its beats. -/
theorem view_left {g : Hub} (hv : g.view i = h.view i) (hs : g.sessions = h.sessions)
    (hgst : g.stack = h.stack) (hi : i < h.sessions.length) (f : Session → Session) (a : Answer) :
    (((g.onSession i f).pop).reply a).view i = ⟨f (h.session i), h.pop.thread i, h.beats i⟩ := by
  have hx : (g.onSession i f).session i = f (h.session i) := by
    rw [session_onSession _ _ _ (by rw [hs]; exact hi), if_pos rfl, session_eq hs]
  have ht : (g.onSession i f).pop.thread i = h.pop.thread i := by
    simp only [thread, pop, stack_onSession, hgst]
  have hb : g.beats i = h.beats i := congrArg View.beats hv
  show View.mk ((g.onSession i f).session i) ((g.onSession i f).pop.thread i) (g.beats i) = _
  rw [hx, ht, hb]

theorem leave_drives (hst : h.stack = .driving i :: rest) (hi : i < h.sessions.length) {e : Ending}
    (hp : (h.session i).phase = .closing e) :
    Drives h (h.leave i e) i (h.view i) ((h.leave i e).view i) := by
  obtain ⟨g, hv, hs, hgst, he⟩ := leave_eq h i e
  rw [he, view_left (hv i) hs hgst hi, view_driving hst]
  exact .leaves hp

/-- Arming its members starts the countdowns of those that wait. -/
theorem armed_of_armAll (hm : ∀ s ∈ (h.session i).members, s < h.subs.length) {s : SubId}
    (hs : s ∈ (h.session i).members) (ha : ((h.armAll i).sub s).isActive) :
    ((h.armAll i).sub s).armed ∧ ((h.armAll i).sub s).countdown.isArmed := by
  obtain ⟨c, hv, hdue, -⟩ := subView_foldl_arm (t := s)
    ((h.session i).timeout.getD h.settings.defaultTimeout) (h.session i).members hm
  rw [if_pos hs] at hv
  have hsub : (h.armAll i).sub s = { h.sub s with armed := true, countdown := c } :=
    congrArg SubView.self hv
  rw [hsub] at ha ⊢
  exact ⟨rfl, by rw [Countdown.isArmed, hdue hs ha]; rfl⟩

/-- A session looks whether everything is active. -/
theorem check_drives (hi : i < h.sessions.length) (hr : (h.session i).running = none)
    (hp : (h.session i).phase = .checking) :
    Drives h (h.drive i) i (h.view i) ((h.drive i).view i) := by
  simp only [drive, hr, hp]
  split
  · next hc =>
    obtain ⟨ha, hs⟩ := Bool.and_eq_true_iff.1 hc
    have hn : (h.session i).claim = none := by simpa [Session.isSettled] using hs
    rw [view_release (by simpa [setPhase] using hi), if_pos rfl, view_setPhase hi, if_pos rfl]
    simp only [Session.settled]
    rw [show (h.view i).self.claim = none from hn, Option.none_or]
    exact .fails hp hn (by simpa using ha)
  · next hc =>
    split
    · next hs =>
      rw [view_setPhase hi, if_pos rfl]
      exact .skips hp hs
    · next hs =>
      rw [view_setPhase (by simpa using hi), if_pos rfl, view_writeBusy]
      exact .passes hp (Session.claim_eq_none hs) (by simpa [hs] using hc)

theorem begin_drives (hi : i < h.sessions.length) {k : HookId} {arg : Argument} {p : Phase}
    (hn : (h.session i).phase.next? = some (k, arg, p)) :
    Drives h ((h.setPhase i p).begin i k arg) i (h.view i)
      (((h.setPhase i p).begin i k arg).view i) := by
  have hv := view_setPhase hi i p
  rw [view_begin (by simpa [setPhase] using hi), ← view_self, ← view_thread, ← view_beats, hv,
    if_pos rfl]
  exact .begins hn

/-- With its first hooks behind it a session posts, unless it is decided. -/
theorem post_drives (hi : i < h.sessions.length) (hr : (h.session i).running = none)
    (hp : (h.session i).phase = .preparing []) :
    Drives h (h.drive i) i (h.view i) ((h.drive i).view i) := by
  simp only [drive, hr, hp]
  split
  · next hs =>
    rw [view_setPhase (by exact hi), if_pos rfl, view_note_silent _ _ rfl]
    exact .decided hp hs
  · next hs =>
    rw [view_push, if_pos (by rfl), view_setPhase (by exact hi), if_pos rfl, view_note]
    simp only [Happening.beat?, if_pos, Option.toList_some]
    exact .posts hp (Session.claim_eq_none hs)

/-- With its acknowledge hooks behind it a session arms its countdowns and waits. -/
theorem arm_drives (hst : h.stack = .driving i :: rest) (hi : i < h.sessions.length)
    (hm : ∀ s ∈ (h.session i).members, s < h.subs.length) (hr : (h.session i).running = none)
    (hp : (h.session i).phase = .acknowledging []) :
    Drives h (h.drive i) i (h.view i) ((h.drive i).view i) := by
  simp only [drive, hr, hp]
  split
  · next he => exact conclude_drives rfl rfl hst rfl hi (.unawaited hp (by simpa using he))
  · next he =>
    have hv : ((if (h.session i).isSettled then h else h.armAll i).setPhase i .awaiting).view i =
        { h.view i with self.phase := .awaiting } := by
      rw [view_setPhase (by split <;> simp [hi]), if_pos rfl]
      split
      · rfl
      · rw [view_armAll]
    rw [hv]
    refine .awaits hp (by simpa using he) fun hn s hs ha => ?_
    rw [if_neg (by simp [Session.isSettled, show (h.session i).claim = none from hn])] at ha ⊢
    exact armed_of_armAll hm hs ha

/-- Every step of a session that runs, unless it resumes a hook. -/
theorem drive_drives (hst : h.stack = .driving i :: rest) (hi : i < h.sessions.length)
    (hm : ∀ s ∈ (h.session i).members, s < h.subs.length) (hr : (h.session i).running = none) :
    Drives h (h.drive i) i (h.view i) ((h.drive i).view i) := by
  cases hp : (h.session i).phase
  case checking => exact check_drives hi hr hp
  case preparing ks =>
    cases ks with
    | nil => exact post_drives hi hr hp
    | cons k ks => simp only [drive, hr, hp]; exact begin_drives hi (by rw [hp]; rfl)
  case acknowledging ks =>
    cases ks with
    | nil => exact arm_drives hst hi hm hr hp
    | cons k ks => simp only [drive, hr, hp]; exact begin_drives hi (by rw [hp]; rfl)
  case handling ks arg e =>
    cases ks with
    | nil => simp only [drive, hr, hp]; exact conclude_drives rfl rfl hst rfl hi (.handled hp)
    | cons k ks => simp only [drive, hr, hp]; exact begin_drives hi (by rw [hp]; rfl)
  all_goals simp only [drive, hr, hp]
  case unready => exact conclude_drives (view_note_silent _ _ rfl) rfl hst rfl hi (.unready hp)
  case posting => rw [view_push, if_pos (by rfl)]; exact .resumes hp
  case awaiting => exact await_drives hst hi hp
  case resolving => exact resolve_drives hst hi hp
  case refused => exact handleFailure_drives hst hi (.inl hp)
  case unheard => exact conclude_drives (view_note_silent _ _ rfl) rfl hst rfl hi (.unheard hp)
  case deserted => exact conclude_drives rfl rfl hst rfl hi (.deserted hp)
  case cancelling =>
    exact conclude_drives (view_note_silent _ _ rfl) rfl hst rfl hi (.cancelling hp)
  case closing => exact leave_drives hst hi hp
  case dropping =>
    rw [view_left (by simp) (by simp) (by simp) hi, view_driving hst]
    exact .vanishes hp
  all_goals
    rw [view_reply, view_driving hst]
    exact .stops (by rw [hp]; rfl)

theorem drive_other {sid : SessionId} (hne : sid ≠ i) (hst : h.stack = .driving i :: rest) :
    (h.drive i).view sid = h.view sid := by
  have hpop : h.pop.view sid = h.view sid := view_pop_other hne hst rfl
  unfold drive; dsimp only
  split
  · exact view_push_other hne rfl
  · split
    case h_1 =>
      split
      · rw [view_release_other hne, view_setPhase_other hne]
      · split
        · rw [view_setPhase_other hne]
        · rw [view_setPhase_other hne, view_writeBusy]
    case h_2 | h_11 | h_15 => rw [view_conclude_other hne, view_note_silent _ _ rfl]
    case h_3 | h_6 | h_13 => rw [view_begin_other hne, view_setPhase_other hne]
    case h_4 =>
      split
      · rw [view_setPhase_other hne, view_note_silent _ _ rfl]
      · rw [view_push_other hne rfl, view_setPhase_other hne, view_note_other hne]
        intro b hb
        simp only [Happening.beat?] at hb
        split at hb
        · next e => exact e.symm
        · cases hb
    case h_5 => exact view_push_other hne rfl
    case h_7 =>
      split
      · rw [view_conclude_other hne]
      · rw [view_setPhase_other hne]
        split
        · rfl
        · rw [view_armAll]
    case h_8 => rw [view_await_other hne hst]
    case h_9 => rw [view_resolve_other hne]
    case h_10 => rw [view_handleFailure_other hne]
    case h_12 | h_14 => rw [view_conclude_other hne]
    case h_16 e _ =>
      obtain ⟨g, hv, -, hgst, he⟩ := leave_eq h i e
      rw [he, view_reply, view_pop_other hne (by rw [stack_onSession, hgst, hst]) rfl,
        view_onSession_other hne, hv]
    case h_17 =>
      rw [view_reply, view_pop_other hne (by rw [stack_onSession, stack_writeBusy, hst]) rfl,
        view_onSession_other hne, view_writeBusy]
    all_goals exact hpop

theorem drive_turn {sid : SessionId} (hst : h.stack = .driving i :: rest)
    (hi : i < h.sessions.length) (hm : ∀ s ∈ (h.session i).members, s < h.subs.length) :
    Turn h (h.drive i) sid (h.view sid) ((h.drive i).view sid) := by
  by_cases hs : sid = i
  · subst hs
    have hv := view_driving hst
    cases hr : (h.session sid).running with
    | none =>
      have hd := drive_drives hst hi hm hr
      rw [hv] at hd ⊢
      exact .drives hr hd
    | some q =>
      obtain ⟨k, arg⟩ := q
      have hk : h.drive sid = h.push (.hook sid k arg) := by
        unfold drive; dsimp only; rw [hr]
      rw [hk, view_push, if_pos (by rfl), hv]
      exact .rehooks hr
  · rw [drive_other hs hst]; exact .idle

end

end Aftermath.Hub
