import Aftermath.Proofs.Deadline.Expiry

/-! The schedule of countdowns. A session that was acknowledged arms its members; from then on the
deadline of each is set by the last timeout that it is given, and the session is decided by a timeout at
the very moment at which the first deadline of its subscriptions comes. -/

namespace Aftermath.Hub

section
variable {h h' : Hub} {sid : SessionId} {s : SubId} {rest : List Frame} {n : Nat}

/-! ### An alarm that can ring -/

theorem Rings.mayRing (hg : Rings h s n) : h.mayRing s n := by
  simp [Hub.mayRing, hg.due]

theorem Rings.move? (hg : Rings h s n) (hst : h.stack = []) :
    h.move? (.ring s n) = some (h.ring s n) := by
  rw [move?_of_idle (by rw [isBusy, hst])]
  simp [call?, lt_of_isActive hg.active, hg.mayRing]

/-- The lease goes back first, if there is one, and then the subscription expires. -/
theorem Rings.stack (hg : Rings h s n) : ∃ l : Option LeaseId,
    (h.ring s n).stack = l.toList.map .unsubscribing ++ .settlingTimeout s :: h.stack := by
  unfold ring; dsimp only
  rw [Countdown.ring?, if_pos hg.pending]
  dsimp only
  rw [if_pos hg.active, stack_finish]
  exact ⟨_, rfl⟩

/-- A subscription that expires decides its session, if it is undecided. -/
theorem step_expires (hst : h.stack = .settlingTimeout s :: rest)
    (hi : (h.sub s).home < h.sessions.length) (hn : (h.session (h.sub s).home).claim = none) :
    ∃ a, h.move? .step = some a ∧ (a.session (h.sub s).home).claim = some (.timedOut s) ∧
      a.clock = h.clock := by
  have hm : h.move? .step = some (h.pop.settleTimeout s) := by
    rw [Hub.move?, if_pos (isBusy_of_stack hst rfl), step]
    simp only [hst]
  refine ⟨_, hm, ?_, ?_⟩
  · have hns : ¬ (h.pop.session (h.pop.sub s).home).isSettled := by
      rw [Session.isSettled, show (h.pop.session (h.pop.sub s).home).claim = none from hn]
      exact Bool.false_ne_true
    unfold settleTimeout; dsimp only
    rw [if_neg hns]
    exact congrArg Session.claim (session_claimed (h := h.pop) hi _ hn _ _)
  · exact clock_of_not_pass (moved_of_move? hm) (by simp)

/-- Where nothing is under way, an alarm that can ring decides the undecided session of its
subscription. -/
theorem Rings.decides (hr : Reachable h) (hg : Rings h s n) (hst : h.stack = [])
    (hn : (h.session (h.sub s).home).claim = none) : ∃ ns a,
      (ns = [.ring s n, .step] ∨ ns = [.ring s n, .unsubscribed, .step]) ∧ h.run? ns = some a ∧
        (a.session (h.sub s).home).claim = some (.timedOut s) ∧ a.clock = h.clock := by
  have hs := lt_of_isActive hg.active
  have hmv := hg.move? hst
  have hhome := (sub_fixed hr.wired (moved_of_move? hmv) hs).1
  have hsess : (h.ring s n).session (h.sub s).home = h.session (h.sub s).home :=
    congrArg View.self (view_ring _ _ _ _)
  have hlen := sessions_length_le (moved_of_move? hmv)
  have hclock : (h.ring s n).clock = h.clock := clock_of_not_pass (moved_of_move? hmv) (by simp)
  obtain ⟨l, hstk⟩ := hg.stack
  rw [hst] at hstk
  generalize h.ring s n = k at hmv hhome hsess hlen hclock hstk
  rw [← hhome] at hn hsess ⊢
  have hi : (k.sub s).home < k.sessions.length := by
    rw [hhome]
    exact Nat.lt_of_lt_of_le (hr.wired.homes s hs) hlen
  cases l with
  | none =>
    obtain ⟨a, hstep, hc, ha⟩ := step_expires hstk hi (by rw [hsess]; exact hn)
    refine ⟨_, a, .inl rfl, ?_, hc, ha.trans hclock⟩
    rw [run?, hmv, Option.bind_some, run?, hstep]
    rfl
  | some l =>
    have hpop : k.move? .unsubscribed = some k.pop := by
      rw [move?_of_idle (by rw [isBusy, hstk]; rfl)]
      simp [call?, hstk]
    obtain ⟨a, hstep, hc, ha⟩ := step_expires (h := k.pop) (stack_pop hstk) hi
      (by rw [show k.pop.session (k.pop.sub s).home = _ from hsess]; exact hn)
    refine ⟨_, a, .inr rfl, ?_, hc, ha.trans hclock⟩
    rw [run?, hmv, Option.bind_some, run?, hpop, Option.bind_some, run?, hstep]
    rfl

/-! ### The ending -/

/-- A post is acknowledged or refused, not both. -/
theorem Reachable.not_refused (hr : Reachable h) (ha : .acknowledged ∈ h.beats sid) (e : PostError) :
    .refused e ∉ h.beats sid := by
  obtain ⟨all, w, ⟨o, arg, ho, -, rfl⟩, hp⟩ := (hr.heard sid).cut_short
  have hack : .acknowledged ∈ o := by
    rcases List.mem_append.1 (hp.subset ha) with ho | hpl
    · exact ho
    · simp [played] at hpl
  obtain rfl := ho.of_acknowledged hack
  intro hin
  have hx := hp.subset hin
  simp [Hooks.acknowledged, Hooks.prepared, played] at hx

theorem Reachable.ending_of_expired {e : Ending} (hr : Reachable h) (ha : .acknowledged ∈ h.beats sid)
    (hc : (h.session sid).claim = some (.timedOut s)) (hp : (h.session sid).phase = .ended e)
    (hn : (h.session sid).cancelled = false) (hb : e.isBroken = false) :
    e = .resolved (.negative (.timedOut (h.sub s).key)) := by
  have hj := hr.judged sid
  unfold Judged at hj
  simp only [hp] at hj
  rcases hj with hx | hx | ⟨c, hc', hd⟩
  · rw [hn] at hx; cases hx
  · rw [hb] at hx; cases hx
  · obtain rfl := Option.some.inj (hc'.symm.trans hc)
    rcases hd with hd | he
    · cases hd
      rfl
    · cases he with
      | unheard _ hr' _ => exact absurd hr' (hr.not_refused ha _)

/-! ### The schedule -/

/-- The schedule of a session that arms its members at some moment, after some moves. -/
structure Timely (settings : Settings) (before since : List Move) (h h' : Hub) (sid : SessionId) :
    Prop where
  /-- Up to that moment none of its own subscriptions times out, unless it is lent. -/
  early : ∀ s ∈ (h.session sid).members, (h.sub s).home = sid → ¬ Lent h s →
    ∀ k, Reachable k → Later k h → (k.sub s).state ≠ .timedOut
  due : ∀ s ∈ (h.session sid).members, (h'.sub s).isActive →
    (h'.sub s).countdown.due = some (deadline settings before since h sid s)
  moved : ∀ s ∈ (h.session sid).members, (h'.sub s).isActive → ∀ m ms a, m.timeout? s = some ms →
    h'.move? m = some a → (a.sub s).countdown.due = some (h'.clock + ms)
  waits : ∀ s d, (h'.sub s).countdown.due = some d → h'.clock ≤ d
  decides : ∀ s, (h'.sub s).home = sid → (h'.sub s).countdown.due = some h'.clock → h'.stack = [] →
    (h'.session sid).claim = none → ∃ n ns a,
      (ns = [.ring s n, .step] ∨ ns = [.ring s n, .unsubscribed, .step]) ∧ h'.run? ns = some a ∧
        (a.session sid).claim = some (.timedOut s) ∧ a.clock = h'.clock
  /-- If it is decided by a timeout, it is so at a deadline before which no other lies. -/
  expires : ∀ s, (h'.session sid).claim = some (.timedOut s) → ∃ first x y n k b,
    Expires settings (before ++ .step :: since) sid s first x y n k b ∧
      (∀ t d, (k.sub t).countdown.due = some d → k.clock ≤ d) ∧
      (¬ Lent h s → ∃ f, first = before ++ .step :: f ∧
        k.clock = deadline settings before f h sid s ∧ s ∈ (h.session sid).members ∧
        ∀ t ∈ (h.session sid).members, (k.sub t).isActive →
          k.clock ≤ deadline settings before f h sid t)
  ends : ∀ s e, (h'.session sid).claim = some (.timedOut s) → (h'.session sid).phase = .ended e →
    (h'.session sid).cancelled = false → e.isBroken = false →
    e = .resolved (.negative (.timedOut (h'.sub s).key))

end

/-- Countdowns keep their schedule. None of the subscriptions of a session times out before it has been
acknowledged and its last hook has come to an end; then each has a deadline, which a new timeout moves;
and the session is decided by a timeout exactly when the first deadline of its subscriptions comes. -/
theorem countdowns_keep_schedule {settings : Settings} {before since : List Move} {h h' : Hub}
    {sid : SessionId} (hrun : run? { settings } before = some h) (ha : h.Arms sid)
    (hsince : h.run? (.step :: since) = some h') : Timely settings before since h h' sid := by
  have hr : Reachable h := ⟨settings, .of_run? hrun⟩
  have hr' : Reachable h' := hr.later (.of_run? hsince)
  constructor
  case early =>
    intro s _ hh hn k hk hl hst
    have harm := hk.armed_of_timedOut hst
    exact Bool.false_ne_true ((ha.unarmed hk hl hh hn).symm.trans harm)
  case due => exact fun s hin hact => ha.due hrun hsince hin hact
  case moved =>
    intro s hin hact m ms a ht hm
    rw [run?, ha.move?, Option.bind_some] at hsince
    have harm := armed_later (hr.later (Later.refl.move ha.move?)) (.of_run? hsince)
      (ha.sub hr.wired hin).1
    rw [due_of_timeout (moved_of_move? hm) ht hact, if_pos harm]
  case waits => exact fun s d hd => hr'.in_time hd
  case decides =>
    rintro s rfl hd hst hn
    have hg : Rings h' s (h'.sub s).countdown.generation :=
      ⟨hr'.isActive_of_due hd, by simp [Countdown.isPending, hd], hd⟩
    obtain ⟨ns, a, hx⟩ := hg.decides hr' hst hn
    exact ⟨_, ns, a, hx⟩
  case expires =>
    intro s hc
    have hall : run? { settings } (before ++ .step :: since) = some h' := by
      rw [run?_append, hrun]
      exact hsince
    obtain ⟨first, x, y, n, k, b, he⟩ := exists_expires hall hc
    have hk : Reachable k := ⟨settings, .of_run? he.before⟩
    refine ⟨first, x, y, n, k, b, he, fun t d hd => hk.in_time hd, fun hn => ?_⟩
    have hin := (hr'.backed sid).timedOut s hc
    obtain ⟨hin, hh⟩ := own_before hr (.of_run? hsince) (by rw [ha.phase]; rfl)
      (hr'.wired.members sid s hin.1) hin.2
    obtain ⟨f, hf, hfk⟩ := he.since hrun ha hh hn
    have hdue : ∀ t ∈ (h.session sid).members, (k.sub t).isActive →
        (k.sub t).countdown.due = some (deadline settings before f h sid t) := fun t ht hact =>
      ha.due hrun hfk ht hact
    refine ⟨f, hf, ?_, hin, fun t ht hact => hk.in_time (hdue t ht hact)⟩
    exact Option.some.inj (he.rings.due.symm.trans (hdue s hin he.rings.active))
  case ends =>
    intro s e hc hp hn hb
    have hack : .acknowledged ∈ h.beats sid := by
      have hj := hr.judged sid
      unfold Judged at hj
      simp only [ha.phase] at hj
      exact hj.2
    exact hr'.ending_of_expired ((hr.beats_last (.of_run? hsince) sid).subset hack) hc hp hn hb

/-- A session with one subscription is acknowledged three moments after it was configured. -/
def acknowledgedLate : List Move :=
  [.openSession none none, .run 0, .step, .defaultTimeout 20, .subscribe default .event, .granted 0,
    .timeoutAfter 0 5, .configured, .step, .step, .step, .postReplied .suspended, .pass 3, .run 0,
    .step, .step, .postReplied .acknowledged]

/-- Its subscription is given a new timeout and expires at its new deadline. -/
def expiresSooner : List Move :=
  [.step, .pass 4, .timeoutAfter 0 2, .pass 6, .ring 0 2, .unsubscribed, .step, .run 0] ++
    List.replicate 9 .step

theorem second_timeout_counts : ∃ h h', run? {} acknowledgedLate = some h ∧ h.Arms 0 ∧
    h.run? (.step :: expiresSooner) = some h' ∧ Timely {} acknowledgedLate expiresSooner h h' 0 ∧
    (h.session 0).members = [0] ∧ ¬ Lent h 0 ∧ h.clock = 3 ∧
    deadline {} acknowledgedLate [] h 0 0 = 8 ∧
    deadline {} acknowledgedLate (expiresSooner.take 3) h 0 0 = 6 ∧ h'.clock = 6 ∧
    (h'.session 0).claim = some (.timedOut 0) ∧
    (h'.session 0).phase = .ended (.resolved (.negative (.timedOut default))) := by
  have hany : (run? {} acknowledgedLate).any fun h => decide (h.Arms 0 ∧
      (h.session 0).members = [0] ∧ ¬ Lent h 0 ∧ h.clock = 3 ∧ deadline {} acknowledgedLate [] h 0 0 = 8 ∧
      deadline {} acknowledgedLate (expiresSooner.take 3) h 0 0 = 6 ∧
      (h.run? (.step :: expiresSooner)).any fun h' => decide (h'.clock = 6 ∧
        (h'.session 0).claim = some (.timedOut 0) ∧
        (h'.session 0).phase = .ended (.resolved (.negative (.timedOut default))))) := by decide
  obtain ⟨h, hrun, hx⟩ := exists_of_any hany
  obtain ⟨ha, hmem, hn, hclock, hd, hd', hx⟩ := of_decide_eq_true hx
  obtain ⟨h', hsince, hx⟩ := exists_of_any hx
  obtain ⟨hc', hclaim, hp⟩ := of_decide_eq_true hx
  exact ⟨h, h', hrun, ha, hsince, countdowns_keep_schedule hrun ha hsince, hmem, hn, hclock, hd, hd',
    hc', hclaim, hp⟩

/-- A session borrows the subscription of another one, whose timeout is the shorter. -/
def borrowsShorter : List Move :=
  [.openSession none none, .configure 0, .subscribe default .event, .granted 0, .timeoutAfter 0 5,
    .configured, .openSession none none, .run 1, .step, .subscribe default .event, .granted 1,
    .timeoutAfter 1 50, .configured, .step, .step, .step, .register 1 0, .postReplied .acknowledged]

/-- The deadline of a subscription that is borrowed passes, and the session that has borrowed it is
undecided still, although nothing has happened but what time brings. -/
theorem borrowed_deadline_passes : ¬ ∀ (h h' : Hub) (sid : SessionId) (s : SubId) (since : List Move)
    (d : Nat), Reachable h → h.Arms sid →
    (∀ m ∈ since, m = .step ∨ m = .unsubscribed ∨ (∃ moment, m = .pass moment) ∨ ∃ t n, m = .ring t n) →
    h.run? (.step :: since) = some h' → (h'.session sid).claim = none →
    s ∈ (h.session sid).members → ((h.drive sid).sub s).countdown.due = some d → h'.clock ≤ d := by
  intro hall
  obtain ⟨h, hr, ha, hin, hd, hx⟩ := Reachable.exists_of_run {} borrowsShorter (fun h => h.Arms 1 ∧
    0 ∈ (h.session 1).members ∧ ((h.drive 1).sub 0).countdown.due = some 5 ∧
    (h.run? [.step, .step, .pass 5, .ring 0 1, .unsubscribed, .step, .pass 6]).any fun h' =>
      decide ((h'.session 1).claim = none ∧ h'.clock = 6)) (by decide)
  obtain ⟨h', hrun, hx⟩ := exists_of_any hx
  obtain ⟨hc, hclock⟩ := of_decide_eq_true hx
  have hle := hall h h' 1 0 _ 5 hr ha (by simp) hrun hc hin hd
  rw [hclock] at hle
  exact absurd hle (by decide)

end Aftermath.Hub
