import Aftermath.Proofs.Deadline.Armed

/-! Deadlines over a run. Each subscription that is active has the deadline that it was given last, time
does not pass beyond it, and a session is decided by a timeout at the deadline of its subscription. -/

namespace Aftermath.Hub

section
variable {g h h' a b k : Hub} {sid : SessionId} {m : Move} {s : SubId} {w : SubView} {ms : List Move}
variable {d : Nat}

/-! ### Time and deadlines -/

/-- A subscription that is new has no deadline and does not expire. -/
theorem Shift.calm_of_blank (hs : Shift h h' s blank w) :
    w.self.countdown.due = none ∧ .settlingTimeout s ∉ w.flight := by
  generalize hv : blank = v at hs
  cases hs
  case born => cases hv; exact ⟨rfl, by simp⟩
  case bornLate hc => cases hv; exact ⟨hc, by simp⟩
  case idle | handled | timed => subst hv; exact ⟨rfl, List.not_mem_nil⟩
  case rearmed ha _ => subst hv; cases ha
  case leaves ha _ _ => cases hv; cases ha
  case armed hkeep => cases hv; rw [hkeep rfl]; exact ⟨rfl, List.not_mem_nil⟩
  case rings hc => cases hv; exact ⟨hc, List.not_mem_nil⟩
  all_goals cases hv

/-- What has a deadline or is about to expire was there before. -/
theorem lt_of_timed (ha : Reachable h) (hm : Moved h m h')
    (ht : (h'.sub s).countdown.due ≠ none ∨ .settlingTimeout s ∈ h'.flight s) : s < h.subs.length := by
  apply Nat.lt_of_not_le
  intro hle
  have hsh := move_shift ha.wired hm s
  rw [ha.subView_beyond hle] at hsh
  obtain ⟨hd, hf⟩ := hsh.calm_of_blank
  rcases ht with ht | ht
  · exact ht hd
  · exact hf ht

/-- Whoever has a deadline is active. -/
theorem Reachable.isActive_of_due (hr : Reachable h) (hd : (h.sub s).countdown.due = some d) :
    (h.sub s).isActive := by
  rw [← Bool.not_eq_false]
  intro hact
  have hn : (h.sub s).countdown.due = none := (hr.kept s).due hact
  rw [hn] at hd
  cases hd

/-- A new deadline lies ahead. -/
theorem clock_le_deadline (hd : deadline? s h m = some d) : h.clock ≤ d := by
  rcases Option.or_eq_some_iff.1 hd with hd | ⟨-, hd⟩
  · obtain ⟨-, hd⟩ := Option.ite_none_right_eq_some.1 hd
    obtain ⟨ms, -, rfl⟩ := Option.map_eq_some_iff.1 hd
    exact Nat.le_add_right _ _
  · obtain ⟨-, i, -, -, rfl⟩ := arming_cases hd
    exact Nat.le_add_right _ _

theorem deadline_pass (moment : Nat) : deadline? s h (.pass moment) = none := by
  unfold deadline?
  split <;> rfl

theorem clock_of_not_pass (hm : Moved h m h') (hn : ∀ moment, m ≠ .pass moment) :
    h'.clock = h.clock :=
  (clock_move hm).resolve_right (hn _)

theorem mayPass_of_moved {moment : Nat} (hm : Moved h (.pass moment) h') : h.mayPass moment := by
  cases hm with
  | pass hp => exact hp

theorem due_of_mayPass {moment : Nat} (hp : h.mayPass moment) (hs : s < h.subs.length)
    (hd : (h.sub s).countdown.due = some d) : moment ≤ d := by
  have hall := (Bool.and_eq_true_iff.1 hp).2
  have hin : h.sub s ∈ h.subs := by
    rw [sub, List.getD_eq_getElem?_getD, List.getElem?_eq_getElem hs]
    exact List.getElem_mem hs
  have hx := List.all_eq_true.1 hall _ hin
  rw [hd] at hx
  simpa using hx

/-- Time does not pass beyond a deadline. -/
theorem Reachable.in_time (hr : Reachable h) (hd : (h.sub s).countdown.due = some d) : h.clock ≤ d := by
  induction hr using Reachable.induct generalizing d with
  | init settings => cases hd
  | move a b m ha hm ih =>
    have hact := (ha.later (Later.refl.move hm)).isActive_of_due hd
    have hm := moved_of_move? hm
    have hs : s < a.subs.length := lt_of_timed ha hm (.inl (by rw [hd]; exact Option.some_ne_none d))
    rw [due_move ha hm hs hact] at hd
    rcases clock_move hm with hc | hpass
    · rw [hc]
      rcases Option.or_eq_some_iff.1 hd with hd | ⟨-, hd⟩
      · exact clock_le_deadline hd
      · exact ih hd
    · rw [hpass, deadline_pass, Option.none_or] at hd
      exact due_of_mayPass (mayPass_of_moved (hpass ▸ hm)) hs hd

/-! ### Deadlines over a run -/

theorem active_before (hr : Reachable h) (hl : Later h h') (hs : s < h.subs.length)
    (hact : (h'.sub s).isActive) : (h.sub s).isActive := by
  induction hl with
  | refl => exact hact
  | move hl hm ih =>
    exact ih (isActive_before (hr.later hl) (moved_of_move? hm) (hr.home_lasts hl hs).1 hact)

/-- The deadline of a subscription that stays active is the one that it was given last. -/
theorem due_run (hr : Reachable h) (hs : s < h.subs.length) (hrun : h.run? ms = some h')
    (hact : (h'.sub s).isActive) :
    (h'.sub s).countdown.due = (latest (deadline? s) h ms).or (h.sub s).countdown.due := by
  induction ms generalizing h with
  | nil => cases hrun; rfl
  | cons m ms ih =>
    obtain ⟨a, hm, hrun⟩ := Option.bind_eq_some_iff.1 hrun
    have hla : Later h a := Later.refl.move hm
    have ha := hr.later hla
    have hsa := (hr.home_lasts hla hs).1
    have hacta := active_before ha (.of_run? hrun) hsa hact
    rw [ih ha hsa hrun, due_move hr (moved_of_move? hm) hs hacta, latest, hm, Option.bind_some,
      Option.or_assoc]

/-- The deadline that a subscription has after a session has armed it and some more moves have been made:
it runs from the last timeout it was given since, or from when it was armed. Then it waits as long as it
was told last before, or as its session was told, or as the settings say. -/
def deadline (settings : Settings) (before since : List Move) (h : Hub) (sid : SessionId) (s : SubId) :
    Nat :=
  (latest (deadline? s) (h.drive sid) since).getD (h.clock + (lastTimeout settings before s).getD
    ((lastDefaultTimeout settings before sid).getD settings.defaultTimeout))

theorem patience_eq_last {settings : Settings} (hrun : run? { settings } ms = some h) :
    h.patience sid s = (lastTimeout settings ms s).getD
      ((lastDefaultTimeout settings ms sid).getD settings.defaultTimeout) := by
  rw [patience, timeout_eq_last hrun, defaultTimeout_eq_last hrun, (Later.of_run? hrun).settings]

/-- From when a session has armed its members on, their deadlines are known. -/
theorem Arms.due {settings : Settings} {before since : List Move} (ha : h.Arms sid)
    (hrun : run? { settings } before = some h) (hsince : h.run? (.step :: since) = some h')
    (hin : s ∈ (h.session sid).members) (hact : (h'.sub s).isActive) :
    (h'.sub s).countdown.due = some (deadline settings before since h sid s) := by
  have hr : Reachable h := ⟨settings, .of_run? hrun⟩
  have hd : deadline? s h .step = some (h.clock + h.patience sid s) := by
    rw [deadline?, ha.arming hin]
    split <;> rfl
  rw [due_run hr (hr.wired.members sid s hin) hsince hact, latest, ha.move?, hd, patience_eq_last hrun,
    Option.bind_some, deadline]
  cases latest (deadline? s) (h.drive sid) since <;> rfl

/-! ### Expiry -/

structure Rings (h : Hub) (s : SubId) (generation : Nat) : Prop where
  active : (h.sub s).isActive
  pending : (h.sub s).countdown.isPending generation
  due : (h.sub s).countdown.due = some h.clock

theorem rings_of_mayRing {n : Nat} (hr : Reachable h) (hact : (h.sub s).isActive)
    (hp : (h.sub s).countdown.isPending n) (hmay : h.mayRing s n) : Rings h s n := by
  refine ⟨hact, hp, ?_⟩
  obtain ⟨d, hd⟩ := Option.isSome_iff_exists.1 (Bool.and_eq_true_iff.1 hp).1
  rw [mayRing, hp, hd] at hmay
  have hle : d ≤ h.clock := by simpa using hmay
  rw [hd, Nat.le_antisymm hle (hr.in_time hd)]

/-- No time passes while something is under way. -/
theorem clock_of_flight (hm : Moved h m h') {f : Frame} (hf : f ∈ h'.flight s) : h'.clock = h.clock := by
  rcases clock_move hm with hc | rfl
  · exact hc
  · have hst : h'.stack = [] := by
      have hp := (Bool.and_eq_true_iff.1 (Bool.and_eq_true_iff.1 (mayPass_of_moved hm)).1).1
      generalize h'.clock = c at hm
      cases hm
      exact List.isEmpty_iff.1 hp
    rw [flight, hst] at hf
    cases hf

/-- A subscription that is about to expire has had its alarm ring at this very moment. -/
theorem expiry_run (hr : Reachable g) (hrun : g.run? ms = some h) (hf : .settlingTimeout s ∈ h.flight s) :
    .settlingTimeout s ∈ g.flight s ∧ h.clock = g.clock ∨
      ∃ first n rest k, ms = first ++ .ring s n :: rest ∧ g.run? first = some k ∧ Rings k s n ∧
        h.clock = k.clock := by
  induction ms generalizing g with
  | nil => cases hrun; exact .inl ⟨hf, rfl⟩
  | cons m ms ih =>
    obtain ⟨a, hm, hrun⟩ := Option.bind_eq_some_iff.1 hrun
    have hmv := moved_of_move? hm
    rcases ih (hr.later (Later.refl.move hm)) hrun with ⟨hfa, hc⟩ | ⟨first, n, rest, k, rfl, hk, hrings, hc⟩
    · have hca := clock_of_flight hmv hfa
      rcases expiry_cases hr hmv (lt_of_timed hr hmv (.inr hfa)) hfa with hold | ⟨n, rfl, hact, hp, hmay⟩
      · exact .inl ⟨hold, hc.trans hca⟩
      · exact .inr ⟨[], n, ms, g, rfl, rfl, rings_of_mayRing hr hact hp hmay, hc.trans hca⟩
    · exact .inr ⟨m :: first, n, rest, k, rfl, by rw [run?, hm]; exact hk, hrings, hc⟩

/-- A session that is decided by a timeout was decided by the step in which the subscription expired. -/
theorem expired_claim_run (hr : Reachable g) (hrun : g.run? ms = some h)
    (hc : (h.session sid).claim = some (.timedOut s)) : (g.session sid).claim = some (.timedOut s) ∨
      ∃ first rest a b, ms = first ++ .step :: rest ∧ g.run? first = some a ∧
        .settlingTimeout s ∈ a.flight s ∧ a.move? .step = some b ∧
        (b.session sid).claim = some (.timedOut s) := by
  induction ms generalizing g with
  | nil => cases hrun; exact .inl hc
  | cons m ms ih =>
    obtain ⟨a, hm, hrun⟩ := Option.bind_eq_some_iff.1 hrun
    rcases ih (hr.later (Later.refl.move hm)) hrun with hca | ⟨first, rest, a', b, rfl, hk, hx⟩
    · rcases (move_turn hr.wired (moved_of_move? hm) sid).claim_cases hca rfl with hold | ⟨r, hd, hrc⟩
      · exact .inl hold
      · cases hd <;> cases hrc
        rename_i hst _
        obtain rfl := step_of_busy (isBusy_of_stack hst rfl) hm
        exact .inr ⟨[], ms, g, a, rfl, rfl, mem_flight hst rfl, hm, hca⟩
    · exact .inr ⟨m :: first, rest, a', b, rfl, by rw [run?, hm]; exact hk, hx⟩

/-- A subscription whose timeout has decided its session is not active. -/
theorem Reachable.inactive_of_expired (hr : Reachable h)
    (hc : (h.session sid).claim = some (.timedOut s)) : (h.sub s).isActive = false := by
  obtain ⟨settings, hl⟩ := hr
  induction hl with
  | refl => cases hc
  | @move a b m hl hm ih =>
    have ha : Reachable a := ⟨settings, hl⟩
    have hmv := moved_of_move? hm
    have hx : (a.sub s).isActive = false ∧ s < a.subs.length := by
      rcases (move_turn ha.wired hmv sid).claim_cases hc rfl with hold | ⟨r, hd, hrc⟩
      · exact ⟨ih hold, ha.wired.members sid s ((ha.backed sid).timedOut s hold).1⟩
      · cases hd <;> cases hrc
        rename_i hst _
        exact ⟨(ha.kept s).left _ (mem_flight hst rfl) rfl,
          ha.wired.sub_lt hst rfl⟩
    rw [← Bool.not_eq_true]
    intro hact
    exact Bool.false_ne_true (hx.1.symm.trans (isActive_before ha hmv hx.2 hact))

/-- A session was decided by a timeout: the alarm of one of its own subscriptions rang at the moment of
its deadline while the session was undecided, and the session was decided in the same moment. -/
structure Expires (settings : Settings) (ms : List Move) (sid : SessionId) (s : SubId)
    (first x y : List Move) (n : Nat) (k b : Hub) : Prop where
  run : ms = first ++ .ring s n :: (x ++ y)
  before : run? { settings } first = some k
  rings : Rings k s n
  undecided : (k.session sid).claim = none
  member : s ∈ (k.session sid).members ∧ (k.sub s).home = sid
  after : run? { settings } (first ++ .ring s n :: x) = some b
  claim : (b.session sid).claim = some (.timedOut s)
  clock : b.clock = k.clock

theorem exists_expires {settings : Settings} (hrun : run? { settings } ms = some h)
    (hc : (h.session sid).claim = some (.timedOut s)) :
    ∃ first x y n k b, Expires settings ms sid s first x y n k b := by
  have hinit : Reachable { settings } := ⟨settings, .refl⟩
  rcases expired_claim_run hinit hrun hc with hx | ⟨pre, y, a, b, rfl, hpre, hfl, hstep, hcb⟩
  · cases hx
  rcases expiry_run hinit hpre hfl with ⟨hx, -⟩ | ⟨first, n, rest, k, rfl, hk, hrings, hclock⟩
  · cases hx
  have hr : Reachable h := ⟨settings, .of_run? hrun⟩
  have hrk : Reachable k := ⟨settings, .of_run? hk⟩
  have hkh : Later k h := by
    rw [List.append_assoc, run?_append, hk] at hrun
    exact .of_run? hrun
  have hhome : (k.sub s).home = sid :=
    (hrk.home_lasts hkh (lt_of_isActive hrings.active)).2.symm.trans ((hr.backed sid).timedOut s hc).2
  refine ⟨first, rest ++ [.step], y, n, k, b, by simp, hk, hrings, ?_, ⟨?_, hhome⟩, ?_, hcb, ?_⟩
  · cases hck : (k.session sid).claim with
    | none => rfl
    | some c =>
      obtain rfl := Option.some.inj ((hrk.claim_lasts hkh hck).symm.trans hc)
      exact absurd ((hrk.inactive_of_expired hck).symm.trans hrings.active) Bool.false_ne_true
  · exact hhome ▸ hrk.wired.own s (lt_of_isActive hrings.active)
  · have happ : first ++ .ring s n :: (rest ++ [.step]) = (first ++ .ring s n :: rest) ++ [.step] := by
      simp
    rw [happ, run?_append, hpre, Option.bind_some, run?, hstep]
    rfl
  · exact (clock_of_not_pass (moved_of_move? hstep) (by simp)).trans hclock

/-- Unless it is lent, the alarm of a subscription rings after its session has armed it. -/
theorem Expires.since {settings : Settings} {before since first x y : List Move} {n : Nat}
    (he : Expires settings (before ++ .step :: since) sid s first x y n k b)
    (hrun : run? { settings } before = some h) (ha : h.Arms sid) (hh : (h.sub s).home = sid)
    (hn : ¬ Lent h s) : ∃ f, first = before ++ .step :: f ∧ h.run? (.step :: f) = some k := by
  rcases List.append_eq_append_iff.1 he.run with ⟨l, hl, hr⟩ | ⟨l, hl, hr⟩
  · cases l with
    | nil => cases hr
    | cons m f =>
      obtain ⟨rfl, -⟩ := List.cons.inj hr
      refine ⟨f, hl, ?_⟩
      have hk := he.before
      rw [hl, run?_append, hrun] at hk
      exact hk
  · -- otherwise the session has been acknowledged after its alarm rang, and it was armed too early
    have hk : Reachable k := ⟨settings, .of_run? he.before⟩
    have hkh : Later k h := by
      rw [hl, run?_append, he.before] at hrun
      exact .of_run? hrun
    have harmed : (k.sub s).countdown.isArmed := by
      rw [Countdown.isArmed, he.rings.due]
      rfl
    have harm := (hk.kept s).armed harmed
    exact absurd ((ha.unarmed hk hkh hh hn).symm.trans harm) Bool.false_ne_true

end
end Aftermath.Hub
