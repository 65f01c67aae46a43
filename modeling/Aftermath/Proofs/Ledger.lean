import Aftermath.Proofs.Ledger.Moves

/-! Every end is accounted for once. A subscription that has left `active` and whose business is done is in
the books with what it came to, and it is there once; a release returns as many as it has cancelled, so the
cancellations that returned true and the counts add up to the subscriptions that were cancelled. -/

namespace Aftermath

/-- The state in which a subscription waits for the rest of its business. -/
def Frame.left? : Frame → Option SubState
  | .settlingEvent _ _ => some .fired
  | .settlingTimeout _ => some .timedOut
  | .reportingCancel _ => some .cancelled
  | _ => none

namespace Hub

/-- What is to be seen of a subscription that has come to such an end. -/
def Ended (h : Hub) (s : SubId) : Exit → Prop
  | .fired => (h.sub s).state = .fired ∧ ∃ e, (h.session (h.sub s).home).claim = some (.fired s e)
  | .expired => (h.sub s).state = .timedOut ∧ (h.session (h.sub s).home).claim = some (.timedOut s)
  | .outrun | .lapsed => (h.sub s).state = .cancelled ∧
      ∃ c, (h.session (h.sub s).home).claim = some c ∧ c.state? s = none
  | .cancelled r => (h.sub s).state = .cancelled ∧ ∀ i n, r = some (i, n) → s ∈ (h.session i).members
  | .declined => (h.sub s).state = .cancelled ∧ (h.sub s).error.isSome

section
variable {h h' : Hub} {s t : SubId} {m : Move} {ms : List Move} {f : Frame} {x : Exit} {i : SessionId}
variable {l : List Booking} {rest : List Frame} {settings : Settings}

/-! ### While the business is under way -/

theorem report_of_left {st : SubState} (hf : f.left? = some st) : f.report?.isSome := by
  cases f <;> first | rfl | cases hf

theorem reports_eq (h : Hub) (s : SubId) :
    reports s h.stack = (h.flight s).countP fun f => f.report?.isSome := by
  unfold reports flight
  rw [List.countP_filter]
  congr
  funext f
  rw [Bool.and_comm]

theorem Shift.left_state {v w : SubView} (hs : Shift h h' s v w) (hk : Kept s v)
    (hb : s = h.subs.length → v = blank) (hone : v.flight.countP (fun f => f.report?.isSome) ≤ 1)
    (hv : ∀ f ∈ v.flight, ∀ st, f.left? = some st → v.self.state = st) :
    ∀ f ∈ w.flight, ∀ st, f.left? = some st → w.self.state = st := by
  have hactive : ∀ f ∈ v.flight, ∀ st, f.left? = some st → v.self.isActive = false :=
    fun f hf st hst => hk.left f hf (report_of_left hst)
  cases hs
  case born he _ _ _ =>
    cases hb he
    intro f hf st hst
    cases List.mem_singleton.1 hf
    cases hst
  case bornLate he _ _ _ _ =>
    cases hb he
    intro f hf st hst
    rcases List.mem_cons.1 hf with rfl | hf
    · cases hst; rfl
    · cases List.mem_singleton.1 hf
      cases hst
  case leaves hx hl _ =>
    intro f hf st hst
    rcases List.mem_cons.1 hf with rfl | hf
    · cases hl <;> cases hst <;> rfl
    · exact absurd ((hactive f hf st hst).symm.trans hx) Bool.false_ne_true
  case loses hr _ =>
    -- A second frame would have to report as well.
    intro f hf st hst
    dsimp only at hf
    obtain ⟨p, hp, -⟩ := exists_of_any hr
    have htwo : 0 < List.countP (fun f : Frame => f.report?.isSome) _ :=
      List.countP_pos_iff.2 ⟨f, hf, report_of_left hst⟩
    rw [List.countP_cons_of_pos (by rw [hp]; rfl)] at hone
    omega
  case declined hx =>
    intro f hf st hst
    exact absurd ((hactive f (List.mem_cons_of_mem _ hf) st hst).symm.trans hx) Bool.false_ne_true
  case wins | reports | granted | grantedLate | declinedLate =>
    intro f hf
    exact hv f (List.mem_cons_of_mem _ hf)
  all_goals exact hv

/-! ### Ends that last -/

/-- A subscription whose business is done stays in its state. -/
theorem Shift.state_kept {v w : SubView} (hs : Shift h h' s v w) (hne : s ≠ h.subs.length)
    (ha : v.self.isActive = false) (hno : ∀ f ∈ v.flight, f.report? = none) :
    w.self.state = v.self.state := by
  cases hs
  case born he _ _ _ | bornLate he _ _ _ _ => exact absurd he hne
  case leaves hx _ _ | declined hx => exact absurd (ha.symm.trans hx) Bool.false_ne_true
  case loses hr _ =>
    obtain ⟨p, hp, -⟩ := exists_of_any hr
    rw [hno _ List.mem_cons_self] at hp
    cases hp
  all_goals rfl

theorem done_iff : h.outstanding s = 0 ↔
    s < h.subs.length ∧ (h.sub s).isActive = false ∧ ¬ InFlight h s := by
  have hin : ¬ InFlight h s ↔ reports s h.stack = 0 := by
    rw [inFlight_iff, reports_eq, List.countP_eq_zero]
    simp
  rw [hin, outstanding, Nat.add_eq_zero_iff, remains, Bool.toNat_eq_zero, Bool.or_eq_false_iff,
    decide_eq_false_iff_not, Nat.not_le, and_assoc]

theorem state_of_done (ha : Reachable h) (hm : Moved h m h') (hd : h.outstanding s = 0) :
    (h'.sub s).state = (h.sub s).state := by
  obtain ⟨hs, hact, hno⟩ := done_iff.1 hd
  refine (move_shift ha.wired hm s).state_kept (Nat.ne_of_lt hs) hact fun f hf => ?_
  rw [inFlight_iff] at hno
  simpa using fun hr => hno ⟨f, hf, hr⟩

theorem Ended.move (ha : Reachable h) (hm : Moved h m h') (hd : h.outstanding s = 0)
    (he : Ended h s x) : Ended h' s x := by
  have hst := state_of_done ha hm hd
  have hhome := (sub_fixed ha.wired hm (done_iff.1 hd).1).1
  cases x with
  | fired =>
    obtain ⟨he, e, hc⟩ := he
    refine ⟨hst.trans he, e, ?_⟩
    rw [hhome]
    exact claim_move ha hm hc
  | expired =>
    obtain ⟨he, hc⟩ := he
    refine ⟨hst.trans he, ?_⟩
    rw [hhome]
    exact claim_move ha hm hc
  | outrun | lapsed =>
    obtain ⟨he, c, hc, hn⟩ := he
    refine ⟨hst.trans he, c, ?_, hn⟩
    rw [hhome]
    exact claim_move ha hm hc
  | cancelled r =>
    obtain ⟨he, hr⟩ := he
    exact ⟨hst.trans he, fun i n hi => members_move ha hm (hr i n hi)⟩
  | declined =>
    obtain ⟨he, hs⟩ := he
    obtain ⟨e, hs⟩ := Option.isSome_iff_exists.1 hs
    exact ⟨hst.trans he, Option.isSome_iff_exists.2 ⟨e, error_move ha hm hs⟩⟩

/-! ### The books of a run -/

/-- What the books and the hub have in common at any time. -/
structure Booked (l : List Booking) (h : Hub) : Prop where
  once : ∀ s, (exits s l).length + h.outstanding s = 1
  balance : ∀ Q, counts Q l + held Q h.stack = units Q l + coming Q h.stack
  tallied : Tallied l
  listed : Listed h h.stack
  left : ∀ s, ∀ f ∈ h.flight s, ∀ st, f.left? = some st → (h.sub s).state = st
  decider : ∀ i c s, (h.session i).claim = some c → (c.state? s).isSome → h.outstanding s = 0
  ended : ∀ s, ∀ x ∈ exits s l, Ended h s x

theorem booked_init (settings : Settings) : Booked [] { settings } where
  once s := by
    have hrem : remains { settings } s = true := by simp [remains]
    rw [outstanding, hrem]
    rfl
  balance _ := rfl
  tallied := trivial
  listed := trivial
  left _ _ hf := by cases hf
  decider _ _ _ hc := by cases hc
  ended _ _ hx := by cases hx

theorem exits_append (s : SubId) (a b : List Booking) : exits s (a ++ b) = exits s a ++ exits s b :=
  List.filterMap_append

theorem counts_append (Q : ReleaseId → Bool) (a b : List Booking) :
    counts Q (a ++ b) = counts Q a + counts Q b := by
  induction a with
  | nil => exact (Nat.zero_add _).symm
  | cons c a ih => rw [List.cons_append, counts, counts, ih, Nat.add_assoc]

theorem units_append (Q : ReleaseId → Bool) (a b : List Booking) :
    units Q (a ++ b) = units Q a + units Q b := List.countP_append

/-- The hub does its own work in one way only. -/
theorem step_of_move (hst : h.stack = f :: rest) (hf : f.isInternal) (hm : h.move? m = some h') :
    h' = h.step := by
  have hb : h.isBusy := by rw [isBusy, hst]; exact hf
  unfold move? at hm
  rw [if_pos hb] at hm
  split at hm
  · exact (Option.some.inj hm).symm
  · cases hm

theorem Booked.outstanding_of_top (hb : Booked l h) (hst : h.stack = f :: rest) (hf : f.sub? = some s)
    (hr : f.report?.isSome) : h.outstanding s = 1 := by
  have hone := hb.once s
  have hrep : reports s h.stack = reports s rest + 1 := by
    rw [hst, reports_report hf hr, if_pos rfl]
  unfold outstanding at hone ⊢
  omega

/-- A session that a subscription finds decided was decided by another. -/
theorem Booked.outdone (hb : Booked l h) (hst : h.stack = f :: rest) (hf : f.sub? = some s)
    (hr : f.report?.isSome) (hs : (h.session i).isSettled) :
    ∃ c, (h.session i).claim = some c ∧ c.state? s = none := by
  obtain ⟨c, hc⟩ := Option.isSome_iff_exists.1 hs
  refine ⟨c, hc, ?_⟩
  cases hn : c.state? s with
  | none => rfl
  | some st =>
    have hd := hb.decider i c s hc (by rw [hn]; rfl)
    rw [hb.outstanding_of_top hst hf hr] at hd
    cases hd

theorem Booked.state_of_top (hb : Booked l h) {st : SubState} (hst : h.stack = f :: rest)
    (hf : f.sub? = some s) (hs : f.left? = some st) : (h.sub s).state = st :=
  hb.left s f (mem_flight hst hf) st hs

/-- One that comes too late. -/
theorem ended_late {k : Hub} {c : Claim} (hsub : k.sub s = { h.sub s with state := .cancelled })
    (hses : k.sessions = h.sessions) (hc : (h.session (h.sub s).home).claim = some c)
    (hn : c.state? s = none) :
    (k.sub s).state = .cancelled ∧ ∃ c, (k.session (k.sub s).home).claim = some c ∧ c.state? s = none := by
  rw [hsub, session_eq hses]
  exact ⟨rfl, c, hc, hn⟩

theorem Booked.ended_event (ha : Reachable h) (hb : Booked l h) {e : Envelope}
    (hst : h.stack = .settlingEvent s e :: rest) :
    Ended (h.pop.settleEvent s e) s
      (if (h.pop.settleEvent s e).answer = .bool true then .fired else .outrun) := by
  have hs := ha.wired.sub_lt hst rfl
  unfold settleEvent; dsimp only
  split
  · next hset =>
    obtain ⟨c, hc, hn⟩ := hb.outdone hst rfl rfl hset
    have hans : ¬ Answer.bool false = .bool true := by decide
    rw [if_neg (by exact hans)]
    exact ended_late ((sub_setState (h := h.pop) hs _).trans (if_pos rfl)) rfl hc hn
  · next hset =>
    have hn : (h.session (h.sub s).home).claim = none := by simpa [Session.isSettled] using hset
    rw [if_pos (by rfl)]
    refine ⟨hb.state_of_top hst rfl rfl, e, ?_⟩
    exact congrArg Session.claim (session_claimed (h := h.pop) (ha.wired.homes s hs) (.fired s e) hn
      (.fired s (h.sub s).key (h.sub s).kind) (.fired s e))

theorem Booked.ended_timeout (ha : Reachable h) (hb : Booked l h)
    (hst : h.stack = .settlingTimeout s :: rest) :
    Ended (h.pop.settleTimeout s) s
      (if ((h.pop.settleTimeout s).session (h.sub s).home).claim = (h.session (h.sub s).home).claim
        then .lapsed else .expired) := by
  have hs := ha.wired.sub_lt hst rfl
  unfold settleTimeout; dsimp only
  split
  · next hset =>
    obtain ⟨c, hc, hn⟩ := hb.outdone hst rfl rfl hset
    rw [if_pos (by rfl)]
    exact ended_late ((sub_setState (h := h.pop) hs _).trans (if_pos rfl)) rfl hc hn
  · next hset =>
    have hn : (h.session (h.sub s).home).claim = none := by simpa [Session.isSettled] using hset
    have hc := congrArg Session.claim (session_claimed (h := h.pop) (ha.wired.homes s hs) (.timedOut s)
      hn (.expired s (h.sub s).key) (.timedOut s))
    have hne : (some (.timedOut s) : Option Claim) ≠ none := Option.some_ne_none _
    rw [if_neg fun he => hne (hc.symm.trans (he.trans hn))]
    exact ⟨hb.state_of_top hst rfl rfl, hc⟩

theorem Booked.ended_cancel (hb : Booked l h) (hst : h.stack = .reportingCancel s :: rest)
    (hm : ∀ i, ∀ t ∈ (h.session i).members, t ∈ ((h.pop.reportCancel s).session i).members) :
    Ended (h.pop.reportCancel s) s (.cancelled (topRelease? rest)) := by
  have hl := hb.listed
  rw [hst] at hl
  exact ⟨hb.state_of_top hst rfl rfl, fun i n hr => hm i s (hl.2.1 s i n rfl hr)⟩

theorem ended_decline (hs : s < h.subs.length) (hact : (h.sub s).isActive) (e : SubscribeError) :
    Ended (h.decline s e) s .declined := by
  have hd : h.decline s e = (((h.note (.ungranted s (h.sub s).key (h.sub s).kind e)).onSub s
      fun sub => { sub with error := some e }).setState s .cancelled).disarm s := if_pos hact
  have hsub : ((h.decline s e).sub s).state = .cancelled ∧ ((h.decline s e).sub s).error = some e := by
    rw [hd, sub_disarm (by simpa [setState] using hs), if_pos rfl, sub_setState (by simpa using hs),
      if_pos rfl, sub_onSub _ _ _ (by exact hs), if_pos rfl]
    exact ⟨rfl, rfl⟩
  exact ⟨hsub.1, by rw [hsub.2]; rfl⟩

/-- What is written down is to be seen. -/
theorem Booked.ended_of_booking (ha : Reachable h) (hb : Booked l h) (hm : h.move? m = some h')
    (hx : booking? h m h' = some (.left s x)) : Ended h' s x := by
  have hmem : ∀ i, ∀ t ∈ (h.session i).members, t ∈ (h'.session i).members := fun i t ht =>
    members_move ha (moved_of_move? hm) ht
  unfold booking? at hx
  split at hx
  · next hst =>
    have he := step_of_move hst rfl hm
    rw [step, hst] at he
    cases hx
    subst he
    exact hb.ended_event ha hst
  · next hst =>
    have he := step_of_move hst rfl hm
    rw [step, hst] at he
    cases hx
    subst he
    exact hb.ended_timeout ha hst
  · next hst =>
    have he := step_of_move hst rfl hm
    rw [step, hst] at he
    split at hx
    · cases hx
      subst he
      exact hb.ended_cancel hst hmem
    · cases hx
  · split at hx <;> cases hx
  · next hst =>
    split at hx
    · next hact =>
      cases hx
      have hs := ha.wired.sub_lt hst rfl
      cases moved_of_move? hm with
      | declined hst' =>
        cases hst.symm.trans hst'
        exact ended_decline (h := h.pop) hs hact _
    · cases hx
  · cases hx

/-- The business of a session's decider is done. -/
theorem Booked.decider_move (ha : Reachable h) (hb : Booked l h) (hm : h.move? m = some h')
    (hone : ∀ s, h.outstanding s = (exits s (booking? h m h').toList).length + h'.outstanding s)
    {c : Claim} (hc : (h'.session i).claim = some c) (hs : (c.state? s).isSome) :
    h'.outstanding s = 0 := by
  have hrep : c.isReported := by
    cases c <;> first | rfl | cases hs
  rcases (move_turn ha.wired (moved_of_move? hm) i).claim_cases hc hrep with hold | ⟨r, hd, hrc⟩
  · have hzero := hb.decider i c s hold hs
    have hle := hone s
    omega
  · -- The frame that has made the claim is written down.
    have hbk : ∃ x, booking? h m h' = some (.left s x) ∧ h.outstanding s = 1 := by
      cases hd with
      | @fired t e rest hst _ =>
        cases hrc
        have hts : t = s := by simpa [Claim.state?] using hs
        subst hts
        exact ⟨_, booking?_settlingEvent hst, hb.outstanding_of_top hst rfl rfl⟩
      | @timedOut t rest hst _ =>
        cases hrc
        have hts : t = s := by simpa [Claim.state?] using hs
        subst hts
        exact ⟨_, booking?_settlingTimeout hst, hb.outstanding_of_top hst rfl rfl⟩
      | lost => cases hrc; cases hs
    obtain ⟨x, hbk, hout⟩ := hbk
    have hle := hone s
    rw [hbk, hout, Option.toList_some, exits_left, if_pos rfl, List.length_cons] at hle
    omega

theorem Booked.move (ha : Reachable h) (hb : Booked l h) (hm : h.move? m = some h') :
    Booked ((booking? h m h').toList ++ l) h' := by
  have hr := move_reckons ha hm
  have hm' := moved_of_move? hm
  refine ⟨fun s => ?_, fun Q => ?_, hr.tallied hb.tallied hb.balance, ?_, fun s => ?_,
    fun i c s hc hs => hb.decider_move ha hm hr.outstanding hc hs, fun s x hx => ?_⟩
  · have hone := hb.once s
    rw [hr.outstanding s] at hone
    rw [exits_append, List.length_append]
    omega
  · have hold := hb.balance Q
    have hnew := hr.balance Q
    rw [counts_append, units_append]
    omega
  · exact (hr.listed hb.listed).mono fun i s => members_move ha hm'
  · refine (move_shift ha.wired hm' s).left_state (ha.kept s)
      (fun he => ha.subView_beyond (Nat.le_of_eq he.symm)) ?_ (hb.left s)
    have hone := hb.once s
    rw [outstanding, reports_eq] at hone
    show (h.flight s).countP _ ≤ 1
    omega
  · rw [exits_append] at hx
    rcases List.mem_append.1 hx with hx | hx
    · cases hbk : booking? h m h' with
      | none => rw [hbk] at hx; cases hx
      | some b =>
        rw [hbk] at hx
        cases b with
        | count => cases hx
        | left t y =>
          rw [Option.toList_some, exits_left] at hx
          split at hx
          · next he =>
            subst he
            cases List.mem_singleton.1 hx
            exact hb.ended_of_booking ha hm hbk
          · cases hx
    · have hone := hb.once s
      have hpos := List.length_pos_of_mem hx
      exact (hb.ended s x hx).move ha hm' (by omega)

theorem Booked.run (ha : Reachable h) (hb : Booked l h) (hrun : h.run? ms = some h') :
    Booked (ledger h l ms) h' := by
  induction ms generalizing h l with
  | nil => cases hrun; exact hb
  | cons m ms ih =>
    obtain ⟨a, hm, hrun⟩ := Option.bind_eq_some_iff.1 hrun
    rw [ledger, hm]
    exact ih (ha.later (Later.refl.move hm)) (hb.move ha hm) hrun

/-! ### Sums -/

def Booking.satisfies (p : SubId → Exit → Bool) : Booking → Bool
  | .left s x => p s x
  | .count _ _ => false

/-- Ends that are written down once can be counted by subscriptions. -/
theorem countP_exits {p : SubId → Exit → Bool} {n : Nat} (hone : ∀ s, (exits s l).length ≤ 1)
    (hlt : ∀ s, exits s l ≠ [] → s < n) :
    l.countP (·.satisfies p) = (List.range n).countP fun s => (exits s l).any (p s) := by
  induction l with
  | nil => exact (List.countP_eq_zero.2 fun s _ => Bool.false_ne_true).symm
  | cons b l ih =>
    cases b with
    | count r k => exact (List.countP_cons_of_neg Bool.false_ne_true).trans (ih hone hlt)
    | left s x =>
      have hnil : exits s l = [] := by
        have hlen := hone s
        rw [exits_left, if_pos rfl, List.length_cons] at hlen
        exact List.eq_nil_of_length_eq_zero (by omega)
      have hother : ∀ t, t ≠ s → exits t (.left s x :: l) = exits t l := fun t ht => by
        rw [exits_left, if_neg ht]
      have hself : exits s (.left s x :: l) = [x] := by rw [exits_left, if_pos rfl, hnil]
      have ih := ih
        (fun t => by
          by_cases ht : t = s
          · subst ht; rw [hnil]; exact Nat.zero_le _
          · rw [← hother t ht]; exact hone t)
        (fun t ht => hlt t (by
          by_cases he : t = s
          · subst he; exact absurd hnil ht
          · rw [hother t he]; exact ht))
      have hs : s < n := hlt s (by rw [hself]; exact List.cons_ne_nil _ _)
      cases hp : p s x with
      | false =>
        rw [List.countP_cons_of_neg (by rw [Booking.satisfies, hp]; exact Bool.false_ne_true), ih]
        refine List.countP_congr fun t _ => ?_
        by_cases ht : t = s
        · subst ht; rw [hself, hnil, List.any_cons, hp]; rfl
        · rw [hother t ht]
      | true =>
        rw [List.countP_cons_of_pos (by exact hp), ih]
        refine (countP_range_of_one hs ?_ ?_ fun t ht => ?_).symm
        · rw [hself, List.any_cons, hp]; rfl
        · rw [hnil]; rfl
        · rw [hother t ht]

/-- What was cancelled was cancelled by a caller, or a release has counted it. -/
theorem countP_cancelled {P : SubId → Bool} {Q : ReleaseId → Bool}
    (hPQ : ∀ s r, .cancelled (some r) ∈ exits s l → Q r = P s) :
    l.countP (·.isCancel P) + units Q l = l.countP (·.satisfies fun s x => P s && x.isCancelled) := by
  induction l with
  | nil => rfl
  | cons b l ih =>
    have hsub : ∀ s, ∀ x ∈ exits s l, x ∈ exits s (b :: l) := fun s x hx => by
      rw [show b :: l = [b] ++ l from rfl, exits_append]
      exact List.mem_append_right _ hx
    have ih := ih fun s r hr => hPQ s r (hsub s _ hr)
    rw [units_cons, List.countP_cons, List.countP_cons, ← ih]
    have hb : (if b.isCancel P then 1 else 0) + (if b.isUnit Q then 1 else 0) =
        if b.satisfies fun s x => P s && x.isCancelled then 1 else 0 := by
      cases b with
      | count => rfl
      | left s x =>
        cases x with
        | cancelled r =>
          cases r with
          | none => cases hP : P s <;> simp [Booking.isCancel, Booking.isUnit, Booking.satisfies,
              Exit.release?, Exit.isCancelled, hP]
          | some r =>
            have hr := hPQ s r (by rw [exits_left, if_pos rfl]; exact List.mem_cons_self)
            simp [Booking.isCancel, Booking.isUnit, Booking.satisfies, Exit.release?,
              Exit.isCancelled, hr]
        | _ => simp [Booking.isCancel, Booking.isUnit, Booking.satisfies, Exit.release?,
            Exit.isCancelled]
    omega

theorem Booked.sum (hb : Booked l h) {P : SubId → Bool} {Q : ReleaseId → Bool}
    (hQ : ∀ f ∈ h.stack, ∀ i n, f.released? = some i → Q (i, n) = false)
    (hPQ : ∀ s r, .cancelled (some r) ∈ exits s l → Q r = P s) :
    l.countP (·.isCancel P) + counts Q l =
      (List.range h.subs.length).countP fun s => (exits s l).any fun x => P s && x.isCancelled := by
  have hbal := hb.balance Q
  rw [held_of_none hQ, coming_of_none hQ] at hbal
  have hone : ∀ s, (exits s l).length ≤ 1 := fun s => Nat.le_of_add_right_le (Nat.le_of_eq (hb.once s))
  have hlt : ∀ s, exits s l ≠ [] → s < h.subs.length := by
    intro s hne
    have hsum := hb.once s
    have hpos := List.length_pos_iff.2 hne
    exact (done_iff.1 (by omega)).1
  rw [← countP_exits (p := fun s x => P s && x.isCancelled) hone hlt, ← countP_cancelled hPQ]
  omega

/-- A subscription is active or on its way, and the books do not have it; or they have it once. -/
theorem Booked.exits_cases (hb : Booked l h) (hs : s < h.subs.length) :
    (exits s l = [] ∧ ((h.sub s).isActive ∨ InFlight h s)) ∨
      ∃ x, exits s l = [x] ∧ Ended h s x ∧ (h.sub s).isActive = false ∧ ¬ InFlight h s := by
  have hsum := hb.once s
  cases hx : exits s l with
  | nil =>
    rw [hx] at hsum
    refine .inl ⟨rfl, ?_⟩
    by_cases hact : (h.sub s).isActive
    · exact .inl hact
    · refine .inr (Classical.not_not.1 fun hno => ?_)
      have hdone := done_iff.2 ⟨hs, by simpa using hact, hno⟩
      rw [hdone] at hsum
      cases hsum
  | cons x xs =>
    rw [hx, List.length_cons] at hsum
    have hnil : xs = [] := List.eq_nil_of_length_eq_zero (by omega)
    obtain ⟨-, hact, hno⟩ := done_iff.1 (show h.outstanding s = 0 by omega)
    refine .inr ⟨x, by rw [hnil], hb.ended s x ?_, hact, hno⟩
    rw [hx]
    exact List.mem_cons_self

/-- Where no release is under way, everything that was cancelled is counted. -/
theorem Booked.sum_all (hb : Booked l h) (hn : ∀ i, h.isReleasing i = false) :
    l.countP (·.isCancel fun _ => true) + counts (fun _ => true) l =
      (List.range h.subs.length).countP fun s => (exits s l).any Exit.isCancelled := by
  have hno : ∀ f ∈ h.stack, ∀ i (n : Nat), f.released? = some i → true = false := by
    intro f hf i _ hi
    exact absurd ((hn i).symm.trans (isReleasing_iff.2 ⟨f, hf, hi⟩)) Bool.false_ne_true
  have hsum := hb.sum (P := fun _ => true) (Q := fun _ => true) hno fun _ _ _ => rfl
  simpa using hsum

/-- So it is for a session that shares its subscriptions with no other. -/
theorem Booked.sum_session {i : SessionId} (hb : Booked l h) (hn : h.isReleasing i = false)
    (hlone : ∀ j, ∀ s ∈ (h.session i).members, s ∈ (h.session j).members → j = i) :
    l.countP (·.isCancel fun s => (h.session i).members.contains s) + counts (fun r => r.1 == i) l =
      (List.range h.subs.length).countP fun s => (h.session i).members.contains s &&
        (exits s l).any Exit.isCancelled := by
  have hno : ∀ f ∈ h.stack, ∀ j (n : Nat), f.released? = some j → (j == i) = false := by
    intro f hf j _ hj
    refine beq_false_of_ne fun he => ?_
    subst he
    exact Bool.false_ne_true (hn.symm.trans (isReleasing_iff.2 ⟨f, hf, hj⟩))
  have hsame : ∀ s (r : ReleaseId), .cancelled (some r) ∈ exits s l →
      (r.1 == i) = (h.session i).members.contains s := by
    intro s r hr
    obtain ⟨-, hmem⟩ := hb.ended s _ hr
    have hs := hmem r.1 r.2 rfl
    rw [Bool.eq_iff_iff, beq_iff_eq, List.contains_iff_mem]
    exact ⟨fun he => he ▸ hs, fun hin => hlone r.1 s hin hs⟩
  rw [hb.sum (P := fun s => (h.session i).members.contains s) (Q := fun r => r.1 == i) hno hsame]
  refine List.countP_congr fun s _ => ?_
  cases (h.session i).members.contains s <;> simp

/-! ### Calls -/

/-- A call for a subscription returns false at once and has done nothing, or its frame is on the stack
until it returns. -/
def Goes (h h' : Hub) (s : SubId) (f : Frame) : Prop :=
  (h'.answer = .bool false ∧ h'.subs = h.subs ∧ h'.stack = h.stack) ∨
    (h.sub s).isActive ∧ ∃ u : List LeaseId, h'.stack = u.map .unsubscribing ++ f :: h.stack

theorem goes_cancel (h : Hub) (s : SubId) : Goes h (h.cancel s) s (.reportingCancel s) := by
  unfold cancel
  split
  · next ha => exact .inr ⟨ha, _, stack_finish _ _ _⟩
  · exact .inl ⟨rfl, rfl, rfl⟩

theorem goes_deliver (h : Hub) (s : SubId) (e : Envelope) :
    Goes h (h.deliver s e) s (.settlingEvent s e) := by
  unfold deliver; dsimp only
  split
  · exact .inl ⟨rfl, rfl, rfl⟩
  · split
    · next ha => exact .inr ⟨ha, _, stack_finish _ _ _⟩
    · exact .inl ⟨rfl, rfl, rfl⟩

def books (settings : Settings) (ms : List Move) : List Booking := ledger { settings } [] ms

/-- Every end is accounted for exactly once. After any run each subscription is active or on its way, and
the books do not have it; or the books have it once, with an end that is to be seen. A release returns as
many as it has cancelled; when none is under way, the cancellations that returned true and the counts add
up to the subscriptions that were cancelled, in all and for each session that shares its subscriptions
with no other. And a delivery or a cancellation that does not return false at once is on the stack until
it is in the books. -/
theorem ends_accounted_for (hrun : run? { settings } ms = some h) :
    (∀ s < h.subs.length,
      (exits s (books settings ms) = [] ∧ ((h.sub s).isActive ∨ InFlight h s)) ∨
      ∃ x, exits s (books settings ms) = [x] ∧ Ended h s x ∧ (h.sub s).isActive = false ∧
        ¬ InFlight h s) ∧
    Tallied (books settings ms) ∧
    ((∀ i, h.isReleasing i = false) →
      (books settings ms).countP (·.isCancel fun _ => true) + counts (fun _ => true) (books settings ms) =
        (List.range h.subs.length).countP fun s => (exits s (books settings ms)).any Exit.isCancelled) ∧
    (∀ i, h.isReleasing i = false →
      (∀ j, ∀ s ∈ (h.session i).members, s ∈ (h.session j).members → j = i) →
      (books settings ms).countP (·.isCancel fun s => (h.session i).members.contains s) +
          counts (fun r => r.1 == i) (books settings ms) =
        (List.range h.subs.length).countP fun s => (h.session i).members.contains s &&
          (exits s (books settings ms)).any Exit.isCancelled) ∧
    (∀ h' s, h.move? (.cancel s) = some h' → Goes h h' s (.reportingCancel s)) ∧
    (∀ h' s e, h.move? (.deliver s e) = some h' → Goes h h' s (.settlingEvent s e)) ∧
    (∀ h' i, h.move? (.cancelAll i) = some h' →
      h'.stack = .releasing i (h.session i).members 0 :: h.stack) := by
  have hb : Booked (books settings ms) h := (booked_init settings).run ⟨settings, .refl⟩ hrun
  refine ⟨fun s hs => hb.exits_cases hs, hb.tallied, hb.sum_all, fun i hn hlone => hb.sum_session hn hlone,
    fun h' s hm => ?_, fun h' s e hm => ?_, fun h' i hm => ?_⟩
  · cases moved_of_move? hm with
    | cancel => exact goes_cancel h s
  · cases moved_of_move? hm with
    | deliver => exact goes_deliver h s e
  · cases moved_of_move? hm with
    | cancelAll hr => exact stack_cancelAll (isReachable_iff.1 hr).1

end

/-- Of four subscriptions of a session the transport declines one, one is cancelled and one fires; then the
session is cancelled as a whole, and then once more. -/
def oneEachWay : List Move :=
  [.openSession none none, .run 0, .step] ++
    (List.range 3).flatMap (fun l => [.subscribe default .event, .granted l]) ++
    [.subscribe default .event, .declined (.refused default ""), .cancel 1, .unsubscribed, .step,
      .deliver 0 ⟨default, .blank⟩, .unsubscribed, .step, .cancelAll 0, .step, .step, .step,
      .unsubscribed, .step, .step, .step, .cancel 2, .cancelAll 0] ++ List.replicate 5 .step

theorem one_each_way : ∃ h, run? {} oneEachWay = some h ∧ Ended h 0 .fired ∧
    Ended h 1 (.cancelled none) ∧ Ended h 2 (.cancelled (some (0, 2))) ∧ Ended h 3 .declined ∧
    (books {} oneEachWay).countP (·.isCancel fun _ => true) + counts (fun _ => true) (books {} oneEachWay) = 2 := by
  obtain ⟨h, hrun, hh⟩ := exists_of_any (o := run? {} oneEachWay)
    (p := fun h => h.subs.length = 4 ∧ h.stack = [.configuring 0, .entering 0]) (by decide)
  obtain ⟨hlen, hst⟩ := of_decide_eq_true hh
  obtain ⟨hends, -, hsum, -⟩ := ends_accounted_for hrun
  have ended : ∀ s x, s < 4 → exits s (books {} oneEachWay) = [x] → Ended h s x := by
    intro s x hs hx
    rcases hends s (by rw [hlen]; exact hs) with ⟨hnil, -⟩ | ⟨y, hy, he, -⟩
    · cases hnil.symm.trans hx
    · cases hy.symm.trans hx
      exact he
  have hnone : ∀ i, h.isReleasing i = false := fun i => by
    rw [isReleasing, hst]
    rfl
  refine ⟨h, hrun, ended 0 _ (by decide) (by decide), ended 1 _ (by decide) (by decide),
    ended 2 _ (by decide) (by decide), ended 3 _ (by decide) (by decide), ?_⟩
  rw [hsum hnone, hlen]
  decide

end Hub
end Aftermath
