import Aftermath.Proofs.Order
import Aftermath.Proofs.Turn.Advance
import Aftermath.Proofs.Withdrawal

/-! A session one of whose subscriptions has left `active` before the session looks whether it is ready.
It posts nothing, no hook that goes with the post begins, and if nothing else decides it, it ends as soon
as it looks. -/

namespace Aftermath

/-- A session in such a phase has not looked yet whether it is ready, or it never will. -/
def Phase.isUnchecked : Phase → Bool
  | .configuring | .prepared | .checking | .dropped => true
  | _ => false

/-- In such a phase no post is under way, and no hook that goes with one. -/
def Phase.isBarred : Phase → Bool
  | .unopened | .preparing (_ :: _) | .posting | .acknowledging _ | .refused _ | .unheard _ => false
  | _ => true

theorem Phase.isBarred_of_unchecked {p : Phase} (hp : p.isUnchecked) : p.isBarred := by
  cases p <;> first | rfl | cases hp

theorem Phase.not_unchecked_of_hooking {p : Phase} (hp : p.isHooking) : p.isUnchecked = false := by
  cases p <;> first | rfl | cases hp

namespace Hub

section
variable {h h' : Hub} {sid : SessionId} {m : Move} {s : SubId} {x y : View} {e : Ending}
variable {k : HookId} {arg : Argument}

/-! ### What a session does that is not ready -/

/-- A turn that does not take a session to its post: nothing is heard of an undecided session, and it has
still to look. -/
def StaysBarred (x y : View) : Prop :=
  y.self.phase.isBarred ∧
    (x.self.claim = none → y.beats = x.beats ∧ (y.self.claim = none → y.self.phase.isUnchecked))

theorem Drives.barred (hd : Drives h h' sid x y) (hx : x.self.phase.isBarred)
    (hn : x.self.claim = none → x.self.phase.isUnchecked ∧ h.allActive sid = false) :
    StaysBarred x y := by
  -- a session that is further on was decided before
  have further : ∀ {q : Phase}, x.self.phase = q → q.isUnchecked = false → x.self.claim ≠ none :=
    fun hq hf hc => Bool.false_ne_true (hf.symm.trans (hq ▸ (hn hc).1))
  cases hd
  case fails => exact ⟨rfl, fun _ => ⟨rfl, fun hz => absurd hz (Option.some_ne_none _)⟩⟩
  case passes hc hact => exact absurd ((hn hc).2.symm.trans hact) Bool.false_ne_true
  case skips hc => exact ⟨rfl, fun hz => absurd hz (Option.isSome_iff_ne_none.1 hc)⟩
  case decided hq _ | awaits hq _ _ | returns hq | deserted hq _ _ _ | resolves hq _ _ =>
    exact ⟨rfl, fun hc => absurd hc (further hq rfl)⟩
  case leaves hq | vanishes hq => exact ⟨rfl, fun hc => absurd hc (further hq rfl)⟩
  case posts hq hc => exact absurd hc (further hq rfl)
  case resumes hq => rw [show Session.phase _ = .posting from hq] at hx; cases hx
  case begins hnext =>
    unfold Phase.next? at hnext
    split at hnext <;> cases hnext
    · next hq => rw [show Session.phase _ = _ from hq] at hx; cases hx
    · next hq => rw [show Session.phase _ = _ from hq] at hx; cases hx
    · next hq => exact ⟨rfl, fun hc => absurd hc (further hq rfl)⟩
  case handles hh =>
    rcases hh.phase_cases with ⟨r, hq⟩ | ⟨p, hq⟩ <;>
      exact ⟨rfl, fun hc => absurd hc (further hq rfl)⟩
  case waits | dismisses | stops => exact ⟨hx, fun hc => ⟨rfl, fun _ => (hn hc).1⟩⟩
  case closes => exact ⟨rfl, fun _ => ⟨rfl, fun hz => absurd hz settled_claim_ne⟩⟩

/-- A session that will find that it is not ready, or was decided before, never comes to its post. -/
theorem Turn.barred (ht : Turn h h' sid x y)
    (hf : Fits sid x.self.phase x.self.running x.thread) (hx : x.self.phase.isBarred)
    (hn : x.self.claim = none → x.self.phase.isUnchecked ∧ h.allActive sid = false) :
    StaysBarred x y := by
  cases ht
  case opens => cases hx
  case decides => exact ⟨hx, fun _ => ⟨rfl, fun hz => absurd hz (Option.some_ne_none _)⟩⟩
  case withdrawn => exact ⟨hx, fun _ => ⟨rfl, fun hz => absurd hz settled_claim_ne⟩⟩
  case prepares hu _ => rw [show Session.phase _ = .unopened from hu] at hx; cases hx
  case configured => exact ⟨rfl, fun _ => ⟨rfl, fun _ => rfl⟩⟩
  case enters =>
    unfold StaysBarred; dsimp only
    split
    · exact ⟨rfl, fun _ => ⟨rfl, fun _ => rfl⟩⟩
    · exact ⟨hx, fun hc => ⟨rfl, fun _ => (hn hc).1⟩⟩
  case aborts | drops | breaks => exact ⟨rfl, fun _ => ⟨rfl, fun hz => absurd hz settled_claim_ne⟩⟩
  case forgets =>
    unfold StaysBarred; dsimp only
    split
    · next hu => rw [show Session.phase _ = .unopened from hu] at hx; cases hx
    · exact ⟨rfl, fun _ => ⟨rfl, fun _ => rfl⟩⟩
  case ends =>
    have hq := Phase.not_unchecked_of_hooking hf.of_hook.2.1
    exact ⟨hx, fun hc => absurd (hq.symm.trans (hn hc).1) Bool.false_ne_true⟩
  case acknowledged | refused | unheard | belated =>
    rw [hf.of_posting.2.1] at hx; cases hx
  case drives hd => exact hd.barred hx hn
  all_goals exact ⟨hx, fun hc => ⟨rfl, fun _ => (hn hc).1⟩⟩

/-- A session is found not to be ready while it looks. -/
theorem Turn.unready_claimed (ht : Turn h h' sid x y) (hc : y.self.claim = some .unready) :
    x.self.claim = some .unready ∨ x.self.claim = none ∧ y.self.phase = .unready := by
  cases ht
  case opens => cases hc
  case decides r c _ hr _ =>
    cases hc
    cases r <;> cases hr
  case refused => cases hc
  case withdrawn | aborts | drops | breaks => exact .inl (claim_of_settled_ne hc nofun)
  case drives hd =>
    cases hd
    case fails hn => exact .inr ⟨hn, rfl⟩
    case deserted => cases hc
    case resolves | closes => exact .inl (claim_of_settled_ne hc nofun)
    all_goals exact .inl hc
  all_goals exact .inl hc

/-! ### From the moment a subscription is not active -/

def Ungranted (h : Hub) (sid : SessionId) : Prop :=
  ∃ s ∈ (h.session sid).members, (h.sub s).error.isSome

/-- The ending of a session that was not ready: the error of a subscription, if one was not granted,
else it is cancelled. -/
def EndsUnready (h : Hub) (sid : SessionId) (ungranted : Prop) (e : Ending) : Prop :=
  (e = .resolved (.negative .cancelled) ∧ ¬ ungranted) ∨
    ∃ s ∈ (h.session sid).members, ∃ err, (h.sub s).error = some err ∧
      e = .resolved (.negative (.subscribeFailed err))

/-- A session with a subscription that was not active in time; `ungranted` tells whether one had not
been granted by then. -/
structure Barred (h : Hub) (sid : SessionId) (ungranted : Prop) : Prop where
  phase : (h.session sid).phase.isBarred
  unchecked : (h.session sid).claim = none → (h.session sid).phase.isUnchecked ∧
    ∃ s ∈ (h.session sid).members, (h.sub s).isActive = false
  posts : .posts ∉ h.beats sid
  begins : ∀ k arg, .begins k arg ∈ h.beats sid → arg ≠ .nothing
  beats : (h.session sid).claim = none ∨ (h.session sid).claim = some .unready → h.beats sid = []
  ending : (h.session sid).claim = some .unready → (h.session sid).phase = .unready ∨
    ∃ e, ((h.session sid).phase = .closing e ∨ (h.session sid).phase = .ended e) ∧
      EndsUnready h sid ungranted e
  error : ungranted → Ungranted h sid

variable {ungranted : Prop}

theorem allActive_false (hs : s ∈ (h.session sid).members) (ha : (h.sub s).isActive = false) :
    h.allActive sid = false := by
  refine Bool.eq_false_iff.2 fun hall => ?_
  have := List.all_eq_true.1 hall _ (List.mem_map_of_mem hs)
  exact Bool.false_ne_true (ha.symm.trans this)

theorem inactive_move (ha : Reachable h) (hm : Moved h m h') (hs : s < h.subs.length)
    (hact : (h.sub s).isActive = false) : (h'.sub s).isActive = false :=
  (move_shift ha.wired hm s).inactive (Nat.ne_of_lt hs) hact

theorem Ungranted.move (ha : Reachable h) (hm : Moved h m h') (hu : Ungranted h sid) :
    Ungranted h' sid := by
  obtain ⟨s, hs, he⟩ := hu
  obtain ⟨err, he⟩ := Option.isSome_iff_exists.1 he
  exact ⟨s, members_move ha hm hs, by rw [error_move ha hm he]; rfl⟩

theorem EndsUnready.move (ha : Reachable h) (hm : Moved h m h') (he : EndsUnready h sid ungranted e) :
    EndsUnready h' sid ungranted e :=
  he.imp id fun ⟨s, hs, err, herr, he⟩ => ⟨s, members_move ha hm hs, err, error_move ha hm herr, he⟩

/-- What a session ends with that finds that it is not ready. -/
theorem endsUnready_of_closes (hc : Closes h sid (h.session sid) e)
    (hp : (h.session sid).phase = .unready) (hu : ungranted → Ungranted h sid) :
    EndsUnready h sid ungranted e := by
  cases hc with
  | unready _ =>
    cases hf : h.firstError? sid with
    | none =>
      refine .inl ⟨rfl, fun hun => ?_⟩
      obtain ⟨s, hs, herr⟩ := hu hun
      have hno := List.findSome?_eq_none_iff.1 hf _ (List.mem_map_of_mem hs)
      rw [hno] at herr
      cases herr
    | some err =>
      obtain ⟨z, hz, herr⟩ := List.exists_of_findSome?_eq_some hf
      obtain ⟨s, hs, rfl⟩ := List.mem_map.1 hz
      exact .inr ⟨s, hs, err, herr, rfl⟩
  | unawaited hq _ | unheld hq _ _ | unheard hq | deserted hq | handled hq | cancelling hq =>
    exact nomatch hp.symm.trans hq
  | unknown hq _ => rcases hq with ⟨e, hq⟩ | hq <;> exact nomatch hp.symm.trans hq
  | unhandled hq _ => rcases hq with hq | ⟨n, hq, -⟩ <;> exact nomatch hp.symm.trans hq

/-- Once a session has found that it is not ready, it goes on to its ending. -/
theorem Barred.ending_move (ha : Reachable h) (hm : Moved h m h') (hb : Barred h sid ungranted)
    (hc : (h.session sid).claim = some .unready) :
    h'.beats sid = h.beats sid ∧ ((h'.session sid).phase = .unready ∨
      ∃ e, ((h'.session sid).phase = .closing e ∨ (h'.session sid).phase = .ended e) ∧
        EndsUnready h' sid ungranted e) := by
  have ht := move_turn ha.wired hm sid
  have hf := ha.fits sid
  rcases hb.ending hc with hp | ⟨e, hp | hp, he⟩
  · obtain ⟨hbeats, hq | ⟨e, hcl, hq⟩ | ⟨e, hq, -⟩⟩ := ht.ending_on hf (.inl hp)
    · exact ⟨hbeats, .inl (hq.trans hp)⟩
    · exact ⟨hbeats, .inr ⟨e, .inl hq, (endsUnready_of_closes hcl hp hb.error).move ha hm⟩⟩
    · exact nomatch hp.symm.trans hq
  · obtain ⟨hbeats, hq | ⟨d, hcl, -⟩ | ⟨d, hq, hq'⟩⟩ := ht.ending_on hf (.inr ⟨e, hp⟩)
    · exact ⟨hbeats, .inr ⟨e, .inl (hq.trans hp), he.move ha hm⟩⟩
    · have hn := hcl.not_closing
      rw [show (h.view sid).self.phase = _ from hp] at hn
      cases hn
    · obtain rfl : e = d := by simpa using hp.symm.trans hq
      exact ⟨hbeats, .inr ⟨e, .inr hq', he.move ha hm⟩⟩
  · obtain ⟨hq, hbeats⟩ := ht.over hf (by rw [show (h.view sid).self.phase = _ from hp]; rfl)
    exact ⟨hbeats, .inr ⟨e, .inr (hq.trans hp), he.move ha hm⟩⟩

theorem Barred.move (ha : Reachable h) (hm : Moved h m h') (hb : Barred h sid ungranted) :
    Barred h' sid ungranted := by
  have ht := move_turn ha.wired hm sid
  obtain ⟨hphase, hstay⟩ := ht.barred (ha.fits sid) hb.phase fun hn => by
    obtain ⟨hp, s, hs, hact⟩ := hb.unchecked hn
    exact ⟨hp, allActive_false hs hact⟩
  refine ⟨hphase, fun hn => ?_, fun hp => ?_, fun k arg hbeg => ?_, fun hc => ?_, fun hc => ?_,
    fun hu => (hb.error hu).move ha hm⟩
  · have hn' := claim_none ha hm hn
    obtain ⟨-, s, hs, hact⟩ := hb.unchecked hn'
    exact ⟨(hstay hn').2 hn, s, members_move ha hm hs,
      inactive_move ha hm (ha.wired.members sid s hs) hact⟩
  · rcases ht.posts_cases hp with hp | hn
    · exact hb.posts hp
    · rw [show h'.beats sid = h.beats sid from (hstay hn).1] at hp; exact hb.posts hp
  · rcases ht.begins_cases hbeg with hbeg | ⟨q, hq⟩
    · exact hb.begins k arg hbeg
    · have hx := hb.phase
      have hheard := ha.heard sid
      unfold Phase.next? at hq
      split at hq
      · next hp => rw [show (h.session sid).phase = _ from hp] at hx; cases hx
      · next hp => rw [show (h.session sid).phase = _ from hp] at hx; cases hx
      · next hp =>
        cases hq
        rw [show (h.session sid).phase = _ from hp] at hheard
        exact hheard.told_next
      · cases hq
  · cases hn : (h.session sid).claim with
    | none => exact (hstay hn).1.trans (hb.beats (.inl hn))
    | some c =>
      have hc' := claim_move ha hm hn
      obtain rfl : c = .unready := by
        rcases hc with hc | hc
        · exact nomatch hc'.symm.trans hc
        · exact Option.some.inj (hc'.symm.trans hc)
      exact (hb.ending_move ha hm hn).1.trans (hb.beats (.inr hn))
  · rcases ht.unready_claimed hc with hc | ⟨-, hp⟩
    · exact (hb.ending_move ha hm hc).2
    · exact .inl hp

theorem Barred.later (hr : Reachable h) (hl : Later h h') (hb : Barred h sid ungranted) :
    Barred h' sid ungranted := by
  induction hl with
  | refl => exact hb
  | move hl hm ih => exact ih.move (hr.later hl) (moved_of_move? hm)

/-- A session that has not looked yet, with a subscription that is not active. -/
theorem Barred.of_inactive (hr : Reachable h) (hp : (h.session sid).phase = .configuring ∨
    (h.session sid).phase = .prepared ∨ (h.session sid).phase = .checking)
    (hn : (h.session sid).claim = none) (hs : s ∈ (h.session sid).members)
    (ha : (h.sub s).isActive = false) : Barred h sid (Ungranted h sid) := by
  have hbeats : h.beats sid = [] := by
    have hb := hr.heard sid
    rcases hp with hp | hp | hp <;> rw [hp] at hb <;> exact hb
  have hunchecked : (h.session sid).phase.isUnchecked := by
    rcases hp with hp | hp | hp <;> rw [hp] <;> rfl
  refine ⟨Phase.isBarred_of_unchecked hunchecked, fun _ => ⟨hunchecked, s, hs, ha⟩, ?_, ?_,
    fun _ => hbeats, fun hc => absurd (hn.symm.trans hc) nofun, id⟩
  · rw [hbeats]; exact List.not_mem_nil
  · rw [hbeats]; exact fun k arg hb => absurd hb List.not_mem_nil

/-! ### The end of such a session -/

/-- A session that has been configured and was not cancelled looks first when it enters. -/
theorem enter_prepared {rest : List Frame} (hi : sid < h.sessions.length)
    (hst : h.stack = .entering sid :: rest) (hp : (h.session sid).phase = .prepared)
    (hc : (h.session sid).cancelled = false) :
    (h.enter sid).session sid = { h.session sid with phase := .checking } ∧
      (h.enter sid).stack = .driving sid :: rest ∧ (h.enter sid).subs = h.subs ∧
      (h.enter sid).sessions.length = h.sessions.length := by
  have henter : h.enter sid = (h.pop.push (.driving sid)).setPhase sid .checking := by
    simp [enter, hp, hc]
  rw [henter]
  refine ⟨(session_onSession _ _ _ hi _).trans (if_pos rfl), ?_, rfl, sessions_length_onSession _ _ _⟩
  rw [stack_setPhase, stack_push, pop, hst]
  rfl

theorem quietStep_entering {rest : List Frame} (hst : h.stack = .entering sid :: rest) :
    h.quietStep = h.enter sid := by
  unfold quietStep step
  rw [hst]

/-- A session that enters and is not ready lays a release on its frame. -/
theorem enter_unready {rest : List Frame} (hi : sid < h.sessions.length)
    (hst : h.stack = .entering sid :: rest) (hp : (h.session sid).phase = .prepared)
    (hn : (h.session sid).claim = none) (hr : (h.session sid).running = none)
    (hc : (h.session sid).cancelled = false) (ha : h.allActive sid = false) :
    ∃ g : Hub, h.quietStep.quietStep = g.release sid .unready ∧ g.subs = h.subs ∧
      g.sessions.length = h.sessions.length ∧ g.stack = .driving sid :: rest ∧
      h.quietStep.stack = .driving sid :: rest ∧
      g.session sid = { h.session sid with phase := .unready } := by
  rw [quietStep_entering hst]
  obtain ⟨has, hast, hsub, hlen⟩ := enter_prepared hi hst hp hc
  generalize h.enter sid = a at has hast hsub hlen ⊢
  have hall : a.allActive sid = false := by
    unfold allActive Hub.members at ha ⊢
    rw [has, show a.sub = h.sub from funext (sub_eq hsub)]
    exact ha
  have hdrive : a.drive sid = (a.setPhase sid .unready).release sid .unready := by
    simp [drive, has, hr, hall, Session.isSettled, hn]
  refine ⟨a.setPhase sid .unready, ?_, hsub, (sessions_length_onSession _ _ _).trans hlen, hast, hast, ?_⟩
  · rw [quietStep_driving hast, hdrive]
  · refine ((session_onSession _ _ _ (by rw [hlen]; exact hi) _).trans (if_pos rfl)).trans ?_
    rw [has]

def unreadyEnding (h : Hub) (sid : SessionId) : Ending :=
  .resolved (.negative (match h.firstError? sid with
    | some e => .subscribeFailed e
    | none => .cancelled))

theorem drive_of_unready (hr : (h.session sid).running = none)
    (hp : (h.session sid).phase = .unready) :
    ∃ x, h.drive sid = (h.note x).conclude sid (h.unreadyEnding sid) := by
  rw [drive]
  simp only [hr, hp]
  exact ⟨_, rfl⟩

theorem unreadyEnding_congr (hm : (h'.session sid).members = (h.session sid).members)
    (he : ∀ t, (h'.sub t).error = (h.sub t).error) : h'.unreadyEnding sid = h.unreadyEnding sid := by
  have hf : h'.firstError? sid = h.firstError? sid := by
    unfold firstError? Hub.members
    rw [hm, List.findSome?_map, List.findSome?_map]
    exact congrArg (List.findSome? · _) (funext he)
  rw [unreadyEnding, unreadyEnding, hf]

theorem error_swept (t : SubId) : (h.swept sid t).error = (h.sub t).error := by
  unfold swept
  split <;> rfl

/-- When a session that is not ready runs and the transport does not call back, it ends at once, and
whatever was active is cancelled. -/
theorem Sound.unready (hs : Sound h sid) {rest : List Frame} (hst : h.stack = .entering sid :: rest)
    (hp : (h.session sid).phase = .prepared) (hn : (h.session sid).claim = none)
    (hr : (h.session sid).running = none) (hc : (h.session sid).cancelled = false)
    (ha : h.allActive sid = false) : ∃ b, Returns rest h b ∧
      (b.session sid).phase = .ended (h.unreadyEnding sid) ∧
      (b.session sid).claim = some .unready ∧ ∀ t, b.sub t = h.swept sid t := by
  obtain ⟨g, hstep, hsub, hlen, hgst, hast, hgs⟩ := enter_unready hs.exist hst hp hn hr hc ha
  have hsg : Sound g sid := hs.of_eq hlen (by rw [hgs]) hsub
  have hswept : ∀ t, g.swept sid t = h.swept sid t := fun t => by
    unfold swept; rw [hgs, sub_eq hsub]
  generalize hk : g.released sid .unready = k
  have hks := hsg.session_released (c := .unready)
  have hksub : ∀ t, k.sub t = h.swept sid t := fun t => by rw [← hk, hsg.sub_released, hswept]
  have hkn := hsg.inactive_released (c := .unready)
  rw [hk, hgs] at hks
  rw [hk] at hkn
  have hkst : k.stack = .driving sid :: rest := by rw [← hk, stack_released, hgst]
  have hkr : (k.session sid).running = none := by rw [hks]; exact hr
  have hend : k.unreadyEnding sid = h.unreadyEnding sid :=
    unreadyEnding_congr (by rw [hks]; rfl) fun t => by rw [hksub, error_swept]
  obtain ⟨x, hdrive⟩ := drive_of_unready hkr (by rw [hks]; rfl)
  have hsk : Sound (k.note x) sid := (hk ▸ hsg.released .unready).of_eq rfl rfl rfl
  obtain ⟨b, hret, he⟩ := hsk.conclude hkst hkr (k.unreadyEnding sid)
  have hrel := released_returns g sid .unready
  rw [hk, hgst] at hrel
  refine ⟨b, ?_, by rw [he.session, hend], ?_, fun t => ?_⟩
  · refine .step (by rw [hst]; exact Nat.lt_succ_self _) (.step ?_ ?_)
    · rw [hast]; exact Nat.lt_succ_self _
    · rw [hstep]
      refine hrel.trans (Nat.le_succ _) (.step (by rw [hkst]; exact Nat.lt_succ_self _) ?_)
      rw [quietStep_driving hkst, hdrive]
      exact hret
  · rw [he.session]
    show ((k.session sid).settled .ended).claim = _
    rw [hks]
    simp [Session.settled, hn]
  · rw [he.sub, ← hksub]
    exact swept_of_inactive hkn

/-- How a session fares with a subscription that was not active in a hub `h` before the session looked
whether it was ready. -/
structure Stopped (h h' : Hub) (sid : SessionId) : Prop where
  posts : .posts ∉ h'.beats sid
  /-- Whatever begins is a handler that is told how something else has decided the session. -/
  begins : ∀ k arg, .begins k arg ∈ h'.beats sid → arg ≠ .nothing
  beats : (h'.session sid).claim = none ∨ (h'.session sid).claim = some .unready → h'.beats sid = []
  ending : ∀ e, (h'.session sid).claim = some .unready → (h'.session sid).phase = .ended e →
    EndsUnready h' sid (Ungranted h sid) e
  resolves : ∀ rest, (h'.session sid).claim = none → (h'.session sid).cancelled = false →
    (h'.session sid).phase = .prepared → h'.stack = .entering sid :: rest →
    ∃ b e, Returns rest h' b ∧ (b.session sid).phase = .ended e ∧ b.beats sid = [] ∧
      EndsUnready b sid (Ungranted h sid) e

/-- A session that has not yet looked whether it is ready, and one of whose subscriptions is not active
any more, is stopped before its post, whatever happens then. -/
theorem inactive_subscription_stops_post (hr : Reachable h)
    (hp : (h.session sid).phase = .configuring ∨ (h.session sid).phase = .prepared ∨
      (h.session sid).phase = .checking)
    (hn : (h.session sid).claim = none) (hs : s ∈ (h.session sid).members)
    (ha : (h.sub s).isActive = false) (hl : Later h h') : Stopped h h' sid := by
  have hr' := hr.later hl
  have hb := (Barred.of_inactive hr hp hn hs ha).later hr hl
  have ends : ∀ {k : Hub}, Later h k → ∀ e, (k.session sid).claim = some .unready →
      (k.session sid).phase = .ended e → EndsUnready k sid (Ungranted h sid) e := by
    intro k hk e hc hq
    rcases ((Barred.of_inactive hr hp hn hs ha).later hr hk).ending hc with hu | ⟨d, hd | hd, he⟩
    · exact nomatch hq.symm.trans hu
    · exact nomatch hq.symm.trans hd
    · obtain rfl : e = d := by simpa using hq.symm.trans hd
      exact he
  refine ⟨hb.posts, hb.begins, hb.beats, ends hl, fun rest hn' hc' hp' hst => ?_⟩
  obtain ⟨-, t, ht, hact⟩ := hb.unchecked hn'
  have hi : sid < h'.sessions.length :=
    hr'.wired.session_lt hst rfl
  have hrun : (h'.session sid).running = none := by
    have hf := hr'.fits sid
    rw [thread_of_stack hst rfl, hp'] at hf
    rcases hf.of_entering.2.2 with ⟨hrun, -⟩ | ⟨-, hq⟩
    · exact hrun
    · cases hq
  obtain ⟨b, hret, hq, hc, -⟩ :=
    (hr'.sound hi).unready hst hp' hn' hrun hc' (allActive_false ht hact)
  have hlb := hl.trans hret.later
  have hbb := (Barred.of_inactive hr hp hn hs ha).later hr hlb
  exact ⟨b, _, hret, hq, hbb.beats (.inr hc), ends hlb _ hc hq⟩

end

def twoAndHook : List Move :=
  [.openSession none none, .run 0, .step, .subscribe default .event, .granted 0,
    .subscribe default .event, .granted 1, .addHook .beforePost 0]

def firstCancelled : List Move := [.cancel 0, .unsubscribed, .step]

theorem cancelled_while_configuring : ∃ h h', Reachable h ∧ (h.session 0).claim = none ∧
    (h.sub 0).state = .cancelled ∧ Later h h' ∧
    (h'.session 0).phase = .ended (.resolved (.negative .cancelled)) ∧ Stopped h h' 0 := by
  obtain ⟨h, hr, hp, hn, hs, ha, hrun⟩ := Reachable.exists_of_run {} (twoAndHook ++ firstCancelled)
    (fun h => (h.session 0).phase = .configuring ∧ (h.session 0).claim = none ∧
      0 ∈ (h.session 0).members ∧ (h.sub 0).state = .cancelled ∧
      (h.run? ([.configured, .step, .step, .step, .step, .unsubscribed] ++ List.replicate 7 .step)).any
        fun h' => (h'.session 0).phase = .ended (.resolved (.negative .cancelled))) (by decide)
  obtain ⟨h', hl, hq⟩ := Later.exists_of_run hrun
  exact ⟨h, h', hr, hn, ha, hl, hq, inactive_subscription_stops_post hr (.inl hp) hn hs
    (by rw [Subscription.isActive, ha]; rfl) hl⟩

/-- A subscription that a hook before the post cancels does not stop it: the command is posted, although
nothing else has decided the session. -/
theorem cancelled_in_hook_posted : ¬ ∀ (h h' : Hub) (sid : SessionId) (s : SubId), Reachable h →
    s ∈ (h.session sid).members → (h.sub s).state = .cancelled → (h.session sid).claim = none →
    .posts ∉ h.beats sid → Later h h' → (h'.session sid).claim = none → .posts ∉ h'.beats sid := by
  intro hall
  obtain ⟨h, hr, hs, ha, hn, hb, hrun⟩ := Reachable.exists_of_run {}
    (twoAndHook ++ [.configured, .step, .step, .step] ++ firstCancelled)
    (fun h => 0 ∈ (h.session 0).members ∧ (h.sub 0).state = .cancelled ∧ (h.session 0).claim = none ∧
      .posts ∉ h.beats 0 ∧ (h.run? [.hookReplied .done, .step]).any fun h' =>
        (h'.session 0).claim = none ∧ .posts ∈ h'.beats 0) (by decide)
  obtain ⟨h', hl, hn', hb'⟩ := Later.exists_of_run hrun
  exact hall h h' 0 0 hr hs ha hn hb hl hn' hb'

end Hub
end Aftermath
