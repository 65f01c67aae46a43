import Aftermath.Proofs.Latest
import Aftermath.Proofs.Modal

/-! Which moves meddle with the countdown of a subscription. As long as the subscription is active, its
countdown runs on until a new timeout is set for it or a session arms it, and only its alarm sets about
letting it time out. -/

namespace Aftermath

def Move.isTimingOf (t : SubId) : Move → Bool
  | .ring s _ | .timeoutAfter s _ | .timeoutWith s _ _ => s == t
  | _ => false

namespace Hub

/-- A session has been acknowledged, its last hook has come to an end and nothing has decided it: with
its next step it arms its members. -/
structure Arms (h : Hub) (sid : SessionId) : Prop where
  top : h.stack.head? = some (.driving sid)
  phase : (h.session sid).phase = .acknowledging []
  running : (h.session sid).running = none
  claim : (h.session sid).claim = none

instance (h : Hub) (sid : SessionId) : Decidable (h.Arms sid) :=
  decidable_of_iff (h.stack.head? = some (.driving sid) ∧ (h.session sid).phase = .acknowledging [] ∧
      (h.session sid).running = none ∧ (h.session sid).claim = none)
    ⟨fun ⟨t, p, r, c⟩ => ⟨t, p, r, c⟩, fun ⟨t, p, r, c⟩ => ⟨t, p, r, c⟩⟩

/-- How long a subscription waits in a session: as it was told itself, or as its session was told, or as
the settings say. -/
def patience (h : Hub) (sid : SessionId) (s : SubId) : Nat :=
  (h.sub s).timeout.getD ((h.session sid).timeout.getD h.settings.defaultTimeout)

def arming? (s : SubId) (h : Hub) (m : Move) : Option Nat :=
  match m, h.stack with
  | .step, .driving i :: _ =>
    if h.Arms i ∧ s ∈ (h.session i).members then some (h.clock + h.patience i s) else none
  | _, _ => none

/-- The deadline that a move gives to a subscription: by a new timeout, once countdowns have started, or
by arming it. -/
def deadline? (s : SubId) (h : Hub) (m : Move) : Option Nat :=
  (if (h.sub s).armed then (m.timeout? s).map (h.clock + ·) else none).or (arming? s h m)

/-- The countdown of a subscription is spared: it runs on if the subscription is active still, and no
expiry sets out. -/
structure Spares (t : SubId) (v w : SubView) : Prop where
  countdown : w.self.isActive → v.self.isActive ∧ w.self.countdown = v.self.countdown
  flight : .settlingTimeout t ∈ w.flight → .settlingTimeout t ∈ v.flight

section
variable {h h' : Hub} {s t : SubId} {i : SessionId} {m : Move} {f : Frame} {rest : List Frame}
variable {v w : SubView}

theorem Spares.refl : Spares t v v := ⟨fun ha => ⟨ha, rfl⟩, id⟩

theorem Spares.of_eq (he : w = v) : Spares t v w := by
  rw [he]
  exact .refl

theorem Spares.trans {u : SubView} (hv : Spares t v w) (hw : Spares t w u) : Spares t v u where
  countdown ha := by
    obtain ⟨hact, hc⟩ := hw.countdown ha
    exact ⟨(hv.countdown hact).1, hc.trans (hv.countdown hact).2⟩
  flight hf := hv.flight (hw.flight hf)

/-- A change of the record that leaves activity and countdown alone. -/
theorem spares_onSub (hs : s < h.subs.length) {k : Subscription → Subscription}
    (hk : ∀ x, (k x).isActive = x.isActive ∧ (k x).countdown = x.countdown) :
    Spares t (h.subView t) ((h.onSub s k).subView t) := by
  rw [subView_onSub _ _ _ hs]
  split
  · exact ⟨fun ha => ⟨(hk _).1 ▸ ha, (hk _).2⟩, id⟩
  · exact .refl

theorem spares_setState (hs : s < h.subs.length) {st : SubState} (hst : st.isTerminal) :
    Spares t (h.subView t) ((h.setState s st).subView t) := by
  rw [subView_setState hs]
  split
  · exact ⟨fun ha => absurd (hst.symm.trans (congrArg not ha)) Bool.noConfusion, id⟩
  · exact .refl

/-- Nor does it matter that a frame goes. -/
theorem spares_pop (hst : h.stack = f :: rest) : Spares t (h.subView t) (h.pop.subView t) := by
  rw [subView_of_stack _ t hst]
  split
  · exact ⟨fun ha => ⟨ha, rfl⟩, fun hf => List.mem_cons_of_mem _ hf⟩
  · exact .refl

theorem spares_leaving (hs : s < h.subs.length) {st : SubState} (hst : st.isTerminal)
    (hf : f.sub? = some s) (hne : f ≠ .settlingTimeout t) :
    Spares t (h.subView t) (((h.setState s st).finish s f).subView t) := by
  rw [subView_leaving hs hf]
  split
  · refine ⟨fun ha => absurd (hst.symm.trans (congrArg not ha)) Bool.noConfusion, fun hm => ?_⟩
    exact (List.mem_cons.1 hm).resolve_left hne.symm
  · exact .refl

theorem spares_cancel (hs : s < h.subs.length) : Spares t (h.subView t) ((h.cancel s).subView t) := by
  unfold cancel
  split
  · exact spares_leaving hs rfl rfl (by simp)
  · exact .refl

theorem spares_deliver (hs : s < h.subs.length) (e : Envelope) :
    Spares t (h.subView t) ((h.deliver s e).subView t) := by
  unfold deliver; dsimp only
  split
  · rw [subView_reply, subView_note_silent _ _ rfl rfl]
    exact .refl
  · split
    · exact spares_leaving hs rfl rfl (by simp)
    · rw [subView_reply, subView_note_silent _ _ rfl rfl]
      exact .refl

theorem spares_settleEvent (hs : s < h.subs.length) (e : Envelope) :
    Spares t (h.subView t) ((h.settleEvent s e).subView t) := by
  unfold settleEvent; dsimp only
  split
  · rw [subView_reply, subView_note_silent _ _ rfl rfl]
    exact spares_setState hs rfl
  · rw [subView_reply, subView_report, subView_note_silent _ _ rfl rfl, subView_settle]
    exact .refl

theorem spares_settleTimeout (hs : s < h.subs.length) :
    Spares t (h.subView t) ((h.settleTimeout s).subView t) := by
  unfold settleTimeout; dsimp only
  split
  · rw [subView_reply, subView_note_silent _ _ rfl rfl]
    exact spares_setState hs rfl
  · rw [subView_reply, subView_report, subView_note_silent _ _ rfl rfl, subView_settle]
    exact .refl

theorem spares_releaseStep {l : List SubId} {n : Nat} (hl : ∀ s ∈ l, s < h.subs.length) :
    Spares t (h.subView t) ((h.releaseStep i l n).subView t) := by
  have hpush : ∀ l n, (h.push (.releasing i l n)).subView t = h.subView t := fun _ _ =>
    subView_push_silent _ _ rfl
  unfold releaseStep
  split
  · rw [subView_reply]
    split
    · exact .refl
    · exact .of_eq (subView_note_silent _ _ rfl rfl)
  · next u l =>
    split
    · rw [← hpush l (n + 1)]
      exact spares_cancel (hl u List.mem_cons_self)
    · exact .of_eq (hpush _ _)

theorem spares_register (hs : s < h.subs.length) :
    Spares t (h.subView t) ((h.register i s).subView t) := by
  unfold register; dsimp only
  split
  · exact spares_cancel (h := h.onSession i _) hs
  · exact .refl

/-- A subscription that is made is not one of those there are. -/
theorem spares_subscribe (ht : t < h.subs.length) (key : Key) (kind : Kind) :
    Spares t (h.subView t) ((h.subscribe i key kind).subView t) := by
  unfold subscribe; dsimp only
  generalize hg : ({ h with subs := h.subs ++ [{ key, kind, home := i }] } : Hub).onSession i _ = g
  have hv : g.subView t = h.subView t := by
    rw [← hg, subView_onSession]
    have hself : ({ h with subs := h.subs ++ [{ key, kind, home := i }] } : Hub).sub t = h.sub t := by
      rw [sub_append, if_neg (Nat.ne_of_lt ht)]
    exact congrArg (fun x => ({ h.subView t with self := x } : SubView)) hself
  have hne : (Frame.subscribing h.subs.length).sub? ≠ some t := fun he =>
    Nat.ne_of_lt ht (Option.some.inj he).symm
  have hpush : (g.push (.subscribing h.subs.length)).subView t = h.subView t := by
    rw [subView_push, if_neg hne, hv]
  rw [← hpush]
  refine spares_register ?_
  rw [← hg]
  simp

theorem spares_grant (hs : s < h.subs.length) (l : LeaseId) :
    Spares t (h.subView t) ((h.grant s l).subView t) := by
  have hnote : Spares t (h.subView t) ((h.note (.granted s l)).subView t) := by
    rw [subView_note]
    exact ⟨fun ha => ⟨ha, rfl⟩, id⟩
  unfold grant; dsimp only
  refine hnote.trans ?_
  split
  · exact spares_onSub (h := h.note _) hs fun _ => ⟨rfl, rfl⟩
  · rw [giveBack, subView_push_silent _ _ rfl, subView_note]
    exact ⟨fun ha => ⟨ha, rfl⟩, id⟩

theorem spares_disarm (hs : s < h.subs.length) (ha : (h.sub s).isActive = false) :
    Spares t (h.subView t) ((h.disarm s).subView t) := by
  rw [subView_disarm hs]
  split
  · next hts =>
    subst hts
    exact ⟨fun hx => absurd (ha.symm.trans hx) Bool.false_ne_true, id⟩
  · exact .refl

theorem spares_decline (hs : s < h.subs.length) (e : SubscribeError) :
    Spares t (h.subView t) ((h.decline s e).subView t) := by
  unfold decline; dsimp only
  generalize hn : h.note _ = n
  have hlen : s < n.subs.length := by rw [← hn]; exact hs
  have hv : n.subView t = h.subView t := by rw [← hn]; exact subView_note_silent _ _ rfl rfl
  have ho : Spares t (n.subView t) ((n.onSub s fun sub => { sub with error := some e }).subView t) :=
    spares_onSub hlen fun _ => ⟨rfl, rfl⟩
  rw [← hv]
  refine ho.trans ?_
  generalize hg : n.onSub s _ = g
  have hlen' : s < g.subs.length := by rw [← hg]; simpa using hlen
  split
  · refine (spares_setState hlen' rfl).trans (spares_disarm (by simpa [setState] using hlen') ?_)
    rw [sub_setState hlen', if_pos rfl]
    rfl
  · exact .refl

theorem spares_setTimeout (hs : s < h.subs.length) (hne : s ≠ t) (ms : Nat) :
    Spares t (h.subView t) ((h.setTimeout s ms).subView t) := by
  have ho := spares_onSub (t := t) hs (k := fun sub => { sub with timeout := some ms }) fun _ => ⟨rfl, rfl⟩
  unfold setTimeout; dsimp only
  split
  · rw [subView_startCountdown (by simpa using hs), if_neg fun hx => hne hx.1.symm]
    exact ho
  · exact ho

/-- An alarm that is not pending, or is that of another subscription. -/
theorem spares_ring (hs : s < h.subs.length) {g : Nat}
    (hq : s ≠ t ∨ (h.sub s).isActive = false ∨ (h.sub s).countdown.isPending g = false) :
    Spares t (h.subView t) ((h.ring s g).subView t) := by
  unfold ring; dsimp only
  split
  · rw [subView_reply, subView_note_silent _ _ rfl rfl]
    exact .refl
  · next c hc =>
    have hv := subView_onSub h s t hs fun sub => { sub with countdown := c }
    split
    · next ha =>
      have hne : t ≠ s := by
        rintro rfl
        rcases hq with hq | hq | hq
        · exact hq rfl
        · exact Bool.false_ne_true (hq.symm.trans ha)
        · rw [Countdown.ring?, hq] at hc
          cases hc
      rw [subView_leaving (by simpa using hs) rfl, hv, if_neg hne, if_neg hne]
      exact .refl
    · next ha =>
      rw [subView_reply, hv]
      split
      · next hts =>
        subst hts
        exact ⟨fun hx => absurd hx ha, id⟩
      · exact .refl

/-- A session that arms its members goes on to wait. -/
theorem Arms.drive (ha : h.Arms i) (hin : s ∈ (h.session i).members) :
    h.drive i = (h.armAll i).setPhase i .awaiting := by
  have hne : (h.session i).members.isEmpty = false := by
    rw [List.isEmpty_eq_false_iff]
    exact List.ne_nil_of_mem hin
  simp [Hub.drive, ha.running, ha.phase, hne, Session.isSettled, ha.claim]

theorem arming?_of_stack (hst : h.stack = .driving i :: rest) (ha : h.Arms i)
    (hin : s ∈ (h.session i).members) : arming? s h .step = some (h.clock + h.patience i s) := by
  unfold arming?
  rw [hst]
  exact if_pos ⟨ha, hin⟩

theorem Arms.stack (ha : h.Arms i) : ∃ rest, h.stack = .driving i :: rest :=
  List.head?_eq_some_iff.1 ha.top

theorem Arms.arming (ha : h.Arms i) (hin : s ∈ (h.session i).members) :
    arming? s h .step = some (h.clock + h.patience i s) := by
  obtain ⟨rest, hst⟩ := ha.stack
  exact arming?_of_stack hst ha hin

theorem arming_cases {d : Nat} (hd : arming? s h m = some d) :
    m = .step ∧ ∃ i, h.Arms i ∧ s ∈ (h.session i).members ∧ d = h.clock + h.patience i s := by
  unfold arming? at hd
  split at hd
  · split at hd
    · next hx =>
      cases hd
      exact ⟨rfl, _, hx.1, hx.2, rfl⟩
    · cases hd
  · cases hd

theorem spares_fail (s : SubId) (e : NetworkError) : Spares t (h.subView t) ((h.fail s e).subView t) := by
  unfold fail; dsimp only
  split
  · rw [subView_reply, subView_report, subView_note_silent _ _ rfl rfl, subView_settle]
    exact .refl
  · exact .refl

theorem spares_configured {i : SessionId} {rest : List Frame} (hst : h.stack = .configuring i :: rest) :
    Spares t (h.subView t) ((h.pop.configured i).subView t) := by
  refine (spares_pop hst).trans (.of_eq ?_)
  rw [configured, subView_note_silent _ _ rfl rfl, subView_setPhase]

/-- A move spares a countdown that it does not set, unless a session arms the subscription. -/
theorem move_spares (ha : Reachable h) (hm : Moved h m h') (ht : t < h.subs.length)
    (hq : m.isTimingOf t = false) (hno : arming? t h m = none) :
    Spares t (h.subView t) (h'.subView t) := by
  have hw := ha.wired
  cases hm with
  | settleEvent hst => exact (spares_pop hst).trans (spares_settleEvent (h := h.pop) (hw.sub_lt hst rfl) _)
  | settleTimeout hst => exact (spares_pop hst).trans (spares_settleTimeout (h := h.pop) (hw.sub_lt hst rfl))
  | reportCancel hst =>
    refine (spares_pop hst).trans (.of_eq ?_)
    rw [reportCancel, subView_reply, subView_report]
  | releaseStep hst =>
    exact (spares_pop hst).trans (spares_releaseStep (h := h.pop) (hw.liesOn hst).2)
  | enter hst => exact .of_eq (subView_enter hst)
  | @drive i _ hst =>
    rcases subView_drive (t := t) hst (hw.members i) with hv | ⟨hp, hr, hc, hin, -⟩
    · exact .of_eq hv
    · rw [arming?_of_stack hst ⟨by rw [hst]; rfl, hp, hr, hc⟩ hin] at hno
      cases hno
  | pass | newToken | newModal | openSession | addHook | defaultTimeout => exact .refl
  | configure _ _ _ => exact .of_eq subView_prepare
  | run _ => exact .of_eq (subView_push_silent _ _ rfl)
  | drop _ => exact .of_eq subView_drop
  | deliver hs => exact spares_deliver hs _
  | fail => exact spares_fail _ _
  | cancel hs => exact spares_cancel hs
  | ring hs _ => exact spares_ring hs (.inl (by simpa [Move.isTimingOf] using hq))
  | cancelAll _ => exact .of_eq subView_cancelAll
  | cancelToken _ => exact .of_eq (subView_cancelToken _)
  | register _ hs => exact spares_register hs
  | handleWith hs => exact spares_onSub hs fun _ => ⟨rfl, rfl⟩
  | timeoutAfter hs => exact spares_setTimeout hs (by simpa [Move.isTimingOf] using hq) _
  | @timeoutWith s _ k hs =>
    have ho : Spares t (h.subView t)
        ((h.onSub s fun sub => { sub with timeoutHandler := some k }).subView t) :=
      spares_onSub hs fun _ => ⟨rfl, rfl⟩
    exact ho.trans (spares_setTimeout (by simpa using hs) (by simpa [Move.isTimingOf] using hq) _)
  | subscribe _ => exact spares_subscribe ht _ _
  | configured hst => exact spares_configured hst
  | granted hst => exact (spares_pop hst).trans (spares_grant (h := h.pop) (hw.sub_lt hst rfl) _)
  | declined hst => exact (spares_pop hst).trans (spares_decline (h := h.pop) (hw.sub_lt hst rfl) _)
  | unsubscribed hst => exact spares_pop hst
  | hookReplied hst => exact .of_eq (subView_hookReplied hst (hw.liesOn hst).2)
  | postReplied hst => exact .of_eq (subView_postReplied hst (hw.liesOn hst).2)

/-! ### Countdowns that are set -/

/-- A new timeout takes effect at once where countdowns have started. -/
theorem due_setTimeout (hs : s < h.subs.length) (ms : Nat) (hact : (h.sub s).isActive) :
    ((h.setTimeout s ms).sub s).countdown.due =
      if (h.sub s).armed then some (h.clock + ms) else (h.sub s).countdown.due := by
  unfold setTimeout; dsimp only
  generalize hg : (h.onSub s fun sub => { sub with timeout := some ms }) = g
  have hlen : s < g.subs.length := by rw [← hg]; simpa using hs
  have hsub : g.sub s = { h.sub s with timeout := some ms } := by
    rw [← hg, sub_onSub _ _ _ hs, if_pos rfl]
  have hclock : g.clock = h.clock := by rw [← hg]; rfl
  have hact' : (g.sub s).isActive := by rw [hsub]; exact hact
  rw [show (g.sub s).armed = (h.sub s).armed by rw [hsub]]
  split
  · rw [sub_startCountdown hlen, if_pos ⟨rfl, hact'⟩, hclock]
    rfl
  · rw [hsub]

theorem flight_setTimeout (ms : Nat) : (h.setTimeout s ms).flight t = h.flight t := by
  have hst : (h.setTimeout s ms).stack = h.stack := by
    unfold setTimeout; dsimp only
    split <;> simp
  rw [flight, hst]
  rfl

/-- A session that arms its members starts their countdowns, and those that are active get a deadline. -/
theorem Arms.sub (ha : h.Arms i) (hw : Wired h) (hin : s ∈ (h.session i).members) :
    ((h.drive i).sub s).armed ∧ ((h.sub s).isActive →
      ((h.drive i).sub s).countdown.due = some (h.clock + h.patience i s)) := by
  obtain ⟨c, hv, hdue, -⟩ := subView_foldl_arm (t := s)
    ((h.session i).timeout.getD h.settings.defaultTimeout) (h.session i).members (hw.members i)
  have hself : (h.drive i).sub s = { h.sub s with armed := true, countdown := c } := by
    have hx : (h.drive i).subView s = { h.subView s with self.armed := true, self.countdown := c } := by
      rw [ha.drive hin, subView_setPhase, armAll, hv, if_pos hin]
    exact congrArg SubView.self hx
  rw [hself]
  exact ⟨rfl, hdue hin⟩

/-- A new timeout moves the deadline where countdowns have started. -/
theorem due_of_timeout {d : Nat} (hm : Moved h m h') (ht : m.timeout? s = some d)
    (hact : (h.sub s).isActive) : (h'.sub s).countdown.due =
      if (h.sub s).armed then some (h.clock + d) else (h.sub s).countdown.due := by
  cases hm
  case timeoutAfter t ms hs =>
    obtain ⟨rfl, hd⟩ := Option.ite_none_right_eq_some.1 ht
    cases hd
    exact due_setTimeout hs d hact
  case timeoutWith t ms k hs =>
    obtain ⟨rfl, hd⟩ := Option.ite_none_right_eq_some.1 ht
    cases hd
    have hsub := (sub_onSub h t t hs fun sub => { sub with timeoutHandler := some k }).trans (if_pos rfl)
    rw [due_setTimeout (by simpa using hs) d (by rw [hsub]; exact hact), hsub]
    rfl
  all_goals cases ht

theorem arming_of_timeout {d : Nat} (ht : m.timeout? s = some d) : arming? s h m = none := by
  cases m with
  | timeoutAfter | timeoutWith => rfl
  | _ => cases ht

theorem inactive_ring (hs : s < h.subs.length) {g : Nat} (hact : (h.sub s).isActive)
    (hp : (h.sub s).countdown.isPending g) : ((h.ring s g).sub s).isActive = false := by
  unfold ring; dsimp only
  rw [Countdown.ring?, if_pos hp]
  dsimp only
  rw [if_pos hact, sub_finish (by simpa [setState] using hs), if_pos rfl,
    sub_setState (by simpa using hs), if_pos rfl]
  rfl

/-- The countdown of a subscription that stays active runs on, or it starts anew. -/
theorem due_move (ha : Reachable h) (hm : Moved h m h') (hs : s < h.subs.length)
    (hact : (h'.sub s).isActive) :
    (h'.sub s).countdown.due = (deadline? s h m).or (h.sub s).countdown.due := by
  have hbefore := isActive_before ha hm hs hact
  cases ht : m.timeout? s with
  | some d =>
    rw [due_of_timeout hm ht hbefore, deadline?, ht, arming_of_timeout ht]
    split <;> rfl
  | none =>
    have hn : deadline? s h m = arming? s h m := by
      rw [deadline?, ht]
      split <;> rfl
    cases hd : arming? s h m with
    | some d =>
      obtain ⟨rfl, i, harms, hin, rfl⟩ := arming_cases hd
      obtain ⟨rest, hst⟩ := harms.stack
      rw [hn, hd, moved_driving hm hst, (harms.sub ha.wired hin).2 hbefore]
      rfl
    | none =>
      -- an alarm that rings while it is pending would end the activity
      have hsp : Spares s (h.subView s) (h'.subView s) := by
        cases hq : m.isTimingOf s with
        | false => exact move_spares ha hm hs hq hd
        | true =>
          cases hm
          case ring t n _ _ =>
            obtain rfl : t = s := by simpa [Move.isTimingOf] using hq
            cases hp : (h.sub t).countdown.isPending n with
            | false => exact spares_ring hs (.inr (.inr hp))
            | true => exact absurd ((inactive_ring hs hbefore hp).symm.trans hact) Bool.false_ne_true
          case timeoutAfter t ms _ | timeoutWith t ms k _ =>
            obtain rfl : t = s := by simpa [Move.isTimingOf] using hq
            exact absurd ht (by simp [Move.timeout?])
          all_goals cases hq
      rw [show (h'.sub s).countdown = _ from (hsp.countdown hact).2, hn, hd]
      rfl

/-- A subscription sets about timing out only when its alarm rings while it is pending. -/
theorem expiry_cases (ha : Reachable h) (hm : Moved h m h') (hs : s < h.subs.length)
    (hf : .settlingTimeout s ∈ h'.flight s) : .settlingTimeout s ∈ h.flight s ∨
      ∃ g, m = .ring s g ∧ (h.sub s).isActive ∧ (h.sub s).countdown.isPending g ∧ h.mayRing s g := by
  cases hq : m.isTimingOf s with
  | false =>
    cases hd : arming? s h m with
    | none => exact .inl ((move_spares ha hm hs hq hd).flight hf)
    | some d =>
      obtain ⟨rfl, i, harms, hin, rfl⟩ := arming_cases hd
      obtain ⟨rest, hst⟩ := harms.stack
      rw [moved_driving hm hst] at hf
      change _ ∈ ((h.drive i).subView s).flight at hf
      left
      rcases subView_drive (t := s) hst (ha.wired.members i) with hv | ⟨-, -, -, -, c, hv, -⟩
      · rw [hv] at hf; exact hf
      · rw [hv] at hf; exact hf
  | true =>
    cases hm
    case ring t g ht hr =>
      obtain rfl : t = s := by simpa [Move.isTimingOf] using hq
      by_cases hact : (h.sub t).isActive
      · by_cases hp : (h.sub t).countdown.isPending g
        · exact .inr ⟨g, rfl, hact, hp, hr⟩
        · exact .inl ((spares_ring hs (.inr (.inr (by simpa using hp)))).flight hf)
      · exact .inl ((spares_ring hs (.inr (.inl (by simpa using hact)))).flight hf)
    case timeoutAfter t ms ht =>
      rw [flight_setTimeout] at hf
      exact .inl hf
    case timeoutWith t ms k ht =>
      rw [flight_setTimeout] at hf
      exact .inl hf
    all_goals cases hq

end
end Hub
end Aftermath
