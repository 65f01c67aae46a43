import Aftermath.Proofs.Gate.Operation
import Aftermath.Proofs.Kept

/-! What has ended is released. Whatever is done to subscriptions, in whatever order and however early
the transport calls, one that is not active has neither countdown nor lease, and the lease it was
granted has been given back once. One that is active holds the lease it was granted. -/

namespace Aftermath

/-- A subscription with what it was granted and gave back, and nothing left behind. -/
structure Tidy (v : SubView) : Prop where
  once : v.granted.length ≤ 1
  leases : v.granted = v.self.lease.toList ++ v.returned
  lease : v.self.isActive = false → v.self.lease = none
  due : v.self.isActive = false → v.self.countdown.due = none
  unreturned : v.self.isActive → v.returned = []

/-- What a subscription is left with that has let go of everything. -/
def SubView.left (v : SubView) (st : SubState) : SubView :=
  { v with
    self := { v.self with state := st, countdown := v.self.countdown.cancel, lease := none }
    returned := v.self.lease.toList ++ v.returned }

section
variable {v w : SubView} {st : SubState}

theorem Tidy.left (hv : Tidy v) (hst : st ≠ .active) : Tidy (v.left st) where
  once := hv.once
  leases := hv.leases
  lease _ := rfl
  due _ := rfl
  unreturned ha := absurd (eq_of_beq ha) hst

/-- A change that touches neither the lease nor the countdown and makes nothing active or inactive. -/
theorem Tidy.of_eq (hv : Tidy v) (hg : w.granted = v.granted) (hr : w.returned = v.returned)
    (hl : w.self.lease = v.self.lease) (hd : w.self.countdown = v.self.countdown)
    (ha : w.self.isActive = v.self.isActive) : Tidy w where
  once := hg ▸ hv.once
  leases := by rw [hg, hr, hl]; exact hv.leases
  lease hi := by rw [hl]; exact hv.lease (ha ▸ hi)
  due hi := by rw [hd]; exact hv.due (ha ▸ hi)
  unreturned hi := by rw [hr]; exact hv.unreturned (ha ▸ hi)

/-- A subscription that nothing was granted has no lease. -/
theorem Tidy.of_ungranted (hv : Tidy v) (hg : v.granted = []) :
    v.self.lease = none ∧ v.returned = [] := by
  obtain ⟨hl, hr⟩ := List.append_eq_nil_iff.1 (hg ▸ hv.leases).symm
  exact ⟨by simpa using hl, hr⟩

end

namespace Hub

def AllTidy (h : Hub) : Prop := ∀ s, Tidy (h.subView s)

theorem Reachable.allTidy {h : Hub} (hr : Reachable h) : AllTidy h := by
  intro s
  have hk := hr.kept s
  exact ⟨by have := hk.once; omega, hk.leases, hk.lease, hk.due, hr.unreturned⟩

/-! ### Deeds -/

/-- What can be done to a subscription. -/
inductive Deed where
  | attach (s : SubId) (l : LeaseId)
  | markFailed (s : SubId) (e : SubscribeError)
  | deliver (s : SubId) (e : Envelope)
  | fail (s : SubId) (e : NetworkError)
  | expire (s : SubId)
  | cancel (s : SubId)
  | arm (s : SubId) (fallback : Nat)
  | timeoutWith (s : SubId) (ms : Nat) (k : HookId)
  | timeoutAfter (s : SubId) (ms : Nat)
deriving DecidableEq, Repr

def Deed.sub : Deed → SubId
  | .attach s _ | .markFailed s _ | .deliver s _ | .fail s _ | .expire s | .cancel s | .arm s _
  | .timeoutWith s _ _ | .timeoutAfter s _ => s

def Deed.isGrant : Deed → Bool
  | .attach _ _ => true
  | _ => false

/-- The transport grants a subscription once. -/
def Deed.mayBe (h : Hub) (d : Deed) : Prop :=
  d.sub < h.subs.length ∧ (d.isGrant → h.granted d.sub = [])

/-- A subscription is declined, whatever it was granted before: a lease that it holds goes back. -/
def markFailed (h : Hub) (s : SubId) (e : SubscribeError) : Hub :=
  let k := h.decline s e
  if (h.sub s).isActive then
    match (k.sub s).lease with
    | none => k
    | some l => (k.onSub s fun x => { x with lease := none }).giveBack s l
  else k

def Deed.call (h : Hub) : Deed → Hub
  | .attach s l => h.grant s l
  | .markFailed s e => h.markFailed s e
  | .deliver s e => h.deliver s e
  | .fail s e => h.fail s e
  | .expire s => h.expire s
  | .cancel s => h.cancel s
  | .arm s fallback => Hub.arm fallback h s
  | .timeoutWith s ms k => (h.onSub s fun x => { x with timeoutHandler := some k }).setTimeout s ms
  | .timeoutAfter s ms => h.setTimeout s ms

/-- The second hub comes from the first by deeds, each carried through before the next begins. -/
inductive Does (h : Hub) : List Deed → Hub → Prop where
  | nil : Does h [] h
  | snoc {a b : Hub} {ds : List Deed} {d : Deed} : Does h ds a → d.mayBe a →
      Returns a.stack (d.call a) b → Does h (ds ++ [d]) b

def grantQuietly (h : Hub) (s : SubId) (l : LeaseId) : Hub :=
  let h := h.note (.granted s l)
  if (h.sub s).isActive then h.onSub s fun x => { x with lease := some l } else h.note (.returned s l)

def informed (h : Hub) (s : SubId) (e : SubscribeError) : Hub :=
  (h.note (.ungranted s (h.sub s).key (h.sub s).kind e)).onSub s fun x => { x with error := some e }

def markFailedQuietly (h : Hub) (s : SubId) (e : SubscribeError) : Hub :=
  if (h.sub s).isActive then (h.informed s e).leaving s .cancelled else h.informed s e

def Deed.done (h : Hub) : Deed → Hub
  | .attach s l => h.grantQuietly s l
  | .markFailed s e => h.markFailedQuietly s e
  | .deliver s e => h.deliverQuietly s e
  | .expire s => h.expireQuietly s
  | .cancel s => h.cancelQuietly s
  | d => d.call h

section
variable {h a b : Hub} {s t : SubId} {st : SubState} {d : Deed} {ds : List Deed}

theorem grant_returns (h : Hub) (s : SubId) (l : LeaseId) :
    Returns h.stack (h.grant s l) (h.grantQuietly s l) := by
  unfold grant grantQuietly
  dsimp only
  split
  · exact .done rfl
  · exact .step (Nat.lt_succ_self _) (.done rfl)

theorem decline_of_active (ha : (h.sub s).isActive) (e : SubscribeError) :
    h.decline s e = ((h.informed s e).setState s .cancelled).disarm s :=
  if_pos ha

theorem decline_of_inactive (ha : ¬ (h.sub s).isActive) (e : SubscribeError) :
    h.decline s e = h.informed s e :=
  if_neg ha

theorem markFailed_returns (h : Hub) (s : SubId) (e : SubscribeError) :
    Returns h.stack (h.markFailed s e) (h.markFailedQuietly s e) := by
  have hst := stack_decline h s e
  unfold markFailed markFailedQuietly
  dsimp only
  split
  · next ha =>
    unfold leaving letGo
    dsimp only
    rw [← decline_of_active ha]
    cases ((h.decline s e).sub s).lease with
    | none => exact .done hst
    | some l =>
      refine .step ?_ (.done hst)
      rw [← hst]
      exact Nat.lt_succ_self _
  · next ha =>
    rw [← decline_of_inactive ha]
    exact .done hst

/-- Whoever was granted nothing has nothing to give back when declined. -/
theorem markFailed_eq_decline (hs : s < h.subs.length) (hl : (h.sub s).lease = none)
    (e : SubscribeError) : h.markFailed s e = h.decline s e := by
  unfold markFailed
  split
  · next ha =>
    have hlen : s < (h.informed s e).subs.length := by simpa [informed] using hs
    have hinformed : ((h.informed s e).sub s).lease = none := by
      rw [informed, sub_onSub _ _ _ (by exact hs), if_pos rfl]
      exact hl
    have hnone : ((h.decline s e).sub s).lease = none := by
      rw [decline_of_active ha, sub_disarm (by simpa [setState] using hlen), if_pos rfl,
        sub_setState hlen, if_pos rfl]
      exact hinformed
    dsimp only
    rw [hnone]
  · rfl

/-- When the transport declines a subscription, no lease has been granted yet. -/
theorem Reachable.declines (hr : Reachable h) {e : SubscribeError} (hm : Moved h (.declined e) a) :
    ∃ s, a = h.pop.markFailed s e := by
  cases hm with
  | @declined s rest _ hst =>
    have hs : s < h.subs.length := hr.wired.sub_lt hst rfl
    have hasked : 0 < (h.subView s).flight.count (.subscribing s) := by
      rw [subView, flight, hst]
      exact List.count_pos_iff.2 (List.mem_filter.2 ⟨List.mem_cons_self, decide_eq_true rfl⟩)
    have hungranted : (h.subView s).granted = [] := by
      have honce := (hr.kept s).once
      exact List.eq_nil_of_length_eq_zero (by omega)
    have hlease : (h.pop.sub s).lease = none := ((hr.allTidy s).of_ungranted hungranted).1
    exact ⟨s, (markFailed_eq_decline (h := h.pop) hs hlease e).symm⟩

theorem Deed.returns (h : Hub) (d : Deed) : Returns h.stack (d.call h) (d.done h) := by
  cases d with
  | attach s l => exact grant_returns h s l
  | markFailed s e => exact markFailed_returns h s e
  | deliver s e => exact deliver_returns h s e
  | fail s e => exact .done (stack_fail h s e)
  | expire s => exact expire_returns h s
  | cancel s => exact cancel_returns h s
  | arm s fallback => exact .done (stack_startCountdown (h.onSub s _) s _)
  | timeoutWith s ms k => exact .done (stack_setTimeout _ _ _)
  | timeoutAfter s ms => exact .done (stack_setTimeout _ _ _)

/-! ### What a deed leaves behind -/

theorem journal_letGo (f : Frame) : (h.letGo s).journal = (h.finish s f).journal := by
  unfold letGo finish
  dsimp only
  rw [sub_push]
  cases ((h.disarm s).sub s).lease <;> rfl

/-- While the transport is quiet, a subscription that leaves `active` is left with nothing at once. -/
theorem subView_left (hs : s < h.subs.length) :
    (h.leaving s st).subView t = if t = s then (h.subView t).left st else h.subView t := by
  have hsub : (h.leaving s st).sub t = ((h.setState s st).finish s (.settlingTimeout s)).sub t :=
    sub_eq (subs_letGo _) t
  have hjournal : (h.leaving s st).journal =
      ((h.setState s st).finish s (.settlingTimeout s)).journal :=
    journal_letGo _
  have hview : (h.leaving s st).subView t =
      { ((h.setState s st).finish s (.settlingTimeout s)).subView t with flight := h.flight t } := by
    simp only [subView, flight, granted, returned, stack_leaving, hsub, hjournal]
  rw [hview, subView_leaving hs rfl]
  split
  · rfl
  · rfl

theorem AllTidy.of_view (hh : AllTidy h) (hv : ∀ t, a.subView t = h.subView t) : AllTidy a := by
  intro t
  rw [hv]
  exact hh t

/-- A change of one subscription. -/
theorem AllTidy.of_update (hh : AllTidy h) (f : SubView → SubView)
    (hv : ∀ t, a.subView t = if t = s then f (h.subView t) else h.subView t)
    (hs : Tidy (f (h.subView s))) : AllTidy a := by
  intro t
  rw [hv]
  split
  · next he => exact he ▸ hs
  · exact hh t

theorem AllTidy.onSub (hh : AllTidy h) (hs : s < h.subs.length) {f : Subscription → Subscription}
    (hl : ∀ x, (f x).lease = x.lease) (hd : ∀ x, (f x).countdown = x.countdown)
    (ha : ∀ x, (f x).isActive = x.isActive) : AllTidy (h.onSub s f) :=
  hh.of_update (fun v => { v with self := f v.self }) (fun t => subView_onSub h s t hs f)
    ((hh s).of_eq rfl rfl (hl _) (hd _) (ha _))

theorem AllTidy.leaving (hh : AllTidy h) (hs : s < h.subs.length) (hst : st ≠ .active) :
    AllTidy (h.leaving s st) :=
  hh.of_update (·.left st) (fun _ => subView_left hs) ((hh s).left hst)

/-- A subscription that lost the claim ends cancelled. -/
theorem AllTidy.lost (hh : AllTidy h) (hs : s < h.subs.length) (hi : (h.sub s).isActive = false) :
    AllTidy (h.setState s .cancelled) :=
  hh.of_update (fun v => { v with self.state := .cancelled }) (fun _ => subView_setState hs _)
    ((hh s).of_eq rfl rfl rfl rfl hi.symm)

theorem AllTidy.settleEvent (hh : AllTidy h) (hs : s < h.subs.length)
    (hi : (h.sub s).isActive = false) (e : Envelope) : AllTidy (h.settleEvent s e) := by
  unfold Hub.settleEvent
  dsimp only
  split
  · exact (hh.lost hs hi).of_view fun t => by rw [subView_reply, subView_note_silent _ _ rfl rfl]
  · exact hh.of_view fun t => by
      rw [subView_reply, subView_report, subView_note_silent _ _ rfl rfl, subView_settle]

theorem AllTidy.settleTimeout (hh : AllTidy h) (hs : s < h.subs.length)
    (hi : (h.sub s).isActive = false) : AllTidy (h.settleTimeout s) := by
  unfold Hub.settleTimeout
  dsimp only
  split
  · exact (hh.lost hs hi).of_view fun t => by rw [subView_reply, subView_note_silent _ _ rfl rfl]
  · exact hh.of_view fun t => by
      rw [subView_reply, subView_report, subView_note_silent _ _ rfl rfl, subView_settle]

theorem inactive_leaving (hs : s < h.subs.length) (hst : st ≠ .active) :
    ((h.leaving s st).sub s).isActive = false := by
  rw [sub_leaving hs, if_pos rfl]
  exact beq_eq_false_iff_ne.2 hst

theorem lt_leaving (hs : s < h.subs.length) : s < (h.leaving s st).subs.length :=
  Nat.lt_of_lt_of_eq hs (congrArg Prod.fst size_leaving).symm

theorem AllTidy.deliver (hh : AllTidy h) (hs : s < h.subs.length) (e : Envelope) :
    AllTidy (h.deliverQuietly s e) := by
  unfold deliverQuietly
  split
  · exact hh.of_view fun t => by rw [subView_reply, subView_note_silent _ _ rfl rfl]
  · split
    · have hleft : AllTidy (h.leaving s .fired) := hh.leaving hs (by decide)
      exact hleft.settleEvent (lt_leaving hs) (inactive_leaving hs (by decide)) e
    · exact hh.of_view fun t => by rw [subView_reply, subView_note_silent _ _ rfl rfl]

theorem AllTidy.expire (hh : AllTidy h) (hs : s < h.subs.length) : AllTidy (h.expireQuietly s) := by
  unfold expireQuietly
  split
  · exact (hh.leaving hs (by decide)).settleTimeout (lt_leaving hs) (inactive_leaving hs (by decide))
  · exact hh

theorem AllTidy.cancel (hh : AllTidy h) (hs : s < h.subs.length) : AllTidy (h.cancelQuietly s) := by
  have hleft : AllTidy (h.leaving s .cancelled) := hh.leaving hs (by decide)
  unfold cancelQuietly
  split
  · exact hleft.of_view fun t => by rw [reportCancel, subView_reply, subView_report]; rfl
  · exact hh

theorem AllTidy.fail (hh : AllTidy h) (e : NetworkError) : AllTidy (h.fail s e) := by
  unfold Hub.fail
  dsimp only
  split
  · exact hh.of_view fun t => by
      rw [subView_reply, subView_report, subView_note_silent _ _ rfl rfl, subView_settle]
  · exact hh

/-- Only an active subscription gets a countdown. -/
theorem AllTidy.startCountdown (hh : AllTidy h) (hs : s < h.subs.length) (ms : Nat) :
    AllTidy (h.startCountdown s ms) := by
  intro t
  rw [subView_startCountdown hs]
  split
  · next hact =>
    have ht := hh t
    refine ⟨ht.once, ht.leases, fun hi => ?_, fun hi => ?_, ht.unreturned⟩
    · cases hact.2.symm.trans hi
    · cases hact.2.symm.trans hi
  · exact hh t

theorem AllTidy.setTimeout (hh : AllTidy h) (hs : s < h.subs.length) (ms : Nat) :
    AllTidy (h.setTimeout s ms) := by
  have hset : AllTidy (h.onSub s fun x => { x with timeout := some ms }) :=
    hh.onSub hs (fun _ => rfl) (fun _ => rfl) fun _ => rfl
  unfold Hub.setTimeout
  dsimp only
  split
  · exact hset.startCountdown (by simpa using hs) ms
  · exact hset

theorem AllTidy.arm (hh : AllTidy h) (hs : s < h.subs.length) (fallback : Nat) :
    AllTidy (Hub.arm fallback h s) := by
  have harm : AllTidy (h.onSub s fun x => { x with armed := true }) :=
    hh.onSub hs (fun _ => rfl) (fun _ => rfl) fun _ => rfl
  exact harm.startCountdown (by simpa using hs) _

/-- A subscription that is active holds what it is granted; another one gives it back. -/
theorem AllTidy.attach (hh : AllTidy h) (hs : s < h.subs.length) (hg : h.granted s = [])
    (l : LeaseId) : AllTidy (h.grantQuietly s l) := by
  obtain ⟨hl, hr⟩ := (hh s).of_ungranted hg
  have hgs : (h.subView s).granted = [] := hg
  have hnote : ∀ t, (h.note (.granted s l)).subView t =
      if t = s then { h.subView t with granted := l :: (h.subView t).granted } else h.subView t := by
    intro t
    rw [subView_note]
    by_cases hts : t = s
    · simp [hts, Happening.granted?, Happening.returned?]
    · simp [hts, Ne.symm hts, Happening.granted?, Happening.returned?]
  unfold grantQuietly
  dsimp only
  split
  · next ha =>
    have hact : (h.subView s).self.isActive := ha
    refine hh.of_update (s := s) (fun v => { v with granted := l :: v.granted, self.lease := some l })
      (fun t => ?_) ?_
    · rw [subView_onSub _ _ _ (by simpa using hs), hnote]
      split <;> rfl
    · refine ⟨by simp [hgs], by simp [hgs, hr], fun hi => ?_, fun hi => ?_, fun _ => hr⟩
      · cases hact.symm.trans hi
      · cases hact.symm.trans hi
  · next ha =>
    refine hh.of_update (s := s)
      (fun v => { v with granted := l :: v.granted, returned := l :: v.returned }) (fun t => ?_) ?_
    · rw [subView_note, hnote]
      by_cases hts : t = s
      · simp [hts, Happening.granted?, Happening.returned?]
      · simp [hts, Ne.symm hts, Happening.granted?, Happening.returned?]
    · refine ⟨by simp [hgs], by simp [hgs, hr, hl], fun _ => hl, (hh s).due, fun hi => ?_⟩
      exact absurd hi ha

theorem AllTidy.markFailed (hh : AllTidy h) (hs : s < h.subs.length) (e : SubscribeError) :
    AllTidy (h.markFailedQuietly s e) := by
  have hnote : AllTidy (h.note (.ungranted s (h.sub s).key (h.sub s).kind e)) :=
    hh.of_view fun t => subView_note_silent _ _ rfl rfl
  have hinformed : AllTidy (h.informed s e) :=
    hnote.onSub hs (fun _ => rfl) (fun _ => rfl) fun _ => rfl
  unfold markFailedQuietly
  split
  · exact hinformed.leaving (by simpa [informed] using hs) (by decide)
  · exact hinformed

/-- A deed leaves everything tidy. -/
theorem AllTidy.deed (hh : AllTidy h) (d : Deed) (hd : d.mayBe h) : AllTidy (d.done h) := by
  obtain ⟨hs, hg⟩ := hd
  cases d with
  | attach s l => exact hh.attach hs (hg rfl) l
  | markFailed s e => exact hh.markFailed hs e
  | deliver s e => exact hh.deliver hs e
  | fail s e => exact hh.fail e
  | expire s => exact hh.expire hs
  | cancel s => exact hh.cancel hs
  | arm s fallback => exact hh.arm hs fallback
  | timeoutWith s ms k =>
    have hset : AllTidy (h.onSub s fun x => { x with timeoutHandler := some k }) :=
      hh.onSub hs (fun _ => rfl) (fun _ => rfl) fun _ => rfl
    exact hset.setTimeout (by rw [subs_length_onSub]; exact hs) ms
  | timeoutAfter s ms => exact hh.setTimeout hs ms

theorem AllTidy.does (hh : AllTidy h) (hd : Does h ds a) : AllTidy a := by
  induction hd with
  | nil => exact hh
  | @snoc a b ds d _ hmay hr ih =>
    rw [hr.unique (d.returns a)]
    exact ih.deed d hmay

/-- What has been released, if it has ended, and what is held, if it has not. -/
structure Released (h : Hub) (s : SubId) : Prop where
  once : (h.granted s).length ≤ 1
  unarmed : (h.sub s).isActive = false → ∀ g, (h.sub s).countdown.isPending g = false
  emptied : (h.sub s).isActive = false → (h.sub s).lease = none
  returned : (h.sub s).isActive = false → h.returned s = h.granted s
  held : (h.sub s).isActive → ∀ l ∈ h.granted s, (h.sub s).lease = some l ∧ h.returned s = []

theorem released_of_tidy (ht : Tidy (h.subView s)) : Released h s where
  once := ht.once
  unarmed hi g := by rw [Countdown.isPending, show (h.sub s).countdown.due = none from ht.due hi]; rfl
  emptied := ht.lease
  returned hi := by
    have hl := ht.leases
    rw [ht.lease hi] at hl
    exact hl.symm
  held ha l hl := by
    have hr : h.returned s = [] := ht.unreturned ha
    have hg : h.granted s = (h.sub s).lease.toList := by
      have hl := ht.leases
      rw [show (h.subView s).returned = [] from hr, List.append_nil] at hl
      exact hl
    exact ⟨by simpa [hg] using hl, hr⟩

/-- Whatever state a hub has come to and whatever is done to its subscriptions then, one that has
ended has no countdown pending and no lease, and the lease it was granted went back once; one that is
active holds the lease it was granted. Every deed that may be done then can be carried through. -/
theorem ended_means_released (hr : Reachable h) (hd : Does h ds a) :
    (∀ s, Released a s) ∧ ∀ d : Deed, d.mayBe a → ∃ b, Does h (ds ++ [d]) b :=
  ⟨fun s => released_of_tidy (hr.allTidy.does hd s), fun d hmay => ⟨_, hd.snoc hmay (d.returns a)⟩⟩

end

def asking : Hub :=
  (run? {} [.openSession none none, .configure 0, .subscribe default .event]).getD {}

/-- A lease that is granted is held while a countdown runs, and goes back if the subscription is
declined all the same. If the event comes before the transport has answered, the lease goes back as
soon as it is granted, and neither a timeout nor arming starts a countdown after that. -/
theorem early_event_releases : Reachable asking ∧
    (∃ a, Does asking [.attach 0 7, .arm 0 10] a ∧ (a.sub 0).countdown.isArmed ∧
      (a.sub 0).lease = some 7 ∧ Released a 0) ∧
    (∃ a, Does asking [.attach 0 7, .arm 0 10, .markFailed 0 (.refused default "")] a ∧
      (a.sub 0).state = .cancelled ∧ a.returned 0 = [7] ∧ Released a 0) ∧
    ∃ a, Does asking [.deliver 0 ⟨default, .blank⟩, .attach 0 7, .timeoutAfter 0 5, .arm 0 10] a ∧
      (a.sub 0).state = .fired ∧ a.granted 0 = [7] ∧ a.returned 0 = [7] ∧ Released a 0 := by
  have hr : Reachable asking := ⟨{}, .of_run? (show run? {} [.openSession none none, .configure 0,
    .subscribe default .event] = some asking from rfl)⟩
  have hheld := (Does.nil.snoc ⟨by decide, by decide⟩ (Deed.returns asking (.attach 0 7))).snoc
    ⟨by decide, by decide⟩ (Deed.returns _ (.arm 0 10))
  have hdeclined := hheld.snoc ⟨by decide, by decide⟩
    (Deed.returns _ (.markFailed 0 (.refused default "")))
  have hended := (((Does.nil.snoc ⟨by decide, by decide⟩
      (Deed.returns asking (.deliver 0 ⟨default, .blank⟩))).snoc ⟨by decide, by decide⟩
      (Deed.returns _ (.attach 0 7))).snoc ⟨by decide, by decide⟩
      (Deed.returns _ (.timeoutAfter 0 5))).snoc ⟨by decide, by decide⟩ (Deed.returns _ (.arm 0 10))
  exact ⟨hr,
    ⟨_, hheld, by decide, by decide, (ended_means_released hr hheld).1 0⟩,
    ⟨_, hdeclined, by decide, by decide, (ended_means_released hr hdeclined).1 0⟩,
    _, hended, by decide, by decide, by decide, (ended_means_released hr hended).1 0⟩

end Hub
end Aftermath
