import Aftermath.Proofs.Stack

/-! What one move does to one subscription. A shift changes its record, the frames about it and its
leases. A call or an answer of the transport is a shift of every subscription. -/

namespace Aftermath

/-- The claim that goes with a report; a cancelled subscription claims nothing. -/
def Report.claim? : Report → Option Claim
  | .fired s e => some (.fired s e)
  | .timedOut s => some (.timedOut s)
  | .lost e => some (.lost e)
  | .cancelled _ => none

def Frame.report? : Frame → Option Report
  | .settlingEvent s e => some (.fired s e)
  | .settlingTimeout s => some (.timedOut s)
  | .reportingCancel s => some (.cancelled s)
  | _ => none

/-- How a subscription leaves `active`: its new state, and the frame that finishes the business. -/
inductive Subscription.Leaves (s : SubId) (x : Subscription) : SubState → Frame → Prop where
  | fired {e : Envelope} : e.key = x.key → Leaves s x .fired (.settlingEvent s e)
  | timedOut : x.countdown.isArmed → Leaves s x .timedOut (.settlingTimeout s)
  | cancelled : Leaves s x .cancelled (.reportingCancel s)

namespace Hub

/-- What a move from one hub to the next does to one subscription. -/
inductive Shift (h h' : Hub) (s : SubId) : SubView → SubView → Prop where
  | idle {v} : Shift h h' s v v
  | born {key kind i rest fl g r} : s = h.subs.length → h.stack = .configuring i :: rest →
      (h.session i).claim = none → s ∈ (h'.session i).members →
      Shift h h' s ⟨default, fl, g, r⟩ ⟨{ key, kind, home := i }, .subscribing s :: fl, g, r⟩
  /-- A session that is decided cancels what is made for it. -/
  | bornLate {key kind i rest fl g r c} : s = h.subs.length → h.stack = .configuring i :: rest →
      (h.session i).isSettled → s ∈ (h'.session i).members → c.due = none →
      Shift h h' s ⟨default, fl, g, r⟩
        ⟨{ key, kind, home := i, state := .cancelled, countdown := c },
          .reportingCancel s :: .subscribing s :: fl, g, r⟩
  | handled {v k} : Shift h h' s v { v with self.handler := some k }
  | timed {v k ms} : (v.self.armed && v.self.isActive) = false →
      Shift h h' s v { v with self.timeoutHandler := k, self.timeout := some ms }
  | rearmed {v k ms} : v.self.armed → v.self.isActive →
      Shift h h' s v { v with
        self.timeoutHandler := k, self.timeout := some ms
        self.countdown := v.self.countdown.arm (h.clock + ms) }
  | armed {x fl g r sid rest c} : h.stack = .driving sid :: rest →
      (h.session sid).phase = .acknowledging [] → (h.session sid).running = none →
      (h.session sid).claim = none → s ∈ (h.session sid).members →
      (x.isActive → c.due = some
        (h.clock + x.timeout.getD ((h.session sid).timeout.getD h.settings.defaultTimeout))) →
      (x.isActive = false → c = x.countdown) →
      Shift h h' s ⟨x, fl, g, r⟩ ⟨{ x with armed := true, countdown := c }, fl, g, r⟩
  | leaves {x fl g r st f c} : x.isActive → x.Leaves s st f → c.due = none →
      Shift h h' s ⟨x, fl, g, r⟩
        ⟨{ x with state := st, countdown := c, lease := none }, f :: fl, g, x.lease.toList ++ r⟩
  | rings {x fl g r c} : x.isActive = false → c.due = none →
      Shift h h' s ⟨x, fl, g, r⟩ ⟨{ x with countdown := c }, fl, g, r⟩
  | wins {x f fl g r p} : f.report? = some p → p.claim?.isSome →
      (h.session x.home).claim = none → (h'.session x.home).claim = p.claim? →
      (h'.session x.home).reports = (h.session x.home).reports ++ [p] →
      Shift h h' s ⟨x, f :: fl, g, r⟩ ⟨x, fl, g, r⟩
  | loses {x f fl g r} : f.report?.any (·.claim?.isSome) → (h.session x.home).isSettled →
      Shift h h' s ⟨x, f :: fl, g, r⟩ ⟨{ x with state := .cancelled }, fl, g, r⟩
  | reports {x fl g r} :
      (h'.session x.home).reports = (h.session x.home).reports ++ [.cancelled s] →
      Shift h h' s ⟨x, .reportingCancel s :: fl, g, r⟩ ⟨x, fl, g, r⟩
  | granted {x fl g r l} : x.isActive →
      Shift h h' s ⟨x, .subscribing s :: fl, g, r⟩ ⟨{ x with lease := some l }, fl, l :: g, r⟩
  | grantedLate {x fl g r l} : x.isActive = false →
      Shift h h' s ⟨x, .subscribing s :: fl, g, r⟩ ⟨x, fl, l :: g, l :: r⟩
  | declined {x fl g r e} : x.isActive →
      Shift h h' s ⟨x, .subscribing s :: fl, g, r⟩
        ⟨{ x with error := some e, state := .cancelled, countdown := x.countdown.cancel }, fl, g, r⟩
  | declinedLate {x fl g r e} : x.isActive = false →
      Shift h h' s ⟨x, .subscribing s :: fl, g, r⟩ ⟨{ x with error := some e }, fl, g, r⟩

section
variable {h a b : Hub} {s t : SubId} {i : SessionId}

/-! ### Calls -/

/-- A subscription whose record is out of the reach of an operation stays as it is. -/
theorem Shift.of_ite {c : Prop} [Decidable c] {v w : SubView} (k : c → Shift a b t v w) :
    Shift a b t v (if c then w else v) := by
  split
  · next hc => exact k hc
  · exact .idle

theorem subView_leaving (hs : s < h.subs.length) {st : SubState} {f : Frame}
    (hf : f.sub? = some s) :
    ((h.setState s st).finish s f).subView t =
      if t = s then
        { self := { (h.subView t).self with
            state := st, countdown := (h.subView t).self.countdown.cancel, lease := none }
          flight := f :: (h.subView t).flight
          granted := (h.subView t).granted
          returned := (h.subView t).self.lease.toList ++ (h.subView t).returned }
      else h.subView t := by
  rw [subView_finish (by simpa [setState] using hs), subView_setState hs, hf]
  by_cases hts : t = s
  · simp only [hts, ↓reduceIte]
  · have hst : ¬ s = t := fun e => hts e.symm
    simp only [hts, Option.some.injEq, hst, ↓reduceIte]

/-- The common way out of `active`. -/
theorem Shift.of_leaving {st : SubState} {f : Frame} (hs : s < h.subs.length)
    (ha : (h.sub s).isActive) (hl : (h.sub s).Leaves s st f) :
    Shift a b t (h.subView t) (((h.setState s st).finish s f).subView t) := by
  rw [subView_leaving hs (by cases hl <;> rfl)]
  apply Shift.of_ite
  rintro rfl
  exact .leaves ha hl rfl

theorem cancel_shift (hs : s < h.subs.length) :
    Shift a b t (h.subView t) ((h.cancel s).subView t) := by
  unfold cancel
  split
  · next ha => exact .of_leaving hs ha .cancelled
  · exact .idle

theorem deliver_shift (hs : s < h.subs.length) (e : Envelope) :
    Shift a b t (h.subView t) ((h.deliver s e).subView t) := by
  unfold deliver; dsimp only
  split
  · rw [subView_reply, subView_note_silent _ _ rfl rfl]; exact .idle
  · next hk =>
    split
    · next ha => exact .of_leaving hs ha (.fired (Classical.not_not.1 hk))
    · rw [subView_reply, subView_note_silent _ _ rfl rfl]; exact .idle

theorem ring_shift (hs : s < h.subs.length) (g : Nat) :
    Shift a b t (h.subView t) ((h.ring s g).subView t) := by
  unfold ring; dsimp only
  split
  · rw [subView_reply, subView_note_silent _ _ rfl rfl]; exact .idle
  · next c hc =>
    obtain ⟨harmed, hdue⟩ : (h.sub s).countdown.isArmed ∧ c.due = none := by
      unfold Countdown.ring? Countdown.isPending at hc
      split at hc
      · next hp => cases hc; exact ⟨(Bool.and_eq_true_iff.1 hp).1, rfl⟩
      · cases hc
    have hv := subView_onSub h s t hs fun sub => { sub with countdown := c }
    split
    · next ha =>
      rw [subView_leaving (by simpa using hs) rfl, hv]
      split
      · next hts =>
        subst hts
        have hd : (c.cancel).due = none := rfl
        exact .leaves ha (.timedOut harmed) hd
      · exact .idle
    · next ha =>
      rw [subView_reply, hv]
      apply Shift.of_ite
      rintro rfl
      exact .rings (by simpa using ha) hdue

theorem timeout_shift (hs : s < h.subs.length) {v : SubView} {k : Option HookId}
    (hv : h.subView t = if t = s then { v with self.timeoutHandler := k } else v)
    (hc : h.clock = a.clock) (ms : Nat) : Shift a b t v ((h.setTimeout s ms).subView t) := by
  unfold setTimeout; dsimp only
  generalize hh : (h.onSub s fun sub => { sub with timeout := some ms }) = h1
  have hlen : s < h1.subs.length := by rw [← hh]; simpa using hs
  have hc1 : h1.clock = a.clock := by rw [← hh]; exact hc
  have hv1 : h1.subView t = if t = s then
      { v with self.timeoutHandler := k, self.timeout := some ms } else v := by
    rw [← hh, subView_onSub _ _ _ hs, hv]
    split <;> rfl
  by_cases hts : t = s
  · subst hts
    rw [if_pos rfl] at hv1
    have harm : (h1.sub t).armed = v.self.armed := congrArg (·.self.armed) hv1
    rw [harm]
    by_cases hb : v.self.armed
    · rw [if_pos hb, subView_startCountdown hlen, hv1, hc1]
      by_cases ha : v.self.isActive
      · rw [if_pos ⟨rfl, ha⟩]; exact .rearmed hb ha
      · rw [if_neg fun k => ha k.2]; exact .timed (by simp [ha])
    · rw [if_neg hb, hv1]; exact .timed (by simp [hb])
  · rw [if_neg hts] at hv1
    split
    · rw [subView_startCountdown hlen, if_neg fun k => hts k.1, hv1]; exact .idle
    · rw [hv1]; exact .idle

/-! ### Answers of the transport -/

theorem grant_shift (hs : s < h.subs.length) {rest : List Frame}
    (hst : h.stack = .subscribing s :: rest) (l : LeaseId) :
    Shift a b t (h.subView t) ((h.pop.grant s l).subView t) := by
  have hlen : s < (h.pop.note (.granted s l)).subs.length := hs
  have hn := subView_note h.pop t (.granted s l)
  rw [subView_of_stack _ _ hst]
  by_cases hts : t = s
  · subst hts
    have hn' : (h.pop.note (.granted t l)).subView t =
        { h.pop.subView t with granted := l :: (h.pop.subView t).granted } := by
      rw [hn]; simp [Happening.granted?, Happening.returned?]
    rw [if_pos (show (Frame.subscribing t).sub? = some t from rfl)]
    cases ha : (h.pop.sub t).isActive
    · have hv : (h.pop.grant t l).subView t = { h.pop.subView t with
          granted := l :: (h.pop.subView t).granted
          returned := l :: (h.pop.subView t).returned } := by
        have : h.pop.grant t l = (h.pop.note (.granted t l)).giveBack t l :=
          if_neg (by rw [show (h.pop.note (.granted t l)).sub t = h.pop.sub t from rfl, ha]; simp)
        rw [this, giveBack, subView_push, if_neg (by simp [Frame.sub?]), subView_note, hn']
        simp [Happening.granted?, Happening.returned?]
      rw [hv]
      exact .grantedLate ha
    · have hv : (h.pop.grant t l).subView t = { h.pop.subView t with
          self.lease := some l
          granted := l :: (h.pop.subView t).granted } := by
        have : h.pop.grant t l =
            (h.pop.note (.granted t l)).onSub t fun sub => { sub with lease := some l } := if_pos ha
        rw [this, subView_onSub _ _ _ hlen, if_pos rfl, hn']
      rw [hv]
      exact .granted ha
  · have hts' : ¬ s = t := fun e => hts e.symm
    have hv : (h.pop.grant s l).subView t = h.pop.subView t := by
      unfold grant; dsimp only
      split
      · rw [subView_onSub _ _ _ hlen, hn, if_neg hts]
        simp [Happening.granted?, Happening.returned?, hts']
      · rw [giveBack, subView_push, if_neg (by simp [Frame.sub?]), subView_note, hn]
        simp [Happening.granted?, Happening.returned?, hts']
    rw [hv, if_neg (by simpa [Frame.sub?] using hts')]
    exact .idle

theorem decline_shift (hs : s < h.subs.length) {rest : List Frame}
    (hst : h.stack = .subscribing s :: rest) (e : SubscribeError) :
    Shift a b t (h.subView t) ((h.pop.decline s e).subView t) := by
  unfold decline; dsimp only
  generalize hx : Happening.ungranted s (h.pop.sub s).key (h.pop.sub s).kind e = x
  generalize hh : ((h.pop.note x).onSub s fun sub => { sub with error := some e }) = h1
  have hlen : s < h1.subs.length := by rw [← hh]; simpa using hs
  have hv1 : h1.subView t =
      if t = s then { h.pop.subView t with self.error := some e } else h.pop.subView t := by
    have hn : (h.pop.note x).subView t = h.pop.subView t := by
      rw [← hx]; exact subView_note_silent _ _ rfl rfl
    rw [← hh, subView_onSub _ _ _ (show s < (h.pop.note x).subs.length from hs), hn]
  rw [subView_of_stack _ _ hst]
  by_cases hts : t = s
  · subst hts
    rw [if_pos (show (Frame.subscribing t).sub? = some t from rfl)]
    rw [if_pos rfl] at hv1
    split
    · next ha =>
      rw [subView_disarm (by simpa [setState] using hlen), if_pos rfl, subView_setState hlen,
        if_pos rfl, hv1]
      exact .declined ha
    · next ha => rw [hv1]; exact .declinedLate (Bool.not_eq_true _ ▸ ha)
  · have hts' : ¬ s = t := fun e => hts e.symm
    rw [if_neg hts] at hv1
    rw [if_neg (by simpa [Frame.sub?] using hts')]
    split
    · rw [subView_disarm (by simpa [setState] using hlen), if_neg hts, subView_setState hlen,
        if_neg hts, hv1]
      exact .idle
    · rw [hv1]; exact .idle

end
end Hub
end Aftermath
