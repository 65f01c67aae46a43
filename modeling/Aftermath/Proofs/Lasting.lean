import Aftermath.Proofs.Fits
import Aftermath.Proofs.Kept

/-! What lasts. A claim is never taken back, what has been heard of a session stays heard, its hooks
are fixed once it is configured, and the transport's answer to a subscription is final. -/

namespace Aftermath.Hub

section
variable {h h' : Hub} {sid : SessionId} {x y : View} {m : Move}

theorem settled_claim {x : Session} {c d : Claim} (hc : x.claim = some c) :
    (x.settled d).claim = some c := by
  simp [Session.settled, hc]

theorem settled_claim_ne {x : Session} {c : Claim} : (x.settled c).claim ≠ none :=
  Option.isSome_iff_ne_none.1 (x.isSettled_settled c)

theorem Drives.claim (hd : Drives h h' sid x y) {c : Claim} (hc : x.self.claim = some c) :
    y.self.claim = some c := by
  cases hd
  case fails hn _ | deserted hn _ => exact absurd (hn.symm.trans hc) nofun
  case resolves | closes => exact settled_claim hc
  all_goals exact hc

/-- A claim is never taken back. -/
theorem Turn.claim (ht : Turn h h' sid x y) {c : Claim} (hc : x.self.claim = some c) :
    y.self.claim = some c := by
  cases ht
  case opens => cases hc
  case decides hn | refused hn => exact absurd (hn.symm.trans hc) nofun
  case withdrawn | aborts | drops | breaks => exact settled_claim hc
  case drives hd => exact hd.claim hc
  all_goals exact hc

theorem Turn.beats (ht : Turn h h' sid x y) : x.beats <+: y.beats := by
  cases ht
  case drives hd => cases hd <;> first | exact List.prefix_rfl | exact List.prefix_append _ _
  all_goals first | exact List.prefix_rfl | exact List.prefix_append _ _

/-- Hooks are added only while a session is configured. -/
theorem Turn.hooks_eq (ht : Turn h h' sid x y)
    (hf : Fits sid x.self.phase x.self.running x.thread) (hp : x.self.phase ≠ .configuring) :
    y.self.hooks = x.self.hooks := by
  cases ht
  case hooks => exact absurd hf.of_configuring.1 hp
  case drives hd => cases hd <;> rfl
  all_goals rfl

/-- A cancellation is forgotten only when a session is opened. -/
theorem Turn.cancelled (ht : Turn h h' sid x y) (hp : x.self.phase ≠ .unopened)
    (hc : x.self.cancelled) : y.self.cancelled := by
  cases ht
  case opens => cases hc
  case prepares hu _ => exact absurd hu hp
  case revoked | withdrawn => rfl
  case drives hd => cases hd <;> exact hc
  all_goals exact hc

/-- The answer of the transport is final. -/
theorem Shift.error {s : SubId} {v w : SubView} (hs : Shift h h' s v w) (hk : Kept s v)
    {e : SubscribeError} (he : v.self.error = some e) : w.self.error = some e := by
  have ho := hk.once
  have hn : ∀ {fl : List Frame}, v.flight ≠ .subscribing s :: fl := by
    intro fl hfl
    rw [hfl, he] at ho
    simp only [List.count_cons_self, Option.toList_some, List.length_singleton] at ho
    omega
  cases hs
  case born | bornLate => cases he
  case declined | declinedLate => exact absurd rfl hn
  all_goals exact he

/-- A subscription that has ended cancelled stays so. -/
theorem Shift.stays_cancelled {s : SubId} {v w : SubView} (hs : Shift h h' s v w)
    (hne : s ≠ h.subs.length) (hv : v.self.state = .cancelled) : w.self.state = .cancelled := by
  cases hs
  case born he _ _ _ => exact absurd he hne
  case leaves hx _ _ =>
    rw [Subscription.isActive, show Subscription.state _ = _ from hv] at hx
    cases hx
  case bornLate | loses | declined => rfl
  all_goals exact hv

end

section
variable {h h' : Hub} {sid : SessionId} {m : Move} {s : SubId}

theorem claim_move (ha : Reachable h) (hm : Moved h m h') {c : Claim}
    (hc : (h.session sid).claim = some c) : (h'.session sid).claim = some c :=
  (move_turn ha.wired hm sid).claim hc

theorem beats_move (ha : Reachable h) (hm : Moved h m h') (sid : SessionId) :
    h.beats sid <+: h'.beats sid :=
  (move_turn ha.wired hm sid).beats

theorem Reachable.beats_last (hr : Reachable h) (hl : Later h h') (sid : SessionId) :
    h.beats sid <+: h'.beats sid := by
  induction hl with
  | refl => exact List.prefix_rfl
  | move hl hm ih => exact ih.trans (beats_move (hr.later hl) (moved_of_move? hm) sid)

theorem members_move (ha : Reachable h) (hm : Moved h m h') (hs : s ∈ (h.session sid).members) :
    s ∈ (h'.session sid).members :=
  (move_turn ha.wired hm sid).members_mono s hs

theorem members_before (ha : Reachable h) (hm : Moved h m h') (hn : (h'.session sid).members = []) :
    (h.session sid).members = [] :=
  List.eq_nil_iff_forall_not_mem.2 fun _ hs => List.ne_nil_of_mem (members_move ha hm hs) hn

theorem hooks_move (ha : Reachable h) (hm : Moved h m h')
    (hp : (h.session sid).phase ≠ .configuring) :
    (h'.session sid).hooks = (h.session sid).hooks :=
  (move_turn ha.wired hm sid).hooks_eq (ha.fits sid) hp

theorem cancelled_move (ha : Reachable h) (hm : Moved h m h')
    (hp : (h.session sid).phase ≠ .unopened) (hc : (h.session sid).cancelled) :
    (h'.session sid).cancelled :=
  (move_turn ha.wired hm sid).cancelled hp hc

theorem error_move (ha : Reachable h) (hm : Moved h m h') {e : SubscribeError}
    (he : (h.sub s).error = some e) : (h'.sub s).error = some e :=
  (move_shift ha.wired hm s).error (ha.kept s) he

theorem sub_cancelled_move (ha : Reachable h) (hm : Moved h m h') (hs : s < h.subs.length)
    (hc : (h.sub s).state = .cancelled) : (h'.sub s).state = .cancelled :=
  (move_shift ha.wired hm s).stays_cancelled (Nat.ne_of_lt hs) hc

theorem Reachable.home_lasts (hr : Reachable h) (hl : Later h h') (hs : s < h.subs.length) :
    s < h'.subs.length ∧ (h'.sub s).home = (h.sub s).home := by
  induction hl with
  | refl => exact ⟨hs, rfl⟩
  | move hl hm ih =>
    have hm := moved_of_move? hm
    exact ⟨Nat.lt_of_lt_of_le ih.1 (subs_length_le hm),
      (sub_fixed (hr.later hl).wired hm ih.1).1.trans ih.2⟩

theorem Reachable.cancelled_lasts (hr : Reachable h) (hl : Later h h') (hs : s < h.subs.length)
    (hc : (h.sub s).state = .cancelled) : (h'.sub s).state = .cancelled := by
  induction hl with
  | refl => exact hc
  | move hl hm ih =>
    exact sub_cancelled_move (hr.later hl) (moved_of_move? hm) (hr.home_lasts hl hs).1 ih

/-- Only a session that is being configured gets new subscriptions of its own. -/
theorem own_move (ha : Reachable h) (hm : Moved h m h')
    (hp : (h.session sid).phase ≠ .configuring) (hs : s < h'.subs.length)
    (hh : (h'.sub s).home = sid) : s < h.subs.length ∧ (h.sub s).home = sid := by
  rcases old_or_new hm hs with hs | ⟨rfl, i, rest, key, kind, hst, rfl⟩
  · exact ⟨hs, (sub_fixed ha.wired hm hs).1.symm.trans hh⟩
  · rw [home_subscribe] at hh
    subst hh
    have hf := ha.fits i
    rw [show h.thread i = _ from congrArg View.thread (view_configuring hst)] at hf
    exact absurd hf.of_configuring.1 hp

end
end Aftermath.Hub
