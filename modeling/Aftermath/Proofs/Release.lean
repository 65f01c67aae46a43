import Aftermath.Proofs.Closing
import Aftermath.Proofs.Flight

/-! Nothing survives a session. Above a session that is coming to its end lies a release that cancels
whatever is still active, so nothing is active when the session leaves; from then on it is silent and
its subscriptions are deaf. -/

namespace Aftermath

/-- A claim leaves at most one subscription fired or timed out. -/
theorem Claim.sub_of_state {c : Claim} {s t : SubId} (hs : (c.state? s).isSome)
    (ht : (c.state? t).isSome) : s = t := by
  cases c with
  | fired | timedOut =>
    simp only [Claim.state?, Option.isSome_ite] at hs ht
    exact hs.symm.trans ht
  | _ => cases hs

namespace Hub

/-- Whatever is still active in a session, a release above its frame will cancel. -/
structure Sweeping (h : Hub) (sid : SessionId) : Prop where
  settled : (h.session sid).isSettled
  sweep : ∃ above below, h.stack = above ++ .driving sid :: below ∧
    ∀ s ∈ (h.session sid).members, (h.sub s).isActive → s ∈ toCancel sid above

/-- A session is decided and nothing in it is active. -/
structure Spent (h : Hub) (sid : SessionId) : Prop where
  settled : (h.session sid).isSettled
  inactive : ∀ s ∈ (h.session sid).members, (h.sub s).isActive = false

/-! ### The sweep -/

section
variable {h h' : Hub} {sid : SessionId} {m : Move} {s : SubId}

/-- The frames above a frame that the top of the stack does not contain lie in the rest. -/
theorem split_rest {α : Type} {above below old rest : List α} {f : α} (hf : f ∉ old)
    (he : above ++ f :: below = old ++ rest) : ∃ mid, above = old ++ mid ∧ rest = mid ++ f :: below := by
  rcases List.append_eq_append_iff.1 he with ⟨l, hl, hr⟩ | ⟨l, hl, hr⟩
  · cases l with
    | nil => exact ⟨[], by simpa using hl.symm, by simpa using hr.symm⟩
    | cons g l =>
      obtain ⟨rfl, -⟩ := List.cons.inj hr
      exact absurd (by rw [hl]; simp) hf
  · exact ⟨l, hl, hr⟩

theorem isActive_before (ha : Reachable h) (hm : Moved h m h') (hs : s < h.subs.length)
    (hact : (h'.sub s).isActive) : (h.sub s).isActive := by
  cases hx : (h.sub s).isActive with
  | true => rfl
  | false =>
    exact absurd (((move_shift ha.wired hm s).inactive (Nat.ne_of_lt hs) hx).symm.trans hact) Bool.false_ne_true

theorem member_before (ha : Reachable h) (hm : Moved h m h')
    (hp : (h.session sid).phase ≠ .configuring) (hc : (h.session sid).isSettled)
    (hs : s ∈ (h'.session sid).members) (hact : (h'.sub s).isActive) :
    s ∈ (h.session sid).members ∧ (h.sub s).isActive := by
  rcases (move_turn ha.wired hm sid).members_old (ha.fits sid) hp hc s hs with hs | hn
  · exact ⟨hs, isActive_before ha hm (ha.wired.members sid s hs) hact⟩
  · exact absurd (hn.symm.trans hact) Bool.false_ne_true

theorem settled_move (ha : Reachable h) (hm : Moved h m h') (hc : (h.session sid).isSettled) :
    (h'.session sid).isSettled := by
  obtain ⟨c, hc⟩ := Option.isSome_iff_exists.1 hc
  exact Option.isSome_iff_exists.2 ⟨c, claim_move ha hm hc⟩

theorem Spent.move (ha : Reachable h) (hm : Moved h m h')
    (hp : (h.session sid).phase ≠ .configuring) (hs : Spent h sid) : Spent h' sid where
  settled := settled_move ha hm hs.settled
  inactive s hin := by
    cases hx : (h'.sub s).isActive with
    | false => rfl
    | true =>
      obtain ⟨hin, hact⟩ := member_before ha hm hp hs.settled hin hx
      exact absurd ((hs.inactive s hin).symm.trans hact) Bool.false_ne_true

/-- As long as the session's frame stays where it is, the release goes on above it. -/
theorem Sweeping.move (ha : Reachable h) (hm : Moved h m h')
    (hp : (h.session sid).phase ≠ .configuring) (hth : h'.thread sid = h.thread sid)
    (hs : Sweeping h sid) : Sweeping h' sid where
  settled := settled_move ha hm hs.settled
  sweep := by
    obtain ⟨old, new, rest, hr⟩ := move_restacks ha.wired hm
    obtain ⟨above, below, hst, hsw⟩ := hs.sweep
    have hno : .driving sid ∉ old := fun hin => hr.drives sid (List.mem_append_left _ hin) hth
    obtain ⟨mid, rfl, hrest⟩ := split_rest hno (hst.symm.trans hr.before)
    refine ⟨new ++ mid, below, by rw [hr.after, hrest, List.append_assoc], fun s hin hact => ?_⟩
    obtain ⟨hin, hbefore⟩ := member_before ha hm hp hs.settled hin hact
    have hsw := hsw s hin hbefore
    rw [toCancel, List.flatMap_append, List.mem_append] at hsw ⊢
    exact hsw.imp (fun hold => hr.sweeps sid s hold hact) id

/-- When the session's frame leaves the stack, nothing is left to cancel. -/
theorem Sweeping.spent (ha : Reachable h) (hm : Moved h m h')
    (hth : h'.thread sid = []) (hs : Sweeping h sid) : Spent h sid where
  settled := hs.settled
  inactive := by
    obtain ⟨old, new, rest, hr⟩ := move_restacks ha.wired hm
    obtain ⟨above, below, hst, hsw⟩ := hs.sweep
    have hgone : .driving sid ∉ rest := by
      intro hin
      have : .driving sid ∈ h'.thread sid := by
        unfold thread
        rw [hr.after]
        exact List.mem_filter.2 ⟨List.mem_append_right _ hin, by simp [Frame.session?]⟩
      rw [hth] at this
      cases this
    have hold : .driving sid ∈ old := by
      have hin : .driving sid ∈ old ++ rest := by rw [← hr.before, hst]; simp
      exact (List.mem_append.1 hin).resolve_right hgone
    -- All that lay above the frame was taken off with it, and there was no release in it.
    obtain ⟨l, rfl⟩ : ∃ l, old = above ++ l := by
      rcases List.append_eq_append_iff.1 (hst.symm.trans hr.before) with ⟨l, hl, -⟩ | ⟨l, -, hrest⟩
      · exact ⟨l, hl⟩
      · exact absurd (by rw [hrest]; simp) hgone
    have hnone := hr.clear sid hold
    rw [toCancel, List.flatMap_append, List.append_eq_nil_iff] at hnone
    intro s hin
    cases hx : (h.sub s).isActive with
    | false => rfl
    | true =>
      have hs := hsw s hin hx
      rw [toCancel, hnone.1] at hs
      cases hs

theorem Releases.sweeping {x : Session} (hr : h.Releases sid x)
    (hm : (h.session sid).members = x.members) (hs : (h.session sid).isSettled) :
    Sweeping h sid where
  settled := hs
  sweep := by
    obtain ⟨l, hst⟩ := hr
    exact ⟨[.releasing sid x.members 0], l, hst, fun s hin _ => by
      rw [hm] at hin; simpa [toCancel, Frame.toCancel] using hin⟩

/-- Whatever is active in a session that closes is about to be cancelled. -/
theorem Reachable.sweeping (hr : Reachable h) (hp : (h.session sid).phase.isClosing) :
    Sweeping h sid := by
  induction hr using Reachable.induct with
  | init settings => cases hp
  | move a b m ha hm ih =>
    have hm := moved_of_move? hm
    have ht := move_turn ha.wired hm sid
    cases hx : (a.session sid).phase.isClosing with
    | false =>
      obtain ⟨hrel, hmem, hs⟩ := ht.closing hx hp
      exact hrel.sweeping hmem hs
    | true =>
      have hne := Phase.not_configuring_of_begun (Phase.isBegun_of_closing hx)
      rcases ht.of_closing (ha.fits sid) hx with ⟨-, hth⟩ | ⟨ho, -⟩
      · exact (ih hx).move ha hm hne hth
      · exact absurd ((Phase.not_closing_of_over ho).symm.trans hp) Bool.false_ne_true

/-- What a session leaves behind: it has begun, and when it is over it is spent. -/
structure Outlived (h : Hub) (sid : SessionId) : Prop where
  begun : (h.session sid).phase.isBegun
  spent : (h.session sid).phase.isOver → Spent h sid

theorem Outlived.move (ha : Reachable h) (hm : Moved h m h') (ho : Outlived h sid) :
    Outlived h' sid where
  begun := ((move_turn ha.wired hm sid).begun (ha.fits sid) ho.begun).1
  spent hover := by
    have ht := move_turn ha.wired hm sid
    have hne := Phase.not_configuring_of_begun ho.begun
    rcases (ht.begun (ha.fits sid) ho.begun).2 hover with hx | hx
    · exact (ho.spent hx).move ha hm hne
    · rcases ht.of_closing (ha.fits sid) hx with ⟨hp, -⟩ | ⟨-, hth⟩
      · have hn := Phase.not_closing_of_over hover
        rw [show (h'.session sid).phase = (h.session sid).phase from hp] at hn
        exact absurd (hn.symm.trans hx) Bool.false_ne_true
      · exact ((ha.sweeping hx).spent ha hm hth).move ha hm hne

theorem Outlived.later (hr : Reachable h) (hl : Later h h') (ho : Outlived h sid) :
    Outlived h' sid := by
  induction hl with
  | refl => exact ho
  | move hl hm ih => exact ih.move (hr.later hl) (moved_of_move? hm)

/-- A session that is over stays over, and nothing more is heard of it. -/
theorem Reachable.silent (hr : Reachable h) (hl : Later h h') (ho : (h.session sid).phase.isOver) :
    (h'.session sid).phase = (h.session sid).phase ∧ h'.beats sid = h.beats sid := by
  induction hl with
  | refl => exact ⟨rfl, rfl⟩
  | @move a b m hl hm ih =>
    obtain ⟨hp, hb⟩ := ih
    have ha := hr.later hl
    obtain ⟨hp', hb'⟩ := (move_turn ha.wired (moved_of_move? hm) sid).over (ha.fits sid)
      (by rw [view_self, hp]; exact ho)
    exact ⟨hp'.trans hp, hb'.trans hb⟩

end

/-! ### What is left of a subscription -/

/-- A subscription is left with nothing: no countdown, no lease that was not given back, and nobody
who calls on it gets through. -/
structure Deaf (h : Hub) (s : SubId) : Prop where
  inactive : (h.sub s).isActive = false
  countdown : (h.sub s).countdown.due = none
  leases : h.granted s = h.returned s ∧ (h.granted s).length ≤ 1
  deliver : ∀ e, ∃ n, h.deliver s e = (h.note n).reply (.bool false)
  fail : ∀ e, h.fail s e = h.reply (.bool false)
  cancel : h.cancel s = h.reply (.bool false)

structure Won (h : Hub) (sid : SessionId) (s : SubId) : Prop where
  own : (h.sub s).home = sid
  state : (h.sub s).state = .fired ∨ (h.sub s).state = .timedOut
  rests : ¬ InFlight h s

section
variable {h h' : Hub} {sid : SessionId} {m : Move} {s t : SubId}

theorem Reachable.deaf (hr : Reachable h) (hs : (h.sub s).isActive = false) : Deaf h s where
  inactive := hs
  countdown := (hr.kept s).due hs
  leases := by
    have hk := hr.kept s
    have hl : h.granted s = _ := hk.leases
    have ho := hk.once
    rw [show (h.subView s).self.lease = none from hk.lease hs] at hl
    exact ⟨hl, by simp only [subView] at ho; omega⟩
  deliver e := by
    unfold deliver; dsimp only
    split
    · exact ⟨_, rfl⟩
    · rw [if_neg (by rw [hs]; exact Bool.false_ne_true)]; exact ⟨_, rfl⟩
  fail e := by
    unfold fail; dsimp only
    rw [if_neg (by rw [hs]; exact Bool.false_ne_true)]
  cancel := by
    unfold cancel
    rw [if_neg (by rw [hs]; exact Bool.false_ne_true)]

theorem Won.claim (hr : Reachable h) (hd : Won h sid s) :
    ∃ c, (h.session sid).claim = some c ∧ (c.state? s).isSome := by
  have hst := hd.state
  rcases hr.claims hst rfl with ⟨f, hf, hfs⟩ | ⟨c, hc, hcs⟩
  · exact absurd (inFlight_iff.2 ⟨f, hf, by cases f <;> first | rfl | cases hfs⟩) hd.rests
  · rw [hd.own] at hc
    exact ⟨c, hc, by rw [hcs]; rfl⟩

/-- Only one subscription of a session decides it. -/
theorem Won.unique (hr : Reachable h) (hs : Won h sid s) (ht : Won h sid t) : s = t := by
  obtain ⟨c, hc, hcs⟩ := hs.claim hr
  obtain ⟨d, hd, hdt⟩ := ht.claim hr
  obtain rfl : c = d := Option.some.inj (hc.symm.trans hd)
  exact Claim.sub_of_state hcs hdt

theorem outlived_of_underWay (hu : (h.session sid).isUnderWay) : Outlived h sid := by
  unfold Session.isUnderWay at hu
  constructor
  · unfold Phase.isBegun
    split at hu <;> simp_all
  · intro ho
    unfold Phase.isOver at ho
    split at hu <;> simp_all

/-- Nothing survives a session. Once a session that was under way is over, by whatever way it has
come to its end, all its members are deaf, at most one subscription of its own has decided it, and
however long one waits nothing more is heard of it. -/
theorem nothing_survives_session (hr : Reachable h) (hu : (h.session sid).isUnderWay)
    (hl : Later h h') (ho : (h'.session sid).isOver) {k : Hub} (hk : Later h' k) :
    (∀ s ∈ (k.session sid).members, Deaf k s) ∧
    (∀ s t, Won k sid s → Won k sid t → s = t) ∧
    (k.session sid).isOver ∧ k.beats sid = h'.beats sid := by
  rw [Session.isOver_eq] at ho ⊢
  have hrk := (hr.later hl).later hk
  obtain ⟨hp, hb⟩ := (hr.later hl).silent hk ho
  have hover : (k.session sid).phase.isOver := by rw [hp]; exact ho
  have hspent := (outlived_of_underWay hu).later hr (hl.trans hk)
  refine ⟨fun s hs => hrk.deaf ((hspent.spent hover).inactive s hs), ?_, hover, hb⟩
  exact fun s t hs ht => hs.unique hrk ht

end

theorem delivered_session_survived_by_nothing : ∃ h h' k, Reachable h ∧ Later h h' ∧ Later h' k ∧
    (k.session 0).members = [0] ∧ (∀ s ∈ (k.session 0).members, Deaf k s) ∧
    (∀ s t, Won k 0 s → Won k 0 t → s = t) ∧ (k.session 0).isOver ∧ k.beats 0 = h'.beats 0 := by
  obtain ⟨h, hr, hu, hrun⟩ := Reachable.exists_of_run {} (oneWaits 0 .event)
    (fun h => (h.session 0).isUnderWay ∧ (h.run? (oneArrives 0)).any fun h' =>
      (h'.session 0).isOver ∧ (h'.run? [.deliver 0 ⟨default, .blank⟩]).any fun k =>
        (k.session 0).members = [0]) (by decide)
  obtain ⟨h', hl, ho, hrun⟩ := Later.exists_of_run hrun
  obtain ⟨k, hk, hm⟩ := Later.exists_of_run hrun
  exact ⟨h, h', k, hr, hl, hk, hm, nothing_survives_session hr hu hl ho hk⟩

/-- A subscription that has decided its own session joins another one, whose own subscription then
decides it. -/
def anotherJoins : List Move :=
  [.register 1 0, .deliver 1 ⟨default, .blank⟩, .unsubscribed, .step, .run 1] ++
    List.replicate 11 .step

/-- Among those that have joined it a session may be left with two that have fired. -/
theorem two_may_have_fired : ¬ ∀ (h h' : Hub) (sid : SessionId), Reachable h →
    (h.session sid).isUnderWay → Later h h' → (h'.session sid).isOver →
    ∀ s ∈ (h'.session sid).members, ∀ t ∈ (h'.session sid).members,
      (h'.sub s).state = .fired ∨ (h'.sub s).state = .timedOut →
      (h'.sub t).state = .fired ∨ (h'.sub t).state = .timedOut → s = t := by
  intro hall
  obtain ⟨h, hr, hu, hrun⟩ := Reachable.exists_of_run {}
    (oneWaits 0 .event ++ oneArrives 0 ++ oneWaits 1 .event)
    (fun h => (h.session 1).isUnderWay ∧ (h.run? anotherJoins).any fun h' =>
      (h'.session 1).isOver ∧ (h'.session 1).members = [1, 0] ∧
        (h'.sub 0).state = .fired ∧ (h'.sub 1).state = .fired) (by decide)
  obtain ⟨h', hl, ho, hm, h0, h1⟩ := Later.exists_of_run hrun
  have := hall h h' 1 hr hu hl ho 0 (by rw [hm]; simp) 1 (by rw [hm]; simp) (.inl h0) (.inl h1)
  cases this

end Hub
end Aftermath
