import Aftermath.Proofs.Gate.Effect

/-! The gate of a session. Whatever is done to the subscriptions that share it, and in whatever order,
the first of them that fires, times out or loses its connection decides the session and reports it, and
nothing else does. -/

namespace Aftermath

/-- The state of a subscription, if it is one in which only a claim leaves it. -/
def SubState.outcome? : SubState → Option SubState
  | .fired => some .fired
  | .timedOut => some .timedOut
  | .active | .cancelled => none

theorem Claim.outcome?_of_state? {c : Claim} {s : SubId} {st : SubState} (hc : c.state? s = some st) :
    st.outcome? = some st := by
  cases c <;> simp only [Claim.state?] at hc <;> try cases hc
  all_goals split at hc <;> cases hc; rfl

theorem Claim.state?_of_not_reported {c : Claim} (hc : c.isReported = false) (s : SubId) :
    c.state? s = none := by
  cases c <;> first | rfl | cases hc

theorem Claim.state?_eq_fired {c : Claim} {s : SubId} :
    c.state? s = some .fired ↔ ∃ e, c = .fired s e := by
  cases c <;> simp [Claim.state?]

theorem Claim.state?_eq_timedOut {c : Claim} {s : SubId} :
    c.state? s = some .timedOut ↔ c = .timedOut s := by
  cases c <;> simp [Claim.state?]

/-- A claim names one subscription at most. -/
theorem Claim.state?_unique {c : Claim} {s t : SubId} (hs : (c.state? s).isSome)
    (ht : (c.state? t).isSome) : s = t := by
  cases c <;> simp_all [Claim.state?]

theorem Session.mem_pending {x : Session} {r : Report} {c : Claim} (hc : r.claim? = some c) :
    r ∈ x.reports ↔ c ∈ x.pending := by
  rw [Session.pending, List.mem_filterMap]
  constructor
  · exact fun hr => ⟨r, hr, hc⟩
  · rintro ⟨q, hq, hqc⟩
    have hqr : q = r := by cases r <;> cases q <;> cases hc <;> cases hqc <;> rfl
    exact hqr ▸ hq

namespace Hub

/-- What holds of subscriptions that share the gate of a session: the claim that was reported is on its
way, and the subscription it names, no other, is in the state it says. -/
structure Gated (h : Hub) (sid : SessionId) : Prop where
  shares : Shares h sid
  pending : (h.session sid).pending = ((h.session sid).claim.filter Claim.isReported).toList
  outcome : ∀ s, (h.sub s).state.outcome? = (h.session sid).claim.bind (Claim.state? s)
  key : ∀ s e, (h.session sid).claim = some (.fired s e) → e.key = (h.sub s).key

section
variable {h a b : Hub} {sid : SessionId} {s t : SubId} {op : Operation} {ops : List Operation} {n : Nat}

/-! ### One operation -/

theorem Operation.effect (hk : Shares h sid) (op : Operation)
    (hop : ∀ s, op.sub? = some s → s < h.subs.length) :
    Effect h (op.done h sid) sid (op.decided h (op.done h sid) sid) := by
  cases op with
  | deliver s e => exact deliver_effect hk (hop s rfl) e
  | fail s e => exact fail_effect hk (hop s rfl) e
  | expire s => exact expire_effect hk (hop s rfl)
  | cancel s => exact cancel_effect hk (hop s rfl)
  | register s => exact register_effect hk (hop s rfl)
  | decline s e => exact decline_effect (hop s rfl) e
  | cancelAll => exact withdrawn_effect hk
  | release => exact released_effect hk

theorem Operation.shares_done (hk : Shares h sid) (op : Operation)
    (hop : ∀ s, op.sub? = some s → s < h.subs.length) : Shares (op.done h sid) sid := by
  rcases op.wiring_done h sid with hw | ⟨s, hs, hw⟩
  · exact hk.of_wiring hw
  · exact (hk.enrol (hop s hs)).of_wiring hw

/-- No operation makes a subscription or changes its key. -/
theorem Operation.subs_done (op : Operation) : (op.done h sid).wiring.1 = h.wiring.1 := by
  rcases op.wiring_done h sid with hw | ⟨s, -, hw⟩
  · rw [hw]
  · rw [hw]; rfl

/-- An operation that has returned is done. -/
theorem Operation.eq_done (hr : Returns h.stack (op.call h sid) a) : a = op.done h sid :=
  hr.unique (op.returns h sid)

/-- A subscription that has left `active` keeps its state. -/
theorem Effect.keeps {d : Bool} (he : Effect h a sid d) (hi : (h.sub s).isActive = false) :
    (a.sub s).state = (h.sub s).state := by
  cases he with
  | clears hst _ _ =>
    exact (hst s).resolve_right fun k => Bool.false_ne_true (hi.symm.trans k.1)
  | decides _ _ _ _ hst hact _ =>
    rw [hst]
    cases hc : Claim.state? s _ with
    | none => rfl
    | some st => exact absurd ((hact s (by rw [hc]; rfl)).symm.trans hi) nofun

theorem Effect.pending_length {d : Bool} (he : Effect h a sid d) :
    (a.session sid).pending.length = (h.session sid).pending.length + if d then 1 else 0 := by
  cases he with
  | clears _ _ hp => rw [hp]; rfl
  | decides _ _ _ hp => rw [hp, List.length_append]; rfl

/-- What the gate guarantees holds after every effect. -/
theorem Gated.effect {d : Bool} (hg : Gated h sid) (he : Effect h a sid d) (hs : Shares a sid)
    (hkey : ∀ t, (a.sub t).key = (h.sub t).key) : Gated a sid := by
  cases he with
  | clears hst hc hp =>
    -- a claim that is made without a report names no subscription
    have hbind : ∀ t, (a.session sid).claim.bind (Claim.state? t) =
        (h.session sid).claim.bind (Claim.state? t) := by
      intro t
      rcases hc with hc | ⟨hn, c, hc, hr⟩
      · rw [hc]
      · rw [hc, hn]; exact Claim.state?_of_not_reported hr t
    refine ⟨hs, ?_, fun t => ?_, fun s e hse => ?_⟩
    · rw [hp, hg.pending]
      rcases hc with hc | ⟨hn, c, hc, hr⟩
      · rw [hc]
      · rw [hc, hn, Option.filter_some, hr]; rfl
    · rw [hbind, ← hg.outcome]
      rcases hst t with ht | ⟨ha, ht⟩
      · rw [ht]
      · rw [ht, eq_of_beq ha]; rfl
    · rw [hkey]
      rcases hc with hc | ⟨-, c, hc, hr⟩
      · exact hg.key s e (hc ▸ hse)
      · cases hc.symm.trans hse; cases hr
  | @decides c hr hn hc hp hst hact hk =>
    have hnone : ∀ t, (h.sub t).state.outcome? = none := fun t => by rw [hg.outcome, hn]; rfl
    refine ⟨hs, ?_, fun t => ?_, fun s e hse => ?_⟩
    · rw [hp, hg.pending, hn, hc, Option.filter_some, hr]; rfl
    · rw [hst, hc, Option.bind_some]
      cases hct : c.state? t with
      | none => exact hnone t
      | some st => exact Claim.outcome?_of_state? hct
    · rw [hkey]
      exact hk s e (Option.some.inj (hc.symm.trans hse))

/-! ### Many operations -/

theorem Gated.performs (hg : Gated h sid) (hp : Performs sid h ops a n) :
    Gated a sid ∧ (a.session sid).pending.length = (h.session sid).pending.length + n := by
  induction hp with
  | nil => exact ⟨hg, rfl⟩
  | snoc _ hop hr ih =>
    obtain ⟨ha, hn⟩ := ih
    cases Operation.eq_done hr
    have he := Operation.effect ha.shares _ hop
    refine ⟨ha.effect he (Operation.shares_done ha.shares _ hop)
      fun t => congrArg Prod.snd (home_key_of_wiring (Operation.subs_done _) t), ?_⟩
    rw [he.pending_length, hn, Nat.add_assoc]

theorem Gated.keeps (hg : Gated h sid) (hp : Performs sid h ops a n)
    (hi : (h.sub s).isActive = false) : (a.sub s).state = (h.sub s).state := by
  induction hp with
  | nil => rfl
  | snoc hp hop hr ih =>
    cases Operation.eq_done hr
    have hst := ih
    rw [← hst]
    refine (Operation.effect (hg.performs hp).1.shares _ hop).keeps ?_
    rw [Subscription.isActive, hst]; exact hi

/-- Every operation can be performed at any time. -/
theorem Performs.exists_next (hp : Performs sid h ops a n)
    (hop : ∀ s, op.sub? = some s → s < a.subs.length) :
    ∃ b m, Performs sid h (ops ++ [op]) b m :=
  ⟨_, _, hp.snoc hop (op.returns a sid)⟩

/-- Subscriptions that share the gate of a session, with nothing done to them yet. -/
structure Fresh (h : Hub) (sid : SessionId) : Prop where
  shares : Shares h sid
  active : ∀ s < h.subs.length, (h.sub s).isActive
  undecided : (h.session sid).claim = none
  unreported : (h.session sid).reports = []

theorem Fresh.gated (hf : Fresh h sid) : Gated h sid where
  shares := hf.shares
  pending := by rw [Session.pending, hf.unreported, hf.undecided]; rfl
  outcome t := by
    rw [hf.undecided]
    by_cases ht : t < h.subs.length
    · rw [eq_of_beq (hf.active t ht)]; rfl
    · have hd : h.sub t = default := by simp [sub, Nat.le_of_not_lt ht]
      rw [hd]; rfl
  key s e he := by rw [hf.undecided] at he; cases he

/-- The gate of a session after so many resolutions that decided it. -/
structure Passed (h : Hub) (sid : SessionId) (n : Nat) : Prop where
  once : n ≤ 1
  reported : ((h.session sid).reports.countP fun r => r.claim?.isSome) = n
  sole : ∀ s t, (h.sub s).state.outcome?.isSome → (h.sub t).state.outcome?.isSome → s = t
  fired : ∀ s, (h.sub s).state = .fired ↔ ∃ e, .fired s e ∈ (h.session sid).reports
  timedOut : ∀ s, (h.sub s).state = .timedOut ↔ .timedOut s ∈ (h.session sid).reports
  key : ∀ s e, .fired s e ∈ (h.session sid).reports → e.key = (h.sub s).key

theorem Gated.mem_reports (hg : Gated h sid) {r : Report} {c : Claim} (hc : r.claim? = some c) :
    r ∈ (h.session sid).reports ↔ (h.session sid).claim = some c := by
  rw [Session.mem_pending hc, hg.pending, Option.mem_toList, Option.filter_eq_some_iff]
  exact ⟨And.left, fun he => ⟨he, Report.isReported_claim hc⟩⟩

theorem Gated.passed (hg : Gated h sid) : Passed h sid (h.session sid).pending.length where
  once := by
    rw [hg.pending]
    cases (h.session sid).claim.filter Claim.isReported <;> simp
  reported := List.length_filterMap_eq_countP.symm
  sole s t hs ht := by
    rw [hg.outcome] at hs ht
    cases hc : (h.session sid).claim with
    | none => rw [hc] at hs; cases hs
    | some c => rw [hc] at hs ht; exact Claim.state?_unique hs ht
  fired s := by
    have hst : (h.sub s).state = .fired ↔ (h.sub s).state.outcome? = some .fired := by
      cases (h.sub s).state <;> simp [SubState.outcome?]
    rw [hst, hg.outcome, Option.bind_eq_some_iff]
    simp only [Claim.state?_eq_fired, hg.mem_reports (r := .fired s _) rfl]
    exact ⟨fun ⟨_, hc, e, he⟩ => ⟨e, he ▸ hc⟩, fun ⟨e, he⟩ => ⟨_, he, e, rfl⟩⟩
  timedOut s := by
    have hst : (h.sub s).state = .timedOut ↔ (h.sub s).state.outcome? = some .timedOut := by
      cases (h.sub s).state <;> simp [SubState.outcome?]
    rw [hst, hg.outcome, Option.bind_eq_some_iff, hg.mem_reports (r := .timedOut s) rfl]
    simp only [Claim.state?_eq_timedOut]
    exact ⟨fun ⟨_, hc, he⟩ => he ▸ hc, fun hc => ⟨_, hc, rfl⟩⟩
  key s e hr := hg.key s e ((hg.mem_reports rfl).1 hr)

/-- The gate lets one resolution through. However the operations on subscriptions that share it are
mixed, one of them at most decides the session and is reported, the subscription it names is the only
one that has fired or timed out, and a subscription that has left `active` stays as it is. -/
theorem gate_admits_one (hf : Fresh h sid) (hp : Performs sid h ops a n) :
    Passed a sid n ∧
    (∀ {ops' : List Operation} {b : Hub} {m : Nat}, Performs sid a ops' b m →
      ∀ s, (a.sub s).isActive = false → (b.sub s).state = (a.sub s).state) ∧
    ∀ op : Operation, (∀ s, op.sub? = some s → s < a.subs.length) →
      ∃ b m, Performs sid h (ops ++ [op]) b m := by
  obtain ⟨hg, hn⟩ := hf.gated.performs hp
  have hz : (h.session sid).pending.length = 0 := by rw [Session.pending, hf.unreported]; rfl
  rw [hz, Nat.zero_add] at hn
  exact ⟨hn ▸ hg.passed, fun hp' s hi => hg.keeps hp' hi, fun op hop => hp.exists_next hop⟩

end

def pair : Hub :=
  { subs := [{ key := default, kind := .event, home := 0 },
      { key := default, kind := .rejection, home := 0 }]
    sessions := [{ members := [0, 1], holders := 2 }] }

/-- The first delivery passes the gate; the second finds it shut, and so does the countdown of the
subscription that lost. -/
theorem first_delivery_passes : Fresh pair 0 ∧ ∃ a, Performs 0 pair
      [.deliver 0 ⟨default, .blank⟩, .deliver 1 ⟨default, .blank⟩, .expire 1] a 1 ∧
    (a.sub 0).state = .fired ∧ (a.sub 1).state = .cancelled ∧ Passed a 0 1 := by
  have hf : Fresh pair 0 :=
    { shares := { exist := by decide, homes := by decide, members := by decide, nodup := by decide }
      active := by decide, undecided := rfl, unreported := rfl }
  have hp := ((Performs.nil : Performs 0 pair [] pair 0).snoc (by decide)
    (Operation.returns _ 0 (.deliver 0 ⟨default, .blank⟩))).snoc (by decide)
    (Operation.returns _ 0 (.deliver 1 ⟨default, .blank⟩)) |>.snoc (by decide)
    (Operation.returns _ 0 (.expire 1))
  exact ⟨hf, _, hp, by decide, by decide, (gate_admits_one hf hp).1⟩

end Hub
end Aftermath
