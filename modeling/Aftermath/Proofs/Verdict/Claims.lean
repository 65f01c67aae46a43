import Aftermath.Proofs.Lasting

/-! Claims and the endings that follow from them. Whoever has claimed a session belongs to it, and up
to the await a session holds the report of the claim. -/

namespace Aftermath

/-- A claim that is made together with a report. -/
def Claim.isReported : Claim → Bool
  | .fired _ _ | .timedOut _ | .lost _ => true
  | _ => false

theorem Report.isReported_claim {r : Report} {c : Claim} (hc : r.claim? = some c) :
    c.isReported := by
  cases r <;> cases hc <;> rfl

/-- A hook failed or panicked. -/
def Ending.isBroken : Ending → Bool
  | .failed (.hook _) | .panicked _ => true
  | _ => false

namespace Hub

/-- The ending that follows from the claim that decided a session. -/
inductive Dictates (h : Hub) (sid : SessionId) : Claim → Ending → Prop where
  | event {s : SubId} {e : Envelope} : s ∈ (h.session sid).members → (h.sub s).home = sid →
      (h.sub s).kind = .event → e.key = (h.sub s).key →
      Dictates h sid (.fired s e) (.resolved (.positive (some (h.sub s).key)))
  | rejection {s : SubId} {e : Envelope} : s ∈ (h.session sid).members → (h.sub s).home = sid →
      (h.sub s).kind = .rejection → e.key = (h.sub s).key →
      Dictates h sid (.fired s e) (.resolved (.negative (.rejected (h.sub s).key)))
  | expiry {s : SubId} : s ∈ (h.session sid).members → (h.sub s).home = sid →
      Dictates h sid (.timedOut s) (.resolved (.negative (.timedOut (h.sub s).key)))
  | lost {e : NetworkError} : (h.session sid).hooks.networkError ≠ [] →
      Dictates h sid (.lost e) (.resolved (.errored (.network e)))
  | lostUnheard {e : NetworkError} : (h.session sid).hooks.networkError = [] →
      Dictates h sid (.lost e) (.failed (.unhandled .network e.text))
  | refused {e : PostError} : ((h.session sid).hooks.forError e).1 ≠ [] →
      Dictates h sid (.refused e) (.resolved (.errored e))
  | refusedUnheard {e : PostError} : ((h.session sid).hooks.forError e).1 = [] →
      Dictates h sid (.refused e) (.failed (.unhandled e.category e.text))
  | unready : Dictates h sid .unready (.resolved (.negative .cancelled))
  | unsubscribed {s : SubId} {e : SubscribeError} : s ∈ (h.session sid).members →
      (h.sub s).error = some e → Dictates h sid .unready (.resolved (.negative (.subscribeFailed e)))
  | deserted : Dictates h sid .deserted (.resolved (.negative .cancelled))

/-- The endings that do not follow from the claim. -/
inductive Escapes (h : Hub) (sid : SessionId) : Claim → Ending → Prop where
  /-- The post failed after the session was decided, and no hook hears of such failures. -/
  | unheard {c : Claim} {e : PostError} : c.isReported → .refused e ∈ h.beats sid →
      ((h.session sid).hooks.forError e).1 = [] →
      Escapes h sid c (.failed (.unhandled e.category e.text))
  /-- The command was acknowledged and there was nothing to wait for. -/
  | unawaited : .acknowledged ∈ h.beats sid → (∀ s < h.subs.length, (h.sub s).home ≠ sid) →
      Escapes h sid .ended (.resolved (.positive none))

/-- What is known of a session whose ending is certain. -/
def Settles (h : Hub) (sid : SessionId) (e : Ending) : Prop :=
  (h.session sid).cancelled ∨ e.isBroken ∨
    ∃ c, (h.session sid).claim = some c ∧ (Dictates h sid c e ∨ Escapes h sid c e)

end Hub

namespace Session

/-- The claims whose reports have not been taken yet. -/
def pending (x : Session) : List Claim := x.reports.filterMap Report.claim?

/-- Nobody has acted on the claim yet: its report is there, unless the session was cancelled. -/
structure Open (x : Session) : Prop where
  pending : x.pending = (x.claim.filter Claim.isReported).toList
  claim : ∀ c, x.claim = some c → c.isReported ∨ c = .cancelled ∧ x.cancelled

section
variable {x y : Session} {r : Report} {c : Claim} {rs : List Report}

theorem Open.of_eq (ho : x.Open) (hr : y.reports = x.reports) (hc : y.claim = x.claim)
    (hk : x.cancelled → y.cancelled) : y.Open where
  pending := by
    unfold Session.pending
    rw [hr, hc]; exact ho.pending
  claim c hy := (ho.claim c (hc ▸ hy)).imp id fun h => ⟨h.1, hk h.2⟩

theorem Open.decides (ho : x.Open) (hn : x.claim = none) (hr : r.claim? = some c) :
    ({ x with claim := some c, reports := x.reports ++ [r] } : Session).Open where
  pending := by
    have hd : x.reports.filterMap Report.claim? = [] := by
      have := ho.pending
      rw [hn] at this; exact this
    simp [Session.pending, List.filterMap_append, hd, hr, Option.filter_some,
      Report.isReported_claim hr]
  claim d hd := by
    cases hd
    exact .inl (Report.isReported_claim hr)

theorem Open.hears (ho : x.Open) (s : SubId) :
    ({ x with reports := x.reports ++ [.cancelled s] } : Session).Open where
  pending := by
    rw [← ho.pending]
    simp [Session.pending, List.filterMap_append, Report.claim?]
  claim := ho.claim

theorem Open.withdrawn (ho : x.Open) :
    (({ x with cancelled := true } : Session).settled .cancelled).Open := by
  cases hc : x.claim with
  | none =>
    have hd : x.reports.filterMap Report.claim? = [] := by
      have := ho.pending
      rw [hc] at this; exact this
    refine ⟨?_, fun c h => .inr ⟨?_, rfl⟩⟩
    · show x.reports.filterMap Report.claim? = _
      rw [hd, Session.settled]
      simp [Option.filter_some, Claim.isReported]
    · simpa [Session.settled, hc, eq_comm] using h
  | some c =>
    refine ho.of_eq rfl ?_ fun _ => rfl
    simp [Session.settled, hc]

theorem Open.dismisses {s : SubId} (ho : x.Open) (hr : x.reports = .cancelled s :: rs) :
    ({ x with reports := rs } : Session).Open where
  pending := by
    rw [← ho.pending, Session.pending, Session.pending, hr]; rfl
  claim := ho.claim

/-- The first report that decides carries the claim. -/
theorem Open.resolves (ho : x.Open) (hr : x.reports = r :: rs) (hs : r.claim?.isSome) :
    x.claim = r.claim? := by
  obtain ⟨c, hc⟩ := Option.isSome_iff_exists.1 hs
  have hd := ho.pending
  simp only [Session.pending, hr, List.filterMap_cons, hc] at hd
  cases hx : x.claim with
  | none => rw [hx] at hd; cases hd
  | some d =>
    rw [hx] at hd
    simp only [Option.filter_some] at hd
    split at hd
    · rw [Option.toList_some] at hd
      rw [hc, (List.cons.inj hd).1]
    · cases hd

end
end Session

namespace Hub

/-- Whoever has decided a session belongs to it. -/
structure Backed (h : Hub) (sid : SessionId) : Prop where
  fired : ∀ s e, (h.session sid).claim = some (.fired s e) →
    s ∈ (h.session sid).members ∧ (h.sub s).home = sid ∧ e.key = (h.sub s).key
  timedOut : ∀ s, (h.session sid).claim = some (.timedOut s) →
    s ∈ (h.session sid).members ∧ (h.sub s).home = sid
  lost : ∀ e, (h.session sid).claim = some (.lost e) → (h.session sid).members ≠ []

/-! ### What is known stays known -/

section
variable {h h' : Hub} {sid : SessionId} {m : Move} {c : Claim} {e : Ending}

theorem Dictates.move (ha : Reachable h) (hm : Moved h m h')
    (hp : (h.session sid).phase ≠ .configuring) (hd : Dictates h sid c e) :
    Dictates h' sid c e := by
  have hk := hooks_move ha hm hp
  have hf : ∀ {s}, s ∈ (h.session sid).members → (h'.sub s).home = (h.sub s).home ∧
      (h'.sub s).key = (h.sub s).key ∧ (h'.sub s).kind = (h.sub s).kind := fun hs =>
    sub_fixed ha.wired hm (ha.wired.members sid _ hs)
  cases hd with
  | event hs hh hkind hkey =>
    rw [← (hf hs).2.1]
    exact .event (members_move ha hm hs) ((hf hs).1.trans hh) ((hf hs).2.2.trans hkind)
      (hkey.trans (hf hs).2.1.symm)
  | rejection hs hh hkind hkey =>
    rw [← (hf hs).2.1]
    exact .rejection (members_move ha hm hs) ((hf hs).1.trans hh) ((hf hs).2.2.trans hkind)
      (hkey.trans (hf hs).2.1.symm)
  | expiry hs hh =>
    rw [← (hf hs).2.1]
    exact .expiry (members_move ha hm hs) ((hf hs).1.trans hh)
  | lost hn => exact .lost (by rw [hk]; exact hn)
  | lostUnheard hn => exact .lostUnheard (by rw [hk]; exact hn)
  | refused hn => exact .refused (by rw [hk]; exact hn)
  | refusedUnheard hn => exact .refusedUnheard (by rw [hk]; exact hn)
  | unready => exact .unready
  | unsubscribed hs he => exact .unsubscribed (members_move ha hm hs) (error_move ha hm he)
  | deserted => exact .deserted

theorem Escapes.move (ha : Reachable h) (hm : Moved h m h')
    (hp : (h.session sid).phase ≠ .configuring) (he : Escapes h sid c e) : Escapes h' sid c e := by
  cases he with
  | unheard hc hb hn =>
    exact .unheard hc ((beats_move ha hm sid).subset hb) (by rw [hooks_move ha hm hp]; exact hn)
  | unawaited hb hn =>
    refine .unawaited ((beats_move ha hm sid).subset hb) fun s hs hh => ?_
    obtain ⟨hs, hh⟩ := own_move ha hm hp hs hh
    exact hn s hs hh

theorem Settles.move (ha : Reachable h) (hm : Moved h m h')
    (hp : (h.session sid).phase ≠ .configuring) (hu : (h.session sid).phase ≠ .unopened)
    (hs : Settles h sid e) : Settles h' sid e := by
  rcases hs with hc | hb | ⟨c, hc, hd⟩
  · exact .inl (cancelled_move ha hm hu hc)
  · exact .inr (.inl hb)
  · refine .inr (.inr ⟨c, claim_move ha hm hc, ?_⟩)
    exact hd.imp (Dictates.move ha hm hp) (Escapes.move ha hm hp)

end

/-! ### Claims and those who make them -/

section
variable {h h' : Hub} {sid : SessionId} {m : Move} {c d : Claim} {x y : View}

theorem claim_of_settled_ne {x : Session} (hc : (x.settled d).claim = some c) (hd : d ≠ c) :
    x.claim = some c := by
  rcases Option.or_eq_some_iff.1 hc with hx | ⟨-, hx⟩
  · exact hx
  · exact absurd (Option.some.inj hx) hd

theorem claim_of_settled {x : Session} (hc : (x.settled d).claim = some c) (hd : d.isReported = false)
    (hr : c.isReported) : x.claim = some c :=
  claim_of_settled_ne hc fun he => Bool.false_ne_true (hd.symm.trans (he ▸ hr))

/-- A claim with a report was there before the move, or a subscription has just made it. -/
theorem Turn.claim_cases (ht : Turn h h' sid x y) (hc : y.self.claim = some c)
    (hr : c.isReported) : x.self.claim = some c ∨ ∃ r, Decides h sid r ∧ r.claim? = some c := by
  cases ht
  case opens => cases hc
  case decides hd hrc _ =>
    cases hc
    exact .inr ⟨_, hd, hrc⟩
  case withdrawn | aborts | drops | breaks => exact .inl (claim_of_settled hc rfl hr)
  case refused => cases hc; cases hr
  case drives hd =>
    cases hd
    case fails | deserted => cases hc; cases hr
    case resolves | closes => exact .inl (claim_of_settled hc rfl hr)
    all_goals exact .inl hc
  all_goals exact .inl hc

theorem mem_flight {s : SubId} {f : Frame} {rest : List Frame} (hst : h.stack = f :: rest)
    (hf : f.sub? = some s) : f ∈ h.flight s := by
  unfold flight
  rw [hst, List.filter_cons_of_pos (by simpa using hf)]
  exact List.mem_cons_self

/-- An active subscription exists. -/
theorem lt_of_isActive {s : SubId} (ha : (h.sub s).isActive) : s < h.subs.length := by
  apply Nat.lt_of_not_le
  intro hs
  have hd : h.sub s = default := by
    unfold sub
    rw [List.getD_eq_getElem?_getD, List.getElem?_eq_none hs]; rfl
  rw [hd] at ha
  cases ha

/-- Whoever decides a session has been made for it. -/
theorem Decides.home {r : Report} (hd : Decides h sid r) (hw : Wired h) :
    ∃ s < h.subs.length, (h.sub s).home = sid := by
  cases hd with
  | fired hst hh | timedOut hst hh =>
    exact ⟨_, hw.sub_lt hst rfl, hh⟩
  | lost hact hh => exact ⟨_, lt_of_isActive hact, hh⟩

theorem backed_move (ha : Reachable h) (hm : Moved h m h') (hb : Backed h sid) :
    Backed h' sid := by
  have ht := move_turn ha.wired hm sid
  have hw := ha.wired
  have own : ∀ {s}, s < h.subs.length → (h.sub s).home = sid → s ∈ (h.session sid).members :=
    fun hs hh => hh ▸ hw.own _ hs
  constructor
  · intro s e hc
    have hold : s ∈ (h.session sid).members ∧ (h.sub s).home = sid ∧ e.key = (h.sub s).key := by
      rcases ht.claim_cases hc rfl with hc | ⟨r, hd, hr⟩
      · exact hb.fired s e hc
      · cases hd <;> cases hr
        rename_i hh hst
        exact ⟨own (hw.sub_lt hst rfl) hh, hh, (ha.kept s).key e (mem_flight hst rfl)⟩
    obtain ⟨hs, hh, hk⟩ := hold
    obtain ⟨fh, fk, -⟩ := sub_fixed hw hm (hw.members sid s hs)
    exact ⟨members_move ha hm hs, fh.trans hh, hk.trans fk.symm⟩
  · intro s hc
    have hold : s ∈ (h.session sid).members ∧ (h.sub s).home = sid := by
      rcases ht.claim_cases hc rfl with hc | ⟨r, hd, hr⟩
      · exact hb.timedOut s hc
      · cases hd <;> cases hr
        rename_i hst hh
        exact ⟨own (hw.sub_lt hst rfl) hh, hh⟩
    obtain ⟨hs, hh⟩ := hold
    exact ⟨members_move ha hm hs, (sub_fixed hw hm (hw.members sid s hs)).1.trans hh⟩
  · intro e hc
    have hold : ∃ s, s ∈ (h.session sid).members := by
      rcases ht.claim_cases hc rfl with hc | ⟨r, hd, hr⟩
      · exact List.exists_mem_of_ne_nil _ (hb.lost e hc)
      · cases hd <;> cases hr
        rename_i hact hh
        exact ⟨_, own (lt_of_isActive hact) hh⟩
    obtain ⟨s, hs⟩ := hold
    exact List.ne_nil_of_mem (members_move ha hm hs)

theorem Reachable.backed (hr : Reachable h) (sid : SessionId) : Backed h sid := by
  induction hr using Reachable.induct with
  | init settings => exact ⟨nofun, nofun, nofun⟩
  | move a b m ha hm ih => exact backed_move ha (moved_of_move? hm) ih

end

end Hub
end Aftermath
