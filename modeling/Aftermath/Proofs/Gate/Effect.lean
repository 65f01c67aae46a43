import Aftermath.Proofs.Gate.Operation

/-! The effect of an operation on the gate of a session: it decides the session with a report, or it
cancels subscriptions and reports nothing that decides. -/

namespace Aftermath.Hub

/-! ### What an operation does to the gate -/

structure Shares (h : Hub) (sid : SessionId) : Prop where
  exist : sid < h.sessions.length
  homes : ∀ s < h.subs.length, (h.sub s).home = sid
  members : ∀ s ∈ (h.session sid).members, s < h.subs.length
  nodup : (h.session sid).members.Nodup

section
variable {h a : Hub} {sid : SessionId} {s t : SubId}

theorem home_key_eq (h : Hub) (t : SubId) : ((h.sub t).home, (h.sub t).key) =
    h.wiring.1.getD t ((default : Subscription).home, (default : Subscription).key) := by
  unfold sub wiring
  rw [List.getD_eq_getElem?_getD, List.getD_eq_getElem?_getD, List.getElem?_map]
  cases h.subs[t]? <;> rfl

theorem members_eq (h : Hub) (sid : SessionId) :
    (h.session sid).members = h.wiring.2.getD sid [] := by
  unfold session wiring
  rw [List.getD_eq_getElem?_getD, List.getD_eq_getElem?_getD, List.getElem?_map]
  cases h.sessions[sid]? <;> rfl

theorem subs_length_of_wiring (hw : a.wiring.1 = h.wiring.1) : a.subs.length = h.subs.length := by
  simpa [Hub.wiring] using congrArg List.length hw

theorem home_key_of_wiring (hw : a.wiring.1 = h.wiring.1) (t : SubId) :
    ((a.sub t).home, (a.sub t).key) = ((h.sub t).home, (h.sub t).key) := by
  rw [home_key_eq, hw, ← home_key_eq]

theorem Shares.of_wiring (hk : Shares h sid) (hw : a.wiring = h.wiring) : Shares a sid where
  exist := by
    have hl : a.sessions.length = h.sessions.length := by
      simpa [Hub.wiring] using congrArg (fun w => w.2.length) hw
    exact hl ▸ hk.exist
  homes t ht :=
    (congrArg Prod.fst (home_key_of_wiring (congrArg Prod.fst hw) t)).trans
      (hk.homes t (subs_length_of_wiring (congrArg Prod.fst hw) ▸ ht))
  members t ht := by
    rw [members_eq, hw, ← members_eq] at ht
    exact subs_length_of_wiring (a := a) (congrArg Prod.fst hw) ▸ hk.members t ht
  nodup := by
    rw [members_eq, hw, ← members_eq]
    exact hk.nodup

end

theorem Shares.sound {h : Hub} {sid : SessionId} (hs : Shares h sid) : Sound h sid where
  exist := hs.exist
  each s hin := ⟨hs.members s hin, by rw [hs.homes s (hs.members s hin)]; exact hs.exist⟩
  nodup := hs.nodup

/-- What an operation may do to a session: it cancels subscriptions and may decide the session without
a report, or it decides the session with one. -/
inductive Effect (h a : Hub) (sid : SessionId) : Bool → Prop where
  | clears : (∀ t, (a.sub t).state = (h.sub t).state ∨
        (h.sub t).isActive ∧ (a.sub t).state = .cancelled) →
      ((a.session sid).claim = (h.session sid).claim ∨ (h.session sid).claim = none ∧
        ∃ c, (a.session sid).claim = some c ∧ c.isReported = false) →
      (a.session sid).pending = (h.session sid).pending → Effect h a sid false
  | decides {c : Claim} : c.isReported → (h.session sid).claim = none →
      (a.session sid).claim = some c →
      (a.session sid).pending = (h.session sid).pending ++ [c] →
      (∀ t, (a.sub t).state = (c.state? t).getD (h.sub t).state) →
      (∀ t, (c.state? t).isSome → (h.sub t).isActive) →
      (∀ s e, c = .fired s e → e.key = (h.sub s).key) → Effect h a sid true

section
variable {h a b : Hub} {sid : SessionId} {s t : SubId} {st : SubState} {op : Operation}

theorem Effect.of_eq (hsub : ∀ t, (a.sub t).state = (h.sub t).state)
    (hx : a.session sid = h.session sid) : Effect h a sid false :=
  .clears (fun t => .inl (hsub t)) (.inl (by rw [hx])) (by rw [hx])

/-! ### Deliveries, expiries and failures -/

/-- A subscription that has left `active` for a session which is undecided claims and reports. -/
theorem Effect.of_claim (hk : Shares h sid) (hs : s < h.subs.length) (ha : (h.sub s).isActive)
    (hn : (h.session sid).claim = none) {c : Claim} {r : Report} (hr : r.claim? = some c)
    (hst : ∀ t, c.state? t = if s = t then some st else none)
    (hkey : ∀ u e, c = .fired u e → e.key = (h.sub u).key) (x : Happening) (ans : Answer) :
    Effect h (((((h.leaving s st).settle sid c).note x).report sid r).reply ans) sid true := by
  generalize hg : h.leaving s st = g
  have hgi : sid < g.sessions.length :=
    hg ▸ Nat.lt_of_lt_of_eq hk.exist (congrArg Prod.snd size_leaving).symm
  have hgx : g.session sid = h.session sid := hg ▸ session_leaving
  have hx : ((((g.settle sid c).note x).report sid r).reply ans).session sid = _ :=
    session_claimed hgi c (hgx ▸ hn) x r
  rw [hgx] at hx
  refine .decides (Report.isReported_claim hr) hn (by rw [hx]) ?_ (fun t => ?_) (fun t ht => ?_) hkey
  · rw [hx, Session.pending, Session.pending, List.filterMap_append]
    simp [hr]
  · show (g.sub t).state = _
    rw [← hg, sub_leaving hs, hst]
    by_cases hts : s = t
    · subst hts; simp
    · rw [if_neg fun e => hts e.symm, if_neg hts]; rfl
  · rw [hst] at ht
    by_cases hts : s = t
    · subst hts; exact ha
    · rw [if_neg hts] at ht; cases ht

/-- One that finds the session decided ends cancelled. -/
theorem Effect.of_late (hs : s < h.subs.length) (ha : (h.sub s).isActive) (x : Happening)
    (ans : Answer) :
    Effect h ((((h.leaving s st).setState s .cancelled).note x).reply ans) sid false := by
  have hx : ((((h.leaving s st).setState s .cancelled).note x).reply ans).session sid =
      h.session sid := session_leaving
  refine .clears (fun t => ?_) (.inl (by rw [hx])) (by rw [hx])
  have hlen : s < (h.leaving s st).subs.length :=
    Nat.lt_of_lt_of_eq hs (congrArg Prod.fst size_leaving).symm
  have hsub : ((((h.leaving s st).setState s .cancelled).note x).reply ans).sub t =
      ((h.leaving s st).setState s .cancelled).sub t := rfl
  rw [hsub, sub_setState hlen, sub_leaving hs]
  by_cases hts : t = s
  · subst hts; exact .inr ⟨ha, by rw [if_pos rfl]⟩
  · rw [if_neg hts, if_neg hts]; exact .inl rfl

theorem deliver_effect (hk : Shares h sid) (hs : s < h.subs.length) (e : Envelope) :
    Effect h (h.deliverQuietly s e) sid ((h.deliverQuietly s e).answer == .bool true) := by
  unfold deliverQuietly
  split
  · exact .of_eq (fun _ => rfl) rfl
  · next hkey =>
    split
    · next ha =>
      have hsub : (h.leaving s .fired).sub s = _ := sub_leaving hs
      rw [if_pos rfl] at hsub
      unfold settleEvent; dsimp only
      rw [hsub]; dsimp only
      rw [hk.homes s hs, session_leaving]
      split
      · exact .of_late hs ha _ _
      · next hn =>
        refine .of_claim hk hs ha (by simpa [Session.isSettled] using hn) rfl (fun t => rfl)
          (fun u e' he => ?_) _ _
        cases he
        exact Classical.not_not.1 hkey
    · exact .of_eq (fun _ => rfl) rfl

/-- An effect that decides finds the session undecided and leaves it decided. -/
theorem Effect.settles (he : Effect h a sid true) :
    (h.session sid).isSettled = false ∧ (a.session sid).isSettled := by
  cases he with
  | decides _ hn hc => exact ⟨by rw [Session.isSettled, hn]; rfl, by rw [Session.isSettled, hc]; rfl⟩

theorem expire_effect (hk : Shares h sid) (hs : s < h.subs.length) :
    Effect h (h.expireQuietly s) sid ((Operation.expire s).decided h (h.expireQuietly s) sid) := by
  unfold Operation.decided expireQuietly
  split
  · next ha =>
    have hsub : (h.leaving s .timedOut).sub s = _ := sub_leaving hs
    rw [if_pos rfl] at hsub
    unfold settleTimeout; dsimp only
    rw [hsub]; dsimp only
    rw [hk.homes s hs, session_leaving]
    split
    · next hset => rw [hset]; exact .of_late hs ha _ _
    · next hn =>
      have he := Effect.of_claim hk hs ha (by simpa [Session.isSettled] using hn)
        (c := .timedOut s) (r := .timedOut s) rfl (fun t => rfl) nofun (.expired s (h.sub s).key) .nothing
      rw [he.settles.1, he.settles.2]
      exact he
  · have hflag : ∀ b : Bool, (!b && b) = false := by decide
    show Effect h (h.reply .nothing) sid (!(h.session sid).isSettled && (h.session sid).isSettled)
    rw [hflag]
    exact .of_eq (fun _ => rfl) rfl

theorem fail_effect (hk : Shares h sid) (hs : s < h.subs.length) (e : NetworkError) :
    Effect h (h.fail s e) sid ((h.fail s e).answer == .bool true) := by
  unfold fail; dsimp only
  rw [hk.homes s hs]
  split
  · next ha =>
    obtain ⟨-, hn⟩ := Bool.and_eq_true_iff.1 ha
    have hn : (h.session sid).claim = none := by simpa [Session.isSettled] using hn
    have hx : (((((h.settle sid (.lost e)).note (.lost s (h.sub s).key e)).report sid (.lost e)).reply
        (.bool true)).session sid) = _ := session_claimed hk.exist (.lost e) hn _ (.lost e)
    refine .decides (c := .lost e) rfl hn (by rw [hx]) ?_ (fun t => rfl)
      (fun t ht => absurd ht Bool.false_ne_true) (fun u e hu => Claim.noConfusion hu)
    rw [hx, Session.pending, Session.pending, List.filterMap_append]
    rfl
  · exact .of_eq (fun _ => rfl) rfl

/-! ### Cancellations, registrations and refusals -/

theorem pending_append {x : Session} {l : List Report} (hl : l.filterMap Report.claim? = []) :
    ({ x with reports := x.reports ++ l } : Session).pending = x.pending := by
  rw [Session.pending, Session.pending, List.filterMap_append, hl, List.append_nil]

theorem pending_outcries {l : List SubId} : (h.outcries sid l).filterMap Report.claim? = [] := by
  rw [outcries, List.filterMap_map]
  exact List.filterMap_eq_nil_iff.2 fun _ _ => rfl

theorem cancel_effect (hk : Shares h sid) (hs : s < h.subs.length) :
    Effect h (h.cancelQuietly s) sid false := by
  have hx := session_cancelQuietly (i := sid) (h := h) (s := s) (hk.homes s hs ▸ hk.exist)
  refine .clears (fun t => ?_) (.inl ?_) ?_
  · rw [sub_cancelQuietly hs]
    split
    · next ht => exact .inr ⟨ht.2, rfl⟩
    · exact .inl rfl
  · rw [hx]; split <;> rfl
  · rw [hx]
    split
    · exact pending_append rfl
    · rfl

theorem session_enrol (hi : sid < h.sessions.length) : (h.enrol sid s).session sid =
    { h.session sid with members :=
        if (h.session sid).members.contains s then (h.session sid).members
        else (h.session sid).members ++ [s] } := by
  rw [enrol, session_onSession _ _ _ hi, if_pos rfl]
  split <;> rfl

theorem Effect.trans_eq {d : Bool} (he : Effect b a sid d) (hsub : ∀ t, b.sub t = h.sub t)
    (hc : (b.session sid).claim = (h.session sid).claim)
    (hp : (b.session sid).pending = (h.session sid).pending) : Effect h a sid d := by
  cases he with
  | clears hst hcl hpe =>
    exact .clears (fun t => hsub t ▸ hst t) (hc ▸ hcl) (hpe.trans hp)
  | decides hr hn hcl hpe hst hact hkey =>
    exact .decides hr (hc ▸ hn) hcl (hp ▸ hpe) (fun t => hsub t ▸ hst t)
      (fun t ht => hsub t ▸ hact t ht) (fun u e he => hsub u ▸ hkey u e he)

theorem Shares.enrol (hk : Shares h sid) (hs : s < h.subs.length) :
    Shares (h.enrol sid s) sid where
  exist := Nat.lt_of_lt_of_eq hk.exist (sessions_length_onSession h sid _).symm
  homes := hk.homes
  members t ht := by
    rw [session_enrol hk.exist] at ht
    dsimp only at ht
    split at ht
    · exact hk.members t ht
    · rcases List.mem_append.1 ht with ht | ht
      · exact hk.members t ht
      · exact List.mem_singleton.1 ht ▸ hs
  nodup := by
    rw [session_enrol hk.exist]
    dsimp only
    split
    · exact hk.nodup
    · next hn =>
      refine List.nodup_append.2 ⟨hk.nodup, by simp, ?_⟩
      rintro t ht u hu rfl
      exact hn (List.contains_iff_mem.2 (List.mem_singleton.1 hu ▸ ht))

theorem register_effect (hk : Shares h sid) (hs : s < h.subs.length) :
    Effect h (h.registerQuietly sid s) sid false := by
  have hx := session_enrol (s := s) hk.exist
  have he : Effect (h.enrol sid s) (h.registerQuietly sid s) sid false := by
    unfold registerQuietly
    split
    · exact cancel_effect (hk.enrol hs) hs
    · exact .of_eq (fun _ => rfl) rfl
  exact he.trans_eq (fun _ => rfl) (by rw [hx]) (by rw [hx]; rfl)

theorem decline_effect (hs : s < h.subs.length) (e : SubscribeError) :
    Effect h (h.decline s e) sid false := by
  have hx : (h.decline s e).session sid = h.session sid := by
    refine session_eq ?_ sid
    unfold decline; dsimp only
    split <;> simp
  refine .clears (fun t => ?_) (.inl (by rw [hx])) (by rw [hx])
  unfold decline; dsimp only
  generalize hg : (h.note (.ungranted s (h.sub s).key (h.sub s).kind e)).onSub s
    (fun sub => { sub with error := some e }) = g
  have hgs : s < g.subs.length := by rw [← hg]; simpa using hs
  have hgt : (g.sub t).state = (h.sub t).state := by
    have hsub := sub_onSub (h.note (.ungranted s (h.sub s).key (h.sub s).kind e)) s t hs
      fun sub => { sub with error := some e }
    rw [← hg, hsub]
    split <;> rfl
  split
  · next ha =>
    rw [sub_disarm (by simpa [setState] using hgs), sub_setState hgs]
    by_cases hts : t = s
    · subst hts; exact .inr ⟨ha, by rw [if_pos rfl, if_pos rfl]⟩
    · rw [if_neg hts, if_neg hts]; exact .inl hgt
  · exact .inl hgt

/-! ### Releases -/

/-- A release cancels the members that are active and reports nothing else. -/
theorem Effect.of_swept {c : Claim} (hc : c.isReported = false)
    (hsub : ∀ t, a.sub t = h.swept sid t)
    (hcl : (a.session sid).claim = (h.session sid).claim.or (some c)) {l : List SubId}
    (hre : (a.session sid).reports = (h.session sid).reports ++ h.outcries sid l) :
    Effect h a sid false := by
  refine .clears (fun t => ?_) ?_ ?_
  · rw [hsub]
    unfold swept
    split
    · next ht => exact .inr ⟨ht.2, rfl⟩
    · exact .inl rfl
  · rw [hcl]
    cases (h.session sid).claim with
    | none => exact .inr ⟨rfl, c, rfl, hc⟩
    | some d => exact .inl rfl
  · rw [Session.pending, hre, List.filterMap_append, pending_outcries, List.append_nil]
    rfl

theorem released_effect (hk : Shares h sid) : Effect h (h.released sid .ended) sid false :=
  .of_swept (c := .ended) rfl (fun _ => hk.sound.sub_released) (by rw [hk.sound.session_released]; rfl)
    (by rw [hk.sound.session_released])

theorem withdrawn_effect (hk : Shares h sid) : Effect h (h.withdrawn sid) sid false :=
  .of_swept (c := .cancelled) rfl (fun _ => hk.sound.sub_withdrawn)
    (by rw [hk.sound.session_withdrawn]; rfl) (by rw [hk.sound.session_withdrawn])

end

end Aftermath.Hub
