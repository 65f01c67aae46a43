import Aftermath.Proofs.Shift.Basic

/-! Claims, reports, releases and registrations are shifts of every subscription. -/

namespace Aftermath.Hub

section
variable {h a b : Hub} {s t : SubId} {i : SessionId}

/-! ### Claims and reports -/

theorem session_report (hi : i < h.sessions.length) (r : Report) :
    ((h.report i r).session i) =
      { h.session i with reports := (h.session i).reports ++ [r] } :=
  (session_onSession _ _ _ hi _).trans (if_pos rfl)

theorem session_settle (hi : i < h.sessions.length) {c : Claim} (hc : (h.session i).claim = none) :
    (h.settle i c).session i = { h.session i with claim := some c } := by
  have hn : ¬ (h.session i).isSettled := by simp [Session.isSettled, hc]
  unfold settle
  rw [session_onSession _ _ _ hi, if_pos rfl, if_neg hn]

/-- A claim made together with its report. -/
theorem session_claimed (hi : i < h.sessions.length) (c : Claim) (hc : (h.session i).claim = none)
    (x : Happening) (r : Report) :
    ((((h.settle i c).note x).report i r).session i) =
      { h.session i with claim := some c, reports := (h.session i).reports ++ [r] } := by
  have hi' : i < ((h.settle i c).note x).sessions.length := by simpa [settle] using hi
  rw [session_report hi', show ((h.settle i c).note x).session i = (h.settle i c).session i from rfl,
    session_settle hi hc]

/-- A frame that claims the session of its subscription wins or loses. -/
theorem settling_shift {h' : Hub} {f : Frame} {p : Report} {rest : List Frame}
    (hst : h.stack = f :: rest) (hf : f.sub? = some s) (hp : f.report? = some p)
    (hc : p.claim?.isSome)
    (won : (h.session (h.sub s).home).claim = none →
      h'.subView t = h.pop.subView t ∧ (h'.session (h.sub s).home).claim = p.claim? ∧
        (h'.session (h.sub s).home).reports = (h.session (h.sub s).home).reports ++ [p])
    (lost : (h.session (h.sub s).home).isSettled → h'.subView t =
      if t = s then { h.pop.subView t with self.state := .cancelled } else h.pop.subView t) :
    Shift h h' t (h.subView t) (h'.subView t) := by
  rw [subView_of_stack _ _ hst]
  cases hn : (h.session (h.sub s).home).claim with
  | none =>
    obtain ⟨hv, hcl, hre⟩ := won hn
    rw [hv]
    by_cases hts : t = s
    · subst hts; rw [if_pos hf]; exact .wins hp hc hn hcl hre
    · rw [hf, if_neg (by simpa using fun e => hts e.symm)]; exact .idle
  | some c =>
    have hs : (h.session (h.sub s).home).isSettled := by rw [Session.isSettled, hn]; rfl
    rw [lost hs]
    by_cases hts : t = s
    · subst hts; rw [if_pos hf, if_pos rfl]; exact .loses (by rw [hp]; exact hc) hs
    · rw [hf, if_neg (by simpa using fun e => hts e.symm), if_neg hts]; exact .idle

theorem settleEvent_shift (hs : s < h.subs.length) (hi : (h.sub s).home < h.sessions.length)
    {e : Envelope} {rest : List Frame} (hst : h.stack = .settlingEvent s e :: rest) :
    Shift h (h.pop.settleEvent s e) t (h.subView t) ((h.pop.settleEvent s e).subView t) := by
  refine settling_shift hst rfl rfl rfl ?_ ?_ <;> intro hc <;> unfold settleEvent <;> dsimp only
  · have hn : ¬ (h.pop.session (h.pop.sub s).home).isSettled := by simp [Session.isSettled, hc]
    have hh := session_claimed (h := h.pop) hi (.fired s e) hc
      (.fired s (h.sub s).key (h.sub s).kind) (.fired s e)
    rw [if_neg hn, subView_reply, subView_report, subView_note_silent _ _ rfl rfl, subView_settle]
    exact ⟨rfl, congrArg Session.claim hh, congrArg Session.reports hh⟩
  · rw [if_pos (show (h.pop.session (h.pop.sub s).home).isSettled from hc), subView_reply,
      subView_note_silent _ _ rfl rfl, subView_setState (show s < h.pop.subs.length from hs)]

theorem settleTimeout_shift (hs : s < h.subs.length) (hi : (h.sub s).home < h.sessions.length)
    {rest : List Frame} (hst : h.stack = .settlingTimeout s :: rest) :
    Shift h (h.pop.settleTimeout s) t (h.subView t) ((h.pop.settleTimeout s).subView t) := by
  refine settling_shift hst rfl rfl rfl ?_ ?_ <;> intro hc <;> unfold settleTimeout <;> dsimp only
  · have hn : ¬ (h.pop.session (h.pop.sub s).home).isSettled := by simp [Session.isSettled, hc]
    have hh := session_claimed (h := h.pop) hi (.timedOut s) hc (.expired s (h.sub s).key) (.timedOut s)
    rw [if_neg hn, subView_reply, subView_report, subView_note_silent _ _ rfl rfl, subView_settle]
    exact ⟨rfl, congrArg Session.claim hh, congrArg Session.reports hh⟩
  · rw [if_pos (show (h.pop.session (h.pop.sub s).home).isSettled from hc), subView_reply,
      subView_note_silent _ _ rfl rfl, subView_setState (show s < h.pop.subs.length from hs)]

theorem reportCancel_shift (hi : (h.sub s).home < h.sessions.length)
    {rest : List Frame} (hst : h.stack = .reportingCancel s :: rest) :
    Shift h (h.pop.reportCancel s) t (h.subView t) ((h.pop.reportCancel s).subView t) := by
  have hv : (h.pop.reportCancel s).subView t = h.pop.subView t := by
    rw [reportCancel, subView_reply, subView_report]
  rw [subView_of_stack _ _ hst, hv]
  by_cases hts : t = s
  · subst hts
    rw [if_pos (show (Frame.reportingCancel t).sub? = some t from rfl)]
    refine .reports ?_
    have hh := session_report (h := h.pop) hi (.cancelled t)
    exact congrArg Session.reports hh
  · rw [if_neg (by simpa [Frame.sub?] using fun e => hts e.symm)]
    exact .idle

theorem fail_shift (e : NetworkError) : Shift a b t (h.subView t) ((h.fail s e).subView t) := by
  unfold fail; dsimp only
  split
  · rw [subView_reply, subView_report, subView_note_silent _ _ rfl rfl, subView_settle]
    exact .idle
  · exact .idle

/-! ### Releases and registrations -/

theorem releaseStep_shift {rest : List SubId} {n : Nat} {below : List Frame}
    (hst : h.stack = .releasing i rest n :: below) (hr : ∀ s ∈ rest, s < h.subs.length) :
    Shift a b t (h.subView t) ((h.pop.releaseStep i rest n).subView t) := by
  have hp : h.subView t = h.pop.subView t := by
    rw [subView_of_stack _ _ hst, if_neg (by simp [Frame.sub?])]
  have hpush : ∀ l m, (h.pop.push (.releasing i l m)).subView t = h.pop.subView t := fun l m => by
    rw [subView_push, if_neg (by simp [Frame.sub?])]
  rw [hp]
  unfold releaseStep
  split
  · rw [subView_reply]
    split
    · exact .idle
    · rw [subView_note_silent _ _ rfl rfl]; exact .idle
  · next u l =>
    split
    · rw [← hpush l (n + 1)]; exact cancel_shift (hr u List.mem_cons_self)
    · rw [hpush]; exact .idle

theorem register_shift (hs : s < h.subs.length) :
    Shift a b t (h.subView t) ((h.register i s).subView t) := by
  unfold register; dsimp only
  split
  · exact cancel_shift (h := h.onSession i _) hs
  · exact .idle

theorem subView_cancelAll : (h.cancelAll i).subView t = h.subView t := by
  unfold cancelAll; dsimp only
  rw [subView_release]
  split
  · rfl
  · exact subView_note_silent _ _ rfl rfl

theorem subView_cancelToken (k : TokenId) : (h.cancelToken k).subView t = h.subView t := by
  unfold cancelToken; dsimp only
  split
  · rfl
  · generalize (h.token k).sessions = l
    generalize hh : { h with tokens := h.tokens.set k _ } = h1
    have hv : h1.subView t = h.subView t := by rw [← hh]; rfl
    rw [← hv]
    clear hh hv
    induction l generalizing h1 with
    | nil => rfl
    | cons j l ih =>
      rw [List.foldl_cons, ih]
      split
      · rfl
      · exact subView_note_silent _ _ rfl rfl

theorem sub_append (x : Subscription) (u : SubId) :
    ({ h with subs := h.subs ++ [x] } : Hub).sub u = if u = h.subs.length then x else h.sub u := by
  unfold sub
  rcases Nat.lt_trichotomy u h.subs.length with hu | hu | hu
  · rw [if_neg (Nat.ne_of_lt hu)]; simp [List.getElem?_append_left hu]
  · simp [hu]
  · rw [if_neg (Nat.ne_of_gt hu)]
    simp only [List.getD_eq_getElem?_getD]
    rw [List.getElem?_eq_none (by simpa using Nat.succ_le_of_lt hu),
      List.getElem?_eq_none (Nat.le_of_lt hu)]

theorem sub_beyond : h.sub h.subs.length = default := by simp [sub]

/-- A new subscription is a member of the session it is made for. -/
theorem mem_subscribe (hi : i < h.sessions.length) (key : Key) (kind : Kind) :
    h.subs.length ∈ ((h.subscribe i key kind).session i).members := by
  unfold subscribe register; dsimp only
  generalize hg : ({ h with subs := h.subs ++ [{ key, kind, home := i }] } : Hub).onSession i _ = g
  have hi' : i < (g.push (.subscribing h.subs.length)).sessions.length := by
    rw [sessions_push, ← hg]; simpa using hi
  generalize hk : (g.push (.subscribing h.subs.length)).onSession i _ = k
  have hm : h.subs.length ∈ (k.session i).members := by
    rw [← hk, session_onSession _ _ _ hi', if_pos rfl]
    split
    · next hc => simpa using hc
    · simp
  split
  · rw [session_eq (sessions_cancel _ _)]; exact hm
  · exact hm

/-- A new subscription is active, unless its session is decided. -/
theorem subscribe_shift {rest : List Frame} (hst : h.stack = .configuring i :: rest) (key : Key)
    (kind : Kind) (hi : i < h.sessions.length) (hmem : h.subs.length ∈ (b.session i).members) :
    Shift h b t (h.subView t) ((h.subscribe i key kind).subView t) := by
  unfold subscribe register; dsimp only
  generalize hx : ({ key, kind, home := i } : Subscription) = x
  generalize hg : ({ h with subs := h.subs ++ [x] } : Hub).onSession i _ = g
  have hsub : ∀ u, g.sub u = if u = h.subs.length then x else h.sub u := by
    intro u; rw [← hg]; exact sub_append x u
  have hlen : h.subs.length < g.subs.length := by rw [← hg]; simp
  have hc : (g.session i).claim = (h.session i).claim := by
    rw [← hg, session_onSession _ _ _ (by exact hi), if_pos rfl]; rfl
  have hv : (g.push (.subscribing h.subs.length)).subView t =
      if t = h.subs.length then ⟨x, .subscribing t :: h.flight t, h.granted t, h.returned t⟩
      else h.subView t := by
    have hgt : g.subView t = { h.subView t with self := g.sub t } := by rw [← hg]; rfl
    rw [subView_push, hgt, hsub]
    by_cases ht : t = h.subs.length
    · subst ht; rw [if_pos rfl, if_pos rfl, if_pos (by rfl)]; rfl
    · rw [if_neg ht, if_neg (by simpa [Frame.sub?] using fun e => ht e.symm), if_neg ht]; rfl
  have hs : ((g.push (.subscribing h.subs.length)).session i).isSettled = (h.session i).isSettled :=
    congrArg Option.isSome hc
  rw [hs]
  split
  · next hd =>
    have ha : (g.sub h.subs.length).isActive := by rw [hsub, if_pos rfl, ← hx]; rfl
    unfold cancel
    rw [if_pos (by exact ha), subView_leaving (by exact hlen) rfl, subView_onSession, hv]
    by_cases ht : t = h.subs.length
    · subst ht
      rw [if_pos rfl, if_pos rfl, subView, sub_beyond, ← hx]
      exact .bornLate rfl hst hd hmem rfl
    · rw [if_neg ht, if_neg ht]; exact .idle
  · next hd =>
    rw [subView_onSession, hv]
    by_cases ht : t = h.subs.length
    · subst ht
      rw [if_pos rfl, subView, sub_beyond, ← hx]
      exact .born rfl hst (by simpa [Session.isSettled] using hd) hmem
    · rw [if_neg ht]; exact .idle

end

end Aftermath.Hub
