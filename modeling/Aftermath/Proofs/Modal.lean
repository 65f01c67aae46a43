import Aftermath.Proofs.Outward
import Aftermath.Proofs.Release

/-! The busy flag of a modal surface. A session raises it when it has passed its check and clears it
when it leaves. Sessions that share a surface do not know of each other: whoever leaves first clears
the flag of all. -/

namespace Aftermath.Hub

/-- A session is about to raise the busy flag of its surface. -/
structure Raises (h : Hub) (sid : SessionId) (k : ModalId) : Prop where
  writes : h.writes? = some (sid, true)
  surface : (h.session sid).modal = some k
  there : k < h.modals.length

instance (h : Hub) (sid : SessionId) (k : ModalId) : Decidable (h.Raises sid k) :=
  decidable_of_iff (h.writes? = some (sid, true) ∧ (h.session sid).modal = some k ∧
      k < h.modals.length)
    ⟨fun ⟨w, s, t⟩ => ⟨w, s, t⟩, fun ⟨w, s, t⟩ => ⟨w, s, t⟩⟩

section
variable {h h' : Hub} {sid i : SessionId} {m : Move} {k : ModalId} {x y : View}

/-- A session stays on its surface. -/
theorem Turn.modal (ht : Turn h h' sid x y) (hk : x.self.modal = some k) :
    y.self.modal = some k := by
  cases ht
  case opens => cases hk
  case drives hd => cases hd <;> exact hk
  all_goals exact hk

theorem modal_move (ha : Reachable h) (hm : Moved h m h') (hk : (h.session i).modal = some k) :
    (h'.session i).modal = some k :=
  (move_turn ha.wired hm i).modal hk

theorem moved_driving (hm : Moved h .step h') {rest : List Frame}
    (hst : h.stack = .driving i :: rest) : h' = h.drive i := by
  cases hm with
  | drive hd => rw [hst] at hd; cases hd; rfl
  | settleEvent hd | settleTimeout hd | reportCancel hd | releaseStep hd | enter hd =>
    rw [hst] at hd
    cases hd

/-- A session that clears its flag runs, and its next step is its last. -/
theorem writes?_false (hw : h.writes? = some (i, false)) :
    (∃ rest, h.stack = .driving i :: rest) ∧ (h.session i).running = none ∧
      ((∃ e, (h.session i).phase = .closing e) ∨ (h.session i).phase = .dropping) := by
  unfold writes? at hw
  split at hw
  · next j rest hst =>
    dsimp only at hw
    split at hw
    · cases hw
    · next hr =>
      split at hw
      · split at hw <;> cases hw
      · next e hp => cases hw; exact ⟨⟨rest, hst⟩, by simpa using hr, .inl ⟨e, hp⟩⟩
      · next hp => cases hw; exact ⟨⟨rest, hst⟩, by simpa using hr, .inr hp⟩
      · cases hw
  · cases hw

/-- Whoever clears the flag has left. -/
theorem over_of_clears (ha : Reachable h) (hw : h.writes? = some (i, false)) :
    (h.session i).isOver = false ∧ (h.drive i |>.session i).isOver := by
  obtain ⟨⟨rest, hst⟩, hr, hp⟩ := writes?_false hw
  have hi : i < h.sessions.length :=
    ha.wired.session_lt hst rfl
  rw [Session.isOver_eq, Session.isOver_eq]
  rcases hp with ⟨e, hp⟩ | hp
  · obtain ⟨g, -, hs, -, he⟩ := leave_eq h i e
    have hd : h.drive i = h.leave i e := by simp only [drive, hr, hp]
    rw [hp, hd, he]
    refine ⟨rfl, ?_⟩
    change ((g.onSession i _).session i).phase.isOver
    rw [session_onSession _ _ _ (by rw [hs]; exact hi), if_pos rfl]
    rfl
  · simp only [drive, hr, hp]
    refine ⟨rfl, ?_⟩
    change (((h.writeBusy i false).onSession i _).session i).phase.isOver
    rw [session_onSession _ _ _ (by rw [sessions_writeBusy]; exact hi), if_pos rfl]
    rfl

theorem lt_of_modal (hi : (h.session i).modal = some k) : i < h.sessions.length := by
  apply Nat.lt_of_not_le
  intro hn
  rw [session, List.getD_eq_getElem?_getD, List.getElem?_eq_none hn] at hi
  cases hi

theorem lt_of_busy (hb : (h.modal k).busy) : k < h.modals.length := by
  apply Nat.lt_of_not_le
  intro hk
  rw [modal, List.getD_eq_getElem?_getD, List.getElem?_eq_none hk] at hb
  cases hb

/-- A flag that is raised stays so in a move, unless a session of its surface leaves. -/
theorem busy_move (ha : Reachable h) (hm : Moved h m h') (hb : (h.modal k).busy) :
    (h'.modal k).busy ∨ ∃ i, (h.session i).modal = some k ∧ (h.session i).isOver = false ∧
      (h'.session i).isOver := by
  have hlt := lt_of_busy hb
  have hf := flags_move ha hm
  unfold flagging at hf
  split at hf
  · left
    rw [busy_eq] at hb
    rw [busy_eq, hf, List.getD_eq_getElem?_getD, List.getElem?_append_left (by simpa [flags] using hlt)]
    rwa [List.getD_eq_getElem?_getD] at hb
  · split at hf
    · next i b hw =>
      by_cases hk : (h.session i).modal = some k
      · cases b with
        | true =>
          left
          rw [busy_eq, hf]
          exact flagged_self hk hlt true
        | false =>
          obtain ⟨⟨rest, hst⟩, -⟩ := writes?_false hw
          obtain ⟨hn, ho⟩ := over_of_clears ha hw
          rw [← moved_driving hm hst] at ho
          exact .inr ⟨i, hk, hn, ho⟩
      · left
        rw [busy_eq, hf, flagged_other hk]
        exact hb
    · left
      rw [busy_eq, hf, ← busy_eq]
      exact hb
  · left
    rw [busy_eq, hf, ← busy_eq]
    exact hb

theorem over_later (hr : Reachable h) (hl : Later h h') (ho : (h.session i).isOver) :
    (h'.session i).isOver := by
  rw [Session.isOver_eq] at ho ⊢
  rw [(hr.silent hl ho).1]
  exact ho

/-- A flag that was raised is raised still, or a session of its surface has ended since. -/
theorem Later.busy (hr : Reachable h) (hl : Later h h') (hb : (h.modal k).busy) :
    (h'.modal k).busy ∨ ∃ i, (h'.session i).modal = some k ∧ (h.session i).isOver = false ∧
      (h'.session i).isOver := by
  induction hl with
  | refl => exact .inl hb
  | @move a b m hl hm ih =>
    have ha := hr.later hl
    have hm := moved_of_move? hm
    rcases ih with hb | ⟨i, hi, hn, ho⟩
    · rcases busy_move ha hm hb with hb | ⟨i, hi, hn, ho⟩
      · exact .inl hb
      · refine .inr ⟨i, modal_move ha hm hi, ?_, ho⟩
        -- Had it been over at first, it would have been so ever since.
        rw [← Bool.not_eq_true]
        intro hover
        rw [over_later hr hl hover] at hn
        cases hn
    · refine .inr ⟨i, modal_move ha hm hi, hn, ?_⟩
      exact over_later ha (Later.refl.move ‹_›) ho

theorem Raises.busy (ha : Reachable h) (hs : h.Raises sid k) (hm : Moved h .step h') :
    (h'.modal k).busy := by
  rw [busy_eq, flags_move ha hm, flagging, hs.writes]
  exact flagged_self hs.surface hs.there true

end

/-- The flag covers a modal session as long as no other session leaves the surface. From the moment a
session has raised the flag of its surface until it has ended the surface is busy, whatever happens,
if no other session of the surface ends in between. -/
theorem surface_stays_busy {h a b : Hub} {sid : SessionId} {k : ModalId} (hr : Reachable h)
    (hs : h.Raises sid k) (hm : h.move? .step = some a) (hl : Later a b)
    (hn : (b.session sid).isOver = false)
    (ho : ∀ i, i ≠ sid → (b.session i).modal = some k → (b.session i).isOver →
      (h.session i).isOver) : (b.modal k).busy := by
  have hra : Reachable a := hr.later (Later.refl.move hm)
  have hb := hs.busy hr (moved_of_move? hm)
  rcases Later.busy hra hl hb with hb | ⟨i, hi, hna, hover⟩
  · exact hb
  · have hne : i ≠ sid := by
      rintro rfl
      rw [hn] at hover
      cases hover
    rw [over_later hr (Later.refl.move hm) (ho i hne hi hover)] at hna
    cases hna

def comesToPost (sid : SessionId) : List Move :=
  [.openSession none (some 0), .run sid, .step, .subscribe default .event, .granted sid,
    .configured, .step]

def postsAndWaits : List Move := [.step, .postReplied .acknowledged, .step, .step]

theorem waiting_session_is_busy : ∃ h a b, Reachable h ∧ h.Raises 0 0 ∧ h.move? .step = some a ∧
    Later a b ∧ (b.session 0).phase = .awaiting ∧ (b.session 1).phase = .awaiting ∧
    (b.modal 0).busy := by
  obtain ⟨h, hr, hs, hrun⟩ := Reachable.exists_of_run {} (.newModal :: comesToPost 0)
    (fun h => h.Raises 0 0 ∧ (h.move? .step).any fun a =>
      (a.run? (postsAndWaits ++ comesToPost 1 ++ .step :: postsAndWaits)).any fun b =>
        (b.session 0).phase = .awaiting ∧ (b.session 1).phase = .awaiting ∧
          ∀ i, i < b.sessions.length → (b.session i).isOver = false) (by decide)
  obtain ⟨a, hm, hrun⟩ := exists_of_any hrun
  obtain ⟨b, hl, h0, h1, hn⟩ := Later.exists_of_run hrun
  refine ⟨h, a, b, hr, hs, hm, hl, h0, h1, surface_stays_busy hr hs hm hl ?_ fun i _ hi ho => ?_⟩
  · rw [Session.isOver_eq, h0]
    rfl
  · rw [hn i (lt_of_modal hi)] at ho
    cases ho

/-- The first of two sessions on a surface that ends clears the flag of the other. -/
theorem other_session_clears_flag : ¬ ∀ (h a b : Hub) (sid : SessionId) (k : ModalId),
    Reachable h → h.Raises sid k → h.move? .step = some a → Later a b →
    (b.session sid).isOver = false → (b.modal k).busy := by
  intro hall
  obtain ⟨h, hr, hs, hrun⟩ := Reachable.exists_of_run {} (.newModal :: comesToPost 0)
    (fun h => h.Raises 0 0 ∧ (h.move? .step).any fun a =>
      (a.run? (postsAndWaits ++ comesToPost 1 ++ .step :: postsAndWaits ++ oneArrives 1)).any
        fun b => (b.session 0).isOver = false ∧ (b.modal 0).busy = false) (by decide)
  obtain ⟨a, hm, hrun⟩ := exists_of_any hrun
  obtain ⟨b, hl, hn, hb⟩ := Later.exists_of_run hrun
  rw [hall h a b 0 0 hr hs hm hl hn] at hb
  cases hb

end Aftermath.Hub
