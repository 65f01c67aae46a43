import Aftermath.Proofs.Wired

/-! Calls of a quiet transport. When the transport only takes note that a lease has ended, a call runs
to its return by steps of the hub alone, and what it leaves behind can be told in one go. -/

namespace Aftermath

def Subscription.ousted (x : Subscription) : Subscription :=
  { x with state := .cancelled, countdown := x.countdown.cancel, lease := none }

@[simp] theorem Subscription.isActive_ousted (x : Subscription) : x.ousted.isActive = false := rfl

namespace Hub

/-- A step of the hub, or of a transport that only takes note that a lease has ended. -/
def quietStep (h : Hub) : Hub :=
  match h.stack with
  | .unsubscribing _ :: _ => h.pop
  | _ => h.step

/-- What lies above some frames is worked off while the transport is quiet. -/
inductive Returns (base : List Frame) : Hub → Hub → Prop where
  | done {h : Hub} : h.stack = base → Returns base h h
  | step {h h' : Hub} : base.length < h.stack.length → Returns base h.quietStep h' →
      Returns base h h'

section
variable {base l : List Frame} {a b c h h' : Hub}

theorem Returns.stack_eq (hr : Returns base h h') : h'.stack = base := by
  induction hr with
  | done hst => exact hst
  | step _ _ ih => exact ih

theorem Returns.trans (hab : Returns l a b) (hl : base.length ≤ l.length)
    (hbc : Returns base b c) : Returns base a c := by
  induction hab with
  | done _ => exact hbc
  | step hlt _ ih => exact .step (Nat.lt_of_le_of_lt hl hlt) (ih hbc)

/-- A call returns in one way only. -/
theorem Returns.unique (hb : Returns base a b) (hc : Returns base a c) : b = c := by
  induction hb with
  | done hst =>
    cases hc with
    | done _ => rfl
    | step hlt _ => rw [hst] at hlt; exact absurd hlt (Nat.lt_irrefl _)
  | step hlt _ ih =>
    cases hc with
    | done hst => rw [hst] at hlt; exact absurd hlt (Nat.lt_irrefl _)
    | step _ hc => exact ih hc

theorem later_quietStep (h : Hub) : Later h h.quietStep := by
  cases hb : h.isBusy with
  | true =>
    have hq : h.quietStep = h.step := by
      unfold quietStep
      split
      · next hst => rw [isBusy, hst] at hb; cases hb
      · rfl
    rw [hq]
    exact Later.refl.move (m := .step) (if_pos hb)
  | false =>
    unfold quietStep
    split
    · next l rest hst =>
      refine Later.refl.move (m := .unsubscribed) ?_
      unfold move? call?
      rw [if_neg (by rw [hb]; exact Bool.false_ne_true), hst]
    · next hn =>
      -- Any other frame of the surroundings waits for an answer.
      have hq : h.step = h := by
        unfold step
        split <;> first | rfl | (rename_i hst; rw [isBusy, hst] at hb; cases hb)
      rw [hq]
      exact .refl

/-- A quiet run is a run. -/
theorem Returns.later (hr : Returns base h h') : Later h h' := by
  induction hr with
  | done _ => exact .refl
  | step _ _ ih => exact (later_quietStep _).trans ih

end

/-! ### Letting go of a countdown and a lease -/

def letGo (h : Hub) (s : SubId) : Hub :=
  let h := h.disarm s
  match (h.sub s).lease with
  | none => h
  | some l => (h.onSub s fun sub => { sub with lease := none }).note (.returned s l)

section
variable {h h' : Hub} {s t : SubId} {i : SessionId} {f : Frame} {base : List Frame}

theorem subs_letGo (f : Frame) : (h.letGo s).subs = (h.finish s f).subs := by
  unfold letGo finish; dsimp only
  rw [sub_push]
  cases ((h.disarm s).sub s).lease <;> rfl

@[simp] theorem sessions_letGo : (h.letGo s).sessions = h.sessions := by
  unfold letGo; dsimp only
  split <;> simp

@[simp] theorem stack_letGo : (h.letGo s).stack = h.stack := by
  unfold letGo; dsimp only
  split <;> simp

theorem sub_letGo (hs : s < h.subs.length) :
    (h.letGo s).sub t =
      if t = s then { h.sub t with countdown := (h.sub t).countdown.cancel, lease := none }
      else h.sub t := by
  rw [sub_eq (subs_letGo (.settlingTimeout s)), sub_finish hs]

@[simp] theorem beats_letGo : (h.letGo s).beats i = h.beats i := by
  have hd : (h.disarm s).beats i = h.beats i := congrArg View.beats (view_disarm h i s)
  unfold letGo; dsimp only
  split
  · exact hd
  · rw [← hd]; rfl

theorem disarm_push : (h.push f).disarm s = (h.disarm s).push f := by
  unfold disarm; dsimp only
  rw [sub_push]
  split <;> rfl

theorem letGo_push : (h.push f).letGo s = (h.letGo s).push f := by
  unfold letGo
  rw [disarm_push]; dsimp only
  rw [sub_push]
  cases ((h.disarm s).sub s).lease <;> rfl

theorem pop_push : (h.push f).pop = h := rfl

/-- A quiet transport lets go at once. -/
theorem finish_returns (hb : base.length ≤ h.stack.length)
    (hr : Returns base ((h.letGo s).push f) h') : Returns base (h.finish s f) h' := by
  unfold letGo at hr
  unfold finish
  dsimp only at hr ⊢
  rw [sub_push]
  split
  · next hl => rw [hl] at hr; exact hr
  · next l hl =>
    rw [hl] at hr
    refine .step ?_ hr
    rw [giveBack, stack_push, stack_note, stack_onSub, stack_push, stack_disarm]
    exact Nat.lt_of_le_of_lt hb (Nat.lt_of_lt_of_le (Nat.lt_succ_self _) (Nat.le_succ _))

end

/-! ### Cancelling one subscription -/

def cancelQuietly (h : Hub) (s : SubId) : Hub :=
  if (h.sub s).isActive then ((h.setState s .cancelled).letGo s).reportCancel s
  else h.reply (.bool false)

section
variable {h h' : Hub} {s t : SubId} {i : SessionId} {f : Frame}

theorem quietStep_reportingCancel : (h.push (.reportingCancel s)).quietStep = h.reportCancel s := rfl

theorem cancel_returns (h : Hub) (s : SubId) : Returns h.stack (h.cancel s) (h.cancelQuietly s) := by
  unfold cancel cancelQuietly
  split
  · refine finish_returns (Nat.le_refl _) (.step (by simp) ?_)
    rw [quietStep_reportingCancel]
    exact .done (by rw [stack_reportCancel]; simp)
  · exact .done rfl

theorem cancelQuietly_push :
    (h.push f).cancelQuietly s = (h.cancelQuietly s).push f := by
  unfold cancelQuietly
  rw [sub_push]
  split
  · rw [show (h.push f).setState s .cancelled = (h.setState s .cancelled).push f from rfl, letGo_push]
    rfl
  · rfl

@[simp] theorem stack_cancelQuietly : (h.cancelQuietly s).stack = h.stack :=
  (cancel_returns h s).stack_eq

theorem sub_cancelQuietly (hs : s < h.subs.length) :
    (h.cancelQuietly s).sub t =
      if t = s ∧ (h.sub t).isActive then (h.sub t).ousted else h.sub t := by
  unfold cancelQuietly
  split
  · next ha =>
    have hsub : (((h.setState s .cancelled).letGo s).reportCancel s).sub t =
        ((h.setState s .cancelled).letGo s).sub t := rfl
    rw [hsub, sub_letGo (by simpa [setState] using hs), sub_setState hs]
    by_cases hts : t = s
    · subst hts; rw [if_pos rfl, if_pos rfl, if_pos ⟨rfl, ha⟩]; rfl
    · rw [if_neg hts, if_neg hts, if_neg fun k => hts k.1]
  · next ha =>
    rw [if_neg]
    · rfl
    · rintro ⟨rfl, hact⟩; exact ha hact

theorem sub_cancelQuietly_other (hs : s < h.subs.length) (hne : t ≠ s) :
    (h.cancelQuietly s).sub t = h.sub t := by
  rw [sub_cancelQuietly hs, if_neg fun k => hne k.1]

theorem session_cancelQuietly (hs : (h.sub s).home < h.sessions.length) :
    (h.cancelQuietly s).session i =
      if (h.sub s).isActive ∧ (h.sub s).home = i then
        { h.session i with reports := (h.session i).reports ++ [.cancelled s] }
      else h.session i := by
  unfold cancelQuietly
  split
  · next ha =>
    generalize hg : (h.setState s .cancelled).letGo s = g
    have hses : g.sessions = h.sessions := by rw [← hg]; simp
    have hhome : (g.sub s).home = (h.sub s).home := by
      by_cases hlt : s < h.subs.length
      · rw [← hg, sub_letGo (by simpa [setState] using hlt), if_pos rfl, sub_setState hlt, if_pos rfl]
      · have hd : (h.sub s) = default := by
          unfold sub
          rw [List.getD_eq_getElem?_getD, List.getElem?_eq_none (Nat.le_of_not_lt hlt)]; rfl
        rw [hd] at ha; cases ha
    have hi : (g.sub s).home < g.sessions.length := by rw [hses, hhome]; exact hs
    have hr : (g.reportCancel s).session i =
        (g.onSession (g.sub s).home fun x => { x with reports := x.reports ++ [.cancelled s] }).session
          i := rfl
    rw [hr, session_onSession _ _ _ hi, session_eq hses, hhome]
    by_cases hh : (h.sub s).home = i
    · rw [if_pos hh.symm, if_pos ⟨ha, hh⟩]
    · rw [if_neg fun e => hh e.symm, if_neg fun k => hh k.2]
  · next ha => rw [if_neg fun k => ha k.1]; rfl

end

/-! ### Cancelling one subscription after the other -/

def sweep (sid : SessionId) : List SubId → Nat → Hub → Hub
  | [], n, h => (if n = 0 then h else h.note (.released sid n)).reply (.count n)
  | s :: l, n, h =>
    if (h.sub s).isActive then sweep sid l (n + 1) (h.cancelQuietly s) else sweep sid l n h

/-- The reports that a release makes to a session. -/
def outcries (h : Hub) (i : SessionId) (l : List SubId) : List Report :=
  (l.filter fun s => (h.sub s).isActive && (h.sub s).home == i).map .cancelled

section
variable {h : Hub} {s t : SubId} {i sid : SessionId} {l : List SubId} {n : Nat}

theorem sweep_nil : sweep sid [] n h =
    (if n = 0 then h else h.note (.released sid n)).reply (.count n) := rfl

theorem sweep_cons_of_active (ha : (h.sub s).isActive) :
    sweep sid (s :: l) n h = sweep sid l (n + 1) (h.cancelQuietly s) := if_pos ha

theorem sweep_cons_of_inactive (ha : (h.sub s).isActive = false) :
    sweep sid (s :: l) n h = sweep sid l n h := if_neg (by rw [ha]; exact Bool.false_ne_true)

@[simp] theorem stack_sweep : (sweep sid l n h).stack = h.stack := by
  induction l generalizing n h with
  | nil => rw [sweep_nil, stack_reply]; split <;> rfl
  | cons s l ih =>
    cases ha : (h.sub s).isActive with
    | true => rw [sweep_cons_of_active ha, ih, stack_cancelQuietly]
    | false => rw [sweep_cons_of_inactive ha, ih]

theorem quietStep_releasing :
    (h.push (.releasing sid l n)).quietStep = h.releaseStep sid l n := rfl

/-- A quiet release runs to its end. -/
theorem release_returns (h : Hub) (sid : SessionId) (l : List SubId) (n : Nat) :
    Returns h.stack (h.push (.releasing sid l n)) (sweep sid l n h) := by
  induction l generalizing n h with
  | nil =>
    refine .step (by simp) ?_
    rw [quietStep_releasing]
    exact .done (stack_sweep (l := []))
  | cons s l ih =>
    refine .step (by simp) ?_
    rw [quietStep_releasing]
    unfold releaseStep; dsimp only
    split
    · next ha =>
      have hc := cancel_returns (h.push (.releasing sid l (n + 1))) s
      rw [cancelQuietly_push] at hc
      have hs := ih (h.cancelQuietly s) (n + 1)
      rw [stack_cancelQuietly] at hs
      rw [sweep_cons_of_active ha]
      exact hc.trans (by simp) hs
    · next ha =>
      rw [sweep_cons_of_inactive (by simpa using ha)]
      exact ih h n

@[simp] theorem subs_length_cancelQuietly : (h.cancelQuietly s).subs.length = h.subs.length := by
  unfold cancelQuietly
  split
  · have hl : ((h.setState s .cancelled).letGo s).subs.length = h.subs.length := by
      rw [subs_letGo (.settlingTimeout s)]
      exact congrArg Prod.fst (size_of_given (by simp))
    exact hl
  · rfl

@[simp] theorem sessions_length_cancelQuietly :
    (h.cancelQuietly s).sessions.length = h.sessions.length := by
  unfold cancelQuietly
  split
  · simp [reportCancel, report]
  · rfl

@[simp] theorem beats_cancelQuietly : (h.cancelQuietly s).beats i = h.beats i := by
  unfold cancelQuietly
  split
  · have hb : (((h.setState s .cancelled).letGo s).reportCancel s).beats i =
        ((h.setState s .cancelled).letGo s).beats i := rfl
    rw [hb, beats_letGo]; rfl
  · rfl

@[simp] theorem beats_sweep : (sweep sid l n h).beats i = h.beats i := by
  induction l generalizing n h with
  | nil => rw [sweep_nil]; split <;> rfl
  | cons s l ih =>
    cases ha : (h.sub s).isActive with
    | true => rw [sweep_cons_of_active ha, ih, beats_cancelQuietly]
    | false => rw [sweep_cons_of_inactive ha, ih]

@[simp] theorem subs_length_sweep : (sweep sid l n h).subs.length = h.subs.length := by
  induction l generalizing n h with
  | nil => rw [sweep_nil]; split <;> rfl
  | cons s l ih =>
    cases ha : (h.sub s).isActive with
    | true => rw [sweep_cons_of_active ha, ih, subs_length_cancelQuietly]
    | false => rw [sweep_cons_of_inactive ha, ih]

@[simp] theorem sessions_length_sweep : (sweep sid l n h).sessions.length = h.sessions.length := by
  induction l generalizing n h with
  | nil => rw [sweep_nil]; split <;> rfl
  | cons s l ih =>
    cases ha : (h.sub s).isActive with
    | true => rw [sweep_cons_of_active ha, ih, sessions_length_cancelQuietly]
    | false => rw [sweep_cons_of_inactive ha, ih]

theorem sub_sweep (hl : ∀ s ∈ l, s < h.subs.length) :
    (sweep sid l n h).sub t =
      if t ∈ l ∧ (h.sub t).isActive then (h.sub t).ousted else h.sub t := by
  induction l generalizing n h with
  | nil =>
    have hx : (sweep sid [] n h).sub t = h.sub t := by rw [sweep_nil]; split <;> rfl
    rw [hx, if_neg fun k => List.not_mem_nil k.1]
  | cons s l ih =>
    have hs := hl s List.mem_cons_self
    have hl' : ∀ s ∈ l, s < h.subs.length := fun s hs => hl s (List.mem_cons_of_mem _ hs)
    cases ha : (h.sub s).isActive with
    | true =>
      rw [sweep_cons_of_active ha, ih (by simpa using hl'), sub_cancelQuietly hs]
      by_cases hts : t = s
      · subst hts; simp [ha]
      · simp [hts]
    | false =>
      rw [sweep_cons_of_inactive ha, ih hl']
      by_cases hts : t = s
      · subst hts; simp [ha]
      · simp [hts]

theorem answer_sweep (hl : ∀ s ∈ l, s < h.subs.length) (hd : l.Nodup) :
    (sweep sid l n h).answer = .count (n + l.countP fun s => (h.sub s).isActive) := by
  induction l generalizing n h with
  | nil => rfl
  | cons s l ih =>
    obtain ⟨hs, hd⟩ := List.nodup_cons.1 hd
    have hlt := hl s List.mem_cons_self
    have hl' : ∀ s ∈ l, s < h.subs.length := fun s hs => hl s (List.mem_cons_of_mem _ hs)
    cases ha : (h.sub s).isActive with
    | true =>
      have hc : (l.countP fun t => ((h.cancelQuietly s).sub t).isActive) =
          l.countP fun t => (h.sub t).isActive := by
        refine List.countP_congr fun t ht => ?_
        rw [sub_cancelQuietly_other hlt (by rintro rfl; exact hs ht)]
      rw [sweep_cons_of_active ha, ih (by simpa using hl') hd, hc, List.countP_cons, if_pos ha]
      congr 1; omega
    | false =>
      rw [sweep_cons_of_inactive ha, ih hl' hd, List.countP_cons,
        if_neg (by rw [ha]; exact Bool.false_ne_true), Nat.add_zero]

theorem session_sweep (hl : ∀ s ∈ l, s < h.subs.length ∧ (h.sub s).home < h.sessions.length)
    (hd : l.Nodup) :
    (sweep sid l n h).session i =
      { h.session i with reports := (h.session i).reports ++ h.outcries i l } := by
  induction l generalizing n h with
  | nil =>
    have hx : (sweep sid [] n h).session i = h.session i := by rw [sweep_nil]; split <;> rfl
    rw [hx]; simp [outcries]
  | cons s l ih =>
    obtain ⟨hs, hd⟩ := List.nodup_cons.1 hd
    obtain ⟨hlt, hhome⟩ := hl s List.mem_cons_self
    have hl' : ∀ s ∈ l, s < h.subs.length ∧ (h.sub s).home < h.sessions.length :=
      fun s hs => hl s (List.mem_cons_of_mem _ hs)
    cases ha : (h.sub s).isActive with
    | true =>
      have hsub : ∀ t ∈ l, (h.cancelQuietly s).sub t = h.sub t := fun t ht =>
        sub_cancelQuietly_other hlt (by rintro rfl; exact hs ht)
      have hout : (h.cancelQuietly s).outcries i l = h.outcries i l := by
        unfold outcries
        congr 1
        exact List.filter_congr fun t ht => by rw [hsub t ht]
      rw [sweep_cons_of_active ha, ih (fun t ht => ?_) hd, hout, session_cancelQuietly hhome]
      · by_cases hh : (h.sub s).home = i
        · simp [ha, hh, outcries]
        · simp [ha, hh, outcries]
      · rw [hsub t ht]
        simpa using hl' t ht
    | false =>
      rw [sweep_cons_of_inactive ha, ih hl' hd]
      simp [outcries, ha]

end

end Hub
end Aftermath
