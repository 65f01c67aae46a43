import Aftermath.Proofs.Verdict

/-! Subscriptions on their way out of `active`. Every subscription of an undecided session that has
left `active` has a frame on the stack that will claim or report, or its report is there; one that has
fired or timed out has claimed its session or will. -/

namespace Aftermath

def Frame.state? : Frame → Option SubState
  | .settlingEvent _ _ => some .fired
  | .settlingTimeout _ => some .timedOut
  | _ => none

def Claim.state? (s : SubId) : Claim → Option SubState
  | .fired t _ => if t = s then some .fired else none
  | .timedOut t => if t = s then some .timedOut else none
  | _ => none

namespace Hub

/-- A delivery, an expiry or a cancellation of a subscription is half-way. -/
def InFlight (h : Hub) (s : SubId) : Prop := ∃ f ∈ h.stack, f.sub? = some s ∧ f.report?.isSome

def Pending (h : Hub) (s : SubId) : Prop :=
  (h.sub s).isActive ∨ InFlight h s ∨ .cancelled s ∈ (h.session (h.sub s).home).reports

section
variable {h h' : Hub} {sid : SessionId} {m : Move} {s : SubId} {x y : View}

theorem inFlight_iff : InFlight h s ↔ ∃ f ∈ h.flight s, f.report?.isSome := by
  simp [InFlight, flight, and_assoc]

/-- A session that is undecided now was undecided before. -/
theorem claim_none (ha : Reachable h) (hm : Moved h m h') (hn : (h'.session sid).claim = none) :
    (h.session sid).claim = none := by
  cases hc : (h.session sid).claim with
  | none => rfl
  | some c => rw [claim_move ha hm hc] at hn; cases hn

/-- A request to the transport is under way only while the session is configured. -/
theorem configuring_of_subscribing (ha : Reachable h) (hf : .subscribing s ∈ h.flight s) :
    (h.session (h.sub s).home).phase = .configuring := by
  have hst : .subscribing s ∈ h.stack := (List.mem_filter.1 hf).1
  obtain ⟨above, below, he⟩ := List.append_of_mem hst
  have hl := ha.wired.laid
  rw [he] at hl
  obtain ⟨-, hhead⟩ := hl.liesOn
  obtain ⟨l, rfl⟩ : ∃ l, below = .configuring (h.sub s).home :: l := by
    cases below with
    | nil => cases hhead
    | cons a l => cases hhead; exact ⟨l, rfl⟩
  have hc : .configuring (h.sub s).home ∈ h.thread (h.sub s).home := by
    unfold thread
    rw [he]
    simp [Frame.session?]
  have hfit := ha.fits (h.sub s).home
  generalize h.thread (h.sub s).home = t at hc hfit
  generalize (h.session (h.sub s).home).phase = p at hfit ⊢
  generalize (h.session (h.sub s).home).running = r at hfit
  cases hfit <;> first | rfl | simp at hc

/-- The answer of the transport to a subscription is there when its session is configured. -/
theorem error_fixed (ha : Reachable h) (hm : Moved h m h') (hs : s < h.subs.length)
    (hp : (h.session (h.sub s).home).phase ≠ .configuring) : (h'.sub s).error = (h.sub s).error := by
  have hreq : .subscribing s ∉ (h.subView s).flight := fun hf => hp (configuring_of_subscribing ha hf)
  have hsh := move_shift ha.wired hm s
  show (h'.subView s).self.error = (h.subView s).self.error
  generalize h.subView s = v at hsh hreq
  generalize h'.subView s = w at hsh
  cases hsh
  case born he _ _ _ | bornLate he _ _ _ _ => exact absurd he (Nat.ne_of_lt hs)
  case declined | declinedLate => exact absurd List.mem_cons_self hreq
  all_goals rfl

/-- A subscription leaves `active` with a frame that will report, unless the transport declined
it. -/
theorem Shift.leaving {v w : SubView} (hs : Shift h h' s v w) (hk : Kept s v) (ha : v.self.isActive)
    (hr : .subscribing s ∉ v.flight) :
    w.self.isActive ∨ ∃ f ∈ w.flight, f.report?.isSome := by
  cases hs
  case leaves f _ _ _ _ _ hl _ =>
    exact .inr ⟨_, List.mem_cons_self, by cases hl <;> rfl⟩
  case born => exact .inl rfl
  case bornLate => cases ha
  case loses hf _ =>
    obtain ⟨p, hf, -⟩ := exists_of_any hf
    have hx := hk.left _ List.mem_cons_self (by rw [hf]; rfl)
    exact absurd (hx.symm.trans ha) nofun
  case declined => exact absurd List.mem_cons_self hr
  all_goals exact .inl ha

/-- A frame that will report stays until it has claimed, lost or reported. -/
theorem Shift.lands {v w : SubView} (hs : Shift h h' s v w) {f : Frame} (hf : f ∈ v.flight)
    (hr : f.report?.isSome) :
    f ∈ w.flight ∨ (h'.session v.self.home).claim.isSome ∨
      (h.session v.self.home).isSettled ∨
      .cancelled s ∈ (h'.session v.self.home).reports := by
  cases hs
  case wins hc _ hcl _ => exact .inr (.inl (by rw [hcl]; exact hc))
  case loses hc => exact .inr (.inr (.inl hc))
  case reports hre =>
    refine .inr (.inr (.inr ?_))
    rw [hre]; exact List.mem_append_right _ List.mem_cons_self
  case granted | grantedLate | declined | declinedLate =>
    rcases List.mem_cons.1 hf with rfl | hf
    · cases hr
    · exact .inl hf
  case leaves | born => exact .inl (List.mem_cons_of_mem _ hf)
  case bornLate => exact .inl (List.mem_cons_of_mem _ (List.mem_cons_of_mem _ hf))
  all_goals exact .inl hf

/-- A subscription that is active or half-way out of `active` is not lost sight of while its session
is undecided. -/
theorem pending_of_live (ha : Reachable h) (hm : Moved h m h') (hs : s < h.subs.length)
    (hp : (h.session (h.sub s).home).phase ≠ .configuring)
    (hn : (h'.session (h.sub s).home).claim = none)
    (hl : (h.sub s).isActive ∨ InFlight h s) : Pending h' s := by
  have hsh := move_shift ha.wired hm s
  have hhome := (sub_fixed ha.wired hm hs).1
  have hreq : .subscribing s ∉ h.flight s := fun hf => hp (configuring_of_subscribing ha hf)
  have hold : (h.session (h.sub s).home).claim = none := claim_none ha hm hn
  unfold Pending
  rw [inFlight_iff] at hl ⊢
  rw [hhome]
  rcases hl with hact | ⟨f, hf, hfr⟩
  · rcases hsh.leaving (ha.kept s) hact hreq with hact | hfl
    · exact .inl hact
    · exact .inr (.inl hfl)
  · rcases hsh.lands hf hfr with hf | hc | hc | hrep
    · exact .inr (.inl ⟨f, hf, hfr⟩)
    · rw [show (h'.session (h.subView s).self.home).claim = none from hn] at hc; cases hc
    · rw [Session.isSettled, show (h.session (h.subView s).self.home).claim = none from hold] at hc
      cases hc
    · exact .inr (.inr hrep)

/-- Nor is one whose report nobody takes. -/
theorem pending_move (ha : Reachable h) (hm : Moved h m h') (hs : s < h.subs.length)
    (hp : (h.session (h.sub s).home).phase ≠ .configuring)
    (hn : (h'.session (h.sub s).home).claim = none)
    (hr : ∀ r ∈ (h.session (h.sub s).home).reports, r ∈ (h'.session (h.sub s).home).reports)
    (hpen : Pending h s) : Pending h' s := by
  rcases hpen with hact | hf | hrep
  · exact pending_of_live ha hm hs hp hn (.inl hact)
  · exact pending_of_live ha hm hs hp hn (.inr hf)
  · refine .inr (.inr ?_)
    rw [(sub_fixed ha.wired hm hs).1]
    exact hr _ hrep

end

/-! ### Fired and timed out -/

section
variable {h h' : Hub} {m : Move} {s : SubId} {st : SubState}

theorem state_of_report {f : Frame} {p : Report} (hp : f.report? = some p) (hf : f.sub? = some s)
    (hs : f.state? = some st) : ∃ c, p.claim? = some c ∧ c.state? s = some st := by
  cases f <;> cases hs <;> cases hp <;> cases hf
  · exact ⟨_, rfl, if_pos rfl⟩
  · exact ⟨_, rfl, if_pos rfl⟩

/-- A frame that claims for a subscription which has fired or timed out leaves its claim. -/
theorem Shift.claims {v w : SubView} (hs : Shift h h' s v w) (hf : ∀ f ∈ v.flight, f.sub? = some s)
    (hst : st = .fired ∨ st = .timedOut)
    (hv : v.self.state = st → (∃ f ∈ v.flight, f.state? = some st) ∨
      ∃ c, (h'.session v.self.home).claim = some c ∧ c.state? s = some st)
    (hw : w.self.state = st) :
    (∃ f ∈ w.flight, f.state? = some st) ∨
      ∃ c, (h'.session v.self.home).claim = some c ∧ c.state? s = some st := by
  cases hs
  case born | bornLate | loses | declined => subst hw; cases hst <;> contradiction
  case leaves hl _ =>
    refine .inl ⟨_, List.mem_cons_self, ?_⟩
    subst hw
    cases hl with
    | fired _ => rfl
    | timedOut _ => rfl
    | cancelled => cases hst <;> contradiction
  case wins f _ _ _ p hp hc _ hcl _ =>
    rcases hv hw with ⟨g, hg, hgs⟩ | hc
    · rcases List.mem_cons.1 hg with rfl | hg
      · obtain ⟨c, hpc, hcs⟩ := state_of_report hp (hf g List.mem_cons_self) hgs
        exact .inr ⟨c, hcl.trans hpc, hcs⟩
      · exact .inl ⟨g, hg, hgs⟩
    · exact .inr hc
  case reports | granted | grantedLate | declinedLate =>
    rcases hv hw with ⟨f, hf, hfs⟩ | hc
    · rcases List.mem_cons.1 hf with rfl | hf
      · cases hfs
      · exact .inl ⟨f, hf, hfs⟩
    · exact .inr hc
  all_goals exact hv hw

theorem Shift.state_of_blank {w : SubView} (hs : Shift h h' s blank w) :
    w.self.state = .active ∨ w.self.state = .cancelled := by
  generalize hv : blank = v at hs
  cases hs <;> cases hv <;> first | exact .inl rfl | exact .inr rfl | contradiction

/-- Who has fired or timed out is about to claim its session or has claimed it. -/
theorem Reachable.claims (hr : Reachable h) (hst : st = .fired ∨ st = .timedOut)
    (hs : (h.sub s).state = st) : (∃ f ∈ h.flight s, f.state? = some st) ∨
      ∃ c, (h.session (h.sub s).home).claim = some c ∧ c.state? s = some st := by
  induction hr using Reachable.induct with
  | init settings =>
    subst hs
    cases hst <;> contradiction
  | move a b m ha hm ih =>
    have hm := moved_of_move? hm
    have hsh := move_shift ha.wired hm s
    by_cases hlt : s < a.subs.length
    · rw [(sub_fixed ha.wired hm hlt).1]
      refine hsh.claims (fun f hf => by simpa using (List.mem_filter.1 hf).2) hst (fun hv => ?_) hs
      exact (ih hv).imp id fun ⟨c, hc, hcs⟩ => ⟨c, claim_move ha hm hc, hcs⟩
    · rw [ha.subView_beyond (Nat.le_of_not_lt hlt)] at hsh
      rcases hsh.state_of_blank with he | he
      · rw [show (b.sub s).state = .active from he] at hs
        subst hs; cases hst <;> contradiction
      · rw [show (b.sub s).state = .cancelled from he] at hs
        subst hs; cases hst <;> contradiction

end
end Hub
end Aftermath
