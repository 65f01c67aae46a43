import Aftermath.Proofs.Wired

/-! What holds of every subscription at any time. The transport is answered once; what it granted
and has not got back is the lease, and a subscription that has left `active` holds neither a lease
nor a countdown. -/

namespace Aftermath

/-- The state of affairs that every shift of a subscription keeps. -/
structure Kept (s : SubId) (v : SubView) : Prop where
  once : v.flight.count (.subscribing s) + v.granted.length + v.self.error.toList.length ≤ 1
  /-- A frame that still has to claim or report shows that the subscription has left `active`. -/
  left : ∀ f ∈ v.flight, f.report?.isSome → v.self.isActive = false
  leases : v.granted = v.self.lease.toList ++ v.returned
  lease : v.self.isActive = false → v.self.lease = none
  due : v.self.isActive = false → v.self.countdown.due = none
  armed : v.self.countdown.isArmed → v.self.armed
  expired : .settlingTimeout s ∈ v.flight → v.self.armed
  key : ∀ e, .settlingEvent s e ∈ v.flight → e.key = v.self.key

theorem Kept.unanswered {s : SubId} {x : Subscription} {fl : List Frame} {g r : List LeaseId}
    (hk : Kept s ⟨x, .subscribing s :: fl, g, r⟩) : g = [] := by
  have ho := hk.once
  simp only [List.count_cons_self] at ho
  exact List.eq_nil_of_length_eq_zero (by omega)

namespace Hub

section
variable {h h' : Hub} {s : SubId} {v w : SubView}

def blank : SubView := ⟨default, [], [], []⟩

theorem kept_blank (s : SubId) : Kept s blank where
  once := Nat.zero_le _
  left := nofun
  leases := rfl
  lease _ := rfl
  due _ := rfl
  armed := nofun
  expired := nofun
  key _ := nofun

theorem Shift.leases_of_blank (hs : Shift h h' s blank w) : w.granted = [] ∧ w.returned = [] := by
  generalize hv : blank = v at hs
  cases hs <;> cases hv <;> exact ⟨rfl, rfl⟩

/-- A frame that still has to report is not a request to the transport. -/
theorem count_of_report {f : Frame} {p : Report} {fl : List Frame} (hf : f.report? = some p) :
    (f :: fl).count (.subscribing s) = fl.count (.subscribing s) := by
  apply List.count_cons_of_ne
  rintro rfl
  cases hf

theorem exists_of_any {α : Type} {o : Option α} {p : α → Bool} (ho : o.any p) :
    ∃ a, o = some a ∧ p a := by
  cases o with
  | none => cases ho
  | some a => exact ⟨a, rfl, ho⟩

theorem Shift.once (hs : Shift h h' s v w) (hk : Kept s v) (hb : s = h.subs.length → v = blank) :
    w.flight.count (.subscribing s) + w.granted.length + w.self.error.toList.length ≤ 1 := by
  have ho := hk.once
  cases hs
  case born he _ _ _ => cases hb he; simp
  case bornLate he _ _ _ _ => cases hb he; simp
  case leaves hl _ => cases hl <;> simpa using ho
  case wins hf _ _ _ _ => rw [count_of_report hf] at ho; exact ho
  case loses hf _ =>
    obtain ⟨p, hf, -⟩ := exists_of_any hf
    rw [count_of_report hf] at ho; exact ho
  case reports => simpa using ho
  case granted | grantedLate =>
    simp only [List.count_cons_self, List.length_cons] at ho ⊢
    omega
  case declined | declinedLate =>
    simp only [List.count_cons_self, Option.toList_some, List.length_singleton] at ho ⊢
    omega
  all_goals exact ho

theorem Shift.leases (hs : Shift h h' s v w) (hk : Kept s v) (hb : s = h.subs.length → v = blank) :
    w.granted = w.self.lease.toList ++ w.returned := by
  have hl := hk.leases
  cases hs
  case born he _ _ _ => cases hb he; rfl
  case bornLate he _ _ _ _ => cases hb he; rfl
  case granted =>
    obtain rfl := hk.unanswered
    obtain ⟨-, rfl⟩ := List.append_eq_nil_iff.1 hl.symm
    rfl
  case grantedLate ha =>
    have hn := hk.lease ha
    dsimp only at hl hn ⊢
    rw [hl, hn]; rfl
  all_goals exact hl

theorem Shift.left (hs : Shift h h' s v w) (hk : Kept s v) (hb : s = h.subs.length → v = blank) :
    ∀ f ∈ w.flight, f.report?.isSome → w.self.isActive = false := by
  have hl := hk.left
  cases hs
  case born he _ _ _ =>
    cases hb he
    intro f hf hr
    cases List.mem_singleton.1 hf; cases hr
  case leaves hx _ => cases hx <;> exact fun _ _ _ => rfl
  case bornLate | loses | declined => exact fun _ _ _ => rfl
  case wins | reports | granted | grantedLate | declinedLate =>
    intro f hf
    exact hl f (List.mem_cons_of_mem _ hf)
  all_goals exact hl

/-- A subscription that is not active is left with neither lease nor countdown. -/
theorem Shift.let_go (hs : Shift h h' s v w) (hk : Kept s v) (ha : w.self.isActive = false) :
    w.self.lease = none ∧ w.self.countdown.due = none := by
  have hl := hk.lease
  have hd := hk.due
  cases hs
  case born => cases ha
  case bornLate hc | leaves hc => exact ⟨rfl, hc⟩
  case rings hx hc => exact ⟨hl hx, hc⟩
  case rearmed hx | granted hx => exact absurd (ha.symm.trans hx) nofun
  case armed hc =>
    have hx := hc ha
    rw [hx]; exact ⟨hl ha, hd ha⟩
  case loses hf _ =>
    obtain ⟨p, hf, -⟩ := exists_of_any hf
    have hx := hk.left _ List.mem_cons_self (by rw [hf]; rfl)
    exact ⟨hl hx, hd hx⟩
  case declined =>
    obtain rfl := hk.unanswered
    have hn := (List.append_eq_nil_iff.1 hk.leases.symm).1
    exact ⟨by simpa [Option.toList_eq_nil_iff] using hn, rfl⟩
  all_goals exact ⟨hl ha, hd ha⟩

theorem not_isArmed {c : Countdown} (hc : c.due = none) : ¬ c.isArmed := by
  simp [Countdown.isArmed, hc]

theorem Shift.countdown (hs : Shift h h' s v w) (hk : Kept s v) :
    w.self.countdown.isArmed → w.self.armed := by
  have ha := hk.armed
  cases hs
  case born | declined => nofun
  case bornLate hc | leaves hc | rings hc =>
    intro hn
    exact absurd hn (not_isArmed hc)
  case rearmed hx _ => exact fun _ => hx
  case armed => exact fun _ => rfl
  all_goals exact ha

theorem Shift.expired (hs : Shift h h' s v w) (hk : Kept s v) (hb : s = h.subs.length → v = blank) :
    .settlingTimeout s ∈ w.flight → w.self.armed := by
  have he := hk.expired
  cases hs
  case born hs _ _ _ => cases hb hs; simp
  case bornLate hs _ _ _ _ => cases hb hs; simp
  case armed => exact fun _ => rfl
  case leaves hl _ =>
    intro hin
    rcases List.mem_cons.1 hin with hm | hm
    · cases hl with
      | fired | cancelled => cases hm
      | timedOut hc => exact hk.armed hc
    · exact he hm
  case wins | loses | reports | granted | grantedLate | declined | declinedLate =>
    intro hm
    exact he (List.mem_cons_of_mem _ hm)
  all_goals exact he

theorem Shift.key (hs : Shift h h' s v w) (hk : Kept s v) (hb : s = h.subs.length → v = blank) :
    ∀ e, .settlingEvent s e ∈ w.flight → e.key = w.self.key := by
  have he := hk.key
  cases hs
  case born hs _ _ _ => cases hb hs; simp
  case bornLate hs _ _ _ _ => cases hb hs; simp
  case leaves hl _ =>
    intro e hin
    rcases List.mem_cons.1 hin with hm | hm
    · cases hl with
      | fired hkey => cases hm; exact hkey
      | timedOut | cancelled => cases hm
    · exact he e hm
  case wins | loses | reports | granted | grantedLate | declined | declinedLate =>
    intro e hm
    exact he e (List.mem_cons_of_mem _ hm)
  all_goals exact he

/-- Every shift keeps the state of affairs of its subscription. -/
theorem Shift.kept (hs : Shift h h' s v w) (hk : Kept s v) (hb : s = h.subs.length → v = blank) :
    Kept s w where
  once := hs.once hk hb
  left := hs.left hk hb
  leases := hs.leases hk hb
  lease ha := (hs.let_go hk ha).1
  due ha := (hs.let_go hk ha).2
  armed := hs.countdown hk
  expired := hs.expired hk hb
  key := hs.key hk hb

theorem flight_beyond (hl : h.Laid h.stack) (hs : h.subs.length ≤ s) : h.flight s = [] := by
  apply List.filter_eq_nil_iff.2
  intro f hf hn
  exact absurd (hl.sub_lt hf (by simpa using hn)) (Nat.not_lt.2 hs)

theorem subView_of_unseen (hl : h.Laid h.stack) (hs : h.subs.length ≤ s)
    (hn : h.granted s = [] ∧ h.returned s = []) : h.subView s = blank := by
  have hd : h.sub s = default := by
    unfold sub
    rw [List.getD_eq_getElem?_getD, List.getElem?_eq_none hs]; rfl
  rw [subView, hd, flight_beyond hl hs, hn.1, hn.2]; rfl

/-- Of a subscription that is not there yet nothing can be seen. -/
theorem Reachable.subView_beyond (hr : Reachable h) (hs : h.subs.length ≤ s) :
    h.subView s = blank := by
  induction hr using Reachable.induct with
  | init settings => exact subView_of_unseen trivial hs ⟨rfl, rfl⟩
  | move a b m ha hm ih =>
    have hm := moved_of_move? hm
    have hsh := move_shift ha.wired hm s
    rw [ih (Nat.le_trans (subs_length_le hm) hs)] at hsh
    exact subView_of_unseen (wired_move ha.wired hm).laid hs hsh.leases_of_blank

/-- The state of affairs of every subscription at any time. -/
theorem Reachable.kept (hr : Reachable h) (s : SubId) : Kept s (h.subView s) := by
  induction hr using Reachable.induct with
  | init settings => exact kept_blank s
  | move a b m ha hm ih =>
    exact (move_shift ha.wired (moved_of_move? hm) s).kept ih fun hs =>
      ha.subView_beyond (Nat.le_of_eq hs.symm)

theorem Shift.unreturned (hs : Shift h h' s v w) (hb : s = h.subs.length → v = blank)
    (hv : v.self.isActive → v.returned = []) (ha : w.self.isActive) : w.returned = [] := by
  cases hs
  case born he _ _ _ => cases hb he; rfl
  case leaves hl _ => cases hl <;> cases ha
  case grantedLate hx => rw [hx] at ha; cases ha
  case loses | declined | bornLate => cases ha
  all_goals exact hv ha

/-- A subscription that is active has given nothing back. -/
theorem Reachable.unreturned (hr : Reachable h) (ha : (h.sub s).isActive) : h.returned s = [] := by
  induction hr using Reachable.induct with
  | init settings => rfl
  | move a b m hr hm ih =>
    refine (move_shift hr.wired (moved_of_move? hm) s).unreturned (fun hs => ?_) ih ha
    exact hr.subView_beyond (Nat.le_of_eq hs.symm)

end
end Hub
end Aftermath
